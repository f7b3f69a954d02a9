import Xmqtt.Message.EncodeOutput
import Xmqtt.Message.EncodedFrame
import Xmqtt.Message.Methods

/-!
# Encoding into any buffer

An encode is safe when it returns, and when a return without an error means
that the complete encoding is in the buffer.  All types but PUBLISH measure the
buffer with the header length of an earlier remaining length.  When the body
has grown past a varint threshold since, the buffer may be up to three bytes
too short for what is then written: the length-prefixed fields notice, the QoS
byte of a SUBSCRIBE panics, and the return codes of a SUBACK are cut off.
-/

namespace Xmqtt.Message

open Xmqtt.Go

/-- The call returns, and if it does so without an error the buffer holds the
complete encoding; a buffer that is too short for it is refused. -/
structure Safe {μ : Type} (outcome : Outcome Err (Encoded μ)) (dst encoding : Bytes) :
    Prop where
  returns : outcome ≠ .panic
  complete : ∀ state n, outcome = .done state n →
    n ≤ dst.length ∧ n = encoding.length ∧ state.dst.take n = encoding
  short : dst.length < encoding.length → ∃ state n err, outcome = .fail state n err

section Safe

variable {μ : Type} {outcome : Outcome Err (Encoded μ)} {dst encoding : Bytes}

theorem safe_fail (state : Encoded μ) (n : ℕ) (err : Err) :
    Safe (.fail state n err) dst encoding :=
  ⟨nofun, nofun, fun _ => ⟨state, n, err, rfl⟩⟩

theorem safe_done_iff {state : Encoded μ} {n : ℕ} :
    Safe (.done state n) dst encoding ↔
      n ≤ dst.length ∧ n = encoding.length ∧ state.dst.take n = encoding := by
  constructor
  · intro hsafe
    exact hsafe.complete state n rfl
  · rintro ⟨hfit, hcount, hbytes⟩
    refine ⟨nofun, ?_, fun hshort => ?_⟩
    · rintro state' n' ⟨⟩
      exact ⟨hfit, hcount, hbytes⟩
    · omega

theorem not_safe_panic : ¬ Safe (.panic : Outcome Err (Encoded μ)) dst encoding :=
  fun hsafe => hsafe.returns rfl

theorem safe_lift_iff {wrap : μ → Message} :
    Safe (Message.lift wrap outcome) dst encoding ↔ Safe outcome dst encoding := by
  cases outcome with
  | done state n =>
      rw [Message.lift, Outcome.map_done, safe_done_iff, safe_done_iff]
  | fail state n err => exact iff_of_true (safe_fail _ _ _) (safe_fail _ _ _)
  | panic => exact iff_of_false not_safe_panic not_safe_panic

/-- A call that never panics, and that returns one result without an error when
`ready` holds. -/
theorem safe_iff_of_done {ready : Prop} {result : Encoded μ} {count : ℕ}
    (hpanic : outcome ≠ .panic)
    (hdone : ∀ state n, outcome = .done state n ↔ ready ∧ state = result ∧ n = count)
    (hfit : ready → count ≤ dst.length) :
    Safe outcome dst encoding ↔
      (ready → count = encoding.length ∧ result.dst.take count = encoding) := by
  cases houtcome : outcome with
  | panic => exact (hpanic houtcome).elim
  | fail state n err =>
      refine iff_of_true (safe_fail _ _ _) fun hready => ?_
      have hresult := (hdone result count).mpr ⟨hready, rfl, rfl⟩
      rw [houtcome] at hresult
      cases hresult
  | done state n =>
      obtain ⟨hready, rfl, rfl⟩ := (hdone state n).mp houtcome
      rw [safe_done_iff]
      exact ⟨fun hsafe _ => hsafe.2, fun hcomplete => ⟨hfit hready, hcomplete hready⟩⟩

end Safe

/-! ## Lengths -/

/-- The length of a body becomes another one when it is converted to 32 bits, and
`SetRemainingLength` accepts that. -/
def Wraps (ml : ℕ) : Prop :=
  (0 ≤ int32 ml ∧ int32 ml ≤ maxRemainingLength) ∧ int32 ml ≠ ml

theorem not_wraps_of_le {ml : ℕ} (hml : ml ≤ 268435455) : ¬ Wraps ml := by
  intro hwraps
  exact hwraps.2 (int32_of_lt (by omega))

/-- The fixed header that belongs in front of a body, and the body. -/
def whole (mtypeflags : Byte) (body : Bytes) : Bytes :=
  mtypeflags :: (uvarintBytes body.length ++ body)

theorem length_whole (mtypeflags : Byte) (body : Bytes) :
    (whole mtypeflags body).length = 1 + (uvarintBytes body.length).length + body.length := by
  rw [whole, List.length_cons, List.length_append]
  omega

section Sized

variable {header : Header} {body rest : Bytes} {ml : ℕ}

/-- What an encoder has written in front of `rest` is complete exactly when the
length of the body has survived the conversion to 32 bits. -/
theorem complete_iff (hremlen : 0 ≤ int32 ml ∧ int32 ml ≤ maxRemainingLength)
    (hml : ml = body.length) :
    ((header.sized ml).msglen + ml = (whole header.mtypeflags body).length ∧
      ((header.sized ml).wire ++ body ++ rest).take ((header.sized ml).msglen + ml) =
        whole header.mtypeflags body) ↔ ¬ Wraps ml := by
  subst hml
  have hwire : (header.sized body.length).wire.length = (header.sized body.length).msglen :=
    Header.length_wire hremlen.1 hremlen.2
  have htake : ((header.sized body.length).wire ++ body ++ rest).take
      ((header.sized body.length).msglen + body.length) =
      (header.sized body.length).wire ++ body := by
    rw [← hwire, ← List.length_append, List.take_left]
  rw [htake]
  constructor
  · rintro ⟨hcount, -⟩ hwraps
    have hhigh := (header.sized body.length).msglen_le
    have hlarge : 128 ^ 4 ≤ body.length := by
      by_contra hsmall
      exact hwraps.2 (int32_of_lt (by norm_num at hsmall; omega))
    have hlong : 4 < (uvarintBytes body.length).length :=
      lt_length_uvarintDigits (by rw [maxVarintLen64]; norm_num) hlarge
    rw [length_whole] at hcount
    omega
  · intro hwraps
    have hint : int32 body.length = body.length := by
      by_contra hne
      exact hwraps ⟨hremlen, hne⟩
    have hwhole : (header.sized body.length).wire ++ body =
        whole header.mtypeflags body := by
      rw [Header.wire, Header.remlen_sized, hint]
      rfl
    refine ⟨?_, hwhole⟩
    rw [← hwhole, List.length_append, hwire]

/-- A buffer that was found long enough has room for the header and two bytes. -/
theorem room_of_measured {dst : Bytes} (hml : 2 ≤ ml)
    (hroom : header.msglen + ml ≤ dst.length) :
    (header.sized ml).msglen + 2 ≤ dst.length := by
  have hlow := header.two_le_msglen
  have hhigh := (header.sized ml).msglen_le
  have hlong : 2 < (header.sized ml).msglen → 127 < ml := Header.msglen_sized_lt
  omega

end Sized

/-! ## Encoders that do not panic -/

section NoPanic

variable {μ : Type}

theorem emitLP_ne_panic (field : Bytes) (state : Encoded μ) (total : ℕ) :
    emitLP field state total ≠ .panic := by
  by_cases hfit : field.length ≤ maxLPString ∧
      (lpBytes field).length ≤ (state.dst.drop total).length
  · rw [emitLP_of_fits hfit.1 hfit.2]
    exact nofun
  · rw [emitLP_of_not_fits hfit]
    exact nofun

theorem emitHeader_ne_panic (header : Header) (state : Encoded μ) :
    emitHeader header state ≠ .panic := by
  by_cases hfit : (0 ≤ header.remlen ∧ header.remlen ≤ maxRemainingLength) ∧
      header.type.valid = true ∧ header.msglen ≤ state.dst.length
  · obtain ⟨hremlen, htype, hdst⟩ := hfit
    rw [emitHeader, Header.encode_of_le hremlen.1 hremlen.2 htype hdst]
    intro hpanic
    cases hpanic
  · obtain ⟨err, hrefused⟩ := header.encode_refused hfit
    rw [emitHeader, hrefused state.dst rfl]
    intro hpanic
    cases hpanic

variable {header : Header} {rebuild : Header → μ} {ml : ℕ}
variable {fields : Encoded μ → ℕ → Outcome Err (Encoded μ)} {dst : Bytes}
variable {gPacketId : UInt64} {name : String}

/-- An encoder panics where its fields do, behind a header that was written into a
buffer that was found long enough. -/
theorem encodeBody_eq_panic_iff :
    encodeBody header rebuild ml fields dst gPacketId name = .panic ↔
      header.msglen + ml ≤ dst.length ∧
        (0 ≤ int32 ml ∧ int32 ml ≤ maxRemainingLength) ∧ header.type.valid = true ∧
        (header.sized ml).msglen ≤ dst.length ∧
        fields
          ⟨rebuild (header.sized ml),
            (header.sized ml).wire ++ dst.drop (header.sized ml).msglen, gPacketId⟩
          (header.sized ml).wire.length = .panic := by
  rw [encodeBody]
  split <;> rename_i hroom
  · simp only [reduceCtorEq, false_iff]
    omega
  · rw [and_iff_right (by omega), encodeSized]
    by_cases hremlen : 0 ≤ int32 ml ∧ int32 ml ≤ maxRemainingLength
    · rw [Header.setRemainingLength_int32 hremlen, and_iff_right hremlen]
      by_cases hfit : header.type.valid = true ∧ (header.sized ml).msglen ≤ dst.length
      · have hheader : emitHeader (header.sized ml)
            ⟨rebuild (header.sized ml), dst, gPacketId⟩ = .done _ _ :=
          emitHeader_eq_done_iff.mpr ⟨hremlen, hfit.1, hfit.2, rfl, rfl⟩
        simp only [hheader, Outcome.done_andThen, hfit, true_and]
      · have hinvalid : ¬ ((0 ≤ (header.sized ml).remlen ∧
            (header.sized ml).remlen ≤ maxRemainingLength) ∧
            (header.sized ml).type.valid = true ∧ (header.sized ml).msglen ≤ dst.length) :=
          fun haccepted => hfit haccepted.2
        obtain ⟨err, herr⟩ := (header.sized ml).encode_refused hinvalid
        simp only [emitHeader, herr dst rfl, Outcome.map_fail, Outcome.fail_andThen,
          reduceCtorEq, false_iff]
        exact fun hpanic => hfit ⟨hpanic.1, hpanic.2.1⟩
    · obtain ⟨err, herr⟩ := header.setRemainingLength_of_not hremlen
      rw [herr]
      simp [hremlen]

end NoPanic

/-! ## Encoders that check every write -/

section Checked

variable {μ : Type} {outcome : Outcome Err (Encoded μ)} {header : Header} {ok : Prop}
variable {body dst rest : Bytes} {gPacketId : UInt64} {ml : ℕ}

/-- An encoder that, when `ok` holds, writes a sized header and a body that fit:
only a length that wraps is missed. -/
theorem safe_iff_not_wraps {this : μ} (hml : ml = body.length) (hpanic : outcome ≠ .panic)
    (hdone : ∀ state n, outcome = .done state n ↔
      (ok ∧ (0 ≤ int32 ml ∧ int32 ml ≤ maxRemainingLength) ∧
        (header.sized ml).msglen + ml ≤ dst.length) ∧
      state = ⟨this, (header.sized ml).wire ++ body ++ rest, gPacketId⟩ ∧
      n = (header.sized ml).msglen + ml) :
    Safe outcome dst (whole header.mtypeflags body) ↔
      ¬ (ok ∧ (header.sized ml).msglen + ml ≤ dst.length ∧ Wraps ml) := by
  rw [safe_iff_of_done hpanic hdone fun hready => hready.2.2]
  constructor
  · rintro hcomplete ⟨hok, hfit, hwraps⟩
    exact (complete_iff hwraps.1 hml).mp (hcomplete ⟨hok, hwraps.1, hfit⟩) hwraps
  · rintro hflaw ⟨hok, hremlen, hfit⟩
    exact (complete_iff hremlen hml).mpr fun hwraps => hflaw ⟨hok, hfit, hwraps⟩

theorem emits_iff_of_valid (hvalid : header.type.valid = true) {this : μ} {state : Encoded μ}
    {n : ℕ} : Emits header ml ok body dst this gPacketId state n ↔
      ((header.msglen + ml ≤ dst.length ∧ ok) ∧
        (0 ≤ int32 ml ∧ int32 ml ≤ maxRemainingLength) ∧
        (header.sized ml).msglen + ml ≤ dst.length) ∧
      state = ⟨this, (header.sized ml).wire ++ body ++
        dst.drop ((header.sized ml).msglen + ml), gPacketId⟩ ∧
      n = (header.sized ml).msglen + ml := by
  rw [emits_iff]
  tauto

variable {fields : Encoded μ → ℕ → Outcome Err (Encoded μ)} {bytes : Bytes} {name : String}

theorem safe_encodeBody_iff {rebuild : Header → μ} (hvalid : header.type.valid = true)
    (hfields : Writes fields ok bytes) (hml : ml = bytes.length)
    (hpanic : encodeBody header rebuild ml fields dst gPacketId name ≠ .panic) :
    Safe (encodeBody header rebuild ml fields dst gPacketId name) dst
        (whole header.mtypeflags bytes) ↔
      ¬ ((header.msglen + ml ≤ dst.length ∧ ok) ∧
        (header.sized ml).msglen + ml ≤ dst.length ∧ Wraps ml) := by
  apply safe_iff_not_wraps hml hpanic
  intro state n
  exact (encodeBody_writes_eq_done_iff hfields hml).trans (emits_iff_of_valid hvalid)

theorem packetId_ensurePacketId_sized (header : Header) (ml : ℕ) (gPacketId : UInt64) :
    ((header.sized ml).ensurePacketId gPacketId).1.packetId =
      (header.ensurePacketId gPacketId).1.packetId := by
  rw [Header.ensurePacketId, Header.ensurePacketId, Header.packetIdValue_sized]
  split
  · rw [Header.setPacketId, Header.setPacketId]
    split <;> rfl
  · rfl

theorem safe_encodeBody_packetId_iff {header : μ → Header} {rebuild : μ → Header → μ}
    (hheader : ∀ this sized, header (rebuild this sized) = sized) {this : μ}
    (hvalid : (header this).type.valid = true) (hfields : Writes fields ok bytes)
    (hml : ml = 2 + bytes.length)
    (hpanic : encodeBody (header this) (rebuild this) ml
      (fun state total => (emitPacketId header rebuild state total).andThen fields)
      dst gPacketId name ≠ .panic) :
    Safe
        (encodeBody (header this) (rebuild this) ml
          (fun state total => (emitPacketId header rebuild state total).andThen fields)
          dst gPacketId name)
        dst
        (whole (header this).mtypeflags
          (((header this).ensurePacketId gPacketId).1.packetId ++ bytes)) ↔
      ¬ (((header this).msglen + ml ≤ dst.length ∧ ok) ∧
        ((header this).sized ml).msglen + ml ≤ dst.length ∧ Wraps ml) := by
  rw [← packetId_ensurePacketId_sized _ ml]
  have hbody : ml =
      ((((header this).sized ml).ensurePacketId gPacketId).1.packetId ++ bytes).length := by
    rw [List.length_append, Header.length_packetId_ensurePacketId, hml]
  apply safe_iff_not_wraps hbody hpanic
  intro state n
  exact (encodeBody_packetId_eq_done_iff hheader hfields hml).trans (emits_iff_of_valid hvalid)

end Checked

theorem PubackMessage.safe_encode {this : PubackMessage} (hkept : this.toHeader.Kept)
    (dst : Bytes) (gPacketId : UInt64) :
    Safe (this.encode dst gPacketId) dst
      (whole this.mtypeflags (packetIdOrZero this.packetId)) := by
  have hml : this.msglen = (packetIdOrZero this.packetId).length := by
    rw [length_packetIdOrZero, msglen]
  have hpanic : encodeBody this.toHeader this.withHeader this.msglen
      (emitPacketIdOrZero this.packetId) dst gPacketId "puback" ≠ .panic := by
    intro hpanic
    obtain ⟨hroom, hremlen, -, -, hfields⟩ := encodeBody_eq_panic_iff.mp hpanic
    have hfit := room_of_measured (le_refl 2) hroom
    rw [emitPacketIdOrZero, if_neg] at hfields
    · cases hfields
    · rw [List.length_append, List.length_drop, Header.length_wire hremlen.1 hremlen.2]
      exact not_lt.mpr (by simp only [msglen]; omega)
  rw [encode, if_neg (by simp [hkept.dirty]),
    safe_encodeBody_iff hkept.valid (emitPacketIdOrZero_writes this.packetId) hml hpanic]
  rintro ⟨-, -, hwraps⟩
  exact not_wraps_of_le (by rw [msglen]; norm_num) hwraps

theorem UnsubscribeMessage.emitTopics_ne_panic (topics : List Bytes)
    (state : Encoded UnsubscribeMessage) (total : ℕ) :
    emitTopics topics state total ≠ .panic := by
  induction topics generalizing state total with
  | nil => exact nofun
  | cons topic topics ih =>
      exact Outcome.andThen_ne_panic (emitLP_ne_panic topic state total)
        fun state total _ => ih state total

theorem UnsubscribeMessage.safe_encode_iff {this : UnsubscribeMessage}
    (hkept : this.toHeader.Kept) (dst : Bytes) (gPacketId : UInt64) :
    Safe (this.encode dst gPacketId) dst
        (whole this.mtypeflags
          ((this.ensurePacketId gPacketId).1.packetId ++ topicsBytes this.topics)) ↔
      ¬ ((this.toHeader.msglen + this.msglen ≤ dst.length ∧
          ∀ topic ∈ this.topics, topic.length ≤ maxLPString) ∧
        (this.sized this.msglen).msglen + this.msglen ≤ dst.length ∧ Wraps this.msglen) := by
  rw [encode, if_neg (by simp [hkept.dirty])]
  apply safe_encodeBody_packetId_iff (fun _ _ => rfl) hkept.valid
    (emitTopics_writes this.topics) this.msglen_eq
  intro hpanic
  obtain ⟨-, -, -, -, hfields⟩ := encodeBody_eq_panic_iff.mp hpanic
  exact emitTopics_ne_panic _ _ _ hfields

/-! ## CONNECT -/

namespace ConnectMessage

/-- The fields behind the fixed part of a CONNECT, all of them length-prefixed. -/
def encodeStrings (this : ConnectMessage) (state : Encoded ConnectMessage) (total : ℕ) :
    Outcome Err (Encoded ConnectMessage) :=
  (emitLP this.clientId state total).andThen fun state total =>
  (if this.willFlag then
    (emitLP this.willTopic state total).andThen (emitLP this.willMessage)
  else .done state total).andThen fun state total =>
  (if this.usernameFlag ∧ 0 < this.username.length then emitLP this.username state total
    else .done state total).andThen fun state total =>
  if this.passwordFlag ∧ 0 < this.password.length then emitLP this.password state total
  else .done state total

theorem encodeStrings_ne_panic (this : ConnectMessage) (state : Encoded ConnectMessage)
    (total : ℕ) : this.encodeStrings state total ≠ .panic := by
  apply Outcome.andThen_ne_panic (emitLP_ne_panic _ _ _)
  intro state total _
  apply Outcome.andThen_ne_panic
  · split
    · exact Outcome.andThen_ne_panic (emitLP_ne_panic _ _ _)
        fun _ _ _ => emitLP_ne_panic _ _ _
    · exact nofun
  intro state total _
  apply Outcome.andThen_ne_panic
  · split
    · exact emitLP_ne_panic _ _ _
    · exact nofun
  intro state total _
  split
  · exact emitLP_ne_panic _ _ _
  · exact nofun

/-- A CONNECT only panics when the fixed part does not fit. -/
theorem encodeMessage_ne_panic (this : ConnectMessage) {verstr : Bytes}
    (hshort : verstr.length ≤ maxLPString) (message : ConnectMessage) (out : Bytes)
    {rest : Bytes} (hroom : (lpBytes verstr).length + 4 ≤ rest.length) (gPacketId : UInt64) :
    this.encodeMessage verstr ⟨message, out ++ rest, gPacketId⟩ out.length ≠ .panic := by
  have hfixed := (emitLP_writes (μ := ConnectMessage) verstr).andThen
    ((emitByte_writes this.version).andThen
    ((emitByte_writes this.connectFlags).andThen (emitUint16_writes this.keepAlive.toNat)))
  have hdone := (hfixed message out rest gPacketId _ _).mpr
    ⟨⟨hshort, trivial, trivial, trivial⟩, by simpa [uint16Bytes] using hroom, rfl, rfl⟩
  beta_reduce at hdone
  have hsplit : this.encodeMessage verstr ⟨message, out ++ rest, gPacketId⟩ out.length =
      ((emitLP verstr ⟨message, out ++ rest, gPacketId⟩ out.length).andThen
        fun state total => (emitByte this.version state total).andThen
        fun state total => (emitByte this.connectFlags state total).andThen
        (emitUint16 this.keepAlive.toNat)).andThen this.encodeStrings := by
    simp only [Outcome.andThen_assoc]
    rfl
  rw [hsplit, hdone, Outcome.done_andThen]
  exact this.encodeStrings_ne_panic _ _

theorem safe_encode {this : ConnectMessage} (hkept : this.toHeader.Kept) (dst : Bytes)
    (gPacketId : UInt64) :
    Safe (this.encode dst gPacketId) dst
      (whole this.mtypeflags
        (match supportedVersions this.version with
        | none => []
        | some verstr => this.body verstr)) := by
  rw [encode, if_neg (by simp [hkept.dirty])]
  split
  · exact safe_fail _ _ _
  cases hversion : supportedVersions this.version with
  | none => exact safe_fail _ _ _
  | some verstr =>
      have hshort : verstr.length ≤ maxLPString :=
        (length_supportedVersions hversion).trans (by decide)
      have hml := msglen_eq hversion
      have hpanic : encodeBody this.toHeader this.withHeader this.msglen
          (this.encodeMessage verstr) dst gPacketId "connect" ≠ .panic := by
        intro hpanic
        obtain ⟨hroom, -, -, -, hfields⟩ := encodeBody_eq_panic_iff.mp hpanic
        refine encodeMessage_ne_panic this hshort _ _ ?_ _ hfields
        have hlow := this.toHeader.two_le_msglen
        have hhigh := (this.sized this.msglen).msglen_le
        have hlong : 2 < (this.sized this.msglen).msglen → 127 < this.msglen :=
          Header.msglen_sized_lt
        have hbody : (lpBytes verstr).length + 4 ≤ this.msglen := by
          rw [hml, body]
          simp only [List.length_append, List.length_singleton, length_uint16Bytes]
          omega
        have hlp := length_lpBytes verstr
        have hsix := length_supportedVersions hversion
        rw [List.length_drop]
        omega
      simp only
      rw [safe_encodeBody_iff hkept.valid (this.encodeMessage_writes hversion) hml hpanic]
      rintro ⟨⟨-, hfits⟩, -, hwraps⟩
      exact not_wraps_of_le hfits.msglen_le hwraps

end ConnectMessage

/-! ## PUBLISH -/

namespace PublishMessage

theorem encodeFields_ne_panic (this : PublishMessage) (state : Encoded PublishMessage)
    (total : ℕ) : this.encodeFields state total ≠ .panic := by
  apply Outcome.andThen_ne_panic (emitLP_ne_panic _ _ _)
  intro state total _
  apply Outcome.andThen_ne_panic
  · split <;> exact nofun
  · exact fun _ _ _ => nofun

theorem encode_ne_panic {this : PublishMessage} (hdirty : this.dirty = true) (dst : Bytes)
    (gPacketId : UInt64) : this.encode dst gPacketId ≠ .panic := by
  rw [encode, if_neg (by simp [hdirty])]
  split
  · intro hpanic
    cases hpanic
  split
  · intro hpanic
    cases hpanic
  split
  · intro hpanic
    cases hpanic
  split
  · intro hpanic
    cases hpanic
  · exact Outcome.andThen_ne_panic (emitHeader_ne_panic _ _)
      fun state total _ => this.encodeFields_ne_panic state total

theorem safe_encode_iff {this : PublishMessage} (hkept : this.toHeader.Kept) (dst : Bytes)
    (gPacketId : UInt64) :
    Safe (this.encode dst gPacketId) dst
        (whole this.mtypeflags (this.sent gPacketId).body) ↔
      ¬ ((this.topic.length ≠ 0 ∧ this.payload.length ≠ 0 ∧
          this.topic.length ≤ maxLPString) ∧
        (this.sized this.msglen).msglen + this.msglen ≤ dst.length ∧ Wraps this.msglen) := by
  apply safe_iff_not_wraps (this.length_body_sent gPacketId).symm
    (encode_ne_panic hkept.dirty dst gPacketId)
  intro state n
  constructor
  · intro hdone
    have hable := encodable_of_encode_eq_done hkept.dirty hdone
    rw [encode_of_encodable hkept.dirty hable] at hdone
    injection hdone with hstate hcount
    exact ⟨⟨⟨hable.topic, hable.payload, hable.lpTopic⟩, hable.remlen, hable.fits⟩,
      hstate.symm, hcount.symm⟩
  · rintro ⟨⟨⟨htopic, hpayload, hlp⟩, hremlen, hfits⟩, rfl, rfl⟩
    exact encode_of_encodable hkept.dirty
      ⟨htopic, hpayload, hlp, hkept.valid, hremlen, hfits⟩ gPacketId

end PublishMessage

/-! ## SUBSCRIBE -/

namespace SubscribeMessage

theorem three_le_length_topicsBytes {topics : List Bytes} (htopics : topics ≠ [])
    (qos : Bytes) : 3 ≤ (topicsBytes topics qos).length := by
  cases topics with
  | nil => exact (htopics rfl).elim
  | cons topic topics =>
      rw [topicsBytes, List.length_append, List.length_cons, length_lpBytes]
      omega

/-- With at most three bytes too few, only the QoS of the last topic can fall
behind the end of the buffer. -/
theorem emitTopics_eq_panic_iff {topics : List Bytes} {qos : Bytes}
    (hpaired : topics.length = qos.length) (message : SubscribeMessage) (out : Bytes)
    {rest : Bytes} (hrest : (topicsBytes topics qos).length ≤ rest.length + 3)
    (gPacketId : UInt64) :
    emitTopics topics qos ⟨message, out ++ rest, gPacketId⟩ out.length = .panic ↔
      (∀ topic ∈ topics, topic.length ≤ maxLPString) ∧
        rest.length + 1 = (topicsBytes topics qos).length := by
  induction topics generalizing qos out rest with
  | nil => simp [emitTopics, topicsBytes]
  | cons topic topics ih =>
      obtain ⟨byte, qos, rfl⟩ := List.exists_cons_of_length_pos (by rw [← hpaired]; simp)
      have hneed : (topicsBytes (topic :: topics) (byte :: qos)).length =
          (lpBytes topic).length + 1 + (topicsBytes topics qos).length := by
        rw [topicsBytes, List.length_append, List.length_cons, List.tail_cons]
        omega
      rw [hneed] at hrest ⊢
      by_cases hfit : topic.length ≤ maxLPString ∧ (lpBytes topic).length ≤ rest.length
      · have hlp := (emitLP_writes topic message out rest gPacketId _ _).mpr
          ⟨hfit.1, hfit.2, rfl, rfl⟩
        rw [emitTopics, hlp, Outcome.done_andThen]
        cases hbehind : rest.drop (lpBytes topic).length with
        | nil =>
            -- the length prefix and the topic have taken all that was left
            have hall : rest.length ≤ (lpBytes topic).length :=
              List.drop_eq_nil_iff.mp hbehind
            have hlast : topics = [] := by
              by_contra hmore
              have := three_le_length_topicsBytes hmore qos
              omega
            subst hlast
            have hfull : rest.length + 1 =
                (lpBytes topic).length + 1 + (topicsBytes [] qos).length := by
              simp only [topicsBytes, List.length_nil]
              omega
            simp [emitByte, hfit.1, hfull]
        | cons old behind =>
            have hleft : (lpBytes topic).length + 1 + behind.length = rest.length := by
              have := congrArg List.length hbehind
              rw [List.length_drop, List.length_cons] at this
              omega
            have hbyte := (emitByte_writes byte message (out ++ lpBytes topic) (old :: behind)
              gPacketId _ _).mpr ⟨trivial, by simp, rfl, rfl⟩
            simp only [hbyte, Outcome.done_andThen]
            rw [List.length_singleton, List.drop_succ_cons, List.drop_zero,
              ih (by simpa using hpaired) _ (by omega)]
            simp only [List.mem_cons, forall_eq_or_imp, hfit.1, true_and]
            refine and_congr_right fun _ => ?_
            omega
      · have hfails : emitLP topic ⟨message, out ++ rest, gPacketId⟩ out.length =
            .fail _ _ _ :=
          emitLP_of_not_fits (by rw [List.drop_left]; exact hfit)
        rw [emitTopics, hfails, Outcome.fail_andThen]
        simp only [List.mem_cons, forall_eq_or_imp, reduceCtorEq, false_iff]
        rintro ⟨⟨hshort, -⟩, hcount⟩
        exact hfit ⟨hshort, by omega⟩

theorem encode_eq_panic_iff {this : SubscribeMessage} (hkept : this.Kept)
    (dst : Bytes) (gPacketId : UInt64) :
    this.encode dst gPacketId = .panic ↔
      (this.toHeader.msglen + this.msglen ≤ dst.length ∧
        ∀ topic ∈ this.topics, topic.length ≤ maxLPString) ∧
      (0 ≤ int32 this.msglen ∧ int32 this.msglen ≤ maxRemainingLength) ∧
      dst.length + 1 = (this.sized this.msglen).msglen + this.msglen := by
  have hml := this.msglen_eq
  rw [encode, if_neg (by simp [hkept.1.dirty]), encodeBody_eq_panic_iff]
  by_cases hroom : this.toHeader.msglen + this.msglen ≤ dst.length
  · have hlow := this.toHeader.two_le_msglen
    have hhigh := (this.sized this.msglen).msglen_le
    have hfit : (this.sized this.msglen).msglen + 2 ≤ dst.length :=
      room_of_measured (by omega) hroom
    have htwo : 2 ≤ (dst.drop (this.sized this.msglen).msglen).length := by
      rw [List.length_drop]
      omega
    rw [emitPacketId_of_le toHeader withHeader _ htwo, Outcome.done_andThen,
      emitTopics_eq_panic_iff hkept.2 _ _ (by rw [List.length_drop, List.length_drop]; omega)]
    rw [List.length_drop, List.length_drop]
    constructor
    · rintro ⟨-, hremlen, -, -, hshort, hcount⟩
      exact ⟨⟨hroom, hshort⟩, hremlen, by omega⟩
    · rintro ⟨⟨-, hshort⟩, hremlen, hcount⟩
      exact ⟨hroom, hremlen, hkept.1.valid, by omega, hshort, by omega⟩
  · exact iff_of_false (fun hpanic => hroom hpanic.1) fun hpanic => hroom hpanic.1.1

theorem safe_encode_iff {this : SubscribeMessage} (hkept : this.Kept)
    (dst : Bytes) (gPacketId : UInt64) :
    Safe (this.encode dst gPacketId) dst
        (whole this.mtypeflags
          ((this.ensurePacketId gPacketId).1.packetId ++
            topicsBytes this.topics this.qos)) ↔
      ¬ ((this.toHeader.msglen + this.msglen ≤ dst.length ∧
          ∀ topic ∈ this.topics, topic.length ≤ maxLPString) ∧
        (0 ≤ int32 this.msglen ∧ int32 this.msglen ≤ maxRemainingLength) ∧
        (dst.length + 1 = (this.sized this.msglen).msglen + this.msglen ∨
          (this.sized this.msglen).msglen + this.msglen ≤ dst.length ∧
            Wraps this.msglen)) := by
  by_cases hpanic : this.encode dst gPacketId = .panic
  · rw [hpanic]
    apply iff_of_false not_safe_panic
    obtain ⟨hroom, hremlen, hcount⟩ := (encode_eq_panic_iff hkept _ _).mp hpanic
    exact fun hflaw => hflaw ⟨hroom, hremlen, Or.inl hcount⟩
  · have hencode := encode_eq_panic_iff hkept dst gPacketId
    rw [iff_false_left hpanic] at hencode
    rw [encode, if_neg (by simp [hkept.1.dirty])] at hpanic ⊢
    rw [safe_encodeBody_packetId_iff (fun _ _ => rfl) hkept.1.valid
      (emitTopics_writes this.topics this.qos) this.msglen_eq hpanic]
    refine not_congr ⟨?_, ?_⟩
    · rintro ⟨⟨hroom, -, hshort⟩, hfit, hwraps⟩
      exact ⟨⟨hroom, hshort⟩, hwraps.1, Or.inr ⟨hfit, hwraps⟩⟩
    · rintro ⟨⟨hroom, hshort⟩, hremlen, hcount | ⟨hfit, hwraps⟩⟩
      · exact (hencode ⟨⟨hroom, hshort⟩, hremlen, hcount⟩).elim
      · exact ⟨⟨hroom, hkept.2.le, hshort⟩, hfit, hwraps⟩

end SubscribeMessage

/-! ## SUBACK -/

namespace SubackMessage

theorem emitWhole_append {μ : Type} (field out rest : Bytes) (this : μ) (gPacketId : UInt64) :
    emitWhole field ⟨this, out ++ rest, gPacketId⟩ out.length =
      .done
        ⟨this, out ++ field.take rest.length ++ rest.drop field.length, gPacketId⟩
        (out.length + field.length) := by
  simp only [emitWhole, List.length_append, Nat.add_sub_cancel_left, List.take_left,
    List.drop_length_add_append]

/-- Return codes are copied as far as there is room, but all of them are counted. -/
theorem encode_eq {this : SubackMessage} (hkept : this.Kept) {dst : Bytes}
    (hroom : this.toHeader.msglen + this.msglen ≤ dst.length)
    (hremlen : 0 ≤ int32 this.msglen ∧ int32 this.msglen ≤ maxRemainingLength)
    (gPacketId : UInt64) :
    this.encode dst gPacketId =
      .done
        ⟨this.withHeader (this.sized this.msglen),
          (this.sized this.msglen).wire ++
            (packetIdOrZero this.packetId ++ this.returnCodes.take
              (dst.length - ((this.sized this.msglen).msglen + 2))) ++
            dst.drop ((this.sized this.msglen).msglen + this.msglen), gPacketId⟩
        ((this.sized this.msglen).msglen + this.msglen) := by
  have hfit : (this.sized this.msglen).msglen + 2 ≤ dst.length :=
    room_of_measured (by rw [msglen]; omega) hroom
  have hwire : (this.sized this.msglen).wire.length = (this.sized this.msglen).msglen :=
    Header.length_wire hremlen.1 hremlen.2
  rw [encode, if_neg (by simp [hkept.1.dirty]), checkReturnCodes_of_forall hkept.2]
  refine encodeBody_eq_done_iff.mpr ⟨hroom, encodeSized_eq_done_iff.mpr
    ⟨hremlen, hkept.1.valid, by omega, ?_⟩⟩
  have hid := (emitPacketIdOrZero_writes this.packetId
    (this.withHeader (this.sized this.msglen)) (this.sized this.msglen).wire
    (dst.drop (this.sized this.msglen).msglen) gPacketId _ _).mpr
    ⟨trivial, by rw [length_packetIdOrZero, List.length_drop]; omega, rfl, rfl⟩
  rw [encodeFields, hid, Outcome.done_andThen, emitWhole_append]
  have htotal : this.msglen = 2 + this.returnCodes.length := rfl
  simp only [List.length_append, List.length_drop, List.drop_drop, length_packetIdOrZero,
    hwire, List.append_assoc, Nat.add_assoc]
  rw [← htotal]

/-- A SUBACK that is refused is refused before anything is written. -/
theorem encode_refused {this : SubackMessage} (hkept : this.Kept) {dst : Bytes}
    (hrefused : ¬ (this.toHeader.msglen + this.msglen ≤ dst.length ∧
      0 ≤ int32 this.msglen ∧ int32 this.msglen ≤ maxRemainingLength))
    (gPacketId : UInt64) : ∃ state n err, this.encode dst gPacketId = .fail state n err := by
  rw [encode, if_neg (by simp [hkept.1.dirty]), checkReturnCodes_of_forall hkept.2]
  simp only
  cases hencode : encodeBody this.toHeader this.withHeader this.msglen this.encodeFields dst
      gPacketId "suback" with
  | fail state n err => exact ⟨state, n, err, rfl⟩
  | panic =>
      obtain ⟨hroom, hremlen, -⟩ := encodeBody_eq_panic_iff.mp hencode
      exact (hrefused ⟨hroom, hremlen⟩).elim
  | done state n =>
      obtain ⟨hroom, hsized⟩ := encodeBody_eq_done_iff.mp hencode
      exact (hrefused ⟨hroom, (encodeSized_eq_done_iff.mp hsized).1⟩).elim

theorem safe_encode_iff {this : SubackMessage} (hkept : this.Kept) (dst : Bytes)
    (gPacketId : UInt64) :
    Safe (this.encode dst gPacketId) dst
        (whole this.mtypeflags (packetIdOrZero this.packetId ++ this.returnCodes)) ↔
      ¬ ((this.toHeader.msglen + this.msglen ≤ dst.length ∧
          0 ≤ int32 this.msglen ∧ int32 this.msglen ≤ maxRemainingLength) ∧
        (dst.length < (this.sized this.msglen).msglen + this.msglen ∨
          Wraps this.msglen)) := by
  have htotal : this.msglen = 2 + this.returnCodes.length := rfl
  have hml : this.msglen = (packetIdOrZero this.packetId ++ this.returnCodes).length := by
    rw [List.length_append, length_packetIdOrZero, htotal]
  by_cases haccepted : this.toHeader.msglen + this.msglen ≤ dst.length ∧
      0 ≤ int32 this.msglen ∧ int32 this.msglen ≤ maxRemainingLength
  · rw [encode_eq hkept haccepted.1 haccepted.2, safe_done_iff]
    by_cases hfit : (this.sized this.msglen).msglen + this.msglen ≤ dst.length
    · rw [List.take_of_length_le
        (show this.returnCodes.length ≤
            dst.length - ((this.sized this.msglen).msglen + 2) by omega),
        complete_iff haccepted.2 hml]
      simp only [haccepted, hfit, not_lt.mpr hfit, true_and, false_or]
    · exact iff_of_false (fun hsafe => hfit hsafe.1)
        fun hflaw => hflaw ⟨haccepted, Or.inl (not_le.mp hfit)⟩
  · obtain ⟨state, n, err, hfail⟩ := encode_refused hkept haccepted gPacketId
    rw [hfail]
    exact iff_of_true (safe_fail state n err) fun hflaw => haccepted hflaw.1

end SubackMessage

/-! ## CONNACK -/

namespace ConnackMessage

theorem encode_refused {this : ConnackMessage} (hdirty : this.dirty = true) {dst : Bytes}
    (hroom : dst.length < this.toHeader.msglen + this.msglen) (gPacketId : UInt64) :
    ∃ state n err, this.encode dst gPacketId = .fail state n err := by
  rw [encode, if_neg (by simp [hdirty]), encodeBody, if_pos hroom]
  exact ⟨_, _, _, rfl⟩

theorem safe_encode_of_session {this : ConnackMessage} (hkept : this.toHeader.Kept)
    (hsession : this.sessionPresent = true) (dst : Bytes) (gPacketId : UInt64) :
    Safe (this.encode dst gPacketId) dst
      (whole this.mtypeflags [1, this.returnCode.toUInt8]) := by
  have hfields : Writes this.encodeFields (True ∧ True) [1, this.returnCode.toUInt8] := by
    have heq : this.encodeFields = fun state total =>
        (emitByte 1 state total).andThen (emitByte this.returnCode.toUInt8) := by
      funext state total
      rw [encodeFields, hsession]
      rfl
    rw [heq]
    exact (emitByte_writes 1).andThen (emitByte_writes this.returnCode.toUInt8)
  have hml : this.msglen = [1, this.returnCode.toUInt8].length := rfl
  have hpanic : encodeBody this.toHeader this.withHeader this.msglen this.encodeFields dst
      gPacketId "connack" ≠ .panic := by
    intro hpanic
    obtain ⟨hroom, -, -, -, hfails⟩ := encodeBody_eq_panic_iff.mp hpanic
    have hfit : (this.sized this.msglen).msglen + 2 ≤ dst.length :=
      room_of_measured (le_refl 2) hroom
    rw [(hfields _ _ _ _ _ _).mpr ⟨⟨trivial, trivial⟩, by simp; omega, rfl, rfl⟩] at hfails
    cases hfails
  rw [encode, if_neg (by simp [hkept.dirty]),
    safe_encodeBody_iff hkept.valid hfields hml hpanic]
  rintro ⟨-, -, hwraps⟩
  exact not_wraps_of_le (by rw [msglen]; norm_num) hwraps

/-- Without a session the flags byte has to be zero already. -/
theorem safe_encode_iff {this : ConnackMessage} (hkept : this.toHeader.Kept) (dst : Bytes)
    (gPacketId : UInt64) :
    Safe (this.encode dst gPacketId) dst
        (whole this.mtypeflags
          [if this.sessionPresent then 1 else 0, this.returnCode.toUInt8]) ↔
      ¬ (this.sessionPresent = false ∧ this.toHeader.msglen + 2 ≤ dst.length ∧
        dst[2]? ≠ some 0) := by
  cases hsession : this.sessionPresent with
  | true => exact iff_of_true (safe_encode_of_session hkept hsession dst gPacketId) (by simp)
  | false =>
      by_cases hroom : this.toHeader.msglen + 2 ≤ dst.length
      · have hlow := this.toHeader.two_le_msglen
        obtain ⟨old₀, old₁, old₂, old₃, rest, rfl⟩ :=
          exists_four_cons (show 4 ≤ dst.length by omega)
        simp only [List.length_cons] at hroom
        rw [encode_skips gPacketId hkept.dirty hkept.valid hsession (by omega), safe_done_iff]
        have hwhole : whole this.mtypeflags [0, this.returnCode.toUInt8] =
            [this.mtypeflags, 2, 0, this.returnCode.toUInt8] := rfl
        simp [hwhole, hroom]
      · obtain ⟨state, n, err, hfail⟩ := encode_refused hkept.dirty (not_le.mp hroom) gPacketId
        rw [hfail]
        exact iff_of_true (safe_fail state n err) fun hflaw => hroom hflaw.2.1

end ConnackMessage

/-! ## PINGREQ, PINGRESP, DISCONNECT -/

theorem DisconnectMessage.safe_encode_iff {this : DisconnectMessage}
    (hkept : this.toHeader.Kept) (dst : Bytes) (gPacketId : UInt64) :
    Safe (this.encode dst gPacketId) dst (whole this.mtypeflags []) ↔
      ¬ (this.remlen ≠ 0 ∧ this.toHeader.msglen ≤ dst.length) := by
  have hlow := hkept.low
  have hhigh := hkept.high
  have hlength : this.wire.length = this.toHeader.msglen := Header.length_wire hlow hhigh
  rw [maxRemainingLength] at hhigh
  rw [encode, if_neg (by simp [hkept.dirty])]
  by_cases hfit : this.toHeader.msglen ≤ dst.length
  · rw [emitHeader_eq_done_iff.mpr ⟨⟨hkept.low, hkept.high⟩, hkept.valid, hfit, rfl, rfl⟩,
      safe_done_iff, List.take_left, hlength]
    have hwire : this.wire = whole this.mtypeflags [] ↔ this.remlen = 0 := by
      have hvalue := uvarintValue_uvarintBytes (show this.remlen.toNat < 2 ^ 64 by omega)
      constructor
      · intro heq
        have hdigits : uvarintBytes this.remlen.toNat = uvarintBytes 0 := by
          simpa [Header.wire, whole] using heq
        rw [hdigits] at hvalue
        have hzero : uvarintValue (uvarintBytes 0) = 0 := rfl
        omega
      · intro hzero
        rw [Header.wire, hzero]
        rfl
    constructor
    · rintro ⟨-, -, heq⟩ ⟨hne, -⟩
      exact hne (hwire.mp heq)
    · intro hflaw
      have heq : this.wire = whole this.mtypeflags [] := by
        by_contra hne
        exact hflaw ⟨fun hzero => hne (hwire.mpr hzero), hfit⟩
      exact ⟨hfit, by rw [← heq, hlength], heq⟩
  · obtain ⟨err, hrefused⟩ := this.toHeader.encode_refused (fun h => hfit h.2.2)
    rw [emitHeader, hrefused dst rfl]
    exact iff_of_true (safe_fail _ _ err) fun hflaw => hfit hflaw.2

/-! ## Every message type -/

/-- The body that belongs into the encoding of a message.  A packet id that is
needed and not set is allocated from the counter. -/
def body (gPacketId : UInt64) : Message → Bytes
  | .connect this =>
      match supportedVersions this.version with
      | none => []
      | some verstr => this.body verstr
  | .connack this => [if this.sessionPresent then 1 else 0, this.returnCode.toUInt8]
  | .publish this => (this.sent gPacketId).body
  | .puback this | .pubrec this | .pubrel this | .pubcomp this | .unsuback this =>
      packetIdOrZero this.packetId
  | .subscribe this =>
      (this.ensurePacketId gPacketId).1.packetId ++
        SubscribeMessage.topicsBytes this.topics this.qos
  | .suback this => packetIdOrZero this.packetId ++ this.returnCodes
  | .unsubscribe this =>
      (this.ensurePacketId gPacketId).1.packetId ++ UnsubscribeMessage.topicsBytes this.topics
  | .pingreq _ | .pingresp _ | .disconnect _ => []

def encoding (gPacketId : UInt64) (message : Message) : Bytes :=
  whole message.header.mtypeflags (message.body gPacketId)

/-- The messages and buffers on which `Encode` panics or returns an incomplete
encoding: the flags byte that a CONNACK skips is not zero, a SUBSCRIBE or a
SUBACK has grown past the length the buffer was measured with, an announced
length belongs to no body, or the length of a body does not fit into 32 bits. -/
def Flawed (dst : Bytes) : Message → Prop
  | .connack this =>
      this.sessionPresent = false ∧ this.toHeader.msglen + 2 ≤ dst.length ∧ dst[2]? ≠ some 0
  | .publish this =>
      (this.topic.length ≠ 0 ∧ this.payload.length ≠ 0 ∧ this.topic.length ≤ maxLPString) ∧
        (this.sized this.msglen).msglen + this.msglen ≤ dst.length ∧ Wraps this.msglen
  | .subscribe this =>
      (this.toHeader.msglen + this.msglen ≤ dst.length ∧
        ∀ topic ∈ this.topics, topic.length ≤ maxLPString) ∧
      (0 ≤ int32 this.msglen ∧ int32 this.msglen ≤ maxRemainingLength) ∧
      (dst.length + 1 = (this.sized this.msglen).msglen + this.msglen ∨
        (this.sized this.msglen).msglen + this.msglen ≤ dst.length ∧ Wraps this.msglen)
  | .suback this =>
      (this.toHeader.msglen + this.msglen ≤ dst.length ∧
        0 ≤ int32 this.msglen ∧ int32 this.msglen ≤ maxRemainingLength) ∧
      (dst.length < (this.sized this.msglen).msglen + this.msglen ∨ Wraps this.msglen)
  | .unsubscribe this =>
      (this.toHeader.msglen + this.msglen ≤ dst.length ∧
        ∀ topic ∈ this.topics, topic.length ≤ maxLPString) ∧
      (this.sized this.msglen).msglen + this.msglen ≤ dst.length ∧ Wraps this.msglen
  | .pingreq this | .pingresp this | .disconnect this =>
      this.remlen ≠ 0 ∧ this.toHeader.msglen ≤ dst.length
  | .connect _ | .puback _ | .pubrec _ | .pubrel _ | .pubcomp _ | .unsuback _ => False

/-- `Encode` of a message that was built by its methods is safe except on those. -/
theorem encode_safe_iff {message : Message} (hbuilt : message.Built) (dst : Bytes)
    (gPacketId : UInt64) :
    Safe (message.encode dst gPacketId) dst (message.encoding gPacketId) ↔
      ¬ message.Flawed dst := by
  have hkept := hbuilt.kept
  cases message with
  | connect this =>
      exact safe_lift_iff.trans
        (iff_of_true (ConnectMessage.safe_encode hkept dst gPacketId) id)
  | connack this =>
      exact safe_lift_iff.trans (ConnackMessage.safe_encode_iff hkept dst gPacketId)
  | publish this =>
      exact safe_lift_iff.trans (PublishMessage.safe_encode_iff hkept dst gPacketId)
  | puback this | pubrec this | pubrel this | pubcomp this | unsuback this =>
      exact safe_lift_iff.trans
        (iff_of_true (PubackMessage.safe_encode hkept dst gPacketId) id)
  | subscribe this =>
      exact safe_lift_iff.trans (SubscribeMessage.safe_encode_iff hkept dst gPacketId)
  | suback this =>
      exact safe_lift_iff.trans (SubackMessage.safe_encode_iff hkept dst gPacketId)
  | unsubscribe this =>
      exact safe_lift_iff.trans (UnsubscribeMessage.safe_encode_iff hkept dst gPacketId)
  | pingreq this | pingresp this | disconnect this =>
      exact safe_lift_iff.trans (DisconnectMessage.safe_encode_iff hkept dst gPacketId)

theorem encode_safe_iff_subscribe :
    Safe (Message.encode (List.replicate 9 0) 0 (.subscribe subscribeSeven))
      (List.replicate 9 0) [0x82, 6, 0, 7, 0, 1, 0x61, 1] := by
  have hnew : Built (.subscribe newSubscribeMessage) := @Built.new .subscribe _ rfl
  have hbuilt : Built (.subscribe subscribeSeven) :=
    (hnew.perform (.setPacketId 7)).perform (.subscribe (.addTopic [0x61] 1))
  refine (encode_safe_iff hbuilt (List.replicate 9 0) 0).mpr ?_
  rintro ⟨-, -, hcount | ⟨-, hwraps⟩⟩
  · exact absurd hcount (by decide +kernel)
  · exact not_wraps_of_le (by decide) hwraps

/-- A new SUBSCRIBE with one topic of 123 bytes. -/
def subscribeLong : Message :=
  perform (.subscribe newSubscribeMessage) (.subscribe (.addTopic (List.replicate 123 0x61) 0))

/-- Its body takes 128 bytes and its header three, but with the header length of
a new message 130 bytes are enough: the QoS is written behind the buffer. -/
theorem subscribe_panics_past_threshold :
    subscribeLong.Built ∧ subscribeLong.encode (List.replicate 130 0) 0 = .panic :=
  ⟨.perform _ (@Built.new .subscribe _ rfl), by decide +kernel⟩

end Xmqtt.Message
