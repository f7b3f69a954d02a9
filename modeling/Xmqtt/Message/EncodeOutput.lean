import Xmqtt.Go.TwoRuns
import Xmqtt.Message.Messages

/-!
# What an encoder leaves in its buffer

`Encode` writes into buffers that were used before.  Here every encoder is run
on two buffers of one length: the runs end alike when they return the same
count and error and leave the same bytes in front of the count.  Every emit
step keeps that; only CONNACK skips a byte.
-/

namespace Xmqtt.Message

open Xmqtt.Go Xmqtt.Go.Outcome

/-- Two encoders have made the same of their message, and have written the same
`n` bytes into buffers of the same length.  The packet id counters are free. -/
def SameOutput {μ : Type} (n : ℕ) (left right : Encoded μ) : Prop :=
  left.this = right.this ∧ left.dst.length = right.dst.length ∧
    left.dst.take n = right.dst.take n

/-- The same, while the message is as it was given. -/
def Writing {μ : Type} (this : μ) (n : ℕ) (left right : Encoded μ) : Prop :=
  left.this = this ∧ SameOutput n left right

/-- A step that leaves the message alone and whose output does not depend on
what was in the buffer. -/
def Deterministic {μ : Type} (this : μ)
    (step : Encoded μ → ℕ → Outcome Err (Encoded μ)) : Prop :=
  ∀ left right n, Writing this n left right →
    Alike (Writing this) (step left n) (step right n)

section Steps

variable {μ : Type} {this : μ} {left right : Encoded μ} {n : ℕ}
variable {first second : Encoded μ → ℕ → Outcome Err (Encoded μ)}

theorem Deterministic.andThen (hfirst : Deterministic this first)
    (hsecond : Deterministic this second) :
    Deterministic this fun state total => (first state total).andThen second := by
  intro left right n hwriting
  exact (hfirst left right n hwriting).andThen hsecond

theorem deterministic_done : Deterministic this fun state total => .done state total := by
  intro left right n hwriting
  exact alike_done hwriting

theorem Deterministic.ite (cond : Prop) [Decidable cond]
    (hfirst : Deterministic this first) (hsecond : Deterministic this second) :
    Deterministic this fun state total =>
      if cond then first state total else second state total := by
  by_cases hcond : cond
  · simpa only [hcond, if_true] using hfirst
  · simpa only [hcond, if_false] using hsecond

/-- Bytes written at the cursor: what is in front of the new cursor is what was
in front of the old one, and these bytes. -/
theorem Writing.write (hwriting : Writing this n left right) (bytes : Bytes) :
    Writing this (n + bytes.length)
      { left with dst := left.dst.take n ++ bytes ++ left.dst.drop (n + bytes.length) }
      { right with dst := right.dst.take n ++ bytes ++ right.dst.drop (n + bytes.length) } := by
  obtain ⟨hleft, hthis, hlength, hbytes⟩ := hwriting
  refine ⟨hleft, hthis, by simp [hlength], ?_⟩
  by_cases hn : n ≤ left.dst.length
  · have hleft : (left.dst.take n ++ bytes).length = n + bytes.length := by
      rw [List.length_append, List.length_take_of_le hn]
    have hright : (right.dst.take n ++ bytes).length = n + bytes.length := by
      rw [List.length_append, List.length_take_of_le (hlength ▸ hn)]
    simp only
    rw [← hleft, List.take_left, hleft, ← hright, List.take_left, hbytes]
  · have hleft : left.dst.drop (n + bytes.length) = [] :=
      List.drop_eq_nil_of_le (by omega)
    have hright : right.dst.drop (n + bytes.length) = [] :=
      List.drop_eq_nil_of_le (by omega)
    simp only [hleft, hright, hbytes]

theorem emitByte_deterministic (byte : Byte) : Deterministic this (emitByte byte) := by
  intro left right n hwriting
  have hwritten := hwriting.write [byte]
  obtain ⟨-, -, hlength, -⟩ := hwriting
  rw [emitByte, emitByte, hlength]
  split
  · rename_i hroom
    rw [List.set_eq_take_append_cons_drop, if_pos (by omega),
      List.set_eq_take_append_cons_drop, if_pos hroom]
    apply alike_done
    simpa using hwritten
  · exact alike_panic

theorem emitUint16_deterministic (value : ℕ) : Deterministic this (emitUint16 value) :=
  (emitByte_deterministic _).andThen (emitByte_deterministic _)

theorem emitLP_deterministic (field : Bytes) : Deterministic this (emitLP field) := by
  intro left right n hwriting
  have hrest : (left.dst.drop n).length = (right.dst.drop n).length := by
    rw [List.length_drop, List.length_drop, hwriting.2.2.1]
  by_cases hfit : field.length ≤ maxLPString ∧
      (lpBytes field).length ≤ (left.dst.drop n).length
  · rw [emitLP_of_fits hfit.1 hfit.2, emitLP_of_fits hfit.1 (hrest ▸ hfit.2)]
    exact alike_done (hwriting.write (lpBytes field))
  · rw [emitLP_of_not_fits hfit, emitLP_of_not_fits (hrest ▸ hfit), hrest]
    exact alike_fail _ hwriting

/-- A copy that ends with the buffer leaves nothing behind the copied bytes. -/
theorem emitWhole_deterministic (field : Bytes) : Deterministic this (emitWhole field) := by
  intro left right n hwriting
  apply alike_done
  by_cases hfit : field.length ≤ left.dst.length - n
  · have hleft : field.take (left.dst.length - n) = field := List.take_of_length_le hfit
    have hright : field.take (right.dst.length - n) = field :=
      List.take_of_length_le (hwriting.2.2.1 ▸ hfit)
    rw [hleft, hright]
    exact hwriting.write field
  · obtain ⟨hthis, hsame, hlength, hbytes⟩ := hwriting
    have hleft : left.dst.drop (n + field.length) = [] :=
      List.drop_eq_nil_of_le (by omega)
    have hright : right.dst.drop (n + field.length) = [] :=
      List.drop_eq_nil_of_le (by omega)
    rw [hleft, hright, hbytes, hlength]
    exact ⟨hthis, hsame, rfl, rfl⟩

theorem emitCopy_deterministic (field : Bytes) : Deterministic this (emitCopy field) := by
  intro left right n hwriting
  have hwritten := hwriting.write (field.take (min (right.dst.length - n) field.length))
  rw [List.length_take, min_assoc, min_self] at hwritten
  rw [emitCopy, emitCopy, hwriting.2.2.1]
  exact alike_done hwritten

theorem emitPacketIdOrZero_deterministic (id : Bytes) :
    Deterministic this (emitPacketIdOrZero id) := by
  intro left right n hwriting
  have hwritten := hwriting.write (packetIdOrZero id)
  rw [length_packetIdOrZero] at hwritten
  rw [emitPacketIdOrZero, emitPacketIdOrZero, hwriting.2.2.1]
  split
  · exact alike_panic
  · exact alike_done hwritten

/-! ## Headers, packet ids and whole encoders -/

/-- Two buffers that nothing has been written to yet. -/
theorem sameOutput_zero (this : μ) {dst dst' : Bytes} (hlength : dst.length = dst'.length)
    (gPacketId gPacketId' : UInt64) :
    SameOutput 0 (⟨this, dst, gPacketId⟩ : Encoded μ) ⟨this, dst', gPacketId'⟩ :=
  ⟨rfl, hlength, rfl⟩

/-- Two buffers that start with the same bytes. -/
theorem writing_append (this : μ) (out : Bytes) {rest rest' : Bytes}
    (hlength : rest.length = rest'.length) (gPacketId gPacketId' : UInt64) :
    Writing this out.length (⟨this, out ++ rest, gPacketId⟩ : Encoded μ)
      ⟨this, out ++ rest', gPacketId'⟩ := by
  refine ⟨rfl, rfl, by simp [hlength], ?_⟩
  simp only [List.take_left]

/-- A message that has its packet id already writes that one. -/
theorem emitPacketId_deterministic {header : μ → Header} {rebuild : μ → Header → μ}
    (hrebuild : rebuild this (header this) = this)
    (hid : (header this).packetIdValue ≠ 0) :
    Deterministic this (emitPacketId header rebuild) := by
  intro left right n hwriting
  have hleft : left.this = this := hwriting.1
  have hright : right.this = this := hwriting.2.1.symm.trans hleft
  have hnext : Writing this n { left with this := this } { right with this := this } :=
    ⟨rfl, rfl, hwriting.2.2⟩
  rw [emitPacketId, emitPacketId, hleft, hright, Header.ensurePacketId_of_ne_zero hid,
    Header.ensurePacketId_of_ne_zero hid, hrebuild]
  exact emitCopy_deterministic _ _ _ n hnext

variable {dst dst' : Bytes} (hlength : dst.length = dst'.length)
variable (gPacketId gPacketId' : UInt64)

include hlength

theorem encodeClean_alike (name : String) (header : Header) (this : μ) :
    Alike SameOutput (encodeClean name header ⟨this, dst, gPacketId⟩)
      (encodeClean name header ⟨this, dst', gPacketId'⟩) := by
  rw [encodeClean, encodeClean, hlength]
  split
  · exact alike_fail _ ⟨rfl, hlength, rfl⟩
  · apply alike_done
    refine ⟨rfl, by simp [hlength], ?_⟩
    simp only [List.take_left]

theorem emitHeader_alike (header : Header) (this : μ) :
    Alike (Writing this) (emitHeader header ⟨this, dst, gPacketId⟩)
      (emitHeader header ⟨this, dst', gPacketId'⟩) := by
  by_cases hfit : (0 ≤ header.remlen ∧ header.remlen ≤ maxRemainingLength) ∧
      header.type.valid = true ∧ header.msglen ≤ dst.length
  · obtain ⟨hremlen, htype, hdst⟩ := hfit
    rw [emitHeader_eq_done_iff.mpr ⟨hremlen, htype, hdst, rfl, rfl⟩,
      emitHeader_eq_done_iff.mpr ⟨hremlen, htype, hlength ▸ hdst, rfl, rfl⟩]
    apply alike_done
    apply writing_append
    rw [List.length_drop, List.length_drop, hlength]
  · obtain ⟨err, hrefused⟩ := header.encode_refused hfit
    rw [emitHeader, hrefused dst rfl, emitHeader, hrefused dst' hlength.symm]
    exact alike_fail err ⟨rfl, rfl, hlength, rfl⟩

/-- What is written behind the header decides. -/
theorem encodeBody_alike {header : Header} {rebuild : Header → μ} {ml : ℕ}
    {fields : Encoded μ → ℕ → Outcome Err (Encoded μ)} (name : String)
    (hfields : Deterministic (rebuild (header.sized ml)) fields) :
    Alike SameOutput (encodeBody header rebuild ml fields dst gPacketId name)
      (encodeBody header rebuild ml fields dst' gPacketId' name) := by
  rw [encodeBody, encodeBody, hlength]
  split
  · exact alike_fail _ (sameOutput_zero (rebuild header) hlength gPacketId gPacketId')
  · by_cases hremlen : 0 ≤ int32 ml ∧ int32 ml ≤ maxRemainingLength
    · rw [encodeSized, encodeSized, Header.setRemainingLength_int32 hremlen]
      exact ((emitHeader_alike hlength _ _ _ _).andThen hfields).mono fun _ _ _ h => h.2
    · obtain ⟨err, herr⟩ := header.setRemainingLength_of_not hremlen
      rw [encodeSized, encodeSized, herr]
      exact alike_fail err (sameOutput_zero (rebuild header) hlength gPacketId gPacketId')

/-- An encoder that refuses before its fields has written nothing. -/
theorem encodeBody_alike_of_refused {header : Header} {rebuild : Header → μ} {ml : ℕ}
    {fields : Encoded μ → ℕ → Outcome Err (Encoded μ)} (name : String)
    (hrefused : ¬ (header.type.valid = true ∧ header.msglen + ml ≤ dst.length)) :
    Alike SameOutput (encodeBody header rebuild ml fields dst gPacketId name)
      (encodeBody header rebuild ml fields dst' gPacketId' name) := by
  by_cases hroom : header.msglen + ml ≤ dst.length
  · have hinvalid : ¬ ((0 ≤ (header.sized ml).remlen ∧
        (header.sized ml).remlen ≤ maxRemainingLength) ∧
        (header.sized ml).type.valid = true ∧ (header.sized ml).msglen ≤ dst.length) :=
      fun hfit => hrefused ⟨hfit.2.1, hroom⟩
    obtain ⟨err, herr⟩ := (header.sized ml).encode_refused hinvalid
    rw [encodeBody, encodeBody, if_neg (by omega), if_neg (by omega)]
    by_cases hremlen : 0 ≤ int32 ml ∧ int32 ml ≤ maxRemainingLength
    · rw [encodeSized, encodeSized, Header.setRemainingLength_int32 hremlen]
      simp only [emitHeader, herr dst rfl, herr dst' hlength.symm, Outcome.map_fail,
        Outcome.fail_andThen]
      exact alike_fail err (sameOutput_zero _ hlength gPacketId gPacketId')
    · obtain ⟨err, herr⟩ := header.setRemainingLength_of_not hremlen
      rw [encodeSized, encodeSized, herr]
      exact alike_fail err (sameOutput_zero (rebuild header) hlength gPacketId gPacketId')
  · rw [encodeBody, encodeBody, if_pos (by omega), if_pos (by omega), hlength]
    exact alike_fail _ (sameOutput_zero (rebuild header) hlength gPacketId gPacketId')

end Steps

/-! ## The encoders -/

section Encoders

variable {dst dst' : Bytes} (hlength : dst.length = dst'.length)
variable (gPacketId gPacketId' : UInt64)

theorem SubscribeMessage.emitTopics_deterministic {message : SubscribeMessage}
    (topics : List Bytes) (qos : Bytes) :
    Deterministic message (emitTopics topics qos) := by
  induction topics generalizing qos with
  | nil => exact deterministic_done
  | cons topic topics ih =>
      apply (emitLP_deterministic topic).andThen
      cases qos with
      | nil =>
          intro left right n _
          exact alike_panic
      | cons byte qos => exact (emitByte_deterministic byte).andThen (ih qos)

theorem UnsubscribeMessage.emitTopics_deterministic {message : UnsubscribeMessage}
    (topics : List Bytes) : Deterministic message (emitTopics topics) := by
  induction topics with
  | nil => exact deterministic_done
  | cons topic topics ih => exact (emitLP_deterministic topic).andThen ih

theorem ConnectMessage.encodeMessage_deterministic {message : ConnectMessage}
    (this : ConnectMessage) (verstr : Bytes) :
    Deterministic message (this.encodeMessage verstr) := by
  apply (emitLP_deterministic verstr).andThen
  apply (emitByte_deterministic this.version).andThen
  apply (emitByte_deterministic this.connectFlags).andThen
  apply (emitUint16_deterministic this.keepAlive.toNat).andThen
  apply (emitLP_deterministic this.clientId).andThen
  apply (Deterministic.ite _ ((emitLP_deterministic this.willTopic).andThen
    (emitLP_deterministic this.willMessage)) deterministic_done).andThen
  apply (Deterministic.ite _ (emitLP_deterministic this.username) deterministic_done).andThen
  exact Deterministic.ite _ (emitLP_deterministic this.password) deterministic_done

theorem exists_four_cons {bytes : Bytes} (hlength : 4 ≤ bytes.length) :
    ∃ old₀ old₁ old₂ old₃ rest, bytes = old₀ :: old₁ :: old₂ :: old₃ :: rest := by
  match bytes with
  | old₀ :: old₁ :: old₂ :: old₃ :: rest => exact ⟨old₀, old₁, old₂, old₃, rest, rfl⟩

theorem PublishMessage.encodeFields_deterministic {message : PublishMessage}
    (this : PublishMessage) (hid : this.qos ≠ 0 → message.packetIdValue ≠ 0) :
    Deterministic message this.encodeFields := by
  apply (emitLP_deterministic this.topic).andThen
  refine Deterministic.andThen ?_ (emitWhole_deterministic this.payload)
  by_cases hqos : this.qos ≠ 0
  · simp only [if_pos hqos]
    exact emitPacketId_deterministic rfl (hid hqos)
  · simp only [if_neg hqos]
    exact deterministic_done

/-- A CONNACK without a session leaves the byte behind the fixed header as it is. -/
theorem ConnackMessage.encode_skips {this : ConnackMessage} (hdirty : this.dirty = true)
    (htype : this.type.valid = true) (hsession : this.sessionPresent = false)
    {old₀ old₁ old₂ old₃ : Byte} {rest : Bytes}
    (hdst : this.toHeader.msglen ≤ 2 + rest.length) :
    this.encode (old₀ :: old₁ :: old₂ :: old₃ :: rest) gPacketId =
      .done
        ⟨this.withHeader (this.sized 2),
          this.mtypeflags :: 2 :: old₂ :: this.returnCode.toUInt8 :: rest, gPacketId⟩ 4 := by
  have hint : int32 2 = 2 := int32_of_lt (by norm_num)
  have hremlen := Header.remlen_bounds (show 2 ≤ 268435455 by norm_num)
  have hwire : (this.sized 2).wire = [this.mtypeflags, 2] := by
    rw [Header.wire, Header.remlen_sized, hint]
    rfl
  have hmsglen : (this.sized 2).msglen = 2 := by
    rw [← Header.length_wire hremlen.1 hremlen.2, hwire]
    rfl
  have hheader : emitHeader (this.sized 2)
      ⟨this.withHeader (this.sized 2), old₀ :: old₁ :: old₂ :: old₃ :: rest, gPacketId⟩ =
      .done _ _ :=
    emitHeader_eq_done_iff.mpr ⟨hremlen, htype, by rw [hmsglen]; simp, rfl, rfl⟩
  rw [hwire, hmsglen] at hheader
  rw [encode, if_neg (by simp [hdirty]), encodeBody, if_neg]
  · rw [encodeSized, msglen, Header.setRemainingLength_int32 hremlen]
    simp only [hheader, Outcome.done_andThen, encodeFields, hsession]
    rfl
  · simp only [msglen, List.length_cons]
    omega

include hlength

theorem PublishMessage.encode_alike {this : PublishMessage}
    (hid : this.qos ≠ 0 → this.packetIdValue ≠ 0) :
    Alike SameOutput (this.encode dst gPacketId) (this.encode dst' gPacketId') := by
  rw [encode, encode]
  split
  · exact encodeClean_alike hlength _ _ _ _ _
  split
  · exact alike_fail _ (sameOutput_zero this hlength _ _)
  split
  · exact alike_fail _ (sameOutput_zero this hlength _ _)
  by_cases hremlen : 0 ≤ int32 this.msglen ∧ int32 this.msglen ≤ maxRemainingLength
  · rw [Header.setRemainingLength_int32 hremlen]
    simp only [hlength]
    split
    · exact alike_fail _ (sameOutput_zero _ hlength _ _)
    · have hfields : Deterministic (this.withHeader (this.sized this.msglen))
          this.encodeFields := encodeFields_deterministic this hid
      exact ((emitHeader_alike hlength _ _ _ _).andThen hfields).mono fun _ _ _ h => h.2
  · obtain ⟨err, herr⟩ := this.setRemainingLength_of_not hremlen
    rw [herr]
    exact alike_fail err (sameOutput_zero this hlength _ _)

theorem PubackMessage.encode_alike (this : PubackMessage) :
    Alike SameOutput (this.encode dst gPacketId) (this.encode dst' gPacketId') := by
  rw [encode, encode]
  split
  · exact encodeClean_alike hlength _ _ _ _ _
  · exact encodeBody_alike hlength _ _ _ (emitPacketIdOrZero_deterministic this.packetId)

theorem SubackMessage.encode_alike (this : SubackMessage) :
    Alike SameOutput (this.encode dst gPacketId) (this.encode dst' gPacketId') := by
  rw [encode, encode]
  split
  · exact encodeClean_alike hlength _ _ _ _ _
  · split
    · exact alike_fail _ (sameOutput_zero this hlength _ _)
    · apply encodeBody_alike hlength
      exact (emitPacketIdOrZero_deterministic this.packetId).andThen
        (emitWhole_deterministic this.returnCodes)

theorem DisconnectMessage.encode_alike (this : DisconnectMessage) :
    Alike SameOutput (this.encode dst gPacketId) (this.encode dst' gPacketId') := by
  rw [encode, encode]
  split
  · exact encodeClean_alike hlength _ _ _ _ _
  · exact (emitHeader_alike hlength _ _ _ _).mono fun _ _ _ h => h.2

theorem SubscribeMessage.encode_alike {this : SubscribeMessage}
    (hid : this.packetIdValue ≠ 0) :
    Alike SameOutput (this.encode dst gPacketId) (this.encode dst' gPacketId') := by
  rw [encode, encode]
  split
  · exact encodeClean_alike hlength _ _ _ _ _
  · apply encodeBody_alike hlength
    apply (emitPacketId_deterministic rfl _).andThen
    · exact emitTopics_deterministic this.topics this.qos
    · exact hid

theorem UnsubscribeMessage.encode_alike {this : UnsubscribeMessage}
    (hid : this.packetIdValue ≠ 0) :
    Alike SameOutput (this.encode dst gPacketId) (this.encode dst' gPacketId') := by
  rw [encode, encode]
  split
  · exact encodeClean_alike hlength _ _ _ _ _
  · apply encodeBody_alike hlength
    apply (emitPacketId_deterministic rfl _).andThen
    · exact emitTopics_deterministic this.topics
    · exact hid

theorem ConnectMessage.encode_alike (this : ConnectMessage) :
    Alike SameOutput (this.encode dst gPacketId) (this.encode dst' gPacketId') := by
  rw [encode, encode]
  split
  · exact encodeClean_alike hlength _ _ _ _ _
  · split
    · exact alike_fail _ (sameOutput_zero this hlength _ _)
    · split
      · exact alike_fail _ (sameOutput_zero this hlength _ _)
      · exact encodeBody_alike hlength _ _ _ (encodeMessage_deterministic this _)

theorem ConnackMessage.encode_alike {this : ConnackMessage}
    (hsession : this.dirty = true → this.sessionPresent = true) :
    Alike SameOutput (this.encode dst gPacketId) (this.encode dst' gPacketId') := by
  rw [encode, encode]
  split
  · exact encodeClean_alike hlength _ _ _ _ _
  · rename_i hdirty
    apply encodeBody_alike hlength
    apply Deterministic.andThen _ (emitByte_deterministic _)
    simp only [hsession (by simpa using hdirty), if_true]
    exact emitByte_deterministic 1

/-- Without a session the outputs are the same exactly when the skipped byte is. -/
theorem ConnackMessage.alike_iff_same_flags (this : ConnackMessage) :
    Alike SameOutput (this.encode dst gPacketId) (this.encode dst' gPacketId') ↔
      ¬ (this.dirty = true ∧ this.type.valid = true ∧ this.sessionPresent = false ∧
        this.toHeader.msglen + 2 ≤ dst.length ∧ dst[2]? ≠ dst'[2]?) := by
  by_cases hskip : (this.dirty = true ∧ this.sessionPresent = false) ∧
      this.type.valid = true ∧ this.toHeader.msglen + 2 ≤ dst.length
  · obtain ⟨⟨hdirty, hsession⟩, htype, hroom⟩ := hskip
    have hlow := this.toHeader.two_le_msglen
    obtain ⟨old₀, old₁, old₂, old₃, rest, rfl⟩ := exists_four_cons (show 4 ≤ dst.length by omega)
    obtain ⟨old₀', old₁', old₂', old₃', rest', rfl⟩ :=
      exists_four_cons (show 4 ≤ dst'.length by omega)
    have hrest : rest.length = rest'.length := by simpa using hlength
    simp only [List.length_cons] at hroom
    rw [encode_skips gPacketId hdirty htype hsession (by omega),
      encode_skips gPacketId' hdirty htype hsession (by omega), alike_done_iff, SameOutput]
    simp only [hdirty, htype, hsession, List.length_cons, hrest]
    simp only [List.take_succ_cons, List.take_zero, List.cons.injEq, true_and, and_true]
    simp
    omega
  · refine iff_of_true ?_ fun hleak =>
      hskip ⟨⟨hleak.1, hleak.2.2.1⟩, hleak.2.1, hleak.2.2.2.1⟩
    by_cases hsession : this.dirty = true → this.sessionPresent = true
    · exact encode_alike hlength gPacketId gPacketId' hsession
    · push Not at hsession
      obtain ⟨hdirty, hsession⟩ := hsession
      rw [encode, encode, if_neg (by simp [hdirty]), if_neg (by simp [hdirty])]
      apply encodeBody_alike_of_refused hlength
      intro haccepted
      exact hskip ⟨⟨hdirty, by simpa using hsession⟩, haccepted⟩

end Encoders

/-! ## Every message type -/

/-- A packet id is part of what `Encode` writes. -/
def needsPacketId : Message → Prop
  | .publish this => this.qos ≠ 0
  | .subscribe _ | .unsubscribe _ => True
  | _ => False

/-- `Encode` leaves a byte of the buffer in its output, and the two buffers differ
there: a changed CONNACK without a session skips the byte behind its fixed header. -/
def Leaks (dst dst' : Bytes) : Message → Prop
  | .connack this =>
      this.dirty = true ∧ this.type.valid = true ∧ this.sessionPresent = false ∧
        this.toHeader.msglen + 2 ≤ dst.length ∧ dst[2]? ≠ dst'[2]?
  | _ => False

theorem alike_lift_iff {μ : Type} {wrap : μ → Message} (hwrap : Function.Injective wrap)
    {first second : Outcome Err (Encoded μ)} :
    Alike SameOutput (Message.lift wrap first) (Message.lift wrap second) ↔
      Alike SameOutput first second := by
  apply alike_map_iff
  intro n left right
  simp only [SameOutput, hwrap.eq_iff]

/-- Run on two buffers of one length, `Encode` of a message that has its packet id
returns the same count and leaves the same bytes in front of it, exactly when the
message is not a CONNACK that skips a byte in which the buffers differ. -/
theorem encode_alike_iff {message : Message}
    (hid : message.needsPacketId → message.packetId ≠ 0) {dst dst' : Bytes}
    (hlength : dst.length = dst'.length) (gPacketId gPacketId' : UInt64) :
    Alike SameOutput (message.encode dst gPacketId) (message.encode dst' gPacketId') ↔
      ¬ message.Leaks dst dst' := by
  have halike {μ : Type} {wrap : μ → Message} {first second : Outcome Err (Encoded μ)}
      (hwrap : Function.Injective wrap) (hsame : Alike SameOutput first second) :
      Alike SameOutput (Message.lift wrap first) (Message.lift wrap second) ↔ ¬ False :=
    iff_of_true ((alike_lift_iff hwrap).mpr hsame) id
  cases message with
  | connack this =>
      exact (alike_lift_iff fun _ _ => Message.connack.inj).trans
        (this.alike_iff_same_flags hlength gPacketId gPacketId')
  | connect this =>
      exact halike (fun _ _ => Message.connect.inj) (this.encode_alike hlength _ _)
  | publish this =>
      exact halike (fun _ _ => Message.publish.inj)
        (PublishMessage.encode_alike hlength _ _ hid)
  | subscribe this =>
      exact halike (fun _ _ => Message.subscribe.inj)
        (SubscribeMessage.encode_alike hlength _ _ (hid trivial))
  | unsubscribe this =>
      exact halike (fun _ _ => Message.unsubscribe.inj)
        (UnsubscribeMessage.encode_alike hlength _ _ (hid trivial))
  | suback this =>
      exact halike (fun _ _ => Message.suback.inj) (this.encode_alike hlength _ _)
  | puback this =>
      exact halike (fun _ _ => Message.puback.inj) (this.encode_alike hlength _ _)
  | pubrec this =>
      exact halike (fun _ _ => Message.pubrec.inj) (this.encode_alike hlength _ _)
  | pubrel this =>
      exact halike (fun _ _ => Message.pubrel.inj) (this.encode_alike hlength _ _)
  | pubcomp this =>
      exact halike (fun _ _ => Message.pubcomp.inj) (this.encode_alike hlength _ _)
  | unsuback this =>
      exact halike (fun _ _ => Message.unsuback.inj) (this.encode_alike hlength _ _)
  | pingreq this =>
      exact halike (fun _ _ => Message.pingreq.inj) (this.encode_alike hlength _ _)
  | pingresp this =>
      exact halike (fun _ _ => Message.pingresp.inj) (this.encode_alike hlength _ _)
  | disconnect this =>
      exact halike (fun _ _ => Message.disconnect.inj) (this.encode_alike hlength _ _)

/-- A SUBSCRIBE with packet id 7 and one topic. -/
def subscribeSeven : SubscribeMessage :=
  ((newSubscribeMessage.setPacketId 7).addTopic [0x61] 1).1

theorem encode_alike_iff_subscribe :
    Alike SameOutput (Message.encode (List.replicate 9 0) 0 (.subscribe subscribeSeven))
      (Message.encode (List.replicate 9 0xff) 5 (.subscribe subscribeSeven)) := by
  have hid : (Message.subscribe subscribeSeven).needsPacketId →
      (Message.subscribe subscribeSeven).packetId ≠ 0 := fun _ => by decide
  have hlength : (List.replicate 9 (0 : Byte)).length = (List.replicate 9 (0xff : Byte)).length :=
    rfl
  exact (encode_alike_iff hid hlength 0 5).mpr id

/-- A new CONNACK in two buffers: the third byte of the output is what was there. -/
theorem connack_keeps_old_byte :
    (Message.encode [0, 0, 0, 0] 0 (.connack newConnackMessage)).map Encoded.dst =
        .done [0x20, 0x02, 0, 0] 4 ∧
      (Message.encode [7, 7, 7, 7] 0 (.connack newConnackMessage)).map Encoded.dst =
        .done [0x20, 0x02, 7, 0] 4 := by
  decide +kernel

end Xmqtt.Message
