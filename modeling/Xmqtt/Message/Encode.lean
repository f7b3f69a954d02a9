import Xmqtt.Message.Header

/-!
# Encoding a message

The steps that the encoders of all messages share: a message that has not
changed since its decode is copied from the decode buffer, any other sets its
remaining length and writes the fixed header, then a packet id if it has one,
and then its own fields.
-/

namespace Xmqtt.Message

open Xmqtt.Go

/-- `n, err := this.header.encode(dst[0:])`. -/
def emitHeader {μ : Type} (header : Header) (state : Encoded μ) :
    Outcome Err (Encoded μ) :=
  (header.encode state.dst).map fun dst => { state with dst := dst }

/-- Allocate a packet id if the message has none, and
`n = copy(dst[total:], this.packetId)`. -/
def emitPacketId {μ : Type} (header : μ → Header) (rebuild : μ → Header → μ)
    (state : Encoded μ) (total : ℕ) : Outcome Err (Encoded μ) :=
  emitCopy ((header state.this).ensurePacketId state.gPacketId).1.packetId
    { state with
      this := rebuild state.this ((header state.this).ensurePacketId state.gPacketId).1
      gPacketId := ((header state.this).ensurePacketId state.gPacketId).2 } total

/-- `Encode` of a message that has not changed since its decode: the decode
buffer is copied.  `name` is the file the error text begins with. -/
def encodeClean {μ : Type} (name : String) (header : Header) (state : Encoded μ) :
    Outcome Err (Encoded μ) :=
  if state.dst.length < header.dbuf.bytes.length then
    .fail state 0 (.errorf
      (name ++ "/Encode: Insufficient buffer size. Expecting %d, got %d.")
      [.int header.dbuf.bytes.length, .int state.dst.length])
  else
    .done
      { state with
        dst := header.dbuf.bytes ++ state.dst.drop header.dbuf.bytes.length }
      header.dbuf.bytes.length

section EncodeBody

variable {μ : Type} (header : Header) (rebuild : Header → μ) (ml : ℕ)
variable (fields : Encoded μ → ℕ → Outcome Err (Encoded μ))
variable (dst : Bytes) (gPacketId : UInt64)

/-- `SetRemainingLength`, the fixed header, and the fields behind it.
`rebuild` puts a header back into its message. -/
def encodeSized : Outcome Err (Encoded μ) :=
  match header.setRemainingLength (int32 ml) with
  | (_, some err) => .fail ⟨rebuild header, dst, gPacketId⟩ 0 err
  | (header, none) =>
      (emitHeader header ⟨rebuild header, dst, gPacketId⟩).andThen fields

/-- `Encode` of a changed message, as all types but PUBLISH have it: the buffer
is measured against the header length before the remaining length is set. -/
def encodeBody (name : String) : Outcome Err (Encoded μ) :=
  if dst.length < header.msglen + ml then
    .fail ⟨rebuild header, dst, gPacketId⟩ 0 (.errorf
      (name ++ "/Encode: Insufficient buffer size. Expecting %d, got %d.")
      [.int (header.msglen + ml), .int dst.length])
  else encodeSized header rebuild ml fields dst gPacketId

end EncodeBody

/-! ## What a successful encode writes -/

/-- The first step of every encoder, when the header fits. -/
theorem emitHeader_eq_done_iff {μ : Type} {header : Header} {this : μ} {dst : Bytes}
    {gPacketId : UInt64} {state : Encoded μ} {n : ℕ} :
    emitHeader header ⟨this, dst, gPacketId⟩ = .done state n ↔
      (0 ≤ header.remlen ∧ header.remlen ≤ maxRemainingLength) ∧
        header.type.valid = true ∧ header.msglen ≤ dst.length ∧
        state = ⟨this, header.wire ++ dst.drop header.msglen, gPacketId⟩ ∧
        n = header.wire.length := by
  constructor
  · intro hdone
    rw [emitHeader] at hdone
    cases hencode : header.encode dst with
    | panic | fail result count err => simp [hencode] at hdone
    | done result count =>
        obtain ⟨hremlen, htype, hdst, rfl, rfl⟩ := Header.encode_eq_done hencode
        simp only [hencode, Outcome.map_done, Outcome.done.injEq] at hdone
        exact ⟨hremlen, htype, hdst, hdone.1.symm, by
          rw [Header.length_wire hremlen.1 hremlen.2, hdone.2]⟩
  · rintro ⟨hremlen, htype, hdst, rfl, rfl⟩
    rw [emitHeader, Header.encode_of_le hremlen.1 hremlen.2 htype hdst,
      Header.length_wire hremlen.1 hremlen.2]
    rfl

/-- A packet id that fits is written whole. -/
theorem emitPacketId_of_le {μ : Type} (header : μ → Header) (rebuild : μ → Header → μ)
    (this : μ) {out rest : Bytes} (hfit : 2 ≤ rest.length) (gPacketId : UInt64) :
    emitPacketId header rebuild ⟨this, out ++ rest, gPacketId⟩ out.length =
      .done
        ⟨rebuild this ((header this).ensurePacketId gPacketId).1,
          (out ++ ((header this).ensurePacketId gPacketId).1.packetId) ++ rest.drop 2,
          ((header this).ensurePacketId gPacketId).2⟩
        (out ++ ((header this).ensurePacketId gPacketId).1.packetId).length := by
  have hid := Header.length_packetId_ensurePacketId (header this) gPacketId
  rw [emitPacketId, emitCopy_of_le (by rw [hid]; exact hfit), hid]

/-- An encoder returns without an error exactly when the header can be written
and the fields behind it return without one. -/
theorem encodeSized_eq_done_iff {μ : Type} {header : Header} {rebuild : Header → μ}
    {ml : ℕ} {fields : Encoded μ → ℕ → Outcome Err (Encoded μ)} {dst : Bytes}
    {gPacketId : UInt64} {state : Encoded μ} {n : ℕ} :
    encodeSized header rebuild ml fields dst gPacketId = .done state n ↔
      (0 ≤ int32 ml ∧ int32 ml ≤ maxRemainingLength) ∧ header.type.valid = true ∧
        (header.sized ml).msglen ≤ dst.length ∧
        fields
          ⟨rebuild (header.sized ml),
            (header.sized ml).wire ++ dst.drop (header.sized ml).msglen, gPacketId⟩
          (header.sized ml).wire.length = .done state n := by
  by_cases hremlen : 0 ≤ int32 ml ∧ int32 ml ≤ maxRemainingLength
  · rw [encodeSized, Header.setRemainingLength_int32 hremlen]
    simp only [Outcome.andThen_eq_done_iff]
    constructor
    · rintro ⟨middle, count, hheader, hfields⟩
      obtain ⟨-, htype, hdst, rfl, rfl⟩ := emitHeader_eq_done_iff.mp hheader
      exact ⟨hremlen, htype, hdst, hfields⟩
    · rintro ⟨-, htype, hdst, hfields⟩
      exact ⟨_, _, emitHeader_eq_done_iff.mpr ⟨hremlen, htype, hdst, rfl, rfl⟩, hfields⟩
  · obtain ⟨err, herr⟩ := header.setRemainingLength_of_not hremlen
    rw [encodeSized, herr]
    simp [hremlen]

theorem encodeBody_eq_done_iff {μ : Type} {header : Header} {rebuild : Header → μ}
    {ml : ℕ} {fields : Encoded μ → ℕ → Outcome Err (Encoded μ)} {dst : Bytes}
    {gPacketId : UInt64} {name : String} {state : Encoded μ} {n : ℕ} :
    encodeBody header rebuild ml fields dst gPacketId name = .done state n ↔
      header.msglen + ml ≤ dst.length ∧
        encodeSized header rebuild ml fields dst gPacketId = .done state n := by
  rw [encodeBody]
  split <;> rename_i hfit
  · simp [hfit]
  · simp [not_lt.mp hfit]

/-- A changed message is encoded: the `ml` bytes of `body` stand behind a header that announces
them, and `sent` is what the message has become.  `ok` is what its fields need. -/
@[mk_iff]
structure Emits {μ : Type} (header : Header) (ml : ℕ) (ok : Prop) (body dst : Bytes) (sent : μ)
    (gPacketId : UInt64) (state : Encoded μ) (n : ℕ) : Prop where
  room : header.msglen + ml ≤ dst.length
  remlen : 0 ≤ int32 ml ∧ int32 ml ≤ maxRemainingLength
  valid : header.type.valid = true
  writable : ok
  fits : (header.sized ml).msglen + ml ≤ dst.length
  state_eq : state = ⟨sent, (header.sized ml).wire ++ body ++
    dst.drop ((header.sized ml).msglen + ml), gPacketId⟩
  count_eq : n = (header.sized ml).msglen + ml

theorem Emits.take_dst {μ : Type} {header : Header} {ml n : ℕ} {ok : Prop} {body dst : Bytes}
    {sent : μ} {gPacketId : UInt64} {state : Encoded μ}
    (hemits : Emits header ml ok body dst sent gPacketId state n) (hbody : body.length = ml) :
    state.dst.take n = (header.sized ml).wire ++ body := by
  rw [hemits.state_eq, hemits.count_eq]
  apply List.take_left'
  rw [List.length_append, Header.length_wire hemits.remlen.1 hemits.remlen.2, hbody]

/-- An encoder whose fields are, when `ok` holds, just `bytes`. -/
theorem encodeBody_writes_eq_done_iff {μ : Type} {header : Header} {rebuild : Header → μ}
    {fields : Encoded μ → ℕ → Outcome Err (Encoded μ)} {ok : Prop} {bytes : Bytes}
    (hfields : Writes fields ok bytes) {ml : ℕ} (hml : ml = bytes.length) {dst : Bytes}
    {gPacketId : UInt64} {name : String} {state : Encoded μ} {n : ℕ} :
    encodeBody header rebuild ml fields dst gPacketId name = .done state n ↔
      Emits header ml ok bytes dst (rebuild (header.sized ml)) gPacketId state n := by
  subst hml
  rw [encodeBody_eq_done_iff, encodeSized_eq_done_iff, emits_iff]
  refine and_congr_right fun _ => and_congr_right fun hremlen => and_congr_right fun _ => ?_
  have hwire : (header.sized bytes.length).wire.length = (header.sized bytes.length).msglen :=
    Header.length_wire hremlen.1 hremlen.2
  rw [hfields]
  simp only [List.length_append, List.length_drop, List.drop_drop, hwire]
  constructor
  · rintro ⟨hle, hok, hbytes, hstate, hcount⟩
    exact ⟨hok, by omega, hstate, hcount⟩
  · rintro ⟨hok, hbytes, hstate, hcount⟩
    exact ⟨by omega, hok, by omega, hstate, hcount⟩

section PacketId

variable {μ : Type} {header : μ → Header} {rebuild : μ → Header → μ}
variable {fields : Encoded μ → ℕ → Outcome Err (Encoded μ)} {ok : Prop} {bytes : Bytes}

/-- An encoder that writes a packet id and then, when `ok` holds, `bytes`. -/
theorem encodeBody_packetId_eq_done_iff
    (hheader : ∀ this sized, header (rebuild this sized) = sized)
    (hfields : Writes fields ok bytes) {this : μ} {ml : ℕ} (hml : ml = 2 + bytes.length)
    {dst : Bytes} {gPacketId : UInt64} {name : String} {state : Encoded μ} {n : ℕ} :
    encodeBody (header this) (rebuild this) ml
        (fun state total => (emitPacketId header rebuild state total).andThen fields)
        dst gPacketId name = .done state n ↔
      Emits (header this) ml ok
        ((((header this).sized ml).ensurePacketId gPacketId).1.packetId ++ bytes) dst
        (rebuild (rebuild this ((header this).sized ml))
          (((header this).sized ml).ensurePacketId gPacketId).1)
        (((header this).sized ml).ensurePacketId gPacketId).2 state n := by
  have hlow := (header this).two_le_msglen
  have hlong : 2 < ((header this).sized ml).msglen → 127 < ml := Header.msglen_sized_lt
  have hhigh := ((header this).sized ml).msglen_le
  rw [encodeBody_eq_done_iff, encodeSized_eq_done_iff, emits_iff]
  refine and_congr_right fun hfit => and_congr_right fun hremlen => and_congr_right fun _ => ?_
  have hwire : ((header this).sized ml).wire.length = ((header this).sized ml).msglen :=
    Header.length_wire hremlen.1 hremlen.2
  generalize (header this).sized ml = sized at *
  have hid := Header.length_packetId_ensurePacketId sized gPacketId
  have hroom : 2 ≤ (dst.drop sized.msglen).length := by
    rw [List.length_drop]
    omega
  rw [emitPacketId_of_le _ _ _ hroom, Outcome.done_andThen, hheader, hfields]
  simp only [List.length_append, List.length_drop, List.drop_drop, List.append_assoc, hwire,
    hid, hml, add_assoc]
  constructor
  · rintro ⟨hle, hok, hbytes, hstate, hcount⟩
    exact ⟨hok, by omega, hstate, hcount⟩
  · rintro ⟨hok, hbytes, hstate, hcount⟩
    exact ⟨by omega, hok, by omega, hstate, hcount⟩

end PacketId

/-! ## Headers with a packet id -/

/-- The header of a changed message of the given type and packet id, ready to
be encoded in front of `ml` bytes. -/
structure Header.Ready (this : Header) (mtype : MessageType) (id : UInt16) (ml : ℕ) :
    Prop where
  dirty : this.dirty = true
  mtypeflags : this.mtypeflags = (newHeader mtype).mtypeflags
  packetIdValue : this.packetIdValue = id.toNat
  nonzero : id ≠ 0
  msglen_le : this.msglen ≤ (this.sized ml).msglen

namespace Header.Ready

variable {this : Header} {mtype : MessageType} {id : UInt16} {ml : ℕ}

theorem new (mtype : MessageType) (hid : id ≠ 0) (ml : ℕ) :
    ((newHeader mtype).setPacketId id).Ready mtype id ml where
  dirty := dirty_setPacketId rfl id
  mtypeflags := mtypeflags_setPacketId _ _
  packetIdValue := packetIdValue_setPacketId _ hid
  nonzero := hid
  msglen_le := by
    have hshort : ((newHeader mtype).setPacketId id).msglen = 2 := by
      rw [Header.msglen, remlen_setPacketId]
      rfl
    rw [hshort]
    exact two_le_msglen _

/-- `Len` leaves the header ready. -/
theorem sized (hready : this.Ready mtype id ml) : (this.sized ml).Ready mtype id ml :=
  ⟨rfl, hready.mtypeflags, hready.packetIdValue, hready.nonzero, le_rfl⟩

theorem type_eq (hready : this.Ready mtype id ml) : this.type = mtype := by
  rw [Header.type, hready.mtypeflags]
  exact type_newHeader mtype

theorem packetIdValue_ne_zero (hready : this.Ready mtype id ml) : this.packetIdValue ≠ 0 := by
  rw [hready.packetIdValue]
  exact fun hzero => hready.nonzero (UInt16.toNat_inj.mp hzero)

theorem length_packetId (hready : this.Ready mtype id ml) : this.packetId.length = 2 :=
  length_packetId_of_value_ne_zero hready.packetIdValue_ne_zero

end Header.Ready

end Xmqtt.Message
