import Xmqtt.Message.Fields

/-!
# The MQTT fixed header

Every message embeds a `header`: the type and flags byte, the remaining
length, the packet id, and the buffer the message was last decoded from.
After a decode the type byte and the packet id are slices of that buffer, so a
setter writes through to it; `flagsInDbuf` and `packetIdAt` record where.
-/

namespace Xmqtt.Message

open Xmqtt.Go

/-- The MQTT control packet types, by their four-bit values. -/
inductive MessageType where
  | reserved | connect | connack | publish | puback | pubrec | pubrel | pubcomp
  | subscribe | suback | unsubscribe | unsuback | pingreq | pingresp
  | disconnect | reserved2
  deriving DecidableEq, Repr

namespace MessageType

def value : MessageType → Byte
  | reserved => 0
  | connect => 1
  | connack => 2
  | publish => 3
  | puback => 4
  | pubrec => 5
  | pubrel => 6
  | pubcomp => 7
  | subscribe => 8
  | suback => 9
  | unsubscribe => 10
  | unsuback => 11
  | pingreq => 12
  | pingresp => 13
  | disconnect => 14
  | reserved2 => 15

/-- The conversion `MessageType(b)` of a four-bit value. -/
def ofNibble (nibble : Byte) : MessageType :=
  match nibble.toNat with
  | 0 => reserved
  | 1 => connect
  | 2 => connack
  | 3 => publish
  | 4 => puback
  | 5 => pubrec
  | 6 => pubrel
  | 7 => pubcomp
  | 8 => subscribe
  | 9 => suback
  | 10 => unsubscribe
  | 11 => unsuback
  | 12 => pingreq
  | 13 => pingresp
  | 14 => disconnect
  | _ => reserved2

def defaultFlags : MessageType → Byte
  | pubrel | subscribe | unsubscribe => 2
  | _ => 0

def valid (mtype : MessageType) : Bool := mtype != reserved && mtype != reserved2

def name : MessageType → String
  | reserved => "RESERVED"
  | connect => "CONNECT"
  | connack => "CONNACK"
  | publish => "PUBLISH"
  | puback => "PUBACK"
  | pubrec => "PUBREC"
  | pubrel => "PUBREL"
  | pubcomp => "PUBCOMP"
  | subscribe => "SUBSCRIBE"
  | suback => "SUBACK"
  | unsubscribe => "UNSUBSCRIBE"
  | unsuback => "UNSUBACK"
  | pingreq => "PINGREQ"
  | pingresp => "PINGRESP"
  | disconnect => "DISCONNECT"
  | reserved2 => "RESERVED2"

end MessageType

def maxRemainingLength : ℤ := 268435455

def qosAtMostOnce : Byte := 0
def qosAtLeastOnce : Byte := 1
def qosExactlyOnce : Byte := 2
def qosFailure : Byte := 0x80

/-- A topic is valid when it is not empty and has no wildcard character. -/
def validTopic (topic : Bytes) : Bool :=
  0 < topic.length && !topic.contains 0x23 && !topic.contains 0x2b

def validQos (qos : Byte) : Bool :=
  qos == qosAtMostOnce || qos == qosAtLeastOnce || qos == qosExactlyOnce

/-- The state shared by all messages.  `flagsInDbuf` says that the type byte
is the first byte of `dbuf`, `packetIdAt` at which offset of `dbuf` the packet
id lies. -/
structure Header where
  remlen : ℤ
  mtypeflags : Byte
  packetId : Bytes
  dbuf : Slice
  dirty : Bool
  flagsInDbuf : Bool
  packetIdAt : Option ℕ
  deriving DecidableEq, Repr

/-- The header of a new message: `SetType` on the zero value. -/
def newHeader (mtype : MessageType) : Header where
  remlen := 0
  mtypeflags := (mtype.value <<< 4) ||| (mtype.defaultFlags &&& 0xf)
  packetId := []
  dbuf := ⟨[], []⟩
  dirty := true
  flagsInDbuf := false
  packetIdAt := none

namespace Header

def type (this : Header) : MessageType := .ofNibble (this.mtypeflags >>> 4)

def flags (this : Header) : Byte := this.mtypeflags &&& 0x0f

/-- Assign `this.mtypeflags[0]`. -/
def setMtypeflags (this : Header) (byte : Byte) : Header :=
  { this with
    mtypeflags := byte
    dbuf := if this.flagsInDbuf then this.dbuf.poke 0 byte else this.dbuf }

def setRemainingLength (this : Header) (remlen : ℤ) : Header × Option Err :=
  if remlen > maxRemainingLength ∨ remlen < 0 then
    (this, some (.errorf
      "header/SetLength: Remaining length (%d) out of bound (max %d, min 0)"
      [.int remlen, .int maxRemainingLength]))
  else ({ this with remlen := remlen, dirty := true }, none)

def packetIdValue (this : Header) : ℕ :=
  match this.packetId with
  | [high, low] => bigEndianUint16 high low
  | _ => 0

/-- Write two bytes into a packet id that is already there. -/
def storePacketId (this : Header) (high low : Byte) : Header :=
  { this with
    packetId := [high, low]
    dbuf :=
      match this.packetIdAt with
      | some offset => (this.dbuf.poke offset high).poke (offset + 1) low
      | none => this.dbuf }

def clearPacketId (this : Header) : Header :=
  if this.packetId.length = 2 then this.storePacketId 0 0 else this

def setPacketId (this : Header) (v : UInt16) : Header :=
  if v = 0 then this
  else
    let this :=
      if this.packetId.length ≠ 2 then
        { this with packetId := [0, 0], packetIdAt := none, dirty := true }
      else this
    this.storePacketId (UInt8.ofNat (v.toNat / 256)) (UInt8.ofNat v.toNat)

/-- The two `atomic.AddUint64(&gPacketId, 1)` of an encoder that needs a packet
id: the second only when the low 16 bits of the first are zero. -/
def allocPacketId (gPacketId : UInt64) : UInt16 × UInt64 :=
  if (gPacketId + 1).toUInt16 = 0 then
    ((gPacketId + 1 + 1).toUInt16, gPacketId + 1 + 1)
  else ((gPacketId + 1).toUInt16, gPacketId + 1)

/-- Take a new packet id when the message has none. -/
def ensurePacketId (this : Header) (gPacketId : UInt64) : Header × UInt64 :=
  if this.packetIdValue = 0 then
    (this.setPacketId (allocPacketId gPacketId).1, (allocPacketId gPacketId).2)
  else (this, gPacketId)

def msglen (this : Header) : ℕ :=
  1 +
    if this.remlen ≤ 127 then 1
    else if this.remlen ≤ 16383 then 2
    else if this.remlen ≤ 2097151 then 3
    else 4

/-- The `Len` method of the messages that have a body of `ml` bytes. -/
def lenOf (this : Header) (ml : ℕ) : Header × ℕ :=
  if !this.dirty then (this, this.dbuf.bytes.length)
  else
    match this.setRemainingLength (int32 ml) with
    | (this, some _) => (this, 0)
    | (this, none) => (this, this.msglen + ml)

def encode (this : Header) (dst : Bytes) : Outcome Err Bytes :=
  if dst.length < this.msglen then
    .fail dst 0 (.errorf
      "header/Encode: Insufficient buffer size. Expecting %d, got %d."
      [.int this.msglen, .int dst.length])
  else if this.remlen > maxRemainingLength ∨ this.remlen < 0 then
    .fail dst 0 (.errorf
      "header/Encode: Remaining length (%d) out of bound (max %d, min 0)"
      [.int this.remlen, .int maxRemainingLength])
  else if !this.type.valid then
    .fail dst 0 (.errorf "header/Encode: Invalid message type %d"
      [.int this.type.value.toNat])
  else
    match dst with
    | [] => .panic
    | _ :: rest =>
        match putUvarint rest this.remlen.toNat with
        | none => .panic
        | some (rest, n) => .done (this.mtypeflags :: rest) (1 + n)

/-- What `decode` makes of the header before it looks at the remaining
length.  A packet id left from an earlier buffer keeps its bytes. -/
def adopt (this : Header) (src : Slice) (first : Byte) : Header :=
  { this with
    dbuf := src
    mtypeflags := first
    flagsInDbuf := true
    packetIdAt := none }

/-- The checks `decode` makes on the type and flags byte. -/
def checkType (this : Header) (mtype : MessageType) : Option Err :=
  if !this.type.valid then
    some (.errorf "header/Decode: Invalid message type %d."
      [.int mtype.value.toNat])
  else if mtype ≠ this.type then
    some (.errorf "header/Decode: Invalid message type %d. Expecting %d."
      [.int this.type.value.toNat, .int mtype.value.toNat])
  else if this.type ≠ .publish ∧ this.flags ≠ this.type.defaultFlags then
    some (.errorf
      "header/Decode: Invalid message (%d) flags. Expecting %d, got %d"
      [.int this.type.value.toNat, .int this.type.defaultFlags.toNat,
        .int this.flags.toNat])
  else if this.type = .publish ∧ !validQos ((this.flags >>> 1) &&& 0x3) then
    some (.errorf "header/Decode: Invalid QoS (%d) for PUBLISH message."
      [.int ((this.flags >>> 1) &&& 0x3).toNat])
  else none

/-- The part of `decode` behind the type byte: `binary.Uvarint(src[1:])` and
the two checks on its value.  On overflow the count is negative, so `src[total:]`
panics. -/
def decodeRemlen (this : Header) (src : Slice) : Outcome Err Header :=
  match src.tail 1 with
  | none => .panic
  | some rest =>
      let (remlen, m) := uvarint rest.bytes
      let total : ℤ := 1 + m
      let this := { this with remlen := int32 remlen }
      if this.remlen > maxRemainingLength then
        .fail this total.toNat (.errorf
          "header/Decode: Remaining length (%d) out of bound (max %d, min 0)"
          [.int this.remlen, .int maxRemainingLength])
      else if total < 0 then .panic
      else
        match src.tail total.toNat with
        | none => .panic
        | some rest =>
            if this.remlen > rest.bytes.length then
              .fail this total.toNat (.errorf
                "header/Decode: Remaining length (%d) is greater than remaining buffer (%d)"
                [.int this.remlen, .int rest.bytes.length])
            else .done this total.toNat

def decode (this : Header) (src : Slice) : Outcome Err Header :=
  match src.cells with
  | [] => .panic
  | first :: _ =>
      let mtype := this.type
      let this := this.adopt src first
      match this.checkType mtype with
      | some err => .fail this 0 err
      | none => this.decodeRemlen src

/-- `this.packetId = src[total : total+2]`. -/
def readPacketId (this : Header) (src : Slice) (total : ℕ) : Outcome Err Header :=
  match src.window total (total + 2) with
  | none => .panic
  | some field =>
      .done { this with packetId := field.bytes, packetIdAt := some total } (total + 2)

end Header

/-- The header once an encoder has set the remaining length for a body of
`ml` bytes. -/
def Header.sized (this : Header) (ml : ℕ) : Header :=
  { this with remlen := int32 ml, dirty := true }

/-! ## The encoded header -/

theorem type_newHeader (mtype : MessageType) : (newHeader mtype).type = mtype := by
  cases mtype <;> decide

namespace Header

@[simp]
theorem remlen_sized (this : Header) (ml : ℕ) : (this.sized ml).remlen = int32 ml := rfl

@[simp]
theorem type_sized (this : Header) (ml : ℕ) : (this.sized ml).type = this.type := rfl

theorem sized_sized (this : Header) (ml ml' : ℕ) :
    (this.sized ml).sized ml' = this.sized ml' := rfl

@[simp]
theorem packetIdValue_sized (this : Header) (ml : ℕ) :
    (this.sized ml).packetIdValue = this.packetIdValue := rfl

theorem msglen_eq {this : Header} (hlow : 0 ≤ this.remlen)
    (hhigh : this.remlen ≤ maxRemainingLength) :
    this.msglen = 1 + (uvarintBytes this.remlen.toNat).length := by
  have hsmall : this.remlen.toNat < 268435456 := by
    simp only [maxRemainingLength] at hhigh
    omega
  rw [msglen, length_uvarintBytes hsmall]
  congr 1
  split_ifs <;> first | rfl | omega

theorem two_le_msglen (this : Header) : 2 ≤ this.msglen := by
  rw [msglen]
  split_ifs <;> omega

theorem msglen_le (this : Header) : this.msglen ≤ 5 := by
  rw [msglen]
  split_ifs <;> omega

/-- A header longer than the shortest one stands in front of a body longer
than any header. -/
theorem msglen_sized_lt {this : Header} {ml : ℕ} (hlong : 2 < (this.sized ml).msglen) :
    127 < ml := by
  have hint := int32_le ml
  rw [msglen, remlen_sized] at hlong
  split_ifs at hlong <;> omega

/-- The bytes of an encoded header. -/
def wire (this : Header) : Bytes :=
  this.mtypeflags :: uvarintBytes this.remlen.toNat

theorem length_wire {this : Header} (hlow : 0 ≤ this.remlen)
    (hhigh : this.remlen ≤ maxRemainingLength) : this.wire.length = this.msglen := by
  rw [msglen_eq hlow hhigh, wire, List.length_cons, add_comm]

theorem encode_of_le {this : Header} {dst : Bytes} (hlow : 0 ≤ this.remlen)
    (hhigh : this.remlen ≤ maxRemainingLength) (htype : this.type.valid = true)
    (hdst : this.msglen ≤ dst.length) :
    this.encode dst = .done (this.wire ++ dst.drop this.msglen) this.msglen := by
  have hlen := msglen_eq hlow hhigh
  rw [encode.eq_def, if_neg (by omega), if_neg (by omega), htype]
  cases dst with
  | nil => simp only [List.length_nil, hlen] at hdst; omega
  | cons old rest =>
      simp only [List.length_cons, hlen] at hdst
      simp only [Bool.not_true, Bool.false_eq_true, if_false, putUvarint]
      rw [if_pos (by omega)]
      simp only [wire, hlen, List.cons_append, add_comm 1, List.drop_succ_cons]

theorem encode_eq_done {this : Header} {dst result : Bytes} {n : ℕ}
    (hdone : this.encode dst = .done result n) :
    (0 ≤ this.remlen ∧ this.remlen ≤ maxRemainingLength) ∧ this.type.valid = true ∧
      this.msglen ≤ dst.length ∧ result = this.wire ++ dst.drop this.msglen ∧
      n = this.msglen := by
  by_cases hdst : dst.length < this.msglen
  · simp [encode, hdst] at hdone
  by_cases hremlen : this.remlen > maxRemainingLength ∨ this.remlen < 0
  · simp [encode, hdst, hremlen] at hdone
  by_cases htype : this.type.valid = true
  · rw [encode_of_le (by omega) (by omega) htype (by omega)] at hdone
    injection hdone with hresult hcount
    exact ⟨⟨by omega, by omega⟩, htype, by omega, hresult.symm, hcount.symm⟩
  · simp [encode, hdst, hremlen, htype] at hdone

/-- A header that cannot be written is refused, for a reason that only the length
of the buffer is part of. -/
theorem encode_refused (this : Header) {size : ℕ}
    (hrefused : ¬ ((0 ≤ this.remlen ∧ this.remlen ≤ maxRemainingLength) ∧
      this.type.valid = true ∧ this.msglen ≤ size)) :
    ∃ err, ∀ dst : Bytes, dst.length = size → this.encode dst = .fail dst 0 err := by
  by_cases hsize : size < this.msglen
  · refine ⟨.errorf "header/Encode: Insufficient buffer size. Expecting %d, got %d."
      [.int this.msglen, .int size], fun dst hdst => ?_⟩
    rw [encode.eq_def, if_pos (hdst ▸ hsize), hdst]
  · by_cases hremlen : this.remlen > maxRemainingLength ∨ this.remlen < 0
    · refine ⟨.errorf "header/Encode: Remaining length (%d) out of bound (max %d, min 0)"
        [.int this.remlen, .int maxRemainingLength], fun dst hdst => ?_⟩
      rw [encode.eq_def, if_neg (hdst ▸ hsize), if_pos hremlen]
    · have htype : this.type.valid = false := by
        rw [← Bool.not_eq_true]
        intro htype
        exact hrefused ⟨by omega, htype, by omega⟩
      refine ⟨.errorf "header/Encode: Invalid message type %d"
        [.int this.type.value.toNat], fun dst hdst => ?_⟩
      rw [encode.eq_def, if_neg (hdst ▸ hsize), if_neg hremlen, htype]
      rfl

theorem setRemainingLength_int32 {this : Header} {ml : ℕ}
    (hremlen : 0 ≤ int32 ml ∧ int32 ml ≤ maxRemainingLength) :
    this.setRemainingLength (int32 ml) = (this.sized ml, none) := by
  rw [setRemainingLength, if_neg (by omega), sized]

theorem setRemainingLength_of_not (this : Header) {remlen : ℤ}
    (hbounds : ¬ (0 ≤ remlen ∧ remlen ≤ maxRemainingLength)) :
    ∃ err, this.setRemainingLength remlen = (this, some err) := by
  rw [setRemainingLength, if_pos (by omega)]
  exact ⟨_, rfl⟩

theorem dirty_lenOf {this : Header} (hdirty : this.dirty = true) (ml : ℕ) :
    (this.lenOf ml).1.dirty = true := by
  rw [lenOf, hdirty, if_neg (by simp), setRemainingLength]
  split_ifs
  · exact hdirty
  · rfl

theorem remlen_bounds {ml : ℕ} (hml : ml ≤ 268435455) :
    0 ≤ int32 ml ∧ int32 ml ≤ maxRemainingLength := by
  rw [int32_of_lt (show ml < 2 ^ 31 by omega), maxRemainingLength]
  omega

theorem lenOf_of_le {this : Header} {ml : ℕ} (hdirty : this.dirty = true)
    (hml : ml ≤ 268435455) : this.lenOf ml = (this.sized ml, (this.sized ml).msglen + ml) := by
  rw [lenOf, hdirty, setRemainingLength_int32 (remlen_bounds hml)]
  simp

/-! ## Packet ids -/

theorem readPacketId_of_tail {this : Header} {src : Slice} {total : ℕ}
    {id rest spare : Bytes} (htail : src.tail total = some ⟨id ++ rest, spare⟩)
    (hid : id.length = 2) :
    this.readPacketId src total =
      .done { this with packetId := id, packetIdAt := some total } (total + 2) := by
  have hwindow := Slice.window_of_tail htail 2
  rw [Slice.window_zero_of_append (by rw [hid]; rfl)] at hwindow
  rw [readPacketId, hwindow]

theorem counter_eq {id : Bytes} (hid : id.length = 2) (rest : Bytes) (hn : ℕ) :
    (((id ++ rest).length : ℕ) : ℤ) - (((hn + 2 : ℕ) : ℤ) - hn) = rest.length := by
  rw [List.length_append, hid]
  omega

theorem allocPacketId_ne_zero (gPacketId : UInt64) : (allocPacketId gPacketId).1 ≠ 0 := by
  rw [allocPacketId]
  split
  · rename_i hzero
    simp only [ne_eq]
    rw [UInt64.toUInt16_add, hzero]
    decide
  · rename_i hnonzero
    exact hnonzero

theorem length_packetId_of_value_ne_zero {this : Header}
    (hvalue : this.packetIdValue ≠ 0) : this.packetId.length = 2 := by
  rw [packetIdValue] at hvalue
  split at hvalue
  · rename_i hpair
    rw [hpair]
    rfl
  · exact (hvalue rfl).elim

theorem packetIdValue_lt (this : Header) : this.packetIdValue < 65536 := by
  rw [packetIdValue]
  split
  · exact bigEndianUint16_lt _ _
  · norm_num

theorem length_packetId_setPacketId {this : Header} {v : UInt16} (hv : v ≠ 0) :
    (this.setPacketId v).packetId.length = 2 := by
  rw [setPacketId, if_neg hv]
  rfl

theorem packetIdValue_setPacketId (this : Header) {v : UInt16} (hv : v ≠ 0) :
    (this.setPacketId v).packetIdValue = v.toNat := by
  rw [setPacketId, if_neg hv]
  exact bigEndianUint16_uint16Bytes v.toNat_lt

theorem length_packetId_ensurePacketId (this : Header) (gPacketId : UInt64) :
    (this.ensurePacketId gPacketId).1.packetId.length = 2 := by
  rw [ensurePacketId]
  split
  · exact length_packetId_setPacketId (allocPacketId_ne_zero gPacketId)
  · rename_i hvalue
    exact length_packetId_of_value_ne_zero hvalue

theorem ensurePacketId_of_ne_zero {this : Header} (hvalue : this.packetIdValue ≠ 0)
    (gPacketId : UInt64) : this.ensurePacketId gPacketId = (this, gPacketId) := by
  rw [ensurePacketId, if_neg hvalue]

theorem ensurePacketId_sized {this : Header} (hvalue : this.packetIdValue ≠ 0) (ml : ℕ)
    (gPacketId : UInt64) :
    (this.sized ml).ensurePacketId gPacketId = (this.sized ml, gPacketId) :=
  ensurePacketId_of_ne_zero (by rwa [packetIdValue_sized]) gPacketId

@[simp]
theorem mtypeflags_setPacketId (this : Header) (v : UInt16) :
    (this.setPacketId v).mtypeflags = this.mtypeflags := by
  rw [setPacketId]
  split_ifs <;> rfl

theorem dirty_setPacketId {this : Header} (hdirty : this.dirty = true) (v : UInt16) :
    (this.setPacketId v).dirty = true := by
  rw [setPacketId]
  split_ifs
  · exact hdirty
  · rfl
  · exact hdirty

theorem dirty_ensurePacketId {this : Header} (hdirty : this.dirty = true)
    (gPacketId : UInt64) : (this.ensurePacketId gPacketId).1.dirty = true := by
  rw [ensurePacketId]
  split
  · exact dirty_setPacketId hdirty _
  · exact hdirty

@[simp]
theorem remlen_setPacketId (this : Header) (v : UInt16) :
    (this.setPacketId v).remlen = this.remlen := by
  rw [setPacketId]
  split_ifs <;> rfl

@[simp]
theorem mtypeflags_ensurePacketId (this : Header) (gPacketId : UInt64) :
    (this.ensurePacketId gPacketId).1.mtypeflags = this.mtypeflags := by
  rw [ensurePacketId]
  split <;> simp

end Header

end Xmqtt.Message
