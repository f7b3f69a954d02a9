import Xmqtt.Message.Header

/-!
# Framed buffers

The receive loop cuts the byte stream into frames: a type and flags byte, a
remaining length of at most four varint bytes, and a body of exactly that
length.  This module says what `header.decode` makes of a frame, and that an
encoded header in front of a body of its remaining length is one.
-/

namespace Xmqtt.Message

open Xmqtt.Go

/-- A complete MQTT packet as the receive loop hands it over. -/
structure Frame where
  first : Byte
  digits : Bytes
  body : Bytes
  terminated : Terminated digits
  short : digits.length ≤ 4
  value_eq : uvarintValue digits = body.length

/-- The checks on the flags of a type byte: PUBLISH needs a QoS, every other
type its default flags. -/
def flagsAccepted (first : Byte) : Bool :=
  let mtype := MessageType.ofNibble (first >>> 4)
  if mtype = .publish then validQos (((first &&& 0x0f) >>> 1) &&& 0x3)
  else (first &&& 0x0f) == mtype.defaultFlags

theorem Header.checkType_eq_none_iff (this : Header) {mtype : MessageType} :
    this.checkType mtype = none ↔
      this.type.valid = true ∧ mtype = this.type ∧
        flagsAccepted this.mtypeflags = true := by
  have hflags : flagsAccepted this.mtypeflags =
      if this.type = .publish then validQos ((this.flags >>> 1) &&& 0x3)
      else this.flags == this.type.defaultFlags := rfl
  rw [hflags, checkType]
  by_cases hvalid : this.type.valid = true
  · by_cases hmtype : mtype = this.type
    · by_cases hpublish : this.type = .publish
      · by_cases hqos : validQos ((this.flags >>> 1) &&& 0x3) = true
        · simp [hmtype, hpublish, hqos, MessageType.valid]
        · simp [hmtype, hpublish, hqos, MessageType.valid]
      · by_cases hdefault : this.flags = this.type.defaultFlags
        · simp [hvalid, hmtype, hpublish, hdefault]
        · simp [hvalid, hmtype, hpublish, hdefault]
    · simp [hvalid, hmtype]
  · simp [hvalid]

theorem flagsAccepted_newHeader (mtype : MessageType) :
    flagsAccepted (newHeader mtype).mtypeflags = true := by
  cases mtype <;> decide

/-- A header once a fixed header has been read from `src`. -/
def Header.received (this : Header) (src : Slice) (first : Byte) (remlen : ℕ) : Header :=
  { this with
    remlen := remlen
    dbuf := src
    mtypeflags := first
    flagsInDbuf := true
    packetIdAt := none }

namespace Frame

def bytes (frame : Frame) : Bytes := frame.first :: (frame.digits ++ frame.body)

def mtype (frame : Frame) : MessageType := .ofNibble (frame.first >>> 4)

/-- The offset of the body. -/
def headerLength (frame : Frame) : ℕ := 1 + frame.digits.length

theorem length_body_lt (frame : Frame) : frame.body.length < 268435456 := by
  have hvalue := uvarintValue_lt frame.digits
  have hpow : 128 ^ frame.digits.length ≤ 128 ^ 4 :=
    Nat.pow_le_pow_right (by norm_num) frame.short
  rw [frame.value_eq] at hvalue
  norm_num at hpow
  omega

theorem length_bytes (frame : Frame) :
    frame.bytes.length = frame.headerLength + frame.body.length := by
  rw [bytes, headerLength, List.length_cons, List.length_append]
  omega

theorem tail_one (frame : Frame) (more spare : Bytes) :
    (Slice.mk (frame.bytes ++ more) spare).tail 1 =
      some ⟨frame.digits ++ (frame.body ++ more), spare⟩ := by
  rw [bytes, List.cons_append, List.append_assoc]
  exact Slice.tail_append [frame.first] _ spare

/-- The cursor at the start of the body. -/
theorem tail_headerLength (frame : Frame) (more spare : Bytes) :
    (Slice.mk (frame.bytes ++ more) spare).tail frame.headerLength =
      some ⟨frame.body ++ more, spare⟩ :=
  Slice.tail_add (frame.tail_one more spare)

/-- The counter of the topics starts with what the packet id leaves of the body. -/
theorem counter_of_body (frame : Frame) {id rest : Bytes} (hbody : frame.body = id ++ rest)
    (hid : id.length = 2) : (frame.body.length : ℤ) -
      (((frame.headerLength + 2 : ℕ) : ℤ) - frame.headerLength) = rest.length := by
  rw [hbody]
  exact Header.counter_eq hid rest _

theorem counter_of_tail (frame : Frame) {src : Slice} {after spare spare' : Bytes}
    (hbody : src.tail frame.headerLength = some ⟨frame.body, spare⟩)
    (hafter : src.tail (frame.headerLength + 2) = some ⟨after, spare'⟩) :
    (frame.body.length : ℤ) -
      (((frame.headerLength + 2 : ℕ) : ℤ) - frame.headerLength) = after.length := by
  have hstart := Slice.length_of_tail hbody
  have hend := Slice.length_of_tail hafter
  omega

theorem decodeRemlen_eq (frame : Frame) (this : Header) (more spare : Bytes) :
    this.decodeRemlen ⟨frame.bytes ++ more, spare⟩ =
      .done { this with remlen := frame.body.length } frame.headerLength := by
  have hlength := frame.length_body_lt
  have hvarint := uvarint_terminated frame.terminated
    (by have := frame.short; simp only [maxVarintLen64]; omega) (frame.body ++ more)
  have hremlen : int32 frame.body.length = frame.body.length :=
    int32_of_lt (by omega)
  have htotal : ((1 : ℤ) + frame.digits.length).toNat = frame.headerLength := by
    rw [headerLength]
    omega
  rw [Header.decodeRemlen, frame.tail_one]
  simp only [hvarint, frame.value_eq, hremlen, htotal, frame.tail_headerLength]
  rw [if_neg (by simp only [maxRemainingLength]; omega), if_neg (by omega),
    if_neg (by simp only [List.length_append]; omega)]

theorem checkType_adopt_eq_none_iff (frame : Frame) (this : Header) (src : Slice) :
    (this.adopt src frame.first).checkType this.type = none ↔
      frame.mtype.valid = true ∧ this.type = frame.mtype ∧
        flagsAccepted frame.first = true :=
  (this.adopt src frame.first).checkType_eq_none_iff

theorem cells_eq (frame : Frame) (more spare : Bytes) :
    (Slice.mk (frame.bytes ++ more) spare).cells =
      frame.first :: (frame.digits ++ frame.body ++ more ++ spare) := by
  simp [bytes]

/-- On a frame `header.decode` rejects the type byte, or else it reads the
remaining length and stops at the body. -/
theorem decode_header_of_accepted (frame : Frame) {this : Header}
    (hvalid : frame.mtype.valid = true) (htype : this.type = frame.mtype)
    (hflags : flagsAccepted frame.first = true) (more spare : Bytes) :
    this.decode ⟨frame.bytes ++ more, spare⟩ =
      .done
        (this.received ⟨frame.bytes ++ more, spare⟩ frame.first frame.body.length)
        frame.headerLength := by
  have haccepted := (frame.checkType_adopt_eq_none_iff this
    ⟨frame.bytes ++ more, spare⟩).mpr ⟨hvalid, htype, hflags⟩
  rw [Header.decode, frame.cells_eq]
  simp only [haccepted, frame.decodeRemlen_eq]
  rfl

theorem decode_header_of_rejected (frame : Frame) {this : Header}
    (hflags : flagsAccepted frame.first = false) (more spare : Bytes) :
    ∃ err, this.decode ⟨frame.bytes ++ more, spare⟩ =
      .fail (this.adopt ⟨frame.bytes ++ more, spare⟩ frame.first) 0 err := by
  have hrejected := mt (frame.checkType_adopt_eq_none_iff this
    ⟨frame.bytes ++ more, spare⟩).mp (by simp [hflags])
  obtain ⟨err, herr⟩ := Option.ne_none_iff_exists'.mp hrejected
  refine ⟨err, ?_⟩
  rw [Header.decode, frame.cells_eq]
  simp only [herr]

theorem terminated_remlen (header : Header) (hbound : header.remlen ≤ maxRemainingLength) :
    Terminated (uvarintBytes header.remlen.toNat) := by
  simp only [maxRemainingLength] at hbound
  exact terminated_uvarintBytes (by omega)

theorem length_remlen_le (header : Header) (hbound : header.remlen ≤ maxRemainingLength) :
    (uvarintBytes header.remlen.toNat).length ≤ 4 := by
  simp only [maxRemainingLength] at hbound
  rw [length_uvarintBytes (by omega)]
  split_ifs <;> omega

theorem uvarintValue_remlen (header : Header) (body : Bytes)
    (hremlen : header.remlen = body.length) (hbound : header.remlen ≤ maxRemainingLength) :
    uvarintValue (uvarintBytes header.remlen.toNat) = body.length := by
  simp only [maxRemainingLength] at hbound
  rw [uvarintValue_uvarintBytes (by omega), hremlen]
  rfl

/-- The frame of an encoded header in front of a body of its remaining
length. -/
def ofHeader (header : Header) (body : Bytes) (hremlen : header.remlen = body.length)
    (hbound : header.remlen ≤ maxRemainingLength) : Frame where
  first := header.mtypeflags
  digits := uvarintBytes header.remlen.toNat
  body := body
  terminated := terminated_remlen header hbound
  short := length_remlen_le header hbound
  value_eq := uvarintValue_remlen header body hremlen hbound

theorem bytes_ofHeader {header : Header} {body : Bytes}
    (hremlen : header.remlen = body.length)
    (hbound : header.remlen ≤ maxRemainingLength) :
    (ofHeader header body hremlen hbound).bytes = header.wire ++ body := rfl

theorem headerLength_ofHeader {header : Header} {body : Bytes}
    (hremlen : header.remlen = body.length)
    (hbound : header.remlen ≤ maxRemainingLength) :
    (ofHeader header body hremlen hbound).headerLength = header.msglen := by
  rw [← Header.length_wire (by omega) hbound, Header.wire, List.length_cons, add_comm]
  rfl

end Frame

section Wire

variable {header fresh : Header} {body : Bytes} (hremlen : header.remlen = body.length)
variable (hbound : header.remlen ≤ maxRemainingLength) (more spare : Bytes)

include hremlen hbound

/-- The cursor behind an encoded header. -/
theorem Header.tail_wire :
    (Slice.mk (header.wire ++ body ++ more) spare).tail header.msglen =
      some ⟨body ++ more, spare⟩ := by
  rw [← Frame.headerLength_ofHeader hremlen hbound, ← Frame.bytes_ofHeader hremlen hbound]
  exact (Frame.ofHeader header body hremlen hbound).tail_headerLength more spare

/-- A fresh message of the same type reads an encoded header back. -/
theorem Header.decode_wire (htype : fresh.type = header.type)
    (hvalid : header.type.valid = true) (hflags : flagsAccepted header.mtypeflags = true) :
    fresh.decode ⟨header.wire ++ body ++ more, spare⟩ =
      .done
        (fresh.received ⟨header.wire ++ body ++ more, spare⟩ header.mtypeflags body.length)
        header.msglen := by
  rw [← Frame.headerLength_ofHeader hremlen hbound, ← Frame.bytes_ofHeader hremlen hbound]
  exact (Frame.ofHeader header body hremlen hbound).decode_header_of_accepted
    hvalid htype hflags more spare

end Wire

/-! ## Short frames -/

theorem toNat_ofNat_length_take (body : Bytes) :
    (UInt8.ofNat (body.take 127).length).toNat = (body.take 127).length := by
  rw [UInt8.toNat_ofNat', List.length_take]
  omega

theorem terminated_brief (body : Bytes) : Terminated [.ofNat (body.take 127).length] := by
  change UInt8.ofNat (body.take 127).length < 0x80
  rw [UInt8.lt_iff_toNat_lt, toNat_ofNat_length_take, List.length_take]
  exact Nat.lt_succ_of_le (min_le_left _ _)

theorem uvarintValue_brief (body : Bytes) :
    uvarintValue [.ofNat (body.take 127).length] = (body.take 127).length := by
  rw [uvarintValue, toNat_ofNat_length_take, uvarintValue, List.length_take]
  omega

/-- The frame of a body that is shorter than 128 bytes; a longer one is cut off. -/
def Frame.brief (first : Byte) (body : Bytes) : Frame where
  first := first
  digits := [.ofNat (body.take 127).length]
  body := body.take 127
  terminated := terminated_brief body
  short := Nat.succ_le_succ (Nat.zero_le 3)
  value_eq := uvarintValue_brief body

end Xmqtt.Message
