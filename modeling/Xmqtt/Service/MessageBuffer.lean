import Xmqtt.Service.Framing

/-!
# The two frame readers

The CONNECT packet is read with `getMessageBuffer` of `misc.go`, all later
packets with `getPeekMessageSize`.  Both look for the end of the remaining
length; the first counts the bytes it has read, the second the bytes it peeks.
-/

namespace Xmqtt.Service

open Xmqtt.Go Xmqtt.Message

/-- The first loop of `getMessageBuffer`, with `l` bytes already in `buf`: the fixed
header and what is left of the stream. -/
def readHeader (l : ℕ) (buf : Bytes) : Bytes → Except ReadErr (Bytes × Bytes)
  | [] =>
      if l > 5 then
        .error (.err (.errorf
          "connect/getMessage: 4th byte of remaining length has continuation bit set" []))
      else .error .eof
  | b :: stream =>
      if l > 5 then
        .error (.err (.errorf
          "connect/getMessage: 4th byte of remaining length has continuation bit set" []))
      else if l + 1 > 1 ∧ b < 0x80 then .ok (buf ++ [b], stream)
      else readHeader (l + 1) (buf ++ [b]) stream

/-- The length of the buffer that `getMessageBuffer` chooses behind a fixed header. -/
def bufferLength (header : Bytes) : ℕ := header.length + (uvarint header.tail).1

/-- The buffer and what is left of the stream. -/
def getMessageBuffer (stream : Bytes) : Except ReadErr (Bytes × Bytes) :=
  match readHeader 0 [] stream with
  | .error err => .error err
  | .ok (header, rest) =>
      if bufferLength header ≤ header.length + rest.length then
        .ok (header ++ rest.take (bufferLength header - header.length),
          rest.drop (bufferLength header - header.length))
      else .error .eof

/-! ## What the readers accept -/

/-- The stream starts with a type byte and a remaining length of at most `limit`
bytes; `header` are these bytes and `rest` is what follows them. -/
def FixedHeader (limit : ℕ) (stream header rest : Bytes) : Prop :=
  ∃ first digits, Terminated digits ∧ digits.length ≤ limit ∧
    header = first :: digits ∧ stream = first :: (digits ++ rest)

theorem FixedHeader.mono {low high : ℕ} (hle : low ≤ high) {stream header rest : Bytes}
    (hheader : FixedHeader low stream header rest) :
    FixedHeader high stream header rest := by
  obtain ⟨first, digits, hterm, hlength, hheader, hstream⟩ := hheader
  exact ⟨first, digits, hterm, hlength.trans hle, hheader, hstream⟩

theorem FixedHeader.length_le {limit : ℕ} {stream header rest : Bytes}
    (hheader : FixedHeader limit stream header rest) : header.length ≤ limit + 1 := by
  obtain ⟨first, digits, _, hlength, rfl, _⟩ := hheader
  exact Nat.succ_le_succ hlength

/-- A stream has at most one fixed header. -/
theorem FixedHeader.unique {limit limit' : ℕ} {stream header header' rest rest' : Bytes}
    (hheader : FixedHeader limit stream header rest)
    (hheader' : FixedHeader limit' stream header' rest') : header = header' := by
  obtain ⟨first, digits, hterm, _, rfl, rfl⟩ := hheader
  obtain ⟨first', digits', hterm', _, rfl, hstream⟩ := hheader'
  injection hstream with hfirst hdigits
  rw [hfirst, hterm.unique hterm' hdigits]

theorem readHeader_of_terminated {digits : Bytes} (hterm : Terminated digits) {l : ℕ}
    (hone : 1 ≤ l) (hl : l + digits.length ≤ 6) (buf rest : Bytes) :
    readHeader l buf (digits ++ rest) = .ok (buf ++ digits, rest) := by
  induction digits generalizing l buf with
  | nil => exact hterm.elim
  | cons b digits ih =>
      rw [List.length_cons] at hl
      rw [List.cons_append, readHeader, if_neg (by omega)]
      cases digits with
      | nil =>
          have hlast : b < 0x80 := hterm
          rw [if_pos ⟨by omega, hlast⟩]
          rfl
      | cons next digits =>
          rw [if_neg fun hstop => hterm.1 hstop.2, ih hterm.2 (by omega) (by omega)]
          simp

theorem terminated_of_readHeader {l : ℕ} {buf stream header rest : Bytes} (hone : 1 ≤ l)
    (hread : readHeader l buf stream = .ok (header, rest)) :
    ∃ digits, Terminated digits ∧ l + digits.length ≤ 6 ∧ header = buf ++ digits ∧
      stream = digits ++ rest := by
  induction stream generalizing l buf with
  | nil =>
      rw [readHeader] at hread
      split at hread <;> simp at hread
  | cons b stream ih =>
      rw [readHeader] at hread
      split_ifs at hread with hlong hstop
      · injection hread with hpair
        injection hpair with hheader hrest
        exact ⟨[b], hstop.2, by simp only [List.length_singleton]; omega, hheader.symm,
          by rw [← hrest]; rfl⟩
      · obtain ⟨digits, hterm, hlength, rfl, rfl⟩ := ih (Nat.le_add_left 1 l) hread
        have hcontinue : ¬ b < 0x80 := fun hlast => hstop ⟨by omega, hlast⟩
        exact ⟨b :: digits, hterm.cons hcontinue, by rw [List.length_cons]; omega,
          by simp, rfl⟩

theorem readHeader_eq_ok_iff {stream header rest : Bytes} :
    readHeader 0 [] stream = .ok (header, rest) ↔ FixedHeader 5 stream header rest := by
  constructor
  · intro hread
    cases stream with
    | nil => simp [readHeader] at hread
    | cons first stream =>
        rw [readHeader, if_neg (by omega), if_neg (by omega)] at hread
        obtain ⟨digits, hterm, hlength, rfl, rfl⟩ := terminated_of_readHeader le_rfl hread
        exact ⟨first, digits, hterm, by omega, rfl, rfl⟩
  · rintro ⟨first, digits, hterm, hlength, rfl, rfl⟩
    rw [readHeader, if_neg (by omega), if_neg (by omega)]
    exact readHeader_of_terminated hterm le_rfl (by omega) [first] rest

theorem terminated_of_peekHeader {left : ℕ} {out stream header : Bytes}
    (hpeek : peekHeader (out ++ stream) left (out.length + 1) = .ok header) :
    ∃ digits rest, Terminated digits ∧ digits.length ≤ left ∧ header = out ++ digits ∧
      stream = digits ++ rest := by
  induction left generalizing out stream with
  | zero => simp [peekHeader] at hpeek
  | succ left ih =>
      cases stream with
      | nil => simp [peekHeader, peek] at hpeek
      | cons b stream =>
          have hsee : peek (out ++ b :: stream) (out.length + 1) = .ok (out ++ [b]) := by
            rw [peek, if_pos (by simp)]
            simp [List.take_append]
          rw [peekHeader, hsee] at hpeek
          simp only [Nat.add_sub_cancel, List.getD_append_right _ _ _ _ le_rfl,
            Nat.sub_self, List.getD_cons_zero] at hpeek
          split_ifs at hpeek with hlast
          · injection hpeek with hheader
            exact ⟨[b], stream, hlast, by simp, hheader.symm, rfl⟩
          · have hnext : peekHeader ((out ++ [b]) ++ stream) left
                ((out ++ [b]).length + 1) = .ok header := by
              rw [List.append_assoc, List.length_append]
              exact hpeek
            obtain ⟨digits, rest, hterm, hlength, rfl, rfl⟩ := ih hnext
            exact ⟨b :: digits, rest, hterm.cons hlast, Nat.succ_le_succ hlength,
              by simp, rfl⟩

theorem peekHeader_eq_ok_iff {stream header : Bytes} :
    peekHeader stream 4 2 = .ok header ↔ ∃ rest, FixedHeader 4 stream header rest := by
  constructor
  · intro hpeek
    cases stream with
    | nil => simp [peekHeader, peek] at hpeek
    | cons first stream =>
        have hbehind : peekHeader ([first] ++ stream) 4 ([first].length + 1) = .ok header :=
          hpeek
        obtain ⟨digits, rest, hterm, hlength, rfl, rfl⟩ := terminated_of_peekHeader hbehind
        exact ⟨rest, first, digits, hterm, hlength, rfl, rfl⟩
  · rintro ⟨rest, first, digits, hterm, hlength, rfl, rfl⟩
    exact peekHeader_of_terminated hterm hlength [first] rest

/-! ## Where the readers agree -/

/-- What the two readers make of the fixed header of a stream. -/
structure ReadersAgree (stream : Bytes) : Prop where
  accepts : (∃ header rest, readHeader 0 [] stream = .ok (header, rest)) ↔
    ∃ mtype total, getPeekMessageSize stream = .ok (mtype, total)
  readShort : ∀ header rest,
    readHeader 0 [] stream = .ok (header, rest) → header.length ≤ 1 + 4
  peekShort : ∀ header, peekHeader stream 4 2 = .ok header → header.length ≤ 1 + 4
  total : ∀ header rest mtype total, readHeader 0 [] stream = .ok (header, rest) →
    getPeekMessageSize stream = .ok (mtype, total) →
      (bufferLength header : ℤ) = total ∧ bufferLength header ≤ 5 + 268435455
  buffer : ∀ buf rest mtype total, getMessageBuffer stream = .ok (buf, rest) →
    getPeekMessageSize stream = .ok (mtype, total) → (buf.length : ℤ) = total

/-- Four continued length bytes stand behind the type byte, and a fifth one ends the
remaining length. -/
def FiveLengthBytes (stream : Bytes) : Prop :=
  ∃ first digits rest, stream = first :: (digits ++ rest) ∧ Terminated digits ∧
    digits.length = 5

/-- A header of five length bytes is the only one that exceeds four of them. -/
theorem FixedHeader.four_of_not_five {stream header rest : Bytes}
    (hheader : FixedHeader 5 stream header rest) (hfive : ¬ FiveLengthBytes stream) :
    FixedHeader 4 stream header rest := by
  obtain ⟨first, digits, hterm, hlength, hheader, hstream⟩ := hheader
  have hne : digits.length ≠ 5 := fun heq =>
    hfive ⟨first, digits, rest, hstream, hterm, heq⟩
  exact ⟨first, digits, hterm, by omega, hheader, hstream⟩

/-- Both lengths are the length of the fixed header and the number it announces. -/
theorem bufferLength_fixedHeader {stream header rest : Bytes}
    (hheader : FixedHeader 4 stream header rest) :
    (bufferLength header : ℤ) = (uvarint header.tail).1 + 1 + (uvarint header.tail).2 ∧
      bufferLength header ≤ 5 + 268435455 := by
  obtain ⟨first, digits, hterm, hlength, rfl, _⟩ := hheader
  have hvarint := uvarint_terminated hterm (by simp only [maxVarintLen64]; omega) []
  have hpow : 128 ^ digits.length ≤ 128 ^ 4 := Nat.pow_le_pow_right (by norm_num) hlength
  have hvalue := uvarintValue_lt digits
  rw [List.append_nil] at hvarint
  rw [bufferLength, List.tail_cons, hvarint, List.length_cons]
  constructor
  · push_cast
    ring
  · omega

theorem getPeekMessageSize_eq_ok_iff {stream : Bytes} {mtype : MessageType} {total : ℤ} :
    getPeekMessageSize stream = .ok (mtype, total) ↔
      ∃ header, peekHeader stream 4 2 = .ok header ∧
        mtype = .ofNibble (header.headD 0 >>> 4) ∧
        total = (uvarint header.tail).1 + 1 + (uvarint header.tail).2 := by
  rw [getPeekMessageSize]
  cases peekHeader stream 4 2 with
  | error err => simp
  | ok header => simp [eq_comm]

/-- The buffer is the header and as many further bytes as it announces. -/
theorem length_of_getMessageBuffer {stream buf rest : Bytes}
    (hbuffer : getMessageBuffer stream = .ok (buf, rest)) :
    ∃ header more, readHeader 0 [] stream = .ok (header, more) ∧
      buf.length = bufferLength header := by
  rw [getMessageBuffer] at hbuffer
  cases hread : readHeader 0 [] stream with
  | error err => simp [hread] at hbuffer
  | ok found =>
      obtain ⟨header, more⟩ := found
      simp only [hread] at hbuffer
      split_ifs at hbuffer with hlength
      injection hbuffer with hpair
      injection hpair with hbuf _
      refine ⟨header, more, rfl, ?_⟩
      have hheader : header.length ≤ bufferLength header := Nat.le_add_right _ _
      rw [← hbuf, List.length_append, List.length_take]
      omega

theorem ReadersAgree.of_not_fiveLengthBytes {stream : Bytes}
    (hfive : ¬ FiveLengthBytes stream) : ReadersAgree stream := by
  have hfour : ∀ {header rest}, readHeader 0 [] stream = .ok (header, rest) →
      FixedHeader 4 stream header rest := fun hread =>
    (readHeader_eq_ok_iff.mp hread).four_of_not_five hfive
  have htotal : ∀ header rest mtype total, readHeader 0 [] stream = .ok (header, rest) →
      getPeekMessageSize stream = .ok (mtype, total) →
        (bufferLength header : ℤ) = total ∧ bufferLength header ≤ 5 + 268435455 := by
    intro header rest mtype total hread hsize
    obtain ⟨peeked, hpeek, _, rfl⟩ := getPeekMessageSize_eq_ok_iff.mp hsize
    obtain ⟨more, hpeeked⟩ := peekHeader_eq_ok_iff.mp hpeek
    rw [← (hfour hread).unique hpeeked]
    exact bufferLength_fixedHeader (hfour hread)
  constructor
  case accepts =>
    constructor
    · rintro ⟨header, rest, hread⟩
      have hpeek := peekHeader_eq_ok_iff.mpr ⟨rest, hfour hread⟩
      exact ⟨_, _, getPeekMessageSize_eq_ok_iff.mpr ⟨header, hpeek, rfl, rfl⟩⟩
    · rintro ⟨mtype, total, hsize⟩
      obtain ⟨header, hpeek, _, _⟩ := getPeekMessageSize_eq_ok_iff.mp hsize
      obtain ⟨rest, hheader⟩ := peekHeader_eq_ok_iff.mp hpeek
      exact ⟨header, rest, readHeader_eq_ok_iff.mpr (hheader.mono (Nat.le_succ 4))⟩
  case readShort =>
    intro header rest hread
    exact (hfour hread).length_le
  case peekShort =>
    intro header hpeek
    obtain ⟨rest, hheader⟩ := peekHeader_eq_ok_iff.mp hpeek
    exact hheader.length_le
  case total => exact htotal
  case buffer =>
    intro buf rest mtype total hbuffer hsize
    obtain ⟨header, more, hread, hlength⟩ := length_of_getMessageBuffer hbuffer
    rw [hlength]
    exact (htotal header more mtype total hread hsize).1

/-- The readers agree on exactly the streams that do not carry a fifth length byte:
`getMessageBuffer` stops one byte later than `getPeekMessageSize`. -/
theorem readersAgree_iff (stream : Bytes) :
    ReadersAgree stream ↔ ¬ FiveLengthBytes stream := by
  constructor
  · rintro hagree ⟨first, digits, rest, rfl, hterm, hlength⟩
    have hheader : FixedHeader 5 (first :: (digits ++ rest)) (first :: digits) rest :=
      ⟨first, digits, hterm, hlength.le, rfl, rfl⟩
    have hshort := hagree.readShort _ _ (readHeader_eq_ok_iff.mpr hheader)
    rw [List.length_cons] at hshort
    omega
  · exact ReadersAgree.of_not_fiveLengthBytes

/-- Behind the type byte of CONNECT stand four continued bytes and a one:
`getMessageBuffer` makes room for 2 ^ 28 bytes, `getPeekMessageSize` refuses. -/
theorem readers_part_at_five_bytes :
    readHeader 0 [] [0x10, 0x80, 0x80, 0x80, 0x80, 0x01] =
        .ok ([0x10, 0x80, 0x80, 0x80, 0x80, 0x01], []) ∧
      bufferLength [0x10, 0x80, 0x80, 0x80, 0x80, 0x01] = 6 + 268435456 ∧
      getPeekMessageSize [0x10, 0x80, 0x80, 0x80, 0x80, 0x01] =
        .error (.err (.errorf
          "readwrite/getPeekMessageSize: 4th byte of remaining length has continuation bit set"
          [])) ∧
      ¬ ReadersAgree [0x10, 0x80, 0x80, 0x80, 0x80, 0x01] := by
  refine ⟨by decide +kernel, by decide +kernel, by decide +kernel, ?_⟩
  intro hagree
  have hshort := hagree.readShort [0x10, 0x80, 0x80, 0x80, 0x80, 0x01] []
    (by decide +kernel)
  exact absurd hshort (by decide)

end Xmqtt.Service
