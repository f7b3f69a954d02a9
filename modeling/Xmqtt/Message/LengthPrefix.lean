import Xmqtt.Message.Fields

/-!
# Length-prefixed fields in any buffer

What `writeLPBytes` has written `readLPBytes` reads back, whatever comes behind it.  On other
buffers `readLPBytes` compares the announced length with the length of the whole buffer, the
two bytes of the prefix included.  So there are buffers between those that it reads and those
that it refuses: their field ends one or two bytes behind them.
-/

namespace Xmqtt.Message

open Xmqtt.Go

/-- The big-endian value of the first two bytes. -/
def announced : Bytes → Option ℕ
  | high :: low :: _ => some (bigEndianUint16 high low)
  | _ => none

/-- The length `n` is announced, and there are as many bytes behind the prefix. -/
def HoldsField (bytes : Bytes) (n : ℕ) : Prop := announced bytes = some n ∧ 2 + n ≤ bytes.length

/-- `readLPBytes(buf)` succeeds exactly if the field is there, with `buf[2:2+n]`, and returns
an error otherwise. -/
structure ReadsExactly (buf : Slice) : Prop where
  succeeds_iff : (∃ field count, readLPBytes buf = .done field count) ↔
    ∃ n, HoldsField buf.bytes n
  field : ∀ n, HoldsField buf.bytes n →
    readLPBytes buf = .done ((buf.bytes.take (2 + n)).drop 2) (2 + n)
  refused : (¬ ∃ n, HoldsField buf.bytes n) → ∃ count err, readLPBytes buf = .fail [] count err

section Reading

variable {buf : Slice} {n : ℕ}

/-- A field that is there is read without a look at the spare bytes. -/
theorem readLPBytes_of_holdsField (hfield : HoldsField buf.bytes n) :
    readLPBytes buf = .done ((buf.bytes.take (2 + n)).drop 2) (2 + n) := by
  obtain ⟨bytes, spare⟩ := buf
  obtain ⟨hannounced, hlength⟩ := hfield
  match bytes with
  | [] | [_] => cases hannounced
  | high :: low :: rest =>
      cases hannounced
      simp only [List.length_cons] at hlength
      rw [readLPBytes_cons, if_neg (by omega), if_neg (by omega),
        List.take_append_of_le_length (by omega), add_comm 2, List.take_succ_cons,
        List.take_succ_cons]
      rfl

/-- A field that is not there is refused, unless it overruns the buffer by one or two
bytes. -/
theorem readLPBytes_of_not_holdsField (hfield : ¬ ∃ n, HoldsField buf.bytes n)
    (hover : ¬ LPOverrun buf.bytes) : ∃ count err, readLPBytes buf = .fail [] count err := by
  obtain ⟨bytes, spare⟩ := buf
  match bytes with
  | [] | [_] => exact ⟨_, _, rfl⟩
  | high :: low :: rest =>
      have hlength : ¬ 2 + bigEndianUint16 high low ≤ (high :: low :: rest).length :=
        fun hlength => hfield ⟨_, rfl, hlength⟩
      simp only [List.length_cons] at hlength
      simp only [LPOverrun] at hover
      rw [readLPBytes_cons, if_pos (by omega)]
      exact ⟨_, _, rfl⟩

theorem not_holdsField_of_overrun (hover : LPOverrun buf.bytes) (n : ℕ) :
    ¬ HoldsField buf.bytes n := by
  intro ⟨hannounced, hlength⟩
  obtain ⟨bytes, spare⟩ := buf
  match bytes with
  | [] | [_] => cases hannounced
  | high :: low :: rest =>
      cases hannounced
      simp only [LPOverrun] at hover
      simp only [List.length_cons] at hlength
      omega

/-- No error is returned on an overrun: with enough capacity the field is cut from the spare
bytes, otherwise the slice expression panics. -/
theorem readLPBytes_of_overrun (hover : LPOverrun buf.bytes) :
    readLPBytes buf = .panic ∨
      ∃ field count, readLPBytes buf = .done field count ∧ buf.bytes.length < count := by
  obtain ⟨bytes, spare⟩ := buf
  match bytes with
  | [] | [_] => exact hover.elim
  | high :: low :: rest =>
      simp only [LPOverrun] at hover
      rw [readLPBytes_cons, if_neg (by omega)]
      split_ifs
      · exact Or.inl rfl
      · refine Or.inr ⟨_, _, rfl, ?_⟩
        simp only [List.length_cons]
        omega

theorem readsExactly_of_not_overrun (hover : ¬ LPOverrun buf.bytes) : ReadsExactly buf where
  succeeds_iff := by
    constructor
    · intro ⟨field, count, hdone⟩
      by_contra hfield
      obtain ⟨count', err, hfail⟩ := readLPBytes_of_not_holdsField hfield hover
      rw [hfail] at hdone
      cases hdone
    · intro ⟨n, hfield⟩
      exact ⟨_, _, readLPBytes_of_holdsField hfield⟩
  field := fun _ hfield => readLPBytes_of_holdsField hfield
  refused := fun hfield => readLPBytes_of_not_holdsField hfield hover

end Reading

/-- Reading gives back what was written, and a buffer is read exactly up to its length unless
its field overruns it by one or two bytes. -/
theorem lengthPrefix_exact (field rest spare dst : Bytes) (buf : Slice) :
    (field.length ≤ 65535 → 2 + field.length ≤ dst.length →
      ∃ written, writeLPBytes dst field = .done written (2 + field.length) ∧
        readLPBytes ⟨written.take (2 + field.length) ++ rest, spare⟩ =
          .done field (2 + field.length)) ∧
      (ReadsExactly buf ↔ ¬ LPOverrun buf.bytes) := by
  constructor
  · intro hfield hdst
    have htake : (lpBytes field ++ dst.drop (2 + field.length)).take (2 + field.length) =
        lpBytes field := by
      rw [← length_lpBytes]
      exact List.take_left
    refine ⟨_, writeLPBytes_of_le hfield hdst, ?_⟩
    rw [htake]
    exact readLPBytes_lpBytes hfield rest spare
  · constructor
    · intro hexact hover
      have hnone : ¬ ∃ n, HoldsField buf.bytes n := fun ⟨n, hfield⟩ =>
        not_holdsField_of_overrun hover n hfield
      obtain ⟨count, err, hfail⟩ := hexact.refused hnone
      rcases readLPBytes_of_overrun hover with hpanic | ⟨field', count', hdone, -⟩
      · rw [hfail] at hpanic
        cases hpanic
      · rw [hfail] at hdone
        cases hdone
    · exact readsExactly_of_not_overrun

/-- One byte that is written in front of others, and a buffer that has half a prefix. -/
theorem lengthPrefix_exact_byte :
    (∃ written, writeLPBytes [9, 9, 9, 9] [0x61] = .done written 3 ∧
      readLPBytes ⟨written.take 3 ++ [0x62], []⟩ = .done [0x61] 3) ∧
      ReadsExactly (Slice.full [0x00]) := by
  have hexact := lengthPrefix_exact [0x61] [0x62] [] [9, 9, 9, 9] (Slice.full [0x00])
  exact ⟨hexact.1 (by decide) (by decide), hexact.2.mpr (by decide)⟩

/-- Two bytes that announce one more: the call panics, or returns a byte that is not in the
buffer. -/
theorem announced_byte_missing :
    readLPBytes (Slice.full [0x00, 0x01]) = .panic ∧
      readLPBytes ⟨[0x00, 0x01], [0x73]⟩ = .done [0x73] 3 ∧
      ¬ ReadsExactly (Slice.full [0x00, 0x01]) := by
  have hpanic : readLPBytes (Slice.full [0x00, 0x01]) = .panic := by decide +kernel
  refine ⟨hpanic, by decide +kernel, fun hexact => ?_⟩
  have hnone : ¬ ∃ n, HoldsField [0x00, 0x01] n := by
    intro ⟨n, hannounced, hlength⟩
    cases hannounced
    exact absurd hlength (by decide)
  obtain ⟨count, err, hfail⟩ := hexact.refused hnone
  rw [hpanic] at hfail
  cases hfail

end Xmqtt.Message
