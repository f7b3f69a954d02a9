import Xmqtt.Message.Frame

/-!
# The remaining length that `header.decode` accepts

Every body decoder trusts the remaining length of the fixed header.  `header.decode`
reads it with `binary.Uvarint`, narrows it to 32 bits and compares the result with the
maximum and with the bytes that are left.  It looks neither at the number of bytes read,
which is zero if the bytes end inside the varint, nor at the sign of the narrowed value.
-/

namespace Xmqtt.Message

open Xmqtt.Go

namespace Header

/-- The header has read a varint of at most four bytes behind the first byte, within the
bounds of the format and of the buffer. -/
structure LengthRead (this : Header) (total : ℕ) (src : Slice) (digits rest : Bytes) : Prop where
  split : src.bytes.tail = digits ++ rest
  terminated : Terminated digits
  short : digits.length ≤ 4
  remlen_eq : this.remlen = uvarintValue digits
  remlen_nonneg : 0 ≤ this.remlen
  remlen_le : this.remlen ≤ maxRemainingLength
  total_eq : total = 1 + digits.length
  within : total + this.remlen ≤ src.bytes.length

/-- Whatever header is returned has a length that was read in this way. -/
def BoundsLength (this : Header) (src : Slice) : Prop :=
  ∀ result total, this.decode src = .done result total →
    ∃ digits rest, result.LengthRead total src digits rest

/-- The checks on the first byte pass. -/
structure TypeAccepted (this : Header) (first : Byte) : Prop where
  valid : this.type.valid = true
  type_eq : MessageType.ofNibble (first >>> 4) = this.type
  flags : flagsAccepted first = true

/-- The bytes behind the first one end inside a varint; or they start with one of five to ten
bytes whose low 32 bits are negative, or small enough. -/
def LengthMisread (body : Bytes) : Prop :=
  ((∀ byte ∈ body, ¬ byte < 0x80) ∧ body.length ≤ 10) ∨
    ∃ digits rest, body = digits ++ rest ∧ Terminated digits ∧
      5 ≤ digits.length ∧ digits.length ≤ 10 ∧ uvarintValue digits < 2 ^ 64 ∧
      (uvarintValue digits % 2 ^ 32 < 2 ^ 31 →
        uvarintValue digits % 2 ^ 32 ≤ 268435455 ∧
          uvarintValue digits % 2 ^ 32 ≤ rest.length)

variable {this : Header} {first : Byte} {body spare : Bytes}

theorem checkType_adopt_iff (src : Slice) :
    (this.adopt src first).checkType this.type = none ↔ this.TypeAccepted first := by
  rw [checkType_eq_none_iff]
  constructor
  · rintro ⟨hvalid, htype, hflags⟩
    exact ⟨htype ▸ hvalid, htype.symm, hflags⟩
  · intro haccepted
    have htype : (this.adopt src first).type = this.type := haccepted.type_eq
    exact ⟨htype ▸ haccepted.valid, htype.symm, haccepted.flags⟩

theorem decode_of_typeAccepted (haccepted : this.TypeAccepted first) :
    this.decode ⟨first :: body, spare⟩ =
      (this.adopt ⟨first :: body, spare⟩ first).decodeRemlen ⟨first :: body, spare⟩ := by
  have hcheck := (checkType_adopt_iff ⟨first :: body, spare⟩).mpr haccepted
  rw [decode]
  simp only [Slice.cells, List.cons_append, hcheck]

theorem typeAccepted_of_decode {result : Header} {total : ℕ}
    (hdone : this.decode ⟨first :: body, spare⟩ = .done result total) :
    this.TypeAccepted first := by
  apply (checkType_adopt_iff ⟨first :: body, spare⟩).mp
  rw [decode] at hdone
  simp only [Slice.cells, List.cons_append] at hdone
  cases hcheck : (this.adopt ⟨first :: body, spare⟩ first).checkType this.type with
  | none => rfl
  | some err =>
      rw [hcheck] at hdone
      cases hdone

/-- The result once `binary.Uvarint` has returned a count that is not negative. -/
theorem decodeRemlen_eq_done_iff {value count : ℕ} (hvarint : uvarint body = (value, (count : ℤ)))
    (hcount : count ≤ body.length) {result : Header} {total : ℕ} :
    this.decodeRemlen ⟨first :: body, spare⟩ = .done result total ↔
      (int32 value ≤ maxRemainingLength ∧ int32 value ≤ (body.length - count : ℕ)) ∧
        result = { this with remlen := int32 value } ∧ total = 1 + count := by
  have hone : (Slice.mk (first :: body) spare).tail 1 = some ⟨body, spare⟩ :=
    Slice.tail_append [first] body spare
  have htotal : ((1 : ℤ) + count).toNat = 1 + count := by omega
  have hrest : (Slice.mk (first :: body) spare).tail (1 + count) =
      some ⟨body.drop count, spare⟩ := by
    rw [Slice.tail_of_le (by rw [List.length_cons]; omega), add_comm 1, List.drop_succ_cons]
  rw [decodeRemlen, hone]
  simp only [hvarint, htotal, hrest, List.length_drop]
  by_cases hmax : int32 value > maxRemainingLength
  · rw [if_pos hmax]
    simp only [reduceCtorEq, false_iff]
    rintro ⟨⟨hle, -⟩, -⟩
    exact absurd hle (not_le.mpr hmax)
  · rw [if_neg hmax, if_neg (by omega)]
    by_cases hleft : int32 value > ((body.length - count : ℕ) : ℤ)
    · rw [if_pos hleft]
      simp only [reduceCtorEq, false_iff]
      rintro ⟨⟨-, hle⟩, -⟩
      exact absurd hle (not_le.mpr hleft)
    · rw [if_neg hleft]
      simp only [Outcome.done.injEq]
      constructor
      · rintro ⟨rfl, rfl⟩
        exact ⟨⟨not_lt.mp hmax, not_lt.mp hleft⟩, rfl, rfl⟩
      · rintro ⟨-, rfl, rfl⟩
        exact ⟨rfl, rfl⟩

/-- On overflow the slice behind the varint would start in front of the buffer. -/
theorem decodeRemlen_of_overflow (hover : (uvarint body).2 < -1) {result : Header} {total : ℕ} :
    this.decodeRemlen ⟨first :: body, spare⟩ ≠ .done result total := by
  have hone : (Slice.mk (first :: body) spare).tail 1 = some ⟨body, spare⟩ :=
    Slice.tail_append [first] body spare
  rw [decodeRemlen, hone]
  simp only
  split_ifs
  · simp
  · simp
  · omega

/-- A varint of at most four bytes is read as what it is. -/
theorem lengthRead_of_short {digits rest : Bytes} (hterm : Terminated digits)
    (hshort : digits.length ≤ 4) {result : Header} {total : ℕ}
    (hdone : this.decodeRemlen ⟨first :: (digits ++ rest), spare⟩ = .done result total) :
    result.LengthRead total ⟨first :: (digits ++ rest), spare⟩ digits rest := by
  have hvarint := uvarint_terminated hterm (by rw [maxVarintLen64]; omega) rest
  have hlt : uvarintValue digits < 128 ^ 4 :=
    (uvarintValue_lt digits).trans_le (Nat.pow_le_pow_right (by norm_num) hshort)
  have hvalue : int32 (uvarintValue digits) = uvarintValue digits :=
    int32_of_lt (hlt.trans (by norm_num))
  obtain ⟨⟨hmax, hleft⟩, rfl, rfl⟩ :=
    (decodeRemlen_eq_done_iff hvarint (by rw [List.length_append]; omega)).mp hdone
  rw [hvalue] at hmax hleft
  rw [List.length_append, Nat.add_sub_cancel_left] at hleft
  refine ⟨rfl, hterm, hshort, hvalue, ?_, ?_, rfl, ?_⟩
  · exact hvalue.symm ▸ Int.natCast_nonneg _
  · exact hvalue.symm ▸ hmax
  · simp only [hvalue, List.length_cons, List.length_append]
    push_cast
    omega

/-- A buffer whose length is misread is accepted. -/
theorem exists_done_of_misread (hmisread : LengthMisread body) :
    ∃ result total, this.decodeRemlen ⟨first :: body, spare⟩ = .done result total := by
  rcases hmisread with ⟨hbytes, hfew⟩ | ⟨digits, rest, rfl, hterm, -, hfew, hvalue, hlow⟩
  · have hvarint : uvarint body = (0, ((0 : ℕ) : ℤ)) := uvarint_unterminated hbytes hfew
    have hzero : int32 0 = 0 := int32_of_lt (by norm_num)
    refine ⟨_, _, (decodeRemlen_eq_done_iff hvarint (Nat.zero_le _)).mpr ⟨⟨?_, ?_⟩, rfl, rfl⟩⟩
    · rw [hzero]
      decide
    · rw [hzero]
      exact Int.natCast_nonneg _
  · have hvarint := uvarint_of_value_lt hterm hfew hvalue rest
    refine ⟨_, _, (decodeRemlen_eq_done_iff hvarint ?_).mpr ⟨⟨?_, ?_⟩, rfl, rfl⟩⟩
    · rw [List.length_append]
      exact Nat.le_add_right _ _
    · exact int32_le_iff.mpr fun hsmall => (hlow hsmall).1
    · rw [List.length_append, Nat.add_sub_cancel_left]
      exact int32_le_iff.mpr fun hsmall => (hlow hsmall).2

/-- No varint of at most four bytes stands where the length is misread. -/
theorem not_short_of_misread (hmisread : LengthMisread body) {digits rest : Bytes}
    (hbody : body = digits ++ rest) (hterm : Terminated digits) : ¬ digits.length ≤ 4 := by
  rcases hmisread with ⟨hbytes, -⟩ | ⟨long, after, hlong, hlongTerm, hfive, -⟩
  · obtain ⟨byte, hmem, hlast⟩ := hterm.exists_last
    exact absurd hlast (hbytes byte (hbody ▸ List.mem_append_left rest hmem))
  · rw [hterm.unique hlongTerm (hbody.symm.trans hlong)]
    omega

theorem not_boundsLength (haccepted : this.TypeAccepted first) (hmisread : LengthMisread body) :
    ¬ this.BoundsLength ⟨first :: body, spare⟩ := by
  intro hbounds
  obtain ⟨result, total, hdone⟩ : ∃ result total,
      (this.adopt ⟨first :: body, spare⟩ first).decodeRemlen ⟨first :: body, spare⟩ =
        .done result total := exists_done_of_misread hmisread
  rw [← decode_of_typeAccepted haccepted] at hdone
  obtain ⟨digits, rest, hread⟩ := hbounds result total hdone
  exact not_short_of_misread hmisread hread.split hread.terminated hread.short

/-- The length is bounded exactly if the first byte is refused or the length is not
misread. -/
theorem boundsLength_iff (this : Header) (first : Byte) (body spare : Bytes) :
    this.BoundsLength ⟨first :: body, spare⟩ ↔
      ¬ (this.TypeAccepted first ∧ LengthMisread body) := by
  constructor
  · rintro hbounds ⟨haccepted, hmisread⟩
    exact not_boundsLength haccepted hmisread hbounds
  · intro hcondition result total hdone
    have haccepted := typeAccepted_of_decode hdone
    have hfine : ¬ LengthMisread body := fun hmisread => hcondition ⟨haccepted, hmisread⟩
    rw [decode_of_typeAccepted haccepted] at hdone
    rcases uvarint_cases body with hopen | ⟨digits, rest, rfl, hterm, hfew, hvalue⟩ | hover
    · exact absurd (Or.inl hopen) hfine
    · by_cases hshort : digits.length ≤ 4
      · exact ⟨digits, rest, lengthRead_of_short hterm hshort hdone⟩
      · have hvarint := uvarint_of_value_lt hterm hfew hvalue rest
        obtain ⟨⟨hmax, hleft⟩, -⟩ :=
          (decodeRemlen_eq_done_iff hvarint (by rw [List.length_append]; omega)).mp hdone
        rw [List.length_append, Nat.add_sub_cancel_left] at hleft
        refine absurd (Or.inr ⟨digits, rest, rfl, hterm, by omega, hfew, hvalue, ?_⟩) hfine
        exact fun hsmall => ⟨int32_le_iff.mp hmax hsmall, int32_le_iff.mp hleft hsmall⟩
    · exact absurd hdone (decodeRemlen_of_overflow hover)

/-- A CONNECT that ends behind its first byte is accepted. -/
theorem firstByteAlone_unbounded :
    ¬ (newHeader .connect).BoundsLength ⟨[0x10], []⟩ := by
  have haccepted : (newHeader .connect).TypeAccepted 0x10 := ⟨by decide, by decide, by decide⟩
  exact not_boundsLength haccepted (Or.inl ⟨by simp, by simp⟩)

end Header

end Xmqtt.Message
