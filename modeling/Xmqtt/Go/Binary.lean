import Xmqtt.Go.Slice

/-!
# The `encoding/binary` package

Base-128 varints and big-endian 16-bit words, as the Go standard library reads
and writes them.  A varint is terminated by its first byte below `0x80`; the
reader sees nothing behind that byte, so a terminated prefix decides its
result.
-/

namespace Xmqtt.Go

/-- `binary.MaxVarintLen64`. -/
def maxVarintLen64 : ℕ := 10

/-- The loop of `binary.Uvarint` at byte `index` with the value read so
far. -/
def uvarintFrom (index value : ℕ) : Bytes → ℕ × ℤ
  | [] => (0, 0)
  | byte :: rest =>
      if index = maxVarintLen64 then (0, -(index + 1))
      else if byte < 0x80 then
        if index = maxVarintLen64 - 1 ∧ 1 < byte then (0, -(index + 1))
        else (value + byte.toNat * 128 ^ index, index + 1)
      else uvarintFrom (index + 1) (value + byte.toNat % 128 * 128 ^ index) rest

/-- `binary.Uvarint`: the value and the number of bytes read, zero when the
bytes end inside the varint, negative when it does not fit 64 bits. -/
def uvarint (bytes : Bytes) : ℕ × ℤ := uvarintFrom 0 0 bytes

/-- The bytes `binary.PutUvarint` writes for a value below `128 ^ digits`. -/
def uvarintDigits : ℕ → ℕ → Bytes
  | 0, _ => []
  | digits + 1, value =>
      if value < 128 then [UInt8.ofNat value]
      else UInt8.ofNat (value % 128 + 128) :: uvarintDigits digits (value / 128)

/-- The varint of an unsigned 64-bit value. -/
def uvarintBytes (value : ℕ) : Bytes := uvarintDigits maxVarintLen64 value

/-- `binary.PutUvarint(buf, value)`; it indexes past a buffer that is too
short. -/
def putUvarint (buf : Bytes) (value : ℕ) : Option (Bytes × ℕ) :=
  let digits := uvarintBytes value
  if digits.length ≤ buf.length then
    some (digits ++ buf.drop digits.length, digits.length)
  else none

/-- Every byte but the last has its continuation bit set. -/
def Terminated : Bytes → Prop
  | [] => False
  | [byte] => byte < 0x80
  | byte :: rest => ¬ byte < 0x80 ∧ Terminated rest

instance decidableTerminated : (bytes : Bytes) → Decidable (Terminated bytes)
  | [] => isFalse id
  | [byte] => inferInstanceAs (Decidable (byte < 0x80))
  | byte :: next :: rest =>
      have := decidableTerminated (next :: rest)
      inferInstanceAs (Decidable (¬ byte < 0x80 ∧ Terminated (next :: rest)))

theorem Terminated.cons {byte : Byte} {rest : Bytes} (hrest : Terminated rest)
    (hbyte : ¬ byte < 0x80) : Terminated (byte :: rest) := by
  cases rest with
  | nil => exact hrest.elim
  | cons next rest => exact ⟨hbyte, hrest⟩

theorem Terminated.exists_last {digits : Bytes} (hterm : Terminated digits) :
    ∃ byte ∈ digits, byte < 0x80 := by
  induction digits with
  | nil => exact hterm.elim
  | cons byte digits ih =>
      cases digits with
      | nil => exact ⟨byte, List.mem_cons_self, hterm⟩
      | cons next digits =>
          obtain ⟨last, hmem, hlast⟩ := ih hterm.2
          exact ⟨last, List.mem_cons_of_mem _ hmem, hlast⟩

/-- No byte string starts with two different terminated varints. -/
theorem Terminated.unique {digits digits' rest rest' : Bytes} (hterm : Terminated digits)
    (hterm' : Terminated digits') (heq : digits ++ rest = digits' ++ rest') :
    digits = digits' := by
  induction digits generalizing digits' with
  | nil => exact hterm.elim
  | cons byte digits ih =>
      cases digits' with
      | nil => exact hterm'.elim
      | cons byte' digits' =>
          injection heq with hbyte hdigits
          subst hbyte
          match digits, digits', hterm, hterm' with
          | [], [], _, _ => rfl
          | [], _ :: _, hlast, hterm' => exact absurd hlast hterm'.1
          | _ :: _, [], hterm, hlast => exact absurd hlast hterm.1
          | _ :: _, _ :: _, hterm, hterm' => rw [ih hterm.2 hterm'.2 hdigits]

/-- The number a varint stands for, without regard to any width. -/
def uvarintValue : Bytes → ℕ
  | [] => 0
  | byte :: rest => byte.toNat % 128 + 128 * uvarintValue rest

theorem lt_0x80_iff {byte : Byte} : byte < 0x80 ↔ byte.toNat < 128 :=
  UInt8.lt_iff_toNat_lt

theorem uvarintValue_lt (digits : Bytes) :
    uvarintValue digits < 128 ^ digits.length := by
  induction digits with
  | nil => simp [uvarintValue]
  | cons byte rest ih =>
      simp only [uvarintValue, List.length_cons, pow_succ]
      omega

theorem uvarintFrom_terminated {digits : Bytes} (hterm : Terminated digits)
    {index value : ℕ} (hfit : index + digits.length ≤ maxVarintLen64)
    (hvalue : uvarintValue digits * 128 ^ index < 2 ^ 64) (rest : Bytes) :
    uvarintFrom index value (digits ++ rest) =
      (value + uvarintValue digits * 128 ^ index,
        ((index + digits.length : ℕ) : ℤ)) := by
  induction digits generalizing index value with
  | nil => exact hterm.elim
  | cons byte tail ih =>
      simp only [List.length_cons, maxVarintLen64] at hfit
      rw [List.cons_append, uvarintFrom, if_neg (by simp only [maxVarintLen64]; omega)]
      cases tail with
      | nil =>
          have hlast : byte < 0x80 := hterm
          have hsmall := lt_0x80_iff.mp hlast
          simp only [uvarintValue, Nat.mod_eq_of_lt hsmall, mul_zero, add_zero] at hvalue
          -- Only the last bit of a tenth byte fits.
          have htenth : ¬ (index = maxVarintLen64 - 1 ∧ 1 < byte) := by
            rintro ⟨rfl, hlarge⟩
            have hbyte : 1 < byte.toNat := UInt8.lt_iff_toNat_lt.mp hlarge
            simp only [maxVarintLen64] at hvalue
            omega
          rw [if_pos hlast, if_neg htenth]
          simp [uvarintValue, Nat.mod_eq_of_lt hsmall]
      | cons next tail =>
          obtain ⟨hcontinue, htail⟩ := hterm
          have hrest : uvarintValue (next :: tail) * 128 ^ (index + 1) < 2 ^ 64 := by
            refine lt_of_le_of_lt ?_ hvalue
            rw [pow_succ', ← mul_assoc]
            apply Nat.mul_le_mul_right
            rw [uvarintValue, mul_comm]
            exact Nat.le_add_left _ _
          rw [if_neg hcontinue, ih htail (by simp only [maxVarintLen64]; omega) hrest]
          simp only [uvarintValue, List.length_cons, Prod.mk.injEq]
          constructor
          · rw [pow_succ]
            ring
          · push_cast
            ring

/-- `binary.Uvarint` reads a terminated varint of 64 bits and nothing behind it. -/
theorem uvarint_of_value_lt {digits : Bytes} (hterm : Terminated digits)
    (hfit : digits.length ≤ maxVarintLen64) (hvalue : uvarintValue digits < 2 ^ 64)
    (rest : Bytes) :
    uvarint (digits ++ rest) = (uvarintValue digits, (digits.length : ℤ)) := by
  rw [uvarint, uvarintFrom_terminated hterm (by omega) (by simpa using hvalue)]
  simp

/-- `binary.Uvarint` reads a terminated varint and nothing behind it. -/
theorem uvarint_terminated {digits : Bytes} (hterm : Terminated digits)
    (hfit : digits.length < maxVarintLen64) (rest : Bytes) :
    uvarint (digits ++ rest) = (uvarintValue digits, (digits.length : ℤ)) := by
  have hvalue : uvarintValue digits < 2 ^ 64 :=
    calc uvarintValue digits < 128 ^ digits.length := uvarintValue_lt digits
      _ ≤ 128 ^ 9 := Nat.pow_le_pow_right (by norm_num) (Nat.le_of_lt_succ hfit)
      _ < 2 ^ 64 := by norm_num
  exact uvarint_of_value_lt hterm hfit.le hvalue rest

theorem uvarintFrom_unterminated {bytes : Bytes} (hbytes : ∀ byte ∈ bytes, ¬ byte < 0x80)
    {index : ℕ} (hfit : index + bytes.length ≤ maxVarintLen64) (value : ℕ) :
    uvarintFrom index value bytes = (0, 0) := by
  induction bytes generalizing index value with
  | nil => rfl
  | cons byte rest ih =>
      rw [List.length_cons] at hfit
      rw [uvarintFrom, if_neg (by omega), if_neg (hbytes byte List.mem_cons_self)]
      exact ih (fun byte hmem => hbytes byte (List.mem_cons_of_mem _ hmem)) (by omega) _

/-- Up to ten bytes that all continue are no varint and no error: nothing is read. -/
theorem uvarint_unterminated {bytes : Bytes} (hbytes : ∀ byte ∈ bytes, ¬ byte < 0x80)
    (hfit : bytes.length ≤ maxVarintLen64) : uvarint bytes = (0, 0) :=
  uvarintFrom_unterminated hbytes (by omega) 0

/-- A digit in front of a number of 64 bits that ends by the tenth digit. -/
theorem cons_digit_lt {byte : Byte} {rest index : ℕ} (hindex : index + 1 < maxVarintLen64)
    (hrest : rest * 128 ^ (index + 1) < 2 ^ 64) :
    (byte.toNat % 128 + 128 * rest) * 128 ^ index < 2 ^ 64 := by
  obtain ⟨more, hmore⟩ : ∃ more, 9 = index + 1 + more :=
    Nat.exists_eq_add_of_le (Nat.le_of_lt_succ hindex)
  have htop : 2 ^ 64 = 2 * 128 ^ more * 128 ^ (index + 1) := by
    rw [mul_assoc, ← pow_add, add_comm more, ← hmore]
    norm_num
  have hdigit : byte.toNat % 128 + 128 * rest < 128 * (rest + 1) := by omega
  have hnext : rest + 1 ≤ 2 * 128 ^ more := by
    rw [htop] at hrest
    exact Nat.lt_of_mul_lt_mul_right hrest
  calc (byte.toNat % 128 + 128 * rest) * 128 ^ index
      < 128 * (rest + 1) * 128 ^ index := Nat.mul_lt_mul_of_pos_right hdigit (by positivity)
    _ = (rest + 1) * 128 ^ (index + 1) := by ring
    _ ≤ 2 * 128 ^ more * 128 ^ (index + 1) := Nat.mul_le_mul_right _ hnext
    _ = 2 ^ 64 := htop.symm

theorem uvarintFrom_cases {bytes : Bytes} {index : ℕ} (hindex : index ≤ maxVarintLen64)
    (value : ℕ) :
    ((∀ byte ∈ bytes, ¬ byte < 0x80) ∧ index + bytes.length ≤ maxVarintLen64) ∨
      (∃ digits rest, bytes = digits ++ rest ∧ Terminated digits ∧
        index + digits.length ≤ maxVarintLen64 ∧ uvarintValue digits * 128 ^ index < 2 ^ 64) ∨
      (uvarintFrom index value bytes).2 < -1 := by
  induction bytes generalizing index value with
  | nil => exact Or.inl ⟨fun byte hmem => absurd hmem List.not_mem_nil, hindex⟩
  | cons byte rest ih =>
      by_cases hlong : index = maxVarintLen64
      · refine Or.inr (Or.inr ?_)
        rw [uvarintFrom, if_pos hlong, hlong]
        decide
      · have hshort : index < maxVarintLen64 := Nat.lt_of_le_of_ne hindex hlong
        rw [uvarintFrom, if_neg hlong]
        by_cases hlast : byte < 0x80
        · rw [if_pos hlast]
          by_cases htenth : index = maxVarintLen64 - 1 ∧ 1 < byte
          · refine Or.inr (Or.inr ?_)
            rw [if_pos htenth, htenth.1]
            decide
          · have hsmall := lt_0x80_iff.mp hlast
            refine Or.inr (Or.inl ⟨[byte], rest, rfl, hlast, hshort, ?_⟩)
            simp only [uvarintValue, mul_zero, add_zero, Nat.mod_eq_of_lt hsmall]
            by_cases hindex : index = maxVarintLen64 - 1
            · have hbyte : byte.toNat ≤ 1 := by
                by_contra hlarge
                exact htenth ⟨hindex, UInt8.lt_iff_toNat_lt.mpr (not_le.mp hlarge)⟩
              calc byte.toNat * 128 ^ index ≤ 1 * 128 ^ index := Nat.mul_le_mul_right _ hbyte
                _ < 2 ^ 64 := by rw [hindex]; norm_num [maxVarintLen64]
            · have hfew : index ≤ 8 := by
                simp only [maxVarintLen64] at hshort hindex
                omega
              calc byte.toNat * 128 ^ index ≤ 127 * 128 ^ 8 :=
                    Nat.mul_le_mul (Nat.le_of_lt_succ hsmall)
                      (Nat.pow_le_pow_right (by norm_num) hfew)
                _ < 2 ^ 64 := by norm_num
        · rw [if_neg hlast]
          rcases ih hshort (value + byte.toNat % 128 * 128 ^ index) with
            ⟨hbytes, hfit⟩ | ⟨digits, more, rfl, hterm, hfit, hvalue⟩ | hover
          · refine Or.inl ⟨?_, by rw [List.length_cons]; omega⟩
            intro next hmem
            rcases List.mem_cons.mp hmem with rfl | hmem
            · exact hlast
            · exact hbytes next hmem
          · have hpos : 0 < digits.length := by
              cases digits with
              | nil => exact hterm.elim
              | cons _ _ => exact Nat.succ_pos _
            exact Or.inr (Or.inl ⟨byte :: digits, more, rfl, hterm.cons hlast,
              by rw [List.length_cons]; omega, cons_digit_lt (by omega) hvalue⟩)
          · exact Or.inr (Or.inr hover)

/-- The bytes end inside a varint, start with a varint of 64 bits, or overflow. -/
theorem uvarint_cases (bytes : Bytes) :
    ((∀ byte ∈ bytes, ¬ byte < 0x80) ∧ bytes.length ≤ maxVarintLen64) ∨
      (∃ digits rest, bytes = digits ++ rest ∧ Terminated digits ∧
        digits.length ≤ maxVarintLen64 ∧ uvarintValue digits < 2 ^ 64) ∨
      (uvarint bytes).2 < -1 := by
  simpa [uvarint] using uvarintFrom_cases (Nat.zero_le maxVarintLen64) 0

/-- A number of more than `low` digits has a longer varint. -/
theorem lt_length_uvarintDigits {digits low value : ℕ} (hdigits : low < digits)
    (hvalue : 128 ^ low ≤ value) : low < (uvarintDigits digits value).length := by
  induction digits generalizing low value with
  | zero => omega
  | succ digits ih =>
      rw [uvarintDigits]
      cases low with
      | zero =>
          split
          · exact Nat.zero_lt_one
          · exact Nat.succ_pos _
      | succ low =>
          rw [pow_succ] at hvalue
          have hpos : 0 < 128 ^ low := by positivity
          have hlow : 128 ^ low ≤ value / 128 := by
            rw [Nat.le_div_iff_mul_le (by norm_num)]
            exact hvalue
          have hrest := ih (by omega) hlow
          rw [if_neg (by omega), List.length_cons]
          omega

theorem uvarintDigits_terminated {digits value : ℕ}
    (hvalue : value < 128 ^ (digits + 1)) :
    Terminated (uvarintDigits (digits + 1) value) := by
  induction digits generalizing value with
  | zero =>
      rw [uvarintDigits, if_pos (by simpa using hvalue)]
      have hsmall : value < 128 := by simpa using hvalue
      exact lt_0x80_iff.mpr (by rw [UInt8.toNat_ofNat']; omega)
  | succ digits ih =>
      rw [uvarintDigits]
      split
      · rename_i hsmall
        exact lt_0x80_iff.mpr (by rw [UInt8.toNat_ofNat']; omega)
      · have hquotient : value / 128 < 128 ^ (digits + 1) := by
          rw [Nat.div_lt_iff_lt_mul (by omega), ← pow_succ]
          exact hvalue
        have htail := ih hquotient
        have hfirst : ¬ UInt8.ofNat (value % 128 + 128) < 0x80 := by
          rw [lt_0x80_iff, UInt8.toNat_ofNat']
          omega
        cases hcase : uvarintDigits (digits + 1) (value / 128) with
        | nil =>
            rw [hcase] at htail
            exact htail.elim
        | cons next rest =>
            rw [hcase] at htail
            exact ⟨hfirst, htail⟩

theorem uvarintValue_uvarintDigits {digits value : ℕ}
    (hvalue : value < 128 ^ digits) :
    uvarintValue (uvarintDigits digits value) = value := by
  induction digits generalizing value with
  | zero =>
      have hzero : value = 0 := by simpa using hvalue
      simp [uvarintDigits, uvarintValue, hzero]
  | succ digits ih =>
      rw [uvarintDigits]
      split
      · rename_i hsmall
        simp only [uvarintValue, UInt8.toNat_ofNat']
        omega
      · have hquotient : value / 128 < 128 ^ digits := by
          rw [Nat.div_lt_iff_lt_mul (by omega), ← pow_succ]
          exact hvalue
        simp only [uvarintValue, UInt8.toNat_ofNat', ih hquotient]
        omega

theorem terminated_uvarintBytes {value : ℕ} (hvalue : value < 2 ^ 64) :
    Terminated (uvarintBytes value) :=
  uvarintDigits_terminated (hvalue.trans (by norm_num))

theorem uvarintValue_uvarintBytes {value : ℕ} (hvalue : value < 2 ^ 64) :
    uvarintValue (uvarintBytes value) = value :=
  uvarintValue_uvarintDigits (hvalue.trans (by norm_num [maxVarintLen64]))

theorem length_uvarintDigits {digits size value : ℕ} (hsize : size < digits)
    (hlow : size = 0 ∨ 128 ^ size ≤ value) (hhigh : value < 128 ^ (size + 1)) :
    (uvarintDigits digits value).length = size + 1 := by
  induction size generalizing digits value with
  | zero =>
      obtain ⟨digits, rfl⟩ := Nat.exists_eq_succ_of_ne_zero (by omega : digits ≠ 0)
      rw [uvarintDigits, if_pos (by simpa using hhigh)]
      rfl
  | succ size ih =>
      obtain ⟨digits, rfl⟩ := Nat.exists_eq_succ_of_ne_zero (by omega : digits ≠ 0)
      have hlarge : 128 * 128 ^ size ≤ value := by
        rw [mul_comm, ← pow_succ]
        exact hlow.resolve_left (by omega)
      have hpos : 0 < 128 ^ size := by positivity
      have hquotient : value / 128 < 128 ^ (size + 1) := by
        rw [Nat.div_lt_iff_lt_mul (by omega), ← pow_succ]
        exact hhigh
      have hlower : 128 ^ size ≤ value / 128 := by
        rw [Nat.le_div_iff_mul_le (by omega), mul_comm]
        exact hlarge
      rw [uvarintDigits, if_neg (by omega), List.length_cons,
        ih (by omega) (Or.inr hlower) hquotient]

/-- How many bytes a varint of at most four bytes takes, by its value. -/
theorem length_uvarintBytes {value : ℕ} (hvalue : value < 268435456) :
    (uvarintBytes value).length =
      if value ≤ 127 then 1 else if value ≤ 16383 then 2
      else if value ≤ 2097151 then 3 else 4 := by
  have hdigits : ∀ size, size < 4 → (size = 0 ∨ 128 ^ size ≤ value) →
      value < 128 ^ (size + 1) → (uvarintBytes value).length = size + 1 :=
    fun size hsize hlow hhigh =>
      length_uvarintDigits (by rw [maxVarintLen64]; omega) hlow hhigh
  split_ifs
  · exact hdigits 0 (by omega) (Or.inl rfl) (by omega)
  · exact hdigits 1 (by omega) (Or.inr (by omega)) (by omega)
  · exact hdigits 2 (by omega) (Or.inr (by omega)) (by omega)
  · exact hdigits 3 (by omega) (Or.inr (by omega)) (by omega)

/-- `binary.BigEndian.Uint16` on the first two bytes. -/
def bigEndianUint16 (high low : Byte) : ℕ := high.toNat * 256 + low.toNat

/-- The two bytes `binary.BigEndian.PutUint16` writes. -/
def uint16Bytes (value : ℕ) : Bytes :=
  [UInt8.ofNat (value / 256), UInt8.ofNat value]

@[simp]
theorem length_uint16Bytes (value : ℕ) : (uint16Bytes value).length = 2 := rfl

theorem bigEndianUint16_lt (high low : Byte) : bigEndianUint16 high low < 65536 := by
  have hhigh := high.toNat_lt
  have hlow := low.toNat_lt
  rw [bigEndianUint16]
  omega

theorem bigEndianUint16_uint16Bytes {value : ℕ} (hvalue : value < 65536) :
    bigEndianUint16 (UInt8.ofNat (value / 256)) (UInt8.ofNat value) = value := by
  rw [bigEndianUint16, UInt8.toNat_ofNat', UInt8.toNat_ofNat']
  omega

theorem uint16Bytes_bigEndianUint16 (high low : Byte) :
    uint16Bytes (bigEndianUint16 high low) = [high, low] := by
  have hhigh := high.toNat_lt
  have hlow := low.toNat_lt
  rw [uint16Bytes, bigEndianUint16]
  congr 2
  · apply UInt8.toNat_inj.mp
    rw [UInt8.toNat_ofNat']
    omega
  · apply UInt8.toNat_inj.mp
    rw [UInt8.toNat_ofNat']
    omega

/-- The conversion `int32(n)` of a non-negative integer, which wraps around. -/
@[irreducible]
def int32 (value : ℕ) : ℤ :=
  if value % 4294967296 < 2147483648 then (value % 4294967296 : ℕ)
  else (value % 4294967296 : ℕ) - 4294967296

theorem int32_of_lt {value : ℕ} (hvalue : value < 2 ^ 31) : int32 value = value := by
  rw [int32, if_pos (by omega)]
  omega

theorem int32_of_nonneg {value : ℕ} (hvalue : value < 4294967296)
    (hnonneg : 0 ≤ int32 value) : int32 value = value := by
  rw [int32] at hnonneg ⊢
  split_ifs at hnonneg ⊢ <;> omega

/-- The conversion is negative, or the number modulo `2 ^ 32`. -/
theorem int32_le_iff {value bound : ℕ} :
    int32 value ≤ bound ↔ (value % 2 ^ 32 < 2 ^ 31 → value % 2 ^ 32 ≤ bound) := by
  rw [int32]
  split_ifs <;> omega

theorem int32_le (value : ℕ) : int32 value ≤ value := by
  rw [int32]
  split <;> omega

end Xmqtt.Go
