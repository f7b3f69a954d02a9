import Mathlib

/-!
# Ring buffers with a side index

A ring of `size` cells holds a list of entries from a head cell on, wrapping
around at the end; all other cells are empty.  Beside it a map may record for
every key in which cell the entry with that key lies.
-/

namespace Xmqtt.Core.Ring

/-- The cell of the entry number `k` behind the head. -/
def slot (size head k : ℕ) : ℕ := (head + k) % size

section Slot

variable {size head k j : ℕ}

theorem slot_lt (hsize : 0 < size) : slot size head k < size := Nat.mod_lt _ hsize

@[simp]
theorem slot_zero (hhead : head < size) : slot size head 0 = head :=
  Nat.mod_eq_of_lt hhead

theorem slot_slot : slot size (slot size head j) k = slot size head (j + k) := by
  rw [slot, slot, slot, Nat.mod_add_mod, Nat.add_assoc]

/-- Different entries lie in different cells. -/
theorem slot_inj (hk : k < size) (hj : j < size)
    (heq : slot size head k = slot size head j) : k = j := by
  have hcongr : head + k ≡ head + j [MOD size] := heq
  exact (Nat.ModEq.add_left_cancel' head hcongr).eq_of_lt_of_lt hk hj

/-- Every cell is the cell of some number. -/
theorem exists_slot {i : ℕ} (hhead : head < size) (hi : i < size) :
    ∃ k < size, slot size head k = i := by
  have hsize : 0 < size := by omega
  refine ⟨slot size (size - head) i, slot_lt hsize, ?_⟩
  calc (head + (size - head + i) % size) % size
      = (head + (size - head + i)) % size := Nat.add_mod_mod _ _ _
    _ = (i + size) % size := by congr 1; omega
    _ = i % size := Nat.add_mod_right _ _
    _ = i := Nat.mod_eq_of_lt hi

end Slot

/-! ## The cells -/

variable {α : Type*}

theorem filterMap_getElem?_range (entries : List α) :
    (List.range entries.length).filterMap (fun k => entries[k]?) = entries := by
  induction entries with
  | nil => rfl
  | cons x entries ih =>
      rw [List.length_cons, List.range_succ_eq_map, List.filterMap_cons, List.filterMap_map]
      simp only [List.getElem?_cons_zero]
      exact congrArg (x :: ·) ih

/-- Entries with empty cells behind them. -/
theorem getElem?_padded (entries : List α) {spare k : ℕ} (hk : k < entries.length + spare) :
    (entries.map some ++ List.replicate spare none)[k]? = some entries[k]? := by
  by_cases hentry : k < entries.length
  · rw [List.getElem?_append_left (by rwa [List.length_map]), List.getElem?_map,
      List.getElem?_eq_getElem hentry]
    rfl
  · rw [List.getElem?_append_right (by rw [List.length_map]; omega), List.length_map,
      List.getElem?_replicate, if_pos (by omega), List.getElem?_eq_none (by omega)]

/-- The entries lie one behind the other from the head on; every other cell is
empty. -/
structure Holds (cells : List (Option α)) (head : ℕ) (entries : List α) : Prop where
  head_lt : head < cells.length
  length_le : entries.length ≤ cells.length
  cell : ∀ k < cells.length, cells[slot cells.length head k]? = some entries[k]?

namespace Holds

variable {cells : List (Option α)} {head k : ℕ} {entries : List α} {x y : α}

theorem empty {size : ℕ} (hsize : 0 < size) :
    Holds (List.replicate size (none : Option α)) 0 [] where
  head_lt := by rwa [List.length_replicate]
  length_le := Nat.zero_le _
  cell := by
    intro k _
    have hslot : slot size 0 k < size := slot_lt hsize
    simp [hslot]

theorem lt_length (hholds : Holds cells head entries) (hk : entries[k]? = some x) :
    k < cells.length := by
  obtain ⟨hlt, -⟩ := List.getElem?_eq_some_iff.mp hk
  exact hlt.trans_le hholds.length_le

theorem get (hholds : Holds cells head entries) (hk : entries[k]? = some x) :
    cells[slot cells.length head k]? = some (some x) := by
  rw [hholds.cell k (hholds.lt_length hk), hk]

/-- Whatever lies in a cell is an entry. -/
theorem exists_entry (hholds : Holds cells head entries) {i : ℕ}
    (hi : cells[i]? = some (some x)) :
    ∃ k, entries[k]? = some x ∧ slot cells.length head k = i := by
  obtain ⟨hlt, -⟩ := List.getElem?_eq_some_iff.mp hi
  obtain ⟨k, hk, rfl⟩ := exists_slot hholds.head_lt hlt
  rw [hholds.cell k hk, Option.some.injEq] at hi
  exact ⟨k, hi, rfl⟩

theorem get_head (hholds : Holds cells head (x :: entries)) :
    cells[head]? = some (some x) := by
  have hfirst : (x :: entries)[0]? = some x := rfl
  have hget := hholds.get hfirst
  rwa [slot_zero hholds.head_lt] at hget

/-- Cells that differ in one place hold entries that differ in one place. -/
theorem set (hholds : Holds cells head entries) (hk : k < cells.length)
    {entries' : List α} {value : Option α} (hlength : entries'.length ≤ cells.length)
    (hvalue : entries'[k]? = value)
    (hother : ∀ j < cells.length, j ≠ k → entries'[j]? = entries[j]?) :
    Holds (cells.set (slot cells.length head k) value) head entries' where
  head_lt := by
    rw [List.length_set]
    exact hholds.head_lt
  length_le := by rwa [List.length_set]
  cell := by
    intro j hj
    rw [List.length_set] at hj ⊢
    rw [List.getElem?_set]
    by_cases hjk : j = k
    · subst hjk
      rw [if_pos rfl, if_pos (slot_lt (by omega)), hvalue]
    · rw [if_neg fun heq => hjk (slot_inj hj hk heq.symm), hholds.cell j hj, hother j hj hjk]

/-- A new entry goes into the first cell behind the others. -/
theorem push (hholds : Holds cells head entries) (hroom : entries.length < cells.length)
    (x : α) :
    Holds (cells.set (slot cells.length head entries.length) (some x)) head
      (entries ++ [x]) := by
  apply hholds.set hroom
  · rw [List.length_append]
    exact hroom
  · simp
  · intro j _ hne
    rcases lt_or_gt_of_ne hne with hlt | hgt
    · rw [List.getElem?_append_left hlt]
    · rw [List.getElem?_eq_none (by simp only [List.length_append, List.length_singleton]; omega),
        List.getElem?_eq_none (by omega)]

/-- An entry that is replaced in its cell is replaced in the list. -/
theorem replace (hholds : Holds cells head entries) (hk : entries[k]? = some x) (y : α) :
    Holds (cells.set (slot cells.length head k) (some y)) head (entries.set k y) := by
  obtain ⟨hlt, -⟩ := List.getElem?_eq_some_iff.mp hk
  apply hholds.set (hholds.lt_length hk)
  · rw [List.length_set]
    exact hholds.length_le
  · rw [List.getElem?_set_self hlt]
  · intro j _ hne
    rw [List.getElem?_set_ne (Ne.symm hne)]

/-- The first entry leaves its cell empty, and the head moves on. -/
theorem pop (hholds : Holds cells head (x :: entries)) :
    Holds (cells.set head none) (slot cells.length head 1) entries where
  head_lt := by
    rw [List.length_set]
    exact slot_lt (Nat.zero_lt_of_lt hholds.head_lt)
  length_le := by
    rw [List.length_set]
    exact (Nat.le_succ _).trans hholds.length_le
  cell := by
    intro k hk
    have hhead := slot_zero hholds.head_lt
    rw [List.length_set] at hk ⊢
    rw [slot_slot, Nat.add_comm 1 k, List.getElem?_set]
    by_cases hlast : k + 1 = cells.length
    · have hwrap : slot cells.length head (k + 1) = head := by
        rw [hlast, slot, Nat.add_mod_right, Nat.mod_eq_of_lt hholds.head_lt]
      have hlength := hholds.length_le
      rw [List.length_cons] at hlength
      rw [if_pos hwrap.symm, if_pos (hwrap ▸ hholds.head_lt),
        List.getElem?_eq_none (by omega)]
    · have hne : head ≠ slot cells.length head (k + 1) := by
        intro heq
        have hzero := slot_inj (Nat.zero_lt_of_lt hk) (by omega) (hhead.trans heq)
        omega
      rw [if_neg hne, hholds.cell (k + 1) (by omega), List.getElem?_cons_succ]

/-- The cells from the head on, and then those in front of it. -/
theorem unroll (hholds : Holds cells head entries) :
    cells.drop head ++ cells.take head =
      entries.map some ++ List.replicate (cells.length - entries.length) none := by
  have hhead := hholds.head_lt
  have hlength := hholds.length_le
  apply List.ext_getElem?
  intro k
  rw [← List.rotate_eq_drop_append_take hhead.le]
  by_cases hk : k < cells.length
  · rw [List.getElem?_rotate hk, Nat.add_comm k head]
    rw [getElem?_padded entries (by omega)]
    exact hholds.cell k hk
  · rw [List.getElem?_eq_none (by rw [List.length_rotate]; omega),
      List.getElem?_eq_none (by simp only [List.length_append, List.length_map,
        List.length_replicate]; omega)]

/-- Entries laid out from the first cell on. -/
theorem ofList (entries : List α) {spare : ℕ} (hpos : 0 < entries.length + spare) :
    Holds (entries.map some ++ List.replicate spare none) 0 entries where
  head_lt := by simpa using hpos
  length_le := by simp
  cell := by
    intro k hk
    simp only [List.length_append, List.length_map, List.length_replicate] at hk ⊢
    rw [slot, Nat.zero_add, Nat.mod_eq_of_lt hk]
    exact getElem?_padded entries hk

end Holds

/-! ## The index -/

section Index

variable {κ : Type*} (key : α → κ)

/-- The map knows exactly the keys of the entries, and where each entry lies. -/
def Indexes (size head : ℕ) (index : κ → Option ℕ) (entries : List α) : Prop :=
  ∀ id i, index id = some i ↔
    ∃ k x, entries[k]? = some x ∧ key x = id ∧ slot size head k = i

variable {key} {size head : ℕ} {index : κ → Option ℕ} {entries : List α} {x : α}

namespace Indexes

theorem empty : Indexes key size head (fun _ => none) [] := by
  intro id i
  simp

theorem eq_some (hindex : Indexes key size head index entries) {k : ℕ}
    (hk : entries[k]? = some x) : index (key x) = some (slot size head k) :=
  (hindex _ _).mpr ⟨k, x, hk, rfl, rfl⟩

theorem eq_none_iff (hindex : Indexes key size head index entries) (id : κ) :
    index id = none ↔ ∀ x ∈ entries, key x ≠ id := by
  constructor
  · intro hnone x hx hid
    obtain ⟨k, hk⟩ := List.mem_iff_getElem?.mp hx
    have hsome := hindex.eq_some hk
    rw [hid, hnone] at hsome
    simp at hsome
  · intro hkeys
    rw [Option.eq_none_iff_forall_ne_some]
    intro i hsome
    obtain ⟨k, x, hk, hid, -⟩ := (hindex id i).mp hsome
    exact hkeys x (List.mem_of_getElem? hk) hid

/-- Two entries never have the same key. -/
theorem nodup (hindex : Indexes key size head index entries)
    (hlength : entries.length ≤ size) : (entries.map key).Nodup := by
  rw [List.nodup_iff_getElem?_ne_getElem?]
  intro i j hij hj
  rw [List.length_map] at hj
  rw [List.getElem?_map, List.getElem?_map, List.getElem?_eq_getElem (hij.trans hj),
    List.getElem?_eq_getElem hj]
  intro heq
  simp only [Option.map_some, Option.some.injEq] at heq
  have hi := hindex.eq_some (List.getElem?_eq_getElem (hij.trans hj))
  rw [heq, hindex.eq_some (List.getElem?_eq_getElem hj), Option.some.injEq] at hi
  exact hij.ne (slot_inj (by omega) (by omega) hi.symm)

/-- The index depends on the keys of the entries only. -/
theorem of_map_eq (hindex : Indexes key size head index entries) {entries' : List α}
    (hkeys : entries'.map key = entries.map key) :
    Indexes key size head index entries' := by
  have hget : ∀ (k : ℕ) (id : κ), (∃ x, entries'[k]? = some x ∧ key x = id) ↔
      ∃ x, entries[k]? = some x ∧ key x = id := by
    intro k id
    have hsame := congrArg (fun keys => keys[k]?) hkeys
    simp only [List.getElem?_map] at hsame
    rw [← Option.map_eq_some_iff, ← Option.map_eq_some_iff, hsame]
  intro id i
  rw [hindex id i]
  constructor
  · rintro ⟨k, x, hk, hid, hslot⟩
    obtain ⟨y, hy, hyid⟩ := (hget k id).mpr ⟨x, hk, hid⟩
    exact ⟨k, y, hy, hyid, hslot⟩
  · rintro ⟨k, x, hk, hid, hslot⟩
    obtain ⟨y, hy, hyid⟩ := (hget k id).mp ⟨x, hk, hid⟩
    exact ⟨k, y, hy, hyid, hslot⟩

variable [DecidableEq κ]

theorem push (hindex : Indexes key size head index entries)
    (hnew : index (key x) = none) :
    Indexes key size head
      (Function.update index (key x) (some (slot size head entries.length)))
      (entries ++ [x]) := by
  have hkeys := (hindex.eq_none_iff (key x)).mp hnew
  intro id i
  by_cases hid : id = key x
  · subst hid
    rw [Function.update_self, Option.some.injEq]
    constructor
    · rintro rfl
      exact ⟨entries.length, x, by simp, rfl, rfl⟩
    · rintro ⟨k, y, hk, hy, rfl⟩
      rcases lt_trichotomy k entries.length with hlt | rfl | hgt
      · rw [List.getElem?_append_left hlt] at hk
        exact absurd hy (hkeys y (List.mem_of_getElem? hk))
      · rfl
      · have hlength : (entries ++ [x]).length ≤ k := by
          rw [List.length_append]
          exact hgt
        rw [List.getElem?_eq_none hlength] at hk
        simp at hk
  · rw [Function.update_of_ne hid, hindex id i]
    constructor
    · rintro ⟨k, y, hk, hy, hslot⟩
      have hlt := (List.getElem?_eq_some_iff.mp hk).1
      exact ⟨k, y, by rwa [List.getElem?_append_left hlt], hy, hslot⟩
    · rintro ⟨k, y, hk, hy, hslot⟩
      rcases lt_or_ge k entries.length with hlt | hge
      · rw [List.getElem?_append_left hlt] at hk
        exact ⟨k, y, hk, hy, hslot⟩
      · rw [List.getElem?_append_right hge] at hk
        have hmem := List.mem_of_getElem? hk
        rw [List.mem_singleton] at hmem
        exact absurd (hmem ▸ hy.symm) hid

theorem pop (hindex : Indexes key size head index (x :: entries))
    (hlength : entries.length < size) :
    Indexes key size (slot size head 1) (Function.update index (key x) none) entries := by
  have hnodup := hindex.nodup hlength
  rw [List.map_cons, List.nodup_cons] at hnodup
  intro id i
  by_cases hid : id = key x
  · subst hid
    rw [Function.update_self]
    constructor
    · intro hnone
      simp at hnone
    · rintro ⟨k, y, hk, hy, -⟩
      exact absurd (List.mem_map.mpr ⟨y, List.mem_of_getElem? hk, hy⟩) hnodup.1
  · rw [Function.update_of_ne hid, hindex id i]
    constructor
    · rintro ⟨k, y, hk, hy, rfl⟩
      cases k with
      | zero =>
          rw [List.getElem?_cons_zero, Option.some.injEq] at hk
          exact absurd (hk ▸ hy.symm) hid
      | succ k =>
          refine ⟨k, y, by rwa [List.getElem?_cons_succ] at hk, hy, ?_⟩
          rw [slot_slot, Nat.add_comm]
    · rintro ⟨k, y, hk, hy, rfl⟩
      exact ⟨k + 1, y, by rwa [List.getElem?_cons_succ], hy, by rw [slot_slot, Nat.add_comm]⟩

end Indexes

/-- Where keys are distinct, changing the entry with a key is changing one place. -/
theorem map_if_key_eq_set [DecidableEq κ] (hnodup : (entries.map key).Nodup) {k : ℕ}
    (hk : entries[k]? = some x) (change : α → α) :
    (entries.map fun y => if key y = key x then change y else y) =
      entries.set k (change x) := by
  apply List.ext_getElem?
  intro j
  have hlt := (List.getElem?_eq_some_iff.mp hk).1
  rw [List.getElem?_map, List.getElem?_set]
  by_cases hkj : k = j
  · subst hkj
    rw [if_pos rfl, if_pos hlt, hk, Option.map_some, if_pos rfl]
  · rw [if_neg hkj]
    cases hj : entries[j]? with
    | none => rfl
    | some y =>
        have hne : key y ≠ key x := by
          intro heq
          have hget : (entries.map key)[k]? = (entries.map key)[j]? := by
            rw [List.getElem?_map, List.getElem?_map, hk, hj, Option.map_some,
              Option.map_some, heq]
          exact hkj ((List.getElem?_inj (by rwa [List.length_map]) hnodup).mp hget)
        rw [Option.map_some, if_neg hne]

/-! ## Building the index anew -/

section Reindex

variable [DecidableEq κ]

variable (key) in
/-- Give every entry of a list, one after the other, its own number. -/
def reindex (entries : List α) : κ → Option ℕ :=
  entries.zipIdx.foldl (fun index entry => Function.update index (key entry.1) (some entry.2))
    fun _ => none

theorem reindex_append_singleton (entries : List α) (x : α) :
    reindex key (entries ++ [x]) =
      Function.update (reindex key entries) (key x) (some entries.length) := by
  rw [reindex, List.zipIdx_append, List.foldl_append]
  simp [reindex]

theorem Indexes.reindex {entries : List α} (hnodup : (entries.map key).Nodup)
    (hlength : entries.length ≤ size) : Indexes key size 0 (reindex key entries) entries := by
  induction entries using List.reverseRecOn with
  | nil => exact Indexes.empty
  | append_singleton entries x ih =>
      rw [List.length_append, List.length_singleton] at hlength
      rw [List.map_append, List.nodup_append] at hnodup
      have hbefore := ih hnodup.1 (by omega)
      have hnew : Ring.reindex key entries (key x) = none := by
        rw [hbefore.eq_none_iff]
        intro y hy heq
        exact hnodup.2.2 (key y) (List.mem_map_of_mem hy) (key x) (by simp) heq
      have hslot : slot size 0 entries.length = entries.length := by
        rw [slot, Nat.zero_add, Nat.mod_eq_of_lt hlength]
      have hpush := hbefore.push hnew
      rwa [hslot, ← reindex_append_singleton] at hpush

end Reindex

end Index

end Xmqtt.Core.Ring
