import Xmqtt.Core.Ring

/-!
# Cells that are written over

A ring whose cells always hold something.  A position that only grows lies in the cell that
is left of it modulo the size of the ring; what is asked is which entries the cells show from
a position on, and which writes leave them alone.
-/

namespace Xmqtt.Core.Ring

variable {α : Type*} {cells entries front back : List α} {low : ℕ}

/-- From a position on the cells show these entries. -/
def Shows (cells : List α) (low : ℕ) (entries : List α) : Prop :=
  ∀ k x, entries[k]? = some x → cells[slot cells.length low k]? = some x

/-- Up to the end of the ring the cells follow one another. -/
theorem slot_of_lt {size k : ℕ} (hlt : low % size + k < size) :
    slot size low k = low % size + k := by
  rw [slot, ← Nat.mod_add_mod, Nat.mod_eq_of_lt hlt]

namespace Shows

theorem nil (cells : List α) (low : ℕ) : Shows cells low [] := by
  intro k x hx
  cases hx

theorem append_iff : Shows cells low (front ++ back) ↔
    Shows cells low front ∧ Shows cells (low + front.length) back := by
  have hslot : ∀ k, slot cells.length (low + front.length) k =
      slot cells.length low (front.length + k) := by
    intro k
    rw [slot, slot, Nat.add_assoc]
  constructor
  · intro hshows
    refine ⟨fun k x hx => hshows k x ?_, fun k x hx => ?_⟩
    · rw [List.getElem?_append_left (List.getElem?_eq_some_iff.mp hx).1]
      exact hx
    · rw [hslot]
      apply hshows
      rw [List.getElem?_append_right (Nat.le_add_right _ _), Nat.add_sub_cancel_left]
      exact hx
  · rintro ⟨hfront, hback⟩ k x hx
    by_cases hk : k < front.length
    · rw [List.getElem?_append_left hk] at hx
      exact hfront k x hx
    · rw [List.getElem?_append_right (by omega)] at hx
      have hcell := hback _ _ hx
      rw [hslot, Nat.add_sub_cancel' (by omega)] at hcell
      exact hcell

/-- A write behind the entries, less than a round ahead of the first one, leaves them alone. -/
theorem set (hshows : Shows cells low entries) {k : ℕ} (hk : entries.length ≤ k)
    (hround : k < cells.length) (y : α) :
    Shows (cells.set (slot cells.length low k) y) low entries := by
  intro j x hx
  have hj := (List.getElem?_eq_some_iff.mp hx).1
  have hne : slot cells.length low k ≠ slot cells.length low j := fun heq => by
    have hsame := slot_inj hround (by omega) heq
    omega
  rw [List.length_set, List.getElem?_set_ne hne]
  exact hshows j x hx

/-- The next entry is written. -/
theorem push (hshows : Shows cells low entries) (hroom : entries.length < cells.length)
    (y : α) :
    Shows (cells.set (slot cells.length low entries.length) y) low (entries ++ [y]) := by
  rw [append_iff]
  refine ⟨hshows.set le_rfl hroom y, ?_⟩
  intro k x hx
  obtain ⟨hk, hget⟩ := List.getElem?_eq_some_iff.mp hx
  obtain rfl : k = 0 := by simpa using hk
  obtain rfl : y = x := hget
  rw [List.length_set]
  exact List.getElem?_set_self (slot_lt (by omega))

/-- A window of the cells is shown from its position on. -/
theorem window {n : ℕ} (hwrap : low % cells.length + n ≤ cells.length) :
    Shows cells low ((cells.drop (low % cells.length)).take n) := by
  intro k x hx
  have hk : k < n := by
    have hlt := (List.getElem?_eq_some_iff.mp hx).1
    rw [List.length_take] at hlt
    omega
  rw [List.getElem?_take_of_lt hk, List.getElem?_drop] at hx
  rw [slot_of_lt (by omega)]
  exact hx

/-- Entries that do not wrap around are a window of the cells. -/
theorem eq_window (hshows : Shows cells low entries)
    (hwrap : low % cells.length + entries.length ≤ cells.length) :
    (cells.drop (low % cells.length)).take entries.length = entries := by
  apply List.ext_getElem?
  intro k
  by_cases hk : k < entries.length
  · have hcell := hshows k entries[k] (List.getElem?_eq_getElem hk)
    rw [slot_of_lt (by omega)] at hcell
    rw [List.getElem?_take_of_lt hk, List.getElem?_drop, hcell, List.getElem?_eq_getElem hk]
  · rw [List.getElem?_eq_none (by rw [List.length_take]; omega),
      List.getElem?_eq_none (by omega)]

end Shows

end Xmqtt.Core.Ring
