import Mathlib

/-!
# Go byte slices and calls that may panic

A Go slice is a window of a backing array: the bytes it shows and, up to its
capacity, the bytes behind them.  Slicing is bounded by the capacity, indexing
by the length, and leaving either bound is a run-time panic.  This module
keeps the two apart, and gives the three ways a Go call of the shape
`(int, error)` can end: with a count, with a count and an error, or in a
panic.
-/

namespace Xmqtt.Go

abbrev Byte := UInt8
abbrev Bytes := List Byte

/-- The bytes a slice shows, and the bytes of its backing array between its
length and its capacity. -/
structure Slice where
  bytes : Bytes
  spare : Bytes
  deriving DecidableEq, Repr

namespace Slice

/-- A slice whose capacity is its length, as `make([]byte, n)` gives. -/
def full (bytes : Bytes) : Slice := ⟨bytes, []⟩

/-- The backing array from the first byte of the slice up to its capacity. -/
def cells (slice : Slice) : Bytes := slice.bytes ++ slice.spare

def cap (slice : Slice) : ℕ := slice.cells.length

/-- The slice expression `s[low:]`. -/
def tail (slice : Slice) (low : ℕ) : Option Slice :=
  if low ≤ slice.bytes.length then some ⟨slice.bytes.drop low, slice.spare⟩ else none

/-- The slice expression `s[low:high]`, which may reach into the spare
bytes. -/
def window (slice : Slice) (low : ℕ) (high : ℤ) : Option Slice :=
  if (low : ℤ) ≤ high ∧ high ≤ slice.cap then
    some ⟨(slice.cells.take high.toNat).drop low, slice.cells.drop high.toNat⟩
  else none

/-- The array element behind `s[index]` after an assignment through a slice
that shares the backing array. -/
def poke (slice : Slice) (index : ℕ) (byte : Byte) : Slice :=
  if index < slice.bytes.length then { slice with bytes := slice.bytes.set index byte }
  else { slice with spare := slice.spare.set (index - slice.bytes.length) byte }

/-- Two assignments in a row, behind what the slice shows in front of them. -/
theorem bytes_poke_pair {slice : Slice} {front back : Bytes} {high low : Byte}
    (hbytes : slice.bytes = front ++ high :: low :: back) (high' low' : Byte) :
    ((slice.poke front.length high').poke (front.length + 1) low').bytes =
      front ++ high' :: low' :: back := by
  have hfirst : front.length < slice.bytes.length := by
    rw [hbytes, List.length_append, List.length_cons]
    omega
  have hsecond : front.length + 1 < (slice.bytes.set front.length high').length := by
    rw [List.length_set, hbytes, List.length_append, List.length_cons, List.length_cons]
    omega
  rw [poke, poke, if_pos hfirst, if_pos hsecond]
  simp [hbytes]

@[simp]
theorem cells_mk (bytes spare : Bytes) :
    (Slice.mk bytes spare).cells = bytes ++ spare := rfl

theorem tail_of_le {slice : Slice} {low : ℕ} (hlow : low ≤ slice.bytes.length) :
    slice.tail low = some ⟨slice.bytes.drop low, slice.spare⟩ := if_pos hlow

@[simp]
theorem tail_append (before after spare : Bytes) :
    (Slice.mk (before ++ after) spare).tail before.length = some ⟨after, spare⟩ := by
  rw [tail_of_le (by simp)]
  simp

/-- The cursor rule: a slice whose tail starts with `field` has the rest
behind it as a later tail. -/
theorem tail_add {slice : Slice} {low : ℕ} {field rest spare : Bytes}
    (htail : slice.tail low = some ⟨field ++ rest, spare⟩) :
    slice.tail (low + field.length) = some ⟨rest, spare⟩ := by
  rw [tail] at htail
  split at htail
  · rename_i hlow
    simp only [Option.some.injEq, Slice.mk.injEq] at htail
    obtain ⟨hdrop, hspare⟩ := htail
    have hlength := congrArg List.length hdrop
    simp only [List.length_drop, List.length_append] at hlength
    rw [tail_of_le (by omega), ← List.drop_drop, hdrop, List.drop_left, hspare]
  · simp at htail

theorem length_of_tail {slice : Slice} {low : ℕ} {rest spare : Bytes}
    (htail : slice.tail low = some ⟨rest, spare⟩) :
    low + rest.length = slice.bytes.length := by
  rw [tail] at htail
  split at htail
  · simp only [Option.some.injEq, Slice.mk.injEq] at htail
    rw [← htail.1, List.length_drop]
    omega
  · simp at htail

theorem tail_succ {slice : Slice} {low : ℕ} {byte : Byte} {rest spare : Bytes}
    (htail : slice.tail low = some ⟨byte :: rest, spare⟩) :
    slice.tail (low + 1) = some ⟨rest, spare⟩ :=
  tail_add (show slice.tail low = some ⟨[byte] ++ rest, spare⟩ from htail)

theorem getElem?_of_tail {slice : Slice} {low : ℕ} {rest spare : Bytes}
    (htail : slice.tail low = some ⟨rest, spare⟩) : slice.bytes[low]? = rest[0]? := by
  rw [tail] at htail
  split at htail
  · simp only [Option.some.injEq, Slice.mk.injEq] at htail
    rw [← htail.1, List.getElem?_drop, add_zero]
  · simp at htail

/-- A window ends where it was asked to. -/
theorem length_window {slice part : Slice} {low : ℕ} {high : ℤ}
    (hwindow : slice.window low high = some part) :
    ((low + part.bytes.length : ℕ) : ℤ) = high := by
  rw [window] at hwindow
  split_ifs at hwindow with hbounds
  injection hwindow with hpart
  rw [cap] at hbounds
  rw [← hpart, List.length_drop, List.length_take]
  omega

/-- A window at the cursor is decided by the bytes from there to the
capacity. -/
theorem window_of_tail {slice : Slice} {low : ℕ} {rest spare : Bytes}
    (htail : slice.tail low = some ⟨rest, spare⟩) (size : ℤ) :
    slice.window low (low + size) = (Slice.mk rest spare).window 0 size := by
  rw [tail] at htail
  split at htail
  · rename_i hlow
    simp only [Option.some.injEq, Slice.mk.injEq] at htail
    obtain ⟨hdrop, hspare⟩ := htail
    have hcells : slice.cells = slice.bytes.take low ++ (rest ++ spare) := by
      rw [cells, ← hdrop, ← hspare, ← List.append_assoc, List.take_append_drop]
    have hbefore : (slice.bytes.take low).length = low := List.length_take_of_le hlow
    have hcap : slice.cap = low + (Slice.mk rest spare).cap := by
      rw [cap, hcells, List.length_append, hbefore, cap, cells_mk]
    rw [window, window, hcap]
    by_cases hbounds : 0 ≤ size ∧ size ≤ (Slice.mk rest spare).cap
    · rw [if_pos (by push_cast; omega), if_pos (by simpa using hbounds), hcells]
      have hnat : ((low : ℤ) + size).toNat = (slice.bytes.take low).length + size.toNat := by
        rw [hbefore]
        omega
      have htake : (slice.bytes.take low ++ (rest ++ spare)).take
          ((slice.bytes.take low).length + size.toNat) =
          slice.bytes.take low ++ (rest ++ spare).take size.toNat :=
        List.take_length_add_append _
      have hskip : (slice.bytes.take low ++ (rest ++ spare)).drop
          ((slice.bytes.take low).length + size.toNat) =
          (rest ++ spare).drop size.toNat :=
        List.drop_length_add_append _
      rw [hnat, htake, hskip, List.drop_append_of_le_length (by rw [hbefore]),
        List.drop_eq_nil_of_le (by rw [hbefore])]
      simp
    · rw [if_neg (by push_cast; omega), if_neg (by simpa using hbounds)]
  · simp at htail

theorem window_zero_of_append {field rest spare : Bytes} {size : ℤ}
    (hsize : size = field.length) :
    (Slice.mk (field ++ rest) spare).window 0 size = some ⟨field, rest ++ spare⟩ := by
  subst hsize
  rw [window, if_pos ⟨by omega, by simp only [cap, cells_mk, List.length_append]; omega⟩]
  simp

/-- The window of everything behind the cursor. -/
theorem window_rest {slice : Slice} {low : ℕ} {rest spare : Bytes}
    (htail : slice.tail low = some ⟨rest, spare⟩) :
    slice.window low (low + (rest.length : ℤ)) = some ⟨rest, spare⟩ := by
  rw [window_of_tail htail]
  have hwindow : (Slice.mk (rest ++ []) spare).window 0 rest.length = some ⟨rest, [] ++ spare⟩ :=
    window_zero_of_append rfl
  rwa [List.append_nil, List.nil_append] at hwindow

theorem window_zero_eq_none_iff {rest spare : Bytes} {size : ℕ} :
    (Slice.mk rest spare).window 0 size = none ↔ rest.length + spare.length < size := by
  rw [window]
  split <;> rename_i hbounds
  · simp only [cap, cells_mk, List.length_append] at hbounds
    simp only [reduceCtorEq, false_iff]
    omega
  · simp only [cap, cells_mk, List.length_append] at hbounds
    simp only [true_iff]
    omega

/-- A window at the start of a slice. -/
theorem window_zero_eq_some {rest spare : Bytes} {size : ℕ}
    (hsize : size ≤ rest.length + spare.length) :
    (Slice.mk rest spare).window 0 size =
      some ⟨(rest ++ spare).take size, (rest ++ spare).drop size⟩ := by
  rw [window, if_pos ⟨by omega, by simp [cap]; omega⟩]
  simp

/-- The same bytes, with at least the same capacity behind them. -/
structure Grows (slice larger : Slice) : Prop where
  bytes : slice.bytes = larger.bytes
  spare : slice.spare <+: larger.spare

namespace Grows

variable {slice larger : Slice}

theorem refl (slice : Slice) : slice.Grows slice := ⟨rfl, List.prefix_refl _⟩

theorem cells (hgrows : slice.Grows larger) : slice.cells <+: larger.cells := by
  rw [Slice.cells, Slice.cells, hgrows.bytes]
  exact (List.prefix_append_right_inj _).mpr hgrows.spare

theorem tail (hgrows : slice.Grows larger) (low : ℕ) {rest : Slice}
    (htail : slice.tail low = some rest) :
    ∃ rest', larger.tail low = some rest' ∧ rest.Grows rest' := by
  rw [Slice.tail] at htail ⊢
  split at htail <;> rename_i hlow
  · cases htail
    rw [hgrows.bytes] at hlow ⊢
    exact ⟨_, if_pos hlow, rfl, hgrows.spare⟩
  · cases htail

/-- A window is there in the larger slice too. -/
theorem window (hgrows : slice.Grows larger) {low : ℕ} {high : ℤ} {part : Slice}
    (hwindow : slice.window low high = some part) :
    ∃ part', larger.window low high = some part' ∧ part'.bytes = part.bytes := by
  obtain ⟨more, hmore⟩ := hgrows.cells
  rw [Slice.window] at hwindow ⊢
  split at hwindow <;> rename_i hbounds
  · cases hwindow
    rw [cap] at hbounds
    have hcap : slice.cells.length ≤ larger.cap := by
      rw [cap, ← hmore, List.length_append]
      omega
    refine ⟨_, if_pos ⟨hbounds.1, by omega⟩, ?_⟩
    rw [← hmore, List.take_append_of_le_length (by omega)]
  · cases hwindow

end Grows

/-- From the cursor at `low` on the larger slice has the same bytes. -/
def GrowsFrom (low : ℕ) (slice larger : Slice) : Prop :=
  ∀ rest, slice.tail low = some rest → ∃ rest', larger.tail low = some rest' ∧ rest.Grows rest'

theorem Grows.behind {slice larger : Slice} (hgrows : slice.Grows larger) (low : ℕ) :
    GrowsFrom low slice larger := fun _ htail => hgrows.tail low htail

namespace GrowsFrom

variable {slice larger : Slice} {low : ℕ}

/-- The cursor moves on in both slices. -/
theorem mono (hgrows : GrowsFrom low slice larger) {high : ℕ} (hle : low ≤ high) :
    GrowsFrom high slice larger := by
  intro rest htail
  rw [tail] at htail
  split at htail
  · rename_i hhigh
    cases htail
    obtain ⟨rest', htail', hrest⟩ := hgrows _ (tail_of_le (hle.trans hhigh))
    have hlength := length_of_tail htail'
    rw [← hrest.bytes, List.length_drop] at hlength
    have hsplit : larger.tail low = some ⟨(slice.bytes.drop low).take (high - low) ++
        slice.bytes.drop high, rest'.spare⟩ := by
      rw [htail', ← Nat.add_sub_of_le hle, ← List.drop_drop, Nat.add_sub_cancel_left,
        List.take_append_drop]
      exact congrArg (fun bytes => some (Slice.mk bytes rest'.spare)) hrest.bytes.symm
    have hmoved := tail_add hsplit
    rw [List.length_take_of_le (by rw [List.length_drop]; omega), Nat.add_sub_of_le hle]
      at hmoved
    exact ⟨_, hmoved, rfl, hrest.spare⟩
  · cases htail

theorem getElem? (hgrows : GrowsFrom low slice larger) {byte : Byte}
    (hbyte : slice.bytes[low]? = some byte) : larger.bytes[low]? = some byte := by
  have hlow := (List.getElem?_eq_some_iff.mp hbyte).1
  have htail := tail_of_le hlow.le
  obtain ⟨rest', htail', hrest⟩ := hgrows _ htail
  rw [getElem?_of_tail htail', ← hrest.bytes, ← getElem?_of_tail htail, hbyte]

end GrowsFrom

end Slice

/-- How a call returning `(int, error)` ends.  `state` is what the call has
made of its receiver and its buffer by then. -/
inductive Outcome (ε σ : Type) where
  | done (state : σ) (count : ℕ)
  | fail (state : σ) (count : ℕ) (err : ε)
  | panic
  deriving DecidableEq, Repr

namespace Outcome

variable {ε σ τ : Type}

def map (f : σ → τ) : Outcome ε σ → Outcome ε τ
  | done state count => done (f state) count
  | fail state count err => fail (f state) count err
  | panic => panic

/-- `if err != nil { return n, err }` between two calls. -/
def andThen (first : Outcome ε σ) (next : σ → ℕ → Outcome ε σ) : Outcome ε σ :=
  match first with
  | done state count => next state count
  | fail state count err => fail state count err
  | panic => panic

/-- `if cond { return total, err }`. -/
def reject (cond : Bool) (err : ε) (state : σ) (count : ℕ) : Outcome ε σ :=
  if cond then fail state count err else done state count

/-- Return the error of a check that has failed. -/
def failOn (check : Option ε) (state : σ) (count : ℕ) : Outcome ε σ :=
  match check with
  | some err => fail state count err
  | none => done state count

@[simp]
theorem map_done (f : σ → τ) (state : σ) (count : ℕ) :
    (done state count : Outcome ε σ).map f = done (f state) count := rfl

@[simp]
theorem map_fail (f : σ → τ) (state : σ) (count : ℕ) (err : ε) :
    (fail state count err).map f = fail (f state) count err := rfl

@[simp]
theorem map_panic (f : σ → τ) : (panic : Outcome ε σ).map f = panic := rfl

@[simp]
theorem done_andThen (state : σ) (count : ℕ) (next : σ → ℕ → Outcome ε σ) :
    (done state count).andThen next = next state count := rfl

@[simp]
theorem fail_andThen (state : σ) (count : ℕ) (err : ε)
    (next : σ → ℕ → Outcome ε σ) :
    (fail state count err).andThen next = fail state count err := rfl

@[simp]
theorem panic_andThen (next : σ → ℕ → Outcome ε σ) :
    (panic : Outcome ε σ).andThen next = panic := rfl

/-- A call that returns hands over to the rest of the function. -/
theorem andThen_of_done {first result : Outcome ε σ} {next : σ → ℕ → Outcome ε σ}
    {state : σ} {count : ℕ} (hfirst : first = done state count)
    (hnext : next state count = result) : first.andThen next = result := by
  rw [hfirst, done_andThen, hnext]

theorem andThen_eq_done_iff {first : Outcome ε σ} {next : σ → ℕ → Outcome ε σ}
    {state : σ} {count : ℕ} :
    first.andThen next = done state count ↔
      ∃ middle n, first = done middle n ∧ next middle n = done state count := by
  cases first <;> simp

@[simp]
theorem reject_true (err : ε) (state : σ) (count : ℕ) :
    reject true err state count = fail state count err := rfl

@[simp]
theorem reject_false (err : ε) (state : σ) (count : ℕ) :
    reject false err state count = done state count := rfl

theorem reject_of_false {cond : Bool} (hcond : cond = false) (err : ε) (state : σ)
    (count : ℕ) : reject cond err state count = done state count := by
  rw [hcond, reject_false]

theorem reject_eq_done_iff {cond : Bool} {err : ε} {state result : σ} {count n : ℕ} :
    reject cond err state count = done result n ↔
      cond = false ∧ result = state ∧ n = count := by
  cases cond <;> simp [eq_comm]

theorem failOn_eq_done_iff {check : Option ε} {state result : σ} {count n : ℕ} :
    failOn check state count = done result n ↔
      check = none ∧ result = state ∧ n = count := by
  cases check <;> simp [failOn, eq_comm]

theorem failOn_of_none {check : Option ε} (hcheck : check = none) (state : σ)
    (count : ℕ) : failOn check state count = done state count := by
  rw [hcheck, failOn]

@[simp]
theorem map_eq_panic_iff {f : σ → τ} {outcome : Outcome ε σ} :
    outcome.map f = panic ↔ outcome = panic := by
  cases outcome <;> simp

theorem map_eq_done_iff {f : σ → τ} {outcome : Outcome ε σ} {state : τ} {count : ℕ} :
    outcome.map f = done state count ↔
      ∃ inner, outcome = done inner count ∧ f inner = state := by
  cases outcome <;> simp [and_comm]

theorem map_andThen_eq_done_iff {f : σ → τ} {outcome : Outcome ε σ}
    {next : τ → ℕ → Outcome ε τ} {state : τ} {count : ℕ} :
    (outcome.map f).andThen next = done state count ↔
      ∃ inner n, outcome = done inner n ∧ next (f inner) n = done state count := by
  cases outcome <;> simp

/-- Whatever succeeds has the value `a` at `f`. -/
def Keeps (f : σ → τ) (a : τ) : Outcome ε σ → Prop
  | .done state _ => f state = a
  | .fail _ _ _ => True
  | .panic => True

theorem Keeps.andThen {f : σ → τ} {a : τ} {first : Outcome ε σ}
    {next : σ → ℕ → Outcome ε σ} (hfirst : first.Keeps f a)
    (hnext : ∀ state count, f state = a → (next state count).Keeps f a) :
    (first.andThen next).Keeps f a := by
  cases first with
  | panic => exact trivial
  | fail state count err => exact trivial
  | done state count => exact hnext state count hfirst

theorem keeps_reject {f : σ → τ} {a : τ} {state : σ} (hstate : f state = a) (cond : Bool)
    (err : ε) (count : ℕ) : (reject cond err state count).Keeps f a := by
  cases cond with
  | false => exact hstate
  | true => exact trivial

theorem keeps_failOn {f : σ → τ} {a : τ} {state : σ} (hstate : f state = a)
    (check : Option ε) (count : ℕ) : (failOn check state count).Keeps f a := by
  cases check with
  | none => exact hstate
  | some err => exact trivial

theorem andThen_done (outcome : Outcome ε σ) : outcome.andThen done = outcome := by
  cases outcome <;> rfl

theorem andThen_assoc {first : Outcome ε σ} {next last : σ → ℕ → Outcome ε σ} :
    (first.andThen next).andThen last =
      first.andThen fun state count => (next state count).andThen last := by
  cases first <;> simp

theorem andThen_panic_iff_left {first : Outcome ε σ} {next : σ → ℕ → Outcome ε σ}
    (hnext : ∀ state count, next state count ≠ panic) :
    first.andThen next = panic ↔ first = panic := by
  cases first with
  | done state count => simpa using hnext state count
  | fail state count err => simp
  | panic => simp

theorem andThen_ne_panic {first : Outcome ε σ} {next : σ → ℕ → Outcome ε σ}
    (hfirst : first ≠ panic)
    (hnext : ∀ state count, first = done state count → next state count ≠ panic) :
    first.andThen next ≠ panic := by
  cases first with
  | done state count => exact hnext state count rfl
  | fail state count err => simp
  | panic => exact (hfirst rfl).elim

/-- A call that only rejects never panics on its own: what is left is the rest
of the function. -/
theorem reject_andThen_eq_panic_iff {cond : Bool} {err : ε} {state : σ}
    {count : ℕ} {next : σ → ℕ → Outcome ε σ} :
    (reject cond err state count).andThen next = panic ↔
      cond = false ∧ next state count = panic := by
  cases cond <;> simp

theorem failOn_andThen_eq_panic_iff {check : Option ε} {state : σ} {count : ℕ}
    {next : σ → ℕ → Outcome ε σ} :
    (failOn check state count).andThen next = panic ↔
      check = none ∧ next state count = panic := by
  cases check <;> simp [failOn]

end Outcome

end Xmqtt.Go
