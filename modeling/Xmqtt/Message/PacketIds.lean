import Mathlib.Logic.Function.Basic
import Xmqtt.Message.Header

/-!
# Packet ids of concurrent encoders

Every `Encode` that needs a packet id increments the global counter, and
increments it once more if the low 16 bits are zero.  The increments are atomic
but the two of one call are not, so a schedule of calls says in which order the
increments happen.  The n-th increment draws the low bits of the n-th value,
whoever makes it, and everything about packet ids follows from that.
-/

namespace Xmqtt.Message

/-- How far an `Encode` call is with its packet id. -/
inductive Phase where
  | fresh
  /-- It has drawn zero. -/
  | again
  | assigned
  deriving DecidableEq, Repr

/-- An increment: the call that makes it, and the packet id that the call takes from it. -/
structure Increment (C : Type) where
  call : C
  id : Option UInt16
  deriving DecidableEq, Repr

/-- The counter, and the calls that share it. -/
structure Counter (C : Type) where
  gPacketId : UInt64
  phase : C → Phase

namespace Counter

variable {C : Type} [DecidableEq C]

def start (gPacketId : UInt64) : Counter C := ⟨gPacketId, fun _ => .fresh⟩

/-- The call has incremented the counter. -/
def advance (this : Counter C) (call : C) (phase : Phase) : Counter C :=
  ⟨this.gPacketId + 1, Function.update this.phase call phase⟩

/-- The next increment of a call, if it needs one. -/
def step (this : Counter C) (call : C) : Option (Increment C) × Counter C :=
  let v := (this.gPacketId + 1).toUInt16
  match this.phase call with
  | .fresh =>
      if v = 0 then (some ⟨call, none⟩, this.advance call .again)
      else (some ⟨call, some v⟩, this.advance call .assigned)
  | .again => (some ⟨call, some v⟩, this.advance call .assigned)
  | .assigned => (none, this)

def run (this : Counter C) (schedule : List C) : Counter C :=
  schedule.foldl (fun this call => (this.step call).2) this

/-- The increments of a schedule, in the order of the counter. -/
def increments : Counter C → List C → List (Increment C)
  | _, [] => []
  | this, call :: schedule =>
      (this.step call).1.toList ++ increments (this.step call).2 schedule

end Counter

/-! ## What the n-th increment draws -/

/-- The low bits of the counter after its increment number `i`. -/
def idAt (gPacketId : UInt64) (i : ℕ) : UInt16 := UInt16.ofNat (gPacketId.toNat + i + 1)

theorem idAt_zero (gPacketId : UInt64) : idAt gPacketId 0 = (gPacketId + 1).toUInt16 := by
  apply UInt16.toNat_inj.mp
  rw [idAt, UInt16.toNat_ofNat', UInt64.toNat_toUInt16, UInt64.toNat_add]
  simp only [UInt64.toNat_one]
  omega

/-- The 64 bits wrap around where the 16 bits do. -/
theorem idAt_succ (gPacketId : UInt64) (i : ℕ) :
    idAt (gPacketId + 1) i = idAt gPacketId (i + 1) := by
  apply UInt16.toNat_inj.mp
  rw [idAt, idAt, UInt16.toNat_ofNat', UInt16.toNat_ofNat', UInt64.toNat_add]
  simp only [UInt64.toNat_one]
  omega

theorem idAt_eq_iff {gPacketId : UInt64} {i j : ℕ} (hle : i ≤ j) :
    idAt gPacketId i = idAt gPacketId j ↔ 65536 ∣ j - i := by
  rw [← UInt16.toNat_inj, idAt, idAt, UInt16.toNat_ofNat', UInt16.toNat_ofNat']
  omega

namespace Counter

variable {C : Type} [DecidableEq C] {this : Counter C}

/-- The packet id that a call takes from its next increment. -/
def taken (this : Counter C) (call : C) : Option UInt16 :=
  if this.phase call = .fresh ∧ idAt this.gPacketId 0 = 0 then none
  else some (idAt this.gPacketId 0)

/-- The call has made its next increment. -/
def next (this : Counter C) (call : C) : Counter C :=
  this.advance call (if this.taken call = none then .again else .assigned)

theorem phase_next (call other : C) : (this.next call).phase other =
    if other = call then if this.taken call = none then .again else .assigned
    else this.phase other :=
  Function.update_apply _ _ _ _

theorem step_of_assigned {call : C} (hphase : this.phase call = .assigned) :
    this.step call = (none, this) := by
  rw [step, hphase]

theorem step_of_ne {call : C} (hphase : this.phase call ≠ .assigned) :
    this.step call = (some ⟨call, this.taken call⟩, this.next call) := by
  rw [step, next, taken, idAt_zero]
  cases hcase : this.phase call with
  | fresh =>
      by_cases hzero : (this.gPacketId + 1).toUInt16 = 0
      · simp [hzero]
      · simp only [if_neg hzero, if_neg (fun hand : _ ∧ _ => hzero hand.2)]
        rfl
  | again => simp
  | assigned => exact absurd hcase hphase

theorem increments_cons_of_assigned {call : C} (hphase : this.phase call = .assigned)
    (schedule : List C) :
    this.increments (call :: schedule) = this.increments schedule := by
  rw [increments, step_of_assigned hphase]
  rfl

theorem increments_cons_of_ne {call : C} (hphase : this.phase call ≠ .assigned)
    (schedule : List C) :
    this.increments (call :: schedule) =
      ⟨call, this.taken call⟩ :: (this.next call).increments schedule := by
  rw [increments, step_of_ne hphase]
  rfl

/-- An increment assigns the low bits of the counter, unless these are zero and its call can
draw again. -/
theorem id_of_increments {schedule : List C} {i : ℕ} {inc : Increment C}
    (hinc : (this.increments schedule)[i]? = some inc) :
    inc.id = some (idAt this.gPacketId i) ∨ inc.id = none ∧ idAt this.gPacketId i = 0 := by
  induction schedule generalizing this i with
  | nil => cases hinc
  | cons first schedule ih =>
      by_cases hphase : this.phase first = .assigned
      · rw [increments_cons_of_assigned hphase] at hinc
        exact ih hinc
      · rw [increments_cons_of_ne hphase] at hinc
        cases i with
        | zero =>
            injection hinc with hinc
            rw [← hinc, taken]
            split_ifs with hzero
            · exact Or.inr ⟨rfl, hzero.2⟩
            · exact Or.inl rfl
        | succ i =>
            rw [← idAt_succ]
            exact ih hinc

/-- Only a call that has drawn zero before takes zero. -/
theorem exists_none_of_zero {schedule : List C} {i : ℕ} {call : C}
    (hinc : (this.increments schedule)[i]? = some ⟨call, some 0⟩) :
    this.phase call = .again ∨ ∃ j < i, (this.increments schedule)[j]? = some ⟨call, none⟩ := by
  induction schedule generalizing this i with
  | nil => cases hinc
  | cons first schedule ih =>
      by_cases hphase : this.phase first = .assigned
      · rw [increments_cons_of_assigned hphase] at hinc ⊢
        exact ih hinc
      · rw [increments_cons_of_ne hphase] at hinc ⊢
        cases i with
        | zero =>
            injection hinc with hinc
            obtain ⟨rfl, htaken⟩ := Increment.mk.inj hinc
            rw [taken] at htaken
            split_ifs at htaken with hzero
            injection htaken with htaken
            cases hcase : this.phase first with
            | fresh => exact absurd ⟨hcase, htaken⟩ hzero
            | again => exact Or.inl rfl
            | assigned => exact absurd hcase hphase
        | succ i =>
            rcases ih hinc with hagain | ⟨j, hj, hnone⟩
            · rw [phase_next] at hagain
              split_ifs at hagain with hcall hnone
              · exact Or.inr ⟨0, Nat.succ_pos i, by rw [hcall, hnone]; rfl⟩
              · exact Or.inl hagain
            · exact Or.inr ⟨j + 1, Nat.succ_lt_succ hj, hnone⟩

/-- A call that nobody interrupts takes the packet id of the sequential encoder. -/
theorem increments_alone {call : C} (hfresh : this.phase call = .fresh) :
    (this.increments [call, call]).filterMap (·.id) =
        [(Header.allocPacketId this.gPacketId).1] ∧
      (this.run [call, call]).gPacketId = (Header.allocPacketId this.gPacketId).2 := by
  have hne : this.phase call ≠ .assigned := by simp [hfresh]
  rw [increments_cons_of_ne hne, run, List.foldl_cons, step_of_ne hne, Header.allocPacketId,
    ← idAt_zero]
  by_cases hzero : idAt this.gPacketId 0 = 0
  · have htaken : this.taken call = none := if_pos ⟨hfresh, hzero⟩
    have hagain : (this.next call).phase call = .again := by
      rw [phase_next, if_pos rfl, if_pos htaken]
    have hid : (this.next call).taken call = some (idAt (this.gPacketId + 1) 0) :=
      if_neg fun hand => by simp [hagain] at hand
    have hne' : (this.next call).phase call ≠ .assigned := by simp [hagain]
    rw [increments_cons_of_ne hne', List.foldl_cons, step_of_ne hne', if_pos hzero, ← idAt_zero,
      htaken, hid]
    exact ⟨rfl, rfl⟩
  · have htaken : this.taken call = some (idAt this.gPacketId 0) :=
      if_neg fun hand => hzero hand.2
    have hassigned : (this.next call).phase call = .assigned := by
      rw [phase_next, if_pos rfl, htaken, if_neg (by simp)]
    rw [increments_cons_of_assigned hassigned, List.foldl_cons, step_of_assigned hassigned,
      if_neg hzero, htaken]
    exact ⟨rfl, rfl⟩

/-! ## How far equal ids are apart -/

/-- The number of packet ids that are assigned between two increments. -/
def assignedBetween (increments : List (Increment C)) (i j : ℕ) : ℕ :=
  ((increments.drop (i + 1)).take (j - i - 1)).countP fun inc => inc.id.isSome

omit [DecidableEq C] in
theorem countP_le_one {p : Increment C → Bool} {l : List (Increment C)}
    (hpairs : l.Pairwise fun x y => p x = true → ¬ p y = true) : l.countP p ≤ 1 := by
  induction hpairs with
  | nil => exact Nat.zero_le _
  | @cons x l hx _ ih =>
      by_cases hp : p x = true
      · have hnone : l.countP p = 0 := List.countP_eq_zero.mpr fun y hy => hx y hy hp
        rw [List.countP_cons_of_pos hp, hnone]
      · rw [List.countP_cons_of_neg hp]
        exact ih

/-- Of 65535 increments in a row at most one assigns nothing. -/
theorem countP_none_le_one (this : Counter C) (schedule : List C) (i : ℕ) :
    (((this.increments schedule).drop i).take 65535).countP
      (fun inc => decide ¬ inc.id.isSome = true) ≤ 1 := by
  apply countP_le_one
  rw [List.pairwise_iff_getElem]
  intro a b ha hb hlt hnone hnone'
  have hzero : ∀ k (hk : k < (((this.increments schedule).drop i).take 65535).length),
      decide (¬ (((this.increments schedule).drop i).take 65535)[k].id.isSome = true) = true →
        idAt this.gPacketId (i + k) = 0 := by
    intro k hk hempty
    have hget : (this.increments schedule)[i + k]? =
        some (((this.increments schedule).drop i).take 65535)[k] := by
      rw [← List.getElem?_drop, List.getElem_take, ← List.getElem?_eq_getElem]
    rcases id_of_increments hget with hsome | ⟨-, hzero⟩
    · rw [hsome] at hempty
      exact absurd rfl (of_decide_eq_true hempty)
    · exact hzero
  have hsame := (hzero a ha hnone).trans (hzero b hb hnone').symm
  rw [idAt_eq_iff (by omega)] at hsame
  rw [List.length_take] at hb
  omega

/-- Two increments that assign the same id. -/
theorem assignedBetween_of_eq {schedule : List C} {i j : ℕ} {call other : C} {id : UInt16}
    (hlt : i < j) (hi : (this.increments schedule)[i]? = some ⟨call, some id⟩)
    (hj : (this.increments schedule)[j]? = some ⟨other, some id⟩) :
    65534 ≤ assignedBetween (this.increments schedule) i j := by
  have hid : ∀ {k c}, (this.increments schedule)[k]? = some ⟨c, some id⟩ →
      id = idAt this.gPacketId k := by
    intro k c hk
    rcases id_of_increments hk with hsome | ⟨hnone, -⟩
    · exact Option.some.inj hsome
    · cases hnone
  have hapart : 65536 ∣ j - i := (idAt_eq_iff hlt.le).mp ((hid hi).symm.trans (hid hj))
  have hlength : j < (this.increments schedule).length := (List.getElem?_eq_some_iff.mp hj).1
  -- The first 65535 increments after `i` are all in front of `j`.
  have hwindow : (((this.increments schedule).drop (i + 1)).take 65535).Sublist
      (((this.increments schedule).drop (i + 1)).take (j - i - 1)) :=
    (List.take_isPrefix_take.mpr (Or.inl (by omega))).sublist
  have hcount : (((this.increments schedule).drop (i + 1)).take 65535).length = _ :=
    List.length_eq_countP_add_countP fun inc => inc.id.isSome
  have hnone := this.countP_none_le_one schedule (i + 1)
  rw [List.length_take, List.length_drop] at hcount
  calc 65534 ≤ (((this.increments schedule).drop (i + 1)).take 65535).countP
        (fun inc => inc.id.isSome) := by omega
    _ ≤ assignedBetween (this.increments schedule) i j := hwindow.countP_le

/-- The packet id that is sent when the encoder has set `id`. -/
def sentId (header : Header) (id : UInt16) : ℕ := (header.setPacketId id).packetIdValue

theorem sentId_eq {header : Header} (hneeds : header.packetIdValue = 0) (id : UInt16) :
    sentId header id = id.toNat := by
  by_cases hid : id = 0
  · rw [sentId, hid, Header.setPacketId, if_pos rfl]
    exact hneeds
  · exact Header.packetIdValue_setPacketId header hid

/-- For every start of the counter and every interleaving: a packet id is zero exactly if its
call has drawn zero before and a multiple of 65536 increments, its own included, have happened
since, and any two packet ids with fewer than 65534 others assigned between them differ. -/
theorem sentId_spaced (header : C → Header) (hneeds : ∀ call, (header call).packetIdValue = 0)
    (gPacketId : UInt64) (schedule : List C) :
    (∀ i call id, ((start gPacketId).increments schedule)[i]? = some ⟨call, some id⟩ →
      (sentId (header call) id = 0 ↔ ∃ j < i,
        ((start gPacketId).increments schedule)[j]? = some ⟨call, none⟩ ∧ 65536 ∣ i - j)) ∧
    ∀ i j call other id id', i < j →
      ((start gPacketId).increments schedule)[i]? = some ⟨call, some id⟩ →
      ((start gPacketId).increments schedule)[j]? = some ⟨other, some id'⟩ →
      assignedBetween ((start gPacketId).increments schedule) i j < 65534 →
      sentId (header call) id ≠ sentId (header other) id' := by
  constructor
  · intro i call id hi
    have hid : id = idAt gPacketId i := by
      rcases id_of_increments hi with hsome | ⟨hnone, -⟩
      · exact Option.some.inj hsome
      · cases hnone
    have hzeroAt : ∀ {j}, ((start gPacketId).increments schedule)[j]? = some ⟨call, none⟩ →
        idAt gPacketId j = 0 := by
      intro j hj
      rcases id_of_increments hj with hsome | ⟨-, hzero⟩
      · cases hsome
      · exact hzero
    rw [sentId_eq (hneeds call), ← UInt16.toNat_zero, UInt16.toNat_inj]
    constructor
    · rintro rfl
      rcases exists_none_of_zero hi with hagain | ⟨j, hj, hnone⟩
      · cases hagain
      · exact ⟨j, hj, hnone, (idAt_eq_iff hj.le).mp ((hzeroAt hnone).trans hid)⟩
    · rintro ⟨j, hj, hnone, hapart⟩
      rw [hid, ← (idAt_eq_iff hj.le).mpr hapart]
      exact hzeroAt hnone
  · intro i j call other id id' hlt hi hj hfew
    rw [sentId_eq (hneeds call), sentId_eq (hneeds other), ne_eq, UInt16.toNat_inj]
    rintro rfl
    exact absurd (assignedBetween_of_eq hlt hi hj) (by omega)

/-! ## Calls that start one after the other -/

theorem increments_append (front back : List C) :
    this.increments (front ++ back) =
      this.increments front ++ (this.run front).increments back := by
  induction front generalizing this with
  | nil => rfl
  | cons call front ih =>
      rw [List.cons_append, increments, increments, ih, List.append_assoc]
      rfl

theorem run_cons_of_ne {call : C} (hphase : this.phase call ≠ .assigned) (schedule : List C) :
    this.run (call :: schedule) = (this.next call).run schedule := by
  rw [run, List.foldl_cons, step_of_ne hphase]
  rfl

theorem phase_run_of_notMem {call : C} {schedule : List C} (hnot : call ∉ schedule) :
    (this.run schedule).phase call = this.phase call := by
  induction schedule generalizing this with
  | nil => rfl
  | cons first schedule ih =>
      rw [List.mem_cons, not_or] at hnot
      obtain ⟨hne, hrest⟩ := hnot
      by_cases hphase : this.phase first = .assigned
      · rw [run, List.foldl_cons, step_of_assigned hphase]
        exact ih hrest
      · rw [run_cons_of_ne hphase, ih hrest, phase_next, if_neg hne]

/-- The first increment of one call after the other. -/
theorem started (this : Counter C) {calls : List C} (hnodup : calls.Nodup)
    (hfresh : ∀ call ∈ calls, this.phase call = .fresh) :
    (this.increments calls).length = calls.length ∧
      (∀ i, idAt (this.run calls).gPacketId i = idAt this.gPacketId (calls.length + i)) ∧
      ∀ i call, calls[i]? = some call →
        (this.increments calls)[i]? = some ⟨call,
          if idAt this.gPacketId i = 0 then none else some (idAt this.gPacketId i)⟩ ∧
        (this.run calls).phase call =
          if idAt this.gPacketId i = 0 then .again else .assigned := by
  induction calls generalizing this with
  | nil => exact ⟨rfl, fun i => by rw [List.length_nil, Nat.zero_add]; rfl, by simp⟩
  | cons first calls ih =>
      obtain ⟨hnot, hnodup⟩ := List.nodup_cons.mp hnodup
      have hfirst : this.phase first = .fresh := hfresh first List.mem_cons_self
      have htaken : this.taken first =
          if idAt this.gPacketId 0 = 0 then none else some (idAt this.gPacketId 0) := by
        rw [taken, hfirst]
        simp only [true_and]
      have hrest : ∀ call ∈ calls, (this.next first).phase call = .fresh := by
        intro call hmem
        rw [phase_next, if_neg fun heq : call = first => hnot (heq ▸ hmem)]
        exact hfresh call (List.mem_cons_of_mem _ hmem)
      obtain ⟨hlength, hcounter, hcalls⟩ := ih (this.next first) hnodup hrest
      have hne : this.phase first ≠ .assigned := by simp [hfirst]
      rw [increments_cons_of_ne hne, run_cons_of_ne hne]
      refine ⟨congrArg (· + 1) hlength, fun i => ?_, fun i call hcall => ?_⟩
      · rw [hcounter, List.length_cons, Nat.add_right_comm]
        exact idAt_succ _ _
      · cases i with
        | zero =>
            cases hcall
            rw [phase_run_of_notMem hnot, phase_next, if_pos rfl, htaken]
            refine ⟨rfl, ?_⟩
            split_ifs <;> simp_all
        | succ i =>
            rw [← idAt_succ]
            exact hcalls i call hcall

/-- When `n` calls have started and one of them has drawn zero, it draws again. -/
theorem drawsAgain (gPacketId : UInt64) {n first : ℕ} (hfirst : first < n)
    (hzero : idAt gPacketId first = 0) :
    ((start gPacketId).increments (List.range n ++ [first]))[n]? =
        some ⟨first, some (idAt gPacketId n)⟩ ∧
      ∀ i < n, ((start gPacketId).increments (List.range n ++ [first]))[i]? = some ⟨i,
        if idAt gPacketId i = 0 then none else some (idAt gPacketId i)⟩ := by
  obtain ⟨hlength, hcounter, hcalls⟩ :=
    (start gPacketId).started (List.nodup_range (n := n)) fun _ _ => rfl
  rw [List.length_range] at hlength
  have hagain : ((start gPacketId).run (List.range n)).phase first = .again := by
    rw [(hcalls first first (List.getElem?_range hfirst)).2]
    exact if_pos hzero
  have htaken : ((start gPacketId).run (List.range n)).taken first =
      some (idAt gPacketId n) := by
    rw [taken, hagain, if_neg (by simp), hcounter, List.length_range]
    rfl
  rw [increments_append, increments_cons_of_ne (by simp [hagain]), htaken]
  constructor
  · rw [List.getElem?_append_right hlength.le, hlength, Nat.sub_self]
    rfl
  · intro i hi
    rw [List.getElem?_append_left (hlength.symm ▸ hi)]
    exact (hcalls i i (List.getElem?_range hi)).1

omit [DecidableEq C] in
/-- Where an increment in between assigns nothing, one id less is assigned. -/
theorem assignedBetween_lt {l : List (Increment C)} {i j k : ℕ} {call : C} (hik : i < k)
    (hkj : k < j) (hnone : l[k]? = some ⟨call, none⟩) : assignedBetween l i j < j - i - 1 := by
  have hmem : ⟨call, none⟩ ∈ (l.drop (i + 1)).take (j - i - 1) := by
    apply List.mem_of_getElem? (i := k - i - 1)
    rw [List.getElem?_take_of_lt (by omega), List.getElem?_drop,
      show i + 1 + (k - i - 1) = k by omega]
    exact hnone
  have hcount : ((l.drop (i + 1)).take (j - i - 1)).length = _ :=
    List.length_eq_countP_add_countP fun inc => inc.id.isSome
  have hpos : 0 < ((l.drop (i + 1)).take (j - i - 1)).countP
      (fun inc => decide ¬ inc.id.isSome = true) :=
    List.countP_pos_iff.mpr ⟨_, hmem, rfl⟩
  rw [assignedBetween]
  have := List.length_take_le (j - i - 1) (l.drop (i + 1))
  omega

/-- 65536 calls after each other: the last one draws zero and then the id of the first, with
65534 ids between.  And the first of them draws zero, and zero again when all others have
started. -/
theorem repeated_and_zero :
    ((start 0).increments (List.range 65536 ++ [65535]))[0]? = some ⟨0, some 1⟩ ∧
    ((start 0).increments (List.range 65536 ++ [65535]))[65536]? = some ⟨65535, some 1⟩ ∧
    assignedBetween ((start 0).increments (List.range 65536 ++ [65535])) 0 65536 < 65535 ∧
    ((start 65535).increments (List.range 65536 ++ [0]))[65536]? = some ⟨0, some 0⟩ ∧
    sentId (newHeader .publish) 0 = 0 := by
  obtain ⟨hlast, hothers⟩ := drawsAgain 0 (show 65535 < 65536 by decide)
    (show idAt 0 65535 = 0 by decide)
  refine ⟨(hothers 0 (by decide)).trans (by decide), hlast.trans (by decide), ?_, ?_, rfl⟩
  · exact assignedBetween_lt (by decide) (by decide) (hothers 65535 (by decide))
  · exact (drawsAgain 65535 (show 0 < 65536 by decide) (show idAt 65535 0 = 0 by decide)).1

/-- Two new messages, whose calls take the ids 6 and 7. -/
theorem sentId_spaced_two :
    (∀ call : ℕ, ((fun _ : ℕ => newHeader .publish) call).packetIdValue = 0) ∧
    sentId (newHeader .publish) 6 ≠ sentId (newHeader .publish) 7 :=
  ⟨fun _ => rfl, (sentId_spaced (fun _ : ℕ => newHeader .publish) (fun _ => rfl) 5 [0, 1]).2
    0 1 0 1 6 7 (by decide) (by decide) (by decide) (by decide)⟩

end Counter

end Xmqtt.Message
