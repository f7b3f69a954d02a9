import Mathlib

/-!
# Runs

The rules by which a fact about one step becomes a fact about every run.
A total system is run with `List.foldl` over its labels.  In a system whose steps
may be disabled a run is a list of labels that are enabled one after the other;
an interleaving of several parties is such a list.
-/

namespace Xmqtt.Core

variable {State Label : Type*}

/-- A property that no step destroys and that some step of the run
establishes holds when the run has ended, wherever it started. -/
theorem foldl_settles {step : State → Label → State} (good : State → Prop)
    {calls : List Label} (state : State)
    (hkeep : ∀ state, good state → ∀ call ∈ calls, good (step state call))
    (hset : ∃ call ∈ calls, ∀ state, good (step state call)) :
    good (calls.foldl step state) := by
  induction calls generalizing state with
  | nil => simp at hset
  | cons call rest ih =>
      have hkeepRest : ∀ state, good state → ∀ call ∈ rest, good (step state call) :=
        fun state hgood call hmem => hkeep state hgood call (List.mem_cons_of_mem _ hmem)
      rw [List.foldl_cons]
      obtain ⟨setter, hmem, hgood⟩ := hset
      rcases List.mem_cons.mp hmem with rfl | hrest
      · exact List.foldlRecOn rest step (hgood state) hkeepRest
      · exact ih (step state call) hkeepRest ⟨setter, hrest, hgood⟩

/-! ## Steps that may be disabled -/

section Run

variable (step : State → Label → Option State)

/-- Take the steps one after the other. -/
def run (state : State) : List Label → Option State
  | [] => some state
  | label :: labels =>
      match step state label with
      | none => none
      | some next => run next labels

/-- Every step of the run meets the condition, in the state it is taken from. -/
def Along (cond : State → Label → Prop) (state : State) : List Label → Prop
  | [] => True
  | label :: labels =>
      cond state label ∧ ∀ next, step state label = some next → Along cond next labels

instance decidableAlong (cond : State → Label → Prop)
    [∀ state label, Decidable (cond state label)] :
    (state : State) → (labels : List Label) → Decidable (Along step cond state labels)
  | _, [] => isTrue trivial
  | state, label :: labels =>
      match hnext : step state label with
      | none => decidable_of_iff (cond state label) (by simp [Along, hnext])
      | some next =>
          have := decidableAlong cond next labels
          decidable_of_iff (cond state label ∧ Along step cond next labels)
            (by simp [Along, hnext])

variable {step} {state last : State} {label : Label} {labels : List Label}

theorem run_cons_eq_some_iff :
    run step state (label :: labels) = some last ↔
      ∃ next, step state label = some next ∧ run step next labels = some last := by
  rw [run]
  cases step state label with
  | none => simp
  | some next => simp

theorem along_of_forall {cond : State → Label → Prop}
    (hcond : ∀ label ∈ labels, ∀ state, cond state label) (state : State) :
    Along step cond state labels := by
  induction labels generalizing state with
  | nil => trivial
  | cons label labels ih =>
      refine ⟨hcond label List.mem_cons_self state, fun next _ => ?_⟩
      exact ih (fun label hmem => hcond label (List.mem_cons_of_mem _ hmem)) next

theorem Along.and {cond cond' : State → Label → Prop} (hcond : Along step cond state labels)
    (hcond' : Along step cond' state labels) :
    Along step (fun state label => cond state label ∧ cond' state label) state labels := by
  induction labels generalizing state with
  | nil => trivial
  | cons label labels ih =>
      refine ⟨⟨hcond.1, hcond'.1⟩, fun next hnext => ?_⟩
      exact ih (hcond.2 next hnext) (hcond'.2 next hnext)

/-- A run in two parts. -/
theorem Along.append {cond : State → Label → Prop} {first second : List Label}
    (hfirst : Along step cond state first)
    (hsecond : ∀ middle, run step state first = some middle → Along step cond middle second) :
    Along step cond state (first ++ second) := by
  induction first generalizing state with
  | nil => exact hsecond state rfl
  | cons label first ih =>
      refine ⟨hfirst.1, fun next hnext => ih (hfirst.2 next hnext) fun middle hmiddle => ?_⟩
      exact hsecond middle (run_cons_eq_some_iff.mpr ⟨next, hnext, hmiddle⟩)

theorem run_append {first second : List Label} {middle : State}
    (hfirst : run step state first = some middle) :
    run step state (first ++ second) = run step middle second := by
  induction first generalizing state with
  | nil =>
      injection hfirst with hmiddle
      rw [List.nil_append, hmiddle]
  | cons label first ih =>
      obtain ⟨next, hnext, hrest⟩ := run_cons_eq_some_iff.mp hfirst
      rw [List.cons_append, run, hnext]
      exact ih hrest

/-- What every step that meets the condition keeps, a whole run of such steps keeps. -/
theorem run_invariant {inv : State → Prop} {cond : State → Label → Prop}
    (hstep : ∀ state label next, inv state → cond state label →
      step state label = some next → inv next)
    (hstart : inv state) (halong : Along step cond state labels)
    (hrun : run step state labels = some last) : inv last := by
  induction labels generalizing state with
  | nil =>
      injection hrun with hlast
      exact hlast ▸ hstart
  | cons label labels ih =>
      obtain ⟨next, hnext, hrest⟩ := run_cons_eq_some_iff.mp hrun
      exact ih (hstep state label next hstart halong.1 hnext) (halong.2 next hnext) hrest

/-- What every step keeps, a whole run keeps. -/
theorem run_keeps {inv : State → Prop}
    (hstep : ∀ state label next, inv state → step state label = some next → inv next)
    (hstart : inv state) (hrun : run step state labels = some last) : inv last := by
  have hcond : ∀ state label next, inv state → True → step state label = some next → inv next :=
    fun state label next hinv _ => hstep state label next hinv
  exact run_invariant hcond hstart (along_of_forall (fun _ _ _ => trivial) state) hrun

end Run

end Xmqtt.Core
