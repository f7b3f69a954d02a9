import Xmqtt.Go.Slice

/-!
# Two runs of one call

Two calls end alike when both return, with the same count and the same error,
in states that a relation connects, or when both panic.  The relation may
depend on the count: what has been written so far is part of it.  Calls that
end alike are chained with `andThen`.

One call follows another when it ends as the other does wherever that does not panic.
-/

namespace Xmqtt.Go.Outcome

variable {ε σ τ : Type} {rel : ℕ → σ → σ → Prop}

/-- Both calls end in the same way, in related states. -/
def Alike (rel : ℕ → σ → σ → Prop) : Outcome ε σ → Outcome ε σ → Prop
  | done left n, done right m => n = m ∧ rel n left right
  | fail left n err, fail right m err' => n = m ∧ err = err' ∧ rel n left right
  | panic, panic => True
  | _, _ => False

theorem alike_done_iff {left right : σ} {n m : ℕ} :
    Alike rel (done left n : Outcome ε σ) (done right m) ↔ n = m ∧ rel n left right :=
  Iff.rfl

theorem alike_done {left right : σ} {n : ℕ} (hrel : rel n left right) :
    Alike rel (done left n : Outcome ε σ) (done right n) :=
  ⟨rfl, hrel⟩

theorem alike_fail {left right : σ} {n : ℕ} (err : ε) (hrel : rel n left right) :
    Alike rel (fail left n err) (fail right n err) :=
  ⟨rfl, rfl, hrel⟩

theorem alike_panic : Alike rel (panic : Outcome ε σ) panic :=
  trivial

/-- Calls that end alike hand over to calls that end alike. -/
theorem Alike.andThen {first first' : Outcome ε σ} {next next' : σ → ℕ → Outcome ε σ}
    (hfirst : Alike rel first first')
    (hnext : ∀ left right n, rel n left right → Alike rel (next left n) (next' right n)) :
    Alike rel (first.andThen next) (first'.andThen next') := by
  cases first with
  | done left n =>
      cases first' with
      | done right m =>
          obtain ⟨rfl, hrel⟩ := hfirst
          exact hnext left right n hrel
      | fail right m err | panic => exact hfirst.elim
  | fail left n err =>
      cases first' with
      | done right m | panic => exact hfirst.elim
      | fail right m err' => exact hfirst
  | panic =>
      cases first' with
      | done right m | fail right m err => exact hfirst.elim
      | panic => exact trivial

theorem Alike.mono {rel' : ℕ → σ → σ → Prop} {first first' : Outcome ε σ}
    (halike : Alike rel first first')
    (hrel : ∀ n left right, rel n left right → rel' n left right) :
    Alike rel' first first' := by
  cases first with
  | done left n =>
      cases first' with
      | done right m => exact ⟨halike.1, hrel _ _ _ halike.2⟩
      | fail right m err | panic => exact halike.elim
  | fail left n err =>
      cases first' with
      | done right m | panic => exact halike.elim
      | fail right m err' => exact ⟨halike.1, halike.2.1, hrel _ _ _ halike.2.2⟩
  | panic =>
      cases first' with
      | done right m | fail right m err => exact halike.elim
      | panic => exact trivial

/-- A change of state that the relation reflects does not change how calls end. -/
theorem alike_map_iff {rel' : ℕ → τ → τ → Prop} {f g : σ → τ}
    (hrel : ∀ n left right, rel' n (f left) (g right) ↔ rel n left right)
    {first first' : Outcome ε σ} :
    Alike rel' (first.map f) (first'.map g) ↔ Alike rel first first' := by
  cases first <;> cases first' <;> simp only [map, Alike, hrel]

/-! ## Calls that follow each other -/

/-- Unless the first call panics, both return with the same error, or both succeed, with the
same count and in related states. -/
def Follows (rel : σ → σ → Prop) : Outcome ε σ → Outcome ε σ → Prop
  | done left n, done right m => n = m ∧ rel left right
  | fail _ _ err, fail _ _ err' => err = err'
  | panic, _ => True
  | _, _ => False

theorem follows_done {rel : σ → σ → Prop} {left right : σ} (n : ℕ) (hrel : rel left right) :
    Follows rel (done left n : Outcome ε σ) (done right n) :=
  ⟨rfl, hrel⟩

/-- The next calls may connect their states by another relation. -/
theorem Follows.andThen {rel rel' : σ → σ → Prop} {first first' : Outcome ε σ}
    {next next' : σ → ℕ → Outcome ε σ} (hfirst : Follows rel first first')
    (hnext : ∀ left right n, rel left right → Follows rel' (next left n) (next' right n)) :
    Follows rel' (first.andThen next) (first'.andThen next') := by
  cases first with
  | done left n =>
      cases first' with
      | done right m =>
          obtain ⟨rfl, hrel⟩ := hfirst
          exact hnext left right n hrel
      | fail | panic => exact hfirst.elim
  | fail left n err =>
      cases first' with
      | fail right m err' => exact hfirst
      | done | panic => exact hfirst.elim
  | panic => exact trivial

theorem Follows.map {rel : σ → σ → Prop} {first first' : Outcome ε σ}
    (hfollows : Follows rel first first') (f g : σ → τ) (rel' : τ → τ → Prop)
    (hrel : ∀ left right, rel left right → rel' (f left) (g right)) :
    Follows rel' (first.map f) (first'.map g) := by
  cases first with
  | done left n =>
      cases first' with
      | done right m => exact ⟨hfollows.1, hrel _ _ hfollows.2⟩
      | fail | panic => exact hfollows.elim
  | fail left n err =>
      cases first' with
      | fail right m err' => exact hfollows
      | done | panic => exact hfollows.elim
  | panic => exact trivial

theorem follows_reject (rel : σ → σ → Prop) {cond cond' : Bool} {err err' : ε}
    {left right : σ} {n : ℕ} (hcond : cond = cond') (herr : err = err')
    (hrel : rel left right) : Follows rel (reject cond err left n) (reject cond' err' right n) := by
  subst hcond herr
  cases cond with
  | true => exact rfl
  | false => exact ⟨rfl, hrel⟩

theorem follows_failOn (rel : σ → σ → Prop) {check check' : Option ε} {left right : σ}
    {n : ℕ} (hcheck : check = check') (hrel : rel left right) :
    Follows rel (failOn check left n) (failOn check' right n) := by
  subst hcheck
  cases check with
  | some err => exact rfl
  | none => exact ⟨rfl, hrel⟩

theorem Follows.exists_done {rel : σ → σ → Prop} {first second : Outcome ε σ}
    (hfollows : Follows rel first second) {left : σ} {n : ℕ} (hdone : first = done left n) :
    ∃ right, second = done right n ∧ rel left right := by
  subst hdone
  cases second with
  | done right m =>
      obtain ⟨rfl, hrel⟩ := hfollows
      exact ⟨right, rfl, hrel⟩
  | fail | panic => exact hfollows.elim

theorem Follows.exists_fail {rel : σ → σ → Prop} {first second : Outcome ε σ}
    (hfollows : Follows rel first second) {left : σ} {n : ℕ} {err : ε}
    (hfail : first = fail left n err) : ∃ right m, second = fail right m err := by
  subst hfail
  cases second with
  | fail right m err' =>
      obtain rfl := hfollows
      exact ⟨right, m, rfl⟩
  | done | panic => exact hfollows.elim

theorem Follows.panic_or_done {rel : σ → σ → Prop} {first second : Outcome ε σ}
    (hfollows : Follows rel first second) {right : σ} {n : ℕ} (hdone : second = done right n) :
    first = panic ∨ ∃ left, first = done left n ∧ rel left right := by
  subst hdone
  cases first with
  | done left m =>
      obtain ⟨rfl, hrel⟩ := hfollows
      exact .inr ⟨left, rfl, hrel⟩
  | fail => exact hfollows.elim
  | panic => exact .inl rfl

theorem Follows.panic_or_fail {rel : σ → σ → Prop} {first second : Outcome ε σ}
    (hfollows : Follows rel first second) {right : σ} {n : ℕ} {err : ε}
    (hfail : second = fail right n err) : first = panic ∨ ∃ left m, first = fail left m err := by
  subst hfail
  cases first with
  | done => exact hfollows.elim
  | fail left m err' =>
      obtain rfl := hfollows
      exact .inr ⟨left, m, rfl⟩
  | panic => exact .inl rfl

/-- What a call that succeeds shows of the state it ends in. -/
def result (f : σ → τ) : Outcome ε σ → Option τ
  | done state _ => some (f state)
  | _ => none

theorem result_eq_some_iff {f : σ → τ} {outcome : Outcome ε σ} {shown : τ} :
    outcome.result f = some shown ↔ ∃ state n, outcome = done state n ∧ f state = shown := by
  cases outcome <;> simp [result]

/-- Calls that follow each other show the same. -/
theorem result_eq_of_follows {f : σ → τ} {first second : Outcome ε σ}
    (hfirst : Follows (fun left right => f left = f right) first second)
    (hsecond : Follows (fun left right => f left = f right) second first) :
    first.result f = second.result f := by
  cases first with
  | done left n =>
      obtain ⟨right, rfl, hsame⟩ := hfirst.exists_done rfl
      exact congrArg some hsame
  | fail left n err | panic =>
      cases second with
      | done right m => exact hsecond.elim
      | fail | panic => rfl

end Xmqtt.Go.Outcome
