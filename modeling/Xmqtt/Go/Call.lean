import Mathlib

/-!
# Go calls on shared state

A call returns a value or panics.  What it has done to the shared state before the
panic stays done, also when a deferred handler recovers.
-/

namespace Xmqtt.Go

/-- How a call ends, with the state it leaves. -/
inductive Call (σ α : Type) where
  | returned (state : σ) (value : α)
  | panicked (state : σ)

namespace Call

variable {σ α β : Type}

def state : Call σ α → σ
  | returned state _ => state
  | panicked state => state

/-- What a call returns, if it returns. -/
def value? : Call σ α → Option α
  | returned _ value => some value
  | panicked _ => none

def andThen (call : Call σ α) (next : σ → α → Call σ β) : Call σ β :=
  match call with
  | returned state value => next state value
  | panicked state => panicked state

/-- A function without a result that defers a handler which recovers. -/
def recovered (call : Call σ Unit) : Call σ Unit := returned call.state ()

@[simp]
theorem state_returned (state : σ) (value : α) : (returned state value).state = state := rfl

@[simp]
theorem state_panicked (state : σ) : (panicked state : Call σ α).state = state := rfl

@[simp]
theorem returned_andThen (state : σ) (value : α) (next : σ → α → Call σ β) :
    (returned state value).andThen next = next state value := rfl

@[simp]
theorem panicked_andThen (state : σ) (next : σ → α → Call σ β) :
    (panicked state).andThen next = panicked state := rfl

/-- What holds of the state in which a call ends and is kept by the next one holds when both
have ended, panic or not. -/
theorem state_andThen {P : σ → Prop} {call : Call σ α} {next : σ → α → Call σ β}
    (hcall : P call.state) (hnext : ∀ state value, P state → P (next state value).state) :
    P (call.andThen next).state := by
  cases call with
  | returned state value => exact hnext state value hcall
  | panicked state => exact hcall

end Call

end Xmqtt.Go
