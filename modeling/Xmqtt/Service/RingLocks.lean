import Xmqtt.Service.RingBuffer

/-!
# The locks of the ring buffer

The methods of `buffer.go` take the mutexes of two condition variables.  Here a call
is followed from one access to the next, with the mutexes that it holds.  What it sees
of the cursors and of `done` is up to the other goroutines.  The bytes are left out:
they are copied where no mutex is held.
-/

namespace Xmqtt.Service.RingLocks

open Xmqtt.Go RingBuffer

/-- The condition variables, each with its mutex `L`. -/
inductive Cond where
  | pcond
  | ccond
  deriving DecidableEq, Repr

/-- The mutexes that are held. -/
structure Locks where
  pcond : Bool
  ccond : Bool
  deriving DecidableEq, Repr

namespace Locks

def free : Locks := ⟨false, false⟩

def held (this : Locks) : Cond → Bool
  | .pcond => this.pcond
  | .ccond => this.ccond

def assign (this : Locks) (held : Bool) : Cond → Locks
  | .pcond => { this with pcond := held }
  | .ccond => { this with ccond := held }

/-- Only one mutex is held. -/
def only (cond : Cond) : Locks := free.assign true cond

theorem held_free (cond : Cond) : free.held cond = false := by cases cond <;> rfl

theorem assign_only (cond : Cond) : (only cond).assign false cond = free := by
  cases cond <;> rfl

theorem only_ne_free (cond : Cond) : only cond ≠ free := by cases cond <;> decide

end Locks

/-- What a call sees at one access. -/
structure Seen where
  cseq : Int64
  pseq : Int64
  done : Bool
  deriving DecidableEq, Repr

/-- What `waitForWriteSpace` is called by. -/
inductive Purpose where
  | none
  | write
  | writeWait
  | writeCommit
  deriving DecidableEq, Repr

/-- The loops that wait on a condition variable. -/
inductive Loop where
  | read (pl cpos : Int64)
  | readPeek (n cpos : Int64)
  | readWait (n cpos : Int64)
  | space (purpose : Purpose) (n ppos : Int64)
  deriving DecidableEq, Repr

/-- `lock.L.Lock(); broadcast.Broadcast(); lock.L.Unlock()`. -/
structure Signal where
  lock : Cond
  broadcast : Cond
  deriving DecidableEq, Repr

/-- Where a call is between two accesses. -/
inductive Point where
  | returned (n : Int64) (err : Option BufErr)
  /-- At the start of `Read`: about to look at `done`, and to load both cursors in `Len`. -/
  | enter (pl : Int64)
  | lenLoad (pl : Int64)
  | lenLook (pl cpos : Int64)
  /-- In the loop of `Read`: about to load `cseq` and `pseq`. -/
  | load (pl : Int64)
  | look (pl cpos : Int64)
  /-- In `ReadPeek`, `ReadWait` and `ReadCommit`: about to load `cseq` and `pseq`. -/
  | peekLoad (peek : Peek) (n : Int64)
  | peekLook (peek : Peek) (n cpos : Int64)
  | commitLoad (n : Int64)
  | commitLook (n cpos : Int64)
  /-- In `Write`: about to look at `done`. -/
  | write (n : Int64)
  /-- In `waitForWriteSpace`: about to look at `done` and to load `pseq`. -/
  | space (purpose : Purpose) (n : Int64)
  | spaceLoad (purpose : Purpose) (n : Int64)
  /-- About to lock and to start a loop, with the position if it is loaded before. -/
  | acquire (loop : Loop) (pos : Option Int64)
  /-- In a loop: about to load the position, and to look at `done`; in `Wait`; and about to
  unlock. -/
  | reload (loop : Loop)
  | stall (loop : Loop)
  | asleep (loop : Loop)
  | leave (loop : Loop) (pos : Int64)
  /-- About to store a cursor, or `done`. -/
  | store (pos n : Int64) (signal : Signal)
  | storeDone
  /-- About to lock and to broadcast, and about to unlock. -/
  | signal (first : Signal) (rest : List Signal) (n : Int64)
  | signalled (first : Signal) (rest : List Signal) (n : Int64)
  deriving DecidableEq, Repr

/-- The buffer and a call. -/
structure Call where
  size : Int64
  mask : Int64
  gate : Int64
  locks : Locks
  point : Point
  deriving DecidableEq, Repr

inductive Method where
  | read (p : Bytes)
  | write (p : Bytes)
  | readPeek (n : Int64)
  | readWait (n : Int64)
  | readCommit (n : Int64)
  | writeWait (n : Int64)
  | writeCommit (n : Int64)
  | waitForWriteSpace (n : Int64)
  | close
  deriving DecidableEq, Repr

namespace Loop

def cond : Loop → Cond
  | .read _ _ | .readPeek _ _ | .readWait _ _ => .ccond
  | .space _ _ _ => .pcond

/-- The position that is loaded in the loop. -/
def position (seen : Seen) : Loop → Int64
  | .read _ _ | .readPeek _ _ | .readWait _ _ => seen.pseq
  | .space _ _ _ => seen.cseq

/-- The condition of the loop. -/
def waits (size pos : Int64) : Loop → Bool
  | .read _ cpos => cpos ≥ pos
  | .readPeek _ cpos => cpos ≥ pos
  | .readWait n cpos => cpos + n > pos
  | .space _ n ppos => ppos + n - size > pos

end Loop

namespace Call

def goto (this : Call) (point : Point) : Call := { this with point := point }

/-- `Lock`, which does not return while the mutex is held. -/
def lock (this : Call) (cond : Cond) (point : Point) : Call :=
  if this.locks.held cond then this
  else { this with locks := this.locks.assign true cond, point := point }

def unlock (this : Call) (cond : Cond) (point : Point) : Call :=
  { this with locks := this.locks.assign false cond, point := point }

/-- A count that is checked at the start of `ReadPeek`, `ReadWait` and `ReadCommit`. -/
def checked (size n : Int64) (point : Point) : Point :=
  if n > size then .returned 0 (some .bufferFull)
  else if n < 0 then .returned 0 (some .negativeCount)
  else point

/-- The start of a method. -/
def entry (size : Int64) : Method → Point
  | .read p => .enter (Int64.ofNat p.length)
  | .write p => .write (Int64.ofNat p.length)
  | .readPeek n => checked size n (.peekLoad .readPeek n)
  | .readWait n => checked size n (.peekLoad .readWait n)
  | .readCommit n => checked size n (.commitLoad n)
  | .writeWait n => .space .writeWait n
  | .writeCommit n => .space .writeCommit n
  | .waitForWriteSpace n => .space .none n
  | .close => .storeDone

/-- Behind `waitForWriteSpace`. -/
def granted (this : Call) (n ppos : Int64) : Purpose → Point
  | .none => .returned n none
  | .write => .store (ppos + n) n ⟨.ccond, .ccond⟩
  | .writeWait =>
      let pstart := ppos &&& this.mask
      .returned (if pstart + n > this.size then this.size - pstart else n) none
  | .writeCommit => .store (ppos + n) n ⟨.ccond, .ccond⟩

/-- How many bytes `Read` copies into `pl` bytes, if there are any. -/
def readCount (this : Call) (pl cpos ppos : Int64) : Option Int64 :=
  let cindex := cpos &&& this.mask
  if cpos + pl < ppos then some (min pl (this.size - cindex))
  else if cpos < ppos then
    if cindex + (ppos - cpos) < this.size then some (min pl (ppos - cpos))
    else some (min pl (this.size - cindex))
  else none

/-- Behind a loop that has ended with a position. -/
def behind (this : Call) (pos : Int64) : Loop → Point
  | .read pl _ => .load pl
  | .readPeek n cpos =>
      let m := if pos - cpos ≥ n then n else pos - cpos
      if cpos + m ≤ pos then
        .returned m (if pos - cpos ≥ n then none else some .insufficientData)
      else .returned 0 (some .insufficientData)
  | .readWait n _ => .returned n none
  | .space purpose n ppos => this.granted n ppos purpose

/-- `waitForWriteSpace` remembers the position of the consumer. -/
def passGate (this : Call) (pos : Int64) : Loop → Call
  | .space _ _ _ => { this with gate := pos }
  | _ => this

/-- The condition of a loop is looked at. -/
def test (this : Call) (loop : Loop) (pos : Int64) : Point :=
  if loop.waits this.size pos then .stall loop else .leave loop pos

/-- The next access of the call. -/
def step (this : Call) (seen : Seen) : Call :=
  match this.point with
  | .returned _ _ => this
  | .enter pl => this.goto (if seen.done then .lenLoad pl else .load pl)
  | .lenLoad pl => this.goto (.lenLook pl seen.cseq)
  | .lenLook pl cpos =>
      this.goto (if seen.pseq - cpos = 0 then .returned 0 (some .eof) else .load pl)
  | .load pl => this.goto (.look pl seen.cseq)
  | .look pl cpos =>
      match this.readCount pl cpos seen.pseq with
      | some n => this.goto (.store (cpos + n) n ⟨.pcond, .pcond⟩)
      | none => this.goto (.acquire (.read pl cpos) none)
  | .peekLoad peek n => this.goto (.peekLook peek n seen.cseq)
  | .peekLook .readPeek n cpos => this.goto (.acquire (.readPeek n cpos) (some seen.pseq))
  | .peekLook .readWait n cpos => this.goto (.acquire (.readWait n cpos) (some seen.pseq))
  | .commitLoad n => this.goto (.commitLook n seen.cseq)
  | .commitLook n cpos =>
      this.goto (if cpos + n ≤ seen.pseq then .store (cpos + n) n ⟨.pcond, .pcond⟩
        else .returned 0 (some .insufficientData))
  | .write n => this.goto (if seen.done then .returned 0 (some .eof) else .space .write n)
  | .space purpose n =>
      this.goto (if seen.done then .returned 0 (some .eof) else .spaceLoad purpose n)
  | .spaceLoad purpose n =>
      if seen.pseq + n - this.size > this.gate ∨ this.gate > seen.pseq then
        this.goto (.acquire (.space purpose n seen.pseq) none)
      else this.goto (this.granted n seen.pseq purpose)
  | .acquire loop none => this.lock loop.cond (.reload loop)
  | .acquire loop (some pos) => this.lock loop.cond (this.test loop pos)
  | .reload loop => this.goto (this.test loop (loop.position seen))
  | .stall loop =>
      -- The return in the loop does not unlock.
      if seen.done then this.goto (.returned 0 (some .eof))
      else this.unlock loop.cond (.asleep loop)
  | .asleep loop => this.lock loop.cond (.reload loop)
  | .leave loop pos => (this.passGate pos loop).unlock loop.cond (this.behind pos loop)
  | .store _ n signal => this.goto (.signal signal [] n)
  | .storeDone => this.goto (.signal ⟨.pcond, .pcond⟩ [⟨.pcond, .ccond⟩] 0)
  | .signal first rest n => this.lock first.lock (.signalled first rest n)
  | .signalled first [] n => this.unlock first.lock (.returned n none)
  | .signalled first (next :: rest) n => this.unlock first.lock (.signal next rest n)

def run (this : Call) (looks : List Seen) : Call := looks.foldl step this

/-- A call that is about to start, with both mutexes free. -/
def start (size mask gate : Int64) (method : Method) : Call :=
  ⟨size, mask, gate, .free, entry size method⟩

/-- If the call has returned then both mutexes are free. -/
def Releases (this : Call) : Prop :=
  ∀ n err, this.point = .returned n err → this.locks = .free

/-- The call waits, and sees that the buffer is closed. -/
def SeesClosed (this : Call) (seen : Seen) : Prop :=
  seen.done = true ∧ ∃ loop, this.point = .stall loop

/-- At some time the buffer is closed while the call waits. -/
def ClosedWhileWaiting (this : Call) (looks : List Seen) : Prop :=
  ∃ front seen back, looks = front ++ seen :: back ∧ (this.run front).SeesClosed seen

/-! ## The mutexes that are held at each point -/

end Call

/-- The mutex that is held at a point, unless it was kept. -/
def Point.holds : Point → Locks
  | .reload loop | .stall loop | .leave loop _ => .only loop.cond
  | .signalled first _ _ => .only first.lock
  | _ => .free

/-- No loop lies ahead. -/
def Point.quick : Point → Bool
  | .returned _ _ | .commitLoad _ | .commitLook _ _ | .store _ _ _ | .storeDone
  | .signal _ _ _ | .signalled _ _ _ => true
  | _ => false

namespace Call

variable {this : Call} {seen : Seen}

/-- The call holds what it should. -/
def Orderly (this : Call) : Prop := this.locks = this.point.holds

theorem orderly_start (size mask gate : Int64) (method : Method) :
    (start size mask gate method).Orderly := by
  have hchecked : ∀ n point, point.holds = .free → (checked size n point).holds = .free := by
    intro n point hpoint
    rw [checked]
    split_ifs
    · rfl
    · rfl
    · exact hpoint
  cases method with
  | readPeek n | readWait n | readCommit n => exact (hchecked n _ rfl).symm
  | _ => rfl

theorem Orderly.goto (horderly : this.Orderly) {point : Point}
    (hpoint : point.holds = this.point.holds) : (this.goto point).Orderly :=
  Eq.trans horderly hpoint.symm

theorem Orderly.lock (horderly : this.Orderly) (hfree : this.point.holds = .free) {cond : Cond}
    {point : Point} (hpoint : point.holds = .only cond) : (this.lock cond point).Orderly := by
  have hlocks : this.locks = .free := Eq.trans horderly hfree
  rw [Call.lock, hlocks, Locks.held_free]
  exact hpoint.symm

theorem Orderly.unlock (horderly : this.Orderly) {cond : Cond}
    (hheld : this.point.holds = .only cond) {point : Point} (hpoint : point.holds = .free) :
    (this.unlock cond point).Orderly := by
  have hlocks : this.locks = .only cond := Eq.trans horderly hheld
  change this.locks.assign false cond = point.holds
  rw [hlocks, Locks.assign_only, hpoint]

theorem holds_test (this : Call) (loop : Loop) (pos : Int64) :
    (this.test loop pos).holds = .only loop.cond := by
  rw [test]
  split_ifs <;> rfl

theorem holds_granted (this : Call) (n ppos : Int64) (purpose : Purpose) :
    (this.granted n ppos purpose).holds = .free := by
  cases purpose <;> rfl

theorem holds_behind (this : Call) (pos : Int64) (loop : Loop) :
    (this.behind pos loop).holds = .free := by
  cases loop with
  | read pl cpos => rfl
  | readPeek n cpos =>
      rw [behind]
      split_ifs <;> rfl
  | readWait n cpos => rfl
  | space purpose n ppos => exact holds_granted this n ppos purpose

theorem Orderly.passGate (horderly : this.Orderly) (pos : Int64) (loop : Loop) :
    (this.passGate pos loop).Orderly ∧ (this.passGate pos loop).point = this.point := by
  cases loop <;> exact ⟨horderly, rfl⟩

/-- Every access keeps the mutexes in order, but for the return of a call that waits. -/
theorem Orderly.step (horderly : this.Orderly) (hopen : ¬ this.SeesClosed seen) :
    (this.step seen).Orderly := by
  have hgoto : ∀ point : Point, point.holds = this.point.holds → (this.goto point).Orderly :=
    fun _ => horderly.goto
  rw [Call.step]
  cases hpoint : this.point with
  | returned n err => exact horderly
  | enter pl | lenLook pl cpos | commitLook n cpos | write n | space purpose n =>
      exact hgoto _ (by rw [hpoint]; split_ifs <;> rfl)
  | lenLoad pl | load pl | peekLoad peek n | commitLoad n | store pos n signal
  | storeDone => exact hgoto _ (by rw [hpoint]; rfl)
  | look pl cpos =>
      dsimp only
      cases this.readCount pl cpos seen.pseq with
      | some n | none => exact hgoto _ (by rw [hpoint]; rfl)
  | peekLook peek n cpos =>
      cases peek with
      | readPeek | readWait => exact hgoto _ (by rw [hpoint]; rfl)
  | spaceLoad purpose n =>
      dsimp only
      split_ifs
      · exact hgoto _ (by rw [hpoint]; rfl)
      · exact hgoto _ (by rw [hpoint, holds_granted]; rfl)
  | acquire loop pos =>
      cases pos with
      | none => exact horderly.lock (by rw [hpoint]; rfl) rfl
      | some pos => exact horderly.lock (by rw [hpoint]; rfl) (holds_test _ _ _)
  | reload loop => exact hgoto _ (by rw [hpoint, holds_test]; rfl)
  | stall loop =>
      have hnot : ¬ seen.done = true := fun hdone => hopen ⟨hdone, loop, hpoint⟩
      dsimp only
      rw [if_neg hnot]
      exact horderly.unlock (by rw [hpoint]; rfl) rfl
  | asleep loop | signal first rest n => exact horderly.lock (by rw [hpoint]; rfl) rfl
  | leave loop pos =>
      obtain ⟨hpassed, hsame⟩ := horderly.passGate pos loop
      exact hpassed.unlock (by rw [hsame, hpoint]; rfl) (holds_behind _ _ _)
  | signalled first rest n =>
      cases rest with
      | nil | cons next rest => exact horderly.unlock (by rw [hpoint]; rfl) rfl

/-- The call returns and keeps the mutex of its loop. -/
theorem Orderly.step_of_closed (horderly : this.Orderly) (hclosed : this.SeesClosed seen) :
    ∃ cond, (this.step seen).point = .returned 0 (some .eof) ∧
      (this.step seen).locks = .only cond := by
  obtain ⟨hdone, loop, hpoint⟩ := hclosed
  refine ⟨loop.cond, ?_⟩
  rw [Call.step, hpoint]
  dsimp only
  rw [if_pos hdone]
  refine ⟨rfl, Eq.trans horderly ?_⟩
  rw [hpoint]
  rfl

theorem run_of_returned {n : Int64} {err : Option BufErr} (hpoint : this.point = .returned n err)
    (looks : List Seen) : this.run looks = this := by
  induction looks with
  | nil => rfl
  | cons seen looks ih =>
      have hstep : this.step seen = this := by rw [Call.step, hpoint]
      rw [run, List.foldl_cons, hstep]
      exact ih

/-- A closed buffer is seen at once or later. -/
theorem closedWhileWaiting_cons_iff {looks : List Seen} :
    this.ClosedWhileWaiting (seen :: looks) ↔
      this.SeesClosed seen ∨ (this.step seen).ClosedWhileWaiting looks := by
  constructor
  · rintro ⟨front, later, back, hlooks, hclosed⟩
    cases front with
    | nil =>
        obtain ⟨rfl, -⟩ := List.cons.inj hlooks
        exact Or.inl hclosed
    | cons first front =>
        obtain ⟨rfl, hrest⟩ := List.cons.inj hlooks
        exact Or.inr ⟨front, later, back, hrest, hclosed⟩
  · rintro (hclosed | ⟨front, later, back, rfl, hclosed⟩)
    · exact ⟨[], seen, looks, rfl, hclosed⟩
    · exact ⟨seen :: front, later, back, rfl, hclosed⟩

/-- What one access does, over a whole run. -/
theorem Orderly.releases_run_iff (horderly : this.Orderly) (looks : List Seen) :
    (this.run looks).Releases ↔ ¬ this.ClosedWhileWaiting looks := by
  induction looks generalizing this with
  | nil =>
      refine iff_of_true (fun n err hpoint => ?_) ?_
      · have hreturned : this.point = .returned n err := hpoint
        refine Eq.trans horderly ?_
        rw [hreturned]
        rfl
      · rintro ⟨front, seen, back, hlooks, -⟩
        simp at hlooks
  | cons seen looks ih =>
      rw [closedWhileWaiting_cons_iff]
      by_cases hclosed : this.SeesClosed seen
      · obtain ⟨cond, hpoint, hlocks⟩ := horderly.step_of_closed hclosed
        refine iff_of_false (fun hreleases => ?_) (not_not.mpr (Or.inl hclosed))
        have hrun : this.run (seen :: looks) = this.step seen := run_of_returned hpoint looks
        rw [hrun] at hreleases
        exact Locks.only_ne_free cond (hlocks.symm.trans (hreleases _ _ hpoint))
      · rw [or_iff_right hclosed]
        exact ih (horderly.step hclosed)

/-- For every buffer, every method with every argument and whatever the call sees: if it has
returned then both mutexes are free, if and only if the buffer was never closed while the call
was waiting. -/
theorem releases_iff (size mask gate : Int64) (method : Method) (looks : List Seen) :
    ((start size mask gate method).run looks).Releases ↔
      ¬ (start size mask gate method).ClosedWhileWaiting looks :=
  (orderly_start size mask gate method).releases_run_iff looks

/-! ## The methods that do not wait -/

theorem quick_lock {cond : Cond} {point : Point} (hthis : this.point.quick = true)
    (hpoint : point.quick = true) : (this.lock cond point).point.quick = true := by
  rw [Call.lock]
  split_ifs
  · exact hthis
  · exact hpoint

theorem quick_step (hquick : this.point.quick = true) (seen : Seen) :
    (this.step seen).point.quick = true := by
  rw [Call.step]
  cases hpoint : this.point with
  | returned n err => exact hquick
  | commitLoad n => rfl
  | commitLook n cpos =>
      change (ite _ _ _ : Point).quick = true
      split_ifs <;> rfl
  | store pos n signal => rfl
  | storeDone => rfl
  | signal first rest n => exact quick_lock hquick rfl
  | signalled first rest n => cases rest <;> rfl
  | _ =>
      rw [hpoint] at hquick
      cases hquick

theorem not_closedWhileWaiting_of_quick (hquick : this.point.quick = true)
    (looks : List Seen) : ¬ this.ClosedWhileWaiting looks := by
  rintro ⟨front, seen, back, -, -, loop, hstall⟩
  have hrun : (this.run front).point.quick = true := by
    induction front generalizing this with
    | nil => exact hquick
    | cons first front ih => exact ih (quick_step hquick first) hstall
  rw [hstall] at hrun
  cases hrun

/-- `ReadCommit` and `Close` never wait, and so always release what they lock. -/
theorem releases_of_quick (size mask gate : Int64) {method : Method}
    (hquick : (entry size method).quick = true) (looks : List Seen) :
    ((start size mask gate method).run looks).Releases :=
  ((orderly_start size mask gate method).releases_run_iff looks).mpr
    (not_closedWhileWaiting_of_quick hquick looks)

theorem quick_readCommit (size n : Int64) : (entry size (.readCommit n)).quick = true := by
  rw [entry, checked]
  split_ifs <;> rfl

example : (entry 262144 .close).quick = true := rfl

/-! ## What a kept mutex does -/

/-- The call is about to lock a mutex that is held. -/
def Blocked (this : Call) : Prop :=
  (∃ loop pos, this.point = .acquire loop pos ∧ this.locks.held loop.cond = true) ∨
    ∃ first rest n, this.point = .signal first rest n ∧ this.locks.held first.lock = true

/-- It never returns. -/
theorem Blocked.run_eq (hblocked : this.Blocked) (looks : List Seen) : this.run looks = this := by
  have hstep : ∀ seen, this.step seen = this := by
    intro seen
    rw [Call.step]
    rcases hblocked with ⟨loop, pos, hpoint, hheld⟩ | ⟨first, rest, n, hpoint, hheld⟩
    · rw [hpoint]
      cases pos with
      | none | some pos => exact if_pos hheld
    · rw [hpoint]
      exact if_pos hheld
  induction looks with
  | nil => rfl
  | cons seen looks ih =>
      rw [run, List.foldl_cons, hstep]
      exact ih

/-- An empty buffer that is open five times and then closed. -/
def closedAtLast : List Seen := List.replicate 5 ⟨0, 0, false⟩ ++ [⟨0, 0, true⟩]

/-- A full buffer that is open four times and then closed. -/
def fullAndClosed : List Seen := List.replicate 4 ⟨0, 262144, false⟩ ++ [⟨0, 262144, true⟩]

/-- `Read` waits for data and keeps `ccond.L` when the buffer is closed.  `WriteCommit` waits for
space and keeps `pcond.L`, and the `Close` that has woken it does not get its mutex for the
second time. -/
theorem closed_keeps_lock :
    (start 262144 262143 0 (.read [0])).run closedAtLast =
      ⟨262144, 262143, 0, ⟨false, true⟩, .returned 0 (some .eof)⟩ ∧
    (start 262144 262143 0 (.writeCommit 1)).run fullAndClosed =
      ⟨262144, 262143, 0, ⟨true, false⟩, .returned 0 (some .eof)⟩ ∧
    ((start 262144 262143 0 .close).run (List.replicate 3 ⟨0, 262144, true⟩)).point =
      .signal ⟨.pcond, .ccond⟩ [] 0 ∧
    ∀ looks, ((⟨262144, 262143, 0, ⟨true, false⟩, .signal ⟨.pcond, .ccond⟩ [] 0⟩ : Call).run
      looks).point = .signal ⟨.pcond, .ccond⟩ [] 0 := by
  refine ⟨by decide +kernel, by decide +kernel, by decide +kernel, fun looks => ?_⟩
  rw [Blocked.run_eq (Or.inr ⟨_, _, _, rfl, rfl⟩)]

end Call

end Xmqtt.Service.RingLocks
