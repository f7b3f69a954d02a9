import Xmqtt.Core.Run
import Xmqtt.Message.Header

/-!
# Timers of published messages

`publish` starts a timer for every QoS 1 message and gives it what `copier.Copy` of
the message into another one has made.  That function is a parameter here.  It
cannot set the fields of a `PublishMessage`, which are not exported, so the
callback never sees the packet id that was sent.  A copy of all fields would share
the array of the packet id with the message, which `PMPoolPut` clears.
-/

namespace Xmqtt.Service

open Xmqtt.Core Xmqtt.Message

/-- A pointer to a `PublishMessage`: one of the pool of the server, for `PushMsg`, or one of the
pool of the service, for the copies. -/
inductive MessageRef where
  | pushed (n : ℕ)
  | copied (n : ℕ)
  deriving DecidableEq, Repr

/-- What `copier.Copy` makes of the packet id slice of its destination and that of its source.
A slice is known by its array. -/
abbrev Copier := Option ℕ → Option ℕ → Option ℕ

/-- Reflection cannot set a field of another package that is not exported. -/
def Copier.Leaves (copier : Copier) : Prop := ∀ dst src, copier dst src = dst

/-- Every field is assigned. -/
def Copier.Shares (copier : Copier) : Prop := ∀ dst src, copier dst src = src

/-! ## Messages that share their packet ids -/

/-- `packetIds` gives the array of each message's packet id, if it has one, and `arrays` the
number in each array.  A message that is not allocated yet has no packet id. -/
structure Heap where
  nextArray : ℕ
  arrays : ℕ → UInt16
  nextMessage : ℕ
  packetIds : MessageRef → Option ℕ
  gPacketId : UInt64

namespace Heap

def packetId (heap : Heap) (msg : MessageRef) : UInt16 :=
  match heap.packetIds msg with
  | some array => heap.arrays array
  | none => 0

/-- `SetPacketId` with another number than zero. -/
def setPacketId (heap : Heap) (msg : MessageRef) (v : UInt16) : Heap :=
  match heap.packetIds msg with
  | some array => { heap with arrays := Function.update heap.arrays array v }
  | none =>
      { heap with
        nextArray := heap.nextArray + 1
        arrays := Function.update heap.arrays heap.nextArray v
        packetIds := Function.update heap.packetIds msg (some heap.nextArray) }

def clearPacketId (heap : Heap) (msg : MessageRef) : Heap :=
  match heap.packetIds msg with
  | some array => { heap with arrays := Function.update heap.arrays array 0 }
  | none => heap

/-- `Encode` of a QoS 1 message. -/
def encode (heap : Heap) (msg : MessageRef) : Heap :=
  if heap.packetId msg = 0 then
    { heap with gPacketId := (Header.allocPacketId heap.gPacketId).2 }.setPacketId msg
      (Header.allocPacketId heap.gPacketId).1
  else heap

def copy (heap : Heap) (copier : Copier) (copyMsg msg : MessageRef) : Heap :=
  { heap with
    packetIds := Function.update heap.packetIds copyMsg
      (copier (heap.packetIds copyMsg) (heap.packetIds msg)) }

/-- `PMPoolGet`: an object of the pool, or a new one. -/
def get (heap : Heap) (pool : List ℕ) (choice : ℕ) : ℕ × List ℕ × Heap :=
  match pool[choice]? with
  | some msg => (msg, pool.eraseIdx choice, heap)
  | none => (heap.nextMessage, pool, { heap with nextMessage := heap.nextMessage + 1 })

section PacketId

variable {heap : Heap} {msg copyMsg : MessageRef}

theorem packetId_setPacketId {v : UInt16} : (heap.setPacketId msg v).packetId msg = v := by
  cases hid : heap.packetIds msg with
  | none | some array => simp [setPacketId, packetId, hid]

theorem packetId_encode_ne_zero : (heap.encode msg).packetId msg ≠ 0 := by
  rw [encode]
  split
  case isTrue hzero =>
    rw [packetId_setPacketId]
    exact Header.allocPacketId_ne_zero heap.gPacketId
  case isFalse hid => exact hid

theorem encode_of_packetId (hid : heap.packetId msg ≠ 0) : heap.encode msg = heap :=
  if_neg hid

theorem packetId_of_shared (hshared : heap.packetIds copyMsg = heap.packetIds msg) :
    heap.packetId copyMsg = heap.packetId msg := by
  rw [packetId, packetId, hshared]

theorem packetId_eq_zero (hnone : heap.packetIds msg = none) : heap.packetId msg = 0 := by
  rw [packetId, hnone]

theorem clearPacketId_eq (hnone : heap.packetIds msg = none) : heap.clearPacketId msg = heap := by
  rw [clearPacketId, hnone]

/-- Only the message itself gets a packet id. -/
theorem packetIds_encode {other : MessageRef} (hother : other ≠ msg) :
    (heap.encode msg).packetIds other = heap.packetIds other := by
  rw [encode]
  split
  · rw [setPacketId]
    split
    · rfl
    · exact Function.update_of_ne hother _ _
  · rfl

theorem packetIds_clearPacketId : (heap.clearPacketId msg).packetIds = heap.packetIds := by
  rw [clearPacketId]
  split <;> rfl

theorem packetIds_get (pool : List ℕ) (choice : ℕ) (msg : MessageRef) :
    (heap.get pool choice).2.2.packetIds msg = heap.packetIds msg := by
  rw [get]
  split <;> rfl

theorem packetId_get (pool : List ℕ) (choice : ℕ) :
    (heap.get pool choice).2.2.packetId msg = heap.packetId msg := by
  rw [get]
  split <;> rfl

section Copy

variable {copier : Copier} {n m : ℕ}

theorem copy_of_leaves (hleaves : copier.Leaves) : heap.copy copier copyMsg msg = heap := by
  rw [copy, hleaves, Function.update_eq_self]

theorem packetIds_copy_self (hshares : copier.Shares) :
    (heap.copy copier copyMsg msg).packetIds copyMsg = heap.packetIds msg :=
  (Function.update_self _ _ _).trans (hshares _ _)

theorem packetIds_copy :
    (heap.copy copier (.copied n) (.pushed m)).packetIds (.pushed m) =
      heap.packetIds (.pushed m) := by
  simp [copy]

theorem packetId_copy :
    (heap.copy copier (.copied n) (.pushed m)).packetId (.pushed m) =
      heap.packetId (.pushed m) := by
  rw [packetId, packetIds_copy]
  rfl

end Copy

end PacketId

end Heap

/-! ## The time wheel -/

/-- A timer, with the copy that it was given and the packet id that was sent. -/
structure Task where
  serial : ℕ
  copyMsg : ℕ
  sent : UInt16
  deriving DecidableEq, Repr

/-- A task is `pending`, then its callback has `loaded` a key and then `deleted` it. -/
structure Wheel where
  nextTask : ℕ
  pending : List Task
  loaded : List Task
  deleted : List Task
  deriving DecidableEq, Repr

namespace Wheel

/-- The task of the next `Add`. -/
def newTask (wheel : Wheel) (copyMsg : ℕ) (sent : UInt16) : Task :=
  ⟨wheel.nextTask, copyMsg, sent⟩

def add (wheel : Wheel) (copyMsg : ℕ) (sent : UInt16) : Wheel :=
  { wheel with
    nextTask := wheel.nextTask + 1
    pending := wheel.pending ++ [wheel.newTask copyMsg sent] }

def remove (wheel : Wheel) (serial : ℕ) : Wheel :=
  { wheel with pending := wheel.pending.filter (·.serial ≠ serial) }

def load (wheel : Wheel) (task : Task) : Wheel :=
  { wheel with pending := wheel.pending.erase task, loaded := task :: wheel.loaded }

def delete (wheel : Wheel) (task : Task) : Wheel :=
  { wheel with loaded := wheel.loaded.erase task, deleted := task :: wheel.deleted }

def release (wheel : Wheel) (task : Task) : Wheel :=
  { wheel with deleted := wheel.deleted.erase task }

/-- The tasks whose callbacks will still read a packet id. -/
def reading (wheel : Wheel) : List Task :=
  wheel.pending ++ wheel.loaded

def tasks (wheel : Wheel) : List Task :=
  wheel.reading ++ wheel.deleted

/-- No task is in two places, and serials are new. -/
structure Scheduled (wheel : Wheel) : Prop where
  nodup : wheel.tasks.Nodup
  serial_lt : ∀ task ∈ wheel.tasks, task.serial < wheel.nextTask

section Scheduled

variable {wheel next : Wheel} {task : Task}

theorem Scheduled.of_subperm (hscheduled : wheel.Scheduled)
    (htasks : next.tasks.Subperm wheel.tasks) (hnext : next.nextTask = wheel.nextTask) :
    next.Scheduled where
  nodup := by
    obtain ⟨tasks, hperm, hsub⟩ := htasks
    exact hperm.nodup_iff.mp (hscheduled.nodup.sublist hsub)
  serial_lt := by
    intro task hmem
    rw [hnext]
    exact hscheduled.serial_lt task (htasks.subset hmem)

theorem tasks_add (wheel : Wheel) (copyMsg : ℕ) (sent : UInt16) :
    (wheel.add copyMsg sent).tasks.Perm (wheel.newTask copyMsg sent :: wheel.tasks) := by
  simp only [tasks, reading, Wheel.add, List.append_assoc]
  exact List.perm_middle

theorem Scheduled.add (hscheduled : wheel.Scheduled) (copyMsg : ℕ) (sent : UInt16) :
    (wheel.add copyMsg sent).Scheduled := by
  have hperm := wheel.tasks_add copyMsg sent
  have hnew : wheel.newTask copyMsg sent ∉ wheel.tasks :=
    fun hmem => (hscheduled.serial_lt _ hmem).ne rfl
  constructor
  case nodup => exact hperm.nodup_iff.mpr (List.nodup_cons.mpr ⟨hnew, hscheduled.nodup⟩)
  case serial_lt =>
    intro task hmem
    rcases List.mem_cons.mp (hperm.mem_iff.mp hmem) with rfl | hold
    · exact Nat.lt_succ_self _
    · exact (hscheduled.serial_lt task hold).trans (Nat.lt_succ_self _)

theorem Scheduled.remove (hscheduled : wheel.Scheduled) (serial : ℕ) :
    (wheel.remove serial).Scheduled := by
  refine hscheduled.of_subperm ?_ rfl
  exact ((List.filter_sublist.append_right _).append_right _).subperm

theorem tasks_load (wheel : Wheel) (hmem : task ∈ wheel.pending) :
    (wheel.load task).tasks.Perm wheel.tasks :=
  (List.perm_middle.trans ((List.perm_cons_erase hmem).symm.append_right _)).append_right _

theorem Scheduled.load (hscheduled : wheel.Scheduled) (hmem : task ∈ wheel.pending) :
    (wheel.load task).Scheduled :=
  hscheduled.of_subperm (wheel.tasks_load hmem).subperm rfl

theorem tasks_delete (wheel : Wheel) (hmem : task ∈ wheel.loaded) :
    (wheel.delete task).tasks.Perm wheel.tasks := by
  have hloaded := List.perm_cons_erase hmem
  have hreading : (task :: (wheel.delete task).reading).Perm wheel.reading :=
    List.perm_middle.symm.trans (hloaded.symm.append_left _)
  exact List.perm_middle.trans (hreading.append_right _)

theorem Scheduled.delete (hscheduled : wheel.Scheduled) (hmem : task ∈ wheel.loaded) :
    (wheel.delete task).Scheduled :=
  hscheduled.of_subperm (wheel.tasks_delete hmem).subperm rfl

theorem Scheduled.release (hscheduled : wheel.Scheduled) :
    (wheel.release task).Scheduled := by
  refine hscheduled.of_subperm ?_ rfl
  exact (List.erase_sublist.append_left _).subperm

end Scheduled

end Wheel

/-! ## Publishing and expiring -/

/-- Where the goroutine of `PushMsg` is.  `returned` is the stage between the end of
`publish` and `PMPoolPut`. -/
inductive PublisherPc where
  | idle
  | got (msg : ℕ)
  | sent (msg : ℕ) (id : UInt16)
  | added (msg : ℕ) (task : Task)
  | stored (msg : ℕ) (task : Task)
  | returned (msg : ℕ) (task : Option Task)
  deriving DecidableEq, Repr

/-- The message that is being published, and its timer if it has one already. -/
def PublisherPc.publishing : PublisherPc → Option (ℕ × Option Task)
  | .idle | .got _ => none
  | .sent msg _ => some (msg, none)
  | .added msg task | .stored msg task => some (msg, some task)
  | .returned msg task => some (msg, task)

/-- A callback has looked a key up in `Map`, or deleted one, for a message that was sent
with a packet id. -/
structure Lookup where
  sent : UInt16
  key : UInt16
  deriving DecidableEq, Repr

/-- The last two fields are history; `spoiled` has the packet ids that the callbacks of
other messages have changed. -/
structure Timers where
  heap : Heap
  wheel : Wheel
  serverPool : List ℕ
  servicePool : List ℕ
  publisher : PublisherPc
  map : UInt16 → Option ℕ
  lookups : List Lookup
  spoiled : List UInt16

/-- How `sendData` ends. -/
inductive Sending where
  | rejected
  | unwritten
  | written
  deriving DecidableEq, Repr

inductive TimersStep where
  /-- `PMPoolGet` of the server and the setters. -/
  | get (choice : ℕ)
  | send (sending : Sending)
  /-- `PMPoolGet` of the service, `copier.Copy` and `tw.Add`. -/
  | add (choice : ℕ)
  /-- `Map.Store`. -/
  | store
  /-- `Pub1ack.Wait`, which encodes the message unless its packet id is in the queue.  A
  service without a session skips the call. -/
  | wait (encodes : Bool)
  /-- `PMPoolPut` of the server. -/
  | put
  /-- `onComplete` with the PUBACK for a packet id. -/
  | complete (id : UInt16)
  /-- The three calls of a timer's callback. -/
  | load (task : Task)
  | delete (task : Task)
  | release (task : Task)
  deriving DecidableEq, Repr

namespace Timers

def new : Timers where
  heap := ⟨0, fun _ => 0, 0, fun _ => none, 0⟩
  wheel := ⟨0, [], [], []⟩
  serverPool := []
  servicePool := []
  publisher := .idle
  map := fun _ => none
  lookups := []
  spoiled := []

def get (state : Timers) (choice : ℕ) : Option Timers :=
  match state.publisher with
  | .idle =>
      let (msg, pool, heap) := state.heap.get state.serverPool choice
      some { state with heap := heap, serverPool := pool, publisher := .got msg }
  | _ => none

/-- The packet id is set when `Encode` succeeds, whether the bytes can be written or not. -/
def send (state : Timers) (sending : Sending) : Option Timers :=
  match state.publisher with
  | .got msg =>
      let encoded := state.heap.encode (.pushed msg)
      match sending with
      | .rejected => some { state with publisher := .returned msg none }
      | .unwritten => some { state with heap := encoded, publisher := .returned msg none }
      | .written =>
          some { state with
            heap := encoded
            publisher := .sent msg (encoded.packetId (.pushed msg)) }
  | _ => none

def add (copier : Copier) (state : Timers) (choice : ℕ) : Option Timers :=
  match state.publisher with
  | .sent msg id =>
      let (copyMsg, pool, heap) := state.heap.get state.servicePool choice
      some { state with
        heap := heap.copy copier (.copied copyMsg) (.pushed msg)
        wheel := state.wheel.add copyMsg id
        servicePool := pool
        publisher := .added msg (state.wheel.newTask copyMsg id) }
  | _ => none

def store (state : Timers) : Option Timers :=
  match state.publisher with
  | .added msg task =>
      some { state with
        map := Function.update state.map (state.heap.packetId (.pushed msg)) (some task.serial)
        publisher := .stored msg task }
  | _ => none

def wait (state : Timers) (encodes : Bool) : Option Timers :=
  match state.publisher with
  | .stored msg task =>
      some { state with
        heap := if encodes then state.heap.encode (.pushed msg) else state.heap
        publisher := .returned msg (some task) }
  | _ => none

def put (state : Timers) : Option Timers :=
  match state.publisher with
  | .returned msg _ =>
      some { state with
        heap := state.heap.clearPacketId (.pushed msg)
        serverPool := state.serverPool ++ [msg]
        publisher := .idle }
  | _ => none

def complete (state : Timers) (id : UInt16) : Timers :=
  match state.map id with
  | some serial =>
      { state with
        wheel := state.wheel.remove serial
        map := Function.update state.map id none }
  | none => state

/-- What the callback of the task looks up or deletes. -/
def lookup (state : Timers) (task : Task) : Lookup :=
  ⟨task.sent, state.heap.packetId (.copied task.copyMsg)⟩

def load (state : Timers) (task : Task) : Option Timers :=
  if task ∈ state.wheel.pending then
    some { state with
      wheel := state.wheel.load task
      lookups := state.lookup task :: state.lookups }
  else none

def delete (state : Timers) (task : Task) : Option Timers :=
  if task ∈ state.wheel.loaded then
    some { state with
      wheel := state.wheel.delete task
      map := Function.update state.map (state.heap.packetId (.copied task.copyMsg)) none
      lookups := state.lookup task :: state.lookups }
  else none

/-- The packet id of the message that is being published, if that message is not the one of
the task and its packet id changes. -/
def spoils (state : Timers) (heap : Heap) (task : Task) : List UInt16 :=
  match state.publisher.publishing with
  | some (msg, own) =>
      if own = some task ∨ heap.packetId (.pushed msg) = state.heap.packetId (.pushed msg) then []
      else [state.heap.packetId (.pushed msg)]
  | none => []

def release (state : Timers) (task : Task) : Option Timers :=
  if task ∈ state.wheel.deleted then
    let cleared := state.heap.clearPacketId (.copied task.copyMsg)
    some { state with
      heap := cleared
      wheel := state.wheel.release task
      servicePool := state.servicePool ++ [task.copyMsg]
      spoiled := state.spoils cleared task ++ state.spoiled }
  else none

def step (copier : Copier) (state : Timers) : TimersStep → Option Timers
  | .get choice => state.get choice
  | .send sending => state.send sending
  | .add choice => state.add copier choice
  | .store => state.store
  | .wait encodes => state.wait encodes
  | .put => state.put
  | .complete id => some (state.complete id)
  | .load task => state.load task
  | .delete task => state.delete task
  | .release task => state.release task

/-- Every callback has used the packet id that was sent, and none has changed the packet id
of another message that was being published. -/
structure Isolated (state : Timers) : Prop where
  lookups : ∀ lookup ∈ state.lookups, lookup.key = lookup.sent
  spoiled : state.spoiled = []

/-- The publish that has started the timer has not put its message back into the pool. -/
def Publishing (state : Timers) (task : Task) : Prop :=
  ∃ msg, state.publisher.publishing = some (msg, some task)

instance (state : Timers) (task : Task) : Decidable (state.Publishing task) :=
  decidable_of_iff (state.publisher.publishing.bind Prod.snd = some task)
    (by simp [Publishing, Option.bind_eq_some_iff])

/-- The callback of a timer runs before its message is put back into the pool. -/
def InTime (state : Timers) : TimersStep → Prop
  | .load task | .delete task | .release task => state.Publishing task
  | _ => True

instance (state : Timers) : (label : TimersStep) → Decidable (state.InTime label)
  | .load task | .delete task | .release task =>
      inferInstanceAs (Decidable (state.Publishing task))
  | .get _ | .send _ | .add _ | .store | .wait _ | .put | .complete _ => isTrue trivial

/-! ## A copy that shares the packet id -/

/-- The copy of a timer that still runs has the array of the message that is being published,
and the packet id in it is the one that was sent. -/
structure Tracked (state : Timers) (msg : ℕ) (task : Task) : Prop where
  sent : task.sent ≠ 0
  shared : state.heap.packetIds (.copied task.copyMsg) = state.heap.packetIds (.pushed msg)
  packetId : state.heap.packetId (.pushed msg) = task.sent

structure Sound (state : Timers) : Prop extends Isolated state where
  scheduled : state.wheel.Scheduled
  fresh : ∀ msg id, state.publisher = .sent msg id →
    state.heap.packetId (.pushed msg) = id ∧ id ≠ 0
  tracked : ∀ msg task, state.publisher.publishing = some (msg, some task) →
    task ∈ state.wheel.reading → state.Tracked msg task

section Steps

variable {copier : Copier} {state next : Timers} {task : Task}

/-- A callback that is in time finds the packet id that was sent. -/
theorem Sound.lookup (hsound : state.Sound) (hintime : state.Publishing task)
    (hreading : task ∈ state.wheel.reading) :
    ∀ lookup ∈ state.lookup task :: state.lookups, lookup.key = lookup.sent := by
  obtain ⟨msg, hpublishing⟩ := hintime
  have htracked := hsound.tracked msg task hpublishing hreading
  intro lookup hmem
  rcases List.mem_cons.mp hmem with rfl | hold
  · exact (Heap.packetId_of_shared htracked.shared).trans htracked.packetId
  · exact hsound.lookups lookup hold

/-- Steps that leave the messages alone and add no task. -/
theorem Sound.of_frame (hsound : state.Sound) (hheap : next.heap = state.heap)
    (hpublisher : next.publisher = state.publisher) (hisolated : next.Isolated)
    (hscheduled : next.wheel.Scheduled)
    (hreading : next.wheel.reading ⊆ state.wheel.reading) : next.Sound where
  toIsolated := hisolated
  scheduled := hscheduled
  fresh := by
    rw [hheap, hpublisher]
    exact hsound.fresh
  tracked := by
    intro msg task hpublishing hmem
    rw [hpublisher] at hpublishing
    obtain ⟨hsent, hshared, hid⟩ := hsound.tracked msg task hpublishing (hreading hmem)
    rw [← hheap] at hshared hid
    exact ⟨hsent, hshared, hid⟩

theorem sound_get {choice : ℕ} (hsound : state.Sound) (hstep : state.get choice = some next) :
    next.Sound := by
  rw [get] at hstep
  split at hstep <;> cases hstep
  exact ⟨⟨hsound.lookups, hsound.spoiled⟩, hsound.scheduled, nofun, nofun⟩

theorem sound_send {sending : Sending} (hsound : state.Sound)
    (hstep : state.send sending = some next) : next.Sound := by
  rw [send] at hstep
  split at hstep
  case h_1 msg hpc =>
    cases sending with
    | rejected | unwritten =>
        cases hstep
        exact ⟨⟨hsound.lookups, hsound.spoiled⟩, hsound.scheduled, nofun, nofun⟩
    | written =>
        cases hstep
        refine ⟨⟨hsound.lookups, hsound.spoiled⟩, hsound.scheduled, ?_, nofun⟩
        intro msg id hsent
        cases hsent
        exact ⟨rfl, Heap.packetId_encode_ne_zero⟩
  case h_2 => cases hstep

theorem sound_add {choice : ℕ} (hshares : copier.Shares) (hsound : state.Sound)
    (hstep : state.add copier choice = some next) : next.Sound := by
  rw [add] at hstep
  split at hstep <;> cases hstep
  rename_i msg id hpc
  obtain ⟨hid, hne⟩ := hsound.fresh msg id hpc
  refine ⟨⟨hsound.lookups, hsound.spoiled⟩, hsound.scheduled.add _ _, nofun, ?_⟩
  intro msg task hpublishing _
  cases hpublishing
  refine ⟨hne, (Heap.packetIds_copy_self hshares).trans Heap.packetIds_copy.symm, ?_⟩
  exact Heap.packetId_copy.trans ((Heap.packetId_get _ _).trans hid)

theorem sound_store (hsound : state.Sound) (hstep : state.store = some next) :
    next.Sound := by
  rw [store] at hstep
  split at hstep <;> cases hstep
  rename_i msg task hpc
  refine ⟨⟨hsound.lookups, hsound.spoiled⟩, hsound.scheduled, nofun, ?_⟩
  rintro _ _ ⟨⟩ hmem
  obtain ⟨hsent, hshared, hid⟩ := hsound.tracked msg task (by rw [hpc]; rfl) hmem
  exact ⟨hsent, hshared, hid⟩

/-- While the timer may still run the message has a packet id, so that `Wait` gives it no
other one. -/
theorem sound_wait {encodes : Bool} (hsound : state.Sound)
    (hstep : state.wait encodes = some next) : next.Sound := by
  rw [wait] at hstep
  split at hstep <;> cases hstep
  rename_i msg task hpc
  refine ⟨⟨hsound.lookups, hsound.spoiled⟩, hsound.scheduled, nofun, ?_⟩
  rintro _ _ ⟨⟩ hmem
  obtain ⟨hsent, hshared, hid⟩ := hsound.tracked msg task (by rw [hpc]; rfl) hmem
  have hencode : state.heap.encode (.pushed msg) = state.heap :=
    Heap.encode_of_packetId (hid.trans_ne hsent)
  constructor
  case sent => exact hsent
  case shared => simpa [hencode] using hshared
  case packetId => simpa [hencode] using hid

theorem sound_put (hsound : state.Sound) (hstep : state.put = some next) : next.Sound := by
  rw [put] at hstep
  split at hstep <;> cases hstep
  exact ⟨⟨hsound.lookups, hsound.spoiled⟩, hsound.scheduled, nofun, nofun⟩

theorem sound_complete {id : UInt16} (hsound : state.Sound) : (state.complete id).Sound := by
  rw [complete]
  split
  case h_1 serial _ =>
    refine hsound.of_frame rfl rfl ⟨hsound.lookups, hsound.spoiled⟩
      (hsound.scheduled.remove serial) ?_
    exact (List.filter_sublist.append_right _).subset
  case h_2 => exact hsound

theorem sound_load (hsound : state.Sound) (hintime : state.Publishing task)
    (hstep : state.load task = some next) : next.Sound := by
  rw [load] at hstep
  split at hstep <;> cases hstep
  rename_i hmem
  have hreading : task ∈ state.wheel.reading := List.mem_append_left _ hmem
  refine hsound.of_frame rfl rfl ⟨hsound.lookup hintime hreading, hsound.spoiled⟩
    (hsound.scheduled.load hmem) ?_
  exact (List.perm_middle.trans ((List.perm_cons_erase hmem).symm.append_right _)).subset

theorem sound_delete (hsound : state.Sound) (hintime : state.Publishing task)
    (hstep : state.delete task = some next) : next.Sound := by
  rw [delete] at hstep
  split at hstep <;> cases hstep
  rename_i hmem
  have hreading : task ∈ state.wheel.reading := List.mem_append_right _ hmem
  refine hsound.of_frame rfl rfl ⟨hsound.lookup hintime hreading, hsound.spoiled⟩
    (hsound.scheduled.delete hmem) ?_
  exact (List.erase_sublist.append_left _).subset

/-- The callback has deleted its key and clears the packet id of its own message only. -/
theorem sound_release (hsound : state.Sound) (hintime : state.Publishing task)
    (hstep : state.release task = some next) : next.Sound := by
  obtain ⟨msg, hpublishing⟩ := hintime
  rw [release] at hstep
  split at hstep <;> cases hstep
  rename_i hmem
  have hspoils : state.spoils (state.heap.clearPacketId (.copied task.copyMsg)) task = [] := by
    simp [spoils, hpublishing]
  have hdone : task ∉ state.wheel.reading := fun hreading =>
    List.disjoint_of_nodup_append hsound.scheduled.nodup hreading hmem
  refine ⟨⟨hsound.lookups, ?_⟩, hsound.scheduled.release, ?_, ?_⟩
  · simpa [hspoils] using hsound.spoiled
  · intro msg' id hsent
    change state.publisher = _ at hsent
    simp [hsent, PublisherPc.publishing] at hpublishing
  · intro msg' task' hpublishing' hreading
    change state.publisher.publishing = _ at hpublishing'
    rw [hpublishing] at hpublishing'
    cases hpublishing'
    exact absurd hreading hdone

theorem sound_step {label : TimersStep} (hshares : copier.Shares) (hsound : state.Sound)
    (hintime : state.InTime label) (hstep : state.step copier label = some next) :
    next.Sound := by
  cases label with
  | get choice => exact sound_get hsound hstep
  | send sending => exact sound_send hsound hstep
  | add choice => exact sound_add hshares hsound hstep
  | store => exact sound_store hsound hstep
  | wait encodes => exact sound_wait hsound hstep
  | put => exact sound_put hsound hstep
  | complete id =>
      injection hstep with hnext
      exact hnext ▸ sound_complete hsound
  | load task => exact sound_load hsound hintime hstep
  | delete task => exact sound_delete hsound hintime hstep
  | release task => exact sound_release hsound hintime hstep

theorem sound_new : Timers.new.Sound where
  lookups := by simp [new]
  spoiled := rfl
  scheduled := ⟨List.nodup_nil, by simp [new, Wheel.tasks, Wheel.reading]⟩
  fresh := by simp [new]
  tracked := by simp [new, PublisherPc.publishing]

end Steps

/-! ## A copy whose fields are left alone -/

/-- No callback sees a packet id. -/
structure Blind (state : Timers) : Prop where
  unset : ∀ n, state.heap.packetIds (.copied n) = none
  sent : ∀ msg id, state.publisher = .sent msg id → id ≠ 0
  tasks : ∀ task ∈ state.wheel.tasks, task.sent ≠ 0
  lookups : ∀ lookup ∈ state.lookups, lookup.key = 0 ∧ lookup.sent ≠ 0
  spoiled : state.spoiled = []

section Leaves

variable {copier : Copier} {state next : Timers} {task : Task}

/-- `Encode` gives a packet id to the message that is being published, not to a copy. -/
theorem Blind.unset_encode (hblind : state.Blind) (msg n : ℕ) :
    (state.heap.encode (.pushed msg)).packetIds (.copied n) = none :=
  (Heap.packetIds_encode (by simp)).trans (hblind.unset n)

/-- The callback finds no packet id in its copy. -/
theorem Blind.lookup (hblind : state.Blind) (hmem : task ∈ state.wheel.tasks) :
    ∀ lookup ∈ state.lookup task :: state.lookups, lookup.key = 0 ∧ lookup.sent ≠ 0 := by
  intro lookup hlookup
  rcases List.mem_cons.mp hlookup with rfl | hold
  · exact ⟨Heap.packetId_eq_zero (hblind.unset _), hblind.tasks task hmem⟩
  · exact hblind.lookups lookup hold

theorem blind_send {sending : Sending} (hblind : state.Blind)
    (hstep : state.send sending = some next) : next.Blind := by
  rw [send] at hstep
  split at hstep
  case h_1 msg hpc =>
    cases sending with
    | rejected =>
        cases hstep
        exact ⟨hblind.unset, by simp, hblind.tasks, hblind.lookups, hblind.spoiled⟩
    | unwritten =>
        cases hstep
        exact ⟨hblind.unset_encode msg, by simp, hblind.tasks, hblind.lookups, hblind.spoiled⟩
    | written =>
        cases hstep
        refine ⟨hblind.unset_encode msg, ?_, hblind.tasks, hblind.lookups, hblind.spoiled⟩
        rintro _ _ ⟨⟩
        exact Heap.packetId_encode_ne_zero
  case h_2 => cases hstep

theorem blind_add {choice : ℕ} (hleaves : copier.Leaves) (hblind : state.Blind)
    (hstep : state.add copier choice = some next) : next.Blind := by
  rw [add] at hstep
  split at hstep <;> cases hstep
  rename_i msg id hpc
  refine ⟨fun n => ?_, by simp, fun task hmem => ?_, hblind.lookups, hblind.spoiled⟩
  · rw [Heap.copy_of_leaves hleaves]
    exact (Heap.packetIds_get state.servicePool choice _).trans (hblind.unset n)
  · rcases List.mem_cons.mp ((state.wheel.tasks_add _ _).mem_iff.mp hmem) with rfl | hold
    · exact hblind.sent msg id hpc
    · exact hblind.tasks task hold

/-- Steps of the wheel that leave the messages alone. -/
theorem Blind.of_wheel (hblind : state.Blind) {wheel : Wheel} {pool : List ℕ}
    {map : UInt16 → Option ℕ} {looked : List Lookup}
    (htasks : wheel.tasks ⊆ state.wheel.tasks)
    (hlooked : ∀ lookup ∈ looked, lookup.key = 0 ∧ lookup.sent ≠ 0) :
    Blind { state with wheel := wheel, servicePool := pool, map := map, lookups := looked } :=
  ⟨hblind.unset, hblind.sent, fun task hmem => hblind.tasks task (htasks hmem), hlooked,
    hblind.spoiled⟩

theorem blind_load (hblind : state.Blind) (hstep : state.load task = some next) :
    next.Blind := by
  rw [load] at hstep
  split at hstep <;> cases hstep
  rename_i hmem
  exact hblind.of_wheel (state.wheel.tasks_load hmem).subset
    (hblind.lookup (by simp [Wheel.tasks, Wheel.reading, hmem]))

theorem blind_delete (hblind : state.Blind) (hstep : state.delete task = some next) :
    next.Blind := by
  rw [delete] at hstep
  split at hstep <;> cases hstep
  rename_i hmem
  exact hblind.of_wheel (state.wheel.tasks_delete hmem).subset
    (hblind.lookup (by simp [Wheel.tasks, Wheel.reading, hmem]))

/-- The copy that is put back has no packet id to be cleared. -/
theorem blind_release (hblind : state.Blind) (hstep : state.release task = some next) :
    next.Blind := by
  have hclear : state.heap.clearPacketId (.copied task.copyMsg) = state.heap :=
    Heap.clearPacketId_eq (hblind.unset _)
  have hspoils : state.spoils state.heap task = [] := by
    rw [spoils]
    split <;> simp
  simp only [release, hclear, hspoils, List.nil_append] at hstep
  split at hstep <;> cases hstep
  exact hblind.of_wheel (List.erase_sublist.append_left _).subset hblind.lookups

theorem blind_step {label : TimersStep} (hleaves : copier.Leaves) (hblind : state.Blind)
    (hstep : state.step copier label = some next) : next.Blind := by
  cases label with
  | get choice =>
      simp only [step, get] at hstep
      split at hstep <;> cases hstep
      refine ⟨fun n => ?_, by simp, hblind.tasks, hblind.lookups, hblind.spoiled⟩
      exact (Heap.packetIds_get state.serverPool choice _).trans (hblind.unset n)
  | send sending => exact blind_send hblind hstep
  | add choice => exact blind_add hleaves hblind hstep
  | store =>
      simp only [step, store] at hstep
      split at hstep <;> cases hstep
      exact ⟨hblind.unset, by simp, hblind.tasks, hblind.lookups, hblind.spoiled⟩
  | wait encodes =>
      simp only [step, wait] at hstep
      split at hstep <;> cases hstep
      refine ⟨fun n => ?_, by simp, hblind.tasks, hblind.lookups, hblind.spoiled⟩
      cases encodes with
      | false => exact hblind.unset n
      | true => exact hblind.unset_encode _ n
  | put =>
      simp only [step, put] at hstep
      split at hstep <;> cases hstep
      refine ⟨fun n => ?_, by simp, hblind.tasks, hblind.lookups, hblind.spoiled⟩
      rw [Heap.packetIds_clearPacketId]
      exact hblind.unset n
  | complete id =>
      cases hstep
      rw [complete]
      split
      · exact hblind.of_wheel ((List.filter_sublist.append_right _).append_right _).subset
          hblind.lookups
      · exact hblind
  | load task => exact blind_load hblind hstep
  | delete task => exact blind_delete hblind hstep
  | release task => exact blind_release hblind hstep

theorem blind_new : Timers.new.Blind where
  unset := by simp [new]
  sent := by simp [new]
  tasks := by simp [new, Wheel.tasks, Wheel.reading]
  lookups := by simp [new]
  spoiled := rfl

/-- Only the callbacks look up and delete keys. -/
theorem history_step {label : TimersStep} (hload : ∀ task, label ≠ .load task)
    (hdelete : ∀ task, label ≠ .delete task) (hstep : state.step copier label = some next) :
    next.lookups = state.lookups ∧ next.wheel.loaded = state.wheel.loaded := by
  cases label with
  | send sending =>
      simp only [step, send] at hstep
      split at hstep
      · cases sending <;> cases hstep <;> exact ⟨rfl, rfl⟩
      · cases hstep
  | complete id =>
      cases hstep
      rw [complete]
      split <;> exact ⟨rfl, rfl⟩
  | load task => exact absurd rfl (hload task)
  | delete task => exact absurd rfl (hdelete task)
  | _ =>
      simp only [step, get, add, store, wait, put, release] at hstep
      split at hstep <;> cases hstep
      exact ⟨rfl, rfl⟩

/-- Nothing is looked up as long as no timer fires. -/
theorem lookups_step {label : TimersStep}
    (hloaded : state.lookups = [] → state.wheel.loaded = [])
    (hstep : state.step copier label = some next) :
    (next.lookups = [] ↔ state.lookups = [] ∧ ∀ task, label ≠ .load task) ∧
      (next.lookups = [] → next.wheel.loaded = []) := by
  cases label with
  | load task =>
      simp only [step, load, Option.ite_none_right_eq_some, Option.some.injEq] at hstep
      obtain ⟨-, rfl⟩ := hstep
      simp
  | delete task =>
      simp only [step, delete, Option.ite_none_right_eq_some, Option.some.injEq] at hstep
      obtain ⟨hmem, rfl⟩ := hstep
      have hfired : state.lookups ≠ [] := fun hnil =>
        List.ne_nil_of_mem hmem (hloaded hnil)
      simp [hfired]
  | _ =>
      obtain ⟨hsame, hwheel⟩ := history_step (by simp) (by simp) hstep
      rw [hsame, hwheel]
      exact ⟨by simp, hloaded⟩

theorem lookups_run {labels : List TimersStep} {last : Timers}
    (hloaded : state.lookups = [] → state.wheel.loaded = [])
    (hrun : run (step copier) state labels = some last) :
    last.lookups = [] ↔ state.lookups = [] ∧ ∀ task, TimersStep.load task ∉ labels := by
  induction labels generalizing state with
  | nil =>
      injection hrun with hlast
      simp [hlast]
  | cons label labels ih =>
      obtain ⟨next, hstep, hrest⟩ := run_cons_eq_some_iff.mp hrun
      obtain ⟨hlookups, hnext⟩ := lookups_step hloaded hstep
      rw [ih hnext hrest, hlookups, and_assoc]
      simp only [List.mem_cons, not_or, forall_and, ne_comm, ne_eq]

/-- A callback that sees no packet id uses another one than was sent. -/
theorem Blind.isolated_iff (hblind : state.Blind) : state.Isolated ↔ state.lookups = [] := by
  constructor
  · intro hisolated
    refine List.eq_nil_iff_forall_not_mem.mpr fun lookup hmem => ?_
    obtain ⟨hkey, hsent⟩ := hblind.lookups lookup hmem
    exact hsent ((hisolated.lookups lookup hmem).symm.trans hkey)
  · intro hnil
    exact ⟨by simp [hnil], hblind.spoiled⟩

end Leaves

/-- Where `copier.Copy` leaves the packet id of the copy alone, no callback changes the packet id
of another message, but the timers of a run are isolated exactly if none of them has fired.
If it assigned the packet id, they would be as long as the callbacks run before the messages
are put back. -/
theorem isolated_of_run {copier : Copier} {labels : List TimersStep} {last : Timers}
    (hrun : run (step copier) .new labels = some last) :
    (copier.Leaves → last.spoiled = [] ∧
        (last.Isolated ↔ ∀ task, TimersStep.load task ∉ labels)) ∧
      (copier.Shares → Along (step copier) InTime .new labels → last.Isolated) := by
  constructor
  · intro hleaves
    have hblind : last.Blind := run_keeps (fun _ _ _ => blind_step hleaves) blind_new hrun
    rw [hblind.isolated_iff, lookups_run (fun _ => rfl) hrun]
    exact ⟨hblind.spoiled, and_iff_right rfl⟩
  · intro hshares hintime
    exact (run_invariant (fun _ _ _ => sound_step hshares) sound_new hintime hrun).toIsolated

/-- The calls of `PushMsg` for one message. -/
def pushMsg (choice : ℕ) : List TimersStep :=
  [.get choice, .send .written, .add choice, .store, .wait true, .put]

/-- The three calls of a callback. -/
def expire (task : Task) : List TimersStep :=
  [.load task, .delete task, .release task]

/-- `copier.Copy` with fields that are not exported. -/
def leaving : Copier := fun dst _ => dst

/-- `copier.Copy` as it would be with exported fields. -/
def sharing : Copier := fun _ src => src

/-- The client acknowledges both messages in time. -/
def acknowledged : List TimersStep :=
  pushMsg 0 ++ [.complete 1] ++ pushMsg 0 ++ [.complete 2]

/-- The first timer expires at once, and the second message is acknowledged. -/
def expireAtOnce : List TimersStep :=
  [.get 0, .send .written, .add 0] ++ expire ⟨0, 1, 1⟩ ++ [.store, .wait false, .put] ++
    pushMsg 0 ++ [.complete 2]

theorem isolated_of_run_acknowledged :
    (∃ last, run (step leaving) .new acknowledged = some last ∧ last.Isolated) ∧
      ∃ last, run (step sharing) .new expireAtOnce = some last ∧
        last.lookups = [⟨1, 1⟩, ⟨1, 1⟩] ∧ last.Isolated := by
  constructor
  · have hruns : (run (step leaving) .new acknowledged).isSome := by decide +kernel
    obtain ⟨last, hrun⟩ := Option.isSome_iff_exists.mp hruns
    obtain ⟨-, hisolated⟩ := (isolated_of_run hrun).1 fun _ _ => rfl
    exact ⟨last, hrun, hisolated.mpr (by simp [acknowledged, pushMsg])⟩
  · have hlookups : (run (step sharing) .new expireAtOnce).map (·.lookups) =
        some [⟨1, 1⟩, ⟨1, 1⟩] := by decide +kernel
    obtain ⟨last, hrun, hlast⟩ := Option.map_eq_some_iff.mp hlookups
    exact ⟨last, hrun, hlast, (isolated_of_run hrun).2 (fun _ _ => rfl) (by decide +kernel)⟩

/-- The client does not acknowledge the message, and its timer expires. -/
def expireUnacknowledged : List TimersStep :=
  pushMsg 0 ++ expire ⟨0, 1, 1⟩

/-- The message of the first publish is used again while its timer is pending. -/
def expireLater : List TimersStep :=
  pushMsg 0 ++ [.get 0, .send .written] ++ expire ⟨0, 1, 1⟩

/-- The callback for packet id 1 looks up and deletes 0, and the entry of 1 stays.  With a copy
that shares the array it would look up and delete 2, and clear the packet id of the message
that has been sent with 2. -/
theorem not_isolated_after_expire :
    (∃ last, run (step leaving) .new expireUnacknowledged = some last ∧
      last.lookups = [⟨1, 0⟩, ⟨1, 0⟩] ∧ last.map 1 = some 0 ∧ ¬last.Isolated) ∧
    ∃ last, run (step sharing) .new expireLater = some last ∧
      last.lookups = [⟨1, 2⟩, ⟨1, 2⟩] ∧ last.spoiled = [2] ∧ ¬last.Isolated := by
  constructor
  · have hhistory : (run (step leaving) .new expireUnacknowledged).map
        (fun last => (last.lookups, last.map 1)) = some ([⟨1, 0⟩, ⟨1, 0⟩], some 0) := by
      decide +kernel
    obtain ⟨last, hrun, hlast⟩ := Option.map_eq_some_iff.mp hhistory
    injection hlast with hlookups hmap
    refine ⟨last, hrun, hlookups, hmap, fun hisolated => ?_⟩
    have hkey := hisolated.lookups ⟨1, 0⟩ (by simp [hlookups])
    cases hkey
  · have hhistory : (run (step sharing) .new expireLater).map
        (fun last => (last.lookups, last.spoiled)) = some ([⟨1, 2⟩, ⟨1, 2⟩], [2]) := by
      decide +kernel
    obtain ⟨last, hrun, hlast⟩ := Option.map_eq_some_iff.mp hhistory
    injection hlast with hlookups hspoiled
    refine ⟨last, hrun, hlookups, hspoiled, fun hisolated => ?_⟩
    exact List.cons_ne_nil _ _ (hspoiled.symm.trans hisolated.spoiled)

end Timers

end Xmqtt.Service
