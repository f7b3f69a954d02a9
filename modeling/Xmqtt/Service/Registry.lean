import Xmqtt.Core.Run
import Xmqtt.Go.Slice

/-!
# The map of services

`Server.svcMap` has at most one service for each device.  A connect of
`server.go` ticks off the service that is registered for its device and stores
its own; the receiver goroutine of a service ends with `exceptionDisconnect` of
`readwrite.go`, which looks the service of the device up again, by its key, and
tears down what it finds.  One step is one call on the shared state.
-/

namespace Xmqtt.Service

open Xmqtt.Core Xmqtt.Go

/-- The bytes of a text. -/
def textBytes (text : String) : Bytes := text.toUTF8.toList

/-- A pointer to a connection's `service`. -/
structure ServiceRef where
  id : ℕ
  productKey : Bytes
  deviceName : Bytes
  deriving DecidableEq, Repr

/-- `strings.Join([]string{productKey, ":", deviceName}, "")`. -/
def serviceKey (productKey deviceName : Bytes) : Bytes :=
  productKey ++ textBytes ":" ++ deviceName

def ServiceRef.key (this : ServiceRef) : Bytes := serviceKey this.productKey this.deviceName

/-- Where `handleConnection` of a service is.  `found`, `deleted`, `loggedOut` and
`closing` are the stages of ticking the old service off. -/
inductive ConnectPc where
  | fresh
  | found (old : ServiceRef)
  | deleted (old : ServiceRef)
  | loggedOut (old : ServiceRef)
  | closing (old : ServiceRef)
  | accepting
  | accepted
  | started
  | stored
  | failed
  deriving DecidableEq, Repr

/-- The error that ends a receiver.  A packet that is too large ends it with the nil
error of the read before it. -/
inductive ExitErr where
  | eof
  | failure
  | tooLarge
  deriving DecidableEq, Repr

/-- Where the receiver goroutine of a service is.  The stages of `exceptionDisconnect`
carry the service it has looked up. -/
inductive ReceiverPc where
  | fresh
  | running
  | found (err : ExitErr) (svc : ServiceRef)
  | deleted (err : ExitErr) (svc : ServiceRef)
  | loggedOut (svc : ServiceRef)
  | closing (svc : ServiceRef)
  | ended
  deriving DecidableEq, Repr

inductive TeardownAction where
  | remove
  | logout
  | stop
  deriving DecidableEq, Repr

/-- The teardown run by a receiver has removed a service from the map, logged it out
or stopped it. -/
structure Teardown where
  receiver : ServiceRef
  action : TeardownAction
  victim : ServiceRef
  deriving DecidableEq, Repr

/-- `teardowns` is history. -/
structure Registry where
  svcMap : Bytes → Option ServiceRef
  connects : ServiceRef → ConnectPc
  receivers : ServiceRef → ReceiverPc
  sess : ServiceRef → Bool
  stopped : ServiceRef → Bool
  teardowns : List Teardown

def registryStart : Registry where
  svcMap := fun _ => none
  connects := fun _ => .fresh
  receivers := fun _ => .fresh
  sess := fun _ => false
  stopped := fun _ => false
  teardowns := []

inductive RegistryStep where
  /-- `handleConnection` looks for an old service of the device. -/
  | connect (svc : ServiceRef)
  | tickOffDelete (svc : ServiceRef)
  | tickOffLogout (svc : ServiceRef)
  | tickOffSession (svc : ServiceRef)
  | tickOffStop (svc : ServiceRef)
  /-- Login, session and CONNACK of `handleConnection`. -/
  | accept (svc : ServiceRef) (ok : Bool)
  | start (svc : ServiceRef)
  | storeMap (svc : ServiceRef)
  /-- The receiver returns without a teardown: its service is done, or a panic was
  recovered. -/
  | quit (svc : ServiceRef)
  /-- `exceptionDisconnect` looks the service up. -/
  | exceptionDisconnect (svc : ServiceRef) (err : ExitErr)
  | delete (svc : ServiceRef)
  | logout (svc : ServiceRef) (ok : Bool)
  | session (svc : ServiceRef)
  | stop (svc : ServiceRef)
  deriving DecidableEq, Repr

/-- The service that a step is taken for. -/
def RegistryStep.service : RegistryStep → ServiceRef
  | .connect svc | .tickOffDelete svc | .tickOffLogout svc | .tickOffSession svc
  | .tickOffStop svc | .accept svc _ | .start svc | .storeMap svc | .quit svc
  | .exceptionDisconnect svc _ | .delete svc | .logout svc _ | .session svc | .stop svc => svc

namespace Registry

section Steps

variable (state : Registry) (svc : ServiceRef)

def setConnect (pc : ConnectPc) : Registry :=
  { state with connects := Function.update state.connects svc pc }

def setReceiver (pc : ReceiverPc) : Registry :=
  { state with receivers := Function.update state.receivers svc pc }

def record (receiver : ServiceRef) (action : TeardownAction)
    (victims : List ServiceRef) : Registry :=
  { state with
    teardowns := victims.map (fun victim => ⟨receiver, action, victim⟩) ++ state.teardowns }

/-- `svcMap.Delete`: whatever is registered under the key of `svc`. -/
def deleteMap : Registry :=
  { state with svcMap := Function.update state.svcMap svc.key none }

/-- `svcMap.Store` under the key of `svc`. -/
def insertMap : Registry :=
  { state with svcMap := Function.update state.svcMap svc.key (some svc) }

/-- A second `close(this.done)` panics and the handler of `newStopConnect` recovers, so
only the first call has an effect. -/
def newStopConnect : Registry :=
  if state.stopped svc then state
  else
    { state with
      stopped := Function.update state.stopped svc true
      sess := Function.update state.sess svc false }

/-! ## `handleConnection` -/

def connect : Option Registry :=
  if state.connects svc = .fresh then
    match state.svcMap svc.key with
    | some old => some (state.setConnect svc (.found old))
    | none => some (state.setConnect svc .accepting)
  else none

def tickOffDelete : Option Registry :=
  match state.connects svc with
  | .found old => some ((state.deleteMap old).setConnect svc (.deleted old))
  | _ => none

def tickOffLogout : Option Registry :=
  match state.connects svc with
  | .deleted old => some (state.setConnect svc (.loggedOut old))
  | _ => none

/-- `this.sessMgr.Del(svcOldService.sess.ID())` panics without a session. -/
def tickOffSession : Option Registry :=
  match state.connects svc with
  | .loggedOut old =>
      some (state.setConnect svc (if state.sess old then .closing old else .failed))
  | _ => none

def tickOffStop : Option Registry :=
  match state.connects svc with
  | .closing old => some ((state.newStopConnect old).setConnect svc .accepting)
  | _ => none

def accept (ok : Bool) : Option Registry :=
  if state.connects svc = .accepting then
    some (if ok then
      { state with sess := Function.update state.sess svc true }.setConnect svc .accepted
      else state.setConnect svc .failed)
  else none

def start : Option Registry :=
  if state.connects svc = .accepted then
    some ((state.setReceiver svc .running).setConnect svc .started)
  else none

def storeMap : Option Registry :=
  if state.connects svc = .started then
    some ((state.insertMap svc).setConnect svc .stored)
  else none

/-! ## `receiverData` and `exceptionDisconnect` -/

def quit : Option Registry :=
  if state.receivers svc = .running then some (state.setReceiver svc .ended) else none

/-- `err.Error()` of the nil error panics as soon as a service is found. -/
def exceptionDisconnect (err : ExitErr) : Option Registry :=
  if state.receivers svc = .running then
    match state.svcMap svc.key with
    | some found =>
        some (state.setReceiver svc (if err = .tooLarge then .ended else .found err found))
    | none => some (state.setReceiver svc .ended)
  else none

def delete : Option Registry :=
  match state.receivers svc with
  | .found err found =>
      some (((state.record svc .remove (state.svcMap found.key).toList).deleteMap
        found).setReceiver svc (.deleted err found))
  | _ => none

/-- Behind every error but `io.EOF` the outcome of the logout is logged with
`val.Error()`, which panics when there was no error. -/
def logout (ok : Bool) : Option Registry :=
  match state.receivers svc with
  | .deleted err found =>
      some ((state.record svc .logout [found]).setReceiver svc
        (if err ≠ .eof ∧ ok = true then .ended else .loggedOut found))
  | _ => none

def session : Option Registry :=
  match state.receivers svc with
  | .loggedOut found =>
      some (state.setReceiver svc (if state.sess found then .closing found else .ended))
  | _ => none

def stop : Option Registry :=
  match state.receivers svc with
  | .closing found =>
      some (((state.record svc .stop [found]).newStopConnect found).setReceiver svc .ended)
  | _ => none

end Steps

def step (state : Registry) : RegistryStep → Option Registry
  | .connect svc => state.connect svc
  | .tickOffDelete svc => state.tickOffDelete svc
  | .tickOffLogout svc => state.tickOffLogout svc
  | .tickOffSession svc => state.tickOffSession svc
  | .tickOffStop svc => state.tickOffStop svc
  | .accept svc ok => state.accept svc ok
  | .start svc => state.start svc
  | .storeMap svc => state.storeMap svc
  | .quit svc => state.quit svc
  | .exceptionDisconnect svc err => state.exceptionDisconnect svc err
  | .delete svc => state.delete svc
  | .logout svc ok => state.logout svc ok
  | .session svc => state.session svc
  | .stop svc => state.stop svc

/-! ## Teardowns of the receiver's own service -/

/-- The service a teardown is working on. -/
def target : ReceiverPc → Option ServiceRef
  | .found _ svc | .deleted _ svc | .loggedOut svc | .closing svc => some svc
  | .fresh | .running | .ended => none

/-- A teardown has looked its service up and not deleted it yet. -/
def LookedUp : ReceiverPc → Prop
  | .found _ _ => True
  | _ => False

/-- Under the key of `svc` there is no other service. -/
def OwnKey (state : Registry) (svc : ServiceRef) : Prop :=
  ∀ other, state.svcMap svc.key = some other → other = svc

/-- Teardowns only work on the service whose receiver runs them. -/
structure Own (state : Registry) : Prop where
  teardowns : ∀ teardown ∈ state.teardowns, teardown.victim = teardown.receiver
  target : ∀ svc found, target (state.receivers svc) = some found → found = svc
  lookedUp : ∀ svc, LookedUp (state.receivers svc) → state.OwnKey svc

/-- A receiver that looks its key up finds no other service there, and no other service
is stored under its key before it has deleted what it found. -/
def Undisturbed (state : Registry) : RegistryStep → Prop
  | .exceptionDisconnect svc _ => state.OwnKey svc
  | .storeMap svc =>
      ∀ other, LookedUp (state.receivers other) → other.key = svc.key → other = svc
  | _ => True

variable {state next : Registry}

theorem svcMap_deleteMap (svc : ServiceRef) :
    (state.deleteMap svc).svcMap = Function.update state.svcMap svc.key none := rfl

theorem svcMap_insertMap (svc : ServiceRef) :
    (state.insertMap svc).svcMap = Function.update state.svcMap svc.key (some svc) := rfl

theorem receivers_setReceiver (svc : ServiceRef) (pc : ReceiverPc) :
    (state.setReceiver svc pc).receivers = Function.update state.receivers svc pc := rfl

theorem Own.setConnect (hown : state.Own) (svc : ServiceRef) (pc : ConnectPc) :
    (state.setConnect svc pc).Own :=
  ⟨hown.teardowns, hown.target, hown.lookedUp⟩

theorem Own.newStopConnect (hown : state.Own) (svc : ServiceRef) :
    (state.newStopConnect svc).Own := by
  rw [Registry.newStopConnect]
  split
  · exact hown
  · exact ⟨hown.teardowns, hown.target, hown.lookedUp⟩

theorem Own.record (hown : state.Own) (svc : ServiceRef) (action : TeardownAction)
    {victims : List ServiceRef} (hvictims : ∀ victim ∈ victims, victim = svc) :
    (state.record svc action victims).Own := by
  refine ⟨fun teardown hmem => ?_, hown.target, hown.lookedUp⟩
  rcases List.mem_append.mp hmem with hnew | hold
  · obtain ⟨victim, hvictim, rfl⟩ := List.mem_map.mp hnew
    exact hvictims victim hvictim
  · exact hown.teardowns teardown hold

theorem Own.deleteMap (hown : state.Own) (svc : ServiceRef) : (state.deleteMap svc).Own := by
  refine ⟨hown.teardowns, hown.target, fun other hlooked found hfound => ?_⟩
  by_cases hkey : other.key = svc.key
  · simp [svcMap_deleteMap, hkey] at hfound
  · rw [svcMap_deleteMap, Function.update_of_ne hkey] at hfound
    exact hown.lookedUp other hlooked found hfound

/-- A receiver may go to any stage that works on its own service. -/
theorem Own.setReceiver (hown : state.Own) {svc : ServiceRef} {pc : ReceiverPc}
    (htarget : ∀ found, Registry.target pc = some found → found = svc)
    (hlooked : LookedUp pc → state.OwnKey svc) : (state.setReceiver svc pc).Own := by
  refine ⟨hown.teardowns, fun other found hfound => ?_, fun other hother => ?_⟩
  · by_cases hsame : other = svc
    · subst hsame
      rw [receivers_setReceiver, Function.update_self] at hfound
      exact htarget found hfound
    · rw [receivers_setReceiver, Function.update_of_ne hsame] at hfound
      exact hown.target other found hfound
  · by_cases hsame : other = svc
    · subst hsame
      rw [receivers_setReceiver, Function.update_self] at hother
      exact hlooked hother
    · rw [receivers_setReceiver, Function.update_of_ne hsame] at hother
      exact hown.lookedUp other hother

theorem Own.insertMap (hown : state.Own) {svc : ServiceRef}
    (hstore : state.Undisturbed (.storeMap svc)) : (state.insertMap svc).Own := by
  refine ⟨hown.teardowns, hown.target, fun other hlooked found hfound => ?_⟩
  by_cases hkey : other.key = svc.key
  · rw [svcMap_insertMap, hkey, Function.update_self, Option.some.injEq] at hfound
    exact hfound.symm.trans (hstore other hlooked hkey).symm
  · rw [svcMap_insertMap, Function.update_of_ne hkey] at hfound
    exact hown.lookedUp other hlooked found hfound

theorem own_exceptionDisconnect {svc : ServiceRef} {err : ExitErr} (hown : state.Own)
    (hkey : state.OwnKey svc) (hstep : state.exceptionDisconnect svc err = some next) :
    next.Own := by
  have hended : (state.setReceiver svc .ended).Own :=
    hown.setReceiver (by simp [Registry.target]) (by simp [LookedUp])
  by_cases hrunning : state.receivers svc = .running
  · rw [exceptionDisconnect, if_pos hrunning] at hstep
    cases hfound : state.svcMap svc.key with
    | none =>
        rw [hfound] at hstep
        cases hstep
        exact hended
    | some found =>
        rw [hfound] at hstep
        cases hstep
        split
        · exact hended
        · refine hown.setReceiver (fun other hother => ?_) fun _ => hkey
          cases hother
          exact hkey found hfound
  · rw [exceptionDisconnect, if_neg hrunning] at hstep
    cases hstep

theorem own_delete {svc : ServiceRef} (hown : state.Own)
    (hstep : state.delete svc = some next) : next.Own := by
  rw [delete] at hstep
  split at hstep <;> cases hstep
  rename_i err found hpc
  obtain rfl : found = svc := hown.target svc found (by rw [hpc]; rfl)
  have hkey : state.OwnKey found := hown.lookedUp found (by rw [hpc]; trivial)
  refine Own.setReceiver ((hown.record found .remove fun victim hvictim => ?_).deleteMap found)
    (by simp [Registry.target]) (by simp [LookedUp])
  exact hkey victim (by simpa using hvictim)

theorem own_logout {svc : ServiceRef} {ok : Bool} (hown : state.Own)
    (hstep : state.logout svc ok = some next) : next.Own := by
  rw [logout] at hstep
  split at hstep <;> cases hstep
  rename_i err found hpc
  obtain rfl : found = svc := hown.target svc found (by rw [hpc]; rfl)
  refine Own.setReceiver (hown.record found .logout (by simp)) ?_ ?_
  · split <;> simp [Registry.target]
  · split <;> simp [LookedUp]

theorem own_session {svc : ServiceRef} (hown : state.Own)
    (hstep : state.session svc = some next) : next.Own := by
  rw [session] at hstep
  split at hstep <;> cases hstep
  rename_i found hpc
  obtain rfl : found = svc := hown.target svc found (by rw [hpc]; rfl)
  refine hown.setReceiver ?_ ?_
  · split <;> simp [Registry.target]
  · split <;> simp [LookedUp]

theorem own_stop {svc : ServiceRef} (hown : state.Own)
    (hstep : state.stop svc = some next) : next.Own := by
  rw [stop] at hstep
  split at hstep <;> cases hstep
  rename_i found hpc
  obtain rfl : found = svc := hown.target svc found (by rw [hpc]; rfl)
  exact ((hown.record found .stop (by simp)).newStopConnect found).setReceiver
    (by simp [Registry.target]) (by simp [LookedUp])

theorem own_step {label : RegistryStep} (hown : state.Own)
    (hundisturbed : state.Undisturbed label) (hstep : state.step label = some next) :
    next.Own := by
  cases label with
  | connect svc =>
      simp only [step, connect] at hstep
      split_ifs at hstep
      split at hstep <;> cases hstep <;> exact hown.setConnect _ _
  | tickOffDelete svc =>
      simp only [step, tickOffDelete] at hstep
      split at hstep <;> cases hstep
      exact (hown.deleteMap _).setConnect _ _
  | tickOffLogout svc =>
      simp only [step, tickOffLogout] at hstep
      split at hstep <;> cases hstep
      exact hown.setConnect _ _
  | tickOffSession svc =>
      simp only [step, tickOffSession] at hstep
      split at hstep <;> cases hstep
      exact hown.setConnect _ _
  | tickOffStop svc =>
      simp only [step, tickOffStop] at hstep
      split at hstep <;> cases hstep
      exact (hown.newStopConnect _).setConnect _ _
  | accept svc ok =>
      simp only [step, accept] at hstep
      split_ifs at hstep <;> cases hstep
      · exact ⟨hown.teardowns, hown.target, hown.lookedUp⟩
      · exact hown.setConnect svc .failed
  | start svc =>
      simp only [step, start] at hstep
      split_ifs at hstep
      cases hstep
      exact (hown.setReceiver (by simp [Registry.target]) (by simp [LookedUp])).setConnect
        svc .started
  | storeMap svc =>
      simp only [step, storeMap] at hstep
      split_ifs at hstep
      cases hstep
      exact (hown.insertMap hundisturbed).setConnect svc .stored
  | quit svc =>
      simp only [step, quit] at hstep
      split_ifs at hstep
      cases hstep
      exact hown.setReceiver (by simp [Registry.target]) (by simp [LookedUp])
  | exceptionDisconnect svc err => exact own_exceptionDisconnect hown hundisturbed hstep
  | delete svc => exact own_delete hown hstep
  | logout svc ok => exact own_logout hown hstep
  | session svc => exact own_session hown hstep
  | stop svc => exact own_stop hown hstep

/-- In every interleaving in which no receiver is disturbed between its lookup and its
delete, and none finds another service at its lookup, a teardown removes, logs out and
stops nothing but the service whose receiver runs it. -/
theorem teardowns_own_of_run {labels : List RegistryStep}
    (hundisturbed : Along step Undisturbed registryStart labels)
    (hrun : run step registryStart labels = some state) :
    ∀ teardown ∈ state.teardowns, teardown.victim = teardown.receiver := by
  have hstart : registryStart.Own :=
    ⟨by simp [registryStart], by simp [registryStart, Registry.target],
      by simp [registryStart, LookedUp]⟩
  have hown : state.Own := run_invariant (fun _ _ _ => own_step) hstart hundisturbed hrun
  exact hown.teardowns

/-- The first and the second connection of the device "d" of the product "p". -/
def firstD : ServiceRef := ⟨1, textBytes "p", textBytes "d"⟩

def secondD : ServiceRef := ⟨2, textBytes "p", textBytes "d"⟩

/-- A map in which only the first is registered. -/
def onlyFirstD (key : Bytes) : Option ServiceRef :=
  if key = firstD.key then some firstD else none

/-- A device connects, closes its connection and is torn down. -/
def connectAndClose (svc : ServiceRef) : List RegistryStep :=
  [.connect svc, .accept svc true, .start svc, .storeMap svc,
    .exceptionDisconnect svc .eof, .delete svc, .logout svc true, .session svc, .stop svc]

theorem along_connectAndClose (svc : ServiceRef) :
    Along step Undisturbed registryStart (connectAndClose svc) := by
  simp [connectAndClose, Along, Undisturbed, OwnKey, step, connect, accept, start, storeMap,
    exceptionDisconnect, delete, logout, session, stop, setConnect, setReceiver, insertMap,
    deleteMap, record, newStopConnect, registryStart]
  intro other hlooked _
  by_contra hne
  rw [Function.update_of_ne hne] at hlooked
  exact hlooked

theorem teardowns_own_of_run_close :
    ∃ state, run step registryStart (connectAndClose firstD) = some state ∧
      state.teardowns.length = 3 ∧
      ∀ teardown ∈ state.teardowns, teardown.victim = teardown.receiver := by
  have hlength : (run step registryStart (connectAndClose firstD)).map
      (fun state => state.teardowns.length) = some 3 := by decide +kernel
  obtain ⟨state, hrun, hstate⟩ := Option.map_eq_some_iff.mp hlength
  exact ⟨state, hrun, hstate, teardowns_own_of_run (along_connectAndClose firstD) hrun⟩

/-- The device connects again while its first connection is open: the first service is
ticked off, the second stored, and then the receiver of the first ends because its
connection was closed. -/
def connectTwice : List RegistryStep :=
  [.connect firstD, .accept firstD true, .start firstD, .storeMap firstD,
    .connect secondD, .tickOffDelete secondD, .tickOffLogout secondD,
    .tickOffSession secondD, .tickOffStop secondD, .accept secondD true, .start secondD,
    .storeMap secondD,
    .exceptionDisconnect firstD .failure, .delete firstD, .logout firstD true]

theorem teardown_removes_second :
    (run step registryStart (connectTwice.take 12)).map (fun state =>
        (state.svcMap secondD.key, state.receivers secondD, state.stopped secondD)) =
      some (some secondD, .running, false) ∧
    (run step registryStart connectTwice).map (fun state =>
        (state.svcMap secondD.key, state.receivers secondD, state.stopped secondD,
          state.teardowns)) =
      some (none, .running, false,
        [⟨firstD, .logout, secondD⟩, ⟨firstD, .remove, secondD⟩]) := by
  decide +kernel

end Registry

end Xmqtt.Service
