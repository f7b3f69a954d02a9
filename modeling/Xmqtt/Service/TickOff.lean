import Xmqtt.Service.Registry

/-!
# Connects of one device

A connect looks the key of its device up, ticks the service off that it finds
there, and stores its own at the end.  Nothing keeps another connect of the
device from running in between.
-/

namespace Xmqtt.Service

open Xmqtt.Core

namespace RegistryStep

/-- The steps of `handleConnection`. -/
def ofHandleConnection : RegistryStep → Prop
  | .connect _ | .tickOffDelete _ | .tickOffLogout _ | .tickOffSession _ | .tickOffStop _
  | .accept _ _ | .start _ | .storeMap _ => True
  | _ => False

/-- The steps of `handleConnection` before it starts the receiver. -/
def beforeStart : RegistryStep → Prop
  | .connect _ | .tickOffDelete _ | .tickOffLogout _ | .tickOffSession _ | .tickOffStop _
  | .accept _ _ => True
  | _ => False

end RegistryStep

namespace ConnectPc

/-- Between the lookup and `storeMap`. -/
def Busy : ConnectPc → Prop
  | .fresh | .stored | .failed => False
  | _ => True

/-- The service has been started. -/
def Started : ConnectPc → Prop
  | .started | .stored => True
  | _ => False

/-- `getSession` has been called. -/
def HasSession : ConnectPc → Prop
  | .accepted | .started | .stored => True
  | _ => False

/-- The one service of the device that may be running while the connect of `svc` is at
this stage. -/
def mayRun (svc : ServiceRef) : ConnectPc → Option ServiceRef
  | .found old | .deleted old | .loggedOut old | .closing old => some old
  | .started => some svc
  | _ => none

theorem HasSession.of_started {pc : ConnectPc} (hpc : pc.Started) : pc.HasSession := by
  cases pc <;> trivial

end ConnectPc

namespace Registry

variable {state next : Registry} {svc : ServiceRef}

/-- The service has been started and not been stopped. -/
def Running (state : Registry) (svc : ServiceRef) : Prop :=
  (state.connects svc).Started ∧ state.stopped svc = false

/-- A connect of the service looks its key up while no other connect of the key is between
its own lookup and its `storeMap`. -/
def Alone (state : Registry) : RegistryStep → Prop
  | .connect svc => ∀ other, (state.connects other).Busy → other.key ≠ svc.key
  | _ => True

/-! ## One after the other -/

/-- What keeps the services of a device to one: a running service is registered, unless a
connect of its key is under way, and then that connect knows it. -/
structure Sole (state : Registry) : Prop where
  keyed : ∀ key svc, state.svcMap key = some svc → svc.key = key
  known : ∀ svc run, (state.connects svc).mayRun svc = some run → run.key = svc.key
  busy : ∀ first second, (state.connects first).Busy → (state.connects second).Busy →
    first.key = second.key → first = second
  underway : ∀ svc run, (state.connects svc).Busy → state.Running run →
    run.key = svc.key → (state.connects svc).mayRun svc = some run
  registered : ∀ run, state.Running run →
    (∀ svc, (state.connects svc).Busy → svc.key ≠ run.key) →
    state.svcMap run.key = some run
  session : ∀ svc, (state.connects svc).HasSession → state.stopped svc = false →
    state.sess svc = true

/-- A step of the connect of `svc`, which changes the map under its own key only. -/
structure Moves (state next : Registry) (svc : ServiceRef) (pc : ConnectPc) : Prop where
  connects : next.connects = Function.update state.connects svc pc
  svcMap : ∀ key, key ≠ svc.key → next.svcMap key = state.svcMap key
  keyed : ∀ run, next.svcMap svc.key = some run → run.key = svc.key
  stopped : ∀ run, next.stopped run = false → state.stopped run = false

namespace Moves

variable {pc : ConnectPc}

theorem connects_self (hmoves : Moves state next svc pc) : next.connects svc = pc := by
  rw [hmoves.connects, Function.update_self]

theorem connects_of_ne (hmoves : Moves state next svc pc) {other : ServiceRef}
    (hne : other ≠ svc) : next.connects other = state.connects other := by
  rw [hmoves.connects, Function.update_of_ne hne]

/-- Nobody but the service itself starts to run. -/
theorem running (hmoves : Moves state next svc pc) {run : ServiceRef}
    (hrun : next.Running run) (hne : run ≠ svc) : state.Running run := by
  obtain ⟨hstarted, hstopped⟩ := hrun
  rw [hmoves.connects_of_ne hne] at hstarted
  exact ⟨hstarted, hmoves.stopped run hstopped⟩

/-- Only connects of one service are under way for its key. -/
theorem busy (hmoves : Moves state next svc pc) (hsole : state.Sole)
    (halone : ∀ other, (state.connects other).Busy → other.key = svc.key → other = svc)
    {first second : ServiceRef} (hfirst : (next.connects first).Busy)
    (hsecond : (next.connects second).Busy) (hkey : first.key = second.key) :
    first = second := by
  have hother : ∀ other, (next.connects other).Busy → other.key = svc.key → other = svc := by
    intro other hbusy hkey
    by_contra hne
    rw [hmoves.connects_of_ne hne] at hbusy
    exact hne (halone other hbusy hkey)
  by_cases hfirstSame : first = svc
  · rw [hfirstSame] at hkey ⊢
    exact (hother second hsecond hkey.symm).symm
  · by_cases hsecondSame : second = svc
    · rw [hsecondSame] at hkey ⊢
      exact hother first hfirst hkey
    · rw [hmoves.connects_of_ne hfirstSame] at hfirst
      rw [hmoves.connects_of_ne hsecondSame] at hsecond
      exact hsole.busy first second hfirst hsecond hkey

/-- The other connects under way know the running services of their keys as before. -/
theorem underway_of_ne (hmoves : Moves state next svc pc) (hsole : state.Sole)
    (halone : ∀ other, (state.connects other).Busy → other.key = svc.key → other = svc)
    {other run : ServiceRef} (hne : other ≠ svc) (hbusy : (next.connects other).Busy)
    (hrun : next.Running run) (hkey : run.key = other.key) :
    (next.connects other).mayRun other = some run := by
  rw [hmoves.connects_of_ne hne] at hbusy ⊢
  have hrunNe : run ≠ svc := by
    intro hsame
    rw [hsame] at hkey
    exact hne (halone other hbusy hkey.symm)
  exact hsole.underway other run hbusy (hmoves.running hrun hrunNe) hkey

/-- Running services of other keys are registered as before. -/
theorem registered_of_ne (hmoves : Moves state next svc pc) (hsole : state.Sole)
    {run : ServiceRef} (hrun : next.Running run) (hkey : run.key ≠ svc.key)
    (hnone : ∀ other, (next.connects other).Busy → other.key ≠ run.key) :
    next.svcMap run.key = some run := by
  have hne : run ≠ svc := fun hsame => hkey (by rw [hsame])
  rw [hmoves.svcMap run.key hkey]
  apply hsole.registered run (hmoves.running hrun hne)
  intro other hbusy hother
  have hotherNe : other ≠ svc := fun hsame => hkey (by rw [← hother, hsame])
  exact hnone other (by rwa [hmoves.connects_of_ne hotherNe]) hother

/-- A step keeps the services of a device to one if no other connect of the key is under
way, and the running services of the key are known to the connect or registered. -/
theorem sole (hmoves : Moves state next svc pc) (hsole : state.Sole)
    (halone : ∀ other, (state.connects other).Busy → other.key = svc.key → other = svc)
    (hknown : ∀ run, pc.mayRun svc = some run → run.key = svc.key)
    (hunderway : pc.Busy → ∀ run, next.Running run → run.key = svc.key →
      pc.mayRun svc = some run)
    (hregistered : ¬ pc.Busy → ∀ run, next.Running run → run.key = svc.key →
      next.svcMap svc.key = some run)
    (hsess : ∀ other, other ≠ svc → next.stopped other = false → state.sess other = true →
      next.sess other = true)
    (hsession : pc.HasSession → next.stopped svc = false → next.sess svc = true) :
    next.Sole where
  keyed := by
    intro key other hother
    by_cases hkey : key = svc.key
    · rw [hkey] at hother ⊢
      exact hmoves.keyed other hother
    · rw [hmoves.svcMap key hkey] at hother
      exact hsole.keyed key other hother
  known := by
    intro other run hrun
    by_cases hsame : other = svc
    · rw [hsame] at hrun ⊢
      rw [hmoves.connects_self] at hrun
      exact hknown run hrun
    · rw [hmoves.connects_of_ne hsame] at hrun
      exact hsole.known other run hrun
  busy := fun _ _ => hmoves.busy hsole halone
  underway := by
    intro other run hbusy hrun hkey
    by_cases hsame : other = svc
    · rw [hsame] at hkey hbusy ⊢
      rw [hmoves.connects_self] at hbusy ⊢
      exact hunderway hbusy run hrun hkey
    · exact hmoves.underway_of_ne hsole halone hsame hbusy hrun hkey
  registered := by
    intro run hrun hnone
    by_cases hkey : run.key = svc.key
    · have hidle : ¬ pc.Busy := by
        intro hbusy
        exact hnone svc (by rwa [hmoves.connects_self]) hkey.symm
      rw [hkey]
      exact hregistered hidle run hrun hkey
    · exact hmoves.registered_of_ne hsole hrun hkey hnone
  session := by
    intro other hpc hstopped
    by_cases hsame : other = svc
    · rw [hsame] at hstopped hpc ⊢
      rw [hmoves.connects_self] at hpc
      exact hsession hpc hstopped
    · rw [hmoves.connects_of_ne hsame] at hpc
      exact hsess other hsame hstopped
        (hsole.session other hpc (hmoves.stopped other hstopped))

theorem running_of_not (hmoves : Moves state next svc pc) (hpc : ¬ pc.Started)
    {run : ServiceRef} (hrun : next.Running run) : state.Running run := by
  apply hmoves.running hrun
  intro hsame
  rw [hsame, Running, hmoves.connects_self] at hrun
  exact hpc hrun.1

/-- A connect that is under way goes on without starting or stopping anything. -/
theorem goOn (hmoves : Moves state next svc pc) (hsole : state.Sole)
    (hbusy : (state.connects svc).Busy) (hpc : ¬ pc.Started)
    (hmay : pc.mayRun svc = (state.connects svc).mayRun svc)
    (hregistered : ¬ pc.Busy → ∀ run, state.Running run → run.key = svc.key →
      next.svcMap svc.key = some run)
    (hsess : ∀ other, other ≠ svc → next.stopped other = false → state.sess other = true →
      next.sess other = true)
    (hsession : pc.HasSession → next.sess svc = true) : next.Sole := by
  apply hmoves.sole hsole
  · intro other hother hkey
    exact hsole.busy other svc hother hbusy hkey
  · intro run hrun
    rw [hmay] at hrun
    exact hsole.known svc run hrun
  · intro _ run hrun hkey
    rw [hmay]
    exact hsole.underway svc run hbusy (hmoves.running_of_not hpc hrun) hkey
  · intro hidle run hrun hkey
    exact hregistered hidle run (hmoves.running_of_not hpc hrun) hkey
  · exact hsess
  · exact fun hhas _ => hsession hhas

end Moves

/-- A step of a connect that leaves the map alone, and stops nobody. -/
theorem Sole.moves (hsole : state.Sole) (svc : ServiceRef) (pc : ConnectPc) :
    Moves state (state.setConnect svc pc) svc pc where
  connects := rfl
  svcMap := fun _ _ => rfl
  keyed := fun run hrun => hsole.keyed svc.key run hrun
  stopped := fun _ hstopped => hstopped

theorem sole_connect (hsole : state.Sole) (halone : state.Alone (.connect svc))
    (hstep : state.connect svc = some next) : next.Sole := by
  have hfirst : ∀ other, (state.connects other).Busy → other.key = svc.key →
      other = svc := fun other hbusy hkey => absurd hkey (halone other hbusy)
  have hregistered : ∀ run, state.Running run → run.key = svc.key →
      state.svcMap svc.key = some run := by
    intro run hrun hkey
    rw [← hkey]
    apply hsole.registered run hrun
    intro other hbusy hother
    exact halone other hbusy (hother.trans hkey)
  rw [connect] at hstep
  split_ifs at hstep with hfresh
  cases hold : state.svcMap svc.key with
  | some old =>
      rw [hold] at hstep
      cases hstep
      have hmoves := hsole.moves svc (.found old)
      apply hmoves.sole hsole hfirst
      · rintro run ⟨⟩
        exact hsole.keyed svc.key old hold
      · intro _ run hrun hkey
        have hsame := hregistered run (hmoves.running_of_not id hrun) hkey
        rw [← hsame, hold]
        rfl
      · exact fun hidle => absurd trivial hidle
      · exact fun _ _ _ hsess => hsess
      · exact False.elim
  | none =>
      rw [hold] at hstep
      cases hstep
      have hmoves := hsole.moves svc .accepting
      apply hmoves.sole hsole hfirst
      · rintro run ⟨⟩
      · intro _ run hrun hkey
        have hsame := hregistered run (hmoves.running_of_not id hrun) hkey
        rw [hold] at hsame
        exact absurd hsame (by simp)
      · exact fun hidle => absurd trivial hidle
      · exact fun _ _ _ hsess => hsess
      · exact False.elim

theorem sole_tickOffDelete (hsole : state.Sole)
    (hstep : state.tickOffDelete svc = some next) : next.Sole := by
  rw [tickOffDelete] at hstep
  split at hstep <;> cases hstep
  rename_i old hpc
  have hkey : old.key = svc.key := hsole.known svc old (by rw [hpc]; rfl)
  have hmoves : Moves state ((state.deleteMap old).setConnect svc (.deleted old)) svc
      (.deleted old) := by
    constructor
    case connects => rfl
    case svcMap =>
      intro key hne
      exact Function.update_of_ne (hkey ▸ hne) _ _
    case keyed =>
      intro run hrun
      rw [← hkey] at hrun
      exact absurd ((Function.update_self _ _ _).symm.trans hrun) (by simp)
    case stopped => exact fun _ hstopped => hstopped
  apply hmoves.goOn hsole
  · rw [hpc]
    trivial
  · exact id
  · rw [hpc]
    rfl
  · exact fun hidle => absurd trivial hidle
  · exact fun _ _ _ hsess => hsess
  · exact False.elim

theorem sole_tickOffLogout (hsole : state.Sole)
    (hstep : state.tickOffLogout svc = some next) : next.Sole := by
  rw [tickOffLogout] at hstep
  split at hstep <;> cases hstep
  rename_i old hpc
  apply (hsole.moves svc (.loggedOut old)).goOn hsole
  · rw [hpc]
    trivial
  · exact id
  · rw [hpc]
    rfl
  · exact fun hidle => absurd trivial hidle
  · exact fun _ _ _ hsess => hsess
  · exact False.elim

/-- The old service has a session if it is still running. -/
theorem sole_tickOffSession (hsole : state.Sole)
    (hstep : state.tickOffSession svc = some next) : next.Sole := by
  rw [tickOffSession] at hstep
  split at hstep <;> cases hstep
  rename_i old hpc
  have hbusy : (state.connects svc).Busy := by
    rw [hpc]
    trivial
  split_ifs with hsess
  · apply (hsole.moves svc (.closing old)).goOn hsole hbusy
    · exact id
    · rw [hpc]
      rfl
    · exact fun hidle => absurd trivial hidle
    · exact fun _ _ _ hsess => hsess
    · exact False.elim
  · have hmoves := hsole.moves svc .failed
    apply hmoves.sole hsole
    · intro other hother hkey
      exact hsole.busy other svc hother hbusy hkey
    · rintro run ⟨⟩
    · exact False.elim
    · intro _ run hrun hkey
      have hrunning := hmoves.running_of_not id hrun
      have hsame := hsole.underway svc run hbusy hrunning hkey
      rw [hpc] at hsame
      cases hsame
      exact absurd (hsole.session old (.of_started hrunning.1) hrunning.2) hsess
    · exact fun _ _ _ hsess => hsess
    · exact False.elim

theorem stopped_newStopConnect (svc : ServiceRef) :
    (state.newStopConnect svc).stopped svc = true := by
  rw [newStopConnect]
  split_ifs with hstopped
  · exact hstopped
  · exact Function.update_self _ _ _

theorem newStopConnect_of_ne {other : ServiceRef} (hne : other ≠ svc) :
    (state.newStopConnect svc).stopped other = state.stopped other ∧
      (state.newStopConnect svc).sess other = state.sess other := by
  rw [newStopConnect]
  split_ifs
  · exact ⟨rfl, rfl⟩
  · exact ⟨Function.update_of_ne hne _ _, Function.update_of_ne hne _ _⟩

theorem newStopConnect_kept (svc : ServiceRef) :
    (state.newStopConnect svc).svcMap = state.svcMap ∧
      (state.newStopConnect svc).connects = state.connects ∧
      (state.newStopConnect svc).receivers = state.receivers := by
  rw [newStopConnect]
  split_ifs <;> exact ⟨rfl, rfl, rfl⟩

/-- Now the old service no longer runs. -/
theorem sole_tickOffStop (hsole : state.Sole)
    (hstep : state.tickOffStop svc = some next) : next.Sole := by
  rw [tickOffStop] at hstep
  split at hstep <;> cases hstep
  rename_i old hpc
  obtain ⟨hsvcMap, hconnects, -⟩ := state.newStopConnect_kept old
  have hbusy : (state.connects svc).Busy := by
    rw [hpc]
    trivial
  have hstopped : ∀ run, (state.newStopConnect old).stopped run = false → run ≠ old := by
    rintro run hrun rfl
    rw [stopped_newStopConnect] at hrun
    exact absurd hrun (by simp)
  have hmoves : Moves state ((state.newStopConnect old).setConnect svc .accepting) svc
      .accepting := by
    constructor
    case connects =>
      rw [setConnect, hconnects]
    case svcMap =>
      intro key _
      rw [setConnect, hsvcMap]
    case keyed =>
      intro run hrun
      rw [setConnect, hsvcMap] at hrun
      exact hsole.keyed svc.key run hrun
    case stopped =>
      intro run hrun
      rwa [← (newStopConnect_of_ne (hstopped run hrun)).1]
  apply hmoves.sole hsole
  · intro other hother hkey
    exact hsole.busy other svc hother hbusy hkey
  · rintro run ⟨⟩
  · intro _ run hrun hkey
    have hsame := hsole.underway svc run hbusy (hmoves.running_of_not id hrun) hkey
    rw [hpc] at hsame
    cases hsame
    exact absurd rfl (hstopped old hrun.2)
  · exact fun hidle => absurd trivial hidle
  · intro other _ hrun hsess
    exact (newStopConnect_of_ne (hstopped other hrun)).2.trans hsess
  · exact False.elim

theorem sole_accept {ok : Bool} (hsole : state.Sole)
    (hstep : state.accept svc ok = some next) : next.Sole := by
  rw [accept] at hstep
  split_ifs at hstep with hpc hok
  · cases hstep
    have hmoves : Moves state ({ state with
        sess := Function.update state.sess svc true }.setConnect svc .accepted) svc .accepted :=
      ⟨rfl, fun _ _ => rfl, fun run hrun => hsole.keyed svc.key run hrun, fun _ h => h⟩
    apply hmoves.goOn hsole
    · rw [hpc]
      trivial
    · exact id
    · rw [hpc]
      rfl
    · exact fun hidle => absurd trivial hidle
    · intro other hne _ hsess
      exact (Function.update_of_ne hne _ _).trans hsess
    · exact fun _ => Function.update_self _ _ _
  · cases hstep
    apply (hsole.moves svc .failed).goOn hsole
    · rw [hpc]
      trivial
    · exact id
    · rw [hpc]
      rfl
    · intro _ run hrun hkey
      have hsame := hsole.underway svc run (by rw [hpc]; trivial) hrun hkey
      rw [hpc] at hsame
      cases hsame
    · exact fun _ _ _ hsess => hsess
    · exact False.elim

theorem sole_start (hsole : state.Sole) (hstep : state.start svc = some next) :
    next.Sole := by
  rw [start] at hstep
  split_ifs at hstep with hpc
  cases hstep
  have hbusy : (state.connects svc).Busy := by
    rw [hpc]
    trivial
  have hmoves : Moves state ((state.setReceiver svc .running).setConnect svc .started) svc
      .started :=
    ⟨rfl, fun _ _ => rfl, fun run hrun => hsole.keyed svc.key run hrun, fun _ h => h⟩
  apply hmoves.sole hsole
  · intro other hother hkey
    exact hsole.busy other svc hother hbusy hkey
  · rintro run ⟨⟩
    rfl
  · intro _ run hrun hkey
    by_cases hsame : run = svc
    · rw [hsame]
      rfl
    · have hold := hsole.underway svc run hbusy (hmoves.running hrun hsame) hkey
      rw [hpc] at hold
      cases hold
  · exact fun hidle => absurd trivial hidle
  · exact fun _ _ _ hsess => hsess
  · intro _ hstopped
    exact hsole.session svc (by rw [hpc]; trivial) hstopped

theorem sole_storeMap (hsole : state.Sole) (hstep : state.storeMap svc = some next) :
    next.Sole := by
  rw [storeMap] at hstep
  split_ifs at hstep with hpc
  cases hstep
  have hbusy : (state.connects svc).Busy := by
    rw [hpc]
    trivial
  have hstored : (state.insertMap svc).svcMap svc.key = some svc := Function.update_self _ _ _
  have hmoves : Moves state ((state.insertMap svc).setConnect svc .stored) svc .stored := by
    constructor
    case connects => rfl
    case svcMap => exact fun key hne => Function.update_of_ne hne _ _
    case keyed =>
      intro run hrun
      cases hstored.symm.trans hrun
      rfl
    case stopped => exact fun _ hstopped => hstopped
  apply hmoves.sole hsole
  · intro other hother hkey
    exact hsole.busy other svc hother hbusy hkey
  · rintro run ⟨⟩
  · exact False.elim
  · intro _ run hrun hkey
    by_cases hsame : run = svc
    · rw [hsame]
      exact hstored
    · have hold := hsole.underway svc run hbusy (hmoves.running hrun hsame) hkey
      rw [hpc] at hold
      cases hold
      exact absurd rfl hsame
  · exact fun _ _ _ hsess => hsess
  · intro _ hstopped
    exact hsole.session svc (by rw [hpc]; trivial) hstopped

theorem sole_step {label : RegistryStep} (hsole : state.Sole)
    (hlabel : label.ofHandleConnection) (halone : state.Alone label)
    (hstep : state.step label = some next) : next.Sole := by
  cases label with
  | connect svc => exact sole_connect hsole halone hstep
  | tickOffDelete svc => exact sole_tickOffDelete hsole hstep
  | tickOffLogout svc => exact sole_tickOffLogout hsole hstep
  | tickOffSession svc => exact sole_tickOffSession hsole hstep
  | tickOffStop svc => exact sole_tickOffStop hsole hstep
  | accept svc ok => exact sole_accept hsole hstep
  | start svc => exact sole_start hsole hstep
  | storeMap svc => exact sole_storeMap hsole hstep
  | quit svc | exceptionDisconnect svc err | delete svc | logout svc ok | session svc
  | stop svc => exact hlabel.elim

theorem sole_registryStart : registryStart.Sole where
  keyed := by simp [registryStart]
  known := by simp [registryStart, ConnectPc.mayRun]
  busy := fun _ _ hbusy => hbusy.elim
  underway := fun _ _ hbusy => hbusy.elim
  registered := fun _ hrun => hrun.1.elim
  session := fun _ hpc => hpc.elim

/-- When the connects of a device look its key up one after the other, each not before the
one before it has stored its service or failed, at most one service of the device is
running whenever none of them is under way. -/
theorem running_unique_of_run {labels : List RegistryStep}
    (hlabels : ∀ label ∈ labels, label.ofHandleConnection)
    (halone : Along step Alone registryStart labels)
    (hrun : run step registryStart labels = some state) {first second : ServiceRef}
    (hidle : ∀ svc, (state.connects svc).Busy → svc.key ≠ first.key)
    (hkey : first.key = second.key) (hfirst : state.Running first)
    (hsecond : state.Running second) : first = second := by
  have hstep : ∀ state label next, Sole state →
      RegistryStep.ofHandleConnection label ∧ Alone state label →
      step state label = some next → Sole next :=
    fun _ _ _ hsole hcond hnext => sole_step hsole hcond.1 hcond.2 hnext
  have hconnects : Along step (fun _ label => label.ofHandleConnection) registryStart labels :=
    along_of_forall (fun label hmem _ => hlabels label hmem) registryStart
  have hsole : state.Sole :=
    run_invariant hstep sole_registryStart (hconnects.and halone) hrun
  have hfound := hsole.registered first hfirst hidle
  have hother := hsole.registered second hsecond (hkey ▸ hidle)
  rw [← hkey] at hother
  exact Option.some.inj (hfound.symm.trans hother)

/-- A device connects, and then connects again and ticks the first service off. -/
def reconnect : List RegistryStep := connectTwice.take 12

theorem along_reconnect : Along step Alone registryStart reconnect := by
  have hkey : secondD.key = firstD.key := rfl
  simp [reconnect, connectTwice, Along, Alone, step, connect, accept, start, storeMap,
    setConnect, setReceiver, insertMap, registryStart, Function.update_idem,
    tickOffDelete, tickOffLogout, tickOffSession, tickOffStop, deleteMap, newStopConnect,
    hkey, ConnectPc.Busy]
  intro other hbusy
  by_cases hfirst : other = firstD
  · rw [hfirst, Function.update_self] at hbusy
    exact hbusy.elim
  · rw [Function.update_of_ne hfirst] at hbusy
    exact hbusy.elim

theorem connects_reconnect :
    (run step registryStart reconnect).map (fun state => (state.connects, state.stopped)) =
      some (Function.update (Function.update (fun _ => .fresh) firstD .stored) secondD .stored,
        Function.update (fun _ => false) firstD true) := by
  have hne : secondD ≠ firstD := by decide
  have hkey : secondD.key = firstD.key := rfl
  simp [reconnect, connectTwice, run, step, connect, accept, start, storeMap, setConnect,
    setReceiver, insertMap, registryStart, Function.update_idem, tickOffDelete, tickOffLogout,
    tickOffSession, tickOffStop, deleteMap, newStopConnect, hne, hkey]

theorem running_unique_of_run_reconnect :
    ∃ state, run step registryStart reconnect = some state ∧ state.Running secondD ∧
      ∀ svc, svc.key = secondD.key → state.Running svc → svc = secondD := by
  obtain ⟨state, hrun, hstate⟩ := Option.map_eq_some_iff.mp connects_reconnect
  obtain ⟨hconnects, hstopped⟩ := Prod.mk.inj hstate
  have hlabels : ∀ label ∈ reconnect, label.ofHandleConnection := by
    intro label hmem
    simp only [reconnect, connectTwice, List.take, List.mem_cons, List.not_mem_nil,
      or_false] at hmem
    rcases hmem with rfl | rfl | rfl | rfl | rfl | rfl | rfl | rfl | rfl | rfl | rfl | rfl <;>
      trivial
  have hidle : ∀ svc, ¬ (state.connects svc).Busy := by
    intro svc hbusy
    rw [hconnects, Function.update_apply, Function.update_apply] at hbusy
    split_ifs at hbusy <;> exact hbusy
  have hrunning : state.Running secondD := by
    rw [Running, hconnects, hstopped, Function.update_self]
    exact ⟨trivial, rfl⟩
  refine ⟨state, hrun, hrunning, fun svc hkey hsvc => ?_⟩
  exact running_unique_of_run hlabels along_reconnect hrun
    (fun other hbusy => absurd hbusy (hidle other)) hkey hsvc hrunning

/-- Both connects of the device find its key free.  The service that is stored first falls
out of the map and keeps running. -/
def connectTogether : List RegistryStep :=
  [.connect firstD, .connect secondD, .accept firstD true, .start firstD, .storeMap firstD,
    .accept secondD true, .start secondD, .storeMap secondD]

theorem both_running_after_connectTogether :
    (run step registryStart connectTogether).map (fun state =>
        ((state.connects firstD, state.stopped firstD),
          (state.connects secondD, state.stopped secondD), state.svcMap firstD.key)) =
      some ((.stored, false), (.stored, false), some secondD) ∧
    firstD ≠ secondD ∧ firstD.key = secondD.key := by
  decide +kernel

end Registry

end Xmqtt.Service
