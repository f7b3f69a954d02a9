import Xmqtt.Service.TickOff

/-!
# A connect and the receiver that it has started

The receiver is started before its service is stored, so it may end, and look
for its service in the map, before there is anything to remove.
-/

namespace Xmqtt.Service

open Xmqtt.Core

namespace Registry

variable {state next : Registry} {svc : ServiceRef}

/-- The teardown of a receiver has deleted what it found. -/
def Past : ReceiverPc → Prop
  | .deleted _ _ | .loggedOut _ | .closing _ | .ended => True
  | .fresh | .running | .found _ _ => False

/-- The connect has returned, and its receiver has ended if it has started one. -/
def Finished (state : Registry) (svc : ServiceRef) : Prop :=
  state.connects svc = .failed ∨
    state.connects svc = .stored ∧ state.receivers svc = .ended

/-- The receiver ends with a read error, and not before its service was stored. -/
def EndsStored (state : Registry) : RegistryStep → Prop
  | .exceptionDisconnect svc err => state.connects svc = .stored ∧ err ≠ .tooLarge
  | .quit _ => False
  | _ => True

/-- What makes a receiver remove its own service in the end. -/
structure Cleans (svc : ServiceRef) (state : Registry) : Prop where
  elsewhere : ∀ key, key ≠ svc.key → state.svcMap key ≠ some svc
  unstored : state.connects svc ≠ .stored → state.svcMap svc.key ≠ some svc
  before : ¬ (state.connects svc).Started → state.receivers svc = .fresh
  running : state.receivers svc = .running → state.connects svc = .stored →
    state.svcMap svc.key = some svc
  lookedUp : ∀ err found, state.receivers svc = .found err found →
    found = svc ∧ state.connects svc = .stored
  past : Past (state.receivers svc) →
    state.connects svc = .stored ∧ state.svcMap svc.key ≠ some svc

namespace Cleans

/-- A step of the connect before it starts the receiver. -/
theorem beforeStart (hcleans : Cleans svc state)
    (hbefore : ¬ (state.connects svc).Started)
    (hreceivers : next.receivers svc = state.receivers svc)
    (hsvcMap : ∀ key, next.svcMap key = some svc → state.svcMap key = some svc) :
    Cleans svc next := by
  have hfresh : next.receivers svc = .fresh := hreceivers.trans (hcleans.before hbefore)
  have hnot : state.connects svc ≠ .stored := by
    intro hstored
    rw [hstored] at hbefore
    exact hbefore trivial
  constructor
  case elsewhere => exact fun key hkey hmem => hcleans.elsewhere key hkey (hsvcMap key hmem)
  case unstored => exact fun _ hmem => hcleans.unstored hnot (hsvcMap svc.key hmem)
  case before => exact fun _ => hfresh
  case running =>
    intro hrunning
    rw [hfresh] at hrunning
    cases hrunning
  case lookedUp =>
    intro err found hfound
    rw [hfresh] at hfound
    cases hfound
  case past =>
    intro hpast
    rw [hfresh] at hpast
    exact hpast.elim

/-- A step of the teardown behind its delete. -/
theorem behindDelete (hcleans : Cleans svc state) (hpast : Past (state.receivers svc))
    {pc : ReceiverPc} (hpc : Past pc) (hreceivers : next.receivers svc = pc)
    (hconnects : next.connects = state.connects) (hsvcMap : next.svcMap = state.svcMap) :
    Cleans svc next := by
  obtain ⟨hstored, hgone⟩ := hcleans.past hpast
  constructor
  case elsewhere =>
    rw [hsvcMap]
    exact hcleans.elsewhere
  case unstored =>
    rw [hsvcMap, hconnects]
    exact hcleans.unstored
  case before =>
    rw [hconnects, hstored]
    exact fun hnot => absurd trivial hnot
  case running =>
    intro hrunning
    rw [← hreceivers, hrunning] at hpc
    exact hpc.elim
  case lookedUp =>
    intro err found hfound
    rw [← hreceivers, hfound] at hpc
    exact hpc.elim
  case past =>
    rw [hconnects, hsvcMap]
    exact fun _ => ⟨hstored, hgone⟩

end Cleans

theorem cleans_start (hcleans : Cleans svc state) (hstep : state.start svc = some next) :
    Cleans svc next := by
  rw [start] at hstep
  split_ifs at hstep with hpc
  cases hstep
  have hconnects : ((state.setReceiver svc .running).setConnect svc .started).connects svc =
      .started := Function.update_self _ _ _
  have hreceivers : ((state.setReceiver svc .running).setConnect svc .started).receivers svc =
      .running := Function.update_self _ _ _
  have hnot : state.connects svc ≠ .stored := by
    rw [hpc]
    simp
  constructor
  case elsewhere => exact hcleans.elsewhere
  case unstored => exact fun _ => hcleans.unstored hnot
  case before =>
    rw [hconnects]
    exact fun hidle => absurd trivial hidle
  case running =>
    rw [hconnects]
    exact fun _ hstored => absurd hstored (by simp)
  case lookedUp =>
    rw [hreceivers]
    exact fun err found hfound => absurd hfound (by simp)
  case past =>
    rw [hreceivers]
    exact False.elim

theorem cleans_storeMap (hcleans : Cleans svc state)
    (hstep : state.storeMap svc = some next) : Cleans svc next := by
  rw [storeMap] at hstep
  split_ifs at hstep with hpc
  cases hstep
  have hconnects : ((state.insertMap svc).setConnect svc .stored).connects svc = .stored :=
    Function.update_self _ _ _
  have hnot : state.connects svc ≠ .stored := by
    rw [hpc]
    simp
  constructor
  case elsewhere =>
    intro key hkey hmem
    exact hcleans.elsewhere key hkey ((Function.update_of_ne hkey _ _).symm.trans hmem)
  case unstored => exact fun hunstored => absurd hconnects hunstored
  case before =>
    rw [hconnects]
    exact fun hidle => absurd trivial hidle
  case running => exact fun _ _ => Function.update_self _ _ _
  case lookedUp =>
    intro err found hfound
    exact absurd (hcleans.lookedUp err found hfound).2 hnot
  case past =>
    intro hpast
    exact absurd (hcleans.past hpast).1 hnot

theorem cleans_exceptionDisconnect {err : ExitErr} (hcleans : Cleans svc state)
    (hcond : state.EndsStored (.exceptionDisconnect svc err))
    (hstep : state.exceptionDisconnect svc err = some next) : Cleans svc next := by
  obtain ⟨hstored, herr⟩ := hcond
  rw [exceptionDisconnect] at hstep
  split_ifs at hstep with hrunning
  rw [hcleans.running hrunning hstored] at hstep
  cases hstep
  have hreceivers : (state.setReceiver svc (.found err svc)).receivers svc = .found err svc :=
    Function.update_self _ _ _
  constructor
  case elsewhere => exact hcleans.elsewhere
  case unstored => exact hcleans.unstored
  case before =>
    change ¬ (state.connects svc).Started → _
    rw [hstored]
    exact fun hidle => absurd trivial hidle
  case running =>
    rw [hreceivers]
    exact fun hrunning => absurd hrunning (by simp)
  case lookedUp =>
    intro err' found hfound
    rw [hreceivers] at hfound
    cases hfound
    exact ⟨rfl, hstored⟩
  case past =>
    rw [hreceivers]
    exact False.elim

theorem cleans_delete (hcleans : Cleans svc state) (hstep : state.delete svc = some next) :
    Cleans svc next := by
  rw [delete] at hstep
  split at hstep <;> cases hstep
  rename_i err found hpc
  obtain ⟨rfl, hstored⟩ := hcleans.lookedUp err found hpc
  have hreceivers : (((state.record found .remove (state.svcMap found.key).toList).deleteMap
      found).setReceiver found (.deleted err found)).receivers found = .deleted err found :=
    Function.update_self _ _ _
  have hgone : (((state.record found .remove (state.svcMap found.key).toList).deleteMap
      found).setReceiver found (.deleted err found)).svcMap found.key ≠ some found := by
    change Function.update state.svcMap found.key none found.key ≠ some found
    simp
  constructor
  case elsewhere =>
    intro key hkey hmem
    exact hcleans.elsewhere key hkey ((Function.update_of_ne hkey _ _).symm.trans hmem)
  case unstored => exact fun _ => hgone
  case before =>
    change ¬ (state.connects found).Started → _
    rw [hstored]
    exact fun hidle => absurd trivial hidle
  case running =>
    rw [hreceivers]
    exact fun hrunning => absurd hrunning (by simp)
  case lookedUp =>
    rw [hreceivers]
    exact fun err found hfound => absurd hfound (by simp)
  case past => exact fun _ => ⟨hstored, hgone⟩

/-- The steps of a connect before it starts its receiver store nothing. -/
theorem unstarted_of_step {label : RegistryStep} (hlabel : label.beforeStart)
    (hstep : state.step label = some next) :
    ¬ (state.connects label.service).Started ∧ next.receivers = state.receivers ∧
      ∀ key svc, next.svcMap key = some svc → state.svcMap key = some svc := by
  have hkept : ∀ pc : ConnectPc, ¬ pc.Started → ∀ svc, state.connects svc = pc →
      ∀ after : Registry, after.receivers = state.receivers → after.svcMap = state.svcMap →
      ¬ (state.connects svc).Started ∧ after.receivers = state.receivers ∧
        ∀ key svc, after.svcMap key = some svc → state.svcMap key = some svc := by
    rintro pc hpc svc rfl after hreceivers hsvcMap
    refine ⟨hpc, hreceivers, fun key svc hmem => ?_⟩
    rwa [hsvcMap] at hmem
  cases label with
  | connect svc =>
      simp only [step, connect] at hstep
      split_ifs at hstep with hpc
      split at hstep <;> cases hstep <;> exact hkept .fresh id svc hpc _ rfl rfl
  | tickOffDelete svc =>
      simp only [step, tickOffDelete] at hstep
      split at hstep <;> cases hstep
      rename_i old hpc
      refine ⟨(hkept _ id svc hpc state rfl rfl).1, rfl, fun key other hmem => ?_⟩
      change Function.update state.svcMap old.key none key = some other at hmem
      rw [Function.update_apply] at hmem
      split_ifs at hmem
      exact hmem
  | tickOffLogout svc =>
      simp only [step, tickOffLogout] at hstep
      split at hstep <;> cases hstep
      rename_i old hpc
      exact hkept _ id svc hpc _ rfl rfl
  | tickOffSession svc =>
      simp only [step, tickOffSession] at hstep
      split at hstep <;> cases hstep
      rename_i old hpc
      exact hkept _ id svc hpc _ rfl rfl
  | tickOffStop svc =>
      simp only [step, tickOffStop] at hstep
      split at hstep <;> cases hstep
      rename_i old hpc
      obtain ⟨hsvcMap, -, hreceivers⟩ := state.newStopConnect_kept old
      exact hkept _ id svc hpc _ hreceivers hsvcMap
  | accept svc ok =>
      simp only [step, accept] at hstep
      split_ifs at hstep with hpc <;> cases hstep <;> exact hkept _ id svc hpc _ rfl rfl
  | start svc | storeMap svc | quit svc | exceptionDisconnect svc err | delete svc
  | logout svc ok | session svc | stop svc => exact hlabel.elim

/-- One step of a connect or of its receiver. -/
theorem cleans_step {label : RegistryStep} (hcleans : Cleans label.service state)
    (hcond : state.EndsStored label) (hstep : state.step label = some next) :
    Cleans label.service next := by
  by_cases hlabel : label.beforeStart
  · obtain ⟨hbefore, hreceivers, hsvcMap⟩ := unstarted_of_step hlabel hstep
    exact hcleans.beforeStart hbefore (congrFun hreceivers _) fun key => hsvcMap key _
  · cases label with
    | start svc => exact cleans_start hcleans hstep
    | storeMap svc => exact cleans_storeMap hcleans hstep
    | quit svc => exact hcond.elim
    | exceptionDisconnect svc err => exact cleans_exceptionDisconnect hcleans hcond hstep
    | delete svc => exact cleans_delete hcleans hstep
    | logout svc ok =>
        simp only [step, logout] at hstep
        split at hstep <;> cases hstep
        rename_i err found hpc
        have hpast : Past (state.receivers svc) := by
          rw [hpc]
          trivial
        refine hcleans.behindDelete hpast ?_ (Function.update_self _ _ _) rfl rfl
        split <;> trivial
    | session svc =>
        simp only [step, session] at hstep
        split at hstep <;> cases hstep
        rename_i found hpc
        have hpast : Past (state.receivers svc) := by
          rw [hpc]
          trivial
        refine hcleans.behindDelete hpast ?_ (Function.update_self _ _ _) rfl rfl
        split <;> trivial
    | stop svc =>
        simp only [step, stop] at hstep
        split at hstep <;> cases hstep
        rename_i found hpc
        have hpast : Past (state.receivers svc) := by
          rw [hpc]
          trivial
        obtain ⟨hsvcMap, hconnects, -⟩ :=
          (state.record svc .stop [found]).newStopConnect_kept found
        have hended : Past .ended := trivial
        exact hcleans.behindDelete hpast hended (Function.update_self _ _ _) hconnects hsvcMap
    | _ => exact absurd trivial hlabel

/-- In every interleaving of a connect with its receiver in which the receiver ends with a
read error after its service was stored, the service is not in the map when both have
finished. -/
theorem unregistered_of_run {svc : ServiceRef} {labels : List RegistryStep}
    (hfresh : state.connects svc = .fresh) (hreceiver : state.receivers svc = .fresh)
    (hunknown : ∀ key, state.svcMap key ≠ some svc)
    (hlabels : ∀ label ∈ labels, label.service = svc)
    (hcond : Along step EndsStored state labels) (hrun : run step state labels = some next)
    (hfinished : next.Finished svc) (key : Go.Bytes) : next.svcMap key ≠ some svc := by
  have hstart : Cleans svc state := by
    constructor
    case elsewhere => exact fun key _ => hunknown key
    case unstored => exact fun _ => hunknown svc.key
    case before => exact fun _ => hreceiver
    case running =>
      rw [hreceiver]
      exact fun hrunning => absurd hrunning (by simp)
    case lookedUp =>
      rw [hreceiver]
      exact fun err found hfound => absurd hfound (by simp)
    case past =>
      rw [hreceiver]
      exact False.elim
  have hstep : ∀ state label next, Cleans svc state →
      RegistryStep.service label = svc ∧ EndsStored state label →
      step state label = some next → Cleans svc next := by
    rintro state label next hcleans ⟨rfl, hends⟩ hnext
    exact cleans_step hcleans hends hnext
  have hown : Along step (fun _ label => label.service = svc) state labels :=
    along_of_forall (fun label hmem _ => hlabels label hmem) state
  have hcleans : Cleans svc next := run_invariant hstep hstart (hown.and hcond) hrun
  by_cases hkey : key = svc.key
  · rw [hkey]
    rcases hfinished with hfailed | ⟨hstored, hended⟩
    · apply hcleans.unstored
      rw [hfailed]
      simp
    · apply (hcleans.past _).2
      rw [hended]
      trivial
  · exact hcleans.elsewhere key hkey

theorem unregistered_of_run_close :
    ∃ state, run step registryStart (connectAndClose firstD) = some state ∧
      state.Finished firstD ∧ ∀ key, state.svcMap key ≠ some firstD := by
  have hend : (run step registryStart (connectAndClose firstD)).map (fun state =>
      (state.connects firstD, state.receivers firstD)) = some (.stored, .ended) := by
    decide +kernel
  obtain ⟨state, hrun, hstate⟩ := Option.map_eq_some_iff.mp hend
  obtain ⟨hstored, hended⟩ := Prod.mk.inj hstate
  have hfinished : state.Finished firstD := Or.inr ⟨hstored, hended⟩
  have hcond : Along step EndsStored registryStart (connectAndClose firstD) := by
    simp [connectAndClose, Along, EndsStored, step, connect, accept, start, storeMap,
      setConnect, setReceiver, insertMap, registryStart]
  refine ⟨state, hrun, hfinished, ?_⟩
  apply unregistered_of_run rfl rfl (by simp [registryStart]) _ hcond hrun hfinished
  simp [connectAndClose, RegistryStep.service]

/-- The read fails right after the start: the receiver finds nothing under its key, and
then the service is stored. -/
def closeBeforeStore : List RegistryStep :=
  [.connect firstD, .accept firstD true, .start firstD, .exceptionDisconnect firstD .eof,
    .storeMap firstD]

theorem registered_after_closeBeforeStore :
    (∀ label ∈ closeBeforeStore, label.service = firstD) ∧
      (run step registryStart closeBeforeStore).map (fun state =>
          (state.connects firstD, state.receivers firstD, state.svcMap firstD.key)) =
        some (.stored, .ended, some firstD) := by
  decide +kernel

end Registry

end Xmqtt.Service
