import Xmqtt.Service.Dispatch

/-!
# Keys of devices

Product key and device name are joined to one key, with a colon between them.
A key stands for one device only if the names themselves have no colon.
-/

namespace Xmqtt.Service

open Xmqtt.Core Xmqtt.Go

/-- Neither name has a colon. -/
def ServiceRef.ColonFree (this : ServiceRef) : Prop :=
  0x3a ∉ this.productKey ∧ 0x3a ∉ this.deviceName

instance (this : ServiceRef) : Decidable this.ColonFree :=
  inferInstanceAs (Decidable (_ ∧ _))

/-- The service that `PushMsg` hands a message with the topic to. -/
def pushTarget (svcMap : Bytes → Option ServiceRef) (topic : Bytes) : Option ServiceRef :=
  match route topic with
  | none => none
  | some (pKey, dName) => svcMap (serviceKey pKey dName)

/-- Names without a colon can be read off their key. -/
theorem serviceKey_inj {productKey deviceName pKey dName : Bytes}
    (hproductKey : 0x3a ∉ productKey) (hdeviceName : 0x3a ∉ deviceName)
    (hkey : serviceKey pKey dName = serviceKey productKey deviceName) :
    pKey = productKey ∧ dName = deviceName := by
  have hcolon : textBytes ":" = [0x3a] := by decide +kernel
  rw [serviceKey, serviceKey, hcolon, List.append_assoc, List.append_assoc] at hkey
  have hparts := (List.append_cons_inj_of_notMem hproductKey hdeviceName).mp hkey.symm
  exact ⟨hparts.1.symm, hparts.2.2.symm⟩

namespace Registry

variable {state next : Registry} {label : RegistryStep}

theorem svcMap_newStopConnect (state : Registry) (svc : ServiceRef) :
    (state.newStopConnect svc).svcMap = state.svcMap := by
  rw [newStopConnect]
  split_ifs <;> rfl

theorem registered_of_deleteMap {old svc : ServiceRef} {key : Bytes}
    (hnext : (state.deleteMap old).svcMap key = some svc) : state.svcMap key = some svc := by
  rw [svcMap_deleteMap, Function.update_apply] at hnext
  split_ifs at hnext
  exact hnext

theorem registered_of_insertMap {stored svc : ServiceRef} {key : Bytes}
    (hnext : (state.insertMap stored).svcMap key = some svc) :
    state.svcMap key = some svc ∨ key = svc.key ∧ stored = svc := by
  rw [svcMap_insertMap, Function.update_apply] at hnext
  split_ifs at hnext with hkey
  · cases hnext
    exact Or.inr ⟨hkey, rfl⟩
  · exact Or.inl hnext

/-- Only `storeMap` registers a service. -/
theorem registered_of_step (hstep : state.step label = some next) {key : Bytes}
    {svc : ServiceRef} (hnext : next.svcMap key = some svc) :
    state.svcMap key = some svc ∨
      key = svc.key ∧ state.connects svc = .started ∧ label = .storeMap svc := by
  cases label with
  | connect svc =>
      simp only [step, connect] at hstep
      split_ifs at hstep
      split at hstep <;> cases hstep <;> exact Or.inl hnext
  | tickOffLogout svc | tickOffSession svc | logout svc ok | session svc =>
      simp only [step, tickOffLogout, tickOffSession, logout, session] at hstep
      split at hstep <;> cases hstep
      exact Or.inl hnext
  | tickOffDelete svc | delete svc =>
      simp only [step, tickOffDelete, delete] at hstep
      split at hstep <;> cases hstep
      exact Or.inl (registered_of_deleteMap hnext)
  | tickOffStop svc =>
      simp only [step, tickOffStop] at hstep
      split at hstep <;> cases hstep
      exact Or.inl ((congrFun (svcMap_newStopConnect state _) key).symm.trans hnext)
  | stop svc =>
      simp only [step, stop] at hstep
      split at hstep <;> cases hstep
      exact Or.inl
        ((congrFun (svcMap_newStopConnect (state.record svc _ _) _) key).symm.trans hnext)
  | accept svc ok =>
      simp only [step, accept] at hstep
      split_ifs at hstep <;> cases hstep <;> exact Or.inl hnext
  | start svc | quit svc =>
      simp only [step, start, quit] at hstep
      split_ifs at hstep
      cases hstep
      exact Or.inl hnext
  | storeMap stored =>
      simp only [step, storeMap] at hstep
      split_ifs at hstep with hpc
      cases hstep
      rcases registered_of_insertMap hnext with hold | ⟨hkey, rfl⟩
      · exact Or.inl hold
      · exact Or.inr ⟨hkey, hpc, rfl⟩
  | exceptionDisconnect svc err =>
      simp only [step, exceptionDisconnect] at hstep
      split at hstep
      · split at hstep <;> cases hstep <;> exact Or.inl hnext
      · cases hstep

/-- Every registered service is under its own key, and its names have no colon. -/
def Named (state : Registry) : Prop :=
  ∀ key svc, state.svcMap key = some svc → key = svc.key ∧ svc.ColonFree

theorem named_step (hnamed : state.Named) (hcolonFree : label.service.ColonFree)
    (hstep : state.step label = some next) : next.Named := by
  intro key svc hsvc
  rcases registered_of_step hstep hsvc with hold | ⟨hkey, -, rfl⟩
  · exact hnamed key svc hold
  · exact ⟨hkey, hcolonFree⟩

/-- The service is in the map. -/
def Registered (state : Registry) (svc : ServiceRef) : Prop :=
  ∃ key, state.svcMap key = some svc

/-- A key finds the service of the device that it was made for and no other, whether a
connect, a disconnect or `PushMsg` looks it up. -/
structure Routed (state : Registry) : Prop where
  lookup : ∀ productKey deviceName svc,
    state.svcMap (serviceKey productKey deviceName) = some svc ↔
      state.Registered svc ∧ svc.productKey = productKey ∧ svc.deviceName = deviceName
  pushed : ∀ topic svc, pushTarget state.svcMap topic = some svc ↔
    state.Registered svc ∧ route topic = some (svc.productKey, svc.deviceName)

theorem Named.routed (hnamed : state.Named) : state.Routed := by
  have hlookup : ∀ productKey deviceName svc,
      state.svcMap (serviceKey productKey deviceName) = some svc ↔
        state.Registered svc ∧ svc.productKey = productKey ∧ svc.deviceName = deviceName := by
    intro productKey deviceName svc
    constructor
    · intro hsvc
      obtain ⟨hkey, hproductKey, hdeviceName⟩ := hnamed _ svc hsvc
      obtain ⟨hsame, hsame'⟩ := serviceKey_inj hproductKey hdeviceName hkey
      exact ⟨⟨_, hsvc⟩, hsame.symm, hsame'.symm⟩
    · rintro ⟨⟨key, hsvc⟩, rfl, rfl⟩
      obtain ⟨hkey, -⟩ := hnamed key svc hsvc
      rw [hkey] at hsvc
      exact hsvc
  refine ⟨hlookup, fun topic svc => ?_⟩
  rw [pushTarget]
  cases hroute : route topic with
  | none => simp
  | some names =>
      obtain ⟨pKey, dName⟩ := names
      change state.svcMap (serviceKey pKey dName) = some svc ↔ _
      rw [hlookup pKey dName svc]
      constructor
      · rintro ⟨hregistered, rfl, rfl⟩
        exact ⟨hregistered, rfl⟩
      · rintro ⟨hregistered, hnames⟩
        cases hnames
        exact ⟨hregistered, rfl, rfl⟩

/-- In every run in which no device that connects has a colon in its names, a message is
handed to a registered service if and only if the last two parts of its topic are the names
of the service, and services of different devices have different keys. -/
theorem routed_of_run {labels : List RegistryStep}
    (hcolonFree : ∀ label ∈ labels, label.service.ColonFree)
    (hrun : run step registryStart labels = some state) :
    state.Routed ∧ ∀ first ∈ labels, ∀ second ∈ labels,
      first.service.key = second.service.key →
      first.service.productKey = second.service.productKey ∧
        first.service.deviceName = second.service.deviceName := by
  have hstart : registryStart.Named := by
    intro key svc hsvc
    cases hsvc
  have halong : Along step (fun _ label => label.service.ColonFree) registryStart labels :=
    along_of_forall (fun label hmem _ => hcolonFree label hmem) registryStart
  have hnamed : state.Named :=
    run_invariant (fun _ _ _ hnamed hcond hnext => named_step hnamed hcond hnext) hstart
      halong hrun
  refine ⟨hnamed.routed, fun first _ second hsecond hkey => ?_⟩
  obtain ⟨hproductKey, hdeviceName⟩ := hcolonFree second hsecond
  exact serviceKey_inj hproductKey hdeviceName hkey

theorem routed_of_run_connectTwice :
    ∃ state, run step registryStart connectTwice = some state ∧ state.Routed := by
  have hsome : (run step registryStart connectTwice).isSome = true := by decide +kernel
  obtain ⟨state, hrun⟩ := Option.isSome_iff_exists.mp hsome
  exact ⟨state, hrun, (routed_of_run (by decide +kernel) hrun).1⟩

/-- The user names "b&a:x" and "x:b&a". -/
def productWithColon : ServiceRef := ⟨1, textBytes "a:x", textBytes "b"⟩

def deviceWithColon : ServiceRef := ⟨2, textBytes "a", textBytes "x:b"⟩

/-- Two devices connect, the second one ticks the first off. -/
def colons : List RegistryStep :=
  [.connect productWithColon, .accept productWithColon true, .start productWithColon,
    .storeMap productWithColon, .connect deviceWithColon]

/-- A message to the second device is handed to the first, and the second device finds the
first under its key. -/
theorem misrouted_with_colons :
    (run step registryStart (colons.take 4)).map (fun state =>
        pushTarget state.svcMap (textBytes "/sys/a/x:b")) = some (some productWithColon) ∧
      route (textBytes "/sys/a/x:b") = some (textBytes "a", textBytes "x:b") ∧
      productWithColon.productKey ≠ textBytes "a" ∧
      (run step registryStart colons).map (fun state => state.connects deviceWithColon) =
        some (.found productWithColon) := by
  decide +kernel

end Registry

end Xmqtt.Service
