import Xmqtt.Service.Registry
import Xmqtt.Sessions.Session

/-!
# Services and their sessions

Services are registered by product key and device name, sessions by client id.
Here connects and disconnects run one after the other, each as a whole; the
service that a session was made for identifies the session.
-/

namespace Xmqtt.Service

open Xmqtt.Core Xmqtt.Go Xmqtt.Message Xmqtt.Sessions

/-- The disconnect of a service has deleted a session from the store. -/
structure Removal where
  service : ServiceRef
  session : ServiceRef
  deriving DecidableEq, Repr

/-- `st` is the store of `memProvider`, `receivers` the services whose receiver goroutine
has not ended.  `removals` is history. -/
structure Connections where
  gsvcid : ℕ
  svcMap : Bytes → Option ServiceRef
  sess : ServiceRef → Option Session
  st : Bytes → Option ServiceRef
  receivers : List ServiceRef
  removals : List Removal

def connectionsStart : Connections := ⟨0, fun _ => none, fun _ => none, fun _ => none, [], []⟩

inductive ConnectionsStep where
  /-- `handleConnection` reads this CONNECT.  Whether the device is logged in and whether
  the CONNACK can be written is up to others. -/
  | connect (buf : Bytes) (login answered : Bool)
  /-- The receiver of the service ends with `exceptionDisconnect`. -/
  | disconnect (svc : ServiceRef) (err : ExitErr) (logout : Bool)
  deriving DecidableEq, Repr

/-- The beginning of `handleConnection`: the CONNECT, with its product key and device
name. -/
def request (buf : Bytes) : Option (ConnectMessage × Bytes × Bytes) :=
  match newConnectMessage.decode (.full buf) with
  | .done req _ =>
      let req := if req.keepAlive = 0 then req.setKeepAlive (5 * 60) else req
      match req.username.splitOn 0x26 with
      | [deviceName, productKey] =>
          if req.password = [] then none else some (req, productKey, deviceName)
      | _ => none
  | _ => none

/-- The beginning of `getSession`: a device without a client id gets one. -/
def identified (svc : ServiceRef) (req : ConnectMessage) : ConnectMessage :=
  if req.clientId.length = 0 then
    (req.setClientId (textBytes ("internalclient" ++ toString svc.id))).1.setCleanSession true
  else req

namespace Connections

/-- `svcMap.Delete`. -/
def deleteMap (state : Connections) (svc : ServiceRef) : Connections :=
  { state with svcMap := Function.update state.svcMap svc.key none }

/-- `sessMgr.Del(svc.sess.ID())` and `newStopConnect`. -/
def close (state : Connections) (svc : ServiceRef) (sess : Session) : Connections :=
  { state with
    st := Function.update state.st sess.ID none
    sess := Function.update state.sess svc none }

/-- Tick off the service that is registered under the key of `svc`.  Without a session
`ID` panics, and nothing follows. -/
def tickOff (state : Connections) (svc : ServiceRef) : Connections × Bool :=
  match state.svcMap svc.key with
  | none => (state, true)
  | some old =>
      match state.sess old with
      | none => (state.deleteMap old, false)
      | some sess => ((state.deleteMap old).close old sess, true)

/-- `New` overwrites the session that is stored under the client id. -/
def getSession (state : Connections) (svc : ServiceRef) (req : ConnectMessage) :
    Connections × Bool :=
  let req := identified svc req
  let made := { state with st := Function.update state.st req.clientId (some svc) }
  match Session.init req with
  | some sess => ({ made with sess := Function.update made.sess svc (some sess) }, true)
  | none => (made, false)

/-- `start` and `storeMap`. -/
def storeMap (state : Connections) (svc : ServiceRef) : Connections :=
  { state with
    svcMap := Function.update state.svcMap svc.key (some svc)
    receivers := svc :: state.receivers }

/-- The end of `handleConnection`, when the device is logged in. -/
def accept (state : Connections) (svc : ServiceRef) (req : ConnectMessage) (answered : Bool) :
    Connections :=
  match state.getSession svc req with
  | (state, false) => state
  | (state, true) => if answered then state.storeMap svc else state

def handleConnection (state : Connections) (buf : Bytes) (login answered : Bool) :
    Connections :=
  match request buf with
  | none => state
  | some (req, productKey, deviceName) =>
      let svc : ServiceRef := ⟨state.gsvcid + 1, productKey, deviceName⟩
      match { state with gsvcid := state.gsvcid + 1 }.tickOff svc with
      | (state, false) => state
      | (state, true) => if login then state.accept svc req answered else state

/-- A packet that is too large ends a receiver with the nil error, and behind any error but
`io.EOF` a logout without an error does: both times `Error` of a nil error panics. -/
def exceptionDisconnect (state : Connections) (svc : ServiceRef) (err : ExitErr)
    (logout : Bool) : Connections :=
  match state.svcMap svc.key with
  | none => state
  | some found =>
      if err = .tooLarge then state
      else if err ≠ .eof ∧ logout = true then state.deleteMap found
      else
        match state.sess found with
        | none => state.deleteMap found
        | some sess =>
            { (state.deleteMap found).close found sess with
              removals := (state.st sess.ID).toList.map (⟨svc, ·⟩) ++ state.removals }

def step (state : Connections) : ConnectionsStep → Option Connections
  | .connect buf login answered => some (state.handleConnection buf login answered)
  | .disconnect svc err logout =>
      if svc ∈ state.receivers then
        some { state.exceptionDisconnect svc err logout with
          receivers := state.receivers.erase svc }
      else none

/-- Every registered service has its own session in the store, and no disconnect has
deleted the session of another service. -/
structure Consistent (state : Connections) : Prop where
  stored : ∀ key svc, state.svcMap key = some svc →
    ∃ sess, state.sess svc = some sess ∧ state.st sess.ID = some svc
  removals : ∀ removal ∈ state.removals, removal.session = removal.service

/-- A CONNECT has another client id than the services that are registered under other keys,
and a service that disconnects finds no other one under its key. -/
def Distinct (state : Connections) : ConnectionsStep → Prop
  | .connect buf _ _ => ∀ req productKey deviceName,
      request buf = some (req, productKey, deviceName) →
      ∀ key other sess, state.svcMap key = some other →
        key ≠ serviceKey productKey deviceName → state.sess other = some sess →
        sess.ID ≠ (identified ⟨state.gsvcid + 1, productKey, deviceName⟩ req).clientId
  | .disconnect svc _ _ => ∀ other, state.svcMap svc.key = some other → other = svc

/-! ## The two registries stay together -/

/-- What is kept from one call to the next. -/
structure Kept (state : Connections) : Prop extends Consistent state where
  keyed : ∀ key svc, state.svcMap key = some svc → svc.key = key

variable {state : Connections} {svc old : ServiceRef} {sess : Session}

/-- What is left when a key is deleted. -/
theorem of_deleteMap {key : Bytes} {other : ServiceRef}
    (hother : (state.deleteMap svc).svcMap key = some other) :
    state.svcMap key = some other ∧ key ≠ svc.key := by
  change Function.update state.svcMap svc.key none key = some other at hother
  rw [Function.update_apply] at hother
  split_ifs at hother with hkey
  exact ⟨hother, hkey⟩

namespace Kept

theorem start : Kept connectionsStart where
  stored := by simp [connectionsStart]
  removals := by simp [connectionsStart]
  keyed := by simp [connectionsStart]

/-- Two registered services do not share a session. -/
theorem id_injective (hkept : Kept state) {key key' : Bytes} {other : ServiceRef}
    {sess' : Session} (hold : state.svcMap key = some old)
    (hother : state.svcMap key' = some other) (hsess : state.sess old = some sess)
    (hsess' : state.sess other = some sess') (hid : sess'.ID = sess.ID) : other = old := by
  obtain ⟨found, hfound, hstored⟩ := hkept.stored key old hold
  obtain ⟨found', hfound', hstored'⟩ := hkept.stored key' other hother
  rw [hsess] at hfound
  rw [hsess'] at hfound'
  cases hfound
  cases hfound'
  rw [hid, hstored] at hstored'
  exact (Option.some.inj hstored').symm

theorem deleteMap (hkept : Kept state) (svc : ServiceRef) : Kept (state.deleteMap svc) where
  stored := fun key other hother => hkept.stored key other (of_deleteMap hother).1
  removals := hkept.removals
  keyed := fun key other hother => hkept.keyed key other (of_deleteMap hother).1

/-- A registered service that leaves takes its own session along and no other. -/
theorem close (hkept : Kept state) (hold : state.svcMap old.key = some old)
    (hsess : state.sess old = some sess) : Kept ((state.deleteMap old).close old sess) where
  stored := by
    intro key other hdeleted
    obtain ⟨hother, hkey⟩ := of_deleteMap hdeleted
    obtain ⟨found, hfound, hstored⟩ := hkept.stored key other hother
    have hne : other ≠ old := by
      intro hsame
      rw [hsame] at hother
      exact hkey (hkept.keyed key old hother).symm
    have hid : found.ID ≠ sess.ID := by
      intro hid
      exact hne (hkept.id_injective hold hother hsess hfound hid)
    refine ⟨found, (Function.update_of_ne hne _ _).trans hfound, ?_⟩
    exact (Function.update_of_ne hid _ _).trans hstored
  removals := hkept.removals
  keyed := (hkept.deleteMap old).keyed

/-- The key of a new service is free once the old one is ticked off, and the others are
what they were. -/
theorem tickOff (hkept : Kept state) (svc : ServiceRef) :
    Kept (state.tickOff svc).1 ∧ (state.tickOff svc).1.svcMap svc.key = none ∧
      ∀ key other, (state.tickOff svc).1.svcMap key = some other →
        state.svcMap key = some other ∧
          (state.tickOff svc).1.sess other = state.sess other := by
  rw [Connections.tickOff]
  cases hold : state.svcMap svc.key with
  | none => exact ⟨hkept, hold, fun _ _ hother => ⟨hother, rfl⟩⟩
  | some old =>
      have hkey := hkept.keyed svc.key old hold
      obtain ⟨sess, hsess, -⟩ := hkept.stored svc.key old hold
      rw [← hkey] at hold ⊢
      simp only [hsess]
      refine ⟨hkept.close hold hsess, Function.update_self _ _ _, fun key other hdeleted => ?_⟩
      obtain ⟨hother, hne⟩ := of_deleteMap hdeleted
      refine ⟨hother, Function.update_of_ne ?_ _ _⟩
      intro hsame
      rw [hsame] at hother
      exact hne (hkept.keyed key old hother).symm

/-- A new session spoils no other one if its client id is new. -/
theorem getSession (hkept : Kept state) (hfree : state.svcMap svc.key = none)
    {req : ConnectMessage}
    (hid : ∀ key other sess, state.svcMap key = some other → state.sess other = some sess →
      sess.ID ≠ (identified svc req).clientId) :
    Kept (state.getSession svc req).1 := by
  have hne : ∀ key other, state.svcMap key = some other → other ≠ svc := by
    intro key other hother hsame
    have hkey := hkept.keyed key other hother
    rw [← hkey, hsame, hfree] at hother
    cases hother
  rw [Connections.getSession]
  cases hinit : Session.init (identified svc req) with
  | none =>
      refine ⟨⟨fun key other hother => ?_, hkept.removals⟩, hkept.keyed⟩
      obtain ⟨sess, hsess, hstored⟩ := hkept.stored key other hother
      exact ⟨sess, hsess,
        (Function.update_of_ne (hid key other sess hother hsess) _ _).trans hstored⟩
  | some new =>
      refine ⟨⟨fun key other hother => ?_, hkept.removals⟩, hkept.keyed⟩
      obtain ⟨sess, hsess, hstored⟩ := hkept.stored key other hother
      exact ⟨sess, (Function.update_of_ne (hne key other hother) _ _).trans hsess,
        (Function.update_of_ne (hid key other sess hother hsess) _ _).trans hstored⟩

theorem storeMap (hkept : Kept state) (hsess : state.sess svc = some sess)
    (hstored : state.st sess.ID = some svc) : Kept (state.storeMap svc) where
  stored := by
    intro key other hother
    change Function.update state.svcMap svc.key (some svc) key = some other at hother
    rw [Function.update_apply] at hother
    split_ifs at hother
    · cases hother
      exact ⟨sess, hsess, hstored⟩
    · exact hkept.stored key other hother
  removals := hkept.removals
  keyed := by
    intro key other hother
    change Function.update state.svcMap svc.key (some svc) key = some other at hother
    rw [Function.update_apply] at hother
    split_ifs at hother with hkey
    · cases hother
      exact hkey.symm
    · exact hkept.keyed key other hother

end Kept

theorem request_eq_some {buf : Bytes} {req : ConnectMessage} {productKey deviceName : Bytes}
    (hrequest : request buf = some (req, productKey, deviceName)) :
    ∃ decoded n, newConnectMessage.decode (.full buf) = .done decoded n ∧
      req = if decoded.keepAlive = 0 then decoded.setKeepAlive (5 * 60) else decoded := by
  rw [request] at hrequest
  cases hdecode : newConnectMessage.decode (.full buf) with
  | panic | fail decoded n err => simp [hdecode] at hrequest
  | done decoded n =>
      simp only [hdecode] at hrequest
      generalize hprepared : (if decoded.keepAlive = 0 then decoded.setKeepAlive (5 * 60)
        else decoded) = prepared at hrequest
      split at hrequest
      · split_ifs at hrequest
        cases hrequest
        exact ⟨decoded, n, rfl, hprepared.symm⟩
      · cases hrequest

theorem Kept.accept (hkept : Kept state) (hfree : state.svcMap svc.key = none)
    {req : ConnectMessage} (hreceived : Session.Received (identified svc req))
    (hid : ∀ key other sess, state.svcMap key = some other → state.sess other = some sess →
      sess.ID ≠ (identified svc req).clientId) (answered : Bool) :
    Kept (state.accept svc req answered) := by
  have hmade := hkept.getSession hfree hid
  rw [Connections.accept]
  cases hinit : Session.init (identified svc req) with
  | none =>
      rw [Connections.getSession, hinit] at hmade ⊢
      exact hmade
  | some sess =>
      rw [Connections.getSession, hinit] at hmade ⊢
      cases answered with
      | false => exact hmade
      | true =>
          apply hmade.storeMap (Function.update_self _ _ _)
          rw [Session.ID_init hreceived hinit]
          exact Function.update_self _ _ _

/-- The CONNECT that `getSession` works on can be copied. -/
theorem received_identified {buf : Bytes} {req : ConnectMessage}
    {productKey deviceName : Bytes} (hrequest : request buf = some (req, productKey, deviceName))
    (svc : ServiceRef) : Session.Received (identified svc req) := by
  obtain ⟨decoded, n, hdecode, hreq⟩ := request_eq_some hrequest
  obtain ⟨-, hdbuf, htype, hflags⟩ := ConnectMessage.accepted_of_decode hdecode
  have hmtypeflags : (identified svc req).mtypeflags = decoded.mtypeflags := by
    rw [identified, hreq, ConnectMessage.setClientId]
    split_ifs <;> rfl
  have hchanged : (identified svc req).dirty = true → Session.Received (identified svc req) := by
    intro hdirty
    refine Or.inr ⟨hdirty, ?_, ?_⟩
    · rw [Header.type, hmtypeflags]
      exact htype
    · rw [hmtypeflags]
      exact hflags
  by_cases hempty : req.clientId.length = 0
  · apply hchanged
    rw [identified, if_pos hempty]
    rfl
  · by_cases hkeepAlive : decoded.keepAlive = 0
    · apply hchanged
      rw [identified, if_neg hempty, hreq, if_pos hkeepAlive]
      rfl
    · rw [if_neg hkeepAlive] at hreq
      rw [identified, if_neg hempty, hreq]
      refine Or.inl ⟨n, ?_, ?_⟩
      · rw [hdbuf]
        exact hdecode
      · rw [hdbuf]
        rfl

theorem kept_handleConnection (hkept : Kept state) {buf : Bytes} {login answered : Bool}
    (hdistinct : state.Distinct (.connect buf login answered)) :
    Kept (state.handleConnection buf login answered) := by
  rw [handleConnection]
  cases hrequest : request buf with
  | none => exact hkept
  | some found =>
      obtain ⟨req, productKey, deviceName⟩ := found
      have hcounted : Kept { state with gsvcid := state.gsvcid + 1 } :=
        ⟨⟨hkept.stored, hkept.removals⟩, hkept.keyed⟩
      obtain ⟨hticked, hfree, hothers⟩ :=
        hcounted.tickOff ⟨state.gsvcid + 1, productKey, deviceName⟩
      simp only
      generalize hsvc : (⟨state.gsvcid + 1, productKey, deviceName⟩ : ServiceRef) = svc
        at hticked hfree hothers ⊢
      have hid : ∀ key other sess,
          ({ state with gsvcid := state.gsvcid + 1 }.tickOff svc).1.svcMap key = some other →
          ({ state with gsvcid := state.gsvcid + 1 }.tickOff svc).1.sess other = some sess →
          sess.ID ≠ (identified svc req).clientId := by
        intro key other sess hother hsess
        obtain ⟨hbefore, hsame⟩ := hothers key other hother
        rw [hsame] at hsess
        rw [← hsvc]
        apply hdistinct req productKey deviceName hrequest key other sess hbefore _ hsess
        intro hkey
        have hsvcKey : key = svc.key := by
          rw [hkey, ← hsvc]
          rfl
        rw [hsvcKey, hfree] at hother
        cases hother
      have haccepted := hticked.accept hfree (received_identified hrequest svc) hid answered
      cases htick : { state with gsvcid := state.gsvcid + 1 }.tickOff svc with
      | mk ticked goes =>
          rw [htick] at hticked haccepted
          cases goes with
          | false => exact hticked
          | true =>
              cases login with
              | false => exact hticked
              | true => exact haccepted

theorem kept_exceptionDisconnect (hkept : Kept state) {err : ExitErr} {logout : Bool}
    (hown : state.Distinct (.disconnect svc err logout)) :
    Kept (state.exceptionDisconnect svc err logout) := by
  rw [exceptionDisconnect]
  cases hfound : state.svcMap svc.key with
  | none => exact hkept
  | some found =>
      obtain rfl := hown found hfound
      obtain ⟨sess, hsess, hstored⟩ := hkept.stored found.key found hfound
      have hclosed := hkept.close hfound hsess
      simp only [hsess, hstored]
      split_ifs
      · exact hkept
      · exact hkept.deleteMap found
      · refine ⟨⟨hclosed.stored, fun removal hmem => ?_⟩, hclosed.keyed⟩
        rcases List.mem_append.mp hmem with hnew | hold
        · rw [Option.toList_some, List.map_singleton, List.mem_singleton] at hnew
          rw [hnew]
        · exact hkept.removals removal hold

theorem kept_step {label : ConnectionsStep} {next : Connections} (hkept : Kept state)
    (hdistinct : state.Distinct label) (hstep : state.step label = some next) : Kept next := by
  cases label with
  | connect buf login answered =>
      injection hstep with hnext
      rw [← hnext]
      exact kept_handleConnection hkept hdistinct
  | disconnect svc err logout =>
      rw [step] at hstep
      split_ifs at hstep
      injection hstep with hnext
      have hended := kept_exceptionDisconnect hkept hdistinct
      rw [← hnext]
      exact ⟨⟨hended.stored, hended.removals⟩, hended.keyed⟩

/-- When no device connects with the client id of a service that is registered under another
key, and no service disconnects while another one is registered under its key, every
registered service has its own session in the store and every disconnect deletes only the
session of the service itself. -/
theorem consistent_of_run {labels : List ConnectionsStep} {last : Connections}
    (hdistinct : Along step Distinct connectionsStart labels)
    (hrun : run step connectionsStart labels = some last) : last.Consistent := by
  have hkept : Kept last := run_invariant (fun _ _ _ => kept_step) Kept.start hdistinct hrun
  exact hkept.toConsistent

/-- The CONNECT of a device of the product "p" with the password "123456". -/
def connectOf (deviceName clientId : String) : Bytes :=
  let body := lpBytes (textBytes "MQTT") ++ [4, 0xc2, 0, 60] ++ lpBytes (textBytes clientId) ++
    lpBytes (textBytes (deviceName ++ "&p")) ++ lpBytes (textBytes "123456")
  0x10 :: UInt8.ofNat body.length :: body

def firstDemo : ServiceRef := ⟨1, textBytes "p", textBytes "d"⟩

def secondDemo : ServiceRef := ⟨2, textBytes "p", textBytes "e"⟩

/-- A device connects and closes its connection. -/
def connectAndLeave : List ConnectionsStep :=
  [.connect (connectOf "d" "demo") true true, .disconnect firstDemo .eof true]

theorem along_connectAndLeave : Along step Distinct connectionsStart connectAndLeave := by
  have hregistered : (connectionsStart.handleConnection (connectOf "d" "demo") true
      true).svcMap firstDemo.key = some firstDemo := by decide +kernel
  refine ⟨by simp [Distinct, connectionsStart], ?_⟩
  rintro next ⟨⟩
  refine ⟨fun other hother => ?_, fun _ _ => trivial⟩
  exact Option.some.inj (hother.symm.trans hregistered)

theorem consistent_of_run_connectAndLeave :
    ∃ last, run step connectionsStart connectAndLeave = some last ∧
      last.removals = [⟨firstDemo, firstDemo⟩] ∧ last.Consistent := by
  have hend : (run step connectionsStart connectAndLeave).map (fun state => state.removals) =
      some [⟨firstDemo, firstDemo⟩] := by decide +kernel
  obtain ⟨last, hrun, hremovals⟩ := Option.map_eq_some_iff.mp hend
  exact ⟨last, hrun, hremovals, consistent_of_run along_connectAndLeave hrun⟩

/-- Two devices with one client id, as the demo client has it: the session of the second
replaces that of the first, and the disconnect of the first deletes it. -/
def sameClientId : List ConnectionsStep :=
  [.connect (connectOf "d" "demo") true true, .connect (connectOf "e" "demo") true true,
    .disconnect firstDemo .eof true]

theorem session_lost_of_sameClientId :
    (run step connectionsStart (sameClientId.take 2)).map (fun state =>
        (state.svcMap firstDemo.key, (state.sess firstDemo).map Session.ID,
          state.st (textBytes "demo"))) =
      some (some firstDemo, some (textBytes "demo"), some secondDemo) ∧
    (run step connectionsStart sameClientId).map (fun state =>
        (state.svcMap secondDemo.key, (state.sess secondDemo).map Session.ID,
          state.st (textBytes "demo"), state.removals)) =
      some (some secondDemo, some (textBytes "demo"), none, [⟨firstDemo, secondDemo⟩]) := by
  decide +kernel

end Connections

end Xmqtt.Service
