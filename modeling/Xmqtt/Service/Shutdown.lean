import Xmqtt.Service.Handshake

/-!
# `Server.Close`

Closing the server takes every registered service off the map, as the receivers do
one by one, and empties the session store.  Unlike the receivers nobody recovers a
panic there, so one service without a session would stop the loop.
-/

namespace Xmqtt.Service

open Xmqtt.Go Xmqtt.Message Xmqtt.Sessions

namespace Server

def logReasonValServerClose : String := "物联网平台服务端主动关闭连接"

/-- What `Range` calls for a service. -/
def closeService (server : Server) (svc : ServiceRef) : Call Server Unit :=
  ((server.setReason svc logReasonValServerClose).deleteMapAndLogout svc).1.leave svc

/-- `svcMap.Range` over the services in the order in which they are found. -/
def closeServices : List ServiceRef → Server → Call Server Unit
  | [], server => .returned server ()
  | svc :: order, server =>
      (server.closeService svc).andThen fun server _ => closeServices order server

/-- `sessMgr.Close`: the provider makes a new map. -/
def closeSessions (server : Server) : Server :=
  { server with
    st := fun _ => none
    allocated := fun _ _ hnone => absurd hnone (by simp) }

/-- `Server.Close` behind the listeners. -/
def Close (server : Server) (order : List ServiceRef) : Call Server Unit :=
  (closeServices order server).andThen fun server _ => .returned server.closeSessions ()

/-- The services that `Range` finds, in some order. -/
structure Visits (server : Server) (order : List ServiceRef) : Prop where
  nodup : order.Nodup
  mem_iff : ∀ svc, svc ∈ order ↔ server.svcMap svc.key = some svc

/-! ## What stopping one service leaves alone -/

/-- The other services stay as they are, and no connection is opened again. -/
structure Spares (svc : ServiceRef) (before after : Server) : Prop where
  others : ∀ other ≠ svc, after.services other = before.services other
  closed : ∀ conn, before.closed conn = true → after.closed conn = true

theorem Spares.refl (svc : ServiceRef) (server : Server) : Spares svc server server :=
  ⟨fun _ _ => rfl, fun _ hclosed => hclosed⟩

theorem Spares.trans {svc : ServiceRef} {first second third : Server}
    (hfirst : Spares svc first second) (hsecond : Spares svc second third) :
    Spares svc first third where
  others := fun other hother => (hsecond.others other hother).trans (hfirst.others other hother)
  closed := fun conn hclosed => hsecond.closed conn (hfirst.closed conn hclosed)

section Spares

variable (server : Server) (svc : ServiceRef)

theorem spares_setService (state : ServiceState) :
    Spares svc server (server.setService svc state) :=
  ⟨fun _ hother => Function.update_of_ne hother _ _, fun _ hclosed => hclosed⟩

theorem spares_closeDone : Spares svc server (server.closeDone svc).state := by
  rw [closeDone]
  split
  · exact Spares.refl svc server
  · exact Spares.refl svc server
  · exact spares_setService server svc _

theorem spares_closeConn : Spares svc server (server.closeConn svc) := by
  rw [closeConn]
  split
  · exact Spares.refl svc server
  · refine ⟨fun _ _ => rfl, fun conn hclosed => ?_⟩
    change Function.update server.closed _ true conn = true
    rw [Function.update_apply]
    split_ifs
    · rfl
    · exact hclosed

theorem spares_closeKeepAliveCH : Spares svc server (server.closeKeepAliveCH svc).state := by
  rw [closeKeepAliveCH]
  split
  · exact Spares.refl svc server
  · exact Spares.refl svc server
  · exact spares_setService server svc _

theorem spares_stopSession : Spares svc server (server.stopSession svc).state := by
  rw [stopSession]
  split
  · exact Spares.refl svc server
  · split
    · exact ⟨fun _ hother => Function.update_of_ne hother _ _, fun _ hclosed => hclosed⟩
    · exact Spares.refl svc server

theorem spares_newStopConnect : Spares svc server (server.newStopConnect svc).state := by
  change Spares svc server (Call.andThen _ _).state
  apply Call.state_andThen (P := Spares svc server) (spares_closeDone server svc)
  intro first _ hfirst
  apply Call.state_andThen (P := Spares svc server)
    ((hfirst.trans (spares_closeConn first svc)).trans (spares_closeKeepAliveCH _ svc))
  intro second _ hsecond
  exact (hsecond.trans (spares_setService second svc _)).trans (spares_stopSession _ svc)

theorem spares_leave : Spares svc server (server.leave svc).state := by
  rw [leave]
  split
  · exact Spares.refl svc server
  · rename_i ref hsess
    have hspares := spares_newStopConnect (server.del (server.sessions ref).session.ID) svc
    exact ⟨hspares.others, hspares.closed⟩

/-- Taking a service off the map, for whatever reason, and then stopping it. -/
theorem spares_unregister (reason : String) :
    Spares svc server (server.unregister svc reason) :=
  ⟨fun _ hother => Function.update_of_ne hother _ _, fun _ hclosed => hclosed⟩

end Spares

/-! ## The loop over the services -/

/-- A service that can be closed: it has a session, and nobody has stopped it before. -/
structure Closable (server : Server) (svc : ServiceRef) : Prop where
  sess : (server.services svc).sess ≠ none
  unstopped : server.Unstopped svc

section Loop

variable {server : Server} {svc : ServiceRef}

/-- The connection is closed before anything can go wrong. -/
theorem closed_newStopConnect (hdone : (server.services svc).done ≠ some .closed)
    {conn : ConnRef} (hconn : (server.services svc).conn = some conn) :
    (server.newStopConnect svc).state.closed conn = true := by
  obtain ⟨state, hfirst, hsame, -, -⟩ := closeDone_eq hdone
  obtain ⟨closed, hclosed, hall⟩ := closeConn_eq (server.setService svc state) svc
  have hbehind : ((server.setService svc state).closeConn svc).closed conn = true := by
    rw [hclosed]
    apply hall
    rw [services_setService, hsame, hconn]
  have hspares : Spares svc ((server.setService svc state).closeConn svc)
      (server.newStopConnect svc).state := by
    rw [newStopConnect, hfirst, Call.returned_andThen]
    apply Call.state_andThen (P := Spares svc _) (spares_closeKeepAliveCH _ svc)
    intro second _ hsecond
    exact (hsecond.trans (spares_setService second svc _)).trans (spares_stopSession _ svc)
  exact hspares.closed conn hbehind

/-- Closing a service that can be closed. -/
theorem closeService_of_closable (hclosable : server.Closable svc) :
    ∃ after, server.closeService svc = .returned after () ∧ Spares svc server after ∧
      after.svcMap = Function.update server.svcMap svc.key none ∧
      ∀ conn, (server.services svc).conn = some conn → after.closed conn = true := by
  obtain ⟨ref, hsess⟩ := Option.ne_none_iff_exists'.mp hclosable.sess
  have hleave := leave_unregister hsess logReasonValServerClose
  have hservice := services_unregister server svc logReasonValServerClose
  generalize hleft : server.unregister svc logReasonValServerClose = left at hleave hservice
  have hstops := stops_newStopConnect (left.del (server.sessions ref).session.ID) svc
  have hspares := spares_newStopConnect (left.del (server.sessions ref).session.ID) svc
  refine ⟨((left.del (server.sessions ref).session.ID).newStopConnect svc).state, ?_, ?_, ?_, ?_⟩
  · change (server.unregister svc logReasonValServerClose).leave svc = _
    rw [hleft, hleave]
    rfl
  · have hbefore := spares_unregister server svc logReasonValServerClose
    rw [hleft] at hbefore
    exact hbefore.trans ⟨hspares.others, hspares.closed⟩
  · rw [hstops.svcMap, ← hleft]
    rfl
  · intro conn hconn
    apply closed_newStopConnect
    · change (left.services svc).done ≠ _
      rw [hservice]
      exact hclosable.unstopped.1
    · change (left.services svc).conn = _
      rw [hservice]
      exact hconn

/-- Services that were not closed yet can still be closed. -/
theorem Closable.of_spares {other : ServiceRef} {after : Server} (hclosable : server.Closable other)
    (hspares : Spares svc server after) (hne : other ≠ svc) : after.Closable other := by
  have hsame := hspares.others other hne
  refine ⟨by rw [hsame]; exact hclosable.sess, ?_⟩
  rw [Unstopped, hsame]
  exact hclosable.unstopped

theorem closeServices_of_closable {order : List ServiceRef} (hnodup : order.Nodup)
    (hclosable : ∀ svc ∈ order, server.Closable svc) :
    ∃ after, closeServices order server = .returned after () ∧
      (∀ key, after.svcMap key = if key ∈ order.map ServiceRef.key then none
        else server.svcMap key) ∧
      (∀ conn, server.closed conn = true → after.closed conn = true) ∧
      ∀ svc ∈ order, ∀ conn, (server.services svc).conn = some conn →
        after.closed conn = true := by
  induction order generalizing server with
  | nil => exact ⟨server, rfl, fun _ => rfl, fun _ hclosed => hclosed, List.forall_mem_nil _⟩
  | cons svc order ih =>
      obtain ⟨hnot, hrest⟩ := List.nodup_cons.mp hnodup
      obtain ⟨middle, hmiddle, hspares, hsvcMap, hown⟩ :=
        closeService_of_closable (hclosable svc List.mem_cons_self)
      have hothers : ∀ other ∈ order, other ≠ svc := fun other hmem hsame =>
        hnot (hsame ▸ hmem)
      obtain ⟨after, hafter, hmap, hkept, hconns⟩ := ih hrest fun other hmem =>
        (hclosable other (List.mem_cons_of_mem _ hmem)).of_spares hspares (hothers other hmem)
      refine ⟨after, ?_, ?_, ?_, ?_⟩
      · rw [closeServices, hmiddle, Call.returned_andThen, hafter]
      · intro key
        rw [hmap, hsvcMap, Function.update_apply, List.map_cons]
        simp only [List.mem_cons]
        by_cases hkey : key = svc.key
        · simp [hkey]
        · simp [hkey]
      · exact fun conn hclosed => hkept conn (hspares.closed conn hclosed)
      · intro other hmem conn hconn
        rcases List.mem_cons.mp hmem with rfl | hbehind
        · exact hkept conn (hown conn hconn)
        · apply hconns other hbehind
          rw [hspares.others other (hothers other hbehind)]
          exact hconn

end Loop

/-! ## The life of a server -/

/-- A connection that arrives, or a receiver whose loop ends. -/
inductive ServerCall where
  | connect (arrival : Arrival)
  | disconnect (svc : ServiceRef) (err : ReadErr)

/-- The calls come one after the other.  A panic is recovered, and what was done before it
stays. -/
def call (errorText : Err → Bytes) (server : Server) : ServerCall → Server
  | .connect arrival => (server.handleConnection arrival).state
  | .disconnect svc err => (server.exceptionDisconnect errorText svc err).state

/-- A server that nobody has connected to. -/
def newServer : Server where
  gsvcid := 0
  svcMap := fun _ => none
  services := fun _ => ⟨none, none, none, none, [], ""⟩
  st := fun _ => none
  sessions := fun _ => ⟨⟨[], none⟩, false⟩
  nextSession := 0
  closed := fun _ => false
  started := fun _ => false
  keyed := fun _ _ hnone => absurd hnone (by simp)
  allocated := fun _ _ hnone => absurd hnone (by simp)

/-- Every registered service can be closed. -/
def Tended (server : Server) : Prop :=
  ∀ key svc, server.svcMap key = some svc → server.Closable svc

theorem Tended.of_frame {before after : Server} (htended : before.Tended)
    (hframe : ∀ key svc, after.svcMap key = some svc →
      before.svcMap key = some svc ∧ after.services svc = before.services svc) :
    after.Tended := by
  intro key svc hsvc
  obtain ⟨hbefore, hsame⟩ := hframe key svc hsvc
  obtain ⟨hsess, hunstopped⟩ := htended key svc hbefore
  refine ⟨by rw [hsame]; exact hsess, ?_⟩
  rw [Unstopped, hsame]
  exact hunstopped

/-- A service is taken off the map and then changed. -/
theorem Tended.of_spares {before after : Server} {svc : ServiceRef} (htended : before.Tended)
    (hspares : Spares svc before after)
    (hsvcMap : after.svcMap = Function.update before.svcMap svc.key none) : after.Tended := by
  apply htended.of_frame
  intro key other hother
  have hne : key ≠ svc.key := by
    intro hkey
    rw [hsvcMap, hkey, Function.update_self] at hother
    cases hother
  rw [hsvcMap, Function.update_of_ne hne] at hother
  refine ⟨hother, hspares.others other ?_⟩
  intro hsame
  exact hne ((before.keyed key other hother).symm.trans (congrArg ServiceRef.key hsame))

theorem tended_unregister {server : Server} (htended : server.Tended) (svc : ServiceRef)
    (reason : String) : (server.unregister svc reason).Tended :=
  htended.of_spares (spares_unregister server svc reason) rfl

theorem tended_leave {server : Server} (htended : server.Tended) (svc : ServiceRef)
    (reason : String) : ((server.unregister svc reason).leave svc).state.Tended :=
  htended.of_spares ((spares_unregister server svc reason).trans (spares_leave _ svc))
    (stops_leave _ svc).svcMap

theorem tended_exceptionDisconnect {server : Server} (htended : server.Tended)
    (errorText : Err → Bytes) (this : ServiceRef) (err : ReadErr) :
    (server.exceptionDisconnect errorText this err).state.Tended := by
  rw [exceptionDisconnect]
  cases hsvc : server.svcMap this.key with
  | none => exact htended
  | some svc =>
      cases err with
      | tooLarge => exact htended
      | err err => exact tended_unregister htended svc _
      | eof => exact tended_leave htended svc _

theorem tended_tickOff {server : Server} (htended : server.Tended) (key : Bytes) :
    (server.tickOff key).state.Tended := by
  cases hold : server.svcMap key with
  | none => rwa [tickOff_of_none hold]
  | some old =>
      rw [tickOff_of_some hold]
      exact tended_leave htended old _

theorem tended_refuse {server : Server} (htended : server.Tended) (arrival : Arrival)
    (code : ConnackCode) (err : Option ReadErr) :
    (server.refuse arrival code err).state.Tended := by
  rw [refuse]
  split <;> exact htended

/-- A new service is stored with its session and with channels that are open. -/
theorem tended_storeMap {server : Server} (htended : server.Tended) (svc : ServiceRef)
    {state : ServiceState} (hsess : state.sess ≠ none) (hdone : state.done = some .opened)
    (hkeepAliveCH : state.keepAliveCH = some .opened) :
    ((server.start svc state).storeMap svc).Tended := by
  intro key other hother
  by_cases hkey : key = svc.key
  · have hsame : other = svc := by
      change Function.update server.svcMap svc.key (some svc) key = some other at hother
      rw [hkey, Function.update_self] at hother
      exact (Option.some.inj hother).symm
    have hservice : ((server.start svc state).storeMap svc).services other = state := by
      rw [hsame]
      exact services_setService server svc state
    refine ⟨by rw [hservice]; exact hsess, ?_⟩
    rw [Unstopped, hservice, hdone, hkeepAliveCH]
    decide
  · have hbefore : server.svcMap key = some other :=
      (Function.update_of_ne hkey _ _).symm.trans hother
    have hne : other ≠ svc := fun hsame => hkey ((server.keyed key other hbefore).symm.trans
      (congrArg ServiceRef.key hsame))
    have hspares := spares_setService server svc state
    exact (htended key other hbefore).of_spares ⟨hspares.others, hspares.closed⟩ hne

theorem tended_accept {server : Server} (htended : server.Tended) (arrival : Arrival)
    (svc : ServiceRef) (req : ConnectMessage) (loginValue : Bytes) :
    (server.accept arrival svc req loginValue).state.Tended := by
  have hmade : (server.getSession svc req).state.Tended := by
    rw [getSession]
    split <;> exact htended.of_frame fun _ _ hother => ⟨hother, rfl⟩
  apply Call.state_andThen (P := Tended) hmade
  intro made session hmade
  cases session with
  | error err => exact hmade
  | ok ref =>
      simp only
      split
      · exact hmade
      · exact hmade
      · exact tended_storeMap hmade svc (Option.some_ne_none ref) rfl rfl

/-- What holds behind `establish` and does not depend on one closed connection more. -/
theorem state_handleConnection {holds : Server → Prop} {server : Server} {arrival : Arrival}
    (hestablish : holds (server.establish arrival).state)
    (hclose : ∀ after, holds after → holds (after.close arrival.conn)) :
    holds (server.handleConnection arrival).state := by
  rw [handleConnection]
  cases hcall : server.establish arrival with
  | panicked after =>
      rw [hcall] at hestablish
      exact hestablish
  | returned after finish =>
      rw [hcall] at hestablish
      rw [closeOnError, Call.state_returned]
      split_ifs
      · exact hclose after hestablish
      · exact hestablish

theorem tended_handleConnection {server : Server} (htended : server.Tended)
    (arrival : Arrival) : (server.handleConnection arrival).state.Tended := by
  have hestablish : (server.establish arrival).state.Tended := by
    cases hrequested : requested arrival with
    | none =>
        obtain ⟨-, hcall⟩ | ⟨-, -, code, -, hcall⟩ | ⟨err, sent, hcall, -⟩ :=
          establish_of_not_requested server hrequested
        · rw [hcall]
          exact htended
        · rw [hcall]
          exact tended_refuse htended arrival code none
        · rw [hcall]
          exact htended
    | some found =>
        obtain ⟨req, productKey, deviceName⟩ := found
        have hcounted : ({ server with gsvcid := server.gsvcid + 1 } : Server).Tended :=
          htended.of_frame fun _ _ hother => ⟨hother, rfl⟩
        rw [establish_of_requested hrequested, serve]
        apply Call.state_andThen (P := Tended) (tended_tickOff hcounted _)
        intro ticked _ hticked
        cases arrival.login with
        | error err => exact tended_refuse hticked arrival _ none
        | ok loginValue => exact tended_accept hticked arrival _ req loginValue
  exact state_handleConnection hestablish fun _ hafter =>
    hafter.of_frame fun _ _ hother => ⟨hother, rfl⟩

theorem tended_calls (errorText : Err → Bytes) (calls : List ServerCall) {server : Server}
    (htended : server.Tended) : (calls.foldl (call errorText) server).Tended := by
  refine List.foldlRecOn calls (call errorText) htended fun before hbefore next _ => ?_
  cases next with
  | connect arrival => exact tended_handleConnection hbefore arrival
  | disconnect svc err => exact tended_exceptionDisconnect hbefore errorText svc err

/-- Whatever connects and disconnects a server has seen one after the other, and in whatever
order `Range` finds the services: `Close` returns, no service is registered and no session
stored any more, the connection of every service that was registered is closed, and a
receiver that notices afterwards has nothing left to do. -/
theorem close_tearsDown (errorText : Err → Bytes) (calls : List ServerCall) {server : Server}
    (hserver : server = calls.foldl (call errorText) newServer) {order : List ServiceRef}
    (hvisits : server.Visits order) :
    ∃ after, server.Close order = .returned after () ∧ (∀ key, after.svcMap key = none) ∧
      (∀ id, after.st id = none) ∧
      (∀ svc ∈ order, ∀ conn, (server.services svc).conn = some conn →
        after.closed conn = true) ∧
      ∀ svc err, after.exceptionDisconnect errorText svc err = .returned after () := by
  have htended : server.Tended := by
    rw [hserver]
    exact tended_calls errorText calls fun _ _ hnone => absurd hnone (by simp [newServer])
  have hclosable : ∀ svc ∈ order, server.Closable svc := fun svc hmem =>
    htended svc.key svc ((hvisits.mem_iff svc).mp hmem)
  obtain ⟨after, hafter, hmap, -, hconns⟩ :=
    closeServices_of_closable hvisits.nodup hclosable
  have hnone : ∀ key, after.closeSessions.svcMap key = none := by
    intro key
    rw [show after.closeSessions.svcMap key = after.svcMap key from rfl, hmap]
    split_ifs with hmem
    · rfl
    · cases hsvc : server.svcMap key with
      | none => rfl
      | some svc =>
          have hkey := server.keyed key svc hsvc
          refine absurd (List.mem_map.mpr ⟨svc, ?_, hkey⟩) hmem
          rw [hvisits.mem_iff, hkey]
          exact hsvc
  refine ⟨after.closeSessions, ?_, hnone, fun _ => rfl, hconns, fun svc err => ?_⟩
  · rw [Close, hafter, Call.returned_andThen]
  · rw [exceptionDisconnect, hnone]

/-- The entry under the key is as it was. -/
def Keeps (key : Bytes) (before after : Server) : Prop := after.svcMap key = before.svcMap key

theorem keeps_tickOff (server : Server) {key other : Bytes} (hkey : key ≠ other) :
    Keeps key server (server.tickOff other).state := by
  cases hold : server.svcMap other with
  | none => rw [tickOff_of_none hold]; rfl
  | some old =>
      have hother : key ≠ old.key := by
        rw [server.keyed other old hold]
        exact hkey
      rw [tickOff_of_some hold, Keeps, (stops_leave _ old).svcMap]
      exact Function.update_of_ne hother _ _

theorem keeps_accept {server made : Server} {key : Bytes} {svc : ServiceRef}
    (hkey : key ≠ svc.key) (hmade : Keeps key server made) (arrival : Arrival)
    (req : ConnectMessage) (loginValue : Bytes) :
    Keeps key server (made.accept arrival svc req loginValue).state := by
  have hsession : Keeps key server (made.getSession svc req).state := by
    rw [getSession]
    split <;> exact hmade
  apply Call.state_andThen (P := Keeps key server) hsession
  intro state session hstate
  cases session with
  | error err => exact hstate
  | ok ref =>
      simp only
      split
      · exact hstate
      · exact hstate
      · exact (Function.update_of_ne hkey _ _).trans hstate

/-- A connect leaves the entries of other devices alone. -/
theorem keeps_handleConnection (server : Server) {arrival : Arrival} {req : ConnectMessage}
    {productKey deviceName : Bytes}
    (hrequested : requested arrival = some (req, productKey, deviceName)) {key : Bytes}
    (hkey : key ≠ serviceKey productKey deviceName) :
    Keeps key server (server.handleConnection arrival).state := by
  have hestablish : Keeps key server (server.establish arrival).state := by
    rw [establish_of_requested hrequested, serve]
    apply Call.state_andThen (P := Keeps key server)
      (keeps_tickOff { server with gsvcid := server.gsvcid + 1 } hkey)
    intro ticked _ hkept
    cases arrival.login with
    | ok loginValue => exact keeps_accept hkey hkept arrival req loginValue
    | error err =>
        simp only [refuse]
        split <;> exact hkept
  exact state_handleConnection hestablish fun _ hafter => hafter

/-- The device "d" connects. -/
def arrivalD : Arrival := ⟨1, Connections.connectOf "d" "demo", .eof, [], .ok [], none⟩

theorem close_tearsDown_connected :
    ∃ after, (List.foldl (call fun _ => []) newServer [.connect arrivalD]).Close
        [⟨1, textBytes "p", textBytes "d"⟩] = .returned after () ∧
      after.closed 1 = true ∧ after.st (textBytes "demo") = none := by
  have hregistered : (newServer.handleConnection arrivalD).state.svcMap
      (serviceKey (textBytes "p") (textBytes "d")) =
      some ⟨1, textBytes "p", textBytes "d"⟩ := by decide +kernel
  have hconn : ((newServer.handleConnection arrivalD).state.services
      ⟨1, textBytes "p", textBytes "d"⟩).conn = some 1 := by decide +kernel
  have hrequested : (requested arrivalD).map Prod.snd = some (textBytes "p", textBytes "d") := by
    decide +kernel
  obtain ⟨⟨req, parts⟩, hfound, rfl⟩ := Option.map_eq_some_iff.mp hrequested
  have hvisits : (newServer.handleConnection arrivalD).state.Visits
      [⟨1, textBytes "p", textBytes "d"⟩] := by
    refine ⟨List.nodup_singleton _, fun svc => ?_⟩
    rw [List.mem_singleton]
    constructor
    · rintro rfl
      exact hregistered
    · intro hsvc
      by_cases hkey : svc.key = serviceKey (textBytes "p") (textBytes "d")
      · rw [hkey, hregistered] at hsvc
        exact (Option.some.inj hsvc).symm
      · rw [keeps_handleConnection newServer hfound hkey] at hsvc
        cases hsvc
  obtain ⟨after, hafter, -, hst, hclosed, -⟩ :=
    close_tearsDown (fun _ => []) [.connect arrivalD] rfl hvisits
  exact ⟨after, hafter, hclosed _ List.mem_cons_self 1 hconn, hst _⟩

end Server

end Xmqtt.Service
