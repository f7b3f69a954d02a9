import Xmqtt.Go.Call
import Xmqtt.Service.Connections
import Xmqtt.Service.Framing

/-!
# The server and the end of a service

The state that connects and disconnects share: the map of services, the services
themselves with their channels and connections, and the sessions.  Here one
`exceptionDisconnect` runs as a whole, with every place where it can panic; the
deferred handler of the receiver swallows the panic, and the teardown stays
half done.
-/

namespace Xmqtt.Service

open Xmqtt.Go Xmqtt.Message Xmqtt.Sessions

/-- A `net.Conn`. -/
abbrev ConnRef := ℕ

/-- A pointer to a session. -/
abbrev SessionRef := ℕ

/-- A channel that has been made. -/
inductive Chan where
  | opened
  | closed
  deriving DecidableEq, Repr

/-- A session object; `queues` says that `Init` has made its ack queues and `Stop` has not
taken them away. -/
structure SessionState where
  session : Session
  queues : Bool
  deriving DecidableEq, Repr

/-- A service object. -/
structure ServiceState where
  conn : Option ConnRef
  done : Option Chan
  keepAliveCH : Option Chan
  sess : Option SessionRef
  loginValue : Bytes
  reason : String
  deriving DecidableEq, Repr

/-- `st` is the store of `sessMgr`, `closed` the connections that were closed, `started` the
services whose receiver was started.  Services are stored under their own key, and the store
has no session that is still to be made. -/
structure Server where
  gsvcid : ℕ
  svcMap : Bytes → Option ServiceRef
  services : ServiceRef → ServiceState
  st : Bytes → Option SessionRef
  sessions : SessionRef → SessionState
  nextSession : SessionRef
  closed : ConnRef → Bool
  started : ServiceRef → Bool
  keyed : ∀ key svc, svcMap key = some svc → svc.key = key
  allocated : ∀ id ref, st id = some ref → ref < nextSession

def logReasonValTickOffDevice : String :=
  "被使用相同设备证书的设备踢下线或者设备端主动重连导致设备剔下线"
def logReasonValDeviceDisconnect : String := "设备主动发送MQTT断开连接请求"
def logReasonValKeepaliveTimeout : String := "心跳超时，物联网平台服务端关闭连接"
def logReasonValConnectionResetByPeer : String := "对等端重置TCP连接"

/-! ## `auth` -/

structure LogoutInput where
  value : Bytes
  sid : Bytes
  deviceName : Bytes
  productKey : Bytes
  deriving DecidableEq, Repr

/-- `auth.Logout` logs its input and has no error. -/
def logout (_input : LogoutInput) : Option Err := none

namespace Server

/-! ## Changes of the state -/

section Changes

variable (server : Server) (svc : ServiceRef)

def setService (state : ServiceState) : Server :=
  { server with services := Function.update server.services svc state }

def close (conn : ConnRef) : Server :=
  { server with closed := Function.update server.closed conn true }

/-- `svcMap.Delete`. -/
def deleteMap (key : Bytes) : Server :=
  { server with
    svcMap := Function.update server.svcMap key none
    keyed := by
      intro other svc hother
      rw [Function.update_apply] at hother
      split_ifs at hother
      exact server.keyed other svc hother }

/-- `sessMgr.Del`. -/
def del (id : Bytes) : Server :=
  { server with
    st := Function.update server.st id none
    allocated := by
      intro other ref hother
      rw [Function.update_apply] at hother
      split_ifs at hother
      exact server.allocated other ref hother }

/-- `deleteMapAndLogout`. -/
def deleteMapAndLogout : Server × Option Err :=
  (server.deleteMap (serviceKey svc.productKey svc.deviceName),
    logout ⟨(server.services svc).loginValue, [], svc.deviceName, svc.productKey⟩)

def setReason (reason : String) : Server :=
  server.setService svc { server.services svc with reason := reason }

/-! ## `newStopConnect` -/

/-- `if this.done != nil { close(this.done) }`. -/
def closeDone : Call Server Unit :=
  match (server.services svc).done with
  | none => .returned server ()
  | some .closed => .panicked server
  | some .opened =>
      .returned (server.setService svc { server.services svc with done := some .closed }) ()

/-- `if this.conn != nil { this.conn.Close() }`. -/
def closeConn : Server :=
  match (server.services svc).conn with
  | none => server
  | some conn => server.close conn

/-- `if this.keepAliveCH != nil { close(this.keepAliveCH) }`. -/
def closeKeepAliveCH : Call Server Unit :=
  match (server.services svc).keepAliveCH with
  | none => .returned server ()
  | some .closed => .panicked server
  | some .opened =>
      .returned (server.setService svc
        { server.services svc with keepAliveCH := some .closed }) ()

/-- `this.sess.Stop(); this.sess = nil`: `Stop` panics on a nil session and on a session
without queues. -/
def stopSession : Call Server Unit :=
  match (server.services svc).sess with
  | none => .panicked server
  | some ref =>
      if (server.sessions ref).queues then
        .returned ({ server with
          sessions := Function.update server.sessions ref
            ⟨{ (server.sessions ref).session with cmsg := none }, false⟩ }.setService svc
              { server.services svc with sess := none }) ()
      else .panicked server

def newStopConnect : Call Server Unit :=
  ((server.closeDone svc).andThen fun server _ =>
    ((server.closeConn svc).closeKeepAliveCH svc).andThen fun server _ =>
      (server.setService svc { server.services svc with conn := none }).stopSession svc).recovered

/-- `server.sessMgr.Del(svc.sess.ID()); svc.newStopConnect()`: `ID` panics on a nil
session. -/
def leave : Call Server Unit :=
  match (server.services svc).sess with
  | none => .panicked server
  | some ref => (server.del (server.sessions ref).session.ID).newStopConnect svc

end Changes

/-! ## `exceptionDisconnect` -/

/-- The receiver of `this` ends with an error.  `tooLarge` stands for the nil error that is
in scope when a packet is too large; `errorText` is the text of an error. -/
def exceptionDisconnect (errorText : Err → Bytes) (server : Server) (this : ServiceRef)
    (err : ReadErr) : Call Server Unit :=
  match server.svcMap this.key with
  | none => .returned server ()
  | some svc =>
      match err with
      | .tooLarge => .panicked server
      | .err err =>
          let reason :=
            if textBytes "connection reset by peer" <:+: errorText err
            then logReasonValConnectionResetByPeer else logReasonValKeepaliveTimeout
          let (server, val) := (server.setReason svc reason).deleteMapAndLogout svc
          -- The error is logged without a check that there is one.
          match val with
          | none => .panicked server
          | some _ => server.leave svc
      | .eof =>
          let (server, _) :=
            (server.setReason svc logReasonValDeviceDisconnect).deleteMapAndLogout svc
          server.leave svc

/-! ## What a teardown does -/

variable {server : Server} {svc : ServiceRef} {ref : SessionRef}

/-- `newStopConnect` has not been called on the service yet. -/
def Unstopped (server : Server) (svc : ServiceRef) : Prop :=
  (server.services svc).done ≠ some .closed ∧ (server.services svc).keepAliveCH ≠ some .closed

instance decidableUnstopped (server : Server) (svc : ServiceRef) :
    Decidable (server.Unstopped svc) :=
  inferInstanceAs (Decidable (_ ∧ _))

theorem services_setService (server : Server) (svc : ServiceRef) (state : ServiceState) :
    (server.setService svc state).services svc = state := Function.update_self _ _ _

theorem setService_self (server : Server) (svc : ServiceRef) :
    server.setService svc (server.services svc) = server := by
  rw [setService]
  simp only [Function.update_eq_self]

/-- Closing `done` changes nothing but the service. -/
theorem closeDone_eq (hdone : (server.services svc).done ≠ some .closed) :
    ∃ state : ServiceState, server.closeDone svc = .returned (server.setService svc state) () ∧
      state.conn = (server.services svc).conn ∧
      state.keepAliveCH = (server.services svc).keepAliveCH ∧
      state.sess = (server.services svc).sess := by
  rw [closeDone]
  cases hchan : (server.services svc).done with
  | none => exact ⟨server.services svc, by rw [setService_self], rfl, rfl, rfl⟩
  | some chan =>
      cases chan with
      | opened => exact ⟨_, rfl, rfl, rfl, rfl⟩
      | closed => exact absurd hchan hdone

theorem closeConn_eq (server : Server) (svc : ServiceRef) :
    ∃ closed, server.closeConn svc = { server with closed := closed } ∧
      ∀ conn, (server.services svc).conn = some conn → closed conn = true := by
  rw [closeConn]
  cases hconn : (server.services svc).conn with
  | none => exact ⟨server.closed, rfl, fun conn hsome => absurd hsome (by simp)⟩
  | some conn =>
      refine ⟨Function.update server.closed conn true, rfl, ?_⟩
      rintro _ ⟨⟩
      exact Function.update_self _ _ _

theorem closeKeepAliveCH_eq (hchan : (server.services svc).keepAliveCH ≠ some .closed) :
    ∃ state : ServiceState,
      server.closeKeepAliveCH svc = .returned (server.setService svc state) () ∧
      state.sess = (server.services svc).sess := by
  rw [closeKeepAliveCH]
  cases hkeepAlive : (server.services svc).keepAliveCH with
  | none => exact ⟨server.services svc, by rw [setService_self], rfl⟩
  | some chan =>
      cases chan with
      | opened => exact ⟨_, rfl, rfl⟩
      | closed => exact absurd hkeepAlive hchan

theorem stopSession_eq (hsess : (server.services svc).sess = some ref)
    (hqueues : (server.sessions ref).queues = true) :
    ∃ after, server.stopSession svc = .returned after () ∧ after.svcMap = server.svcMap ∧
      after.st = server.st ∧ after.closed = server.closed ∧
      (after.sessions ref).queues = false ∧ (after.services svc).sess = none := by
  simp only [stopSession, hsess, hqueues, if_true]
  refine ⟨_, rfl, rfl, rfl, rfl, ?_, ?_⟩
  · change (Function.update server.sessions ref _ ref).queues = false
    rw [Function.update_self]
  · exact congrArg ServiceState.sess (services_setService _ _ _)

/-- What `newStopConnect` does to a service with a session that it has not stopped before. -/
theorem newStopConnect_of_unstopped (hunstopped : server.Unstopped svc)
    (hsess : (server.services svc).sess = some ref)
    (hqueues : (server.sessions ref).queues = true) :
    ∃ after, server.newStopConnect svc = .returned after () ∧ after.svcMap = server.svcMap ∧
      after.st = server.st ∧
      (∀ conn, (server.services svc).conn = some conn → after.closed conn = true) ∧
      (after.sessions ref).queues = false ∧ (after.services svc).sess = none := by
  obtain ⟨hdone, hchan⟩ := hunstopped
  obtain ⟨first, hfirst, hconn, hkeepAlive, hsessFirst⟩ := closeDone_eq hdone
  obtain ⟨closed, hclosed, hall⟩ := closeConn_eq (server.setService svc first) svc
  generalize hsecond : ({ server.setService svc first with closed := closed } : Server) = second
    at hclosed
  have hservice : second.services svc = first := by
    rw [← hsecond]
    exact services_setService server svc first
  obtain ⟨third, hthird, hsessThird⟩ :=
    closeKeepAliveCH_eq (by rw [hservice, hkeepAlive]; exact hchan : (second.services
      svc).keepAliveCH ≠ some .closed)
  generalize hlast : (second.setService svc third).setService svc
    { (second.setService svc third).services svc with conn := none } = last
  have hsessLast : (last.services svc).sess = some ref := by
    rw [← hlast, services_setService, services_setService, hsessThird, hservice, hsessFirst,
      hsess]
  have hqueuesLast : (last.sessions ref).queues = true := by
    rw [← hlast, ← hsecond]
    exact hqueues
  obtain ⟨after, hafter, hsvcMap, hst, hclosedAfter, hstopped, hnone⟩ :=
    stopSession_eq hsessLast hqueuesLast
  refine ⟨after, ?_, ?_, ?_, fun conn hsome => ?_, hstopped, hnone⟩
  · rw [newStopConnect, hfirst, Call.returned_andThen, hclosed, hthird, Call.returned_andThen,
      hlast, hafter]
    rfl
  · rw [hsvcMap, ← hlast, ← hsecond]
    rfl
  · rw [hst, ← hlast, ← hsecond]
    rfl
  · rw [hclosedAfter, ← hlast, ← hsecond]
    apply hall
    rwa [services_setService, hconn]

/-- A second `newStopConnect` does not get to the session. -/
theorem newStopConnect_of_stopped (hstopped : ¬ server.Unstopped svc) :
    (server.newStopConnect svc).state.sessions = server.sessions := by
  by_cases hdone : (server.services svc).done = some .closed
  · rw [newStopConnect, closeDone, hdone]
    rfl
  · obtain ⟨first, hfirst, -, hkeepAlive, -⟩ := closeDone_eq hdone
    obtain ⟨closed, hclosed, -⟩ := closeConn_eq (server.setService svc first) svc
    have hchan : first.keepAliveCH = some .closed := by
      rw [hkeepAlive]
      by_contra hopen
      exact hstopped ⟨hdone, hopen⟩
    have hservice : (({ server.setService svc first with closed := closed } : Server).services
        svc).keepAliveCH = some .closed := by
      rw [← hchan]
      exact congrArg ServiceState.keepAliveCH (services_setService server svc first)
    rw [newStopConnect, hfirst, Call.returned_andThen, hclosed, closeKeepAliveCH, hservice]
    rfl

/-- The teardown of a service with a session: the call returns, and service, session and
connection are gone. -/
structure TornDown (server : Server) (svc : ServiceRef) (ref : SessionRef)
    (call : Call Server Unit) : Prop where
  returned : call = .returned call.state ()
  unregistered : call.state.svcMap svc.key = none
  deleted : call.state.st (server.sessions ref).session.ID = none
  closed : ∀ conn, (server.services svc).conn = some conn → call.state.closed conn = true
  stopped : (call.state.sessions ref).queues = false ∧ (call.state.services svc).sess = none

/-- The state in which `exceptionDisconnect` has removed the service from the map. -/
def unregister (server : Server) (svc : ServiceRef) (reason : String) : Server :=
  (server.setReason svc reason).deleteMap svc.key

theorem services_unregister (server : Server) (svc : ServiceRef) (reason : String) :
    (server.unregister svc reason).services svc =
      { server.services svc with reason := reason } :=
  services_setService server svc _

theorem leave_unregister (hsess : (server.services svc).sess = some ref) (reason : String) :
    (server.unregister svc reason).leave svc =
      ((server.unregister svc reason).del (server.sessions ref).session.ID).newStopConnect
        svc := by
  have hkept : ((server.unregister svc reason).services svc).sess = some ref := by
    rw [services_unregister]
    exact hsess
  rw [leave, hkept]
  rfl

section Disconnect

variable (errorText : Err → Bytes) (hregistered : server.svcMap svc.key = some svc)

include hregistered

theorem exceptionDisconnect_eof (hsess : (server.services svc).sess = some ref) :
    server.exceptionDisconnect errorText svc .eof =
      ((server.unregister svc logReasonValDeviceDisconnect).del
        (server.sessions ref).session.ID).newStopConnect svc := by
  rw [exceptionDisconnect, hregistered]
  exact leave_unregister hsess logReasonValDeviceDisconnect

/-- Behind every other error the call panics. -/
theorem exceptionDisconnect_panics {err : ReadErr} (herr : err ≠ .eof) :
    ∃ after, server.exceptionDisconnect errorText svc err = .panicked after := by
  rw [exceptionDisconnect, hregistered]
  cases err with
  | eof => exact absurd rfl herr
  | tooLarge => exact ⟨server, rfl⟩
  | err err => exact ⟨_, rfl⟩

end Disconnect

/-- The receiver of a registered service with an initialised session tears it down if and only
if the error is `io.EOF` and nobody has begun to stop the service before.  The errors are
those of framing, of `Decode` and of `processIncoming`, and the nil error of a packet that
is too large. -/
theorem tornDown_iff (errorText : Err → Bytes) (hregistered : server.svcMap svc.key = some svc)
    (hsess : (server.services svc).sess = some ref)
    (hqueues : (server.sessions ref).queues = true) (err : ReadErr) :
    TornDown server svc ref (server.exceptionDisconnect errorText svc err) ↔
      err = .eof ∧ server.Unstopped svc := by
  by_cases heof : err = .eof
  · subst heof
    rw [exceptionDisconnect_eof errorText hregistered hsess]
    generalize hleaving : (server.unregister svc logReasonValDeviceDisconnect).del
      (server.sessions ref).session.ID = leaving
    have hservice : leaving.services svc =
        { server.services svc with reason := logReasonValDeviceDisconnect } := by
      rw [← hleaving]
      exact services_unregister server svc _
    have hsessions : leaving.sessions = server.sessions := by
      rw [← hleaving]
      rfl
    have hunstopped : leaving.Unstopped svc ↔ server.Unstopped svc := by
      rw [Unstopped, Unstopped, hservice]
    rw [← hunstopped]
    constructor
    · intro htorn
      refine ⟨rfl, by_contra fun hstopped => ?_⟩
      have hstill := htorn.stopped.1
      rw [newStopConnect_of_stopped hstopped, hsessions, hqueues] at hstill
      cases hstill
    · rintro ⟨-, hopen⟩
      obtain ⟨after, hafter, hsvcMap, hst, hclosed, hstopped⟩ :=
        newStopConnect_of_unstopped hopen (by rw [hservice]; exact hsess)
          (by rw [hsessions]; exact hqueues)
      rw [hafter]
      rw [hservice] at hclosed
      constructor
      case returned => rfl
      case unregistered =>
        rw [Call.state_returned, hsvcMap, ← hleaving]
        exact Function.update_self _ _ _
      case deleted =>
        rw [Call.state_returned, hst, ← hleaving]
        exact Function.update_self _ _ _
      case closed => exact hclosed
      case stopped => exact hstopped
  · obtain ⟨after, hafter⟩ := exceptionDisconnect_panics errorText hregistered heof
    refine iff_of_false (fun htorn => ?_) fun hboth => heof hboth.1
    have hreturned := htorn.returned
    rw [hafter] at hreturned
    cases hreturned

/-- The CONNECT copy of the client "demo". -/
def demoSession : Session :=
  ⟨textBytes "demo", some { newConnectMessage with clientId := textBytes "demo" }⟩

/-- Only the first connection of the device "d" is there. -/
def onlyD : Server where
  gsvcid := 1
  svcMap := Registry.onlyFirstD
  services := fun _ => ⟨some 0, some .opened, some .opened, some 0, [], ""⟩
  st := fun id => if id = textBytes "demo" then some 0 else none
  sessions := fun _ => ⟨demoSession, true⟩
  nextSession := 1
  closed := fun _ => false
  started := fun svc => svc = Registry.firstD
  keyed := by
    intro key svc hsome
    rw [Registry.onlyFirstD] at hsome
    split_ifs at hsome with hkey
    cases hsome
    exact hkey.symm
  allocated := by
    intro id ref hsome
    split_ifs at hsome
    cases hsome
    exact Nat.zero_lt_one

theorem tornDown_iff_eof :
    onlyD.svcMap Registry.firstD.key = some Registry.firstD ∧
      TornDown onlyD Registry.firstD 0
        (onlyD.exceptionDisconnect (fun _ => []) Registry.firstD .eof) := by
  have hregistered : onlyD.svcMap Registry.firstD.key = some Registry.firstD := if_pos rfl
  refine ⟨hregistered, (tornDown_iff _ hregistered rfl rfl .eof).mpr ⟨rfl, ?_⟩⟩
  decide

/-- The device sends DISCONNECT, and `processIncoming` returns `errDisconnect`. -/
def demoDisconnect : Call Server Unit :=
  onlyD.exceptionDisconnect (fun _ => textBytes "Disconnect") Registry.firstD
    (.err (.errorf "Disconnect" []))

theorem disconnect_half_done :
    demoDisconnect.state.svcMap Registry.firstD.key = none ∧
      demoDisconnect.state.st (textBytes "demo") = some 0 ∧
      demoDisconnect.state.closed 0 = false ∧
      (demoDisconnect.state.sessions 0).queues = true ∧
      ¬ TornDown onlyD Registry.firstD 0 demoDisconnect := by
  have hqueues : (demoDisconnect.state.sessions 0).queues = true := by decide +kernel
  refine ⟨by decide +kernel, by decide +kernel, by decide +kernel, hqueues, fun htorn => ?_⟩
  have hstopped := htorn.stopped.1
  rw [hqueues] at hstopped
  cases hstopped

end Server

end Xmqtt.Service
