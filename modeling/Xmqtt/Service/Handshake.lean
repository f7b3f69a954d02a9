import Xmqtt.Service.MessageBuffer
import Xmqtt.Service.Server

/-!
# A connect from its first byte to its end

`handleConnection` of `server.go` with the reads and writes of `misc.go`.  The
connection is closed by a deferred function that looks at the named result
`err`; on the way `err` is also the variable that the writes of a CONNACK are
assigned to.  The old service of a device is ticked off before the new one is
logged in.
-/

namespace Xmqtt.Service

open Xmqtt.Go Xmqtt.Message Xmqtt.Sessions

/-- What `handleConnection` meets: the connection with its bytes and the error of a read
behind them, the capacity that `append` has left behind the CONNECT, the answer of
`auth.Login`, and whether the CONNACK can be written. -/
structure Arrival where
  conn : ConnRef
  stream : Bytes
  ending : ReadErr
  spare : Bytes
  login : Except Err Bytes
  write : Option Err

/-- The results of `handleConnection`, and the packets that it has written. -/
structure Finish where
  svc : Option ServiceRef
  err : Option ReadErr
  sent : List Bytes

def errInvalidUsername : ReadErr := .err (.errorf "service：invalid Username" [])
def errInvalidPassword : ReadErr := .err (.errorf "service：invalid Password" [])
def errBadClientIdOrUsernameOrPassword : ConnackCode := 4
def errAuthServerLoginFailed : ConnackCode := 5

def getConnectMessage (arrival : Arrival) : Outcome ReadErr ConnectMessage :=
  match getMessageBuffer arrival.stream with
  | .error err => .fail newConnectMessage 0 (if err = .eof then arrival.ending else err)
  | .ok (buf, _) =>
      match newConnectMessage.decode ⟨buf, arrival.spare⟩ with
      | .panic => .panic
      | .fail msg n err => .fail msg n (.err err)
      | .done msg n => .done msg n

/-- The packet, when it was written.  The messages that are written here have no packet id,
so the counter does not matter. -/
def writeMessage (msg : Xmqtt.Message) (write : Option Err) : Outcome Err Bytes :=
  match msg.len.1.encode (List.replicate msg.len.2 0) 0 with
  | .panic => .panic
  | .fail _ _ err => .fail [] 0 err
  | .done state n =>
      match write with
      | some err => .fail state.dst n err
      | none => .done state.dst n

/-- The CONNACK with a return code. -/
def connackOf (code : ConnackCode) : ConnackMessage :=
  (newConnackMessage.setReturnCode code).setSessionPresent false

def reply (code : ConnackCode) : Xmqtt.Message := .connack (connackOf code)

/-- Product key and device name, when the user name has both and there is a password. -/
def addressee (req : ConnectMessage) : Except ReadErr (Bytes × Bytes) :=
  match req.username.splitOn 0x26 with
  | [deviceName, productKey] =>
      if req.password = [] then .error errInvalidPassword else .ok (productKey, deviceName)
  | _ => .error errInvalidUsername

def defaultKeepAlive (req : ConnectMessage) : ConnectMessage :=
  if req.keepAlive = 0 then req.setKeepAlive (5 * 60) else req

/-- What was asked for, when `handleConnection` goes on behind its checks of the CONNECT. -/
def requested (arrival : Arrival) : Option (ConnectMessage × Bytes × Bytes) :=
  match getConnectMessage arrival with
  | .done req _ =>
      match addressee (defaultKeepAlive req) with
      | .ok (productKey, deviceName) => some (defaultKeepAlive req, productKey, deviceName)
      | .error _ => none
  | _ => none

/-! ## The CONNACK -/

/-- The bytes of a CONNACK without a session. -/
def connackPacket (code : ConnackCode) : Bytes := [0x20, 2, 0, code.toUInt8]

/-- The header of every CONNACK that is written here. -/
def replyHeader : Header := { newHeader .connack with dirty := true }

theorem wire_replyHeader : (replyHeader.sized 2).wire = [0x20, 2] := by decide +kernel

theorem msglen_replyHeader : (replyHeader.sized 2).msglen = 2 := by decide +kernel

theorem len_connackOf (code : ConnackCode) :
    (connackOf code).len = ((connackOf code).withHeader (replyHeader.sized 2), 4) := by
  have hheader : (connackOf code).toHeader = replyHeader := rfl
  rw [ConnackMessage.len, ConnackMessage.msglen, hheader,
    Header.lenOf_of_le rfl (by decide), msglen_replyHeader]

theorem encode_connackOf (code : ConnackCode) :
    ((connackOf code).withHeader (replyHeader.sized 2)).encode (List.replicate 4 0) 0 =
      .done ⟨(connackOf code).withHeader (replyHeader.sized 2), connackPacket code, 0⟩ 4 := by
  have hdirty : ((connackOf code).withHeader (replyHeader.sized 2)).dirty = true := rfl
  have htype : replyHeader.type.valid = true := rfl
  have hremlen : 0 ≤ int32 2 ∧ int32 2 ≤ maxRemainingLength := by decide +kernel
  rw [ConnackMessage.encode, hdirty, if_neg (by decide), encodeBody_eq_done_iff,
    encodeSized_eq_done_iff]
  change (replyHeader.sized 2).msglen + 2 ≤ 4 ∧ (0 ≤ int32 2 ∧ int32 2 ≤ maxRemainingLength) ∧
    replyHeader.type.valid = true ∧ (replyHeader.sized 2).msglen ≤ 4 ∧
    ConnackMessage.encodeFields _ ⟨(connackOf code).withHeader (replyHeader.sized 2),
      (replyHeader.sized 2).wire ++ (List.replicate 4 0).drop (replyHeader.sized 2).msglen, 0⟩
      (replyHeader.sized 2).wire.length = _
  rw [msglen_replyHeader, wire_replyHeader]
  exact ⟨le_rfl, hremlen, htype, by decide, rfl⟩

/-- A CONNACK can always be encoded, so only the write itself can fail. -/
theorem writeMessage_reply (code : ConnackCode) (write : Option Err) :
    writeMessage (reply code) write =
      match write with
      | some err => .fail (connackPacket code) 4 err
      | none => .done (connackPacket code) 4 := by
  have hlen : (reply code).len =
      (.connack ((connackOf code).withHeader (replyHeader.sized 2)), 4) := by
    change (Message.connack (connackOf code).len.1, (connackOf code).len.2) = _
    rw [len_connackOf]
  have hencode : (Message.connack ((connackOf code).withHeader (replyHeader.sized 2))).encode
      (List.replicate 4 0) 0 =
      .done ⟨.connack ((connackOf code).withHeader (replyHeader.sized 2)),
        connackPacket code, 0⟩ 4 := by
    change Message.lift Message.connack (ConnackMessage.encode _ _ _) = _
    rw [encode_connackOf]
    rfl
  rw [writeMessage, hlen]
  simp only [hencode]

namespace Server

/-- Write a CONNACK and return `err`, unless the write fails. -/
def refuse (server : Server) (arrival : Arrival) (code : ConnackCode) (err : Option ReadErr) :
    Call Server Finish :=
  match writeMessage (reply code) arrival.write with
  | .panic => .panicked server
  | .fail _ _ writeErr => .returned server ⟨none, some (.err writeErr), []⟩
  | .done packet _ => .returned server ⟨none, err, [packet]⟩

/-- Tick off the service that is registered under the key. -/
def tickOff (server : Server) (key : Bytes) : Call Server Unit :=
  match server.svcMap key with
  | none => .returned server ()
  | some old =>
      ((server.setReason old logReasonValTickOffDevice).deleteMapAndLogout old).1.leave old

/-- `sessMgr.New`. -/
def newSession (server : Server) (id : Bytes) : Server :=
  { server with
    st := Function.update server.st id (some server.nextSession)
    sessions := Function.update server.sessions server.nextSession ⟨⟨id, none⟩, false⟩
    nextSession := server.nextSession + 1
    allocated := by
      intro other ref hother
      rw [Function.update_apply] at hother
      split_ifs at hother
      · cases hother
        exact Nat.lt_succ_self _
      · exact Nat.lt_succ_of_lt (server.allocated other ref hother) }

def setSession (server : Server) (ref : SessionRef) (state : SessionState) : Server :=
  { server with sessions := Function.update server.sessions ref state }

/-- `getSession` of a service that has none yet. -/
def getSession (server : Server) (svc : ServiceRef) (req : ConnectMessage) :
    Call Server (Except Err SessionRef) :=
  let req := identified svc req
  let made := server.newSession req.clientId
  match Session.initialise req req.clientId with
  | .panic => .panicked made
  | .fail session _ err =>
      .returned (made.setSession server.nextSession ⟨session, false⟩) (.error err)
  | .done session _ =>
      .returned (made.setSession server.nextSession ⟨session, true⟩) (.ok server.nextSession)

/-- `start`, which has no error. -/
def start (server : Server) (svc : ServiceRef) (state : ServiceState) : Server :=
  { server.setService svc state with started := Function.update server.started svc true }

def storeMap (server : Server) (svc : ServiceRef) : Server :=
  { server with
    svcMap := Function.update server.svcMap svc.key (some svc)
    keyed := by
      intro key other hother
      rw [Function.update_apply] at hother
      split_ifs at hother with hkey
      · cases hother
        exact hkey.symm
      · exact server.keyed key other hother }

/-- The end of `handleConnection`, when the device is logged in. -/
def accept (server : Server) (arrival : Arrival) (svc : ServiceRef) (req : ConnectMessage)
    (loginValue : Bytes) : Call Server Finish :=
  (server.getSession svc req).andThen fun server session =>
    match session with
    | .error err => .returned server ⟨none, some (.err err), []⟩
    | .ok ref =>
        match writeMessage (reply connectionAccepted) arrival.write with
        | .panic => .panicked server
        | .fail _ _ err => .returned server ⟨none, some (.err err), []⟩
        | .done packet _ =>
            .returned ((server.start svc ⟨some arrival.conn, some .opened, some .opened,
              some ref, loginValue, ""⟩).storeMap svc) ⟨some svc, none, [packet]⟩

/-- A CONNECT of the device: the old service goes before the login. -/
def serve (server : Server) (arrival : Arrival) (req : ConnectMessage)
    (productKey deviceName : Bytes) : Call Server Finish :=
  let svc : ServiceRef := ⟨server.gsvcid + 1, productKey, deviceName⟩
  ({ server with gsvcid := server.gsvcid + 1 }.tickOff svc.key).andThen fun server _ =>
    match arrival.login with
    | .error _ => server.refuse arrival errAuthServerLoginFailed none
    | .ok loginValue => server.accept arrival svc req loginValue

/-- `handleConnection` without what it defers. -/
def establish (server : Server) (arrival : Arrival) : Call Server Finish :=
  match getConnectMessage arrival with
  | .panic => .panicked server
  | .fail _ _ (.err (.connack code)) => server.refuse arrival code none
  | .fail _ _ err => .returned server ⟨none, some err, []⟩
  | .done req _ =>
      match addressee (defaultKeepAlive req) with
      | .error err => server.refuse arrival errBadClientIdOrUsernameOrPassword (some err)
      | .ok (productKey, deviceName) =>
          server.serve arrival (defaultKeepAlive req) productKey deviceName

/-- The deferred function closes the connection if `err` is set, which it is at none of the
places where a panic can start. -/
def closeOnError (conn : ConnRef) : Call Server Finish → Call Server Finish
  | .returned server finish =>
      .returned (if finish.err.isSome then server.close conn else server) finish
  | .panicked server => .panicked server

def handleConnection (server : Server) (arrival : Arrival) : Call Server Finish :=
  closeOnError arrival.conn (server.establish arrival)

/-! ## Ticking off the old service -/

variable {server : Server} {arrival : Arrival} {svc old : ServiceRef} {key : Bytes}

/-- What stopping a service leaves alone: the map, and the connections that are not its
own. -/
structure Stops (svc : ServiceRef) (before after : Server) : Prop where
  svcMap : after.svcMap = before.svcMap
  conn : ∀ conn, (before.services svc).conn ≠ some conn →
    (after.services svc).conn ≠ some conn
  closed : ∀ conn, (before.services svc).conn ≠ some conn →
    after.closed conn = before.closed conn

theorem Stops.refl (svc : ServiceRef) (server : Server) : Stops svc server server :=
  ⟨rfl, fun _ hconn => hconn, fun _ _ => rfl⟩

theorem Stops.trans {first second third : Server} (hfirst : Stops svc first second)
    (hsecond : Stops svc second third) : Stops svc first third where
  svcMap := hsecond.svcMap.trans hfirst.svcMap
  conn := fun conn hconn => hsecond.conn conn (hfirst.conn conn hconn)
  closed := fun conn hconn =>
    (hsecond.closed conn (hfirst.conn conn hconn)).trans (hfirst.closed conn hconn)

/-- A service may change in everything, if it gets no other connection. -/
theorem stops_setService (server : Server) (svc : ServiceRef) {state : ServiceState}
    (hstate : state.conn = (server.services svc).conn ∨ state.conn = none) :
    Stops svc server (server.setService svc state) where
  svcMap := rfl
  conn := by
    intro conn hconn
    rw [services_setService]
    rcases hstate with hsame | hnone
    · rwa [hsame]
    · rw [hnone]
      exact Option.some_ne_none conn |>.symm
  closed := fun _ _ => rfl

theorem stops_closeDone (server : Server) (svc : ServiceRef) :
    Stops svc server (server.closeDone svc).state := by
  rw [closeDone]
  split
  · exact Stops.refl svc server
  · exact Stops.refl svc server
  · exact stops_setService server svc (Or.inl rfl)

theorem stops_closeConn (server : Server) (svc : ServiceRef) :
    Stops svc server (server.closeConn svc) := by
  rw [closeConn]
  split
  · exact Stops.refl svc server
  · rename_i own hown
    refine ⟨rfl, fun _ hconn => hconn, fun conn hconn => ?_⟩
    apply Function.update_of_ne
    rintro rfl
    exact hconn hown

theorem stops_closeKeepAliveCH (server : Server) (svc : ServiceRef) :
    Stops svc server (server.closeKeepAliveCH svc).state := by
  rw [closeKeepAliveCH]
  split
  · exact Stops.refl svc server
  · exact Stops.refl svc server
  · exact stops_setService server svc (Or.inl rfl)

theorem stops_stopSession (server : Server) (svc : ServiceRef) :
    Stops svc server (server.stopSession svc).state := by
  rw [stopSession]
  split
  · exact Stops.refl svc server
  · split
    · have hstops : Stops svc server
          (server.setService svc { server.services svc with sess := none }) :=
        stops_setService server svc (Or.inl rfl)
      exact ⟨rfl, hstops.conn, hstops.closed⟩
    · exact Stops.refl svc server

theorem stops_newStopConnect (server : Server) (svc : ServiceRef) :
    Stops svc server (server.newStopConnect svc).state := by
  change Stops svc server (Call.andThen _ _).state
  apply Call.state_andThen (P := Stops svc server) (stops_closeDone server svc)
  intro first _ hfirst
  apply Call.state_andThen (P := Stops svc server)
    ((hfirst.trans (stops_closeConn first svc)).trans (stops_closeKeepAliveCH _ svc))
  intro second _ hsecond
  exact (hsecond.trans (stops_setService second svc (Or.inr rfl))).trans
    (stops_stopSession _ svc)

/-- The service that is registered under the key, if there is one, has a session. -/
def Seated (server : Server) (key : Bytes) : Prop :=
  ∀ old, server.svcMap key = some old → (server.services old).sess ≠ none

/-- No service holds the connection, and it is open. -/
structure Accepted (server : Server) (conn : ConnRef) : Prop where
  opened : server.closed conn = false
  unowned : ∀ svc, (server.services svc).conn ≠ some conn

theorem tickOff_of_none (hnone : server.svcMap key = none) :
    server.tickOff key = .returned server () := by
  rw [tickOff, hnone]

theorem tickOff_of_some (hold : server.svcMap key = some old) :
    server.tickOff key = (server.unregister old logReasonValTickOffDevice).leave old := by
  rw [tickOff, hold]
  rfl

/-- Ticking off comes back unless the old service has no session. -/
theorem tickOff_of_seated (hseated : server.Seated key) :
    ∃ after, server.tickOff key = .returned after () := by
  cases hold : server.svcMap key with
  | none => exact ⟨server, tickOff_of_none hold⟩
  | some old =>
      obtain ⟨ref, hsess⟩ := Option.ne_none_iff_exists'.mp (hseated old hold)
      exact ⟨_, (tickOff_of_some hold).trans (leave_unregister hsess _)⟩

theorem tickOff_of_not_seated (hseated : ¬ server.Seated key) :
    ∃ after, server.tickOff key = .panicked after := by
  simp only [Seated, not_forall, not_not] at hseated
  obtain ⟨old, hold, hsess⟩ := hseated
  have hkept : ((server.unregister old logReasonValTickOffDevice).services old).sess = none := by
    rw [services_unregister]
    exact hsess
  rw [tickOff_of_some hold, leave, hkept]
  exact ⟨_, rfl⟩

theorem stops_leave (server : Server) (svc : ServiceRef) :
    Stops svc server (server.leave svc).state := by
  rw [leave]
  split
  · exact Stops.refl svc server
  · rename_i ref hsess
    have hstops := stops_newStopConnect (server.del (server.sessions ref).session.ID) svc
    exact ⟨hstops.svcMap, hstops.conn, hstops.closed⟩

/-- However ticking off ends, the key is free. -/
theorem svcMap_tickOff (server : Server) (key : Bytes) :
    (server.tickOff key).state.svcMap key = none := by
  cases hold : server.svcMap key with
  | none => rwa [tickOff_of_none hold]
  | some old =>
      rw [tickOff_of_some hold, (stops_leave _ old).svcMap, ← server.keyed key old hold]
      exact Function.update_self _ _ _

theorem closed_tickOff {conn : ConnRef} (haccepted : server.Accepted conn) (key : Bytes) :
    (server.tickOff key).state.closed conn = false := by
  cases hold : server.svcMap key with
  | none => rw [tickOff_of_none hold]; exact haccepted.opened
  | some old =>
      have hother : ((server.unregister old logReasonValTickOffDevice).services old).conn ≠
          some conn := by
        rw [services_unregister]
        exact haccepted.unowned old
      rw [tickOff_of_some hold, (stops_leave _ old).closed conn hother]
      exact haccepted.opened

/-! ## The ends of a connect -/

theorem refuse_of_written (hwrite : arrival.write = none) (server : Server)
    (code : ConnackCode) (err : Option ReadErr) :
    server.refuse arrival code err = .returned server ⟨none, err, [connackPacket code]⟩ := by
  rw [refuse, writeMessage_reply, hwrite]

theorem refuse_of_unwritten {writeErr : Err} (hwrite : arrival.write = some writeErr)
    (server : Server) (code : ConnackCode) (err : Option ReadErr) :
    server.refuse arrival code err =
      .returned server ⟨none, some (.err writeErr), []⟩ := by
  rw [refuse, writeMessage_reply, hwrite]

/-- A connect that is refused with an error ends with one. -/
theorem refuse_some (server : Server) (arrival : Arrival) (code : ConnackCode)
    (err : ReadErr) :
    ∃ last sent, server.refuse arrival code (some err) =
      .returned server ⟨none, some last, sent⟩ := by
  cases hwrite : arrival.write with
  | none => exact ⟨err, _, refuse_of_written hwrite server code (some err)⟩
  | some writeErr => exact ⟨_, _, refuse_of_unwritten hwrite server code (some err)⟩

section Accept

variable {req : ConnectMessage} (loginValue : Bytes)

/-- The session that `getSession` initialises for the service. -/
def initialised (svc : ServiceRef) (req : ConnectMessage) : Outcome Err Session :=
  Session.initialise (identified svc req) (identified svc req).clientId

/-- A service is started and stored. -/
def Stored (call : Call Server Finish) : Prop :=
  ∃ server finish svc, call = .returned server finish ∧ finish.svc = some svc ∧
    server.svcMap svc.key = some svc ∧ server.started svc = true

theorem accept_of_panic (hinit : initialised svc req = .panic) :
    server.accept arrival svc req loginValue =
      .panicked (server.newSession (identified svc req).clientId) := by
  rw [initialised] at hinit
  simp only [accept, getSession, hinit, Call.panicked_andThen]

theorem accept_of_done {session : Session} {n : ℕ}
    (hinit : initialised svc req = .done session n) (hwrite : arrival.write = none) :
    ∃ after, server.accept arrival svc req loginValue =
        .returned after ⟨some svc, none, [connackPacket connectionAccepted]⟩ ∧
      after.svcMap svc.key = some svc ∧ after.started svc = true := by
  rw [initialised] at hinit
  simp only [accept, getSession, hinit, Call.returned_andThen, writeMessage_reply, hwrite]
  exact ⟨_, rfl, Function.update_self _ _ _, Function.update_self _ _ _⟩

/-- Neither a panic nor an answer: the error is returned, and the new session stays. -/
theorem accept_of_error (server : Server) (loginValue : Bytes)
    (hpanic : initialised svc req ≠ .panic)
    (hdone : ∀ session n, initialised svc req = .done session n → arrival.write ≠ none) :
    ∃ after err, server.accept arrival svc req loginValue =
        .returned after ⟨none, some err, []⟩ ∧ after.svcMap = server.svcMap ∧
      after.st (identified svc req).clientId = some server.nextSession := by
  cases hinit : initialised svc req with
  | panic => exact absurd hinit hpanic
  | fail session n err =>
      rw [initialised] at hinit
      simp only [accept, getSession, hinit, Call.returned_andThen]
      exact ⟨_, _, rfl, rfl, Function.update_self _ _ _⟩
  | done session n =>
      obtain ⟨err, hwrite⟩ := Option.ne_none_iff_exists'.mp (hdone session n hinit)
      rw [initialised] at hinit
      simp only [accept, getSession, hinit, Call.returned_andThen, writeMessage_reply, hwrite]
      exact ⟨_, _, rfl, rfl, Function.update_self _ _ _⟩

end Accept

section Establish

variable {req : ConnectMessage} {productKey deviceName : Bytes}

/-- The service that a CONNECT of the device is given. -/
def nextService (server : Server) (productKey deviceName : Bytes) : ServiceRef :=
  ⟨server.gsvcid + 1, productKey, deviceName⟩

theorem establish_of_requested
    (hrequested : requested arrival = some (req, productKey, deviceName)) :
    server.establish arrival = server.serve arrival req productKey deviceName := by
  rw [requested] at hrequested
  rw [establish]
  split at hrequested
  · rename_i decoded n hdecode
    split at hrequested
    · rename_i hparts
      cases hrequested
      simp only [hdecode, hparts]
    · cases hrequested
  · cases hrequested

/-- A CONNECT that does not pass the checks changes nothing on the server. -/
theorem establish_of_not_requested (server : Server) (hnone : requested arrival = none) :
    getConnectMessage arrival = .panic ∧ server.establish arrival = .panicked server ∨
    (∃ msg n code, getConnectMessage arrival = .fail msg n (.err (.connack code)) ∧
      server.establish arrival = server.refuse arrival code none) ∨
    ∃ err sent, server.establish arrival = .returned server ⟨none, some err, sent⟩ ∧
      getConnectMessage arrival ≠ .panic ∧
      ∀ msg n code, getConnectMessage arrival ≠ .fail msg n (.err (.connack code)) := by
  rw [requested] at hnone
  rw [establish]
  cases hconnect : getConnectMessage arrival with
  | panic => exact Or.inl ⟨rfl, rfl⟩
  | fail msg n err =>
      rcases err with _ | (_ | code) | _
      case err.connack => exact Or.inr (Or.inl ⟨msg, n, code, rfl, rfl⟩)
      all_goals exact Or.inr (Or.inr ⟨_, _, rfl, by simp, by simp⟩)
  | done decoded n =>
      cases hparts : addressee (defaultKeepAlive decoded) with
      | ok parts => simp [hconnect, hparts] at hnone
      | error err =>
          obtain ⟨last, sent, hrefuse⟩ :=
            refuse_some server arrival errBadClientIdOrUsernameOrPassword err
          exact Or.inr (Or.inr ⟨last, sent, by simp only [hparts]; exact hrefuse,
            by simp, by simp⟩)

theorem serve_of_not_seated (hseated : ¬ server.Seated (serviceKey productKey deviceName)) :
    ∃ after, server.serve arrival req productKey deviceName = .panicked after ∧
      after.svcMap (serviceKey productKey deviceName) = none ∧
      ∀ conn, server.Accepted conn → after.closed conn = false := by
  let counted : Server := { server with gsvcid := server.gsvcid + 1 }
  have hcounted : ¬ counted.Seated (serviceKey productKey deviceName) := hseated
  obtain ⟨after, hafter⟩ := tickOff_of_not_seated hcounted
  have hfree := svcMap_tickOff counted (serviceKey productKey deviceName)
  rw [hafter] at hfree
  refine ⟨after, ?_, hfree, fun conn haccepted => ?_⟩
  · change (counted.tickOff (serviceKey productKey deviceName)).andThen _ = _
    rw [hafter, Call.panicked_andThen]
  · have hopen : counted.Accepted conn := ⟨haccepted.opened, haccepted.unowned⟩
    have hclosed := closed_tickOff hopen (serviceKey productKey deviceName)
    rwa [hafter] at hclosed

theorem serve_of_seated (hseated : server.Seated (serviceKey productKey deviceName)) :
    ∃ after : Server, after.svcMap (serviceKey productKey deviceName) = none ∧
      (∀ conn, server.Accepted conn → after.closed conn = false) ∧
      server.serve arrival req productKey deviceName =
        match arrival.login with
        | .error _ => after.refuse arrival errAuthServerLoginFailed none
        | .ok loginValue =>
            after.accept arrival (server.nextService productKey deviceName) req loginValue := by
  let counted : Server := { server with gsvcid := server.gsvcid + 1 }
  have hcounted : counted.Seated (serviceKey productKey deviceName) := hseated
  obtain ⟨after, hafter⟩ := tickOff_of_seated hcounted
  have hfree := svcMap_tickOff counted (serviceKey productKey deviceName)
  rw [hafter] at hfree
  refine ⟨after, hfree, fun conn haccepted => ?_, ?_⟩
  · have hopen : counted.Accepted conn := ⟨haccepted.opened, haccepted.unowned⟩
    have hclosed := closed_tickOff hopen (serviceKey productKey deviceName)
    rwa [hafter] at hclosed
  · change (counted.tickOff (serviceKey productKey deviceName)).andThen _ = _
    rw [hafter, Call.returned_andThen]
    rfl

end Establish

/-! ## A service or a closed connection -/

/-- The connect has come to an end: there is a service, or the connection is closed, as it is
behind every CONNACK that refuses. -/
structure Settled (conn : ConnRef) (call : Call Server Finish) : Prop where
  ended : Stored call ∨ call.state.closed conn = true
  refused : ∀ server finish packet, call = .returned server finish → packet ∈ finish.sent →
    packet ≠ connackPacket connectionAccepted → server.closed conn = true

/-- The connects that leave an open connection behind. -/
inductive LeftOpen (server : Server) (arrival : Arrival) : Prop
  /-- `Decode` panics. -/
  | decode (hpanic : getConnectMessage arrival = .panic)
  /-- `Decode` asks for a CONNACK, which is written. -/
  | rejected (msg : ConnectMessage) (n : ℕ) (code : ConnackCode)
      (hfail : getConnectMessage arrival = .fail msg n (.err (.connack code)))
      (hwrite : arrival.write = none)
  /-- The old service of the device has no session, so that ticking it off panics. -/
  | unseated (req : ConnectMessage) (productKey deviceName : Bytes)
      (hrequested : requested arrival = some (req, productKey, deviceName))
      (hunseated : ¬ server.Seated (serviceKey productKey deviceName))
  /-- The login fails, and the CONNACK is written. -/
  | login (req : ConnectMessage) (productKey deviceName : Bytes) (err : Err)
      (hrequested : requested arrival = some (req, productKey, deviceName))
      (hlogin : arrival.login = .error err) (hwrite : arrival.write = none)
  /-- The login works, and `Init` panics. -/
  | init (req : ConnectMessage) (productKey deviceName loginValue : Bytes)
      (hrequested : requested arrival = some (req, productKey, deviceName))
      (hlogin : arrival.login = .ok loginValue)
      (hpanic : initialised (server.nextService productKey deviceName) req = .panic)

section Settled

variable {conn : ConnRef} {call : Call Server Finish} {after : Server}

theorem settled_of_error {err : ReadErr} {sent : List Bytes}
    (hcall : call = .returned after ⟨none, some err, sent⟩) :
    Settled conn (closeOnError conn call) := by
  subst hcall
  constructor
  case ended => exact Or.inr (Function.update_self _ _ _)
  case refused =>
    rintro server finish packet ⟨⟩ - -
    exact Function.update_self _ _ _

theorem settled_of_stored {svc : ServiceRef}
    (hcall : call = .returned after ⟨some svc, none, [connackPacket connectionAccepted]⟩)
    (hstored : after.svcMap svc.key = some svc) (hstarted : after.started svc = true) :
    Settled conn (closeOnError conn call) := by
  subst hcall
  constructor
  case ended => exact Or.inl ⟨after, _, svc, rfl, rfl, hstored, hstarted⟩
  case refused =>
    rintro server finish packet ⟨⟩ hsent hother
    exact absurd (List.mem_singleton.mp hsent) hother

theorem not_settled_of_panic (hcall : call = .panicked after)
    (hopen : after.closed conn = false) : ¬ Settled conn (closeOnError conn call) := by
  subst hcall
  intro hsettled
  rcases hsettled.ended with ⟨server, finish, svc, hreturned, -⟩ | hclosed
  · cases hreturned
  · change after.closed conn = true at hclosed
    rw [hopen] at hclosed
    cases hclosed

theorem not_settled_of_nil {sent : List Bytes}
    (hcall : call = .returned after ⟨none, none, sent⟩) (hopen : after.closed conn = false) :
    ¬ Settled conn (closeOnError conn call) := by
  subst hcall
  intro hsettled
  rcases hsettled.ended with ⟨server, finish, svc, hreturned, hsvc, -⟩ | hclosed
  · cases hreturned
    cases hsvc
  · change after.closed conn = true at hclosed
    rw [hopen] at hclosed
    cases hclosed

end Settled

theorem LeftOpen.not_settled (haccepted : server.Accepted arrival.conn)
    (hleft : server.LeftOpen arrival) :
    ¬ Settled arrival.conn (server.handleConnection arrival) := by
  rw [handleConnection]
  cases hleft with
  | decode hpanic =>
      apply not_settled_of_panic _ haccepted.opened
      rw [establish, hpanic]
  | rejected msg n code hfail hwrite =>
      apply not_settled_of_nil _ haccepted.opened
      · exact [connackPacket code]
      · rw [establish, hfail]
        exact refuse_of_written hwrite server code none
  | unseated req productKey deviceName hrequested hunseated =>
      obtain ⟨after, hserve, -, hopen⟩ := serve_of_not_seated hunseated
      rw [establish_of_requested hrequested]
      exact not_settled_of_panic hserve (hopen _ haccepted)
  | login req productKey deviceName err hrequested hlogin hwrite =>
      rw [establish_of_requested hrequested]
      by_cases hseated : server.Seated (serviceKey productKey deviceName)
      · obtain ⟨after, -, hopen, hserve⟩ := serve_of_seated hseated
        rw [hserve, hlogin]
        exact not_settled_of_nil (refuse_of_written hwrite after _ none) (hopen _ haccepted)
      · obtain ⟨after, hserve, -, hopen⟩ := serve_of_not_seated hseated
        exact not_settled_of_panic hserve (hopen _ haccepted)
  | init req productKey deviceName loginValue hrequested hlogin hpanic =>
      rw [establish_of_requested hrequested]
      by_cases hseated : server.Seated (serviceKey productKey deviceName)
      · obtain ⟨after, -, hopen, hserve⟩ := serve_of_seated hseated
        rw [hserve, hlogin]
        exact not_settled_of_panic (accept_of_panic loginValue hpanic) (hopen _ haccepted)
      · obtain ⟨after, hserve, -, hopen⟩ := serve_of_not_seated hseated
        exact not_settled_of_panic hserve (hopen _ haccepted)

theorem settled_of_not_leftOpen (hleft : ¬ server.LeftOpen arrival) :
    Settled arrival.conn (server.handleConnection arrival) := by
  rw [handleConnection]
  cases hrequested : requested arrival with
  | none =>
      rcases establish_of_not_requested server hrequested with
        ⟨hpanic, -⟩ | ⟨msg, n, code, hfail, hestablish⟩ | ⟨err, sent, hestablish, -⟩
      · exact absurd (LeftOpen.decode hpanic) hleft
      · cases hwrite : arrival.write with
        | none => exact absurd (LeftOpen.rejected msg n code hfail hwrite) hleft
        | some writeErr =>
            rw [hestablish]
            exact settled_of_error (refuse_of_unwritten hwrite server code none)
      · exact settled_of_error hestablish
  | some parts =>
      obtain ⟨req, productKey, deviceName⟩ := parts
      have hseated : server.Seated (serviceKey productKey deviceName) := by
        by_contra hunseated
        exact hleft (LeftOpen.unseated req productKey deviceName hrequested hunseated)
      obtain ⟨after, -, -, hserve⟩ := serve_of_seated hseated
      rw [establish_of_requested hrequested, hserve]
      cases hlogin : arrival.login with
      | error err =>
          cases hwrite : arrival.write with
          | none =>
              exact absurd (LeftOpen.login req productKey deviceName err hrequested hlogin
                hwrite) hleft
          | some writeErr => exact settled_of_error (refuse_of_unwritten hwrite after _ none)
      | ok loginValue =>
          have hpanic : initialised (server.nextService productKey deviceName) req ≠ .panic :=
            fun hinit => hleft (LeftOpen.init req productKey deviceName loginValue hrequested
              hlogin hinit)
          by_cases hdone : ∃ session n,
              initialised (server.nextService productKey deviceName) req = .done session n ∧
                arrival.write = none
          · obtain ⟨session, n, hinit, hwrite⟩ := hdone
            obtain ⟨last, haccept, hstored, hstarted⟩ := accept_of_done loginValue hinit hwrite
            exact settled_of_stored haccept hstored hstarted
          · obtain ⟨last, err, haccept, -, -⟩ := accept_of_error after loginValue hpanic
              fun session n hinit hwrite => hdone ⟨session, n, hinit, hwrite⟩
            exact settled_of_error haccept

/-- `handleConnection` on a new connection ends with a service or with the connection closed if
and only if no panic and no written CONNACK has taken the error away from the deferred
close. -/
theorem settled_iff (haccepted : server.Accepted arrival.conn) :
    Settled arrival.conn (server.handleConnection arrival) ↔ ¬ server.LeftOpen arrival := by
  constructor
  · intro hsettled hleft
    exact hleft.not_settled haccepted hsettled
  · exact settled_of_not_leftOpen

/-- A connection 1 that brings these bytes and then ends. -/
def arrivalOf (stream : Bytes) (write : Option Err) : Arrival :=
  ⟨1, stream, .eof, [], .ok [], write⟩

theorem accepted_onlyD : onlyD.Accepted 1 := by
  refine ⟨rfl, fun svc => ?_⟩
  change (some 0 : Option ConnRef) ≠ some 1
  decide

/-- The device "d" comes back on connection 1. -/
def returningD : Arrival := arrivalOf (Connections.connectOf "d" "demo") none

/-- The service that held the key is ticked off, the device is logged in and its CONNACK is
written. -/
theorem settled_iff_returning :
    onlyD.Accepted 1 ∧ onlyD.svcMap Registry.firstD.key = some Registry.firstD ∧
      (onlyD.handleConnection returningD).value?.map Finish.sent =
        some [connackPacket connectionAccepted] ∧
      Settled 1 (onlyD.handleConnection returningD) := by
  have haccepted : onlyD.Accepted returningD.conn := accepted_onlyD
  refine ⟨accepted_onlyD, if_pos rfl, by decide +kernel,
    (settled_iff haccepted).mpr fun hleft => ?_⟩
  have hconnect : (getConnectMessage returningD).map (fun _ => ()) = .done () 31 := by
    decide +kernel
  obtain ⟨req, hreq, -⟩ := Outcome.map_eq_done_iff.mp hconnect
  have hinit : ∀ parts ∈ requested returningD,
      initialised (onlyD.nextService parts.2.1 parts.2.2) parts.1 ≠ .panic := by
    decide +kernel
  cases hleft with
  | decode hpanic => rw [hreq] at hpanic; cases hpanic
  | rejected msg n code hfail => rw [hreq] at hfail; cases hfail
  | unseated req productKey deviceName _ hunseated =>
      exact hunseated fun _ _ => by simp [onlyD]
  | login req productKey deviceName err _ hlogin => cases hlogin
  | init req productKey deviceName value hsome _ hpanic => exact hinit _ hsome hpanic

/-- A CONNECT of protocol version 5. -/
def connectVersion5 : Bytes :=
  let body := lpBytes (textBytes "MQTT") ++ [5, 0xc2, 0, 60] ++ lpBytes (textBytes "demo") ++
    lpBytes (textBytes "d&p") ++ lpBytes (textBytes "123456")
  0x10 :: UInt8.ofNat body.length :: body

/-- The call that refuses it. -/
def refusedVersion5 : Call Server Finish :=
  onlyD.handleConnection (arrivalOf connectVersion5 none)

theorem version5_left_open :
    refusedVersion5.value?.map Finish.sent = some [connackPacket errInvalidProtocolVersion] ∧
      refusedVersion5.state.closed 1 = false ∧ ¬ Settled 1 refusedVersion5 := by
  have hopen : refusedVersion5.state.closed 1 = false := by decide +kernel
  have hsvc : refusedVersion5.value?.map Finish.svc = some none := by decide +kernel
  refine ⟨by decide +kernel, hopen, fun hsettled => ?_⟩
  rcases hsettled.ended with ⟨server, finish, svc, hreturned, hsome, -⟩ | hclosed
  · rw [hreturned, Call.value?, Option.map_some, hsome] at hsvc
    cases hsvc
  · rw [hopen] at hclosed
    cases hclosed

/-! ## What a failed connect leaves behind -/

/-- The receiver was started, and nobody has told it to stop. -/
def Running (server : Server) (svc : ServiceRef) : Prop :=
  server.started svc = true ∧ (server.services svc).done ≠ some .closed

/-- The registered services, the running ones and the stored sessions are what they were. -/
structure Untouched (before after : Server) : Prop where
  svcMap : after.svcMap = before.svcMap
  running : ∀ svc, after.Running svc ↔ before.Running svc
  st : after.st = before.st
  sessions : ∀ id ref, before.st id = some ref → after.sessions ref = before.sessions ref

/-- The CONNECT is refused before anything is done for it, or it fails at the login while no
service of the device is there, or it does not fail. -/
def Harmless (server : Server) (arrival : Arrival) : Prop :=
  ∀ req productKey deviceName, requested arrival = some (req, productKey, deviceName) →
    (server.svcMap (serviceKey productKey deviceName) = none ∧
      ∃ err, arrival.login = .error err) ∨
    (server.Seated (serviceKey productKey deviceName) ∧
      (∃ loginValue, arrival.login = .ok loginValue) ∧
      (∃ session n, initialised (server.nextService productKey deviceName) req =
        .done session n) ∧
      arrival.write = none)

/-- What is asked of a connect: it does not fail, or it leaves the others alone. -/
def Undisturbing (server : Server) (call : Call Server Finish) : Prop :=
  Stored call ∨ Untouched server call.state

section Undisturbing

variable {call : Call Server Finish} {after : Server}

/-- Closing the connection is not seen by the others. -/
theorem undisturbing_closeOnError (conn : ConnRef) :
    Undisturbing server (closeOnError conn call) ↔ Undisturbing server call := by
  cases call with
  | panicked after => exact Iff.rfl
  | returned after finish =>
      cases herr : finish.err with
      | none => simp only [closeOnError, herr, Option.isSome_none, Bool.false_eq_true, if_false]
      | some err =>
          simp only [closeOnError, herr, Option.isSome_some, if_true]
          apply or_congr
          · constructor
            · rintro ⟨_, _, svc, ⟨⟩, hsvc, hstored, hstarted⟩
              exact ⟨after, finish, svc, rfl, hsvc, hstored, hstarted⟩
            · rintro ⟨_, _, svc, ⟨⟩, hsvc, hstored, hstarted⟩
              exact ⟨after.close conn, finish, svc, rfl, hsvc, hstored, hstarted⟩
          · constructor
            · intro hsame
              exact ⟨hsame.svcMap, hsame.running, hsame.st, hsame.sessions⟩
            · intro hsame
              exact ⟨hsame.svcMap, hsame.running, hsame.st, hsame.sessions⟩

theorem Untouched.refl (server : Server) : Untouched server server :=
  ⟨rfl, fun _ => Iff.rfl, rfl, fun _ _ _ => rfl⟩

theorem not_stored_of_error {err : Option ReadErr} {sent : List Bytes}
    (hcall : call = .returned after ⟨none, err, sent⟩) : ¬ Stored call := by
  rintro ⟨server, finish, svc, hreturned, hsvc, -⟩
  rw [hcall] at hreturned
  cases hreturned
  cases hsvc

theorem not_stored_of_panic (hcall : call = .panicked after) : ¬ Stored call := by
  rintro ⟨server, finish, svc, hreturned, -⟩
  rw [hcall] at hreturned
  cases hreturned

/-- The old service of the device is gone. -/
theorem not_undisturbing_of_freed (hcall : ¬ Stored call) (hold : server.svcMap key = some old)
    (hfree : call.state.svcMap key = none) : ¬ Undisturbing server call := by
  rintro (hstored | hsame)
  · exact hcall hstored
  · rw [hsame.svcMap, hold] at hfree
    cases hfree

/-- A session is left that was not there before. -/
theorem not_undisturbing_of_session {id : Bytes} (hcall : ¬ Stored call)
    (hst : call.state.st id = some server.nextSession) : ¬ Undisturbing server call := by
  rintro (hstored | hsame)
  · exact hcall hstored
  · rw [hsame.st] at hst
    exact lt_irrefl _ (server.allocated id _ hst)

end Undisturbing

section Harmless

variable {req : ConnectMessage} {productKey deviceName : Bytes}

/-- A connect that is not admitted in the end leaves its session, and registers nothing. -/
theorem accept_not_stored (server : Server) (loginValue : Bytes)
    (hfails : ¬ ((∃ session n, initialised svc req = .done session n) ∧
      arrival.write = none)) :
    ¬ Stored (server.accept arrival svc req loginValue) ∧
      (server.accept arrival svc req loginValue).state.svcMap = server.svcMap ∧
      (server.accept arrival svc req loginValue).state.st (identified svc req).clientId =
        some server.nextSession := by
  by_cases hpanic : initialised svc req = .panic
  · have haccept : server.accept arrival svc req loginValue = _ :=
      accept_of_panic loginValue hpanic
    refine ⟨not_stored_of_panic haccept, ?_, ?_⟩
    · rw [haccept]
      rfl
    · rw [haccept]
      exact Function.update_self _ _ _
  · obtain ⟨after, err, haccept, hsvcMap, hst⟩ := accept_of_error server
      loginValue hpanic fun session n hinit hwrite => hfails ⟨⟨session, n, hinit⟩, hwrite⟩
    refine ⟨not_stored_of_error haccept, ?_, ?_⟩
    · rw [haccept]
      exact hsvcMap
    · rw [haccept]
      exact hst

theorem refuse_not_stored (server : Server) (arrival : Arrival) (code : ConnackCode) :
    ¬ Stored (server.refuse arrival code none) ∧
      (server.refuse arrival code none).state = server := by
  cases hwrite : arrival.write with
  | none =>
      have hrefuse := refuse_of_written hwrite server code none
      exact ⟨not_stored_of_error hrefuse, by rw [hrefuse]; rfl⟩
  | some writeErr =>
      have hrefuse := refuse_of_unwritten hwrite server code none
      exact ⟨not_stored_of_error hrefuse, by rw [hrefuse]; rfl⟩

theorem undisturbing_of_not_requested (server : Server) (hnone : requested arrival = none) :
    Undisturbing server (server.establish arrival) := by
  apply Or.inr
  rcases establish_of_not_requested server hnone with
    ⟨-, hestablish⟩ | ⟨msg, n, code, -, hestablish⟩ | ⟨err, sent, hestablish, -⟩
  · rw [hestablish]
    exact Untouched.refl server
  · rw [hestablish, (refuse_not_stored server arrival code).2]
    exact Untouched.refl server
  · rw [hestablish]
    exact Untouched.refl server

/-- Without an old service the login is all that happens before the session. -/
theorem serve_of_free (hfree : server.svcMap (serviceKey productKey deviceName) = none) :
    server.serve arrival req productKey deviceName =
      match arrival.login with
      | .error _ => { server with gsvcid := server.gsvcid + 1 }.refuse arrival
          errAuthServerLoginFailed none
      | .ok loginValue => { server with gsvcid := server.gsvcid + 1 }.accept arrival
          (server.nextService productKey deviceName) req loginValue := by
  let counted : Server := { server with gsvcid := server.gsvcid + 1 }
  have hcounted : counted.svcMap (serviceKey productKey deviceName) = none := hfree
  change (counted.tickOff (serviceKey productKey deviceName)).andThen _ = _
  rw [tickOff_of_none hcounted, Call.returned_andThen]
  rfl

/-- The old service of the device is ticked off, so everything that fails behind it
disturbs. -/
theorem undisturbing_serve_of_some
    (hold : server.svcMap (serviceKey productKey deviceName) = some old) :
    Undisturbing server (server.serve arrival req productKey deviceName) ↔
      server.Seated (serviceKey productKey deviceName) ∧
        (∃ loginValue, arrival.login = .ok loginValue) ∧
        (∃ session n, initialised (server.nextService productKey deviceName) req =
          .done session n) ∧
        arrival.write = none := by
  by_cases hseated : server.Seated (serviceKey productKey deviceName)
  · obtain ⟨after, hfree, -, hserve⟩ := serve_of_seated hseated
    rw [hserve]
    cases hlogin : arrival.login with
    | error err =>
        obtain ⟨hcall, hstate⟩ := refuse_not_stored after arrival errAuthServerLoginFailed
        refine iff_of_false (not_undisturbing_of_freed hcall hold ?_) (by simp)
        rw [hstate]
        exact hfree
    | ok loginValue =>
        by_cases hdone : (∃ session n, initialised (server.nextService productKey deviceName)
            req = .done session n) ∧ arrival.write = none
        · obtain ⟨⟨session, n, hinit⟩, hwrite⟩ := hdone
          obtain ⟨last, haccept, hstored, hstarted⟩ := accept_of_done loginValue hinit hwrite
          exact iff_of_true (Or.inl ⟨last, _, _, haccept, rfl, hstored, hstarted⟩)
            ⟨hseated, ⟨loginValue, rfl⟩, ⟨session, n, hinit⟩, hwrite⟩
        · obtain ⟨hcall, hsvcMap, -⟩ := accept_not_stored after loginValue hdone
          refine iff_of_false (not_undisturbing_of_freed hcall hold ?_)
            fun hall => hdone hall.2.2
          rw [hsvcMap]
          exact hfree
  · obtain ⟨after, hserve, hfree, -⟩ := serve_of_not_seated hseated
    rw [hserve]
    exact iff_of_false (not_undisturbing_of_freed (not_stored_of_panic rfl) hold hfree)
      fun hall => hseated hall.1

/-- Without an old service only a session that is not taken back disturbs. -/
theorem undisturbing_serve_of_none
    (hfree : server.svcMap (serviceKey productKey deviceName) = none) :
    Undisturbing server (server.serve arrival req productKey deviceName) ↔
      (∃ err, arrival.login = .error err) ∨
        (∃ loginValue, arrival.login = .ok loginValue) ∧
        (∃ session n, initialised (server.nextService productKey deviceName) req =
          .done session n) ∧
        arrival.write = none := by
  rw [serve_of_free hfree]
  cases hlogin : arrival.login with
  | error err =>
      refine iff_of_true (Or.inr ?_) (Or.inl ⟨err, rfl⟩)
      simp only [(refuse_not_stored _ arrival errAuthServerLoginFailed).2]
      exact ⟨rfl, fun _ => Iff.rfl, rfl, fun _ _ _ => rfl⟩
  | ok loginValue =>
      by_cases hdone : (∃ session n, initialised (server.nextService productKey deviceName)
          req = .done session n) ∧ arrival.write = none
      · obtain ⟨⟨session, n, hinit⟩, hwrite⟩ := hdone
        obtain ⟨last, haccept, hstored, hstarted⟩ := accept_of_done loginValue hinit hwrite
        exact iff_of_true (Or.inl ⟨last, _, _, haccept, rfl, hstored, hstarted⟩)
          (Or.inr ⟨⟨loginValue, rfl⟩, ⟨session, n, hinit⟩, hwrite⟩)
      · obtain ⟨hcall, -, hst⟩ :=
          accept_not_stored { server with gsvcid := server.gsvcid + 1 } loginValue hdone
        refine iff_of_false (not_undisturbing_of_session hcall hst) ?_
        rintro (⟨err, herr⟩ | hall)
        · cases herr
        · exact hdone hall.2

end Harmless

/-- A connect that ends without a service leaves services and sessions alone if and only if it
is refused at its checks, or at the login while no service of the device is registered. -/
theorem undisturbing_iff (server : Server) (arrival : Arrival) :
    Undisturbing server (server.handleConnection arrival) ↔ server.Harmless arrival := by
  rw [handleConnection, undisturbing_closeOnError]
  cases hrequested : requested arrival with
  | none =>
      apply iff_of_true (undisturbing_of_not_requested server hrequested)
      intro req productKey deviceName hsome
      rw [hrequested] at hsome
      cases hsome
  | some parts =>
      obtain ⟨req, productKey, deviceName⟩ := parts
      have hharmless : server.Harmless arrival ↔ _ :=
        ⟨fun hall => hall req productKey deviceName hrequested, fun hone _ _ _ hsome => by
          rw [hrequested] at hsome
          cases hsome
          exact hone⟩
      rw [establish_of_requested hrequested, hharmless]
      cases hold : server.svcMap (serviceKey productKey deviceName) with
      | none =>
          have hseated : server.Seated (serviceKey productKey deviceName) := by
            intro old hsome
            rw [hold] at hsome
            cases hsome
          rw [undisturbing_serve_of_none hold]
          simp only [hseated, true_and]
      | some old =>
          rw [undisturbing_serve_of_some hold]
          simp only [reduceCtorEq, false_and, false_or]

/-- The device "d" connects once more, and its CONNACK cannot be written. -/
def unansweredD : Call Server Finish :=
  onlyD.handleConnection
    (arrivalOf (Connections.connectOf "d" "demo") (some (.errorf "broken pipe" [])))

theorem unanswered_disturbs :
    unansweredD.value?.map Finish.svc = some none ∧
      onlyD.svcMap Registry.firstD.key = some Registry.firstD ∧
      unansweredD.state.svcMap Registry.firstD.key = none ∧
      unansweredD.state.st (textBytes "demo") = some 1 ∧
      ¬ Undisturbing onlyD unansweredD := by
  have hsvc : unansweredD.value?.map Finish.svc = some none := by decide +kernel
  have hfree : unansweredD.state.svcMap Registry.firstD.key = none := by decide +kernel
  have hold : onlyD.svcMap Registry.firstD.key = some Registry.firstD := if_pos rfl
  refine ⟨hsvc, hold, hfree, by decide +kernel, not_undisturbing_of_freed ?_ hold hfree⟩
  rintro ⟨server, finish, svc, hreturned, hsome, -⟩
  rw [hreturned, Call.value?, Option.map_some, hsome] at hsvc
  cases hsvc

end Server

end Xmqtt.Service
