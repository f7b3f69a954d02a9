import Xmqtt.Message.Accepted

/-!
# Sessions

A session keeps a copy of the CONNECT it was made for, encoded and decoded
again, and its id is the client id of that copy.
-/

namespace Xmqtt.Sessions

open Xmqtt.Go Xmqtt.Message

/-- The id given to `New` or `Init` and the copy of the CONNECT. -/
structure Session where
  id : Bytes
  cmsg : Option ConnectMessage
  deriving DecidableEq, Repr

namespace Session

def ID (this : Session) : Bytes :=
  match this.cmsg with
  | some cmsg => cmsg.clientId
  | none => this.id

/-- `Init` of a new session.  CONNECT has no packet id, so the counter does not matter. -/
def init (msg : ConnectMessage) : Option Session :=
  match msg.len.1.encode (List.replicate msg.len.2 0) 0 with
  | .done encoded _ =>
      match newConnectMessage.decode (.full encoded.dst) with
      | .done cmsg _ => some ⟨msg.clientId, some cmsg⟩
      | _ => none
  | _ => none

/-- `Init` of the session that `New` has made for the id, with what is left of it when a
step fails. -/
def initialise (msg : ConnectMessage) (id : Bytes) : Outcome Err Session :=
  match msg.len.1.encode (List.replicate msg.len.2 0) 0 with
  | .panic => .panic
  | .fail _ _ err => .fail ⟨id, some newConnectMessage⟩ 0 err
  | .done encoded _ =>
      match newConnectMessage.decode (.full encoded.dst) with
      | .panic => .panic
      | .fail cmsg _ err => .fail ⟨id, some cmsg⟩ 0 err
      | .done cmsg _ => .done ⟨msg.clientId, some cmsg⟩ 0

theorem init_eq_some_iff {msg : ConnectMessage} {this : Session} (id : Bytes) :
    init msg = some this ↔ initialise msg id = .done this 0 := by
  rw [init, initialise]
  cases msg.len.1.encode (List.replicate msg.len.2 0) 0 with
  | panic => simp
  | fail encoded n err => simp
  | done encoded n =>
      cases hdecode : newConnectMessage.decode (.full encoded.dst) with
      | panic | fail cmsg n err | done cmsg n => simp [hdecode]

/-- A CONNECT that is what was decoded from a buffer, or has changed since. -/
def Received (msg : ConnectMessage) : Prop :=
  (∃ n, newConnectMessage.decode msg.dbuf = .done msg n ∧ msg.dbuf.spare = []) ∨
    msg.dirty = true ∧ msg.type = .connect ∧ flagsAccepted msg.mtypeflags = true

/-- The copy of a CONNECT that has not changed is made from the same bytes. -/
theorem clientId_of_clean {msg cmsg : ConnectMessage} {encoded : Encoded ConnectMessage}
    {n count m : ℕ} (hdone : newConnectMessage.decode msg.dbuf = .done msg count)
    (hspare : msg.dbuf.spare = [])
    (hencode : msg.len.1.encode (List.replicate msg.len.2 0) 0 = .done encoded n)
    (hdecode : newConnectMessage.decode (.full encoded.dst) = .done cmsg m) :
    cmsg.clientId = msg.clientId := by
  obtain ⟨hclean, -⟩ := ConnectMessage.accepted_of_decode hdone
  have hlen : msg.len = (msg, msg.dbuf.bytes.length) := by
    rw [ConnectMessage.len, Header.lenOf, hclean]
    rfl
  have hfull : Slice.full msg.dbuf.bytes = msg.dbuf := by
    rw [Slice.full, ← hspare]
  have hdst : encoded.dst = msg.dbuf.bytes := by
    rw [hlen, ConnectMessage.encode, hclean] at hencode
    simp [encodeClean] at hencode
    rw [← hencode.1]
  rw [hdst, hfull, hdone] at hdecode
  injection hdecode with hsame
  rw [hsame]

/-- The copy of a CONNECT that has changed is made from its fields. -/
theorem clientId_of_changed {msg cmsg : ConnectMessage} {encoded : Encoded ConnectMessage}
    {n m : ℕ} (hdirty : msg.dirty = true) (htype : msg.type = .connect)
    (hflags : flagsAccepted msg.mtypeflags = true)
    (hencode : msg.len.1.encode (List.replicate msg.len.2 0) 0 = .done encoded n)
    (hdecode : newConnectMessage.decode (.full encoded.dst) = .done cmsg m) :
    cmsg.clientId = msg.clientId := by
  have hdirtyLen : msg.len.1.dirty = true := Header.dirty_lenOf hdirty _
  obtain ⟨-, verstr, hversion, ⟨-, hremlen, -, hfits, -, hstate, -⟩⟩ :=
    (ConnectMessage.encode_eq_done_iff hdirtyLen).mp hencode
  have hmsglen : msg.msglen ≤ 268435455 := ConnectMessage.Fits.msglen_le hfits
  have hint : int32 msg.msglen = msg.msglen := int32_of_lt (by omega)
  have hlen : msg.len = (msg.withHeader (msg.sized msg.msglen),
      (msg.sized msg.msglen).msglen + msg.msglen) := by
    rw [ConnectMessage.len, Header.lenOf_of_le hdirty hmsglen]
  have hdst : encoded.dst = (msg.sized msg.msglen).wire ++ msg.body verstr := by
    have hexact : (List.replicate msg.len.2 (0 : Byte)).drop msg.len.2 = [] := by
      rw [List.drop_replicate, Nat.sub_self]
      rfl
    rw [hlen] at hstate hexact
    rw [hstate]
    change _ ++ _ ++ (List.replicate ((msg.sized msg.msglen).msglen + msg.msglen) (0 : Byte)).drop
      ((msg.sized msg.msglen).msglen + msg.msglen) = _
    rw [hexact, List.append_nil]
    rfl
  rw [hdst] at hdecode
  apply ConnectMessage.clientId_of_decode_wire _ _ _ hremlen.2 hversion hfits.1 hdecode
  · exact htype
  · exact hflags
  · rw [← ConnectMessage.msglen_eq hversion]
    exact hint

/-- The copy of the CONNECT has its client id. -/
theorem ID_init {msg : ConnectMessage} (hreceived : Received msg) {this : Session}
    (hinit : init msg = some this) : this.ID = msg.clientId := by
  rw [init] at hinit
  cases hencode : msg.len.1.encode (List.replicate msg.len.2 0) 0 with
  | panic | fail encoded n err => simp [hencode] at hinit
  | done encoded n =>
      cases hdecode : newConnectMessage.decode (.full encoded.dst) with
      | panic | fail cmsg n err => simp [hencode, hdecode] at hinit
      | done cmsg n =>
          simp only [hencode, hdecode, Option.some.injEq] at hinit
          rw [← hinit]
          rcases hreceived with ⟨count, hdone, hspare⟩ | ⟨hdirty, htype, hflags⟩
          · exact clientId_of_clean hdone hspare hencode hdecode
          · exact clientId_of_changed hdirty htype hflags hencode hdecode

end Session

end Xmqtt.Sessions
