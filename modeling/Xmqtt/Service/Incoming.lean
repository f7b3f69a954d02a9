import Xmqtt.Message.Messages
import Xmqtt.Service.Dispatch
import Xmqtt.Sessions.Content

/-!
# What a service does with a message

`processIncoming` of `process.go` and the functions it calls.  The receiver of a
connection hands it every message that it has decoded, one after the other.
-/

namespace Xmqtt.Service

open Xmqtt.Go Xmqtt.Message Xmqtt.Sessions

/-! ## `sendData` -/

/-- `Len`, `Encode` into a buffer of that length, and a write that works: how the call
ends, and the packet that was written. -/
def sendData (msg : Xmqtt.Message) (gPacketId : UInt64) : Ending × List Bytes :=
  match msg.len.1.encode (List.replicate msg.len.2 0) gPacketId with
  | .panic => (.panicked, [])
  | .fail _ _ err => (.returned (some err), [])
  | .done state n =>
      if n ≤ state.dst.length then (.returned none, [state.dst.take n]) else (.panicked, [])

/-! ## `processAcked` -/

/-- A call of an entry's `onComplete`. -/
structure Completion where
  msg : Xmqtt.Message
  ack : Xmqtt.Message
  deriving DecidableEq, Repr

/-- Whether `msg.(*message.PublishMessage)` holds, which is asked of a PUBREL alone. -/
def assertsPublish (ackmsg : AckMsg) : Xmqtt.Message → Bool
  | .publish _ => true
  | _ => ackmsg.state != .pubrel

/-- The loop of `processAcked` over the entries that `Acked` has returned. -/
def processEntries : List AckMsg → BytesPool → Option (BytesPool × List Completion)
  | [], bp => some (bp, [])
  | ackmsg :: rest, bp =>
      match processEntry bp ackmsg with
      | .panicked => none
      | .skipped => processEntries rest bp
      | .read msg ack =>
          if assertsPublish ackmsg msg then
            (processEntries rest ((bp.put ackmsg.ackbuf).put ackmsg.msgbuf)).map
              fun (bp, completed) =>
                (bp, if ackmsg.onComplete then ⟨msg, ack⟩ :: completed else completed)
          else none

def processAcked (ackq : Ackqueue) : Option (Ackqueue × List Completion) :=
  match ackq.acked with
  | (_, .ended _) => none
  | (ackq, .acked ackdone) =>
      (processEntries ackdone ackq.bytesPool).map
        fun (bp, completed) => ({ ackq with bytesPool := bp }, completed)

/-! ## `processIncoming` -/

/-- The ack queues of a session. -/
inductive QueueName where
  | pub1ack
  | pub2in
  | pub2out
  | suback
  | unsuback
  | pingack
  deriving DecidableEq, Repr

/-- The name that `newAckqueue` is given. -/
def QueueName.text : QueueName → String
  | pub1ack => "Pub1ack"
  | pub2in => "Pub2in"
  | pub2out => "Pub2out"
  | suback => "Suback"
  | unsuback => "Unsuback"
  | pingack => "Pingack"

/-- What `processIncoming` uses of a service with a session. -/
structure Receiver where
  service : ServiceRef
  cmsg : ConnectMessage
  queues : QueueName → Ackqueue

/-- What `processIncoming` has done: the packets that it has sent, the heartbeat for
`keepAliveCH`, the message that it has offered to `MsgChan`, and the calls of
`onComplete`. -/
structure Handled where
  receiver : Receiver
  sent : List Bytes
  heartbeat : Option ℤ
  offered : Option PublishMessage
  completed : List Completion
  ending : Ending

/-- The counter of the `message` package, and the buffer that the pool of the queue would
hand out. -/
structure Ambient where
  gPacketId : UInt64
  choice : ℕ
  deriving DecidableEq, Repr

def errDisconnect : Err := .errorf "Disconnect" []

/-- The error of `strconv.Atoi`. -/
def atoiErr (text : Bytes) : Err :=
  match digitsValue (if text.head? = some 0x2d ∨ text.head? = some 0x2b then text.tail
      else text) with
  | none => .errorf "strconv.Atoi: parsing %q: invalid syntax" [.text text]
  | some _ => .errorf "strconv.Atoi: parsing %q: value out of range" [.text text]

/-- The return codes of `processSubscribe`, which indexes `qos` like `topics`. -/
def retcodes : List Bytes → Bytes → Option Bytes
  | [], _ => some []
  | _ :: topics, code :: qos => (retcodes topics qos).map (code :: ·)
  | _ :: _, [] => none

/-- `msg.PacketId()`. -/
def idOf (header : Header) : UInt16 := .ofNat header.packetIdValue

namespace Receiver

variable (receiver : Receiver) (env : Ambient)

def ended (ending : Ending) : Handled := ⟨receiver, [], none, none, [], ending⟩

def send (msg : Xmqtt.Message) : Handled :=
  { receiver.ended (sendData msg env.gPacketId).1 with
    sent := (sendData msg env.gPacketId).2 }

def setQueue (name : QueueName) (queue : Ackqueue) : Receiver :=
  { receiver with queues := Function.update receiver.queues name queue }

@[simp]
theorem queues_setQueue (name : QueueName) (queue : Ackqueue) :
    (receiver.setQueue name queue).queues name = queue :=
  Function.update_self _ _ _

/-- `Ack` on a queue.  Some branches break off when it returns an error, others drop it. -/
def ack (name : QueueName) (msg : Xmqtt.Message) (breaks : Bool)
    (next : Receiver → Handled) : Handled :=
  match (receiver.queues name).ack msg env.gPacketId env.choice with
  | (queue, .panicked) => (receiver.setQueue name queue).ended .panicked
  | (queue, .returned err) =>
      if breaks && err.isSome then (receiver.setQueue name queue).ended (.returned err)
      else next (receiver.setQueue name queue)

def processAcked (name : QueueName) (next : Receiver → Handled) : Handled :=
  match Service.processAcked (receiver.queues name) with
  | none => receiver.ended .panicked
  | some (queue, completed) =>
      { next (receiver.setQueue name queue) with completed := completed }

def processPublish (msg : PublishMessage) : Handled :=
  let puback := Xmqtt.Message.puback (newPubackMessage.setPacketId (idOf msg.toHeader))
  match Service.processPublish receiver.service msg with
  | .badHeartbeat payload => receiver.ended (.returned (some (atoiErr payload)))
  | .updateHeartbeat seconds reply =>
      { (if reply then receiver.send env puback else receiver.ended (.returned none)) with
        heartbeat := some seconds }
  | .acknowledge =>
      let handled := receiver.send env puback
      if handled.ending = .returned none then { handled with offered := some msg }
      else handled
  | .fail err => receiver.ended (.returned (some err))

def processSubscribe (msg : SubscribeMessage) : Handled :=
  match retcodes msg.topics msg.qos with
  | none => receiver.ended .panicked
  | some codes =>
      match (newSubackMessage.setPacketId (idOf msg.toHeader)).addReturnCodes codes with
      | (_, some err) => receiver.ended (.returned (some err))
      | (resp, none) => receiver.send env (.suback resp)

def processUnsubscribe (msg : UnsubscribeMessage) : Handled :=
  receiver.send env (.unsuback (newUnsubackMessage.setPacketId (idOf msg.toHeader)))

def processIncoming (msg : Xmqtt.Message) : Handled :=
  match msg with
  | .publish this => receiver.processPublish env this
  | .puback _ =>
      receiver.ack env .pub1ack msg false fun receiver =>
      receiver.processAcked .pub1ack fun receiver =>
      receiver.ended (.returned none)
  | .pubrec this =>
      receiver.ack env .pub2out msg true fun receiver =>
      receiver.send env (.pubrel (newPubrelMessage.setPacketId (idOf this.toHeader)))
  | .pubrel this =>
      receiver.ack env .pub2in msg true fun receiver =>
      receiver.processAcked .pub2in fun receiver =>
      receiver.send env (.pubcomp (newPubcompMessage.setPacketId (idOf this.toHeader)))
  | .pubcomp _ =>
      receiver.ack env .pub2out msg true fun receiver =>
      receiver.processAcked .pub2out fun receiver =>
      receiver.ended (.returned none)
  | .subscribe this => receiver.processSubscribe env this
  | .suback _ =>
      receiver.ack env .suback msg false fun receiver =>
      receiver.processAcked .suback fun receiver =>
      receiver.ended (.returned none)
  | .unsubscribe this => receiver.processUnsubscribe env this
  | .unsuback _ =>
      receiver.ack env .unsuback msg false fun receiver =>
      receiver.processAcked .unsuback fun receiver =>
      receiver.ended (.returned none)
  | .pingreq _ => receiver.send env (.pingresp newPingrespMessage)
  | .pingresp _ =>
      receiver.ack env .pingack msg false fun receiver =>
      receiver.processAcked .pingack fun receiver =>
      receiver.ended (.returned none)
  | .disconnect _ =>
      { receiver with cmsg := receiver.cmsg.setWillFlag false }.ended
        (.returned (some errDisconnect))
  | .connect _ | .connack _ =>
      receiver.ended (.returned (some (.errorf "%s invalid message type %s."
        [.text (serviceKey receiver.service.productKey receiver.service.deviceName),
          .string msg.type.name])))

end Receiver

end Xmqtt.Service
