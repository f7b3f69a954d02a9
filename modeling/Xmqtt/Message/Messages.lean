import Xmqtt.Message.Acks
import Xmqtt.Message.Connect
import Xmqtt.Message.Publish
import Xmqtt.Message.Subscribe
import Xmqtt.Message.Unsubscribe

/-!
# The `Message` interface

One constructor for each type that implements the interface.  Its methods
dispatch to the message inside.
-/

namespace Xmqtt

open Xmqtt.Go Xmqtt.Message

/-- A value of the interface type `Message`. -/
inductive Message where
  | connect (this : ConnectMessage)
  | connack (this : ConnackMessage)
  | publish (this : PublishMessage)
  | puback (this : PubackMessage)
  | pubrec (this : PubackMessage)
  | pubrel (this : PubackMessage)
  | pubcomp (this : PubackMessage)
  | subscribe (this : SubscribeMessage)
  | suback (this : SubackMessage)
  | unsubscribe (this : UnsubscribeMessage)
  | unsuback (this : PubackMessage)
  | pingreq (this : DisconnectMessage)
  | pingresp (this : DisconnectMessage)
  | disconnect (this : DisconnectMessage)
  deriving DecidableEq, Repr

namespace Message

/-- `MessageType.New`. -/
def MessageType.new : MessageType → Except Err Message
  | .connect => .ok (.connect newConnectMessage)
  | .connack => .ok (.connack newConnackMessage)
  | .publish => .ok (.publish newPublishMessage)
  | .puback => .ok (.puback newPubackMessage)
  | .pubrec => .ok (.pubrec newPubrecMessage)
  | .pubrel => .ok (.pubrel newPubrelMessage)
  | .pubcomp => .ok (.pubcomp newPubcompMessage)
  | .subscribe => .ok (.subscribe newSubscribeMessage)
  | .suback => .ok (.suback newSubackMessage)
  | .unsubscribe => .ok (.unsubscribe newUnsubscribeMessage)
  | .unsuback => .ok (.unsuback newUnsubackMessage)
  | .pingreq => .ok (.pingreq newPingreqMessage)
  | .pingresp => .ok (.pingresp newPingrespMessage)
  | .disconnect => .ok (.disconnect newDisconnectMessage)
  | .reserved =>
      .error (.errorf "msgtype/NewMessage: Invalid message type %d"
        [.int MessageType.reserved.value.toNat])
  | .reserved2 =>
      .error (.errorf "msgtype/NewMessage: Invalid message type %d"
        [.int MessageType.reserved2.value.toNat])

def header : Message → Header
  | connect this => this.toHeader
  | connack this => this.toHeader
  | publish this => this.toHeader
  | puback this => this.toHeader
  | pubrec this => this.toHeader
  | pubrel this => this.toHeader
  | pubcomp this => this.toHeader
  | subscribe this => this.toHeader
  | suback this => this.toHeader
  | unsubscribe this => this.toHeader
  | unsuback this => this.toHeader
  | pingreq this => this.toHeader
  | pingresp this => this.toHeader
  | disconnect this => this.toHeader

def decode (src : Slice) : Message → Outcome Err Message
  | connect this => (this.decode src).map connect
  | connack this => (this.decode src).map connack
  | publish this => (this.decode src).map publish
  | puback this => (this.decode src).map puback
  | pubrec this => (this.decode src).map pubrec
  | pubrel this => (this.decode src).map pubrel
  | pubcomp this => (this.decode src).map pubcomp
  | subscribe this => (this.decode src).map subscribe
  | suback this => (this.decode src).map suback
  | unsubscribe this => (this.decode src).map unsubscribe
  | unsuback this => (this.decode src).map unsuback
  | pingreq this => (this.decode src).map pingreq
  | pingresp this => (this.decode src).map pingresp
  | disconnect this => (this.decode src).map disconnect

/-- What an encoder has made of a message of one type, as a `Message`. -/
def lift {μ : Type} (wrap : μ → Message) (outcome : Outcome Err (Encoded μ)) :
    Outcome Err (Encoded Message) :=
  outcome.map fun state => ⟨wrap state.this, state.dst, state.gPacketId⟩

def encode (dst : Bytes) (gPacketId : UInt64) : Message → Outcome Err (Encoded Message)
  | connect this => lift connect (this.encode dst gPacketId)
  | connack this => lift connack (this.encode dst gPacketId)
  | publish this => lift publish (this.encode dst gPacketId)
  | puback this => lift puback (this.encode dst gPacketId)
  | pubrec this => lift pubrec (this.encode dst gPacketId)
  | pubrel this => lift pubrel (this.encode dst gPacketId)
  | pubcomp this => lift pubcomp (this.encode dst gPacketId)
  | subscribe this => lift subscribe (this.encode dst gPacketId)
  | suback this => lift suback (this.encode dst gPacketId)
  | unsubscribe this => lift unsubscribe (this.encode dst gPacketId)
  | unsuback this => lift unsuback (this.encode dst gPacketId)
  | pingreq this => lift pingreq (this.encode dst gPacketId)
  | pingresp this => lift pingresp (this.encode dst gPacketId)
  | disconnect this => lift disconnect (this.encode dst gPacketId)

/-- `Len`, which sets the remaining length of a changed message. -/
def len : Message → Message × ℕ
  | connect this => (connect this.len.1, this.len.2)
  | connack this => (connack this.len.1, this.len.2)
  | publish this => (publish this.len.1, this.len.2)
  | puback this => (puback this.len.1, this.len.2)
  | pubrec this => (pubrec this.len.1, this.len.2)
  | pubrel this => (pubrel this.len.1, this.len.2)
  | pubcomp this => (pubcomp this.len.1, this.len.2)
  | subscribe this => (subscribe this.len.1, this.len.2)
  | suback this => (suback this.len.1, this.len.2)
  | unsubscribe this => (unsubscribe this.len.1, this.len.2)
  | unsuback this => (unsuback this.len.1, this.len.2)
  | pingreq this => (pingreq this, this.len)
  | pingresp this => (pingresp this, this.len)
  | disconnect this => (disconnect this, this.len)

def type (message : Message) : MessageType := message.header.type

def packetId (message : Message) : ℕ := message.header.packetIdValue

end Message

end Xmqtt
