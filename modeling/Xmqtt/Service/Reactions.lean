import Xmqtt.Service.Replies

/-!
# What a message asks of the broker

A purpose-level account of `processIncoming`: the packets that a message is answered
with, the heartbeat that it sets, the upload that it brings, and the error that ends
the connection.  None of this depends on the session, although the code goes through
its queues.
-/

namespace Xmqtt.Service

open Xmqtt.Go Xmqtt.Message Xmqtt.Sessions

structure Reaction where
  answers : List Bytes
  heartbeat : Option ℤ
  offered : Option PublishMessage
  err : Option Err

namespace Reaction

/-- The connection is ended and nothing is answered. -/
def stop (err : Err) : Reaction := ⟨[], none, none, some err⟩

def answer (answers : List Bytes) : Reaction := ⟨answers, none, none, none⟩

end Reaction

instance decidableReturnCode (code : Byte) : Decidable (ReturnCode code) :=
  inferInstanceAs (Decidable (_ ∨ _ ∨ _ ∨ _))

def invalidCode (code : Byte) : Err :=
  .errorf "suback/AddReturnCode: Invalid return code %d. Must be 0, 1, 2, 0x80."
    [.int code.toNat]

/-- The error of `processIncoming` for a message that a client does not send here. -/
def invalidType (service : ServiceRef) (mtype : MessageType) : Err :=
  .errorf "%s invalid message type %s."
    [.text (serviceKey service.productKey service.deviceName), .string mtype.name]

/-- Heartbeats are kept between one second and two hours. -/
def clampHeartbeat (seconds : ℤ) : ℤ := max 1 (min seconds 7200)

def react (service : ServiceRef) : Xmqtt.Message → Reaction
  | .publish this =>
      if this.topic = heartbeatTopic then
        match atoi this.payload with
        | none => .stop (atoiErr this.payload)
        | some seconds =>
            ⟨if this.qos = 1 then [ackPacket 0x40 this.packetIdValue] else [],
              some (clampHeartbeat seconds), none, none⟩
      else if this.qos = 1 then
        ⟨[ackPacket 0x40 this.packetIdValue], none, some this, none⟩
      else
        .stop (.errorf "productKey %s deviceName %s invalid message QoS %d."
          [.text service.productKey, .text service.deviceName, .int this.qos.toNat])
  | .pubrec this => .answer [ackPacket 0x62 this.packetIdValue]
  | .pubrel this => .answer [ackPacket 0x70 this.packetIdValue]
  | .subscribe this =>
      match this.qos.find? fun code => ¬ReturnCode code with
      | none => .answer [subackPacket this.packetIdValue this.qos]
      | some code => .stop (invalidCode code)
  | .unsubscribe this => .answer [ackPacket 0xb0 this.packetIdValue]
  | .pingreq _ => .answer [[0xd0, 0x00]]
  | .disconnect _ => .stop errDisconnect
  | .connect this => .stop (invalidType service this.type)
  | .connack this => .stop (invalidType service this.type)
  | .puback _ | .pubcomp _ | .suback _ | .unsuback _ | .pingresp _ => .answer []

/-- `processIncoming` has done what the message asks for. -/
structure Handled.Realizes (handled : Handled) (reaction : Reaction) : Prop where
  sent : handled.sent = reaction.answers
  heartbeat : handled.heartbeat = reaction.heartbeat
  offered : handled.offered = reaction.offered
  ending : handled.ending = .returned reaction.err

/-- The queues on which nobody calls `Wait` are as they were made. -/
def Receiver.Untouched (receiver : Receiver) : Prop :=
  ∀ name ≠ .pub1ack, receiver.queues name = newAckqueue 16 name.text

theorem Receiver.Untouched.setQueue {receiver : Receiver} (huntouched : receiver.Untouched)
    (name : QueueName) : (receiver.setQueue name (newAckqueue 16 name.text)).Untouched := by
  intro other hother
  by_cases hname : other = name
  · subst hname
    exact receiver.queues_setQueue other _
  · exact (Function.update_of_ne hname _ _).trans (huntouched other hother)

/-! ## The branches of `processIncoming` -/

/-- What a call of `processIncoming` does: the reaction, and a session that is left alone. -/
structure Receiver.Handles (receiver : Receiver) (handled : Handled) (reaction : Reaction) :
    Prop where
  realizes : handled.Realizes reaction
  untouched : handled.receiver.Untouched
  pub1ack : handled.receiver.queues .pub1ack = receiver.queues .pub1ack
  service : handled.receiver.service = receiver.service

/-- The error of `AddReturnCodes` is about the first code that it does not know. -/
theorem addReturnCodes_err (this : SubackMessage) (codes : Bytes) :
    (this.addReturnCodes codes).2 =
      (codes.find? fun code => ¬ReturnCode code).map invalidCode := by
  induction codes generalizing this with
  | nil => rfl
  | cons code codes ih =>
      rw [SubackMessage.addReturnCodes]
      by_cases hcode : ReturnCode code
      · rw [if_neg (by unfold ReturnCode at hcode; tauto), ih,
          List.find?_cons_of_neg (by simpa using hcode)]
      · rw [if_pos (by unfold ReturnCode at hcode; tauto),
          List.find?_cons_of_pos (by simpa using hcode)]
        rfl

section Branches

variable {receiver : Receiver} (huntouched : receiver.Untouched) (env : Ambient)

include huntouched

theorem handles_stop (err : Err) :
    receiver.Handles (receiver.ended (.returned (some err))) (.stop err) :=
  ⟨⟨rfl, rfl, rfl, rfl⟩, huntouched, rfl, rfl⟩

/-- A reply that is sent. -/
theorem handles_send {msg : Xmqtt.Message} {packet : Bytes}
    (hsent : sendData msg env.gPacketId = (.returned none, [packet])) :
    receiver.Handles (receiver.send env msg) (.answer [packet]) :=
  ⟨⟨congrArg Prod.snd hsent, rfl, rfl, congrArg Prod.fst hsent⟩, huntouched, rfl, rfl⟩

theorem handles_sendAck {mtype : MessageType} {wrap : PubackMessage → Xmqtt.Message}
    (hkind : AckKind mtype wrap) (header : Header) :
    receiver.Handles
      (receiver.send env (wrap (PubackMessage.setPacketId ⟨newHeader mtype⟩ (idOf header))))
      (.answer [ackPacket (newHeader mtype).mtypeflags header.packetIdValue]) := by
  apply handles_send huntouched
  rw [sendData_ack env.gPacketId hkind, idOf_toNat]

/-- An ack finds no entry, and the queue stays as it is. -/
theorem handles_ack {name : QueueName} (hname : name ≠ .pub1ack) {msg : Xmqtt.Message}
    {breaks : Bool} (hacks : breaks = true → Ackqueue.acksEntry msg.type = true)
    {next : Receiver → Handled} {reaction : Reaction}
    (hnext : ∀ after : Receiver, after.Untouched → after.Handles (next after) reaction) :
    receiver.Handles (receiver.ack env name msg breaks next) reaction := by
  have hack : receiver.ack env name msg breaks next =
      next (receiver.setQueue name (newAckqueue 16 name.text)) := by
    rw [Receiver.ack, huntouched name hname, ack_newAckqueue]
    cases breaks with
    | false => rfl
    | true =>
        rw [if_pos (Or.inl (hacks rfl))]
        rfl
  have hsame : (receiver.setQueue name (newAckqueue 16 name.text)).queues .pub1ack =
      receiver.queues .pub1ack := Function.update_of_ne hname.symm _ _
  obtain ⟨hrealizes, hafter, hpub1ack, hservice⟩ := hnext _ (huntouched.setQueue name)
  rw [hack]
  exact ⟨hrealizes, hafter, hpub1ack.trans hsame, hservice⟩

/-- `processAcked` finds no entry. -/
theorem handles_processAcked {name : QueueName} (hname : name ≠ .pub1ack)
    {next : Receiver → Handled} {reaction : Reaction}
    (hnext : ∀ after : Receiver, after.Untouched → after.Handles (next after) reaction) :
    receiver.Handles (receiver.processAcked name next) reaction := by
  have hacked : receiver.processAcked name next =
      { next (receiver.setQueue name (newAckqueue 16 name.text)) with completed := [] } := by
    rw [Receiver.processAcked, huntouched name hname, processAcked_newAckqueue]
  have hsame : (receiver.setQueue name (newAckqueue 16 name.text)).queues .pub1ack =
      receiver.queues .pub1ack := Function.update_of_ne hname.symm _ _
  obtain ⟨⟨hsent, hheartbeat, hoffered, hending⟩, hafter, hpub1ack, hservice⟩ :=
    hnext _ (huntouched.setQueue name)
  rw [hacked]
  exact ⟨⟨hsent, hheartbeat, hoffered, hending⟩, hafter, hpub1ack.trans hsame, hservice⟩

/-- The branches for an ack that is answered with nothing. -/
theorem handles_silent {name : QueueName} (hname : name ≠ .pub1ack) {msg : Xmqtt.Message}
    {breaks : Bool} (hacks : breaks = true → Ackqueue.acksEntry msg.type = true) :
    receiver.Handles (receiver.ack env name msg breaks fun receiver =>
      receiver.processAcked name fun receiver => receiver.ended (.returned none))
      (.answer []) := by
  apply handles_ack huntouched env hname hacks
  intro after hafter
  apply handles_processAcked hafter hname
  exact fun last hlast => ⟨⟨rfl, rfl, rfl, rfl⟩, hlast, rfl, rfl⟩

theorem handles_publish (this : PublishMessage) :
    receiver.Handles (receiver.processPublish env this) (react receiver.service (.publish this)) := by
  have hpuback := handles_sendAck huntouched env .puback this.toHeader
  rw [react, Receiver.processPublish]
  by_cases htopic : this.topic = heartbeatTopic
  · rw [if_pos htopic, Service.processPublish, if_pos htopic]
    cases hatoi : atoi this.payload with
    | none => exact handles_stop huntouched _
    | some seconds =>
        have hclamp : (if seconds < 1 then 1 else if seconds > 2 * 3600 then 2 * 3600
            else seconds) = clampHeartbeat seconds := by
          rw [clampHeartbeat]
          omega
        by_cases hone : this.qos = 1
        · have hreply : (this.qos == qosAtLeastOnce) = true := beq_iff_eq.mpr hone
          obtain ⟨⟨hsent, -, hoffered, hending⟩, hafter, hpub1ack, hservice⟩ := hpuback
          simp only [hreply, hclamp, if_pos hone, if_true]
          exact ⟨⟨hsent, rfl, hoffered, hending⟩, hafter, hpub1ack, hservice⟩
        · have hreply : (this.qos == qosAtLeastOnce) = false := beq_false_of_ne hone
          simp only [hreply, hclamp, if_neg hone, Bool.false_eq_true, if_false]
          exact ⟨⟨rfl, rfl, rfl, rfl⟩, huntouched, rfl, rfl⟩
  · rw [if_neg htopic, Service.processPublish, if_neg htopic]
    by_cases hone : this.qos = 1
    · obtain ⟨⟨hsent, hheartbeat, -, hending⟩, hafter, hpub1ack, hservice⟩ := hpuback
      have hreturned : (receiver.send env (.puback (newPubackMessage.setPacketId
          (idOf this.toHeader)))).ending = .returned none := hending
      rw [if_pos hone, if_pos (show this.qos = qosAtLeastOnce from hone)]
      simp only [hreturned, if_true]
      exact ⟨⟨hsent, hheartbeat, rfl, rfl⟩, hafter, hpub1ack, hservice⟩
    · rw [if_neg hone, if_neg (show this.qos ≠ qosAtLeastOnce from hone)]
      exact handles_stop huntouched _

theorem handles_subscribe {this : SubscribeMessage} (hdecoded : Decoded (.subscribe this)) :
    receiver.Handles (receiver.processSubscribe env this) (react receiver.service (.subscribe this)) := by
  obtain ⟨hlength, hshort⟩ := hdecoded.length_qos
  have herr := addReturnCodes_err (newSubackMessage.setPacketId (idOf this.toHeader)) this.qos
  rw [react, Receiver.processSubscribe, retcodes_of_length hlength]
  cases hfind : this.qos.find? fun code => ¬ReturnCode code with
  | none =>
      have hcodes : ∀ code ∈ this.qos, ReturnCode code := by
        simpa using List.find?_eq_none.mp hfind
      have hsent := sendData_subscribed env.gPacketId (idOf this.toHeader) hcodes hshort
      rw [addReturnCodes_of_forall hcodes, idOf_toNat] at hsent
      simp only [addReturnCodes_of_forall hcodes]
      exact handles_send huntouched env hsent
  | some code =>
      rw [hfind] at herr
      obtain ⟨resp, hadded⟩ : ∃ resp, (newSubackMessage.setPacketId
          (idOf this.toHeader)).addReturnCodes this.qos = (resp, some (invalidCode code)) :=
        ⟨_, Prod.ext rfl herr⟩
      simp only [hadded]
      exact handles_stop huntouched (invalidCode code)

/-- Whatever a decoded message is, other than a PUBACK. -/
theorem handles_processIncoming {msg : Xmqtt.Message} (hdecoded : Decoded msg)
    (hnot : ∀ this, msg ≠ .puback this) :
    receiver.Handles (receiver.processIncoming env msg) (react receiver.service msg) := by
  cases msg with
  | publish this => exact handles_publish huntouched env this
  | subscribe this => exact handles_subscribe huntouched env hdecoded
  | puback this => exact absurd rfl (hnot this)
  | pubrec this =>
      have hacks := acksEntry_type .pubrec (hdecoded.ack .pubrec)
      rw [Receiver.processIncoming]
      apply handles_ack huntouched env (show QueueName.pub2out ≠ .pub1ack by decide)
        fun _ => hacks
      exact fun after hafter => handles_sendAck hafter env .pubrel this.toHeader
  | pubrel this =>
      have hacks := acksEntry_type .pubrel (hdecoded.ack .pubrel)
      have hname : QueueName.pub2in ≠ .pub1ack := by decide
      rw [Receiver.processIncoming]
      apply handles_ack huntouched env hname fun _ => hacks
      intro after hafter
      apply handles_processAcked hafter hname
      exact fun last hlast => handles_sendAck hlast env .pubcomp this.toHeader
  | pubcomp this =>
      have hacks := acksEntry_type .pubcomp (hdecoded.ack .pubcomp)
      exact handles_silent huntouched env (by decide) fun _ => hacks
  | suback this | unsuback this | pingresp this =>
      exact handles_silent huntouched env (by decide) (by rintro ⟨⟩)
  | unsubscribe this => exact handles_sendAck huntouched env .unsuback this.toHeader
  | pingreq this => exact handles_send huntouched env (sendData_pingresp env.gPacketId)
  | disconnect this => exact ⟨⟨rfl, rfl, rfl, rfl⟩, huntouched, rfl, rfl⟩
  | connect this | connack this => exact handles_stop huntouched _

end Branches

end Xmqtt.Service
