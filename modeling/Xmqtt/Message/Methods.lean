import Xmqtt.Message.Messages

/-!
# The methods that change a message

Besides `Decode` and `Encode` a message changes by the setters of its type, by
the setters of the embedded `header`, and by `Len`, which stores the remaining
length.  A message that its constructor and these methods have made was never
decoded: it stays changed, its type stays valid, and the lists of a SUBSCRIBE
stay in step.
-/

namespace Xmqtt.Message

open Xmqtt.Go

/-- `SetType`, which also sets the default flags of the type. -/
def Header.setType (this : Header) (mtype : MessageType) : Header × Option Err :=
  if !mtype.valid then
    (this, some (.errorf "header/SetType: Invalid control packet type %d"
      [.int mtype.value.toNat]))
  else
    (this.setMtypeflags ((mtype.value <<< 4) ||| (mtype.defaultFlags &&& 0xf)), none)

namespace SubscribeMessage

/-- The message counts as changed even when the topic was not there. -/
def removeTopic (this : SubscribeMessage) (topic : Bytes) : SubscribeMessage :=
  match this.topics.findIdx? (· == topic) with
  | some i =>
      { this with
        topics := this.topics.eraseIdx i
        qos := this.qos.eraseIdx i
        dirty := true }
  | none => { this with dirty := true }

/-- A call of one of the setters. -/
inductive Setter where
  | addTopic (topic : Bytes) (qos : Byte)
  | removeTopic (topic : Bytes)
  | packetId (v : UInt16)
  deriving DecidableEq, Repr

def perform (this : SubscribeMessage) : Setter → SubscribeMessage
  | .addTopic topic qos => (this.addTopic topic qos).1
  | .removeTopic topic => this.removeTopic topic
  | .packetId v => this.setPacketId v

end SubscribeMessage

namespace UnsubscribeMessage

def removeTopic (this : UnsubscribeMessage) (topic : Bytes) : UnsubscribeMessage :=
  match this.topics.findIdx? (· == topic) with
  | some i => { this with topics := this.topics.eraseIdx i, dirty := true }
  | none => { this with dirty := true }

/-- A call of one of the setters. -/
inductive Setter where
  | addTopic (topic : Bytes)
  | removeTopic (topic : Bytes)
  | packetId (v : UInt16)
  deriving DecidableEq, Repr

def perform (this : UnsubscribeMessage) : Setter → UnsubscribeMessage
  | .addTopic topic => this.addTopic topic
  | .removeTopic topic => this.removeTopic topic
  | .packetId v => this.setPacketId v

end UnsubscribeMessage

/-- A call of a method that changes a message: those of `header`, then those of
one type. -/
inductive Method where
  | setType (mtype : MessageType)
  | setRemainingLength (remlen : ℤ)
  | setPacketId (v : UInt16)
  | clearPacketId
  | len
  | connect (call : ConnectMessage.Setter)
  | setSessionPresent (v : Bool)
  | setReturnCode (ret : ConnackCode)
  | publish (call : PublishMessage.Setter)
  | subscribe (call : SubscribeMessage.Setter)
  | addReturnCodes (ret : Bytes)
  | unsubscribe (call : UnsubscribeMessage.Setter)
  deriving DecidableEq, Repr

/-- Change the header inside a message. -/
def mapHeader (f : Header → Header) : Message → Message
  | .connect this => .connect (this.withHeader (f this.toHeader))
  | .connack this => .connack (this.withHeader (f this.toHeader))
  | .publish this => .publish (this.withHeader (f this.toHeader))
  | .puback this => .puback (this.withHeader (f this.toHeader))
  | .pubrec this => .pubrec (this.withHeader (f this.toHeader))
  | .pubrel this => .pubrel (this.withHeader (f this.toHeader))
  | .pubcomp this => .pubcomp (this.withHeader (f this.toHeader))
  | .subscribe this => .subscribe (this.withHeader (f this.toHeader))
  | .suback this => .suback (this.withHeader (f this.toHeader))
  | .unsubscribe this => .unsubscribe (this.withHeader (f this.toHeader))
  | .unsuback this => .unsuback (this.withHeader (f this.toHeader))
  | .pingreq this => .pingreq (this.withHeader (f this.toHeader))
  | .pingresp this => .pingresp (this.withHeader (f this.toHeader))
  | .disconnect this => .disconnect (this.withHeader (f this.toHeader))

/-- What a method makes of a message.  A message does not have the setters of
other types: such a call stands for nothing. -/
def perform (message : Message) : Method → Message
  | .setType mtype => message.mapHeader fun header => (header.setType mtype).1
  | .setRemainingLength remlen =>
      message.mapHeader fun header => (header.setRemainingLength remlen).1
  | .setPacketId v => message.mapHeader fun header => header.setPacketId v
  | .clearPacketId => message.mapHeader Header.clearPacketId
  | .len => message.len.1
  | .connect call =>
      match message with
      | .connect this => .connect (this.perform call)
      | other => other
  | .setSessionPresent v =>
      match message with
      | .connack this => .connack (this.setSessionPresent v)
      | other => other
  | .setReturnCode ret =>
      match message with
      | .connack this => .connack (this.setReturnCode ret)
      | other => other
  | .publish call =>
      match message with
      | .publish this => .publish (this.perform call)
      | other => other
  | .subscribe call =>
      match message with
      | .subscribe this => .subscribe (this.perform call)
      | other => other
  | .addReturnCodes ret =>
      match message with
      | .suback this => .suback (this.addReturnCodes ret).1
      | other => other
  | .unsubscribe call =>
      match message with
      | .unsubscribe this => .unsubscribe (this.perform call)
      | other => other

/-- Made by a constructor and any calls of these methods. -/
inductive Built : Message → Prop where
  | new {mtype : MessageType} {message : Message} :
      mtype.new = .ok message → Built message
  | perform {message : Message} (call : Method) :
      Built message → Built (message.perform call)

/-! ## What the methods keep -/

/-- The header of a message that was made and changed, but never decoded. -/
structure Header.Kept (this : Header) : Prop where
  dirty : this.dirty = true
  valid : this.type.valid = true
  low : 0 ≤ this.remlen
  high : this.remlen ≤ maxRemainingLength

namespace Header.Kept

variable {this : Header}

theorem new {mtype : MessageType} (hvalid : mtype.valid = true) : (newHeader mtype).Kept where
  dirty := rfl
  valid := by rw [type_newHeader, hvalid]
  low := le_rfl
  high := by rw [maxRemainingLength]; exact Int.zero_le_ofNat _

theorem of_eq (hkept : this.Kept) {that : Header} (hdirty : that.dirty = true)
    (htype : that.type = this.type) (hremlen : that.remlen = this.remlen) : that.Kept :=
  ⟨hdirty, htype ▸ hkept.valid, hremlen ▸ hkept.low, hremlen ▸ hkept.high⟩

theorem setType (hkept : this.Kept) (mtype : MessageType) : (this.setType mtype).1.Kept := by
  rw [Header.setType]
  split
  · exact hkept
  · rename_i hvalid
    have htype : (this.setMtypeflags (newHeader mtype).mtypeflags).type = mtype :=
      type_newHeader mtype
    refine ⟨hkept.dirty, ?_, hkept.low, hkept.high⟩
    exact htype.symm ▸ (by simpa using hvalid)

theorem setRemainingLength (hkept : this.Kept) (remlen : ℤ) :
    (this.setRemainingLength remlen).1.Kept := by
  rw [Header.setRemainingLength]
  split
  · exact hkept
  · rename_i hbounds
    exact ⟨rfl, hkept.valid, by simp only; omega, by simp only; omega⟩

theorem setPacketId (hkept : this.Kept) (v : UInt16) : (this.setPacketId v).Kept := by
  apply hkept.of_eq (dirty_setPacketId hkept.dirty v)
  · rw [type, type, mtypeflags_setPacketId]
  · exact remlen_setPacketId this v

theorem clearPacketId (hkept : this.Kept) : this.clearPacketId.Kept := by
  rw [Header.clearPacketId]
  split
  · exact hkept.of_eq hkept.dirty rfl rfl
  · exact hkept

theorem lenOf (hkept : this.Kept) (ml : ℕ) : (this.lenOf ml).1.Kept := by
  have hset := hkept.setRemainingLength (int32 ml)
  rw [Header.lenOf, hkept.dirty]
  simp only [Bool.not_true, Bool.false_eq_true, if_false]
  split
  · rename_i header err hresult
    rwa [hresult] at hset
  · rename_i header hresult
    rwa [hresult] at hset

end Header.Kept

/-- A setter of PUBLISH leaves the type and the remaining length alone. -/
theorem PublishMessage.kept_perform {this : PublishMessage} (hkept : this.toHeader.Kept)
    (call : Setter) : (this.perform call).toHeader.Kept := by
  have htype : (this.perform call).type = this.type := by
    rw [Header.type, Header.type, typeNibble_apply]
  cases call with
  | dup v | retain v => exact hkept.of_eq hkept.dirty htype rfl
  | qos v =>
      apply hkept.of_eq _ htype
      · rw [perform, setQoS]
        split <;> rfl
      · rw [perform, setQoS]
        split <;> exact hkept.dirty
  | topic v =>
      rw [perform, setTopic]
      split
      · exact hkept
      · exact hkept.of_eq rfl rfl rfl
  | payload v => exact hkept.of_eq rfl rfl rfl
  | packetId v => exact hkept.setPacketId v

theorem ConnectMessage.kept_perform {this : ConnectMessage} (hkept : this.toHeader.Kept)
    (call : Setter) : (this.perform call).toHeader.Kept := by
  have hchanged : ({ this.toHeader with dirty := true } : Header).Kept :=
    hkept.of_eq rfl rfl rfl
  cases call with
  | version v =>
      rw [perform, setVersion]
      split
      · exact hkept
      · exact hchanged
  | willQos v =>
      rw [perform, setWillQos]
      split
      · exact hkept
      · exact hchanged
  | clientId v =>
      rw [perform, setClientId]
      split
      · exact hkept
      · split
        · exact hkept
        · exact hchanged
  | willTopic v =>
      rw [perform, setWillTopic, updateWillFlag]
      split_ifs <;> exact hchanged
  | willMessage v =>
      rw [perform, setWillMessage, updateWillFlag]
      split_ifs <;> exact hchanged
  | cleanSession v | willFlag v | willRetain v | usernameFlag v | passwordFlag v
  | keepAlive v | username v | password v => exact hchanged

/-- A header that is kept, and topics and QoS values of the same number. -/
def SubscribeMessage.Kept (this : SubscribeMessage) : Prop :=
  this.toHeader.Kept ∧ this.topics.length = this.qos.length

theorem SubscribeMessage.kept_perform {this : SubscribeMessage} (hkept : this.Kept)
    (call : Setter) : (this.perform call).Kept := by
  have hchanged : ({ this.toHeader with dirty := true } : Header).Kept :=
    hkept.1.of_eq rfl rfl rfl
  cases call with
  | addTopic topic qos =>
      rw [perform, addTopic]
      split
      · exact hkept
      · split
        · exact ⟨hkept.1, by simpa using hkept.2⟩
        · exact ⟨hchanged, by simpa using hkept.2⟩
  | removeTopic topic =>
      rw [perform, removeTopic]
      split
      · exact ⟨hchanged, by simp only [List.length_eraseIdx, hkept.2]⟩
      · exact ⟨hchanged, hkept.2⟩
  | packetId v => exact ⟨hkept.1.setPacketId v, hkept.2⟩

theorem UnsubscribeMessage.kept_perform {this : UnsubscribeMessage}
    (hkept : this.toHeader.Kept) (call : Setter) : (this.perform call).toHeader.Kept := by
  have hchanged : ({ this.toHeader with dirty := true } : Header).Kept :=
    hkept.of_eq rfl rfl rfl
  cases call with
  | addTopic topic =>
      rw [perform, addTopic]
      split
      · exact hkept
      · exact hchanged
  | removeTopic topic =>
      rw [perform, removeTopic]
      split <;> exact hchanged
  | packetId v => exact hkept.setPacketId v

/-- A header that is kept, and return codes that `Encode` accepts. -/
def SubackMessage.Kept (this : SubackMessage) : Prop :=
  this.toHeader.Kept ∧ ∀ code ∈ this.returnCodes, code = 0 ∨ code = 1 ∨ code = 2 ∨ code = 0x80

theorem SubackMessage.kept_addReturnCodes {this : SubackMessage} (hkept : this.Kept)
    (ret : Bytes) : (this.addReturnCodes ret).1.Kept := by
  induction ret generalizing this with
  | nil => exact ⟨hkept.1.of_eq rfl rfl rfl, hkept.2⟩
  | cons code ret ih =>
      rw [addReturnCodes]
      split
      · exact hkept
      · rename_i hcode
        refine ih ⟨hkept.1, ?_⟩
        simp only [qosAtMostOnce, qosAtLeastOnce, qosExactlyOnce, qosFailure] at hcode
        intro other hother
        rcases List.mem_append.mp hother with hold | hnew
        · exact hkept.2 other hold
        · rw [List.mem_singleton.mp hnew]
          tauto

/-- What the methods of each type keep. -/
def Kept : Message → Prop
  | .subscribe this => this.Kept
  | .suback this => this.Kept
  | message => message.header.Kept

theorem Kept.mapHeader {message : Message} (hkept : message.Kept) {f : Header → Header}
    (hf : ∀ header : Header, header.Kept → (f header).Kept) : (message.mapHeader f).Kept := by
  cases message with
  | subscribe this | suback this => exact ⟨hf _ hkept.1, hkept.2⟩
  | _ => exact hf _ hkept

theorem Kept.len {message : Message} (hkept : message.Kept) : message.len.1.Kept := by
  cases message with
  | subscribe this | suback this => exact ⟨hkept.1.lenOf _, hkept.2⟩
  | pingreq this | pingresp this | disconnect this => exact hkept
  | _ => exact Header.Kept.lenOf hkept _

theorem Kept.perform {message : Message} (hkept : message.Kept) (call : Method) :
    (message.perform call).Kept := by
  cases call with
  | setType mtype => exact hkept.mapHeader fun _ hheader => hheader.setType mtype
  | setRemainingLength remlen =>
      exact hkept.mapHeader fun _ hheader => hheader.setRemainingLength remlen
  | setPacketId v => exact hkept.mapHeader fun _ hheader => hheader.setPacketId v
  | clearPacketId => exact hkept.mapHeader fun _ hheader => hheader.clearPacketId
  | len => exact hkept.len
  | connect call =>
      cases message with
      | connect this => exact ConnectMessage.kept_perform hkept call
      | _ => exact hkept
  | setSessionPresent v | setReturnCode ret =>
      cases message with
      | connack this => exact Header.Kept.of_eq hkept rfl rfl rfl
      | _ => exact hkept
  | publish call =>
      cases message with
      | publish this => exact PublishMessage.kept_perform hkept call
      | _ => exact hkept
  | subscribe call =>
      cases message with
      | subscribe this => exact SubscribeMessage.kept_perform hkept call
      | _ => exact hkept
  | addReturnCodes ret =>
      cases message with
      | suback this => exact SubackMessage.kept_addReturnCodes hkept ret
      | _ => exact hkept
  | unsubscribe call =>
      cases message with
      | unsubscribe this => exact UnsubscribeMessage.kept_perform hkept call
      | _ => exact hkept

theorem Built.kept {message : Message} (hbuilt : message.Built) : message.Kept := by
  induction hbuilt with
  | perform call _ hkept => exact hkept.perform call
  | @new mtype message hnew =>
      cases mtype with
      | subscribe =>
          cases hnew
          exact ⟨Header.Kept.new rfl, rfl⟩
      | suback =>
          cases hnew
          exact ⟨Header.Kept.new rfl, nofun⟩
      | _ => cases hnew <;> exact Header.Kept.new rfl

end Xmqtt.Message
