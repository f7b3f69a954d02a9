import Xmqtt.Core.Run
import Xmqtt.Message.Encode
import Xmqtt.Message.Frame

/-!
# PUBLISH

The PUBLISH message of `publish.go`: its setters, its decoder and its encoder.
The payload has no length of its own on the wire; it is what the remaining
length leaves behind the topic and the packet id.
-/

namespace Xmqtt.Message

open Xmqtt.Go

structure PublishMessage extends Header where
  topic : Bytes
  payload : Bytes
  deriving DecidableEq, Repr

def newPublishMessage : PublishMessage where
  toHeader := newHeader .publish
  topic := []
  payload := []

namespace PublishMessage

def withHeader (this : PublishMessage) (header : Header) : PublishMessage :=
  ⟨header, this.topic, this.payload⟩

def dup (this : PublishMessage) : Bool := (this.flags >>> 3) &&& 0x1 == 1

def setDup (this : PublishMessage) (v : Bool) : PublishMessage :=
  this.withHeader (this.setMtypeflags
    (if v then this.mtypeflags ||| 0x8 else this.mtypeflags &&& 247))

def retain (this : PublishMessage) : Bool := this.flags &&& 0x1 == 1

def setRetain (this : PublishMessage) (v : Bool) : PublishMessage :=
  this.withHeader (this.setMtypeflags
    (if v then this.mtypeflags ||| 0x1 else this.mtypeflags &&& 254))

def qos (this : PublishMessage) : Byte := (this.flags >>> 1) &&& 0x3

def setQoS (this : PublishMessage) (v : Byte) : PublishMessage × Option Err :=
  if v ≠ 0x0 ∧ v ≠ 0x1 ∧ v ≠ 0x2 then
    (this, some (.errorf "publish/SetQoS: Invalid QoS %d." [.int v.toNat]))
  else
    (this.withHeader
      (this.setMtypeflags ((this.mtypeflags &&& (249 : Byte)) ||| (v <<< 1))), none)

def setTopic (this : PublishMessage) (v : Bytes) : PublishMessage × Option Err :=
  if !validTopic v then
    (this, some (.errorf
      "publish/SetTopic: Invalid topic name (%s). Must not be empty or contain wildcard characters"
      [.text v]))
  else ({ this with topic := v, dirty := true }, none)

def setPayload (this : PublishMessage) (v : Bytes) : PublishMessage :=
  { this with payload := v, dirty := true }

def setPacketId (this : PublishMessage) (v : UInt16) : PublishMessage :=
  this.withHeader (this.toHeader.setPacketId v)

def msglen (this : PublishMessage) : ℕ :=
  2 + this.topic.length + this.payload.length + if this.qos ≠ 0 then 2 else 0

def len (this : PublishMessage) : PublishMessage × ℕ :=
  ((this.withHeader (this.lenOf this.msglen).1), (this.lenOf this.msglen).2)

/-- The end of `Decode`: the payload is the rest of the remaining length. -/
def decodePayload (src : Slice) (hn : ℕ) (this : PublishMessage) (total : ℕ) :
    Outcome Err PublishMessage :=
  match src.window total (total + (this.remlen - ((total : ℤ) - hn))) with
  | none => .panic
  | some payload =>
      .done { this with payload := payload.bytes, dirty := false }
        (total + payload.bytes.length)

/-- The part of `Decode` behind the fixed header of `hn` bytes. -/
def decodeFields (src : Slice) (this : PublishMessage) (hn : ℕ) :
    Outcome Err PublishMessage :=
  (readLPField src (fun this topic => { this with topic := topic }) this hn).andThen
    fun this total =>
  (Outcome.reject (!validTopic this.topic)
    (.errorf
      "publish/Decode: Invalid topic name (%s). Must not be empty or contain wildcard characters"
      [.text this.topic]) this total).andThen fun this total =>
  (if this.qos ≠ 0 then (this.readPacketId src total).map this.withHeader
    else .done this total).andThen (decodePayload src hn)

def decode (this : PublishMessage) (src : Slice) : Outcome Err PublishMessage :=
  ((this.toHeader.decode src).map this.withHeader).andThen (decodeFields src)

/-- The part of `Encode` behind the fixed header. -/
def encodeFields (this : PublishMessage) (state : Encoded PublishMessage) (total : ℕ) :
    Outcome Err (Encoded PublishMessage) :=
  (emitLP this.topic state total).andThen fun state total =>
  (if this.qos ≠ 0 then emitPacketId toHeader withHeader state total
    else .done state total).andThen fun state total =>
  emitWhole this.payload state total

/-- Unlike its siblings PUBLISH sets the remaining length before it measures
the buffer. -/
def encode (this : PublishMessage) (dst : Bytes) (gPacketId : UInt64) :
    Outcome Err (Encoded PublishMessage) :=
  if !this.dirty then encodeClean "publish" this.toHeader ⟨this, dst, gPacketId⟩
  else if this.topic.length = 0 then
    .fail ⟨this, dst, gPacketId⟩ 0 (.errorf "publish/Encode: Topic name is empty." [])
  else if this.payload.length = 0 then
    .fail ⟨this, dst, gPacketId⟩ 0 (.errorf "publish/Encode: Payload is empty." [])
  else
    match this.setRemainingLength (int32 this.msglen) with
    | (_, some err) => .fail ⟨this, dst, gPacketId⟩ 0 err
    | (header, none) =>
        if dst.length < header.msglen + this.msglen then
          .fail ⟨this.withHeader header, dst, gPacketId⟩ 0 (.errorf
            "publish/Encode: Insufficient buffer size. Expecting %d, got %d."
            [.int (header.msglen + this.msglen), .int dst.length])
        else
          (emitHeader header ⟨this.withHeader header, dst, gPacketId⟩).andThen
            this.encodeFields

/-! ## What a successful encode writes -/

/-- The message after a successful encode. -/
def sent (this : PublishMessage) (gPacketId : UInt64) : PublishMessage :=
  this.withHeader
    (if this.qos ≠ 0 then ((this.sized this.msglen).ensurePacketId gPacketId).1
      else this.sized this.msglen)

def sentCounter (this : PublishMessage) (gPacketId : UInt64) : UInt64 :=
  if this.qos ≠ 0 then ((this.sized this.msglen).ensurePacketId gPacketId).2
  else gPacketId

/-- The wire form of everything behind the fixed header. -/
def body (this : PublishMessage) : Bytes :=
  lpBytes this.topic ++
    ((if this.qos ≠ 0 then this.packetId else []) ++ this.payload)

theorem mtypeflags_sent (this : PublishMessage) (gPacketId : UInt64) :
    (this.sent gPacketId).mtypeflags = this.mtypeflags := by
  rw [sent]
  split_ifs <;> simp [withHeader, Header.sized]

theorem qos_sent (this : PublishMessage) (gPacketId : UInt64) :
    (this.sent gPacketId).qos = this.qos := by
  rw [qos, Header.flags, mtypeflags_sent]
  rfl

theorem length_body_sent (this : PublishMessage) (gPacketId : UInt64) :
    (this.sent gPacketId).body.length = this.msglen := by
  rw [body, qos_sent, msglen]
  by_cases hqos : this.qos ≠ 0
  · have hid := Header.length_packetId_ensurePacketId (this.sized this.msglen) gPacketId
    simp only [sent, withHeader, if_pos hqos, List.length_append, length_lpBytes, hid]
    omega
  · simp only [sent, withHeader, if_neg hqos, List.length_append, length_lpBytes,
      List.length_nil]
    omega

/-- What `Encode` needs of a changed PUBLISH and of its buffer. -/
structure Encodable (this : PublishMessage) (dst : Bytes) : Prop where
  topic : this.topic.length ≠ 0
  payload : this.payload.length ≠ 0
  lpTopic : this.topic.length ≤ maxLPString
  type : this.type.valid = true
  remlen : 0 ≤ int32 this.msglen ∧ int32 this.msglen ≤ maxRemainingLength
  fits : (this.sized this.msglen).msglen + this.msglen ≤ dst.length

theorem Encodable.length_wire {this : PublishMessage} {dst : Bytes}
    (hable : this.Encodable dst) :
    (this.sized this.msglen).wire.length = (this.sized this.msglen).msglen :=
  Header.length_wire hable.remlen.1 hable.remlen.2

theorem encodeFields_eq {this : PublishMessage}
    (hlp : this.topic.length ≤ maxLPString) {out rest : Bytes} (gPacketId : UInt64)
    (hfit : this.msglen ≤ rest.length) :
    this.encodeFields
        ⟨this.withHeader (this.sized this.msglen), out ++ rest, gPacketId⟩ out.length =
      .done
        ⟨this.sent gPacketId,
          (out ++ (this.sent gPacketId).body) ++ rest.drop this.msglen,
          this.sentCounter gPacketId⟩
        (out ++ (this.sent gPacketId).body).length := by
  have hsize : this.msglen = (lpBytes this.topic).length + this.payload.length +
      if this.qos ≠ 0 then 2 else 0 := by
    rw [msglen, length_lpBytes]
  rw [encodeFields, (emitLP_writes this.topic _ out rest gPacketId _ _).mpr
    ⟨hlp, by rw [hsize] at hfit; omega, rfl, rfl⟩, Outcome.done_andThen, body, qos_sent]
  by_cases hqos : this.qos ≠ 0
  · rw [if_pos hqos] at hsize
    have hdrop : (lpBytes this.topic).length + 2 + this.payload.length = this.msglen := by
      omega
    rw [if_pos hqos, withHeader, emitPacketId_of_le _ _ _ (by rw [List.length_drop]; omega),
      Outcome.done_andThen, emitWhole_of_le (by simp only [List.length_drop]; omega)]
    simp only [sent, withHeader, sentCounter, if_pos hqos, List.append_assoc,
      List.drop_drop, hdrop]
  · rw [if_neg hqos] at hsize
    have hdrop : (lpBytes this.topic).length + this.payload.length = this.msglen := by
      omega
    rw [if_neg hqos, Outcome.done_andThen, withHeader,
      emitWhole_of_le (by rw [List.length_drop]; omega)]
    simp only [sent, withHeader, sentCounter, if_neg hqos, List.append_assoc,
      List.drop_drop, List.nil_append, hdrop]

theorem encode_of_encodable {this : PublishMessage} {dst : Bytes}
    (hdirty : this.dirty = true) (hable : this.Encodable dst) (gPacketId : UInt64) :
    this.encode dst gPacketId =
      .done
        ⟨this.sent gPacketId,
          ((this.sized this.msglen).wire ++ (this.sent gPacketId).body) ++
            dst.drop ((this.sized this.msglen).msglen + this.msglen),
          this.sentCounter gPacketId⟩
        ((this.sized this.msglen).msglen + this.msglen) := by
  have hfits := hable.fits
  have hheader : emitHeader (this.sized this.msglen)
      ⟨this.withHeader (this.sized this.msglen), dst, gPacketId⟩ = .done _ _ :=
    emitHeader_eq_done_iff.mpr ⟨hable.remlen, hable.type, by omega, rfl, rfl⟩
  rw [encode, if_neg (by simp [hdirty]), if_neg hable.topic, if_neg hable.payload,
    Header.setRemainingLength_int32 hable.remlen]
  simp only
  rw [if_neg (by omega), hheader, Outcome.done_andThen,
    encodeFields_eq hable.lpTopic gPacketId (by rw [List.length_drop]; omega),
    List.drop_drop, List.length_append, hable.length_wire, length_body_sent]

theorem encodable_of_encode_eq_done {this : PublishMessage} {dst : Bytes}
    {gPacketId : UInt64} {state : Encoded PublishMessage} {n : ℕ}
    (hdirty : this.dirty = true) (hdone : this.encode dst gPacketId = .done state n) :
    this.Encodable dst := by
  rw [encode, if_neg (by simp [hdirty])] at hdone
  split at hdone
  · simp at hdone
  rename_i htopic
  split at hdone
  · simp at hdone
  rename_i hpayload
  by_cases hremlen : 0 ≤ int32 this.msglen ∧ int32 this.msglen ≤ maxRemainingLength
  · rw [Header.setRemainingLength_int32 hremlen] at hdone
    simp only at hdone
    split at hdone
    · simp at hdone
    rename_i hfits
    obtain ⟨first, count, hheader, hrest⟩ := Outcome.andThen_eq_done_iff.mp hdone
    obtain ⟨-, htype, -, rfl, rfl⟩ := emitHeader_eq_done_iff.mp hheader
    obtain ⟨second, count, hlp, -⟩ := Outcome.andThen_eq_done_iff.mp hrest
    obtain ⟨hlpTopic, -⟩ := (emitLP_writes _ _ _ _ _ _ _).mp hlp
    exact ⟨htopic, hpayload, hlpTopic, htype, hremlen, not_lt.mp hfits⟩
  · obtain ⟨err, herr⟩ := this.setRemainingLength_of_not hremlen
    simp [herr] at hdone

/-! ## Decoding a PUBLISH frame -/

theorem decodePayload_eq {this : PublishMessage} {src : Slice} {hn total : ℕ}
    {payload more spare : Bytes} (htail : src.tail total = some ⟨payload ++ more, spare⟩)
    (hremlen : this.remlen - ((total : ℤ) - hn) = payload.length) :
    decodePayload src hn this total =
      .done { this with payload := payload, dirty := false }
        (total + payload.length) := by
  rw [decodePayload, hremlen, Slice.window_of_tail htail, Slice.window_zero_of_append rfl]

/-- A topic, a packet id if the QoS asks for one, and a payload are read back,
whatever follows them. -/
theorem decodeFields_eq (this : PublishMessage) {src : Slice} {hn : ℕ}
    {topic id payload more spare : Bytes}
    (hstart : src.tail hn = some ⟨lpBytes topic ++ (id ++ (payload ++ more)), spare⟩)
    (hremlen : this.remlen = (lpBytes topic ++ (id ++ payload)).length)
    (hvalid : validTopic topic = true) (hlp : topic.length ≤ maxLPString)
    (hid : id.length = if this.qos ≠ 0 then 2 else 0) :
    ∃ message, decodeFields src this hn =
        .done message (hn + (lpBytes topic ++ (id ++ payload)).length) ∧
      message.topic = topic ∧ message.payload = payload ∧
      message.mtypeflags = this.mtypeflags ∧ (this.qos ≠ 0 → message.packetId = id) := by
  have hbehind := Slice.tail_add hstart
  have hpayload := Slice.tail_add hbehind
  simp only [List.length_append] at hremlen ⊢
  rw [decodeFields, readLPField_lpBytes hstart hlp, Outcome.done_andThen, hvalid,
    Bool.not_true, Outcome.reject_false, Outcome.done_andThen]
  have hqos : ({ this with topic := topic } : PublishMessage).qos = this.qos := rfl
  rw [hqos]
  by_cases hzero : this.qos ≠ 0
  · rw [if_pos hzero] at hid
    rw [hid] at hpayload
    rw [if_pos hzero, Header.readPacketId_of_tail hbehind hid, Outcome.map_done,
      Outcome.done_andThen, decodePayload_eq hpayload (by simp only [withHeader]; omega)]
    have hcount : hn + (lpBytes topic).length + 2 + payload.length =
        hn + ((lpBytes topic).length + (id.length + payload.length)) := by omega
    rw [hcount]
    exact ⟨_, rfl, rfl, rfl, rfl, fun _ => rfl⟩
  · rw [if_neg hzero] at hid
    rw [hid, add_zero] at hpayload
    rw [if_neg hzero, Outcome.done_andThen, decodePayload_eq hpayload (by simp only; omega)]
    have hcount : hn + (lpBytes topic).length + payload.length =
        hn + ((lpBytes topic).length + (id.length + payload.length)) := by omega
    rw [hcount]
    exact ⟨_, rfl, rfl, rfl, rfl, fun h => (hzero h).elim⟩

theorem body_sent (this : PublishMessage) (gPacketId : UInt64) :
    (this.sent gPacketId).body = lpBytes this.topic ++
      ((if this.qos ≠ 0 then (this.sent gPacketId).packetId else []) ++ this.payload) := by
  rw [body, qos_sent]
  rfl

/-- What `Encode` has sent decodes to the message it was given. -/
theorem decode_sent {this fresh : PublishMessage} (hfresh : fresh.type = .publish)
    (htype : this.type = .publish)
    (hflags : flagsAccepted this.mtypeflags = true) (hvalid : validTopic this.topic = true)
    (hlp : this.topic.length ≤ maxLPString)
    (hremlen : int32 this.msglen = this.msglen)
    (hbound : int32 this.msglen ≤ maxRemainingLength) (gPacketId : UInt64)
    (more spare : Bytes) :
    ∃ decoded, fresh.decode
        ⟨(this.sized this.msglen).wire ++ (this.sent gPacketId).body ++ more, spare⟩ =
          .done decoded ((this.sized this.msglen).msglen + this.msglen) ∧
      decoded.topic = this.topic ∧ decoded.payload = this.payload ∧
      decoded.mtypeflags = this.mtypeflags ∧
      (this.qos ≠ 0 → decoded.packetId = (this.sent gPacketId).packetId) := by
  have hbody : (this.sized this.msglen).remlen = (this.sent gPacketId).body.length := by
    rw [length_body_sent]
    exact hremlen
  have hheader := Header.decode_wire hbody hbound more spare
    (hfresh.trans htype.symm) (by rw [show (this.sized this.msglen).type = _ from htype]; rfl)
    hflags
  have hstart := Header.tail_wire hbody hbound more spare
  have hid : (if this.qos ≠ 0 then (this.sent gPacketId).packetId else []).length =
      if this.qos ≠ 0 then 2 else 0 := by
    split_ifs with hzero
    · rw [sent, if_pos hzero]
      exact Header.length_packetId_ensurePacketId _ _
    · rfl
  have hcount := length_body_sent this gPacketId
  rw [hcount] at hheader
  generalize Slice.mk _ spare = src at hheader hstart ⊢
  rw [body_sent] at hstart hcount
  simp only [List.append_assoc] at hstart
  obtain ⟨decoded, hdone, htopic, hpayload, hmtype, hpacketId⟩ :=
    decodeFields_eq (fresh.withHeader (fresh.received src this.mtypeflags this.msglen))
      hstart (by rw [hcount]; rfl) hvalid hlp hid
  refine ⟨decoded, ?_, htopic, hpayload, hmtype, fun hzero => ?_⟩
  · rw [hcount] at hdone
    rw [decode, hheader, Outcome.map_done, Outcome.done_andThen]
    exact hdone
  · rw [hpacketId hzero, if_pos hzero]

/-! ## Messages built with the setters -/

/-- A call of one of the setters. -/
inductive Setter where
  | dup (v : Bool)
  | retain (v : Bool)
  | qos (v : Byte)
  | topic (v : Bytes)
  | payload (v : Bytes)
  | packetId (v : UInt16)
  deriving DecidableEq, Repr

def perform (this : PublishMessage) : Setter → PublishMessage
  | .dup v => this.setDup v
  | .retain v => this.setRetain v
  | .qos v => (this.setQoS v).1
  | .topic v => (this.setTopic v).1
  | .payload v => this.setPayload v
  | .packetId v => this.setPacketId v

/-- What a PUBLISH says, apart from how it is stored. -/
structure Content where
  dup : Bool
  retain : Bool
  qos : Byte
  topic : Bytes
  payload : Bytes
  packetId : ℕ
  deriving DecidableEq, Repr

def content (this : PublishMessage) : Content where
  dup := this.dup
  retain := this.retain
  qos := this.qos
  topic := this.topic
  payload := this.payload
  packetId := this.packetIdValue

/-- What a setter call changes: an invalid QoS or topic and the packet id zero
change nothing. -/
def Content.perform (content : Content) : Setter → Content
  | .dup v => { content with dup := v }
  | .retain v => { content with retain := v }
  | .qos v => { content with qos := if validQos v then v else content.qos }
  | .topic v => { content with topic := if validTopic v then v else content.topic }
  | .payload v => { content with payload := v }
  | .packetId v =>
      { content with packetId := if v = 0 then content.packetId else v.toNat }

/-- Type, dup, QoS and retain, as the getters read them off a type byte. -/
def typeBits (byte : Byte) : Byte × Bool × Byte × Bool :=
  (byte >>> 4, ((byte &&& 0x0f) >>> 3) &&& 0x1 == 1,
    ((byte &&& 0x0f) >>> 1) &&& 0x3, (byte &&& 0x0f) &&& 0x1 == 1)

theorem typeBits_dup : ∀ (v : Bool) (byte : Byte),
    typeBits (if v then byte ||| 0x8 else byte &&& 247) =
      ((typeBits byte).1, v, (typeBits byte).2.2) := by
  decide +kernel

theorem typeBits_retain : ∀ (v : Bool) (byte : Byte),
    typeBits (if v then byte ||| 0x1 else byte &&& 254) =
      ((typeBits byte).1, (typeBits byte).2.1, (typeBits byte).2.2.1, v) := by
  decide +kernel

theorem typeBits_qos {v : Byte} (hqos : validQos v = true) (byte : Byte) :
    typeBits ((byte &&& (249 : Byte)) ||| (v <<< 1)) =
      ((typeBits byte).1, (typeBits byte).2.1, v, (typeBits byte).2.2.2) := by
  have hcases : v = 0 ∨ v = 1 ∨ v = 2 := by
    simpa [validQos, qosAtMostOnce, qosAtLeastOnce, qosExactlyOnce, or_assoc] using hqos
  revert byte
  rcases hcases with rfl | rfl | rfl <;> decide +kernel

theorem not_validQos_iff {v : Byte} :
    ¬ validQos v = true ↔ v ≠ 0x0 ∧ v ≠ 0x1 ∧ v ≠ 0x2 := by
  simp [validQos, qosAtMostOnce, qosAtLeastOnce, qosExactlyOnce, and_assoc]

/-- The content of a message whose type byte alone changes. -/
theorem content_setMtypeflags (this : PublishMessage) (byte : Byte) :
    (this.withHeader (this.setMtypeflags byte)).content =
      { this.content with
        dup := (typeBits byte).2.1
        qos := (typeBits byte).2.2.1
        retain := (typeBits byte).2.2.2 } := rfl

/-- Each setter changes what the message says as `Content.perform` describes. -/
theorem content_apply (this : PublishMessage) (call : Setter) :
    (this.perform call).content = this.content.perform call := by
  cases call with
  | dup v =>
      simp only [perform, setDup, content_setMtypeflags, typeBits_dup]
      rfl
  | retain v =>
      simp only [perform, setRetain, content_setMtypeflags, typeBits_retain]
      rfl
  | qos v =>
      by_cases hqos : validQos v = true
      · rw [perform, setQoS, if_neg (by rwa [← not_validQos_iff, not_not]), Content.perform,
          if_pos hqos, content_setMtypeflags, typeBits_qos hqos]
        rfl
      · rw [perform, setQoS, if_pos (not_validQos_iff.mp hqos), Content.perform, if_neg hqos]
  | topic v =>
      by_cases hvalid : validTopic v = true
      · simp [perform, setTopic, hvalid, Content.perform]
        rfl
      · simp [perform, setTopic, hvalid, Content.perform]
  | payload v => rfl
  | packetId v =>
      by_cases hzero : v = 0
      · simp [perform, setPacketId, Header.setPacketId, hzero, Content.perform, withHeader]
      · have hid := this.packetIdValue_setPacketId hzero
        rw [perform, setPacketId, Content.perform, if_neg hzero]
        simp only [content, withHeader, dup, retain, qos, Header.flags,
          Header.mtypeflags_setPacketId, hid]

theorem content_foldl (this : PublishMessage) (calls : List Setter) :
    (calls.foldl perform this).content = calls.foldl Content.perform this.content :=
  (List.foldl_hom content (fun this call => (content_apply this call).symm)).symm

/-- A PUBLISH that has changed since it was made or decoded. -/
structure Changed (this : PublishMessage) : Prop where
  dirty : this.dirty = true
  type : this.type = .publish
  qos : validQos this.qos = true

theorem Changed.flagsAccepted {this : PublishMessage} (hchanged : this.Changed) :
    flagsAccepted this.mtypeflags = true := by
  have htype : MessageType.ofNibble (this.mtypeflags >>> 4) = .publish := hchanged.type
  simp only [Message.flagsAccepted, htype, if_true]
  exact hchanged.qos

theorem changed_newPublishMessage : newPublishMessage.Changed := ⟨rfl, rfl, rfl⟩

theorem typeNibble_apply (this : PublishMessage) (call : Setter) :
    (this.perform call).mtypeflags >>> 4 = this.mtypeflags >>> 4 := by
  cases call with
  | dup v => exact congrArg Prod.fst (typeBits_dup v this.mtypeflags)
  | retain v => exact congrArg Prod.fst (typeBits_retain v this.mtypeflags)
  | qos v =>
      rw [perform, setQoS]
      split
      · rfl
      · rename_i hcond
        rw [← not_validQos_iff, not_not] at hcond
        exact congrArg Prod.fst (typeBits_qos hcond this.mtypeflags)
  | topic v =>
      rw [perform, setTopic]
      split <;> rfl
  | payload v => rfl
  | packetId v =>
      rw [perform, setPacketId, withHeader, Header.mtypeflags_setPacketId]

theorem type_perform {this : PublishMessage} (htype : this.type = .publish)
    (call : Setter) : (this.perform call).type = .publish := by
  rw [Header.type, typeNibble_apply]
  exact htype

theorem validQos_perform {this : PublishMessage} (hqos : validQos this.qos = true)
    (call : Setter) : validQos (this.perform call).qos = true := by
  have hsame : (this.perform call).qos = (this.content.perform call).qos :=
    congrArg Content.qos (content_apply this call)
  rw [hsame]
  cases call with
  | qos v =>
      rw [Content.perform]
      split
      · assumption
      · exact hqos
  | dup v | retain v | payload v => exact hqos
  | topic v | packetId v =>
      rw [Content.perform]
      split <;> exact hqos

theorem Changed.perform {this : PublishMessage} (hchanged : this.Changed) (call : Setter) :
    (this.perform call).Changed where
  dirty := by
    cases call with
    | dup v | retain v => exact hchanged.dirty
    | qos v =>
        rw [PublishMessage.perform, setQoS]
        split <;> exact hchanged.dirty
    | topic v =>
        rw [PublishMessage.perform, setTopic]
        split
        · exact hchanged.dirty
        · rfl
    | payload v => rfl
    | packetId v => exact Header.dirty_setPacketId hchanged.dirty v
  type := type_perform hchanged.type call
  qos := validQos_perform hchanged.qos call

theorem Changed.len_eq {this : PublishMessage} (hchanged : this.Changed)
    (hsize : this.msglen ≤ 268435455) :
    this.len = (this.withHeader (this.sized this.msglen),
      (this.sized this.msglen).msglen + this.msglen) := by
  rw [len, Header.lenOf_of_le hchanged.dirty hsize]

/-- A changed PUBLISH with all its parts is encoded into `Len` bytes, which
decode to the same content. -/
theorem Changed.roundTrip {this : PublishMessage} (hchanged : this.Changed)
    (hvalid : validTopic this.topic = true) (hlp : this.topic.length ≤ maxLPString)
    (hpayload : this.payload.length ≠ 0)
    (hid : this.qos ≠ 0 → this.packetIdValue ≠ 0) (hsize : this.msglen ≤ 268435455)
    {dst : Bytes} (hdst : this.len.2 ≤ dst.length) (gPacketId : UInt64) (spare : Bytes) :
    ∃ state decoded, this.encode dst gPacketId = .done state this.len.2 ∧
      newPublishMessage.decode ⟨state.dst.take this.len.2, spare⟩ =
        .done decoded this.len.2 ∧
      { decoded.content with packetId := this.packetIdValue } = this.content ∧
      (this.qos ≠ 0 → decoded.packetIdValue = this.packetIdValue) := by
  have hint := int32_of_lt (show this.msglen < 2 ^ 31 by omega)
  have htopic : this.topic.length ≠ 0 := by
    simp only [validTopic, Bool.and_eq_true, decide_eq_true_eq] at hvalid
    omega
  have hremlen := Header.remlen_bounds hsize
  rw [hchanged.len_eq hsize] at hdst ⊢
  simp only at hdst ⊢
  have hable : this.Encodable dst :=
    ⟨htopic, hpayload, hlp, by rw [hchanged.type]; rfl, hremlen, hdst⟩
  obtain ⟨decoded, hdone, hsame, hpayload', hflags, hpacketId⟩ :=
    decode_sent (show newPublishMessage.type = .publish from rfl) hchanged.type
      hchanged.flagsAccepted hvalid hlp hint hremlen.2 gPacketId [] spare
  rw [List.append_nil] at hdone
  refine ⟨_, decoded, encode_of_encodable hchanged.dirty hable gPacketId, ?_, ?_, ?_⟩
  · have htake : (this.sized this.msglen).msglen + this.msglen =
        ((this.sized this.msglen).wire ++ (this.sent gPacketId).body).length := by
      rw [List.length_append, hable.length_wire, length_body_sent]
    simp only
    rw [List.take_left' htake.symm]
    exact hdone
  · simp only [content, dup, retain, PublishMessage.qos, Header.flags, hflags, hsame,
      hpayload']
  · intro hqos
    have hsent : (this.sent gPacketId).packetId = this.packetId := by
      rw [sent, if_pos hqos, Header.ensurePacketId_sized (hid hqos)]
      rfl
    rw [Header.packetIdValue, hpacketId hqos, hsent]
    rfl

section Setters

variable {topic payload : Bytes} {dup retain : Bool} {qos : Byte} {id : UInt16}
variable {calls : List Setter}
variable (honly : calls ⊆ [.dup dup, .retain retain, .qos qos, .topic topic,
  .payload payload, .packetId id])

include honly

/-- A field that one of the calls sets, and that the others leave alone, has
that value after all of them. -/
theorem field_of_setters {β : Type} (field : Content → β) {value : β} (call : Setter)
    (hmem : call ∈ calls)
    (hset : ∀ content : Content, field (content.perform call) = value)
    (hkeep : ∀ other ∈ [Setter.dup dup, .retain retain, .qos qos, .topic topic,
      .payload payload, .packetId id], other = call ∨
        ∀ content : Content, field (content.perform other) = field content) :
    field (calls.foldl perform newPublishMessage).content = value := by
  rw [content_foldl]
  refine Core.foldl_settles (fun content => field content = value) _
    (fun content hgood other hother => ?_) ⟨call, hmem, hset⟩
  rcases hkeep other (honly hother) with rfl | hsame
  · exact hset content
  · rw [hsame, hgood]

/-- Calls of the setters with these values and no others, in any order, give
a message that says just that. -/
theorem content_of_setters (hvalid : validTopic topic = true) (hqos : validQos qos = true)
    (hall : [.dup dup, .retain retain, .qos qos, .topic topic, .payload payload] ⊆ calls) :
    (calls.foldl perform newPublishMessage).content =
      ⟨dup, retain, qos, topic, payload,
        (calls.foldl perform newPublishMessage).packetIdValue⟩ := by
  have hdup := field_of_setters honly Content.dup (.dup dup) (hall (by simp))
    (fun _ => rfl) (by simp [Content.perform])
  have hretain := field_of_setters honly Content.retain (.retain retain) (hall (by simp))
    (fun _ => rfl) (by simp [Content.perform])
  have hqos := field_of_setters honly Content.qos (.qos qos) (hall (by simp))
    (fun _ => if_pos hqos) (by simp [Content.perform])
  have htopic := field_of_setters honly Content.topic (.topic topic) (hall (by simp))
    (fun _ => if_pos hvalid) (by simp [Content.perform])
  have hpayload := field_of_setters honly Content.payload (.payload payload)
    (hall (by simp)) (fun _ => rfl) (by simp [Content.perform])
  rw [Content.mk.injEq]
  exact ⟨hdup, hretain, hqos, htopic, hpayload, rfl⟩

theorem packetIdValue_of_setters (hid : id ≠ 0) (hmem : .packetId id ∈ calls) :
    (calls.foldl perform newPublishMessage).packetIdValue = id.toNat :=
  field_of_setters honly Content.packetId (.packetId id) hmem (fun _ => if_neg hid)
    (by simp [Content.perform])

end Setters

/-- `Len` leaves the message as `Encode` would leave it, and its own result
does not change. -/
theorem Changed.len {this : PublishMessage} (hchanged : this.Changed)
    (hsize : this.msglen ≤ 268435455) :
    this.len.1.Changed ∧ this.len.1.content = this.content ∧
      this.len.1.len.2 = this.len.2 := by
  have hsame : (this.withHeader (this.sized this.msglen)).Changed :=
    ⟨rfl, hchanged.type, hchanged.qos⟩
  rw [hchanged.len_eq hsize]
  exact ⟨hsame, rfl, by rw [hsame.len_eq hsize]; rfl⟩

/-- PUBLISH round trip.  `calls` are the setter calls that built the message, in
any order; `spare` is the rest of the backing array behind the decoded slice. -/
theorem decode_encode_of_setters (topic payload : Bytes) (dup retain : Bool) (qos : Byte)
    (id : UInt16) (calls : List Setter) (htopic : topic ≠ []) (hhash : 0x23 ∉ topic)
    (hplus : 0x2b ∉ topic) (hlp : topic.length ≤ 65535) (hpayload : payload ≠ [])
    (hqos : qos = 0 ∨ qos = 1 ∨ qos = 2)
    (hsize : 2 + topic.length + payload.length + (if qos ≠ 0 then 2 else 0) ≤ 268435455)
    (honly : calls ⊆ [.dup dup, .retain retain, .qos qos, .topic topic, .payload payload,
      .packetId id])
    (hall : [.dup dup, .retain retain, .qos qos, .topic topic, .payload payload] ⊆ calls)
    (hid : qos ≠ 0 → id ≠ 0 ∧ .packetId id ∈ calls) {message start : PublishMessage}
    (hmessage : message = calls.foldl perform newPublishMessage)
    (hstart : start = message ∨ start = message.len.1) (dst : Bytes)
    (hdst : message.len.2 ≤ dst.length) (gPacketId : UInt64) (spare : Bytes) :
    ∃ state decoded, start.encode dst gPacketId = .done state message.len.2 ∧
      newPublishMessage.decode ⟨state.dst.take message.len.2, spare⟩ =
        .done decoded message.len.2 ∧
      decoded.topic = topic ∧ decoded.payload = payload ∧ decoded.dup = dup ∧
      decoded.retain = retain ∧ decoded.qos = qos ∧
      (qos ≠ 0 → decoded.packetIdValue = id.toNat) := by
  have hvalid : validTopic topic = true := by
    simp [validTopic, List.length_pos_iff, htopic, hhash, hplus]
  have hlength : payload.length ≠ 0 := fun hzero => hpayload (List.length_eq_zero_iff.mp hzero)
  have hvalidQos : validQos qos = true := by
    rcases hqos with rfl | rfl | rfl <;> rfl
  have hcontent : message.content = ⟨dup, retain, qos, topic, payload,
      message.packetIdValue⟩ := hmessage ▸ content_of_setters honly hvalid hvalidQos hall
  have hvalue : qos ≠ 0 → message.packetIdValue = id.toNat := fun hzero =>
    hmessage ▸ packetIdValue_of_setters honly (hid hzero).1 (hid hzero).2
  have hchanged : message.Changed := hmessage ▸
    List.foldlRecOn calls perform changed_newPublishMessage
      fun this hthis call _ => hthis.perform call
  clear hmessage
  obtain ⟨hdup, hretain, hqos, htopic, hpayload, -⟩ := (Content.mk.injEq ..).mp hcontent
  subst hdup hretain hqos htopic hpayload
  have hafter := hchanged.len hsize
  obtain ⟨hready, hsame, hlen⟩ : start.Changed ∧ start.content = message.content ∧
      start.len.2 = message.len.2 := by
    rcases hstart with rfl | rfl
    · exact ⟨hchanged, rfl, rfl⟩
    · exact hafter
  obtain ⟨-, -, hqos, htopic, hpayload, hpacketId⟩ := (Content.mk.injEq ..).mp hsame
  have hidStart : start.qos ≠ 0 → start.packetIdValue ≠ 0 := by
    rw [hqos, hpacketId]
    intro hzero
    rw [hvalue hzero]
    exact fun heq => (hid hzero).1 (UInt16.toNat_inj.mp heq)
  obtain ⟨state, decoded, hencode, hdecode, hdecoded, hdecodedId⟩ :=
    hready.roundTrip (by rwa [htopic]) (by rwa [htopic])
      (by rwa [hpayload]) hidStart
      (by rw [msglen, htopic, hpayload, hqos]; exact hsize) (by rwa [hlen]) gPacketId spare
  rw [hsame] at hdecoded
  rw [hlen] at hencode hdecode
  rw [hqos, hpacketId] at hdecodedId
  obtain ⟨hdup, hretain, hqos, htopic, hpayload, -⟩ := (Content.mk.injEq ..).mp hdecoded
  exact ⟨state, decoded, hencode, hdecode, htopic, hpayload, hdup, hretain, hqos,
    fun hzero => (hdecodedId hzero).trans (hvalue hzero)⟩

/-- A QoS 1 PUBLISH of `x` to the topic `a/b`, its setters called in another
order. -/
theorem decode_encode_of_setters_qos1 :
    ∃ state decoded, (([.payload [0x78], .packetId 7, .topic [0x61, 0x2f, 0x62], .qos 1,
        .retain true, .dup false] : List Setter).foldl perform newPublishMessage).encode
          (List.replicate 20 0) 0 = .done state 10 ∧
      newPublishMessage.decode ⟨state.dst.take 10, []⟩ = .done decoded 10 ∧
      decoded.topic = [0x61, 0x2f, 0x62] ∧ decoded.payload = [0x78] ∧
      decoded.dup = false ∧ decoded.retain = true ∧ decoded.qos = 1 ∧
      ((1 : Byte) ≠ 0 → decoded.packetIdValue = (7 : UInt16).toNat) := by
  have hlen : (([.payload [0x78], .packetId 7, .topic [0x61, 0x2f, 0x62], .qos 1,
      .retain true, .dup false] : List Setter).foldl perform newPublishMessage).len.2 =
      10 := by decide +kernel
  have hround := decode_encode_of_setters [0x61, 0x2f, 0x62] [0x78] false true 1 7
    [.payload [0x78], .packetId 7, .topic [0x61, 0x2f, 0x62], .qos 1, .retain true, .dup false]
    (by decide) (by decide) (by decide) (by decide) (by decide) (by decide) (by decide)
    (by decide) (by decide) (by decide) rfl (Or.inl rfl)
    (List.replicate 20 0) (by rw [hlen]; decide) 0 []
  rwa [hlen] at hround

end PublishMessage

end Xmqtt.Message
