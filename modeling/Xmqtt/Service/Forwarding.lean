import Xmqtt.Go.Split
import Xmqtt.Message.Grammar
import Xmqtt.Service.SendData

/-!
# Forwarding a message

`PushMsg` takes a message object from its pool, gives it the topic of the device
and the payload it has received, and sends it.  The decoder and the encoder have
different rules: what was accepted on the way in may be refused on the way out.
-/

namespace Xmqtt.Service

open Xmqtt.Go Xmqtt.Message

/-- What `PushMsg` hands to `publish` of the service that it has found.  The errors of
the setters are ignored. -/
structure Push where
  svc : ServiceRef
  pmsg : PublishMessage
  errors : List Err
  deriving DecidableEq, Repr

/-- The message that `PushMsg` builds from an object of the pool. -/
def buildPush (svc : ServiceRef) (pooled : PublishMessage) (download : Download) : Push where
  svc := svc
  pmsg := ((pooled.setQoS qosAtLeastOnce).1.setTopic download.topic).1.setPayload
    download.payload
  errors := (pooled.setQoS qosAtLeastOnce).2.toList ++
    ((pooled.setQoS qosAtLeastOnce).1.setTopic download.topic).2.toList

/-- The body of the loop of `PushMsg`, up to `publish`. -/
def pushMsg (svcMap : Bytes → Option ServiceRef) (pooled msg : PublishMessage) : Option Push :=
  match route msg.topic with
  | none => none
  | some (pKey, dName) =>
      (svcMap (serviceKey pKey dName)).map fun svc =>
        buildPush svc pooled (downloadOf pKey dName msg.payload)

/-! ## Sending a PUBLISH -/

/-- A changed PUBLISH with all its parts is sent, and what is sent decodes to its topic and
payload. -/
theorem sendData_publish {this : PublishMessage} (hchanged : this.Changed)
    (hvalid : validTopic this.topic = true) (hlp : this.topic.length ≤ maxLPString)
    (hpayload : this.payload.length ≠ 0) (hsize : this.msglen ≤ 268435455)
    (gPacketId : UInt64) :
    ∃ packet decoded n, sendData (.publish this) gPacketId = (.returned none, [packet]) ∧
      newPublishMessage.decode (Slice.full packet) = .done decoded n ∧
      decoded.topic = this.topic ∧ decoded.payload = this.payload := by
  have hint := int32_of_lt (hsize.trans_lt (by norm_num : 268435455 < 2 ^ 31))
  have hremlen := Header.remlen_bounds hsize
  have htopic : this.topic.length ≠ 0 := Nat.one_le_iff_ne_zero.mp (validTopic_iff.mp hvalid).1
  have hlen := hchanged.len_eq hsize
  obtain ⟨decoded, hdecode, hsame, hsamePayload, -⟩ :=
    PublishMessage.decode_sent (show newPublishMessage.type = .publish from rfl) hchanged.type
      hchanged.flagsAccepted hvalid hlp hint hremlen.2 gPacketId [] []
  generalize hpacket : (this.sized this.msglen).wire ++ (this.sent gPacketId).body = packet
    at hdecode
  have hable : this.Encodable
      (List.replicate ((this.sized this.msglen).msglen + this.msglen) 0) :=
    ⟨htopic, hpayload, hlp, by rw [hchanged.type]; rfl, hremlen, by rw [List.length_replicate]⟩
  have hlength : packet.length = (this.sized this.msglen).msglen + this.msglen := by
    rw [← hpacket, List.length_append, hable.length_wire, PublishMessage.length_body_sent]
  have hencode : (this.withHeader (this.sized this.msglen)).encode
      (List.replicate ((this.sized this.msglen).msglen + this.msglen) 0) gPacketId =
        .done ⟨this.sent gPacketId, packet, this.sentCounter gPacketId⟩ packet.length := by
    rw [PublishMessage.encode_of_encodable rfl hable.afterLen gPacketId, hlength, ← hpacket]
    change Outcome.done (Encoded.mk (this.sent gPacketId)
      ((this.sized this.msglen).wire ++ (this.sent gPacketId).body ++
        (List.replicate ((this.sized this.msglen).msglen + this.msglen) 0).drop
          ((this.sized this.msglen).msglen + this.msglen)) _) _ = _
    rw [List.drop_replicate, Nat.sub_self, List.replicate_zero, List.append_nil]
    rfl
  rw [List.append_nil] at hdecode
  refine ⟨packet, decoded, _, ?_, hdecode, hsame, hsamePayload⟩
  rw [sendData, Message.len, hlen]
  simp only [Message.encode, hencode, lift, Outcome.map_done, le_refl, if_true,
    List.take_length]

/-! ## The message that is built -/

/-- The parts of a topic have no bytes but those of the topic. -/
theorem subset_of_route {topic pKey dName : Bytes} (hroute : route topic = some (pKey, dName)) :
    pKey ⊆ topic ∧ dName ⊆ topic := by
  rw [route] at hroute
  split_ifs at hroute with hshort
  have hmem : ∀ index, index < (topic.splitOn 0x2f).length →
      (topic.splitOn 0x2f).getD index [] ⊆ topic := by
    intro index hindex byte hbyte
    rw [List.getD_eq_getElem _ _ hindex] at hbyte
    exact mem_of_mem_splitOn (List.getElem_mem hindex) hbyte
  injection hroute with hpair
  obtain ⟨rfl, rfl⟩ := Prod.mk.inj hpair
  exact ⟨hmem _ (by omega), hmem _ (by omega)⟩

theorem length_downloadOf (pKey dName payload : Bytes) :
    (downloadOf pKey dName payload).topic.length = pKey.length + dName.length + 21 := by
  have hsys : (textBytes "/sys/").length = 5 := by decide +kernel
  have hslash : (textBytes "/").length = 1 := by decide +kernel
  have hend : (textBytes "/thing/download").length = 15 := by decide +kernel
  simp only [downloadOf, List.length_append, hsys, hslash, hend]
  omega

/-- `SetTopic` accepts the topic of a device that a valid topic names. -/
theorem validTopic_downloadOf {topic pKey dName : Bytes} (hvalid : validTopic topic = true)
    (hroute : route topic = some (pKey, dName)) (payload : Bytes) :
    validTopic (downloadOf pKey dName payload).topic = true := by
  obtain ⟨-, hhash, hplus⟩ := validTopic_iff.mp hvalid
  obtain ⟨hpKey, hdName⟩ := subset_of_route hroute
  have hnot : ∀ byte ∉ topic, byte ∉ textBytes "/sys/" → byte ∉ textBytes "/" →
      byte ∉ textBytes "/thing/download" → byte ∉ (downloadOf pKey dName payload).topic := by
    intro byte htopic hsys hslash hend hmem
    simp only [downloadOf, List.mem_append] at hmem
    rcases hmem with (((hmem | hmem) | hmem) | hmem) | hmem
    · exact hsys hmem
    · exact htopic (hpKey hmem)
    · exact hslash hmem
    · exact htopic (hdName hmem)
    · exact hend hmem
  rw [validTopic_iff, length_downloadOf]
  refine ⟨by omega, ?_, ?_⟩
  · exact hnot _ hhash (by decide +kernel) (by decide +kernel) (by decide +kernel)
  · exact hnot _ hplus (by decide +kernel) (by decide +kernel) (by decide +kernel)

/-- Whatever the object of the pool still holds, no setter fails on it, and it says what it
is told. -/
theorem buildPush_eq (svc : ServiceRef) {pooled : PublishMessage} {download : Download}
    (htype : pooled.type = .publish) (hvalid : validTopic download.topic = true) :
    (buildPush svc pooled download).errors = [] ∧
      (buildPush svc pooled download).pmsg.Changed ∧
      (buildPush svc pooled download).pmsg.qos = 1 ∧
      (buildPush svc pooled download).pmsg.topic = download.topic ∧
      (buildPush svc pooled download).pmsg.payload = download.payload := by
  have hcalls : (buildPush svc pooled download).pmsg =
      ((pooled.perform (.qos qosAtLeastOnce)).perform (.topic download.topic)).perform
        (.payload download.payload) := rfl
  have hvalidQos : validQos qosAtLeastOnce = true := rfl
  have hcontent := congrArg PublishMessage.content hcalls
  simp only [PublishMessage.content_apply, PublishMessage.Content.perform, hvalid, hvalidQos,
    if_true] at hcontent
  have hqos : (buildPush svc pooled download).pmsg.qos = 1 :=
    congrArg PublishMessage.Content.qos hcontent
  have hpublish : (buildPush svc pooled download).pmsg.type = .publish := by
    rw [hcalls]
    apply PublishMessage.type_perform
    apply PublishMessage.type_perform
    exact PublishMessage.type_perform htype _
  refine ⟨?_, ⟨rfl, hpublish, by rw [hqos]; rfl⟩, hqos,
    congrArg PublishMessage.Content.topic hcontent,
    congrArg PublishMessage.Content.payload hcontent⟩
  have htopic : ∀ this : PublishMessage, (this.setTopic download.topic).2 = none := by
    intro this
    rw [PublishMessage.setTopic, hvalid]
    rfl
  rw [buildPush]
  simp only [htopic]
  rfl

/-! ## What arrives at the device -/

/-- `PushMsg` finds the service and sends it the payload of the message under the topic of
the device. -/
def Forwarded (svcMap : Bytes → Option ServiceRef) (pooled msg : PublishMessage)
    (svc : ServiceRef) (gPacketId : UInt64) : Prop :=
  ∃ pmsg, pushMsg svcMap pooled msg = some ⟨svc, pmsg, []⟩ ∧ pmsg.qos = 1 ∧
    ∃ packet decoded n, sendData (.publish pmsg) gPacketId = (.returned none, [packet]) ∧
      newPublishMessage.decode (Slice.full packet) = .done decoded n ∧
      decoded.topic = textBytes "/sys/" ++ svc.productKey ++ textBytes "/" ++ svc.deviceName ++
        textBytes "/thing/download" ∧
      decoded.payload = msg.payload

/-- There is a payload, the topic of the device has a length that fits into two bytes, and
the packet one that fits into four. -/
def Forwardable (svc : ServiceRef) (payload : Bytes) : Prop :=
  payload ≠ [] ∧ svc.productKey.length + svc.deviceName.length + 21 ≤ 65535 ∧
    svc.productKey.length + svc.deviceName.length + payload.length + 25 ≤ 268435455

instance decidableForwardable (svc : ServiceRef) (payload : Bytes) :
    Decidable (Forwardable svc payload) :=
  inferInstanceAs (Decidable (_ ∧ _ ∧ _))

/-- A QoS 1 PUBLISH that was decoded from a frame and names a registered service arrives
there as it is if and only if it is not empty and neither the topic nor the packet becomes
too long. -/
theorem forwarded_iff {frame : Frame} {msg : PublishMessage} {n : ℕ}
    (hdone : newPublishMessage.decode (Slice.full frame.bytes) = .done msg n)
    {svcMap : Bytes → Option ServiceRef} {svc : ServiceRef}
    (hroute : route msg.topic = some (svc.productKey, svc.deviceName))
    (hregistered : svcMap svc.key = some svc) {pooled : PublishMessage}
    (hpooled : pooled.type = .publish) (gPacketId : UInt64) :
    Forwarded svcMap pooled msg svc gPacketId ↔ Forwardable svc msg.payload := by
  have hparts := PublishMessage.parts_of_decode hdone
  have hvalid := validTopic_downloadOf (validTopic_iff.mpr hparts.topic) hroute msg.payload
  obtain ⟨herrors, hchanged, hqos, htopic, hpayload⟩ := buildPush_eq svc hpooled hvalid
  have hlength := length_downloadOf svc.productKey svc.deviceName msg.payload
  have hpush : pushMsg svcMap pooled msg = some (buildPush svc pooled
      (downloadOf svc.productKey svc.deviceName msg.payload)) := by
    rw [pushMsg, hroute]
    exact congrArg (Option.map _) hregistered
  have hsvc : (buildPush svc pooled
      (downloadOf svc.productKey svc.deviceName msg.payload)).svc = svc := rfl
  generalize buildPush svc pooled (downloadOf svc.productKey svc.deviceName msg.payload) = push
    at herrors hchanged hqos htopic hpayload hpush hsvc
  have hmsglen : push.pmsg.msglen =
      svc.productKey.length + svc.deviceName.length + msg.payload.length + 25 := by
    rw [PublishMessage.msglen, hqos, htopic, hpayload, hlength, if_pos (by decide)]
    change 2 + _ + msg.payload.length + 2 = _
    omega
  constructor
  · rintro ⟨pmsg, hsome, -, packet, decoded, count, hsent, -⟩
    rw [hpush, Option.some.injEq] at hsome
    obtain rfl : push.pmsg = pmsg := congrArg Push.pmsg hsome
    have hencodes := encodes_of_sendData (congrArg Prod.fst hsent)
    rw [PublishMessage.encodes, hchanged.dirty] at hencodes
    simp only [Bool.not_true, Bool.false_or, Bool.and_eq_true, decide_eq_true_eq, htopic,
      hpayload, hlength] at hencodes
    obtain ⟨⟨⟨⟨⟨-, hne⟩, hlp⟩, -⟩, -⟩, hbound⟩ := hencodes
    rw [maxLPString] at hlp
    have hsmall : msg.payload.length < 268435456 := by
      obtain ⟨prefixed, -, hbody⟩ := hparts.body
      have hframe := frame.length_body_lt
      rw [hbody, List.length_append, List.length_append] at hframe
      omega
    rw [hmsglen, int32_of_lt (by omega), maxRemainingLength] at hbound
    refine ⟨?_, hlp, by omega⟩
    rintro hnil
    exact hne (List.length_eq_zero_iff.mpr hnil)
  · rintro ⟨hne, hlp, hsize⟩
    rw [← htopic] at hvalid hlength
    obtain ⟨packet, decoded, count, hsent, hdecode, hsame, hsamePayload⟩ :=
      sendData_publish hchanged hvalid (by rw [hlength, maxLPString]; exact hlp)
        (by rw [hpayload]; exact fun hzero => hne (List.length_eq_zero_iff.mp hzero))
        (by rw [hmsglen]; exact hsize) gPacketId
    refine ⟨push.pmsg, ?_, hqos, packet, decoded, count, hsent, hdecode,
      hsame.trans htopic, hsamePayload.trans hpayload⟩
    rw [hpush, ← hsvc, ← herrors]

/-- PUBLISH of `x` with QoS 1 to the topic `p/d`. -/
def publishToD : Frame := .brief 0x32 [0x00, 0x03, 0x70, 0x2f, 0x64, 0x00, 0x07, 0x78]

/-- The same without a payload. -/
def publishNothingToD : Frame := .brief 0x32 [0x00, 0x03, 0x70, 0x2f, 0x64, 0x00, 0x07]

theorem forwarded_iff_publishToD :
    ∃ msg n, newPublishMessage.decode (Slice.full publishToD.bytes) = .done msg n ∧
      route msg.topic = some (Registry.firstD.productKey, Registry.firstD.deviceName) ∧
      Forwarded Registry.onlyFirstD newPublishMessage msg Registry.firstD 0 := by
  have hread : (newPublishMessage.decode (Slice.full publishToD.bytes)).map
      (fun msg => (msg.topic, msg.payload)) = .done ([0x70, 0x2f, 0x64], [0x78]) 10 := by
    decide +kernel
  obtain ⟨msg, hdone, hmsg⟩ := Outcome.map_eq_done_iff.mp hread
  obtain ⟨htopic, hpayload⟩ := Prod.mk.inj hmsg
  have hroute : route msg.topic =
      some (Registry.firstD.productKey, Registry.firstD.deviceName) := by
    rw [htopic]
    decide +kernel
  refine ⟨msg, 10, hdone, hroute, ?_⟩
  apply (forwarded_iff hdone hroute (if_pos rfl) rfl 0).mpr
  rw [hpayload]
  decide +kernel

theorem nothing_not_forwarded :
    ∃ msg n, newPublishMessage.decode (Slice.full publishNothingToD.bytes) = .done msg n ∧
      msg.qos = 1 ∧
      (pushMsg Registry.onlyFirstD newPublishMessage msg).map (fun push => (push.svc, push.errors)) =
        some (Registry.firstD, []) ∧
      (pushMsg Registry.onlyFirstD newPublishMessage msg).map
          (fun push => sendData (.publish push.pmsg) 0) =
        some (.returned (some (.errorf "publish/Encode: Payload is empty." [])), []) ∧
      ¬ Forwarded Registry.onlyFirstD newPublishMessage msg Registry.firstD 0 := by
  have hread : (newPublishMessage.decode (Slice.full publishNothingToD.bytes)).map
      (fun msg => (msg.qos, (pushMsg Registry.onlyFirstD newPublishMessage msg).map
        fun push => (push.svc, push.errors))) = .done (1, some (Registry.firstD, [])) 9 := by
    decide +kernel
  have hsend : (newPublishMessage.decode (Slice.full publishNothingToD.bytes)).map
      (fun msg => (pushMsg Registry.onlyFirstD newPublishMessage msg).map
        fun push => sendData (.publish push.pmsg) 0) =
      .done (some (.returned (some (.errorf "publish/Encode: Payload is empty." [])), [])) 9 := by
    decide +kernel
  obtain ⟨msg, hdone, hmsg⟩ := Outcome.map_eq_done_iff.mp hread
  obtain ⟨hqos, hpush⟩ := Prod.mk.inj hmsg
  rw [hdone, Outcome.map_done] at hsend
  injection hsend with hsent
  refine ⟨msg, 9, hdone, hqos, hpush, hsent, ?_⟩
  rintro ⟨pmsg, hsome, -, packet, decoded, n, hforwarded, -⟩
  rw [hsome, Option.map_some, hforwarded] at hsent
  simp at hsent

end Xmqtt.Service
