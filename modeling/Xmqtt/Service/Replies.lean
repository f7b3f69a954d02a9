import Xmqtt.Service.SendData

/-!
# Replies

Which packets a service answers a message with, and when they are the ones that
the handshakes of the protocol ask for.
-/

namespace Xmqtt.Service

open Xmqtt.Go Xmqtt.Message Xmqtt.Sessions

/-! ## Decoded messages -/

/-- A message that the receive loop has decoded. -/
def Decoded (msg : Xmqtt.Message) : Prop :=
  ∃ (frame : Frame) (fresh : Xmqtt.Message) (n : ℕ), frame.mtype.new = .ok fresh ∧
    fresh.decode (Slice.full frame.bytes) = .done msg n

namespace Decoded

theorem publish {this : PublishMessage} (hdecoded : Decoded (.publish this)) :
    ∃ (frame : Frame) (n : ℕ),
      newPublishMessage.decode (Slice.full frame.bytes) = .done this n := by
  obtain ⟨frame, fresh, n, hnew, hdone⟩ := hdecoded
  cases hmtype : frame.mtype <;> rw [hmtype] at hnew <;> cases hnew <;>
    obtain ⟨decoded, hdecode, hthis⟩ := Outcome.map_eq_done_iff.mp hdone <;> cases hthis
  exact ⟨frame, n, hdecode⟩

theorem subscribe {this : SubscribeMessage} (hdecoded : Decoded (.subscribe this)) :
    ∃ (frame : Frame) (n : ℕ),
      newSubscribeMessage.decode (Slice.full frame.bytes) = .done this n := by
  obtain ⟨frame, fresh, n, hnew, hdone⟩ := hdecoded
  cases hmtype : frame.mtype <;> rw [hmtype] at hnew <;> cases hnew <;>
    obtain ⟨decoded, hdecode, hthis⟩ := Outcome.map_eq_done_iff.mp hdone <;> cases hthis
  exact ⟨frame, n, hdecode⟩

theorem ack {mtype : MessageType} {wrap : PubackMessage → Xmqtt.Message}
    (hkind : AckKind mtype wrap) {this : PubackMessage} (hdecoded : Decoded (wrap this)) :
    this.Made mtype := by
  obtain ⟨frame, fresh, n, hnew, hdone⟩ := hdecoded
  cases hmtype : frame.mtype <;> rw [hmtype] at hnew <;> cases hnew <;>
    obtain ⟨decoded, hdecode, hthis⟩ := Outcome.map_eq_done_iff.mp hdone <;> cases hkind <;>
    cases hthis <;> exact .decode hdecode

/-- There is a QoS for every topic, and a SUBACK has room for all of them. -/
theorem length_qos {this : SubscribeMessage} (hdecoded : Decoded (.subscribe this)) :
    this.topics.length = this.qos.length ∧ 2 + this.qos.length ≤ 268435455 := by
  obtain ⟨frame, n, hdone⟩ := hdecoded.subscribe
  obtain ⟨header, hn, hheader, hrest⟩ := Outcome.map_andThen_eq_done_iff.mp hdone
  obtain ⟨-, -, -, rfl, rfl⟩ := frame.decode_header_eq_done hheader
  obtain ⟨header, total, hheader, hrest⟩ := Outcome.map_andThen_eq_done_iff.mp hrest
  obtain ⟨id, after, hbody, hid, rfl, rfl⟩ :=
    Header.readPacketId_eq_done frame.tail_full hheader
  obtain ⟨last, count, htopics, hlast⟩ := Outcome.andThen_eq_done_iff.mp hrest
  obtain ⟨hsame, hle⟩ := SubscribeMessage.length_of_decodeTopics rfl htopics
  have hthis : this.topics = last.topics ∧ this.qos = last.qos := by
    split_ifs at hlast
    injection hlast with hthis
    rw [← hthis]
    exact ⟨rfl, rfl⟩
  rw [hthis.1, hthis.2]
  have hframe := frame.length_body_lt
  have hlength : frame.body.length = 2 + after.length := by
    rw [hbody, List.length_append, hid]
  have hrounds : last.qos.length ≤ 0 + ((frame.body.length : ℤ) -
      (((frame.headerLength + 2 : ℕ) : ℤ) - frame.headerLength)).toNat := hle
  exact ⟨hsame, by omega⟩

end Decoded

/-! ## Queues on which nothing waits -/

/-- The calls other than `Wait`. -/
def NoWait : Ackqueue.Call → Prop
  | .wait .. => False
  | _ => True

section Untouched

variable (size : Int64) (t : String)

/-- An ack finds no entry. -/
theorem ack_newAckqueue (msg : Xmqtt.Message) (gPacketId : UInt64) (choice : ℕ) :
    (newAckqueue size t).ack msg gPacketId choice =
      (newAckqueue size t, .returned
        (if Ackqueue.acksEntry msg.type ∨ msg.type = .pingresp then none
          else some errAckMessage)) := by
  rw [Ackqueue.ack]
  by_cases hacks : Ackqueue.acksEntry msg.type = true
  · rw [if_pos hacks, if_pos (Or.inl hacks)]
    rfl
  · rw [if_neg hacks]
    by_cases hping : msg.type = .pingresp
    · rw [if_pos hping, if_pos (Or.inr hping)]
      rfl
    · rw [if_neg hping, if_neg (not_or.mpr ⟨hacks, hping⟩)]

theorem acked_newAckqueue : (newAckqueue size t).acked = (newAckqueue size t, .acked []) :=
  rfl

theorem processAcked_newAckqueue :
    processAcked (newAckqueue size t) = some (newAckqueue size t, []) := by
  rw [processAcked, acked_newAckqueue]
  rfl

/-- A queue on which nobody calls `Wait` stays as it was made. -/
theorem after_newAckqueue {calls : List Ackqueue.Call} (hcalls : ∀ call ∈ calls, NoWait call) :
    (newAckqueue size t).after calls = newAckqueue size t := by
  induction calls with
  | nil => rfl
  | cons call calls ih =>
      have hrest := ih fun other hother => hcalls other (List.mem_cons_of_mem _ hother)
      have hcall := hcalls call List.mem_cons_self
      have hstep : ((newAckqueue size t).step call).1 = newAckqueue size t := by
        cases call with
        | wait msg onComplete gPacketId choice now => exact hcall.elim
        | ack msg gPacketId choice =>
            rw [Ackqueue.step, ack_newAckqueue]
        | acked => rfl
        | tick now => rfl
      rw [Ackqueue.after, List.foldl_cons, hstep]
      exact hrest

end Untouched

/-! ## Live connections -/

/-- The payload of a message from `MsgChan`, in a message that `sendData` has accepted. -/
theorem pushable_of_decoded {upload pm : PublishMessage} (hdecoded : Decoded (.publish upload))
    (hpayload : pm.payload = upload.payload) (hdirty : pm.dirty = true)
    (hencodes : pm.encodes = true) : Pushable pm := by
  obtain ⟨frame, n, hdone⟩ := hdecoded.publish
  have hbody := congrArg List.length (PublishMessage.mirrors_of_decode hdone).body
  have hframe := frame.length_body_lt
  rw [List.length_append, List.length_append] at hbody
  have hable : pm.Encodable (List.replicate pm.len.2 0) :=
    (PublishMessage.encodes_iff_encodable hdirty List.length_replicate.ge).mp hencodes
  refine ⟨hable.lpTopic, ?_⟩
  rw [hpayload]
  omega

/-- The session of a live connection: `Pub1ack` has come about by calls of several goroutines
and its receiver is through with the entries that it has taken before.  Nobody has called
`Wait` on another queue. -/
structure Receiver.Live (receiver : Receiver) : Prop where
  pub1ack : ∃ labels last, (∀ label ∈ labels, Admitted Pushable label) ∧
    Core.run InFlight.step .new labels = some last ∧ last.taken = [] ∧
    receiver.queues .pub1ack = last.queue
  others : ∀ name ≠ .pub1ack, ∃ calls, (∀ call ∈ calls, NoWait call) ∧
    receiver.queues name = (newAckqueue 16 name.text).after calls

/-- Entries that carry their messages are processed to the end, and each calls its
`onComplete` with its own packet id. -/
theorem processEntries_of_standFor {fits : PublishMessage → Prop}
    (hfits : ∀ pm, fits pm → pm.msglen < 4294967296) {bp : BytesPool} {taken : List AckMsg}
    {given : List Pending} (hstand : StandFor fits bp taken given) :
    ∃ next completed, processEntries taken bp = some (next, completed) ∧
      completed.map (fun call => call.msg.packetId) =
        (given.filter Pending.onComplete).map Pending.pktid := by
  induction taken generalizing bp given with
  | nil =>
      have hnil : given = [] := List.forall₂_nil_left_iff.mp hstand.carry
      exact ⟨bp, [], rfl, by rw [hnil]; rfl⟩
  | cons ackmsg rest ih =>
      obtain ⟨first, others, hcarries, -, rfl⟩ :=
        List.forall₂_cons_left_iff.mp hstand.carry
      obtain ⟨pm, decoded, ack, hmsg, hread, hcontent, -⟩ :=
        hcarries.processEntry_eq hfits (hstand.completed ackmsg List.mem_cons_self)
      have hbytes : ∀ bs, ((bp.put ackmsg.ackbuf).put ackmsg.msgbuf).bytes bs = bp.bytes bs :=
        fun bs => by rw [BytesPool.bytes_put, BytesPool.bytes_put]
      obtain ⟨hcarry, hbare, hcompleted⟩ := hstand.tail
      have hput : StandFor fits ((bp.put ackmsg.ackbuf).put ackmsg.msgbuf) rest others :=
        ⟨hcarry.of_bytes_eq fun bs _ => hbytes bs, hbare, hcompleted⟩
      obtain ⟨next, completed, hrest, hids⟩ := ih hput
      have hregistered : ackmsg.onComplete = first.onComplete := by
        have hhead := hstand.bare
        injection hhead with hhead
        exact congrArg AckMsg.onComplete hhead
      have hid : (Xmqtt.Message.publish decoded).packetId = first.pktid := by
        rw [Pending.pktid, hmsg]
        exact congrArg PublishMessage.Content.packetId hcontent
      rw [processEntries, hread]
      simp only [assertsPublish, if_true, hrest, Option.map_some]
      refine ⟨_, _, rfl, ?_⟩
      rw [hregistered, List.filter_cons]
      split_ifs
      · rw [List.map_cons, List.map_cons, hids, hid]
      · exact hids

theorem acked_of_inFlight {state next : InFlight} (hacked : state.acked = some next) :
    state.queue.acked = (next.queue, .acked next.taken) := by
  rw [InFlight.acked] at hacked
  split_ifs at hacked
  split at hacked
  · next queue ackdone hqueue =>
      injection hacked with hnext
      rw [hqueue, ← hnext]
  · cases hacked

theorem processAcked_of_sound {fits : PublishMessage → Prop}
    (hfits : ∀ pm, fits pm → pm.msglen < 4294967296) {backlog : Backlog} {state : InFlight}
    (hsound : Sound fits backlog state) (htaken : state.taken = []) :
    ∃ after completed, processAcked state.queue = some (after, completed) ∧
      completed.map (fun call => call.msg.packetId) =
        ((state.fifo.pending.takeWhile Pending.completed).filter Pending.onComplete).map
          Pending.pktid := by
  obtain ⟨next, hnext, hphase, hgiven, hsoundNext⟩ := hsound.acked htaken
  have hstand := hsoundNext.taken
  rw [hphase, hgiven, ← hsoundNext.represents.bytesPool_eq] at hstand
  obtain ⟨bp, completed, hcompleted, hids⟩ := processEntries_of_standFor hfits hstand
  rw [processAcked, acked_of_inFlight hnext]
  exact ⟨_, completed, congrArg (Option.map _) hcompleted, hids⟩

/-- What the branch for a PUBACK does with `Pub1ack`. -/
theorem Receiver.Live.puback {receiver : Receiver} (hlive : receiver.Live)
    {this : PubackMessage} (hmade : this.Made .puback) (env : Ambient) :
    ∃ queue result, (receiver.queues .pub1ack).ack (.puback this) env.gPacketId env.choice =
        (queue, .returned none) ∧ Service.processAcked queue = some result := by
  obtain ⟨labels, last, hadmitted, hrun, htaken, hqueue⟩ := hlive.pub1ack
  obtain ⟨backlog, hsound⟩ := isSound_of_run hadmitted hrun
  have hreturned := hsound.ack_returned .puback hmade env.gPacketId env.choice
  have hacked := hsound.ack .puback hmade env.gPacketId env.choice
  obtain ⟨after, completed, hresult, -⟩ :=
    processAcked_of_sound (fun _ => Pushable.msglen_lt) hacked htaken
  rw [hqueue]
  exact ⟨_, _, Prod.ext rfl hreturned, hresult⟩

/-! ## The reply law -/

/-- The packets that the protocol asks for. -/
def replies : Xmqtt.Message → List Bytes
  | .publish this =>
      if this.qos = 1 then [ackPacket 0x40 this.packetIdValue]
      else if this.qos = 2 then [ackPacket 0x50 this.packetIdValue]
      else []
  | .pubrec this => [ackPacket 0x62 this.packetIdValue]
  | .pubrel this => [ackPacket 0x70 this.packetIdValue]
  | .subscribe this =>
      [subackPacket this.packetIdValue ((this.topics.zip this.qos).map Prod.snd)]
  | .unsubscribe this => [ackPacket 0xb0 this.packetIdValue]
  | .pingreq _ => [[0xd0, 0x00]]
  | _ => []

/-- The messages that must not end the connection: all but CONNECT, CONNACK and DISCONNECT,
with valid QoS values. -/
def Proper : Xmqtt.Message → Prop
  | .publish this => validQos this.qos = true
  | .subscribe this => ∀ qos ∈ this.qos, validQos qos = true
  | .connect _ | .connack _ | .disconnect _ => False
  | _ => True

/-- Exactly the packets that the protocol asks for are sent, and no proper message makes
`processIncoming` return an error or panic. -/
def Lawful (handled : Handled) (msg : Xmqtt.Message) : Prop :=
  handled.sent = replies msg ∧ (Proper msg → handled.ending = .returned none)

/-- The messages that are answered as the protocol asks for. -/
def Answerable : Xmqtt.Message → Prop
  | .publish this =>
      if this.topic = heartbeatTopic then atoi this.payload ≠ none ∧ this.qos ≠ 2
      else this.qos = 1
  | .subscribe this => ∀ code ∈ this.qos, ReturnCode code
  | _ => True

section Branches

variable {receiver : Receiver} (env : Ambient)

/-- A branch that sends the acknowledgement of a message. -/
theorem lawful_send {mtype : MessageType} {wrap : PubackMessage → Xmqtt.Message}
    (hkind : AckKind mtype wrap) {msg : Xmqtt.Message} {header : Header} {handled : Handled}
    (hreply : replies msg = [ackPacket (newHeader mtype).mtypeflags header.packetIdValue])
    (hsent : handled.sent =
      (sendData (wrap (PubackMessage.setPacketId ⟨newHeader mtype⟩ (idOf header)))
        env.gPacketId).2)
    (hending : handled.ending =
      (sendData (wrap (PubackMessage.setPacketId ⟨newHeader mtype⟩ (idOf header)))
        env.gPacketId).1) : Lawful handled msg := by
  rw [sendData_ack env.gPacketId hkind, idOf_toNat] at hsent hending
  exact ⟨hsent.trans hreply.symm, fun _ => hending⟩

/-- A branch that returns an error. -/
theorem not_lawful_of_error {msg : Xmqtt.Message} {handled : Handled} (hproper : Proper msg)
    {err : Err} (hending : handled.ending = .returned (some err)) : ¬Lawful handled msg := by
  intro hlawful
  rw [hlawful.2 hproper] at hending
  cases hending

theorem lawful_heartbeat_iff {this : PublishMessage} {seconds : ℤ}
    (haction : Service.processPublish receiver.service this =
      .updateHeartbeat seconds (this.qos == qosAtLeastOnce)) :
    Lawful (receiver.processPublish env this) (.publish this) ↔ this.qos ≠ 2 := by
  rw [Receiver.processPublish, haction]
  by_cases hone : this.qos = 1
  · have hreply : (this.qos == qosAtLeastOnce) = true := by
      rw [hone]
      rfl
    rw [hreply]
    refine iff_of_true ?_ (by rw [hone]; decide)
    exact lawful_send env .puback (if_pos hone) rfl rfl
  · have hreply : (this.qos == qosAtLeastOnce) = false := beq_false_of_ne hone
    rw [hreply]
    constructor
    · rintro ⟨hsent, -⟩ htwo
      rw [replies, if_neg hone, if_pos htwo] at hsent
      cases hsent
    · intro htwo
      refine ⟨?_, fun _ => rfl⟩
      rw [replies, if_neg hone, if_neg htwo]
      rfl

theorem lawful_publish_iff {this : PublishMessage} (hqos : validQos this.qos = true) :
    Lawful (receiver.processPublish env this) (.publish this) ↔
      Answerable (.publish this) := by
  have hproper : Proper (.publish this) := hqos
  rw [Answerable]
  by_cases htopic : this.topic = heartbeatTopic
  · rw [if_pos htopic]
    cases hatoi : atoi this.payload with
    | none =>
        refine iff_of_false ?_ (fun hanswer => hanswer.1 rfl)
        apply not_lawful_of_error hproper
        simp only [Receiver.processPublish, Service.processPublish, if_pos htopic, hatoi]
        rfl
    | some heartbeat =>
        obtain ⟨seconds, haction⟩ : ∃ seconds, Service.processPublish receiver.service this =
            .updateHeartbeat seconds (this.qos == qosAtLeastOnce) :=
          ⟨_, by rw [Service.processPublish, if_pos htopic, hatoi]⟩
        rw [lawful_heartbeat_iff env haction]
        simp
  · rw [if_neg htopic]
    by_cases hone : this.qos = qosAtLeastOnce
    · refine iff_of_true ?_ hone
      have haction : Service.processPublish receiver.service this = .acknowledge := by
        rw [Service.processPublish, if_neg htopic, if_pos hone]
      have hending : (receiver.send env (.puback (newPubackMessage.setPacketId
          (idOf this.toHeader)))).ending = .returned none := by
        rw [Receiver.send]
        exact congrArg Prod.fst (sendData_ack env.gPacketId .puback (idOf this.toHeader))
      rw [Receiver.processPublish, haction]
      simp only [hending, if_true]
      exact lawful_send env .puback (if_pos hone) rfl hending.symm
    · refine iff_of_false ?_ hone
      apply not_lawful_of_error hproper
      rw [Receiver.processPublish, Service.processPublish, if_neg htopic, if_neg hone]
      rfl

theorem retcodes_of_length {topics : List Bytes} {qos : Bytes}
    (hlength : topics.length = qos.length) : retcodes topics qos = some qos := by
  induction topics generalizing qos with
  | nil => rw [List.length_eq_zero_iff.mp hlength.symm, retcodes]
  | cons topic topics ih =>
      cases qos with
      | nil => cases hlength
      | cons code qos =>
          rw [retcodes, ih (Nat.succ.inj hlength)]
          rfl

theorem lawful_subscribe_iff {this : SubscribeMessage}
    (hdecoded : Decoded (.subscribe this)) :
    Lawful (receiver.processSubscribe env this) (.subscribe this) ↔
      Answerable (.subscribe this) := by
  obtain ⟨hlength, hshort⟩ := hdecoded.length_qos
  have hreply : replies (.subscribe this) = [subackPacket this.packetIdValue this.qos] := by
    rw [replies, List.map_snd_zip hlength.ge]
  have hretcodes := retcodes_of_length hlength
  rw [Answerable]
  by_cases hcodes : ∀ code ∈ this.qos, ReturnCode code
  · have hbranch : receiver.processSubscribe env this = receiver.send env (.suback
        ((newSubackMessage.setPacketId (idOf this.toHeader)).addReturnCodes this.qos).1) := by
      simp only [Receiver.processSubscribe, hretcodes, addReturnCodes_of_forall hcodes]
    have hsent := sendData_subscribed env.gPacketId (idOf this.toHeader) hcodes hshort
    rw [idOf_toNat] at hsent
    rw [hbranch]
    refine iff_of_true ⟨?_, fun _ => ?_⟩ hcodes
    · exact (congrArg Prod.snd hsent).trans hreply.symm
    · exact congrArg Prod.fst hsent
  · obtain ⟨resp, err, hadded⟩ :=
      addReturnCodes_of_not hcodes (newSubackMessage.setPacketId (idOf this.toHeader))
    have hbranch : receiver.processSubscribe env this =
        receiver.ended (.returned (some err)) := by
      simp only [Receiver.processSubscribe, hretcodes, hadded]
    refine iff_of_false ?_ hcodes
    rintro ⟨hsent, -⟩
    rw [hbranch, hreply] at hsent
    cases hsent

theorem sendData_pingresp (gPacketId : UInt64) :
    sendData (.pingresp newPingrespMessage) gPacketId = (.returned none, [[0xd0, 0x00]]) :=
  rfl

/-- A queue on which nothing waits takes an ack and stays as it is. -/
theorem ack_untouched (hlive : receiver.Live) {name : QueueName} (hname : name ≠ .pub1ack)
    {msg : Xmqtt.Message} {breaks : Bool}
    (hacks : breaks = true → Ackqueue.acksEntry msg.type = true) (next : Receiver → Handled) :
    receiver.ack env name msg breaks next =
      next (receiver.setQueue name (newAckqueue 16 name.text)) := by
  obtain ⟨calls, hcalls, hqueue⟩ := hlive.others name hname
  rw [after_newAckqueue 16 name.text hcalls] at hqueue
  rw [Receiver.ack, hqueue, ack_newAckqueue]
  cases breaks with
  | false => rfl
  | true =>
      rw [if_pos (Or.inl (hacks rfl))]
      rfl

theorem processAcked_untouched (receiver : Receiver) (name : QueueName)
    (next : Receiver → Handled) :
    ∃ again, (receiver.setQueue name (newAckqueue 16 name.text)).processAcked name next =
      { next again with completed := [] } := by
  rw [Receiver.processAcked, Receiver.queues_setQueue, processAcked_newAckqueue]
  exact ⟨_, rfl⟩

/-- The branches for an ack that is answered with nothing. -/
theorem lawful_silent (hlive : receiver.Live) {name : QueueName} (hname : name ≠ .pub1ack)
    {msg : Xmqtt.Message} {breaks : Bool}
    (hacks : breaks = true → Ackqueue.acksEntry msg.type = true) (hreply : replies msg = []) :
    Lawful (receiver.ack env name msg breaks fun receiver =>
      receiver.processAcked name fun receiver => receiver.ended (.returned none)) msg := by
  rw [ack_untouched env hlive hname hacks]
  obtain ⟨again, hagain⟩ := processAcked_untouched receiver name
    fun receiver => receiver.ended (.returned none)
  rw [hagain]
  exact ⟨hreply.symm, fun _ => rfl⟩

theorem acksEntry_type {mtype : MessageType} {wrap : PubackMessage → Xmqtt.Message}
    (hkind : AckKind mtype wrap) {this : PubackMessage} (hmade : this.Made mtype) :
    Ackqueue.acksEntry (wrap this).type = true := by
  rw [hkind.type hmade]
  cases hkind <;> rfl

theorem lawful_puback (hlive : receiver.Live) {this : PubackMessage}
    (hmade : this.Made .puback) :
    Lawful (receiver.processIncoming env (.puback this)) (.puback this) := by
  obtain ⟨queue, result, hack, hacked⟩ := hlive.puback hmade env
  rw [Receiver.processIncoming, Receiver.ack, hack]
  simp only [Bool.false_and, Bool.false_eq_true, if_false]
  rw [Receiver.processAcked, Receiver.queues_setQueue, hacked]
  exact ⟨rfl, fun _ => rfl⟩

end Branches

/-- On a live connection exactly the answerable messages are answered as the protocol asks
for. -/
theorem lawful_iff {receiver : Receiver} (hlive : receiver.Live) {msg : Xmqtt.Message}
    (hdecoded : Decoded msg) (env : Ambient) :
    Lawful (receiver.processIncoming env msg) msg ↔ Answerable msg := by
  cases msg with
  | publish this =>
      obtain ⟨frame, n, hdone⟩ := hdecoded.publish
      exact lawful_publish_iff env (PublishMessage.mirrors_of_decode hdone).qos
  | subscribe this => exact lawful_subscribe_iff env hdecoded
  | puback this => exact iff_of_true (lawful_puback env hlive (hdecoded.ack .puback)) trivial
  | pubrec this =>
      have hacks := acksEntry_type .pubrec (hdecoded.ack .pubrec)
      refine iff_of_true ?_ trivial
      rw [Receiver.processIncoming, ack_untouched env hlive (by decide) fun _ => hacks]
      exact lawful_send env .pubrel rfl rfl rfl
  | pubrel this =>
      have hacks := acksEntry_type .pubrel (hdecoded.ack .pubrel)
      refine iff_of_true ?_ trivial
      rw [Receiver.processIncoming, ack_untouched env hlive (by decide) fun _ => hacks]
      obtain ⟨again, hagain⟩ := processAcked_untouched receiver .pub2in
        fun receiver => receiver.send env
          (.pubcomp (newPubcompMessage.setPacketId (idOf this.toHeader)))
      rw [hagain]
      exact lawful_send env .pubcomp rfl rfl rfl
  | pubcomp this =>
      have hacks := acksEntry_type .pubcomp (hdecoded.ack .pubcomp)
      exact iff_of_true (lawful_silent env hlive (by decide) (fun _ => hacks) rfl) trivial
  | suback this | unsuback this | pingresp this =>
      exact iff_of_true (lawful_silent env hlive (by decide) nofun rfl) trivial
  | unsubscribe this => exact iff_of_true (lawful_send env .unsuback rfl rfl rfl) trivial
  | pingreq this =>
      have hsent := sendData_pingresp env.gPacketId
      exact iff_of_true ⟨congrArg Prod.snd hsent, fun _ => congrArg Prod.fst hsent⟩ trivial
  | disconnect this | connect this | connack this => exact iff_of_true ⟨rfl, nofun⟩ trivial

/-- The receiver of a new session. -/
def newReceiver (service : ServiceRef) (cmsg : ConnectMessage) : Receiver :=
  ⟨service, cmsg, fun name => newAckqueue 16 name.text⟩

theorem queues_newReceiver (service : ServiceRef) (cmsg : ConnectMessage) (name : QueueName) :
    (newReceiver service cmsg).queues name = newAckqueue 16 name.text := rfl

theorem live_newReceiver (service : ServiceRef) (cmsg : ConnectMessage) :
    (newReceiver service cmsg).Live where
  pub1ack := ⟨[], .new, List.forall_mem_nil _, rfl, rfl,
    queues_newReceiver service cmsg .pub1ack⟩
  others := fun name _ => ⟨[], List.forall_mem_nil _, queues_newReceiver service cmsg name⟩

/-- PUBLISH with the topic "a", the payload "x" and the given QoS, with the packet id 7 where
there is one. -/
def publishX (qos : Fin 3) : Frame :=
  .brief (if qos = 0 then 0x30 else if qos = 1 then 0x32 else 0x34)
    ([0x00, 0x01, 0x61] ++ (if qos = 0 then [] else [0x00, 0x07]) ++ [0x78])

/-- What `Decode` makes of it. -/
def decodedX (qos : Fin 3) : PublishMessage :=
  { newPublishMessage with
    remlen := (publishX qos).body.length
    dbuf := Slice.full (publishX qos).bytes
    mtypeflags := (publishX qos).first
    flagsInDbuf := true
    packetId := if qos = 0 then [] else [0x00, 0x07]
    packetIdAt := if qos = 0 then none else some 5
    dirty := false
    topic := textBytes "a"
    payload := textBytes "x" }

theorem decoded_decodedX (qos : Fin 3) : Decoded (.publish (decodedX qos)) := by
  refine ⟨publishX qos, .publish newPublishMessage, (publishX qos).bytes.length, ?_, ?_⟩
  · revert qos
    decide +kernel
  · revert qos
    decide +kernel

/-- A device with a new session. -/
def receiverOfD : Receiver :=
  newReceiver ⟨0, textBytes "p", textBytes "d"⟩ newConnectMessage

/-- A QoS 1 message is answered with its PUBACK. -/
theorem lawful_iff_qos1 :
    (receiverOfD.processIncoming ⟨0, 0⟩ (.publish (decodedX 1))).sent =
        [[0x40, 0x02, 0x00, 0x07]] ∧
      Lawful (receiverOfD.processIncoming ⟨0, 0⟩ (.publish (decodedX 1)))
        (.publish (decodedX 1)) := by
  refine ⟨by decide +kernel, ?_⟩
  apply (lawful_iff (live_newReceiver _ _) (decoded_decodedX 1) ⟨0, 0⟩).mpr
  rw [Answerable]
  decide +kernel

/-- A QoS 0 message makes `processIncoming` return an error, and so does one with QoS 2,
which is not answered with a PUBREC. -/
theorem refused_with_qos0_and_qos2 :
    receiverOfD.Live ∧ ∀ qos : Fin 3, qos ≠ 1 →
      Decoded (.publish (decodedX qos)) ∧
      (receiverOfD.processIncoming ⟨0, 0⟩ (.publish (decodedX qos))).sent = [] ∧
      (receiverOfD.processIncoming ⟨0, 0⟩ (.publish (decodedX qos))).ending =
        .returned (some (.errorf "productKey %s deviceName %s invalid message QoS %d."
          [.text (textBytes "p"), .text (textBytes "d"), .int qos.val])) ∧
      ¬Lawful (receiverOfD.processIncoming ⟨0, 0⟩ (.publish (decodedX qos)))
        (.publish (decodedX qos)) := by
  refine ⟨live_newReceiver _ _, fun qos hqos => ?_⟩
  have hending : (receiverOfD.processIncoming ⟨0, 0⟩ (.publish (decodedX qos))).ending =
      .returned (some (.errorf "productKey %s deviceName %s invalid message QoS %d."
        [.text (textBytes "p"), .text (textBytes "d"), .int qos.val])) := by
    revert qos
    decide +kernel
  have hsent : (receiverOfD.processIncoming ⟨0, 0⟩ (.publish (decodedX qos))).sent = [] := by
    clear hending
    revert qos
    decide +kernel
  obtain ⟨frame, n, hdone⟩ := (decoded_decodedX qos).publish
  have hproper : Proper (.publish (decodedX qos)) := (PublishMessage.mirrors_of_decode hdone).qos
  exact ⟨decoded_decodedX qos, hsent, hending, not_lawful_of_error hproper hending⟩

end Xmqtt.Service
