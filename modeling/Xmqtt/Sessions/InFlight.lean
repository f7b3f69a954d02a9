import Xmqtt.Sessions.Fifo

/-!
# Entries in flight

The receiver takes the completed entries from the queue and, outside the mutex,
decodes the message and the ack of each one and puts both buffers back into the
pool.  Meanwhile other goroutines call `Wait` and the queue's own goroutine
lets entries expire.
-/

namespace Xmqtt.Sessions

open Xmqtt.Go Xmqtt.Message

/-- What `processAcked` makes of an entry. -/
inductive Reading where
  | read (msg ack : Xmqtt.Message)
  | skipped
  | panicked
  deriving DecidableEq, Repr

/-- The contents of a slice, none for `nil`. -/
def BytesPool.contents (bp : BytesPool) (slice : Option BufferRef) : Slice :=
  .full ((slice.map bp.bytes).getD [])

/-- `msg, err := mtype.New()` and `msg.Decode(buf)`. -/
def decodeAs (mtype : MessageType) (buf : Slice) : Reading ⊕ Xmqtt.Message :=
  match mtype.new with
  | .error _ => .inl .skipped
  | .ok msg =>
      match msg.decode buf with
      | .done msg _ => .inr msg
      | .fail _ _ _ => .inl .skipped
      | .panic => .inl .panicked

/-- One round of the loop in `processAcked`, up to the call of `onComplete`. -/
def processEntry (bp : BytesPool) (ackmsg : AckMsg) : Reading :=
  match decodeAs ackmsg.mtype (bp.contents ackmsg.msgbuf) with
  | .inl reading => reading
  | .inr msg =>
      match decodeAs ackmsg.state (bp.contents ackmsg.ackbuf) with
      | .inl reading => reading
      | .inr ack =>
          if Ackqueue.completes ackmsg.state || ackmsg.state == .pingresp then .read msg ack
          else .skipped

theorem decodeAs_publish {bp : BytesPool} {slice : Option BufferRef} {bs : BufferRef}
    (hslice : slice = some bs) {decoded : PublishMessage} {n : ℕ}
    (hdecode : newPublishMessage.decode (.full (bp.bytes bs)) = .done decoded n) :
    decodeAs .publish (bp.contents slice) = .inr (.publish decoded) := by
  have hnew : MessageType.publish.new = .ok (.publish newPublishMessage) := rfl
  rw [hslice, BytesPool.contents, Option.map_some, Option.getD_some, decodeAs, hnew]
  simp only [Message.decode, hdecode, Outcome.map_done]

theorem decodeAs_ack {bp : BytesPool} {slice : Option BufferRef} {bs : BufferRef}
    (hslice : slice = some bs) {mtype : MessageType} {wrap : PubackMessage → Xmqtt.Message}
    (hkind : AckKind mtype wrap) {decoded : PubackMessage} {n : ℕ}
    (hdecode : PubackMessage.decode ⟨newHeader mtype⟩ (.full (bp.bytes bs)) =
      .done decoded n) :
    decodeAs mtype (bp.contents slice) = .inr (wrap decoded) := by
  rw [hslice, BytesPool.contents, Option.map_some, Option.getD_some, decodeAs, hkind.new]
  simp only [hkind.decode, hdecode, Outcome.map_done]

theorem decodeAs_ne_read (mtype : MessageType) (buf : Slice) (msg ack : Xmqtt.Message) :
    decodeAs mtype buf ≠ .inl (.read msg ack) := by
  intro hdecode
  rw [decodeAs] at hdecode
  split at hdecode
  · cases hdecode
  · split at hdecode <;> cases hdecode

/-- Both buffers of an entry that is read are decoded. -/
theorem decodeAs_of_read {bp : BytesPool} {ackmsg : AckMsg} {msg ack : Xmqtt.Message}
    (hread : processEntry bp ackmsg = .read msg ack) :
    decodeAs ackmsg.mtype (bp.contents ackmsg.msgbuf) = .inr msg ∧
      decodeAs ackmsg.state (bp.contents ackmsg.ackbuf) = .inr ack := by
  rw [processEntry] at hread
  split at hread
  · next reading hmsg => exact absurd (hread ▸ hmsg) (decodeAs_ne_read _ _ _ _)
  · next decoded hmsg =>
      split at hread
      · next reading hack => exact absurd (hread ▸ hack) (decodeAs_ne_read _ _ _ _)
      · next reply hack =>
          split_ifs at hread
          injection hread with hdecoded hreply
          rw [hmsg, hack, hdecoded, hreply]
          exact ⟨rfl, rfl⟩

/-- What the loop does next with the entry in front. -/
inductive Phase where
  | decoding
  | puttingAckbuf
  | puttingMsgbuf
  deriving DecidableEq, Repr

/-- The `Pub1ack` queue of a session and the entries that its receiver has taken from it.
`fifo` and `given` record what happened: the abstract queue, and the pending messages
that the taken entries stand for. -/
structure InFlight where
  queue : Ackqueue
  taken : List AckMsg
  phase : Phase
  fifo : Fifo
  given : List Pending

inductive InFlightStep where
  | call (call : Ackqueue.Call)
  | process
  | putAckbuf
  | putMsgbuf
  deriving DecidableEq, Repr

namespace InFlight

def withPool (state : InFlight) (bp : BytesPool) : InFlight :=
  { state with queue := { state.queue with bytesPool := bp } }

/-- `Acked` is called by the receiver alone, when it is through with the entries it has
taken before. -/
def acked (state : InFlight) : Option InFlight :=
  if state.taken = [] then
    match state.queue.acked with
    | (queue, .acked ackdone) =>
        some ⟨queue, ackdone, .decoding, state.fifo.step .acked,
          state.fifo.pending.takeWhile Pending.completed⟩
    | (_, .ended _) => none
  else none

def step (state : InFlight) : InFlightStep → Option InFlight
  | .call .acked => state.acked
  | .call call =>
      some { state with queue := (state.queue.step call).1, fifo := state.fifo.step call }
  | .process =>
      match state.phase, state.taken with
      | .decoding, ackmsg :: rest =>
          match processEntry state.queue.bytesPool ackmsg with
          | .read _ _ => some { state with phase := .puttingAckbuf }
          | .skipped => some { state with taken := rest, given := state.given.tail }
          | .panicked => some { state with taken := [], given := [] }
      | _, _ => none
  | .putAckbuf =>
      match state.phase, state.taken with
      | .puttingAckbuf, ackmsg :: _ =>
          some { state.withPool (state.queue.bytesPool.put ackmsg.ackbuf) with
            phase := .puttingMsgbuf }
      | _, _ => none
  | .putMsgbuf =>
      match state.phase, state.taken with
      | .puttingMsgbuf, ackmsg :: rest =>
          some { state.withPool (state.queue.bytesPool.put ackmsg.msgbuf) with
            taken := rest
            phase := .decoding
            given := state.given.tail }
      | _, _ => none

def new : InFlight := ⟨newAckqueue 16 "Pub1ack", [], .decoding, .new, []⟩

end InFlight

/-- What `PushMsg` publishes: a payload that was decoded, under a topic that `Encode`
accepts. -/
def Pushable (pm : PublishMessage) : Prop :=
  pm.topic.length ≤ maxLPString ∧ pm.payload.length ≤ 268435455

theorem Pushable.msglen_lt {pm : PublishMessage} (hpushable : Pushable pm) :
    pm.msglen < 4294967296 := by
  obtain ⟨htopic, hpayload⟩ := hpushable
  rw [maxLPString] at htopic
  rw [PublishMessage.msglen]
  split_ifs <;> omega

/-- The steps of a session: `Pub1ack` is for PUBLISH messages whose packet id is set, and a
SUBACK goes to another queue. -/
def Admitted (fits : PublishMessage → Prop) : InFlightStep → Prop
  | .call (.wait msg _ _ _ _) => ∃ pm : PublishMessage, msg = .publish pm ∧ pm.Made ∧
      pm.packetIdValue ≠ 0 ∧ fits pm
  | .call (.ack msg _ _) => Ackqueue.acksEntry msg.type = false ∨
      ∃ (mtype : MessageType) (wrap : PubackMessage → Xmqtt.Message) (this : PubackMessage),
        AckKind mtype wrap ∧ this.Made mtype ∧ msg = wrap this
  | _ => True

/-! ## Ownership -/

/-- The buffers of an entry. -/
def AckMsg.buffers (am : AckMsg) : List BufferRef := am.msgbuf.toList ++ am.ackbuf.toList

/-- The buffers that the receiver still holds. -/
def held : Phase → List AckMsg → List BufferRef
  | .puttingMsgbuf, ackmsg :: rest => ackmsg.msgbuf.toList ++ rest.flatMap AckMsg.buffers
  | _, taken => taken.flatMap AckMsg.buffers

theorem held_nil (phase : Phase) : held phase [] = [] := by
  cases phase <;> rfl

/-- The buffers in use: by the receiver and by the entries in the ring. -/
def InFlight.inUse (state : InFlight) : List BufferRef :=
  held state.phase state.taken ++ state.queue.waiting.flatMap AckMsg.buffers

@[simp]
theorem BytesPool.bytes_put (bp : BytesPool) (slice : Option BufferRef) (bs : BufferRef) :
    (bp.put slice).bytes bs = bp.bytes bs := by
  cases slice with
  | none => rfl
  | some other =>
      rw [BytesPool.put]
      split_ifs <;> rfl

theorem flatMap_while (goes : AckMsg → Bool) (entries : List AckMsg) :
    entries.flatMap AckMsg.buffers = (entries.takeWhile goes).flatMap AckMsg.buffers ++
      (entries.dropWhile goes).flatMap AckMsg.buffers := by
  rw [← List.flatMap_append, List.takeWhile_append_dropWhile]

namespace BytesPool.Owns

variable {bp : BytesPool} {used : List BufferRef} {entries : List AckMsg} {bs : BufferRef}

/-- The entry that takes an ack owns its buffer from then on, and no longer the one of an
earlier ack. -/
theorem answer {front : List BufferRef} (hnodup : (entries.map AckMsg.pktid).Nodup)
    {entry : AckMsg} (hmem : entry ∈ entries) (state : MessageType)
    (howns : Owns (bs :: (front ++ entries.flatMap AckMsg.buffers)) bp) :
    Owns (front ++
      (Backlog.answer entries entry.pktid state (some bs)).flatMap AckMsg.buffers) bp := by
  obtain ⟨before, behind, rfl⟩ := List.append_of_mem hmem
  have hsame : ∀ others : List AckMsg, entry.pktid ∉ others.map AckMsg.pktid →
      Backlog.answer others entry.pktid state (some bs) = others := by
    intro others hnot
    refine (List.map_congr_left fun other hother => ?_).trans (List.map_id _)
    exact if_neg fun hid => hnot (List.mem_map.mpr ⟨other, hother, hid⟩)
  rw [List.map_append, List.map_cons, List.nodup_middle, List.nodup_cons, List.mem_append,
    not_or] at hnodup
  have hanswer : Backlog.answer (before ++ entry :: behind) entry.pktid state (some bs) =
      before ++ entry.answered state (some bs) :: behind := by
    calc Backlog.answer (before ++ entry :: behind) entry.pktid state (some bs)
        = Backlog.answer before entry.pktid state (some bs) ++ entry.answered state (some bs) ::
            Backlog.answer behind entry.pktid state (some bs) := by simp [Backlog.answer]
      _ = _ := by rw [hsame before hnodup.1.1, hsame behind hnodup.1.2]
  have hbuffers : (entry.answered state (some bs)).buffers = entry.msgbuf.toList ++ [bs] := rfl
  have hleft : Owns (bs :: ((front ++ before.flatMap AckMsg.buffers ++ entry.msgbuf.toList) ++
      behind.flatMap AckMsg.buffers)) bp := by
    apply howns.sublist
    simp only [List.flatMap_append, List.flatMap_cons, AckMsg.buffers, List.append_assoc]
    apply List.Sublist.cons_cons
    apply List.Sublist.append_left
    apply List.Sublist.append_left
    apply List.Sublist.append_left
    exact List.sublist_append_right _ _
  apply hleft.perm
  have hmiddle : front ++ (before ++ entry.answered state (some bs) :: behind).flatMap
      AckMsg.buffers = (front ++ before.flatMap AckMsg.buffers ++ entry.msgbuf.toList) ++
        bs :: behind.flatMap AckMsg.buffers := by
    rw [List.flatMap_append, List.flatMap_cons, hbuffers]
    simp only [List.append_assoc, List.singleton_append]
  rw [hanswer, hmiddle]
  exact List.perm_middle.symm

/-- Entries that leave give their buffers back. -/
theorem release (howns : Owns (entries.flatMap AckMsg.buffers ++ used) bp) :
    Owns used (entries.foldl Backlog.release bp) := by
  induction entries generalizing bp with
  | nil => exact howns
  | cons entry entries ih =>
      rw [List.flatMap_cons, AckMsg.buffers, List.append_assoc, List.append_assoc] at howns
      exact ih howns.putOption.putOption

end BytesPool.Owns

theorem BytesPool.bytes_release (entries : List AckMsg) (bp : BytesPool) (bs : BufferRef) :
    (entries.foldl Backlog.release bp).bytes bs = bp.bytes bs := by
  induction entries generalizing bp with
  | nil => rfl
  | cons entry entries ih =>
      rw [List.foldl_cons, ih, Backlog.release, bytes_put, bytes_put]

/-! ## Contents -/

/-- The entry carries the message: its buffers hold the message and, once there was one,
the latest ack with the same packet id. -/
structure Carries (fits : PublishMessage → Prop) (bp : BytesPool) (entry : AckMsg)
    (msg : Xmqtt.Message) : Prop where
  mtype : entry.mtype = .publish
  message : ∃ pm, msg = .publish pm ∧ pm.Made ∧ pm.qos ≠ 0 ∧ pm.packetIdValue ≠ 0 ∧
    pm.encodes = true ∧ fits pm ∧ entry.pktid = pm.packetIdValue ∧
    ∃ bs gPacketId more, entry.msgbuf = some bs ∧
      bp.bytes bs = pm.stored gPacketId ++ more
  ack : entry.state = .reserved ∨
    ∃ (wrap : PubackMessage → Xmqtt.Message) (this : PubackMessage) (bs : BufferRef)
      (more : Bytes), AckKind entry.state wrap ∧ this.Made entry.state ∧
      this.packetIdValue = entry.pktid ∧ entry.ackbuf = some bs ∧
      bp.bytes bs = this.stored ++ more

namespace Carries

variable {fits : PublishMessage → Prop} {bp next : BytesPool} {entry : AckMsg}
variable {msg : Xmqtt.Message}

/-- What an entry carries depends on its own buffers alone. -/
theorem of_bytes_eq (hcarries : Carries fits bp entry msg)
    (hbytes : ∀ bs ∈ entry.buffers, next.bytes bs = bp.bytes bs) :
    Carries fits next entry msg where
  mtype := hcarries.mtype
  message := by
    obtain ⟨pm, hmsg, hmade, hqos, hid, hencodes, hfits, hpktid, bs, gPacketId, more, hbs,
      hstored⟩ := hcarries.message
    refine ⟨pm, hmsg, hmade, hqos, hid, hencodes, hfits, hpktid, bs, gPacketId, more, hbs, ?_⟩
    rw [hbytes bs (by simp [AckMsg.buffers, hbs]), hstored]
  ack := by
    rcases hcarries.ack with hnone | ⟨wrap, this, bs, more, hkind, hmade, hid, hbs, hstored⟩
    · exact Or.inl hnone
    · refine Or.inr ⟨wrap, this, bs, more, hkind, hmade, hid, hbs, ?_⟩
      rw [hbytes bs (by simp [AckMsg.buffers, hbs]), hstored]

/-- A new entry carries the message that its buffer was filled with. -/
theorem waiting {pm : PublishMessage} (hmade : pm.Made) (hqos : pm.qos ≠ 0)
    (hid : pm.packetIdValue ≠ 0) (hencodes : pm.encodes = true) (hfits : fits pm)
    {bs : BufferRef} {gPacketId : UInt64} {more : Bytes}
    (hbytes : bp.bytes bs = pm.stored gPacketId ++ more) (onComplete : Bool) (now : ℤ) :
    Carries fits bp (.waiting (.publish pm) (some bs) onComplete now) (.publish pm) where
  mtype := hmade.type
  message := ⟨pm, rfl, hmade, hqos, hid, hencodes, hfits, rfl, bs, gPacketId, more, rfl, hbytes⟩
  ack := Or.inl rfl

/-- An entry carries its message and the ack that it takes. -/
theorem answered (hcarries : Carries fits bp entry msg) {mtype : MessageType}
    {wrap : PubackMessage → Xmqtt.Message} {this : PubackMessage} (hkind : AckKind mtype wrap)
    (hmade : this.Made mtype) (hid : entry.pktid = this.packetIdValue) {bs : BufferRef}
    {more : Bytes} (hbytes : bp.bytes bs = this.stored ++ more) :
    Carries fits bp (entry.answered mtype (some bs)) msg where
  mtype := hcarries.mtype
  message := hcarries.message
  ack := Or.inr ⟨wrap, this, bs, more, hkind, hmade, hid.symm, rfl, hbytes⟩

/-- Both buffers of a completed entry are decoded to what they were filled with. -/
theorem processEntry_eq (hcarries : Carries fits bp entry msg)
    (hfits : ∀ pm, fits pm → pm.msglen < 4294967296)
    (hdone : Backlog.completed entry = true) :
    ∃ pm decoded ack, msg = .publish pm ∧
      processEntry bp entry = .read (.publish decoded) ack ∧
      decoded.content = pm.content ∧ ack.packetId = pm.packetIdValue := by
  obtain ⟨pm, hmsg, hmade, hqos, hid, hencodes, hfit, hpktid, bs, gPacketId, more, hbs,
    hstored⟩ := hcarries.message
  obtain ⟨decoded, n, hdecode, hcontent⟩ :=
    hmade.decode_stored hencodes hqos hid (hfits pm hfit) gPacketId more []
  have hmessage : decodeAs entry.mtype (bp.contents entry.msgbuf) =
      .inr (.publish decoded) := by
    rw [hcarries.mtype]
    exact decodeAs_publish hbs (by rw [hstored]; exact hdecode)
  have hnot : entry.state ≠ .reserved := by
    intro hreserved
    simp [Backlog.completed, hreserved, Ackqueue.completes] at hdone
  obtain ⟨wrap, this, bs, more, hkind, hmadeAck, hidAck, hbs, hstored⟩ :=
    hcarries.ack.resolve_left hnot
  obtain ⟨reply, n, hdecode, hvalue⟩ := hmadeAck.decode_stored hkind.valid more []
  have hack : decodeAs entry.state (bp.contents entry.ackbuf) = .inr (wrap reply) :=
    decodeAs_ack hbs hkind (by rw [hstored]; exact hdecode)
  have hcompletes : Ackqueue.completes entry.state = true := hdone
  refine ⟨pm, decoded, wrap reply, hmsg, ?_, hcontent, ?_⟩
  · rw [processEntry, hmessage]
    simp only [hack, hcompletes, Bool.true_or, if_true]
  · rw [hkind.packetId, hvalue, hidAck, hpktid]

end Carries

end Xmqtt.Sessions
