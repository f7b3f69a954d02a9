import Xmqtt.Service.Incoming
import Xmqtt.Sessions.Session

/-!
# A message and its PUBACK

`publish` sends a QoS 1 message, stores a timer for it and lets it wait in
`Pub1ack`, while the receiver of the same connection may already handle the
PUBACK of the client.
-/

namespace Xmqtt.Service

open Xmqtt.Core Xmqtt.Go Xmqtt.Message Xmqtt.Sessions

/-- A QoS 1 message that `sendData` accepts, the serial of its timer, and the PUBACK that the
client answers with. -/
structure Publication where
  message : PublishMessage
  task : ℕ
  puback : PubackMessage
  made : message.Made
  qos : message.qos = qosAtLeastOnce
  encodes : message.encodes = true
  pushable : Pushable message
  id_ne_zero : message.packetIdValue ≠ 0
  ack_made : puback.Made .puback
  ack_id : puback.packetIdValue = message.packetIdValue

namespace Publication

variable (publication : Publication)

def id : ℕ := publication.message.packetIdValue

/-- The message as it is pending. -/
def own (serial : ℕ) (now : ℤ) (latest : MessageType) : Pending :=
  ⟨serial, .publish publication.message, true, now, latest⟩

theorem accepts : Fifo.accepts (.publish publication.message) = true := by
  simp [Fifo.accepts, publication.qos, publication.encodes, qosAtLeastOnce, qosAtMostOnce]

theorem admitted_wait (gPacketId : UInt64) (choice : ℕ) (now : ℤ) :
    Admitted Pushable
      (.call (.wait (.publish publication.message) true gPacketId choice now)) :=
  ⟨_, rfl, publication.made, publication.id_ne_zero, publication.pushable⟩

theorem admitted_ack (gPacketId : UInt64) (choice : ℕ) :
    Admitted Pushable (.call (.ack (.puback publication.puback) gPacketId choice)) :=
  Or.inr ⟨_, _, _, .puback, publication.ack_made, rfl⟩

end Publication

/-- The next call of `publish`. -/
inductive PublishPc where
  | sending
  | storing
  | waiting
  | finished
  deriving DecidableEq, Repr

/-- The next call of the receiver; it has finished when all entries that `Acked` has returned
are processed. -/
inductive ReceivePc where
  | acking
  | taking
  | processing
  deriving DecidableEq, Repr

/-- `map` has the serials of the timers under their packet ids. -/
structure Exchange where
  inFlight : InFlight
  map : ℕ → Option ℕ
  publisher : PublishPc
  receiver : ReceivePc

inductive ExchangeStep where
  | send
  /-- `tw.Add` and `Map.Store`. -/
  | store
  | wait (gPacketId : UInt64) (choice : ℕ) (now : ℤ)
  | ack (gPacketId : UInt64) (choice : ℕ)
  | acked
  /-- The decoding of an entry and its `onComplete`. -/
  | process
  | putAckbuf
  | putMsgbuf
  deriving DecidableEq, Repr

/-- `onComplete` takes the timer of a PUBACK from the map, and refuses other acks. -/
def onComplete (map : ℕ → Option ℕ) (ack : Xmqtt.Message) : ℕ → Option ℕ :=
  if ack.type = .puback then Function.update map ack.packetId none else map

/-- What processing an entry does to the map. -/
def completeEntry (map : ℕ → Option ℕ) (bp : BytesPool) (ackmsg : AckMsg) : ℕ → Option ℕ :=
  match processEntry bp ackmsg with
  | .read _ ack => if ackmsg.onComplete then onComplete map ack else map
  | _ => map

namespace Exchange

variable (publication : Publication)

/-- A step of the queue or of the entries taken from it. -/
def advance (state : Exchange) (label : InFlightStep) : Option Exchange :=
  (state.inFlight.step label).map fun inFlight => { state with inFlight := inFlight }

/-- The client can answer once the message is sent. -/
def step (state : Exchange) : ExchangeStep → Option Exchange
  | .send =>
      if state.publisher = .sending then some { state with publisher := .storing } else none
  | .store =>
      if state.publisher = .storing then
        some { state with
          map := Function.update state.map publication.id (some publication.task)
          publisher := .waiting }
      else none
  | .wait gPacketId choice now =>
      if state.publisher = .waiting then
        { state with publisher := .finished }.advance
          (.call (.wait (.publish publication.message) true gPacketId choice now))
      else none
  | .ack gPacketId choice =>
      if state.publisher ≠ .sending ∧ state.receiver = .acking then
        { state with receiver := .taking }.advance
          (.call (.ack (.puback publication.puback) gPacketId choice))
      else none
  | .acked =>
      if state.receiver = .taking then
        { state with receiver := .processing }.advance (.call .acked)
      else none
  | .process =>
      if state.receiver = .processing then
        { state with
          map := match state.inFlight.taken with
            | ackmsg :: _ => completeEntry state.map state.inFlight.queue.bytesPool ackmsg
            | [] => state.map }.advance .process
      else none
  | .putAckbuf =>
      if state.receiver = .processing then state.advance .putAckbuf else none
  | .putMsgbuf =>
      if state.receiver = .processing then state.advance .putMsgbuf else none

/-- Both goroutines have finished. -/
def Finished (state : Exchange) : Prop :=
  state.publisher = .finished ∧ state.receiver = .processing ∧ state.inFlight.taken = []

/-- The message is no longer pending in `Pub1ack` and has no timer in `Map`. -/
def Settled (state : Exchange) : Prop :=
  state.inFlight.queue.emap publication.id = none ∧ state.map publication.id = none

/-- The message is pending in `Pub1ack`, with its PUBACK, and its timer is in `Map`. -/
def Recorded (state : Exchange) : Prop :=
  (∃ entry ∈ state.inFlight.queue.waiting, entry.pktid = publication.id ∧
    entry.state = .puback) ∧ state.map publication.id = some publication.task

/-- The PUBACK is handled after the message was put into the queue. -/
def AckAfterWait (state : Exchange) : ExchangeStep → Prop
  | .ack _ _ => state.publisher = .finished
  | _ => True

instance (state : Exchange) : (label : ExchangeStep) → Decidable (state.AckAfterWait label)
  | .ack _ _ => inferInstanceAs (Decidable (state.publisher = .finished))
  | .send | .store | .wait .. | .acked | .process | .putAckbuf | .putMsgbuf => isTrue trivial

/-! ## What the receiver reads -/

section Reading

variable {backlog : Backlog} {inFlight next : InFlight} {entry : AckMsg}

theorem type_of_decode {mtype : MessageType} {src : Slice} {decoded : PubackMessage} {n : ℕ}
    (hdone : PubackMessage.decode ⟨newHeader mtype⟩ src = .done decoded n) :
    decoded.type = mtype := by
  obtain ⟨header, hn, hheader, hrest⟩ := Outcome.map_andThen_eq_done_iff.mp hdone
  obtain ⟨-, htype, -⟩ := Header.accepted_of_decode hheader
  obtain ⟨header', count, hheader', hlast⟩ := Outcome.map_andThen_eq_done_iff.mp hrest
  injection hlast with hdecoded
  have hsame : header'.mtypeflags = header.mtypeflags := by
    change (Header.readPacketId header src hn) = .done header' count at hheader'
    rw [Header.readPacketId] at hheader'
    split at hheader'
    · cases hheader'
    · injection hheader' with hheader'
      rw [← hheader']
  rw [← hdecoded, ← type_newHeader mtype, ← htype]
  exact congrArg (fun flags : Byte => MessageType.ofNibble (flags >>> 4)) hsame

/-- The ack that is read has the type that the entry was marked with. -/
theorem type_of_read {msg ack : Xmqtt.Message} {wrap : PubackMessage → Xmqtt.Message}
    (hkind : AckKind entry.state wrap) {bp : BytesPool}
    (hread : processEntry bp entry = .read msg ack) : ack.type = entry.state := by
  have hdecode := (decodeAs_of_read hread).2
  rw [decodeAs, hkind.new] at hdecode
  simp only [hkind.decode] at hdecode
  split at hdecode
  · next decoded n hdone =>
      injection hdecode with hack
      obtain ⟨reply, hreply, rfl⟩ := Outcome.map_eq_done_iff.mp hdone
      have htype := type_of_decode hreply
      rw [← hack]
      generalize entry.state = mtype at hkind htype ⊢
      cases hkind <;> exact htype
  · cases hdecode
  · cases hdecode

theorem given_of_acked (hacked : inFlight.acked = some next) :
    next.phase = .decoding ∧
      next.given = inFlight.fifo.pending.takeWhile Pending.completed ∧
      next.fifo.pending = inFlight.fifo.pending.dropWhile Pending.completed := by
  rw [InFlight.acked] at hacked
  split_ifs at hacked
  split at hacked
  · injection hacked with hnext
    rw [← hnext]
    exact ⟨rfl, rfl, rfl⟩
  · cases hacked

/-- The entry in front of the receiver, and the pending message that it stands for. -/
theorem front_of_sound {fits : PublishMessage → Prop}
    (hfits : ∀ pm, fits pm → pm.msglen < 4294967296) (hsound : Sound fits backlog inFlight)
    (hphase : inFlight.phase = .decoding) {rest : List AckMsg}
    (htaken : inFlight.taken = entry :: rest) :
    ∃ first more msg ack, inFlight.given = first :: more ∧
      processEntry inFlight.queue.bytesPool entry = .read msg ack ∧
      entry.onComplete = first.onComplete ∧ ack.packetId = first.pktid ∧
      ack.type = first.latest := by
  have hstand := hsound.taken
  rw [hphase, htaken, ← hsound.represents.bytesPool_eq] at hstand
  obtain ⟨first, more, hcarries, -, hgiven⟩ := List.forall₂_cons_left_iff.mp hstand.carry
  have hgiven : inFlight.given = first :: more := hgiven
  have hbare := hstand.bare
  rw [hgiven] at hbare
  injection hbare with hentry
  have hdone := hstand.completed entry List.mem_cons_self
  obtain ⟨pm, decoded, ack, hmsg, hread, -, hid⟩ := hcarries.processEntry_eq hfits hdone
  have hstate : entry.state = first.latest := congrArg AckMsg.state hentry
  have hnot : entry.state ≠ .reserved := by
    intro hreserved
    simp [Backlog.completed, hreserved, Ackqueue.completes] at hdone
  obtain ⟨wrap, -, -, -, hkind, -⟩ := hcarries.ack.resolve_left hnot
  refine ⟨first, more, _, ack, hgiven, hread, congrArg AckMsg.onComplete hentry, ?_, ?_⟩
  · rw [hid, Pending.pktid, hmsg]
    rfl
  · rw [← hstate]
    exact type_of_read hkind hread

/-- A receiver that decodes the entry in front goes on to its buffers. -/
theorem process_of_sound (hsound : Sound Pushable backlog inFlight)
    (hstep : inFlight.step .process = some next) :
    ∃ entry rest first more msg ack, inFlight.taken = entry :: rest ∧
      inFlight.phase = .decoding ∧ inFlight.given = first :: more ∧
      processEntry inFlight.queue.bytesPool entry = .read msg ack ∧
      entry.onComplete = first.onComplete ∧ ack.packetId = first.pktid ∧
      ack.type = first.latest ∧ next = { inFlight with phase := .puttingAckbuf } := by
  rw [InFlight.step] at hstep
  split at hstep
  · next entry rest hphase htaken =>
      obtain ⟨first, more, msg, ack, hgiven, hread, hcomplete, hid, htype⟩ :=
        front_of_sound (fun _ => Pushable.msglen_lt) hsound hphase htaken
      rw [hread] at hstep
      injection hstep with hnext
      exact ⟨entry, rest, first, more, msg, ack, htaken, hphase, hgiven, hread, hcomplete, hid,
        htype, hnext.symm⟩
  · cases hstep

/-- Putting buffers back changes neither the queue nor what is still to be read. -/
theorem unread_of_put {label : InFlightStep} (hput : label = .putAckbuf ∨ label = .putMsgbuf)
    (hstep : inFlight.step label = some next) :
    next.fifo = inFlight.fifo ∧
      unread next.phase next.given = unread inFlight.phase inFlight.given := by
  rcases hput with rfl | rfl
  all_goals
    rw [InFlight.step] at hstep
    split at hstep <;> cases hstep
    rename_i hphase _
    rw [hphase]
    exact ⟨rfl, rfl⟩

end Reading

/-! ## From stage to stage -/

section Stages

variable (front : List Pending)

/-- While the receiver is processing: where the message is if all messages in front of it
are complete, and if not. -/
structure Processed (state : Exchange) : Prop where
  complete : (∀ pending ∈ front, pending.completed = true) →
    state.inFlight.fifo.pending = [] ∧ (state.map publication.id = none ∨
      ∃ serial now, publication.own serial now .puback ∈
        unread state.inFlight.phase state.inFlight.given)
  incomplete : (∃ pending ∈ front, pending.completed = false) →
    (∃ serial now, publication.own serial now .puback ∈ state.inFlight.fifo.pending) ∧
      state.map publication.id = some publication.task ∧
      ∀ pending ∈ unread state.inFlight.phase state.inFlight.given,
        pending.pktid ≠ publication.id

/-- The messages that are pending before the receiver takes any. -/
structure Queued (pending : List Pending) (state : Exchange) : Prop where
  pending : state.inFlight.fifo.pending = pending
  taken : state.inFlight.taken = []

/-- What is so at each stage.  The other stages are not reached when the PUBACK is handled
after `Wait`. -/
def Stage (state : Exchange) : Prop :=
  match state.publisher, state.receiver with
  | .sending, .acking | .storing, .acking => state.Queued front
  | .waiting, .acking =>
      state.Queued front ∧ state.map publication.id = some publication.task
  | .finished, .acking =>
      (∃ serial now, state.Queued (front ++ [publication.own serial now .reserved])) ∧
        state.map publication.id = some publication.task
  | .finished, .taking =>
      (∃ serial now, state.Queued (front ++ [publication.own serial now .puback])) ∧
        state.map publication.id = some publication.task
  | .finished, .processing => state.Processed publication front
  | _, _ => False

/-- The invariant of the runs. -/
structure Going (state : Exchange) : Prop where
  sound : IsSound Pushable state.inFlight
  stage : state.Stage publication front

end Stages

section Steps

variable {publication} {front : List Pending} {state next : Exchange}

theorem advance_eq_some {label : InFlightStep} (hnext : state.advance label = some next) :
    ∃ inFlight, state.inFlight.step label = some inFlight ∧
      next = { state with inFlight := inFlight } := by
  obtain ⟨inFlight, hstep, hnext⟩ := Option.map_eq_some_iff.mp hnext
  exact ⟨inFlight, hstep, hnext.symm⟩

theorem isSound_step {inFlight inFlight' : InFlight} {label : InFlightStep}
    (hsound : IsSound Pushable inFlight) (hadmitted : Admitted Pushable label)
    (hstep : inFlight.step label = some inFlight') : IsSound Pushable inFlight' := by
  obtain ⟨backlog, hsound⟩ := hsound
  exact hsound.step hadmitted hstep

/-- As long as `publish` runs the PUBACK is not handled. -/
theorem Stage.acking (hstage : state.Stage publication front)
    (hpublisher : state.publisher ≠ .finished) : state.receiver = .acking := by
  rw [Stage] at hstage
  split at hstage
  all_goals first
    | assumption
    | exact absurd ‹state.publisher = _› hpublisher
    | exact hstage.elim

/-- The receiver is only past its `Ack` when `publish` has finished. -/
theorem Stage.finished (hstage : state.Stage publication front)
    (hreceiver : state.receiver ≠ .acking) : state.publisher = .finished := by
  by_contra hpublisher
  exact hreceiver (hstage.acking hpublisher)

theorem going_send (hgoing : state.Going publication front)
    (hstep : state.step publication .send = some next) : next.Going publication front := by
  obtain ⟨hsound, hstage⟩ := hgoing
  rw [step] at hstep
  split_ifs at hstep with hpublisher
  cases hstep
  have hreceiver := hstage.acking (by rw [hpublisher]; decide)
  rw [Stage, hpublisher, hreceiver] at hstage
  refine ⟨hsound, ?_⟩
  rw [Stage, hreceiver]
  exact ⟨hstage.pending, hstage.taken⟩

theorem going_store (hgoing : state.Going publication front)
    (hstep : state.step publication .store = some next) : next.Going publication front := by
  obtain ⟨hsound, hstage⟩ := hgoing
  rw [step] at hstep
  split_ifs at hstep with hpublisher
  cases hstep
  have hreceiver := hstage.acking (by rw [hpublisher]; decide)
  rw [Stage, hpublisher, hreceiver] at hstage
  refine ⟨hsound, ?_⟩
  rw [Stage, hreceiver]
  exact ⟨⟨hstage.pending, hstage.taken⟩, Function.update_self _ _ _⟩

/-- `Wait` puts the message behind those in front. -/
theorem going_wait (hfront : ∀ pending ∈ front, pending.pktid ≠ publication.id)
    (hgoing : state.Going publication front) {gPacketId : UInt64} {choice : ℕ} {now : ℤ}
    (hstep : state.step publication (.wait gPacketId choice now) = some next) :
    next.Going publication front := by
  obtain ⟨hsound, hstage⟩ := hgoing
  rw [step] at hstep
  split_ifs at hstep with hpublisher
  obtain ⟨inFlight, hinFlight, rfl⟩ := advance_eq_some hstep
  have hreceiver := hstage.acking (by rw [hpublisher]; decide)
  rw [Stage, hpublisher, hreceiver] at hstage
  obtain ⟨hqueued, htimer⟩ := hstage
  refine ⟨isSound_step hsound (publication.admitted_wait gPacketId choice now) hinFlight, ?_⟩
  have hnew : ¬state.inFlight.fifo.Waits (Xmqtt.Message.publish publication.message).packetId := by
    rintro ⟨pending, hmem, hid⟩
    rw [hqueued.pending] at hmem
    exact hfront pending hmem hid
  injection hinFlight with hinFlight
  have hpending : inFlight.fifo.pending =
      front ++ [publication.own state.inFlight.fifo.accepted now .reserved] := by
    rw [← hinFlight]
    change (state.inFlight.fifo.wait _ _ _).pending = _
    rw [Fifo.wait_of_accepts publication.accepts hnew, hqueued.pending]
    rfl
  have htaken : inFlight.taken = [] := by
    rw [← hinFlight]
    exact hqueued.taken
  rw [Stage, hreceiver]
  exact ⟨⟨_, now, hpending, htaken⟩, htimer⟩

/-- `Ack` marks the message, and no other. -/
theorem ack_pending (hfront : ∀ pending ∈ front, pending.pktid ≠ publication.id)
    (serial : ℕ) (now : ℤ) (fifo : Fifo)
    (hpending : fifo.pending = front ++ [publication.own serial now .reserved]) :
    (fifo.ack .puback publication.id).pending =
      front ++ [publication.own serial now .puback] := by
  have hid : (publication.own serial now .reserved).pktid = publication.id := rfl
  have hsame : front.map (fun pending => if pending.pktid = publication.id then
      { pending with latest := .puback } else pending) = front := by
    refine (List.map_congr_left fun pending hmem => ?_).trans (List.map_id _)
    exact if_neg (hfront pending hmem)
  have hacks : Ackqueue.acksEntry .puback = true := rfl
  rw [Fifo.ack, if_pos hacks]
  change fifo.pending.map _ = _
  rw [hpending, List.map_append, hsame, List.map_singleton, if_pos hid]
  rfl

theorem going_ack (hfront : ∀ pending ∈ front, pending.pktid ≠ publication.id)
    (hgoing : state.Going publication front) {gPacketId : UInt64} {choice : ℕ}
    (hafter : state.publisher = .finished)
    (hstep : state.step publication (.ack gPacketId choice) = some next) :
    next.Going publication front := by
  obtain ⟨hsound, hstage⟩ := hgoing
  rw [step] at hstep
  split_ifs at hstep with hpc
  obtain ⟨inFlight, hinFlight, rfl⟩ := advance_eq_some hstep
  rw [Stage, hafter, hpc.2] at hstage
  obtain ⟨⟨serial, now, hqueued⟩, htimer⟩ := hstage
  refine ⟨isSound_step hsound (publication.admitted_ack gPacketId choice) hinFlight, ?_⟩
  injection hinFlight with hinFlight
  have htype : (Xmqtt.Message.puback publication.puback).type = .puback :=
    AckKind.puback.type publication.ack_made
  have hid : (Xmqtt.Message.puback publication.puback).packetId = publication.id :=
    publication.ack_id
  have hpending : inFlight.fifo.pending = front ++ [publication.own serial now .puback] := by
    rw [← hinFlight]
    change (state.inFlight.fifo.ack _ _).pending = _
    rw [htype, hid]
    exact ack_pending hfront serial now _ hqueued.pending
  have htaken : inFlight.taken = [] := by
    rw [← hinFlight]
    exact hqueued.taken
  rw [Stage, hafter]
  exact ⟨⟨serial, now, hpending, htaken⟩, htimer⟩

/-- A message that is not complete holds up those behind it. -/
theorem while_append {goes : Pending → Bool} {stuck : Pending} (hmem : stuck ∈ front)
    (hstuck : goes stuck = false) (behind : List Pending) :
    (front ++ behind).takeWhile goes = front.takeWhile goes ∧
      (front ++ behind).dropWhile goes = front.dropWhile goes ++ behind := by
  induction front with
  | nil => cases hmem
  | cons first front ih =>
      rw [List.cons_append]
      by_cases hfirst : goes first = true
      · have hrest : stuck ∈ front := by
          rcases List.mem_cons.mp hmem with rfl | hrest
          · exact absurd hfirst (by rw [hstuck]; decide)
          · exact hrest
        obtain ⟨htake, hdrop⟩ := ih hrest
        rw [List.takeWhile_cons_of_pos hfirst, List.takeWhile_cons_of_pos hfirst,
          List.dropWhile_cons_of_pos hfirst, List.dropWhile_cons_of_pos hfirst, htake]
        exact ⟨rfl, hdrop⟩
      · rw [List.takeWhile_cons_of_neg hfirst, List.takeWhile_cons_of_neg hfirst,
          List.dropWhile_cons_of_neg hfirst, List.dropWhile_cons_of_neg hfirst]
        exact ⟨rfl, rfl⟩

theorem going_acked (hfront : ∀ pending ∈ front, pending.pktid ≠ publication.id)
    (hgoing : state.Going publication front)
    (hstep : state.step publication .acked = some next) : next.Going publication front := by
  obtain ⟨hsound, hstage⟩ := hgoing
  rw [step] at hstep
  split_ifs at hstep with hreceiver
  obtain ⟨inFlight, hinFlight, rfl⟩ := advance_eq_some hstep
  have hpublisher := hstage.finished (by rw [hreceiver]; decide)
  rw [Stage, hpublisher, hreceiver] at hstage
  obtain ⟨⟨serial, now, hqueued⟩, htimer⟩ := hstage
  have hadmitted : Admitted Pushable (.call .acked) := trivial
  refine ⟨isSound_step hsound hadmitted hinFlight, ?_⟩
  obtain ⟨hphase, hgiven, hfifo⟩ := given_of_acked hinFlight
  rw [hqueued.pending] at hgiven hfifo
  rw [Stage, hpublisher]
  constructor
  case complete =>
    intro hall
    have hboth : ∀ pending ∈ front ++ [publication.own serial now .puback],
        pending.completed = true := by
      intro pending hmem
      rcases List.mem_append.mp hmem with hmem | hown
      · exact hall pending hmem
      · rw [List.mem_singleton.mp hown]
        rfl
    rw [List.dropWhile_eq_nil_iff.mpr hboth] at hfifo
    rw [List.takeWhile_eq_self_iff.mpr hboth] at hgiven
    refine ⟨hfifo, Or.inr ⟨serial, now, ?_⟩⟩
    change _ ∈ unread inFlight.phase inFlight.given
    rw [hphase, hgiven]
    exact List.mem_append_right _ List.mem_cons_self
  case incomplete =>
    rintro ⟨stuck, hmem, hstuck⟩
    obtain ⟨htake, hdrop⟩ := while_append hmem hstuck [publication.own serial now .puback]
    rw [htake] at hgiven
    rw [hdrop] at hfifo
    refine ⟨⟨serial, now, ?_⟩, htimer, ?_⟩
    · change _ ∈ inFlight.fifo.pending
      rw [hfifo]
      exact List.mem_append_right _ List.mem_cons_self
    · intro pending hpending
      change _ ∈ unread inFlight.phase inFlight.given at hpending
      rw [hphase, hgiven] at hpending
      exact hfront pending (List.takeWhile_subset _ hpending)

/-- The timers of other messages stay, and that of the acknowledged message goes. -/
theorem completeEntry_eq {bp : BytesPool} {entry : AckMsg} {msg ack : Xmqtt.Message}
    (hread : processEntry bp entry = .read msg ack) (map : ℕ → Option ℕ) (id : ℕ) :
    completeEntry map bp entry id =
      if entry.onComplete = true ∧ ack.type = .puback ∧ ack.packetId = id then none
      else map id := by
  rw [completeEntry, hread]
  by_cases hcomplete : entry.onComplete = true
  · by_cases htype : ack.type = .puback
    · by_cases hid : ack.packetId = id
      · subst hid
        simp [onComplete, hcomplete, htype]
      · simp [onComplete, hcomplete, htype, hid, Function.update_of_ne (Ne.symm hid)]
    · simp [onComplete, hcomplete, htype]
  · simp [hcomplete]

theorem going_process (hgoing : state.Going publication front)
    (hstep : state.step publication .process = some next) : next.Going publication front := by
  obtain ⟨hsound, hstage⟩ := hgoing
  rw [step] at hstep
  split_ifs at hstep with hreceiver
  obtain ⟨inFlight, hinFlight, rfl⟩ := advance_eq_some hstep
  have hpublisher := hstage.finished (by rw [hreceiver]; decide)
  rw [Stage, hpublisher, hreceiver] at hstage
  have hadmitted : Admitted Pushable .process := trivial
  refine ⟨isSound_step hsound hadmitted hinFlight, ?_⟩
  obtain ⟨backlog, hsound⟩ := hsound
  obtain ⟨entry, rest, first, more, msg, ack, htaken, hphase, hgiven, hread, hcomplete, hid,
    htype, rfl⟩ := process_of_sound hsound hinFlight
  have hunread : unread state.inFlight.phase state.inFlight.given = first :: more := by
    rw [hphase, hgiven]
    rfl
  have hmore : unread Phase.puttingAckbuf state.inFlight.given = more := by
    rw [hgiven]
    rfl
  have hmap := completeEntry_eq hread state.map publication.id
  rw [hcomplete, hid, htype] at hmap
  rw [Stage, hpublisher, hreceiver]
  simp only [htaken]
  constructor
  case complete =>
    intro hall
    obtain ⟨hempty, hwhere⟩ := hstage.complete hall
    refine ⟨hempty, ?_⟩
    rcases hwhere with hnone | ⟨serial, now, hown⟩
    · refine Or.inl (hmap.trans ?_)
      split_ifs
      · rfl
      · exact hnone
    · rw [hunread] at hown
      rcases List.mem_cons.mp hown with hfirst | hrest
      · rw [← hfirst] at hmap
        exact Or.inl (hmap.trans (if_pos ⟨rfl, rfl, rfl⟩))
      · exact Or.inr ⟨serial, now, hmore.symm ▸ hrest⟩
  case incomplete =>
    intro hstuck
    obtain ⟨hpending, htimer, hothers⟩ := hstage.incomplete hstuck
    rw [hunread] at hothers
    have hfirst := hothers first List.mem_cons_self
    refine ⟨hpending, (hmap.trans (if_neg fun hown => hfirst hown.2.2)).trans htimer, ?_⟩
    change ∀ pending ∈ unread Phase.puttingAckbuf state.inFlight.given, _
    rw [hmore]
    exact fun pending hmem => hothers pending (List.mem_cons_of_mem _ hmem)

/-- Steps that only put buffers back. -/
theorem going_put {label : InFlightStep} (hput : label = .putAckbuf ∨ label = .putMsgbuf)
    (hgoing : state.Going publication front) (hreceiver : state.receiver = .processing)
    (hnext : state.advance label = some next) : next.Going publication front := by
  obtain ⟨hsound, hstage⟩ := hgoing
  obtain ⟨inFlight, hinFlight, rfl⟩ := advance_eq_some hnext
  have hpublisher := hstage.finished (by rw [hreceiver]; decide)
  rw [Stage, hpublisher, hreceiver] at hstage
  have hadmitted : Admitted Pushable label := by
    rcases hput with rfl | rfl <;> trivial
  refine ⟨isSound_step hsound hadmitted hinFlight, ?_⟩
  obtain ⟨hfifo, hunread⟩ := unread_of_put hput hinFlight
  rw [Stage, hpublisher, hreceiver]
  constructor
  case complete =>
    change _ → inFlight.fifo.pending = [] ∧ (_ ∨ ∃ serial now, _ ∈
      unread inFlight.phase inFlight.given)
    rw [hfifo, hunread]
    exact hstage.complete
  case incomplete =>
    change _ → (∃ serial now, _ ∈ inFlight.fifo.pending) ∧ _ ∧ ∀ pending ∈
      unread inFlight.phase inFlight.given, _
    rw [hfifo, hunread]
    exact hstage.incomplete

theorem going_step (hfront : ∀ pending ∈ front, pending.pktid ≠ publication.id)
    {label : ExchangeStep} (hgoing : state.Going publication front)
    (hafter : state.AckAfterWait label) (hstep : state.step publication label = some next) :
    next.Going publication front := by
  cases label with
  | send => exact going_send hgoing hstep
  | store => exact going_store hgoing hstep
  | wait gPacketId choice now => exact going_wait hfront hgoing hstep
  | ack gPacketId choice => exact going_ack hfront hgoing hafter hstep
  | acked => exact going_acked hfront hgoing hstep
  | process => exact going_process hgoing hstep
  | putAckbuf =>
      rw [step] at hstep
      split_ifs at hstep with hreceiver
      exact going_put (Or.inl rfl) hgoing hreceiver hstep
  | putMsgbuf =>
      rw [step] at hstep
      split_ifs at hstep with hreceiver
      exact going_put (Or.inr rfl) hgoing hreceiver hstep

end Steps

/-! ## When both have finished -/

section Ends

variable {publication} {front : List Pending} {backlog : Backlog} {inFlight : InFlight}

theorem emap_eq_none_iff (hsound : Sound Pushable backlog inFlight) (id : ℕ) :
    inFlight.queue.emap id = none ↔ ∀ pending ∈ inFlight.fifo.pending, pending.pktid ≠ id := by
  rw [hsound.represents.emap_eq_none_iff, hsound.refines.waits_iff, Fifo.Waits]
  push Not
  rfl

/-- The queue and the abstract one agree on which messages are complete. -/
theorem completed_eq (hsound : Sound Pushable backlog inFlight) :
    inFlight.queue.waiting.map Backlog.completed =
      inFlight.fifo.pending.map Pending.completed := by
  have hentries := congrArg (List.map Backlog.completed) hsound.refines.entries
  rw [List.map_map, List.map_map] at hentries
  rw [hsound.represents.waiting_eq]
  exact hentries

theorem unread_eq_nil (hsound : Sound Pushable backlog inFlight) (htaken : inFlight.taken = []) :
    unread inFlight.phase inFlight.given = [] := by
  have hnil : unread inFlight.phase inFlight.taken = [] := by
    rw [htaken]
    cases inFlight.phase <;> rfl
  have hbare := hsound.taken.bare
  rw [hnil, List.map_nil] at hbare
  exact List.map_eq_nil_iff.mp hbare.symm

theorem Going.settled {state : Exchange} (hgoing : state.Going publication front)
    (hfinished : state.Finished) (hall : ∀ pending ∈ front, pending.completed = true) :
    state.Settled publication := by
  obtain ⟨⟨backlog, hsound⟩, hstage⟩ := hgoing
  obtain ⟨hpublisher, hreceiver, htaken⟩ := hfinished
  rw [Stage, hpublisher, hreceiver] at hstage
  obtain ⟨hempty, hwhere⟩ := hstage.complete hall
  rw [unread_eq_nil hsound htaken] at hwhere
  constructor
  · rw [emap_eq_none_iff hsound, hempty]
    exact fun _ hmem => absurd hmem List.not_mem_nil
  · rcases hwhere with hnone | ⟨_, _, hmem⟩
    · exact hnone
    · exact absurd hmem List.not_mem_nil

theorem Going.recorded {state : Exchange} (hgoing : state.Going publication front)
    (hfinished : state.Finished) (hstuck : ∃ pending ∈ front, pending.completed = false) :
    state.Recorded publication := by
  obtain ⟨⟨backlog, hsound⟩, hstage⟩ := hgoing
  obtain ⟨hpublisher, hreceiver, -⟩ := hfinished
  rw [Stage, hpublisher, hreceiver] at hstage
  obtain ⟨⟨serial, now, hown⟩, htimer, -⟩ := hstage.incomplete hstuck
  have hmem := List.mem_map_of_mem (f := Pending.entry) hown
  rw [← hsound.refines.entries, ← hsound.represents.waiting_eq] at hmem
  obtain ⟨entry, hentry, hbare⟩ := List.mem_map.mp hmem
  exact ⟨⟨entry, hentry, congrArg AckMsg.pktid hbare, congrArg AckMsg.state hbare⟩, htimer⟩

end Ends

/-- When the PUBACK is handled after `Wait` and both goroutines have finished, the message is
settled if all messages in front of it were complete; otherwise it is still pending, with
its PUBACK and its timer. -/
theorem settled_of_run {before : List InFlightStep} {inFlight : InFlight}
    (hadmitted : ∀ label ∈ before, Admitted Pushable label)
    (hbefore : run InFlight.step .new before = some inFlight) (htaken : inFlight.taken = [])
    {map : ℕ → Option ℕ} {labels : List ExchangeStep} {last : Exchange}
    (hnew : inFlight.queue.emap publication.id = none)
    (hafter : Along (step publication) AckAfterWait ⟨inFlight, map, .sending, .acking⟩ labels)
    (hrun : run (step publication) ⟨inFlight, map, .sending, .acking⟩ labels = some last)
    (hfinished : last.Finished) :
    ((∀ entry ∈ inFlight.queue.waiting, Backlog.completed entry = true) →
      last.Settled publication) ∧
    ((∃ entry ∈ inFlight.queue.waiting, Backlog.completed entry = false) →
      last.Recorded publication) := by
  obtain ⟨backlog, hsound⟩ := isSound_of_run hadmitted hbefore
  have hfront := (emap_eq_none_iff hsound publication.id).mp hnew
  have hstart : Going publication inFlight.fifo.pending
      ⟨inFlight, map, .sending, .acking⟩ := ⟨⟨backlog, hsound⟩, ⟨rfl, htaken⟩⟩
  have hgoing := run_invariant (fun _ _ _ => going_step hfront) hstart hafter hrun
  have hcompleted : ∀ value : Bool, value ∈ inFlight.queue.waiting.map Backlog.completed ↔
      value ∈ inFlight.fifo.pending.map Pending.completed := by
    rw [completed_eq hsound]
    exact fun _ => Iff.rfl
  constructor
  · intro hall
    apply hgoing.settled hfinished
    intro pending hmem
    obtain ⟨entry, hentry, hsame⟩ :=
      List.mem_map.mp ((hcompleted _).mpr (List.mem_map_of_mem hmem))
    rw [← hsame]
    exact hall entry hentry
  · rintro ⟨entry, hentry, hstuck⟩
    apply hgoing.recorded hfinished
    obtain ⟨pending, hmem, hsame⟩ :=
      List.mem_map.mp ((hcompleted _).mp (List.mem_map_of_mem hentry))
    exact ⟨pending, hmem, hsame.trans hstuck⟩

/-- The message with packet id 7. -/
def seven : Publication where
  message := Ackqueue.publishQos1 7
  task := 0
  puback := newPubackMessage.setPacketId 7
  made := made_publishQos1 7
  qos := by decide +kernel
  encodes := by decide +kernel
  pushable := by
    rw [Pushable]
    decide +kernel
  id_ne_zero := by decide +kernel
  ack_made := .setPacketId .new 7
  ack_id := by decide +kernel

/-- One goroutine after the other. -/
def inTurn : List ExchangeStep :=
  [.send, .store, .wait 0 0 0, .ack 0 0, .acked, .process, .putAckbuf, .putMsgbuf]

theorem settled_of_run_inTurn :
    ∃ last, run (step seven) ⟨.new, fun _ => none, .sending, .acking⟩ inTurn = some last ∧
      last.Finished ∧ last.Settled seven := by
  have hends : (run (step seven) ⟨.new, fun _ => none, .sending, .acking⟩ inTurn).map
      (fun last => (last.publisher, last.receiver, last.inFlight.taken)) =
        some (.finished, .processing, []) := by decide +kernel
  obtain ⟨last, hrun, hlast⟩ := Option.map_eq_some_iff.mp hends
  simp only [Prod.mk.injEq] at hlast
  refine ⟨last, hrun, hlast, ?_⟩
  have hadmitted : ∀ label ∈ ([] : List InFlightStep), Admitted Pushable label :=
    fun _ hmem => absurd hmem List.not_mem_nil
  -- The PUBACK is handled in the fourth step.
  have hafter : Along (step seven) AckAfterWait ⟨.new, fun _ => none, .sending, .acking⟩
      (inTurn.take 4 ++ inTurn.drop 4) := by
    refine Along.append (by decide +kernel) fun middle _ => along_of_forall ?_ middle
    simp [inTurn, AckAfterWait]
  rw [List.take_append_drop] at hafter
  exact (settled_of_run seven hadmitted rfl rfl rfl hafter hrun hlast).1 (by decide +kernel)

/-- The PUBACK is handled before `Wait`. -/
def ackFirst : List ExchangeStep :=
  [.send, .ack 0 0, .acked, .store, .wait 0 0 0]

/-- A message with packet id 5 waits in front. -/
def behindFive : List InFlightStep :=
  [.call (.wait (.publish (Ackqueue.publishQos1 5)) true 0 0 0)]

/-- How a run ends: the pcs, the entries still to be processed, the place of the message in
`Pub1ack` and its timer. -/
def ends (state : Exchange) : PublishPc × ReceivePc × List AckMsg × Option ℕ × Option ℕ :=
  (state.publisher, state.receiver, state.inFlight.taken,
    state.inFlight.queue.emap seven.id, state.map seven.id)

theorem not_settled_of_ends {state : Exchange} {i : ℕ} {timer : Option ℕ}
    (hends : state.ends = (.finished, .processing, [], some i, timer)) :
    state.Finished ∧ ¬state.Settled seven := by
  simp only [ends, Prod.mk.injEq] at hends
  obtain ⟨hpublisher, hreceiver, htaken, hemap, -⟩ := hends
  refine ⟨⟨hpublisher, hreceiver, htaken⟩, fun hsettled => ?_⟩
  rw [hsettled.1] at hemap
  cases hemap

/-- A PUBACK that is handled before `Wait` is lost, and one for a message that is not in
front leaves the message where it is. -/
theorem not_settled_ackFirst_behindFive :
    (∃ last, run (step seven) ⟨.new, fun _ => none, .sending, .acking⟩ ackFirst = some last ∧
      last.Finished ∧ ¬last.Settled seven) ∧
    ∃ inFlight last, run InFlight.step .new behindFive = some inFlight ∧
      inFlight.queue.emap seven.id = none ∧
      run (step seven) ⟨inFlight, fun _ => none, .sending, .acking⟩ (inTurn.take 5) =
        some last ∧ last.Finished ∧ ¬last.Settled seven := by
  constructor
  · have hends : (run (step seven) ⟨.new, fun _ => none, .sending, .acking⟩ ackFirst).map
        ends = some (.finished, .processing, [], some 0, some 0) := by decide +kernel
    obtain ⟨last, hrun, hlast⟩ := Option.map_eq_some_iff.mp hends
    exact ⟨last, hrun, not_settled_of_ends hlast⟩
  · have hfive : (run InFlight.step .new behindFive).map (fun five => five.queue.emap seven.id) =
        some none := by decide +kernel
    have hends : (run InFlight.step .new behindFive).bind (fun five =>
        (run (step seven) ⟨five, fun _ => none, .sending, .acking⟩ (inTurn.take 5)).map ends) =
        some (.finished, .processing, [], some 1, some 0) := by decide +kernel
    obtain ⟨five, hbefore, hnew⟩ := Option.map_eq_some_iff.mp hfive
    rw [hbefore] at hends
    obtain ⟨last, hrun, hlast⟩ := Option.map_eq_some_iff.mp hends
    exact ⟨five, last, hbefore, hnew, hrun, not_settled_of_ends hlast⟩

end Exchange

end Xmqtt.Service
