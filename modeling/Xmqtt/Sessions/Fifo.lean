import Xmqtt.Message.Stored
import Xmqtt.Sessions.Backlog
import Xmqtt.Sessions.Pool

/-!
# First in, first out

The abstract queue: messages with the type of their latest ack, in the order in
which they were accepted, each under a number of its own.  Neither packet ids
of other messages nor buffers nor cells play a part in it.
-/

namespace Xmqtt.Sessions

open Xmqtt.Go Xmqtt.Message

/-- A message that was accepted and has not left the queue. -/
structure Pending where
  serial : ℕ
  msg : Xmqtt.Message
  onComplete : Bool
  since : ℤ
  latest : MessageType
  deriving DecidableEq, Repr

structure Fifo where
  pending : List Pending
  accepted : ℕ
  deriving DecidableEq, Repr

namespace Pending

def pktid (pending : Pending) : ℕ := pending.msg.packetId

def completed (pending : Pending) : Bool := Ackqueue.completes pending.latest

def expired (now : ℤ) (pending : Pending) : Bool := now > pending.since + 5

/-- What an entry of the ack queue shows of a message, apart from its buffers. -/
def entry (pending : Pending) : AckMsg :=
  { AckMsg.waiting pending.msg none pending.onComplete pending.since with
    state := pending.latest }

end Pending

namespace Fifo

open Ackqueue (Call acksEntry)

def new : Fifo := ⟨[], 0⟩

/-- The PUBLISH messages that `Wait` takes: QoS 0 needs no ack, and `Encode` must
accept the message. -/
def accepts : Xmqtt.Message → Bool
  | .publish pm => pm.qos ≠ qosAtMostOnce && pm.encodes
  | _ => false

/-- A message with the packet id is pending. -/
def Waits (this : Fifo) (pktid : ℕ) : Prop :=
  ∃ pending ∈ this.pending, pending.pktid = pktid

instance (this : Fifo) (pktid : ℕ) : Decidable (this.Waits pktid) :=
  inferInstanceAs (Decidable (∃ pending ∈ this.pending, pending.pktid = pktid))

/-- A message whose packet id is still pending adds nothing. -/
def wait (this : Fifo) (msg : Xmqtt.Message) (onComplete : Bool) (now : ℤ) : Fifo :=
  if !accepts msg ∨ this.Waits msg.packetId then this
  else
    ⟨this.pending ++ [⟨this.accepted, msg, onComplete, now, .reserved⟩], this.accepted + 1⟩

/-- The latest ack of a message counts, whatever came before. -/
def ack (this : Fifo) (mtype : MessageType) (pktid : ℕ) : Fifo :=
  if acksEntry mtype then
    { this with
      pending := this.pending.map fun pending =>
        if pending.pktid = pktid then { pending with latest := mtype } else pending }
  else this

theorem wait_of_accepts {this : Fifo} {msg : Xmqtt.Message} (haccepts : accepts msg = true)
    (hnew : ¬ this.Waits msg.packetId) (onComplete : Bool) (now : ℤ) :
    this.wait msg onComplete now =
      ⟨this.pending ++ [⟨this.accepted, msg, onComplete, now, .reserved⟩],
        this.accepted + 1⟩ := by
  rw [wait, if_neg (by simp [haccepts, hnew])]

theorem wait_of_refused {this : Fifo} {msg : Xmqtt.Message}
    (hrefused : accepts msg = false ∨ this.Waits msg.packetId) (onComplete : Bool) (now : ℤ) :
    this.wait msg onComplete now = this := by
  rw [wait, if_pos (by simpa using hrefused)]

def step (this : Fifo) : Call → Fifo
  | .wait msg onComplete _ _ now => this.wait msg onComplete now
  | .ack msg _ _ => this.ack msg.type msg.packetId
  | .acked => { this with pending := this.pending.dropWhile Pending.completed }
  | .tick now => { this with pending := this.pending.dropWhile (Pending.expired now) }

def after (this : Fifo) (calls : List Call) : Fifo := calls.foldl step this

/-- What the `Acked` calls of a run return: the longest completed prefix each. -/
def returned (this : Fifo) : List Call → List (List Pending)
  | [] => []
  | call :: calls =>
      if call = .acked then
        this.pending.takeWhile Pending.completed :: returned (this.step call) calls
      else returned (this.step call) calls

/-! ## Nothing is lost and nothing comes twice -/

/-- The messages accepted so far are, in order, those that have left and those that are
pending. -/
def Numbered (left : List Pending) (this : Fifo) : Prop :=
  (left ++ this.pending).map Pending.serial = List.range this.accepted

theorem Numbered.wait {left : List Pending} {this : Fifo} (hnumbered : Numbered left this)
    (msg : Xmqtt.Message) (onComplete : Bool) (now : ℤ) :
    Numbered left (this.wait msg onComplete now) := by
  rw [Fifo.wait]
  split_ifs
  · exact hnumbered
  · rw [Numbered, ← List.append_assoc, List.map_append, List.range_succ]
    exact congrArg (· ++ [this.accepted]) hnumbered

theorem Numbered.ack {left : List Pending} {this : Fifo} (hnumbered : Numbered left this)
    (mtype : MessageType) (pktid : ℕ) : Numbered left (this.ack mtype pktid) := by
  have hserial : Pending.serial ∘ (fun pending : Pending =>
      if pending.pktid = pktid then { pending with latest := mtype } else pending) =
        Pending.serial := by
    funext pending
    simp only [Function.comp_apply]
    split_ifs <;> rfl
  rw [Fifo.ack]
  split_ifs
  · rw [Numbered, List.map_append, List.map_map, hserial, ← List.map_append]
    exact hnumbered
  · exact hnumbered

/-- A prefix that leaves is added to what has left. -/
theorem Numbered.leave {left : List Pending} {this : Fifo} (hnumbered : Numbered left this)
    (goes : Pending → Bool) :
    Numbered (left ++ this.pending.takeWhile goes)
      { this with pending := this.pending.dropWhile goes } := by
  rw [Numbered, List.append_assoc, List.takeWhile_append_dropWhile]
  exact hnumbered

/-- Without ticks only `Acked` lets messages go. -/
theorem Numbered.after {left : List Pending} {this : Fifo} (hnumbered : Numbered left this)
    {calls : List Call} (htick : ∀ now, .tick now ∉ calls) :
    Numbered (left ++ (this.returned calls).flatten) (this.after calls) := by
  induction calls generalizing left this with
  | nil =>
      rw [returned, List.flatten_nil, List.append_nil]
      exact hnumbered
  | cons call calls ih =>
      have hrest : ∀ now, .tick now ∉ calls := fun now hmem =>
        htick now (List.mem_cons_of_mem _ hmem)
      rw [returned]
      cases call with
      | wait msg onComplete gPacketId choice now =>
          rw [if_neg (by simp)]
          exact ih (hnumbered.wait msg onComplete now) hrest
      | ack msg gPacketId choice =>
          rw [if_neg (by simp)]
          exact ih (hnumbered.ack msg.type msg.packetId) hrest
      | acked =>
          rw [if_pos rfl, List.flatten_cons, ← List.append_assoc]
          exact ih (hnumbered.leave Pending.completed) hrest
      | tick now => exact absurd List.mem_cons_self (htick now)

end Fifo

/-! ## The ack queue refines it -/

/-- A buffer takes every PUBLISH that `Encode` does not reject. -/
theorem BytesPool.Owns.fill_publish {used : List BufferRef} {bp : BytesPool}
    (howns : BytesPool.Owns used bp) {pm : PublishMessage} {gPacketId : UInt64} {choice : ℕ} :
    (bp.fill (.publish pm) gPacketId choice).ending = .returned none ↔ pm.encodes = true := by
  obtain ⟨bs, old, -, -, -, hlength, hending, -⟩ := howns.fill (.publish pm) gPacketId choice
  rw [hending, ← pm.encode_len_done_iff hlength gPacketId]
  exact exists_done_lift_iff

namespace Backlog

variable {this : Backlog} {pm : PublishMessage}

theorem wait_publish_of_refused
    (hrefused : pm.qos = qosAtMostOnce ∨ this.Waits (Xmqtt.Message.publish pm).packetId)
    (onComplete : Bool) (gPacketId : UInt64) (choice : ℕ) (now : ℤ) :
    (this.wait (.publish pm) onComplete gPacketId choice now).1 = this := by
  rw [wait]
  split_ifs with hqos
  · rfl
  · rw [waitInsert, insert, if_pos (hrefused.resolve_left hqos)]

/-- The outcome of `Wait` on a PUBLISH that needs an ack and has a new packet id. -/
theorem wait_publish {used : List BufferRef} (howns : BytesPool.Owns used this.bytesPool)
    (hqos : pm.qos ≠ qosAtMostOnce)
    (hnew : ¬ this.Waits (Xmqtt.Message.publish pm).packetId)
    (onComplete : Bool) (gPacketId : UInt64) (choice : ℕ) (now : ℤ) :
    (this.wait (.publish pm) onComplete gPacketId choice now).1 =
      if pm.encodes then
        { this with
          entries := this.entries ++ [.waiting (.publish pm)
            (this.bytesPool.fill (.publish pm) gPacketId choice).buffer onComplete now]
          bytesPool := (this.bytesPool.fill (.publish pm) gPacketId choice).bytesPool }
      else
        { this with
          bytesPool := (this.bytesPool.fill (.publish pm) gPacketId choice).bytesPool } := by
  rw [wait, if_neg hqos, waitInsert, insert, if_neg hnew]
  simp only [howns.fill_publish]
  split_ifs <;> rfl

end Backlog

/-- An entry without its buffers. -/
def AckMsg.bare (am : AckMsg) : AckMsg := { am with msgbuf := none, ackbuf := none }

/-- An entry without buffers that takes an ack if it has the packet id. -/
def restate (pktid : ℕ) (state : MessageType) (am : AckMsg) : AckMsg :=
  if am.pktid = pktid then { am with state := state } else am

theorem bare_comp_answered (pktid : ℕ) (state : MessageType) (ackbuf : Option BufferRef) :
    (AckMsg.bare ∘ fun am : AckMsg =>
        if am.pktid = pktid then am.answered state ackbuf else am) =
      restate pktid state ∘ AckMsg.bare := by
  funext am
  by_cases hid : am.pktid = pktid
  · simp [restate, AckMsg.bare, AckMsg.answered, hid]
  · simp [restate, AckMsg.bare, hid]

theorem entry_comp_latest (pktid : ℕ) (state : MessageType) :
    (Pending.entry ∘ fun pending : Pending =>
        if pending.pktid = pktid then { pending with latest := state } else pending) =
      restate pktid state ∘ Pending.entry := by
  funext pending
  have hentry : pending.entry.pktid = pending.pktid := rfl
  rw [Function.comp_apply, Function.comp_apply, restate, hentry]
  split_ifs <;> rfl

/-- The backlog shows the pending messages in order, and nobody waits for a PINGRESP. -/
structure Matches (backlog : Backlog) (fifo : Fifo) : Prop where
  entries : backlog.entries.map AckMsg.bare = fifo.pending.map Pending.entry
  ping : backlog.ping = .zero

namespace Matches

variable {backlog : Backlog} {fifo : Fifo}

theorem new : Matches (.new "Pub1ack") .new := ⟨rfl, rfl⟩

theorem waits_iff (hmatches : Matches backlog fifo) (pktid : ℕ) :
    backlog.Waits pktid ↔ fifo.Waits pktid := by
  have hids : backlog.entries.map AckMsg.pktid = fifo.pending.map Pending.pktid := by
    have hmap := congrArg (List.map AckMsg.pktid) hmatches.entries
    rwa [List.map_map, List.map_map] at hmap
  have hmem : pktid ∈ backlog.entries.map AckMsg.pktid ↔
      pktid ∈ fifo.pending.map Pending.pktid := by rw [hids]
  rw [List.mem_map, List.mem_map] at hmem
  exact hmem

/-- The two queues refuse the same messages, but for those that `Encode` rejects. -/
theorem refused (hmatches : Matches backlog fifo) {pm : PublishMessage}
    (hrefused : pm.qos = qosAtMostOnce ∨
      backlog.Waits (Xmqtt.Message.publish pm).packetId) :
    Fifo.accepts (.publish pm) = false ∨
      fifo.Waits (Xmqtt.Message.publish pm).packetId := by
  apply hrefused.imp
  · intro hqos
    simp [Fifo.accepts, hqos]
  · exact (hmatches.waits_iff _).mp

/-- `Wait` on a PUBLISH. -/
theorem wait (hmatches : Matches backlog fifo) {used : List BufferRef}
    (howns : BytesPool.Owns used backlog.bytesPool) (pm : PublishMessage)
    (onComplete : Bool) (gPacketId : UInt64) (choice : ℕ) (now : ℤ) :
    Matches (backlog.wait (.publish pm) onComplete gPacketId choice now).1
      (fifo.wait (.publish pm) onComplete now) := by
  have hwaits := hmatches.waits_iff (Xmqtt.Message.publish pm).packetId
  by_cases hrefused : pm.qos = qosAtMostOnce ∨
      backlog.Waits (Xmqtt.Message.publish pm).packetId
  · rw [Backlog.wait_publish_of_refused hrefused,
      Fifo.wait_of_refused (hmatches.refused hrefused)]
    exact hmatches
  · obtain ⟨hqos, hnew⟩ := not_or.mp hrefused
    rw [Backlog.wait_publish howns hqos hnew]
    by_cases hencodes : pm.encodes = true
    · have haccepts : Fifo.accepts (.publish pm) = true := by
        simp [Fifo.accepts, hqos, hencodes]
      rw [if_pos hencodes, Fifo.wait_of_accepts haccepts (hwaits.not.mp hnew)]
      refine ⟨?_, hmatches.ping⟩
      rw [List.map_append, List.map_append, hmatches.entries]
      rfl
    · rw [if_neg hencodes, Fifo.wait_of_refused (Or.inl (by simp [Fifo.accepts, hencodes]))]
      exact ⟨hmatches.entries, hmatches.ping⟩

theorem ack (hmatches : Matches backlog fifo) (msg : Xmqtt.Message) (gPacketId : UInt64)
    (choice : ℕ) :
    Matches (backlog.ack msg gPacketId choice).1 (fifo.ack msg.type msg.packetId) := by
  rw [Backlog.ack, Fifo.ack]
  by_cases hacks : Ackqueue.acksEntry msg.type = true
  · rw [if_pos hacks, if_pos hacks]
    split_ifs with hwaits
    · refine ⟨?_, hmatches.ping⟩
      calc (Backlog.answer backlog.entries msg.packetId msg.type
              (backlog.bytesPool.fill msg gPacketId choice).buffer).map AckMsg.bare
          = (backlog.entries.map AckMsg.bare).map (restate msg.packetId msg.type) := by
            rw [Backlog.answer, List.map_map, List.map_map, bare_comp_answered]
        _ = (fifo.pending.map Pending.entry).map (restate msg.packetId msg.type) := by
            rw [hmatches.entries]
        _ = _ := by rw [List.map_map, List.map_map, entry_comp_latest]
    · have hsame : (fifo.pending.map fun pending =>
          if pending.pktid = msg.packetId then { pending with latest := msg.type }
          else pending) = fifo.pending := by
        refine (List.map_congr_left fun pending hmem => ?_).trans (List.map_id _)
        exact if_neg fun hid => hwaits ((hmatches.waits_iff _).mpr ⟨pending, hmem, hid⟩)
      rw [hsame]
      exact hmatches
  · rw [if_neg hacks, if_neg hacks]
    split_ifs
    · refine ⟨hmatches.entries, ?_⟩
      change Ackqueue.answerPing backlog.ping = .zero
      rw [hmatches.ping]
      rfl
    · exact hmatches

/-- A prefix chosen by what the entries show is the same on both sides. -/
theorem leave (hmatches : Matches backlog fifo) (goes : AckMsg → Bool)
    (hgoes : ∀ am : AckMsg, goes am.bare = goes am) :
    (backlog.entries.dropWhile goes).map AckMsg.bare =
        (fifo.pending.dropWhile (goes ∘ Pending.entry)).map Pending.entry ∧
      (backlog.entries.takeWhile goes).map AckMsg.bare =
        (fifo.pending.takeWhile (goes ∘ Pending.entry)).map Pending.entry := by
  have hcomp : goes ∘ AckMsg.bare = goes := funext hgoes
  constructor
  · rw [← List.dropWhile_map, ← hmatches.entries, List.dropWhile_map, hcomp]
  · rw [← List.takeWhile_map, ← hmatches.entries, List.takeWhile_map, hcomp]

theorem acked (hmatches : Matches backlog fifo) :
    Matches backlog.acked.1 (fifo.step .acked) ∧ ∃ ackdone,
      backlog.acked.2 = .acked ackdone ∧ ackdone.map AckMsg.bare =
        (fifo.pending.takeWhile Pending.completed).map Pending.entry := by
  obtain ⟨hstay, hgo⟩ := hmatches.leave Backlog.completed fun _ => rfl
  rw [Backlog.acked, hmatches.ping]
  exact ⟨⟨hstay, rfl⟩, _, rfl, hgo⟩

theorem clear (hmatches : Matches backlog fifo) (now : ℤ) :
    Matches (backlog.clear now) (fifo.step (.tick now)) :=
  ⟨(hmatches.leave (Backlog.expired now) fun _ => rfl).1, hmatches.ping⟩

end Matches

/-! ## Whole runs -/

namespace Ackqueue

/-- The lists that the `Acked` calls of a run return. -/
def returned (this : Ackqueue) : List Call → List (List AckMsg)
  | [] => []
  | call :: calls =>
      match (this.step call).2 with
      | .acked ackdone => ackdone :: returned (this.step call).1 calls
      | .ended _ => returned (this.step call).1 calls

/-- The entries in the ring, from the head on. -/
def waiting (this : Ackqueue) : List AckMsg :=
  (List.range this.count).filterMap fun k => this.ring.getD (this.index (this.head + k)) none

/-- Calls on a queue for PUBLISH messages, without expiry. -/
def Call.ofPublish : Call → Prop
  | .wait msg _ _ _ _ => ∃ pm, msg = .publish pm
  | .ack _ _ _ => True
  | .acked => True
  | .tick _ => False

end Ackqueue

theorem Represents.waiting_eq {queue : Ackqueue} {backlog : Backlog}
    (hrep : Represents queue backlog) : queue.waiting = backlog.entries := by
  have hget : ∀ k ∈ List.range backlog.entries.length,
      queue.ring.getD (queue.index (queue.head + k)) none = backlog.entries[k]? := by
    intro k hk
    have hlt := (List.mem_range.mp hk).trans_le hrep.holds.length_le
    have hcell := hrep.holds.cell k hlt
    rw [hrep.index_eq, List.getD_eq_getElem?_getD]
    rw [Core.Ring.slot] at hcell
    rw [hcell, Option.getD_some]
  rw [Ackqueue.waiting, hrep.count_eq, List.filterMap_congr hget]
  exact Core.Ring.filterMap_getElem?_range _

/-- A buffer that was filled may be forgotten. -/
theorem BytesPool.Owns.forget {used : List BufferRef} {bp : BytesPool}
    (howns : BytesPool.Owns used bp) (msg : Xmqtt.Message) (gPacketId : UInt64)
    (choice : ℕ) : BytesPool.Owns used (bp.fill msg gPacketId choice).bytesPool := by
  obtain ⟨bs, old, -, hfilled, -⟩ := howns.fill msg gPacketId choice
  exact hfilled.sublist (List.sublist_cons_self bs used)

/-- One call keeps the two queues together. -/
theorem Matches.step {backlog : Backlog} {fifo : Fifo} (hmatches : Matches backlog fifo)
    (howns : BytesPool.Owns [] backlog.bytesPool) {call : Ackqueue.Call}
    (hcall : call.ofPublish) :
    Matches (backlog.step call).1 (fifo.step call) ∧
      BytesPool.Owns [] (backlog.step call).1.bytesPool := by
  cases call with
  | wait msg onComplete gPacketId choice now =>
      obtain ⟨pm, rfl⟩ := hcall
      refine ⟨hmatches.wait howns pm onComplete gPacketId choice now, ?_⟩
      change BytesPool.Owns [] (backlog.wait _ _ _ _ _).1.bytesPool
      by_cases hrefused : pm.qos = qosAtMostOnce ∨
          backlog.Waits (Xmqtt.Message.publish pm).packetId
      · rw [Backlog.wait_publish_of_refused hrefused]
        exact howns
      · obtain ⟨hqos, hnew⟩ := not_or.mp hrefused
        rw [Backlog.wait_publish howns hqos hnew]
        split_ifs <;> exact howns.forget _ _ _
  | ack msg gPacketId choice =>
      refine ⟨hmatches.ack msg gPacketId choice, ?_⟩
      change BytesPool.Owns [] (backlog.ack msg gPacketId choice).1.bytesPool
      rw [Backlog.ack]
      split_ifs
      · exact howns.forget msg gPacketId choice
      · exact howns
      · exact howns
      · exact howns
  | acked => exact ⟨hmatches.acked.1, howns⟩
  | tick now => exact hcall.elim

namespace Ackqueue

theorem returned_eq {queue : Ackqueue} {backlog : Backlog} {fifo : Fifo}
    (hrep : Represents queue backlog) (hmatches : Matches backlog fifo)
    (howns : BytesPool.Owns [] backlog.bytesPool) {calls : List Call}
    (hcalls : ∀ call ∈ calls, call.ofPublish) :
    (queue.returned calls).map (List.map AckMsg.bare) =
        (fifo.returned calls).map (List.map Pending.entry) ∧
      (queue.after calls).waiting.map AckMsg.bare =
        (fifo.after calls).pending.map Pending.entry := by
  induction calls generalizing queue backlog fifo with
  | nil =>
      exact ⟨rfl, (congrArg (List.map AckMsg.bare) hrep.waiting_eq).trans hmatches.entries⟩
  | cons call calls ih =>
      obtain ⟨hrepNext, hreply⟩ := hrep.step call
      obtain ⟨hmatchesNext, hownsNext⟩ :=
        hmatches.step howns (hcalls call List.mem_cons_self)
      obtain ⟨hreturned, hwaiting⟩ := ih hrepNext hmatchesNext hownsNext
        fun call hmem => hcalls call (List.mem_cons_of_mem _ hmem)
      refine ⟨?_, hwaiting⟩
      rw [returned, hreply, Fifo.returned]
      cases call with
      | wait msg onComplete gPacketId choice now | ack msg gPacketId choice =>
          rw [if_neg (by simp)]
          exact hreturned
      | acked =>
          obtain ⟨-, ackdone, hackdone, hsame⟩ := hmatches.acked
          have hdone : (backlog.step .acked).2 = .acked ackdone := hackdone
          rw [if_pos rfl, hdone]
          simp only [List.map_cons, hsame, hreturned]
      | tick now => exact (hcalls _ List.mem_cons_self).elim

/-- The ack queue is a first-in-first-out queue.  In every run each `Acked` call returns
the longest completed prefix of what is pending, what is not returned stays in order,
and every message that was accepted is returned at most once. -/
theorem fifo_of_calls (calls : List Call) (hcalls : ∀ call ∈ calls, call.ofPublish) :
    ((newAckqueue 16 "Pub1ack").returned calls).map (List.map AckMsg.bare) =
        (Fifo.new.returned calls).map (List.map Pending.entry) ∧
      ((newAckqueue 16 "Pub1ack").after calls).waiting.map AckMsg.bare =
        (Fifo.new.after calls).pending.map Pending.entry ∧
      ((Fifo.new.returned calls).flatten ++ (Fifo.new.after calls).pending).map
          Pending.serial = List.range (Fifo.new.after calls).accepted := by
  obtain ⟨hreturned, hwaiting⟩ :=
    returned_eq Represents.new Matches.new BytesPool.Owns.new hcalls
  have htick : ∀ now, .tick now ∉ calls := fun now hmem => hcalls _ hmem
  have hnumbered : Fifo.Numbered [] Fifo.new := rfl
  exact ⟨hreturned, hwaiting, hnumbered.after htick⟩

/-- A QoS 1 PUBLISH of `x` to the topic `a`. -/
def publishQos1 (id : UInt16) : PublishMessage :=
  ([.qos 1, .topic [0x61], .payload [0x78], .packetId id] : List PublishMessage.Setter).foldl
    PublishMessage.perform newPublishMessage

/-- Two messages wait, and the second is acknowledged first. -/
def secondFirst : List Call :=
  [.wait (.publish (publishQos1 7)) true 0 0 0, .wait (.publish (publishQos1 9)) true 0 0 0,
    .ack (.puback (newPubackMessage.setPacketId 9)) 0 0, .acked,
    .ack (.puback (newPubackMessage.setPacketId 7)) 0 0, .acked]

theorem fifo_of_calls_secondFirst :
    ((newAckqueue 16 "Pub1ack").returned secondFirst).map (List.map AckMsg.bare) =
        (Fifo.new.returned secondFirst).map (List.map Pending.entry) ∧
      (Fifo.new.returned secondFirst).map (List.map Pending.pktid) = [[], [7, 9]] := by
  have hcalls : ∀ call ∈ secondFirst, call.ofPublish := by
    intro call hmem
    simp only [secondFirst, List.mem_cons, List.not_mem_nil, or_false] at hmem
    rcases hmem with rfl | rfl | rfl | rfl | rfl | rfl
    · exact ⟨_, rfl⟩
    · exact ⟨_, rfl⟩
    all_goals trivial
  exact ⟨(fifo_of_calls secondFirst hcalls).1, by decide +kernel⟩

end Ackqueue

end Xmqtt.Sessions
