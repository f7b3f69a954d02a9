import Xmqtt.Sessions.Fifo

/-!
# The expiry of entries

Every five seconds the goroutine `Clear` of a `Pub1ack` queue takes the entries that
are too old off the front of the ring.  Its loop is written with two cursors and a
`goto`.  It removes the longest expired prefix and stops at the first entry that is
young enough, so nothing expired stays behind if the entries came in the order of
their timestamps.
-/

namespace Xmqtt.Sessions

open Xmqtt.Go Xmqtt.Message

/-! ## Everything that happens to a queue -/

/-- A call or a tick, or somebody to whom an entry was returned puts a buffer back. -/
inductive Event where
  | call (call : Ackqueue.Call)
  | put (buffer : Option BufferRef)
  deriving DecidableEq, Repr

namespace Ackqueue

def handle (this : Ackqueue) : Event → Ackqueue
  | .call call => (this.step call).1
  | .put buffer => { this with bytesPool := this.bytesPool.put buffer }

def handleAll (this : Ackqueue) (events : List Event) : Ackqueue := events.foldl handle this

/-- The `Pub1ack` queue of a session after these events. -/
def reached (events : List Event) : Ackqueue := (newAckqueue 16 "Pub1ack").handleAll events

/-- What an event adds to the entries: a `Wait` adds one behind the others, or none. -/
def storedBy (this : Ackqueue) : Event → List AckMsg
  | .call (.wait msg onComplete gPacketId choice now) =>
      (this.wait msg onComplete gPacketId choice now).1.waiting.drop this.waiting.length
  | _ => []

/-- All entries that the events add, in order. -/
def stored (this : Ackqueue) : List Event → List AckMsg
  | [] => []
  | event :: events => this.storedBy event ++ stored (this.handle event) events

end Ackqueue

def Backlog.handle (this : Backlog) : Event → Backlog
  | .call call => (this.step call).1
  | .put buffer => { this with bytesPool := this.bytesPool.put buffer }

namespace Represents

variable {queue : Ackqueue} {backlog : Backlog}

theorem handle (hrep : Represents queue backlog) (event : Event) :
    Represents (queue.handle event) (backlog.handle event) := by
  cases event with
  | call call => exact (hrep.step call).1
  | put buffer =>
      rw [Ackqueue.handle, hrep.bytesPool_eq]
      exact hrep.withPool (backlog.bytesPool.put buffer)

theorem handleAll (hrep : Represents queue backlog) (events : List Event) :
    Represents (queue.handleAll events) (events.foldl Backlog.handle backlog) := by
  induction events generalizing queue backlog with
  | nil => exact hrep
  | cons event events ih => exact ih (hrep.handle event)

theorem reached (events : List Event) :
    Represents (Ackqueue.reached events)
      (events.foldl Backlog.handle (.new "Pub1ack")) := new.handleAll events

end Represents

/-! ## The loop -/

/-- The loop of `Clear` as it is written, in at most `rounds` rounds: the count is looked at
in every round, `i` runs beside the head, and it is the cell at the head that is emptied.
There is no result if the rounds do not suffice or a cell cannot be used. -/
def Ackqueue.clearRounds (now : ℤ) : ℕ → ℕ → Ackqueue → Option Ackqueue
  | 0, _, _ => none
  | rounds + 1, i, this =>
      if this.count > 0 then
        match this.ring[i]? with
        | none => none
        | some none => some this
        | some (some head) =>
            if now > head.timestamp + 5 then
              match this.ring[this.head]? with
              | some (some _) =>
                  let next := ({ this with
                    bytesPool := (this.bytesPool.put head.msgbuf).put head.ackbuf }).dropHead
                      head.pktid
                  if next.count > 0 then clearRounds now rounds (this.increment i) next
                  else some next
              | _ => none
            else some this
      else some this

/-- More rounds than there are entries suffice. -/
theorem Represents.clearRounds {queue : Ackqueue} {entries : List AckMsg} {ping : AckMsg}
    {bp : BytesPool} (hrep : Represents queue ⟨entries, ping, bp⟩) (now : ℤ) {rounds : ℕ}
    (hrounds : entries.length < rounds) :
    Ackqueue.clearRounds now rounds queue.head queue =
      some (Ackqueue.clearLoop now entries.length queue.head queue) := by
  induction entries generalizing queue bp rounds with
  | nil =>
      obtain ⟨rounds, rfl⟩ := Nat.exists_eq_succ_of_ne_zero (Nat.ne_of_gt hrounds)
      have hcount : queue.count = 0 := hrep.count_eq
      rw [Ackqueue.clearRounds, if_neg (by omega)]
      rfl
  | cons entry entries ih =>
      obtain ⟨rounds, rfl⟩ :=
        Nat.exists_eq_succ_of_ne_zero (Nat.ne_of_gt (Nat.zero_lt_of_lt hrounds))
      have hcount : queue.count = entries.length + 1 := hrep.count_eq
      have hhead : queue.ring[queue.head]? = some (some entry) := hrep.holds.get_head
      rw [Ackqueue.clearRounds, if_pos (by omega), List.length_cons, Ackqueue.clearLoop, hhead]
      simp only
      by_cases hlate : now > entry.timestamp + 5
      · have hnext := (hrep.withPool (Backlog.release bp entry)).dropHead
        have hpool : Backlog.release bp entry =
            (queue.bytesPool.put entry.msgbuf).put entry.ackbuf := by
          rw [hrep.bytesPool_eq]
          rfl
        rw [hpool] at hnext
        rw [if_pos hlate, if_pos hlate]
        split_ifs with hmore
        · exact ih hnext (by simpa using hrounds)
        · have hnone : entries.length = 0 := by
            rw [← hnext.count_eq]
            omega
          rw [hnone]
          rfl
      · rw [if_neg hlate, if_neg hlate]

/-! ## What a tick does -/

/-- The longest expired prefix has left, with its buffers and packet ids; the others are as
they were. -/
structure Expires (this next : Ackqueue) (now : ℤ) : Prop where
  waiting_eq : next.waiting = this.waiting.dropWhile (Backlog.expired now)
  bytesPool_eq : next.bytesPool =
    (this.waiting.takeWhile (Backlog.expired now)).foldl Backlog.release this.bytesPool
  forgotten : ∀ entry ∈ this.waiting.takeWhile (Backlog.expired now),
    next.emap entry.pktid = none
  kept : ∀ entry ∈ next.waiting, ∃ i, next.emap entry.pktid = some i ∧
    next.ring[i]? = some (some entry)

theorem Represents.expires {queue : Ackqueue} {backlog : Backlog}
    (hrep : Represents queue backlog) (now : ℤ) : Expires queue (queue.clear now) now := by
  have hnext := hrep.clear now
  have hwaiting := hrep.waiting_eq
  have hwaitingNext := hnext.waiting_eq
  refine ⟨?_, ?_, ?_, ?_⟩
  · rw [hwaitingNext, hwaiting]
    rfl
  · rw [hnext.bytesPool_eq, hwaiting, hrep.bytesPool_eq]
    rfl
  · intro entry hmem
    rw [hwaiting] at hmem
    apply (hnext.emap_eq_none_iff entry.pktid).mpr
    rintro ⟨other, hother, hid⟩
    -- No packet id stands in both parts of the list.
    have hsplit : backlog.entries.takeWhile (Backlog.expired now) ++
        backlog.entries.dropWhile (Backlog.expired now) = backlog.entries :=
      List.takeWhile_append_dropWhile
    have hnodup := hrep.nodup
    rw [← hsplit, List.map_append] at hnodup
    exact (List.disjoint_of_nodup_append hnodup) (List.mem_map_of_mem hmem)
      (hid ▸ List.mem_map_of_mem hother)
  · intro entry hmem
    rw [hwaitingNext] at hmem
    obtain ⟨k, hk⟩ := List.getElem?_of_mem hmem
    exact ⟨_, (hnext.emap entry.pktid _).mpr ⟨k, entry, hk, rfl, rfl⟩, hnext.holds.get hk⟩

/-! ## Entries in the order of their timestamps -/

/-- Behind an entry that is young enough there is none that is too old. -/
theorem not_expired_of_sorted {entries : List AckMsg} {now : ℤ}
    (hsorted : (entries.map AckMsg.timestamp).Pairwise (· ≤ ·)) {entry : AckMsg}
    (hmem : entry ∈ entries.dropWhile (Backlog.expired now)) : ¬ now > entry.timestamp + 5 := by
  induction entries with
  | nil => exact absurd hmem List.not_mem_nil
  | cons first entries ih =>
      rw [List.map_cons, List.pairwise_cons] at hsorted
      by_cases hexpired : Backlog.expired now first = true
      · rw [List.dropWhile_cons_of_pos hexpired] at hmem
        exact ih hsorted.2 hmem
      · rw [List.dropWhile_cons_of_neg hexpired] at hmem
        have hyoung : ¬ now > first.timestamp + 5 := by
          simpa [Backlog.expired] using hexpired
        rcases List.mem_cons.mp hmem with rfl | hrest
        · exact hyoung
        · have hle := hsorted.1 entry.timestamp (List.mem_map_of_mem hrest)
          omega

theorem Backlog.isPrefix_wait (this : Backlog) (msg : Xmqtt.Message) (onComplete : Bool)
    (gPacketId : UInt64) (choice : ℕ) (now : ℤ) :
    this.entries <+: (this.wait msg onComplete gPacketId choice now).1.entries := by
  have hinsert : this.entries <+:
      (this.waitInsert msg onComplete gPacketId choice now).1.entries := by
    rw [waitInsert, insert]
    simp only
    split_ifs
    · exact List.prefix_refl _
    · exact List.prefix_append _ _
    · exact List.prefix_refl _
  cases msg with
  | publish pm =>
      rw [wait]
      split_ifs
      · exact List.prefix_refl _
      · exact hinsert
  | subscribe _ => exact hinsert
  | unsubscribe _ => exact hinsert
  | _ => exact List.prefix_refl _

/-- An ack changes no timestamp. -/
theorem Backlog.timestamps_ack (this : Backlog) (msg : Xmqtt.Message) (gPacketId : UInt64)
    (choice : ℕ) : (this.ack msg gPacketId choice).1.entries.map AckMsg.timestamp =
      this.entries.map AckMsg.timestamp := by
  rw [ack]
  split_ifs
  · simp only [answer, List.map_map]
    apply List.map_congr_left
    intro entry _
    rw [Function.comp_apply]
    split_ifs
    · rfl
    · rfl
  · rfl
  · rfl
  · rfl

namespace Represents

variable {queue : Ackqueue} {backlog : Backlog}

/-- An event takes entries away or adds what it stores. -/
theorem timestamps_handle (hrep : Represents queue backlog) (event : Event) :
    ((queue.handle event).waiting.map AckMsg.timestamp).Sublist
      ((queue.waiting ++ queue.storedBy event).map AckMsg.timestamp) := by
  have hnext := (hrep.handle event).waiting_eq
  rw [hrep.waiting_eq, hnext]
  cases event with
  | put buffer => simp [Ackqueue.storedBy, Backlog.handle]
  | call call =>
      cases call with
      | wait msg onComplete gPacketId choice now =>
          obtain ⟨more, hmore⟩ := backlog.isPrefix_wait msg onComplete gPacketId choice now
          have hstored : queue.storedBy (.call (.wait msg onComplete gPacketId choice now)) =
              more := by
            rw [Ackqueue.storedBy, (hrep.wait msg onComplete gPacketId choice now).1.waiting_eq,
              hrep.waiting_eq, ← hmore, List.drop_left]
          rw [hstored, hmore]
          exact List.Sublist.refl _
      | ack msg gPacketId choice =>
          change List.Sublist ((backlog.ack msg gPacketId choice).1.entries.map _)
            ((backlog.entries ++ []).map _)
          rw [List.append_nil, backlog.timestamps_ack]
      | acked | tick now =>
          change List.Sublist _ ((backlog.entries ++ []).map _)
          rw [List.append_nil]
          exact (List.dropWhile_sublist _).map _

theorem timestamps_handleAll (hrep : Represents queue backlog) (events : List Event) :
    ((queue.handleAll events).waiting.map AckMsg.timestamp).Sublist
      ((queue.waiting ++ queue.stored events).map AckMsg.timestamp) := by
  induction events generalizing queue backlog with
  | nil =>
      rw [Ackqueue.stored, List.append_nil]
      exact List.Sublist.refl _
  | cons event events ih =>
      refine (ih (hrep.handle event)).trans ?_
      rw [Ackqueue.stored, ← List.append_assoc, List.map_append, List.map_append]
      exact (hrep.timestamps_handle event).append_right _

end Represents

/-- In every queue that can be reached a tick ends, takes the longest expired prefix and
nothing else, and leaves nothing expired if the entries came in the order of their
timestamps. -/
theorem Ackqueue.tick_expires (events : List Event) (now : ℤ) :
    (∀ rounds, (reached events).count < rounds →
      clearRounds now rounds (reached events).head (reached events) =
        some ((reached events).clear now)) ∧
      Expires (reached events) ((reached events).clear now) now ∧
      ((((newAckqueue 16 "Pub1ack").stored events).map AckMsg.timestamp).Pairwise (· ≤ ·) →
        ∀ entry ∈ ((reached events).clear now).waiting, ¬ now > entry.timestamp + 5) := by
  have hrep := Represents.reached events
  refine ⟨?_, hrep.expires now, ?_⟩
  · intro rounds hrounds
    rw [hrep.count_eq] at hrounds
    rw [clear, hrep.count_eq]
    exact hrep.clearRounds now hrounds
  · intro hsorted entry hmem
    rw [(hrep.expires now).waiting_eq] at hmem
    have hnone : (newAckqueue 16 "Pub1ack").waiting = [] := Represents.new.waiting_eq
    have hsub := Represents.new.timestamps_handleAll events
    rw [hnone, List.nil_append] at hsub
    exact not_expired_of_sorted (hsorted.sublist hsub) hmem

/-- Two messages wait, three seconds apart. -/
def threeSecondsApart : List Event :=
  [.call (.wait (.publish (Ackqueue.publishQos1 7)) true 0 0 0),
    .call (.wait (.publish (Ackqueue.publishQos1 9)) true 0 0 3)]

theorem Ackqueue.tick_expires_first :
    ((reached threeSecondsApart).clear 7).waiting.map AckMsg.pktid = [9] ∧
      ∀ entry ∈ ((reached threeSecondsApart).clear 7).waiting, ¬ 7 > entry.timestamp + 5 :=
  ⟨by decide +kernel, (tick_expires threeSecondsApart 7).2.2 (by decide +kernel)⟩

end Xmqtt.Sessions
