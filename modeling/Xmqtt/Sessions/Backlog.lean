import Xmqtt.Sessions.Ackqueue

/-!
# The ack queue as a list

A backlog is what an ack queue is for: the entries that wait, first come first,
with no ring, no index map and no growth.  The ring keeps step with it through
every call, which bounds its size and keeps all its cells and indexes in order.
-/

namespace Xmqtt.Sessions

open Xmqtt.Go Xmqtt.Message Xmqtt.Core Xmqtt.Core.Ring

structure Backlog where
  entries : List AckMsg
  ping : AckMsg
  bytesPool : BytesPool
  deriving DecidableEq, Repr

namespace Backlog

open Ackqueue (insertDuplicate dropError acksEntry answerPing completes takePing)

/-- An entry with the packet id is waiting. -/
def Waits (this : Backlog) (pktid : ℕ) : Prop := ∃ entry ∈ this.entries, entry.pktid = pktid

instance (this : Backlog) (pktid : ℕ) : Decidable (this.Waits pktid) :=
  inferInstanceAs (Decidable (∃ entry ∈ this.entries, entry.pktid = pktid))

def insert (this : Backlog) (msg : Xmqtt.Message) (onComplete : Bool)
    (gPacketId : UInt64) (choice : ℕ) (now : ℤ) : Backlog × Ending :=
  if this.Waits msg.packetId then (this, .returned (insertDuplicate msg))
  else
    let filled := this.bytesPool.fill msg gPacketId choice
    if filled.ending = .returned none then
      ({ this with
        entries := this.entries ++ [.waiting msg filled.buffer onComplete now]
        bytesPool := filled.bytesPool }, .returned none)
    else ({ this with bytesPool := filled.bytesPool }, filled.ending)

def waitInsert (this : Backlog) (msg : Xmqtt.Message) (onComplete : Bool)
    (gPacketId : UInt64) (choice : ℕ) (now : ℤ) : Backlog × Ending :=
  let inserted := this.insert msg onComplete gPacketId choice now
  (inserted.1, dropError inserted.2)

def wait (this : Backlog) (msg : Xmqtt.Message) (onComplete : Bool)
    (gPacketId : UInt64) (choice : ℕ) (now : ℤ) : Backlog × Ending :=
  match msg with
  | .publish pm =>
      if pm.qos = qosAtMostOnce then (this, .returned (some errWaitMessage))
      else this.waitInsert msg onComplete gPacketId choice now
  | .subscribe _ => this.waitInsert msg onComplete gPacketId choice now
  | .unsubscribe _ => this.waitInsert msg onComplete gPacketId choice now
  | .pingreq _ =>
      ({ this with
        ping := { AckMsg.zero with mtype := .pingreq, onComplete := onComplete } },
        .returned none)
  | _ => (this, .returned (some errWaitMessage))

/-- The entries once the one with the packet id has taken an ack. -/
def answer (entries : List AckMsg) (pktid : ℕ) (state : MessageType)
    (ackbuf : Option BufferRef) : List AckMsg :=
  entries.map fun entry => if entry.pktid = pktid then entry.answered state ackbuf else entry

def ack (this : Backlog) (msg : Xmqtt.Message) (gPacketId : UInt64) (choice : ℕ) :
    Backlog × Ending :=
  if acksEntry msg.type then
    if this.Waits msg.packetId then
      let filled := this.bytesPool.fill msg gPacketId choice
      ({ this with
        entries := answer this.entries msg.packetId msg.type filled.buffer
        bytesPool := filled.bytesPool }, filled.ending)
    else (this, .returned none)
  else if msg.type = .pingresp then
    ({ this with ping := answerPing this.ping }, .returned none)
  else (this, .returned (some errAckMessage))

theorem ack_of_waits {this : Backlog} {msg : Xmqtt.Message}
    (hacks : acksEntry msg.type = true) (hwaits : this.Waits msg.packetId)
    (gPacketId : UInt64) (choice : ℕ) :
    this.ack msg gPacketId choice =
      ({ this with
        entries := answer this.entries msg.packetId msg.type
          (this.bytesPool.fill msg gPacketId choice).buffer
        bytesPool := (this.bytesPool.fill msg gPacketId choice).bytesPool },
        (this.bytesPool.fill msg gPacketId choice).ending) := by
  rw [ack, if_pos hacks, if_pos hwaits]

theorem ack_of_unknown {this : Backlog} {msg : Xmqtt.Message}
    (hacks : acksEntry msg.type = true) (hwaits : ¬ this.Waits msg.packetId)
    (gPacketId : UInt64) (choice : ℕ) :
    this.ack msg gPacketId choice = (this, .returned none) := by
  rw [ack, if_pos hacks, if_neg hwaits]

def completed (entry : AckMsg) : Bool := completes entry.state

/-- The entries in front of the first one whose ack cycle is not complete. -/
def acked (this : Backlog) : Backlog × Reply :=
  ({ this with
    entries := this.entries.dropWhile completed
    ping := (takePing this.ping).1 },
    .acked ((takePing this.ping).2 ++ this.entries.takeWhile completed))

def expired (now : ℤ) (entry : AckMsg) : Bool := now > entry.timestamp + 5

/-- Both buffers of an entry go back to the pool. -/
def release (bp : BytesPool) (entry : AckMsg) : BytesPool :=
  (bp.put entry.msgbuf).put entry.ackbuf

def clear (this : Backlog) (now : ℤ) : Backlog :=
  { this with
    entries := this.entries.dropWhile (expired now)
    bytesPool := (this.entries.takeWhile (expired now)).foldl release this.bytesPool }

def step (this : Backlog) : Ackqueue.Call → Backlog × Reply
  | .wait msg onComplete gPacketId choice now =>
      ((this.wait msg onComplete gPacketId choice now).1,
        .ended (this.wait msg onComplete gPacketId choice now).2)
  | .ack msg gPacketId choice =>
      ((this.ack msg gPacketId choice).1, .ended (this.ack msg gPacketId choice).2)
  | .acked => this.acked
  | .tick now => (this.clear now, .ended (.returned none))

/-- The backlog of a new queue. -/
def new (t : String) : Backlog := ⟨[], .zero, ⟨8192, t == "Pub1ack", [], []⟩⟩

end Backlog

/-! ## Lists of cells -/

/-- Copying behind what is already there. -/
theorem copyAt_padded (cells src : List (Option AckMsg)) {spare : ℕ}
    (hfit : src.length ≤ spare) :
    Ackqueue.copyAt (cells ++ List.replicate spare none) cells.length src =
      cells ++ src ++ List.replicate (spare - src.length) none := by
  rw [Ackqueue.copyAt, List.take_left, List.drop_append, List.drop_replicate,
    List.drop_eq_nil_of_le (Nat.le_add_right _ _), List.nil_append, Nat.add_sub_cancel_left]
  apply List.take_of_length_le
  simp only [List.length_append, List.length_replicate]
  omega

theorem rebuildEmap_map_some (entries : List AckMsg) :
    Ackqueue.rebuildEmap (entries.map some) = some (reindex AckMsg.pktid entries) := by
  suffices hfrom : ∀ (n : ℕ) (emap : ℕ → Option ℕ),
      ((entries.map some).zipIdx n).foldlM (fun emap cell => cell.1.map fun entry =>
          Function.update emap entry.pktid (some cell.2)) emap =
        some ((entries.zipIdx n).foldl (fun index entry =>
          Function.update index (AckMsg.pktid entry.1) (some entry.2)) emap) from hfrom 0 _
  induction entries with
  | nil => exact fun _ _ => rfl
  | cons entry entries ih => exact fun n emap => ih (n + 1) _

/-- A ring that stores the entries of a backlog.  Packet ids have 16 bits, and the
ring has grown at most as far as that. -/
structure Represents (queue : Ackqueue) (backlog : Backlog) : Prop where
  size_eq : queue.size = queue.ring.length
  power : ∃ k, queue.size = 2 ^ k
  mask_eq : queue.mask = queue.size - 1
  holds : Holds queue.ring queue.head backlog.entries
  count_eq : queue.count = backlog.entries.length
  tail_eq : queue.tail = slot queue.ring.length queue.head backlog.entries.length
  emap : Indexes AckMsg.pktid queue.ring.length queue.head queue.emap backlog.entries
  ids : ∀ entry ∈ backlog.entries, entry.pktid < 65536
  bounded : queue.size ≤ 131072
  ping_eq : queue.ping = backlog.ping
  bytesPool_eq : queue.bytesPool = backlog.bytesPool

namespace Represents

variable {queue : Ackqueue} {backlog : Backlog}

theorem index_eq (hrep : Represents queue backlog) (n : ℕ) :
    queue.index n = n % queue.ring.length := by
  obtain ⟨k, hk⟩ := hrep.power
  rw [Ackqueue.index, hrep.mask_eq, ← hrep.size_eq, hk, Nat.and_two_pow_sub_one_eq_mod]

theorem increment_eq (hrep : Represents queue backlog) (n : ℕ) :
    queue.increment n = slot queue.ring.length n 1 := hrep.index_eq (n + 1)

theorem nodup (hrep : Represents queue backlog) :
    (backlog.entries.map AckMsg.pktid).Nodup := hrep.emap.nodup hrep.holds.length_le

/-- There are no more entries than packet ids. -/
theorem length_le (hrep : Represents queue backlog) : backlog.entries.length ≤ 65536 := by
  have hsub : backlog.entries.map AckMsg.pktid ⊆ List.range 65536 := by
    intro id hid
    obtain ⟨entry, hmem, rfl⟩ := List.mem_map.mp hid
    exact List.mem_range.mpr (hrep.ids entry hmem)
  have hlength := (List.subperm_of_subset hrep.nodup hsub).length_le
  rwa [List.length_map, List.length_range] at hlength

theorem emap_eq_none_iff (hrep : Represents queue backlog) (pktid : ℕ) :
    queue.emap pktid = none ↔ ¬ backlog.Waits pktid := by
  rw [hrep.emap.eq_none_iff, Backlog.Waits]
  push Not
  rfl

theorem withPing (hrep : Represents queue backlog) (ping : AckMsg) :
    Represents { queue with ping := ping } { backlog with ping := ping } :=
  ⟨hrep.size_eq, hrep.power, hrep.mask_eq, hrep.holds, hrep.count_eq, hrep.tail_eq,
    hrep.emap, hrep.ids, hrep.bounded, rfl, hrep.bytesPool_eq⟩

theorem withPool (hrep : Represents queue backlog) (bp : BytesPool) :
    Represents { queue with bytesPool := bp } { backlog with bytesPool := bp } :=
  ⟨hrep.size_eq, hrep.power, hrep.mask_eq, hrep.holds, hrep.count_eq, hrep.tail_eq,
    hrep.emap, hrep.ids, hrep.bounded, hrep.ping_eq, rfl⟩

/-! ## The ring operations -/

theorem store (hrep : Represents queue backlog) (hroom : queue.count < queue.size)
    (am : AckMsg) (hnew : ¬ backlog.Waits am.pktid) (hid : am.pktid < 65536) :
    Represents (queue.store am.pktid am)
      { backlog with entries := backlog.entries ++ [am] } where
  size_eq := hrep.size_eq.trans (List.length_set).symm
  power := hrep.power
  mask_eq := hrep.mask_eq
  holds := by
    rw [hrep.count_eq, hrep.size_eq] at hroom
    have hpush := hrep.holds.push hroom am
    rwa [← hrep.tail_eq] at hpush
  count_eq := by
    rw [List.length_append, List.length_singleton, ← hrep.count_eq]
    rfl
  tail_eq := by
    change queue.increment queue.tail = _
    rw [hrep.increment_eq, hrep.tail_eq, slot_slot, List.length_append]
    change _ = slot (List.set _ _ _).length _ _
    rw [List.length_set]
    rfl
  emap := by
    have hpush := hrep.emap.push ((hrep.emap_eq_none_iff am.pktid).mpr hnew)
    rw [← hrep.tail_eq] at hpush
    change Indexes _ (List.set _ _ _).length _ _ _
    rwa [List.length_set]
  ids := by
    intro entry hmem
    rcases List.mem_append.mp hmem with hold | hlast
    · exact hrep.ids entry hold
    · rw [List.mem_singleton.mp hlast]
      exact hid
  bounded := hrep.bounded
  ping_eq := hrep.ping_eq
  bytesPool_eq := hrep.bytesPool_eq

theorem dropHead {entry : AckMsg} {entries : List AckMsg} {ping : AckMsg} {bp : BytesPool}
    (hrep : Represents queue ⟨entry :: entries, ping, bp⟩) :
    Represents (queue.dropHead entry.pktid) ⟨entries, ping, bp⟩ where
  size_eq := hrep.size_eq.trans (List.length_set).symm
  power := hrep.power
  mask_eq := hrep.mask_eq
  holds := by
    have hpop := hrep.holds.pop
    rwa [← hrep.increment_eq] at hpop
  count_eq := by
    change queue.count - 1 = _
    rw [hrep.count_eq]
    rfl
  tail_eq := by
    change queue.tail = slot (List.set _ _ _).length (queue.increment queue.head) _
    rw [hrep.tail_eq, hrep.increment_eq, List.length_set, slot_slot, Nat.add_comm]
    rfl
  emap := by
    have hpop := hrep.emap.pop hrep.holds.length_le
    rw [← hrep.increment_eq] at hpop
    change Indexes _ (List.set _ _ _).length _ _ _
    rwa [List.length_set]
  ids := fun other hmem => hrep.ids other (List.mem_cons_of_mem _ hmem)
  bounded := hrep.bounded
  ping_eq := hrep.ping_eq
  bytesPool_eq := hrep.bytesPool_eq

/-- The entry of a packet id lies in the cell that the map names, and replacing it
there is replacing it in the list. -/
theorem setEntry (hrep : Represents queue backlog) {pktid i : ℕ}
    (hi : queue.emap pktid = some i) (state : MessageType) (ackbuf : Option BufferRef) :
    ∃ entry, queue.ring[i]? = some (some entry) ∧
      Represents (queue.setEntry i (entry.answered state ackbuf))
        { backlog with entries := Backlog.answer backlog.entries pktid state ackbuf } := by
  obtain ⟨k, entry, hk, rfl, rfl⟩ := (hrep.emap pktid i).mp hi
  have hanswer : Backlog.answer backlog.entries entry.pktid state ackbuf =
      backlog.entries.set k (entry.answered state ackbuf) :=
    map_if_key_eq_set hrep.nodup hk _
  have hkeys : (backlog.entries.set k (entry.answered state ackbuf)).map AckMsg.pktid =
      backlog.entries.map AckMsg.pktid := by
    obtain ⟨hlt, hget⟩ := List.getElem?_eq_some_iff.mp hk
    have hlt' : k < (backlog.entries.map AckMsg.pktid).length := by rwa [List.length_map]
    have hid : (entry.answered state ackbuf).pktid =
        (backlog.entries.map AckMsg.pktid)[k] := by
      rw [List.getElem_map, hget]
      rfl
    rw [List.map_set, hid, List.set_getElem_self hlt']
  refine ⟨entry, hrep.holds.get hk, ?_⟩
  rw [hanswer]
  constructor
  case size_eq => exact hrep.size_eq.trans (List.length_set).symm
  case power => exact hrep.power
  case mask_eq => exact hrep.mask_eq
  case holds => exact hrep.holds.replace hk _
  case count_eq => exact hrep.count_eq.trans (List.length_set).symm
  case tail_eq =>
    rw [List.length_set]
    exact hrep.tail_eq.trans (by rw [Ackqueue.setEntry, List.length_set])
  case emap =>
    rw [Ackqueue.setEntry, List.length_set]
    exact hrep.emap.of_map_eq hkeys
  case ids =>
    intro other hmem
    have hid : other.pktid ∈ backlog.entries.map AckMsg.pktid :=
      hkeys ▸ List.mem_map_of_mem hmem
    obtain ⟨same, hsame, heq⟩ := List.mem_map.mp hid
    exact heq ▸ hrep.ids same hsame
  case bounded => exact hrep.bounded
  case ping_eq => exact hrep.ping_eq
  case bytesPool_eq => exact hrep.bytesPool_eq

theorem full_iff (hrep : Represents queue backlog) :
    queue.full = true ↔ backlog.entries.length = queue.ring.length := by
  rw [Ackqueue.full, beq_iff_eq, hrep.count_eq, hrep.size_eq]

/-- The entries of a full ring are copied to the front of the new one. -/
theorem newring_eq (hrep : Represents queue backlog) (hfull : queue.full = true) :
    queue.newring (queue.size <<< 1) =
      backlog.entries.map some ++ List.replicate queue.ring.length none := by
  have hlength := hrep.full_iff.mp hfull
  have hhead := hrep.holds.head_lt
  have htail : queue.tail = queue.head := by
    rw [hrep.tail_eq, hlength, slot, Nat.add_mod_right, Nat.mod_eq_of_lt hhead]
  have hunroll := hrep.holds.unroll
  rw [hlength, Nat.sub_self, List.replicate_zero, List.append_nil] at hunroll
  rw [Ackqueue.newring, htail, if_neg (lt_irrefl _), hrep.size_eq, ← hunroll,
    ← List.length_drop]
  have hfit : (queue.ring.drop queue.head).length ≤ queue.ring.length <<< 1 := by
    rw [List.length_drop]
    omega
  have hfirst := copyAt_padded [] (queue.ring.drop queue.head) hfit
  rw [List.nil_append, List.length_nil, List.nil_append] at hfirst
  rw [hfirst, copyAt_padded _ _ (by simp only [List.length_take, List.length_drop]; omega)]
  congr 2
  simp only [List.length_take, List.length_drop]
  omega

/-- A full ring grows to twice its size, and nothing else changes.  The overflow
check never fires. -/
theorem grow (hrep : Represents queue backlog) (hfull : queue.full = true) :
    ∃ grown, queue.grow = some grown ∧ Represents grown backlog ∧
      grown.count < grown.size := by
  have hlength := hrep.full_iff.mp hfull
  have hnewring := hrep.newring_eq hfull
  have hbound := hrep.length_le
  have hpos := Nat.zero_lt_of_lt hrep.holds.head_lt
  have htake : (queue.newring (queue.size <<< 1)).take queue.count =
      backlog.entries.map some := by
    rw [hnewring, hrep.count_eq]
    exact List.take_left' (List.length_map _)
  have hsize : (backlog.entries.map some ++
      List.replicate queue.ring.length (none : Option AckMsg)).length =
        queue.size <<< 1 := by
    rw [List.length_append, List.length_map, List.length_replicate, hrep.size_eq, hlength]
    omega
  refine ⟨_, by
    rw [Ackqueue.grow, if_neg (by rw [maxInt64, hrep.size_eq]; omega)]
    simp only [htake, rebuildEmap_map_some]
    rw [hnewring], ?_, ?_⟩
  · constructor
    case size_eq => exact hsize.symm
    case power =>
      obtain ⟨k, hk⟩ := hrep.power
      exact ⟨k + 1, by rw [hk, Nat.shiftLeft_eq, pow_one, pow_succ]⟩
    case mask_eq => rfl
    case holds => exact Holds.ofList _ (by omega)
    case count_eq => exact hrep.count_eq
    case tail_eq =>
      rw [hsize, slot, Nat.zero_add, Nat.mod_eq_of_lt (by rw [hrep.size_eq]; omega)]
      exact hrep.count_eq
    case emap => exact Indexes.reindex hrep.nodup (by simp)
    case ids => exact hrep.ids
    case bounded =>
      change queue.size <<< 1 ≤ 131072
      rw [hrep.size_eq]
      omega
    case ping_eq => exact hrep.ping_eq
    case bytesPool_eq => exact hrep.bytesPool_eq
  · change queue.count < queue.size <<< 1
    rw [hrep.count_eq, hrep.size_eq]
    omega

/-! ## The calls -/

theorem insert (hrep : Represents queue backlog) (msg : Xmqtt.Message) (onComplete : Bool)
    (gPacketId : UInt64) (choice : ℕ) (now : ℤ) :
    Represents (queue.insert msg.packetId msg onComplete gPacketId choice now).1
        (backlog.insert msg onComplete gPacketId choice now).1 ∧
      (queue.insert msg.packetId msg onComplete gPacketId choice now).2 =
        (backlog.insert msg onComplete gPacketId choice now).2 := by
  obtain ⟨ready, hready, hrep, hroom⟩ : ∃ ready,
      (if queue.full then queue.grow else some queue) = some ready ∧
        Represents ready backlog ∧ ready.count < ready.size := by
    by_cases hfull : queue.full = true
    · rw [if_pos hfull]
      exact hrep.grow hfull
    · have hlength := hrep.holds.length_le
      have hne : backlog.entries.length ≠ queue.ring.length := fun heq =>
        hfull (hrep.full_iff.mpr heq)
      refine ⟨queue, if_neg hfull, hrep, ?_⟩
      rw [hrep.count_eq, hrep.size_eq]
      omega
  rw [Ackqueue.insert, hready, Backlog.insert]
  simp only
  cases hemap : ready.emap msg.packetId with
  | some i =>
      have hwaits : backlog.Waits msg.packetId := by
        by_contra hnot
        rw [(hrep.emap_eq_none_iff _).mpr hnot] at hemap
        simp at hemap
      rw [if_pos hwaits]
      exact ⟨hrep, rfl⟩
  | none =>
      have hnot := (hrep.emap_eq_none_iff _).mp hemap
      rw [if_neg hnot]
      simp only [Ackqueue.insertNew, hrep.bytesPool_eq]
      generalize backlog.bytesPool.fill msg gPacketId choice = filled
      have hfilled := hrep.withPool filled.bytesPool
      split_ifs with hdone
      · exact ⟨hfilled.store hroom (.waiting msg filled.buffer onComplete now) hnot
          msg.header.packetIdValue_lt, rfl⟩
      · exact ⟨hfilled, rfl⟩

theorem wait (hrep : Represents queue backlog) (msg : Xmqtt.Message) (onComplete : Bool)
    (gPacketId : UInt64) (choice : ℕ) (now : ℤ) :
    Represents (queue.wait msg onComplete gPacketId choice now).1
        (backlog.wait msg onComplete gPacketId choice now).1 ∧
      (queue.wait msg onComplete gPacketId choice now).2 =
        (backlog.wait msg onComplete gPacketId choice now).2 := by
  have hinsert : Represents (queue.waitInsert msg onComplete gPacketId choice now).1
        (backlog.waitInsert msg onComplete gPacketId choice now).1 ∧
      (queue.waitInsert msg onComplete gPacketId choice now).2 =
        (backlog.waitInsert msg onComplete gPacketId choice now).2 := by
    obtain ⟨hnext, hending⟩ := hrep.insert msg onComplete gPacketId choice now
    exact ⟨hnext, congrArg Ackqueue.dropError hending⟩
  cases msg with
  | publish pm =>
      simp only [Ackqueue.wait, Backlog.wait]
      split_ifs
      · exact ⟨hrep, rfl⟩
      · exact hinsert
  | subscribe _ => exact hinsert
  | unsubscribe _ => exact hinsert
  | pingreq _ => exact ⟨hrep.withPing _, rfl⟩
  | _ => exact ⟨hrep, rfl⟩

theorem ack (hrep : Represents queue backlog) (msg : Xmqtt.Message) (gPacketId : UInt64)
    (choice : ℕ) :
    Represents (queue.ack msg gPacketId choice).1 (backlog.ack msg gPacketId choice).1 ∧
      (queue.ack msg gPacketId choice).2 = (backlog.ack msg gPacketId choice).2 := by
  rw [Ackqueue.ack, Backlog.ack]
  split_ifs with hacks hwaits hping
  · cases hemap : queue.emap msg.packetId with
    | none => exact absurd hwaits ((hrep.emap_eq_none_iff _).mp hemap)
    | some i =>
        have hfilled := hrep.withPool (backlog.bytesPool.fill msg gPacketId choice).bytesPool
        obtain ⟨entry, hentry, hnext⟩ := hfilled.setEntry hemap msg.type
          (backlog.bytesPool.fill msg gPacketId choice).buffer
        have hcell : queue.ring[i]? = some (some entry) := hentry
        simp only [hcell, Ackqueue.ackEntry, hrep.bytesPool_eq]
        exact ⟨hnext, trivial⟩
  · rw [(hrep.emap_eq_none_iff _).mpr hwaits]
    exact ⟨hrep, rfl⟩
  · rw [← hrep.ping_eq]
    exact ⟨hrep.withPing _, rfl⟩
  · exact ⟨hrep, rfl⟩

section Loops

variable {entries : List AckMsg} {ping : AckMsg} {bp : BytesPool}

/-- One entry after the other leaves the ring until one is not complete. -/
theorem ackedLoop (hrep : Represents queue ⟨entries, ping, bp⟩) (ackdone : List AckMsg) :
    ∃ next, Ackqueue.ackedLoop entries.length queue ackdone =
        some (next, ackdone ++ entries.takeWhile Backlog.completed) ∧
      Represents next ⟨entries.dropWhile Backlog.completed, ping, bp⟩ := by
  induction entries generalizing queue ackdone with
  | nil => exact ⟨queue, by rw [List.takeWhile_nil, List.append_nil]; rfl, hrep⟩
  | cons entry entries ih =>
      have hcount : queue.empty = false := by
        rw [Ackqueue.empty, hrep.count_eq]
        rfl
      have hhead : queue.ring[queue.head]? = some (some entry) := hrep.holds.get_head
      rw [List.length_cons, Ackqueue.ackedLoop, hcount, if_neg Bool.false_ne_true, hhead]
      simp only
      by_cases hdone : Backlog.completed entry = true
      · obtain ⟨next, hnext, hrepNext⟩ := ih hrep.dropHead (ackdone ++ [entry])
        refine ⟨next, ?_, ?_⟩
        · rw [List.append_assoc, List.singleton_append,
            ← List.takeWhile_cons_of_pos hdone] at hnext
          exact (if_pos hdone).trans hnext
        · rwa [List.dropWhile_cons_of_pos hdone]
      · refine ⟨queue, ?_, ?_⟩
        · rw [List.takeWhile_cons_of_neg hdone, List.append_nil]
          exact if_neg hdone
        · rwa [List.dropWhile_cons_of_neg hdone]

/-- The expiry loop looks at the head cell in every round. -/
theorem clearLoop (hrep : Represents queue ⟨entries, ping, bp⟩) (now : ℤ) :
    Represents (Ackqueue.clearLoop now entries.length queue.head queue)
      ⟨entries.dropWhile (Backlog.expired now), ping,
        (entries.takeWhile (Backlog.expired now)).foldl Backlog.release bp⟩ := by
  induction entries generalizing queue bp with
  | nil => exact hrep
  | cons entry entries ih =>
      have hhead : queue.ring[queue.head]? = some (some entry) := hrep.holds.get_head
      rw [List.length_cons, Ackqueue.clearLoop, hhead]
      simp only
      by_cases hexpired : Backlog.expired now entry = true
      · have hlate : now > entry.timestamp + 5 := by
          simpa [Backlog.expired] using hexpired
        have hnext := ih (hrep.withPool (Backlog.release bp entry)).dropHead
        rw [if_pos hlate, List.takeWhile_cons_of_pos hexpired,
          List.dropWhile_cons_of_pos hexpired, List.foldl_cons, hrep.bytesPool_eq]
        exact hnext
      · have hearly : ¬ now > entry.timestamp + 5 := by
          simpa [Backlog.expired] using hexpired
        rw [if_neg hearly, List.takeWhile_cons_of_neg hexpired,
          List.dropWhile_cons_of_neg hexpired]
        exact hrep

end Loops

theorem acked (hrep : Represents queue backlog) :
    Represents queue.acked.1 backlog.acked.1 ∧ queue.acked.2 = backlog.acked.2 := by
  have hping := hrep.withPing (Ackqueue.takePing backlog.ping).1
  obtain ⟨next, hnext, hrepNext⟩ := ackedLoop hping (Ackqueue.takePing backlog.ping).2
  rw [← hrep.count_eq, ← hrep.ping_eq] at hnext
  rw [Ackqueue.acked, hnext]
  exact ⟨hrepNext, by rw [hrep.ping_eq]; rfl⟩

theorem clear (hrep : Represents queue backlog) (now : ℤ) :
    Represents (queue.clear now) (backlog.clear now) := by
  rw [Ackqueue.clear, hrep.count_eq]
  exact clearLoop hrep now

/-- Ring and list stay together in every call, and answer alike. -/
theorem step (hrep : Represents queue backlog) (call : Ackqueue.Call) :
    Represents (queue.step call).1 (backlog.step call).1 ∧
      (queue.step call).2 = (backlog.step call).2 := by
  cases call with
  | wait msg onComplete gPacketId choice now =>
      obtain ⟨hnext, hending⟩ := hrep.wait msg onComplete gPacketId choice now
      exact ⟨hnext, congrArg Reply.ended hending⟩
  | ack msg gPacketId choice =>
      obtain ⟨hnext, hending⟩ := hrep.ack msg gPacketId choice
      exact ⟨hnext, congrArg Reply.ended hending⟩
  | acked => exact hrep.acked
  | tick now => exact ⟨hrep.clear now, rfl⟩

theorem new : Represents (newAckqueue 16 "Pub1ack") (.new "Pub1ack") where
  size_eq := by decide +kernel
  power := ⟨4, by decide +kernel⟩
  mask_eq := by decide +kernel
  holds := Holds.empty (by decide +kernel)
  count_eq := rfl
  tail_eq := by decide +kernel
  emap := Indexes.empty
  ids := by simp [Backlog.new]
  bounded := by decide +kernel
  ping_eq := rfl
  bytesPool_eq := rfl

/-- The name of a queue decides on its pool alone. -/
theorem newNamed (t : String) : Represents (newAckqueue 16 t) (.new t) :=
  ⟨new.size_eq, new.power, new.mask_eq, new.holds, new.count_eq, new.tail_eq, new.emap,
    new.ids, new.bounded, rfl, rfl⟩

/-- The backlog after the same calls. -/
theorem after (hrep : Represents queue backlog) (calls : List Ackqueue.Call) :
    Represents (queue.after calls)
      (calls.foldl (fun backlog call => (backlog.step call).1) backlog) := by
  induction calls generalizing queue backlog with
  | nil => exact hrep
  | cons call calls ih => exact ih (hrep.step call).1

end Represents

/-! ## The ring in its own terms -/

/-- Cell `i` is one of the `count` cells from the head on. -/
def Ackqueue.Occupied (this : Ackqueue) (i : ℕ) : Prop :=
  ∃ k < this.count, i = (this.head + k) % this.size

/-- How the fields of an ack queue fit together. -/
structure Ackqueue.Invariant (this : Ackqueue) : Prop where
  size_eq : this.size = this.ring.length
  power : ∃ k, this.size = 2 ^ k
  mask_eq : this.mask = this.size - 1
  head_lt : this.head < this.size
  tail_lt : this.tail < this.size
  count_le : this.count ≤ this.size
  tail_eq : this.tail = (this.head + this.count) &&& this.mask
  occupied : ∀ i < this.size,
    this.Occupied i ↔ ∃ entry, this.ring[i]? = some (some entry)
  distinct : ∀ (i j : ℕ) (first second : AckMsg), this.ring[i]? = some (some first) →
    this.ring[j]? = some (some second) → first.pktid = second.pktid → i = j
  emap_eq : ∀ pktid i, this.emap pktid = some i ↔
    ∃ entry, this.ring[i]? = some (some entry) ∧ entry.pktid = pktid
  count_bound : this.count ≤ 65536
  size_bound : this.size ≤ 131072
  grows : this.full = true → ∃ grown, this.grow = some grown

namespace Represents

variable {queue : Ackqueue} {backlog : Backlog}

theorem occupied (hrep : Represents queue backlog) {i : ℕ} (hi : i < queue.size) :
    queue.Occupied i ↔ ∃ entry, queue.ring[i]? = some (some entry) := by
  have hlength := hrep.holds.length_le
  rw [Ackqueue.Occupied, hrep.count_eq, hrep.size_eq]
  constructor
  · rintro ⟨k, hk, rfl⟩
    exact ⟨_, hrep.holds.get (List.getElem?_eq_getElem hk)⟩
  · rintro ⟨entry, hentry⟩
    obtain ⟨k, hk, rfl⟩ := hrep.holds.exists_entry hentry
    exact ⟨k, (List.getElem?_eq_some_iff.mp hk).1, rfl⟩

theorem emap_eq_some_iff (hrep : Represents queue backlog) {pktid i : ℕ} :
    queue.emap pktid = some i ↔
      ∃ entry, queue.ring[i]? = some (some entry) ∧ entry.pktid = pktid := by
  rw [hrep.emap pktid i]
  constructor
  · rintro ⟨k, entry, hk, hid, rfl⟩
    exact ⟨entry, hrep.holds.get hk, hid⟩
  · rintro ⟨entry, hentry, hid⟩
    obtain ⟨k, hk, hslot⟩ := hrep.holds.exists_entry hentry
    exact ⟨k, entry, hk, hid, hslot⟩

theorem invariant (hrep : Represents queue backlog) : queue.Invariant where
  size_eq := hrep.size_eq
  power := hrep.power
  mask_eq := hrep.mask_eq
  head_lt := hrep.size_eq ▸ hrep.holds.head_lt
  tail_lt := by
    rw [hrep.tail_eq, hrep.size_eq]
    exact slot_lt (Nat.zero_lt_of_lt hrep.holds.head_lt)
  count_le := by
    rw [hrep.count_eq, hrep.size_eq]
    exact hrep.holds.length_le
  tail_eq := by
    have hindex := hrep.index_eq (queue.head + queue.count)
    rw [Ackqueue.index] at hindex
    rw [hindex, hrep.tail_eq, hrep.count_eq]
    rfl
  occupied := fun i hi => hrep.occupied hi
  distinct := by
    intro i j first second hi hj hid
    have hfirst := hrep.emap_eq_some_iff.mpr ⟨first, hi, rfl⟩
    have hsecond := hrep.emap_eq_some_iff.mpr ⟨second, hj, hid.symm⟩
    exact Option.some.inj (hfirst.symm.trans hsecond)
  emap_eq := fun pktid i => hrep.emap_eq_some_iff
  count_bound := hrep.count_eq ▸ hrep.length_le
  size_bound := hrep.bounded
  grows := by
    intro hfull
    obtain ⟨grown, hgrown, -⟩ := hrep.grow hfull
    exact ⟨grown, hgrown⟩

end Represents

/-- The representation invariant holds after every sequence of calls and ticks. -/
theorem Ackqueue.invariant_after (calls : List Call) :
    ((newAckqueue 16 "Pub1ack").after calls).Invariant :=
  (Represents.new.after calls).invariant

end Xmqtt.Sessions
