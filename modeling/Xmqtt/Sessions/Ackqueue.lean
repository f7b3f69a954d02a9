import Xmqtt.Core.Ring
import Xmqtt.Message.Messages

/-!
# The ack queue

The queue of `ackqueue.go` in which a session keeps the messages that wait for
an acknowledgement: a ring that grows when it is full, a map from packet ids to
cells, and a pool of buffers for the encoded messages.  Every method holds the
queue's mutex from start to end, so a method is one step.  A `none` stands for a Go
panic.
-/

namespace Xmqtt.Sessions

open Xmqtt.Go Xmqtt.Message

/-- How a method without a result ends. -/
inductive Ending where
  | returned (err : Option Err)
  | panicked
  deriving DecidableEq, Repr

/-! ## The byte pool -/

/-- A `[]byte` made for a queue, by its number. -/
abbrev BufferRef := ℕ

/-- `heap` are all buffers that were made, `free` those that were put back and not
handed out since.  `initialized` says whether `sync.Pool` has a `New` function. -/
structure BytesPool where
  width : ℕ
  initialized : Bool
  heap : List Bytes
  free : List BufferRef
  deriving DecidableEq, Repr

namespace BytesPool

def bytes (bp : BytesPool) (bs : BufferRef) : Bytes := bp.heap.getD bs []

/-- `make([]byte, length)`. -/
def make (bp : BytesPool) (length : ℕ) : BytesPool × BufferRef :=
  ({ bp with heap := bp.heap ++ [List.replicate length 0] }, bp.heap.length)

/-- `choice` is the buffer that `sync.Pool` hands out.  Behind the last one it makes
a new one; without a `New` function it returns `nil`, which is no `[]byte`. -/
def get (bp : BytesPool) (length choice : ℕ) : Option (BytesPool × BufferRef) :=
  if length < bp.width then
    match bp.free[choice]? with
    | some bs => some ({ bp with free := bp.free.eraseIdx choice }, bs)
    | none => if bp.initialized then some (bp.make 8192) else none
  else some (bp.make length)

/-- A `nil` slice has capacity zero and is not kept. -/
def put (bp : BytesPool) : Option BufferRef → BytesPool
  | none => bp
  | some bs =>
      if (bp.bytes bs).length = bp.width then { bp with free := bp.free ++ [bs] } else bp

/-- Write into a buffer that was handed out; a slice keeps its length. -/
def write (bp : BytesPool) (bs : BufferRef) (contents : Bytes) : BytesPool :=
  { bp with
    heap := bp.heap.set bs
      ((contents ++ (bp.bytes bs).drop contents.length).take (bp.bytes bs).length) }

/-- What has become of the pool, which buffer was taken from it, and whether the
message is in that buffer. -/
structure Filled where
  bytesPool : BytesPool
  buffer : Option BufferRef
  ending : Ending
  deriving DecidableEq, Repr

/-- `Get(msg.Len())` and `msg.Encode` into that buffer. -/
def fill (bp : BytesPool) (msg : Xmqtt.Message) (gPacketId : UInt64) (choice : ℕ) : Filled :=
  match bp.get msg.len.2 choice with
  | none => ⟨bp, none, .panicked⟩
  | some (bp, bs) =>
      match msg.len.1.encode (bp.bytes bs) gPacketId with
      | .panic => ⟨bp, some bs, .panicked⟩
      | .fail state _ err => ⟨bp.write bs state.dst, some bs, .returned (some err)⟩
      | .done state _ => ⟨bp.write bs state.dst, some bs, .returned none⟩

end BytesPool

/-! ## The queue -/

/-- The struct `ackmsg`.  `onComplete` says whether there is a function to call. -/
structure AckMsg where
  mtype : MessageType
  state : MessageType
  pktid : ℕ
  msgbuf : Option BufferRef
  ackbuf : Option BufferRef
  onComplete : Bool
  timestamp : ℤ
  deriving DecidableEq, Repr

/-- `ackmsg{}`. -/
def AckMsg.zero : AckMsg where
  mtype := .reserved
  state := .reserved
  pktid := 0
  msgbuf := none
  ackbuf := none
  onComplete := false
  timestamp := 0

/-- The entry that `insert` makes for a message. -/
def AckMsg.waiting (msg : Xmqtt.Message) (msgbuf : Option BufferRef) (onComplete : Bool)
    (now : ℤ) : AckMsg where
  mtype := msg.type
  state := .reserved
  pktid := msg.packetId
  msgbuf := msgbuf
  ackbuf := none
  onComplete := onComplete
  timestamp := now

/-- The entry once it has taken an ack, whose buffer is `ackbuf` if there was one. -/
def AckMsg.answered (am : AckMsg) (state : MessageType) (ackbuf : Option BufferRef) :
    AckMsg :=
  { am with state := state, ackbuf := ackbuf <|> am.ackbuf }

structure Ackqueue where
  size : ℕ
  mask : ℕ
  count : ℕ
  head : ℕ
  tail : ℕ
  ping : AckMsg
  ring : List (Option AckMsg)
  emap : ℕ → Option ℕ
  bytesPool : BytesPool

def powerOfTwo64 (n : Int64) : Bool := n != 0 && (n &&& (n - 1)) == 0

def roundUpPowerOfTwo64 (n : Int64) : Int64 :=
  let n := n - 1
  let n := n ||| n >>> 1
  let n := n ||| n >>> 2
  let n := n ||| n >>> 4
  let n := n ||| n >>> 8
  let n := n ||| n >>> 16
  let n := n ||| n >>> 32
  n + 1

/-- Only the queue called `Pub1ack` initialises its pool and clears itself. -/
def newAckqueue (n : Int64) (t : String) : Ackqueue :=
  let m := if powerOfTwo64 n then n else roundUpPowerOfTwo64 n
  { size := m.toInt.toNat
    mask := (m - 1).toInt.toNat
    count := 0
    head := 0
    tail := 0
    ping := .zero
    ring := List.replicate m.toInt.toNat none
    emap := fun _ => none
    bytesPool := ⟨8192, t == "Pub1ack", [], []⟩ }

def errWaitMessage : Err := .errorf "Invalid message to wait for ack" []
def errAckMessage : Err := .errorf "Invalid message for acking" []

/-- How a method ends. -/
inductive Reply where
  | ended (ending : Ending)
  | acked (ackdone : List AckMsg)
  deriving DecidableEq, Repr

/-- `math.MaxInt64`. -/
def maxInt64 : ℕ := 2 ^ 63 - 1

namespace Ackqueue

def index (this : Ackqueue) (n : ℕ) : ℕ := n &&& this.mask

def increment (this : Ackqueue) (n : ℕ) : ℕ := this.index (n + 1)

def full (this : Ackqueue) : Bool := this.count == this.size

def empty (this : Ackqueue) : Bool := this.count == 0

/-- `copy(dst[at:], src)`. -/
def copyAt (dst : List (Option AckMsg)) (offset : ℕ) (src : List (Option AckMsg)) :
    List (Option AckMsg) :=
  (dst.take offset ++ src ++ dst.drop (offset + src.length)).take dst.length

/-- The ring of `newsize` cells to which `grow` copies the entries. -/
def newring (this : Ackqueue) (newsize : ℕ) : List (Option AckMsg) :=
  if this.tail > this.head then
    copyAt (List.replicate newsize none) 0
      ((this.ring.take this.tail).drop this.head)
  else
    copyAt
      (copyAt (List.replicate newsize none) 0 (this.ring.drop this.head))
      (this.size - this.head) (this.ring.take this.tail)

/-- The loop of `grow` that fills the new map; it dereferences every cell. -/
def rebuildEmap (cells : List (Option AckMsg)) : Option (ℕ → Option ℕ) :=
  cells.zipIdx.foldlM
    (fun emap cell => cell.1.map fun entry => Function.update emap entry.pktid (some cell.2))
    fun _ => none

def grow (this : Ackqueue) : Option Ackqueue :=
  if maxInt64 / 2 < this.size then none
  else
    let newsize := this.size <<< 1
    let ring := this.newring newsize
    match rebuildEmap (ring.take this.count) with
    | none => none
    | some emap =>
        some
          { this with
            ring := ring
            size := newsize
            mask := newsize - 1
            head := 0
            tail := this.count
            emap := emap }

/-- The part of `insert` that puts a new entry into the ring. -/
def store (this : Ackqueue) (pktid : ℕ) (am : AckMsg) : Ackqueue :=
  { this with
    ring := this.ring.set this.tail (some am)
    emap := Function.update this.emap pktid (some this.tail)
    tail := this.increment this.tail
    count := this.count + 1 }

/-- The first branch of `insert`: the message is encoded into a buffer of the pool. -/
def insertNew (this : Ackqueue) (pktid : ℕ) (msg : Xmqtt.Message) (onComplete : Bool)
    (gPacketId : UInt64) (choice : ℕ) (now : ℤ) : Ackqueue × Ending :=
  let filled := this.bytesPool.fill msg gPacketId choice
  let this := { this with bytesPool := filled.bytesPool }
  if filled.ending = .returned none then
    (this.store pktid (.waiting msg filled.buffer onComplete now), .returned none)
  else (this, filled.ending)

/-- The second branch of `insert`, for a packet id that is already waiting.  The
test of the DUP flag is the other way round than its error text. -/
def insertDuplicate : Xmqtt.Message → Option Err
  | .publish pm =>
      if pm.dup then
        some (.errorf
          "ack/insert: duplicate packet ID for PUBLISH message, but DUP flag is not set" [])
      else none
  | msg =>
      some (.errorf "ack/insert: duplicate packet ID for %s message"
        [.string msg.type.name])

def insert (this : Ackqueue) (pktid : ℕ) (msg : Xmqtt.Message) (onComplete : Bool)
    (gPacketId : UInt64) (choice : ℕ) (now : ℤ) : Ackqueue × Ending :=
  match (if this.full then this.grow else some this) with
  | none => (this, .panicked)
  | some this =>
      match this.emap pktid with
      | none => this.insertNew pktid msg onComplete gPacketId choice now
      | some _ => (this, .returned (insertDuplicate msg))

/-- `Wait` drops the error of `insert`, but not a panic. -/
def dropError : Ending → Ending
  | .returned _ => .returned none
  | .panicked => .panicked

def waitInsert (this : Ackqueue) (msg : Xmqtt.Message) (onComplete : Bool)
    (gPacketId : UInt64) (choice : ℕ) (now : ℤ) : Ackqueue × Ending :=
  let inserted := this.insert msg.packetId msg onComplete gPacketId choice now
  (inserted.1, dropError inserted.2)

/-- `Wait`; `gPacketId` is the counter of the `message` package, `now` is
`time.Now().Unix()`. -/
def wait (this : Ackqueue) (msg : Xmqtt.Message) (onComplete : Bool)
    (gPacketId : UInt64) (choice : ℕ) (now : ℤ) : Ackqueue × Ending :=
  match msg with
  | .publish pm =>
      if pm.qos = qosAtMostOnce then (this, .returned (some errWaitMessage))
      else this.waitInsert msg onComplete gPacketId choice now
  | .subscribe _ => this.waitInsert msg onComplete gPacketId choice now
  | .unsubscribe _ => this.waitInsert msg onComplete gPacketId choice now
  | .pingreq _ =>
      ({ this with
        ping := { AckMsg.zero with mtype := .pingreq, onComplete := onComplete } },
        .returned none)
  | _ => (this, .returned (some errWaitMessage))

/-- The types of `Ack` that are looked up in the ring. -/
def acksEntry : MessageType → Bool
  | .puback | .pubrec | .pubrel | .pubcomp | .suback | .unsuback => true
  | _ => false

/-- Replace the entry in a cell. -/
def setEntry (this : Ackqueue) (i : ℕ) (entry : AckMsg) : Ackqueue :=
  { this with ring := this.ring.set i (some entry) }

/-- The entry in cell `i` takes the ack.  A buffer it got from an earlier ack is
left to the garbage collector. -/
def ackEntry (this : Ackqueue) (i : ℕ) (entry : AckMsg) (msg : Xmqtt.Message)
    (gPacketId : UInt64) (choice : ℕ) : Ackqueue × Ending :=
  let filled := this.bytesPool.fill msg gPacketId choice
  (({ this with bytesPool := filled.bytesPool }).setEntry i
    (entry.answered msg.type filled.buffer), filled.ending)

/-- A PINGRESP answers the PINGREQ that waits, if there is one. -/
def answerPing (ping : AckMsg) : AckMsg :=
  if ping.mtype = .pingreq then { ping with state := .pingresp } else ping

def ack (this : Ackqueue) (msg : Xmqtt.Message) (gPacketId : UInt64) (choice : ℕ) :
    Ackqueue × Ending :=
  if acksEntry msg.type then
    match this.emap msg.packetId with
    | none => (this, .returned none)
    | some i =>
        match this.ring[i]? with
        | some (some entry) => this.ackEntry i entry msg gPacketId choice
        | _ => (this, .panicked)
  else if msg.type = .pingresp then
    ({ this with ping := answerPing this.ping }, .returned none)
  else (this, .returned (some errAckMessage))

/-- The states that end an ack cycle. -/
def completes : MessageType → Bool
  | .puback | .pubrel | .pubcomp | .suback | .unsuback => true
  | _ => false

/-- What `removeHead` and the expiry do alike: the head entry leaves the ring. -/
def dropHead (this : Ackqueue) (pktid : ℕ) : Ackqueue :=
  { this with
    ring := this.ring.set this.head none
    head := this.increment this.head
    count := this.count - 1
    emap := Function.update this.emap pktid none }

/-- The loop of `Acked`.  Every round takes one from `count`, so `count` rounds are
enough. -/
def ackedLoop : ℕ → Ackqueue → List AckMsg → Option (Ackqueue × List AckMsg)
  | 0, this, ackdone => some (this, ackdone)
  | rounds + 1, this, ackdone =>
      if this.empty then some (this, ackdone)
      else
        match this.ring[this.head]? with
        | some (some entry) =>
            if completes entry.state then
              ackedLoop rounds (this.dropHead entry.pktid) (ackdone ++ [entry])
            else some (this, ackdone)
        | _ => none

/-- A PINGRESP that has come is handed over first. -/
def takePing (ping : AckMsg) : AckMsg × List AckMsg :=
  if ping.state = .pingresp then (.zero, [ping]) else (ping, [])

def acked (this : Ackqueue) : Ackqueue × Reply :=
  match ackedLoop this.count { this with ping := (takePing this.ping).1 }
      (takePing this.ping).2 with
  | none => (this, .ended .panicked)
  | some (this, ackdone) => (this, .acked ackdone)

/-- The expiry loop of `Clear`, with `rounds` entries left in the ring.  It looks at
cell `i` and empties the cell at the head. -/
def clearLoop (now : ℤ) : ℕ → ℕ → Ackqueue → Ackqueue
  | 0, _, this => this
  | rounds + 1, i, this =>
      match this.ring[i]? with
      | some (some head) =>
          if now > head.timestamp + 5 then
            clearLoop now rounds (this.increment i)
              (({ this with
                bytesPool := (this.bytesPool.put head.msgbuf).put head.ackbuf }).dropHead
                  head.pktid)
          else this
      | _ => this

/-- A tick of the timer in `Clear`. -/
def clear (this : Ackqueue) (now : ℤ) : Ackqueue :=
  clearLoop now this.count this.head this

/-! ## Runs -/

/-- A call of one of the methods, or a tick. -/
inductive Call where
  | wait (msg : Xmqtt.Message) (onComplete : Bool) (gPacketId : UInt64) (choice : ℕ)
      (now : ℤ)
  | ack (msg : Xmqtt.Message) (gPacketId : UInt64) (choice : ℕ)
  | acked
  | tick (now : ℤ)
  deriving DecidableEq, Repr

def step (this : Ackqueue) : Call → Ackqueue × Reply
  | .wait msg onComplete gPacketId choice now =>
      ((this.wait msg onComplete gPacketId choice now).1,
        .ended (this.wait msg onComplete gPacketId choice now).2)
  | .ack msg gPacketId choice =>
      ((this.ack msg gPacketId choice).1, .ended (this.ack msg gPacketId choice).2)
  | .acked => this.acked
  | .tick now => (this.clear now, .ended (.returned none))

/-- The queue after some calls. -/
def after (this : Ackqueue) (calls : List Call) : Ackqueue :=
  calls.foldl (fun this call => (this.step call).1) this

end Ackqueue

end Xmqtt.Sessions
