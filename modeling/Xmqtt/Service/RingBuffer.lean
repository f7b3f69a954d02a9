import Xmqtt.Core.Circular
import Xmqtt.Go.Slice

/-!
# The ring buffer

The ring buffer of `buffer.go`, between one producer and one consumer.  Each of them is where
its program is between two accesses to what they share: a load or a store of a cursor, a look
at `done`, or one byte of the ring.  The producer alone stores `pseq` and its gate, the
consumer alone stores `cseq`.

The positions are `int64` that only grow; here they are numbers.  The two agree while a
position plus the length of a call is below `2 ^ 63`: the model is of a ring that fewer than
`2 ^ 63` bytes go through.  The two condition variables only say when to look again, so that a
party that waits may look again at any time.
-/

namespace Xmqtt.Service

open Xmqtt.Core Xmqtt.Go

namespace RingBuffer

def defaultBufferSize : ℕ := 1024 * 256

def defaultReadBlockSize : ℕ := 8192

def powerOfTwo64 (n : ℕ) : Bool := n ≠ 0 && (n &&& (n - 1)) = 0

theorem powerOfTwo64_iff {k : ℕ} : powerOfTwo64 k = true ↔ k.isPowerOfTwo := by
  rw [powerOfTwo64, Bool.and_eq_true, decide_eq_true_eq, decide_eq_true_eq]
  constructor
  · intro ⟨hne, hand⟩
    exact (Nat.and_sub_one_eq_zero_iff_isPowerOfTwo hne).mp hand
  · intro hpower
    have hne : k ≠ 0 := (Nat.pos_of_isPowerOfTwo hpower).ne'
    exact ⟨hne, (Nat.and_sub_one_eq_zero_iff_isPowerOfTwo hne).mpr hpower⟩

def roundUpPowerOfTwo64 (n : ℕ) : ℕ :=
  let n := n - 1
  let n := n ||| n >>> 1
  let n := n ||| n >>> 2
  let n := n ||| n >>> 4
  let n := n ||| n >>> 8
  let n := n ||| n >>> 16
  let n := n ||| n >>> 32
  n + 1

/-- The errors of `io`, of `bufio` and of the buffer itself. -/
inductive BufErr where
  | eof
  | bufferFull
  | negativeCount
  | insufficientData
  | errorf (format : String) (args : List ℕ)
  deriving DecidableEq, Repr

/-- What `waitForWriteSpace` is called for. -/
inductive Purpose where
  | write (p : Bytes)
  | writeWait
  | readFrom
  | writeCommit (filled : Bytes)
  deriving DecidableEq, Repr

/-- Where the producer is. -/
inductive Producer where
  /-- It has returned from its last call. -/
  | idle (n : ℕ) (err : Option BufErr)
  /-- In `waitForWriteSpace`: about to look at `done`, to load `pseq`, to compare with its gate,
  to load `cseq` and to look at `done` again. -/
  | enter (purpose : Purpose) (n : ℕ)
  | load (purpose : Purpose) (n : ℕ)
  | compare (purpose : Purpose) (n ppos : ℕ)
  | look (purpose : Purpose) (n ppos : ℕ)
  | stall (purpose : Purpose) (n ppos : ℕ)
  /-- In `ringCopy`: `i` bytes are copied. -/
  | copy (p : Bytes) (start i : ℕ)
  /-- The caller of `WriteWait`, or the reader of `ReadFrom`, has a slice of the ring. -/
  | reserved (start cnt : ℕ)
  /-- About to store `pseq`. -/
  | store (pos : ℕ) (bytes : Bytes)
  deriving DecidableEq, Repr

/-- The two ways of looking at what is there. -/
inductive Peek where
  | readPeek
  | readWait
  deriving DecidableEq, Repr

/-- Where the consumer is. -/
inductive Consumer where
  | idle (n : ℕ) (err : Option BufErr)
  /-- At the start of `Read`: about to look at `done`, and to load both cursors in `Len`. -/
  | enter (pl : ℕ)
  | lenLoad (pl : ℕ)
  | lenLook (pl cpos : ℕ)
  /-- In the loop of `Read`: about to load `cseq` and `pseq`. -/
  | load (pl : ℕ)
  | look (pl cpos : ℕ)
  /-- In the waiting loop of `Read`: about to load `pseq` and to look at `done`. -/
  | wait (pl cpos : ℕ)
  | stall (pl cpos : ℕ)
  /-- In the `copy` of `Read`, with what is copied so far. -/
  | copy (cpos n : ℕ) (got : Bytes)
  /-- About to store `cseq`. -/
  | store (pos : ℕ) (bytes : Bytes)
  /-- In `ReadPeek` or `ReadWait`: about to load `cseq`, `pseq`, and to look at `done`. -/
  | peekLoad (peek : Peek) (n : ℕ)
  | peekLook (peek : Peek) (n cpos : ℕ)
  | peekStall (peek : Peek) (n cpos : ℕ)
  /-- Bytes that wrap around are copied to `tmp`. -/
  | tmp (cpos m : ℕ) (err : Option BufErr) (got : Bytes)
  /-- It has a slice. -/
  | held (slice : Bytes) (err : Option BufErr)
  /-- In `ReadCommit`: about to load `cseq` and `pseq`. -/
  | commitLoad (n : ℕ) (slice : Bytes)
  | commitLook (n cpos : ℕ) (slice : Bytes)
  deriving DecidableEq, Repr

end RingBuffer

open RingBuffer

/-- The buffer and where its two parties are, with what they have committed and every slice
that the consumer was given, each with the position of the consumer then. -/
structure RingBuffer where
  buf : Bytes
  size : ℕ
  done : Bool
  pseq : ℕ
  gate : ℕ
  cseq : ℕ
  producer : Producer
  consumer : RingBuffer.Consumer
  sent : Bytes
  received : Bytes
  slices : List (ℕ × Bytes)
  deriving DecidableEq, Repr

namespace RingBuffer

def newBuffer (size : ℤ) : Except BufErr RingBuffer :=
  if size < 0 then .error .negativeCount
  else
    let size := if size = 0 then defaultBufferSize else size.toNat
    if !powerOfTwo64 size then
      .error (.errorf "Size must be power of two. Try %d." [roundUpPowerOfTwo64 size])
    else if size < 2 * defaultReadBlockSize then
      .error (.errorf "Size must at least be %d. Try %d."
        [2 * defaultReadBlockSize, 2 * defaultReadBlockSize])
    else
      .ok {
        buf := List.replicate size 0
        size := size
        done := false
        pseq := 0
        gate := 0
        cseq := 0
        producer := .idle 0 none
        consumer := .idle 0 none
        sent := []
        received := []
        slices := [] }

/-- The index of a position in the ring. -/
def index (this : RingBuffer) (pos : ℕ) : ℕ := pos &&& (this.size - 1)

/-! ## The producer -/

/-- The producer has returned from a call. -/
def produced (this : RingBuffer) (n : ℕ) (err : Option BufErr) : RingBuffer :=
  { this with producer := .idle n err }

/-- Behind `waitForWriteSpace`. -/
def granted (this : RingBuffer) (n ppos : ℕ) : Purpose → RingBuffer
  | .write p => { this with producer := .copy p ppos 0 }
  | .writeWait =>
      -- A slice that wraps around goes up to the end of the ring, and is not committed.
      if this.index ppos + n > this.size then this.produced (this.size - this.index ppos) none
      else { this with producer := .reserved ppos n }
  | .readFrom =>
      { this with
        producer := .reserved ppos (min (this.index ppos + n) this.size - this.index ppos) }
  | .writeCommit filled => { this with producer := .store (ppos + n) filled }

/-- The next access of the producer. -/
def produce (this : RingBuffer) : RingBuffer :=
  match this.producer with
  | .idle _ _ => this
  | .enter purpose n =>
      if this.done then this.produced 0 (some .eof)
      else { this with producer := .load purpose n }
  | .load purpose n => { this with producer := .compare purpose n this.pseq }
  | .compare purpose n ppos =>
      if (ppos + n : ℤ) - this.size > this.gate ∨ this.gate > ppos then
        { this with producer := .look purpose n ppos }
      else this.granted n ppos purpose
  | .look purpose n ppos =>
      if (ppos + n : ℤ) - this.size > this.cseq then
        { this with producer := .stall purpose n ppos }
      else { this with gate := this.cseq }.granted n ppos purpose
  | .stall purpose n ppos =>
      if this.done then this.produced 0 (some .eof)
      else { this with producer := .look purpose n ppos }
  | .copy p start i =>
      match p[i]? with
      | some byte =>
          { this with
            buf := this.buf.set (Ring.slot this.size (this.index start) i) byte
            producer := .copy p start (i + 1) }
      | none => { this with producer := .store (start + p.length) p }
  | .reserved _ _ => this
  | .store pos bytes =>
      { this with pseq := pos, sent := this.sent ++ bytes }.produced bytes.length none

/-! ## The consumer -/

def consumed (this : RingBuffer) (n : ℕ) (err : Option BufErr) : RingBuffer :=
  { this with consumer := .idle n err }

/-- A slice is returned. -/
def hands (this : RingBuffer) (slice : Bytes) (consumer : Consumer) : RingBuffer :=
  { this with slices := this.slices ++ [(this.cseq, slice)], consumer := consumer }

/-- How many bytes `Read` copies into `pl` bytes, if there are any. -/
def readCount (this : RingBuffer) (pl cpos ppos : ℕ) : Option ℕ :=
  if cpos + pl < ppos then some (min pl (this.size - this.index cpos))
  else if cpos < ppos then
    if this.index cpos + (ppos - cpos) < this.size then some (min pl (ppos - cpos))
    else some (min pl (this.size - this.index cpos))
  else none

/-- How many bytes `ReadPeek` and `ReadWait` return, with which error, if there are enough. -/
def peekCount (n cpos ppos : ℕ) : Peek → Option (ℕ × Option BufErr)
  | .readPeek =>
      if cpos ≥ ppos then none
      else if ppos - cpos ≥ n then some (n, none)
      else some (ppos - cpos, some .insufficientData)
  | .readWait => if cpos + n > ppos then none else some (n, none)

/-- The next access of the consumer. -/
def consume (this : RingBuffer) : RingBuffer :=
  match this.consumer with
  | .idle _ _ => this
  | .enter pl => { this with consumer := if this.done then .lenLoad pl else .load pl }
  | .lenLoad pl => { this with consumer := .lenLook pl this.cseq }
  | .lenLook pl cpos =>
      if (this.pseq : ℤ) - cpos = 0 then this.consumed 0 (some .eof)
      else { this with consumer := .load pl }
  | .load pl => { this with consumer := .look pl this.cseq }
  | .look pl cpos =>
      match this.readCount pl cpos this.pseq with
      | some n => { this with consumer := .copy cpos n [] }
      | none => { this with consumer := .wait pl cpos }
  | .wait pl cpos =>
      { this with consumer := if cpos ≥ this.pseq then .stall pl cpos else .load pl }
  | .stall pl cpos =>
      if this.done then this.consumed 0 (some .eof)
      else { this with consumer := .wait pl cpos }
  | .copy cpos n got =>
      if got.length < n then
        { this with
          consumer := .copy cpos n
            (got ++ (this.buf[this.index cpos + got.length]?).toList) }
      else this.hands got (.store (cpos + n) got)
  | .store pos bytes =>
      { this with cseq := pos, received := this.received ++ bytes }.consumed bytes.length none
  | .peekLoad peek n => { this with consumer := .peekLook peek n this.cseq }
  | .peekLook peek n cpos =>
      match peekCount n cpos this.pseq peek with
      | none => { this with consumer := .peekStall peek n cpos }
      | some (m, err) =>
          if this.index cpos + m > this.size then { this with consumer := .tmp cpos m err [] }
          else
            let slice := (this.buf.drop (this.index cpos)).take m
            this.hands slice (.held slice err)
  | .peekStall peek n cpos =>
      if this.done then this.consumed 0 (some .eof)
      else { this with consumer := .peekLook peek n cpos }
  | .tmp cpos m err got =>
      if got.length < m then
        { this with
          consumer := .tmp cpos m err
            (got ++ (this.buf[Ring.slot this.size (this.index cpos) got.length]?).toList) }
      else this.hands got (.held got err)
  | .held _ _ => this
  | .commitLoad n slice => { this with consumer := .commitLook n this.cseq slice }
  | .commitLook n cpos slice =>
      if cpos + n ≤ this.pseq then { this with consumer := .store (cpos + n) (slice.take n) }
      else this.consumed 0 (some .insufficientData)

/-! ## Interleavings -/

/-- The calls of the two parties, what the owner of a slice does with it, and the next access
of either party. -/
inductive Action where
  | close
  | write (p : Bytes)
  | writeWait (n : ℕ)
  | readFrom
  | fill (i : ℕ) (byte : Byte)
  | writeCommit (n : ℕ)
  | giveUp
  | produce
  | read (pl : ℕ)
  | peek (peek : Peek) (n : ℤ)
  | readCommit (n : ℕ)
  | consume
  deriving DecidableEq, Repr

/-- The producer calls when it has returned.  Its requests are of at most `size` bytes. -/
def callProducer (this : RingBuffer) (n : ℕ) (purpose : Purpose) : RingBuffer :=
  match this.producer with
  | .idle _ _ => if n ≤ this.size then { this with producer := .enter purpose n } else this
  | _ => this

/-- The consumer calls when it has returned, also when it has a slice. -/
def callConsumer (this : RingBuffer) (consumer : Consumer) : RingBuffer :=
  match this.consumer with
  | .idle _ _ | .held _ _ => { this with consumer := consumer }
  | _ => this

def step (this : RingBuffer) : Action → RingBuffer
  | .close => { this with done := true }
  | .write p => if this.done then this else this.callProducer p.length (.write p)
  | .writeWait n => this.callProducer n .writeWait
  | .readFrom =>
      if this.done then this else this.callProducer defaultReadBlockSize .readFrom
  | .fill i byte =>
      match this.producer with
      | .reserved start cnt =>
          if i < cnt then { this with buf := this.buf.set (this.index start + i) byte } else this
      | _ => this
  | .writeCommit n =>
      match this.producer with
      | .reserved start cnt =>
          if n ≤ cnt then
            { this with
              producer := .enter
                (.writeCommit ((this.buf.drop (this.index start)).take n)) n }
          else this
      | _ => this
  | .giveUp =>
      match this.producer with
      | .reserved _ _ => this.produced 0 none
      | _ => this
  | .produce => this.produce
  | .read pl => this.callConsumer (.enter pl)
  | .peek peek n =>
      if n > this.size then this.callConsumer (.idle 0 (some .bufferFull))
      else if n < 0 then this.callConsumer (.idle 0 (some .negativeCount))
      else this.callConsumer (.peekLoad peek n.toNat)
  | .readCommit n =>
      match this.consumer with
      | .held slice _ =>
          -- At most what was returned is committed.
          if n ≤ slice.length then { this with consumer := .commitLoad n slice } else this
      | _ => this
  | .consume => this.consume

end RingBuffer

end Xmqtt.Service
