import Xmqtt.Go.Slice

/-!
# Pooled writers

`sendData` writes every packet through a `bufio.Writer` that it takes out of a pool
which all connections share.  Any number of goroutines do so at the same time, several
of them also for one connection.
-/

namespace Xmqtt.Service

open Xmqtt.Go

/-! ## `bufio.Writer` -/

/-- A writer with a buffer of `size` bytes: what is buffered, the connection that it writes
to, and whether an earlier write to it has failed. -/
structure Writer where
  size : ℕ
  buffered : Bytes
  wr : Option ℕ
  failed : Bool
  deriving DecidableEq, Repr

namespace Writer

/-- `bufio.NewWriterSize`. -/
def new (wr size : ℕ) : Writer := ⟨if size = 0 then 4096 else size, [], some wr, false⟩

def reset (this : Writer) (wr : Option ℕ) : Writer := ⟨this.size, [], wr, false⟩

def available (this : Writer) : ℕ := this.size - this.buffered.length

/-- `Write` of bytes that the buffer has room for.  Others it would have to write to the
connection itself. -/
def write (this : Writer) (p : Bytes) : Option Writer :=
  if this.failed then none
  else if p.length ≤ this.available then some { this with buffered := this.buffered ++ p }
  else none

end Writer

inductive WriterPool where
  | bufioWriter2kPool
  | bufioWriter4kPool
  deriving DecidableEq, Repr

def bufioWriterPool (size : ℕ) : Option WriterPool :=
  if size = 2048 then some .bufioWriter2kPool
  else if size = 4096 then some .bufioWriter4kPool
  else none

/-- The size of the writer for a packet of `n` bytes. -/
def writerSize (n : ℕ) : ℕ :=
  if n ≤ 2048 then 2048
  else if 2048 < n ∧ n ≤ 4096 then 4096
  else if 4096 < n ∧ n ≤ 8192 then 8192
  else n

/-! ## Calls of `sendData` -/

/-- What a call does next: `newBufioWriterSize`, `Reset` of a writer from the pool, `Write`,
`Flush`, the `Reset(nil)` behind it, or `Put`. -/
inductive SendPoint where
  | opening
  | taken (w : ℕ)
  | ready (w : ℕ)
  | buffered (w : ℕ)
  | flushed (w : ℕ)
  | cleared (w : ℕ)
  | returned (failed : Bool)
  deriving DecidableEq, Repr

/-- The writer that a call works with. -/
def SendPoint.writer : SendPoint → Option ℕ
  | taken w | ready w | buffered w | flushed w | cleared w => some w
  | opening | returned _ => none

/-- A call that has encoded its message. -/
structure SendCall where
  conn : ℕ
  packet : Bytes
  point : SendPoint
  deriving DecidableEq, Repr

/-- A `Write` of a connection. -/
structure ConnWrite where
  call : ℕ
  conn : ℕ
  bytes : Bytes
  deriving DecidableEq, Repr

/-- The writers that were made, the pools, the calls, and what was written so far. -/
structure Writers where
  heap : ℕ → Writer
  made : ℕ
  pool : WriterPool → List ℕ
  calls : ℕ → Option SendCall
  log : List ConnWrite

/-- A new call, `newBufioWriterSize` with the writer that the pool hands out, `Flush` with the
number of bytes behind which it fails, and the other steps of a call.  The garbage collector
empties pools. -/
inductive WritersStep where
  | send (call conn : ℕ) (packet : Bytes)
  | newWriter (call : ℕ) (pooled : Option ℕ)
  | flush (call : ℕ) (fails : Option ℕ)
  | goOn (call : ℕ)
  | collect (pool : WriterPool) (w : ℕ)
  deriving DecidableEq, Repr

namespace Writers

def new : Writers := ⟨fun _ => ⟨0, [], none, false⟩, 0, fun _ => [], fun _ => none, []⟩

variable (this : Writers)

def setCall (call : ℕ) (sending : SendCall) (point : SendPoint) : Writers :=
  { this with calls := Function.update this.calls call (some { sending with point := point }) }

def setWriter (w : ℕ) (writer : Writer) : Writers :=
  { this with heap := Function.update this.heap w writer }

def newBufioWriterSize (call : ℕ) (sending : SendCall) (pooled : Option ℕ) : Option Writers :=
  let size := writerSize sending.packet.length
  match bufioWriterPool size, pooled with
  | some pool, some w =>
      if w ∈ this.pool pool then
        some ({ this with
          pool := Function.update this.pool pool ((this.pool pool).erase w) }.setCall call
            sending (.taken w))
      else none
  | none, some _ => none
  | _, none =>
      some ({ this.setWriter this.made (.new sending.conn size) with
        made := this.made + 1 }.setCall call sending (.ready this.made))

def write (write : ConnWrite) : Writers := { this with log := this.log ++ [write] }

/-- `Flush` writes to the connection that the writer was reset to. -/
def flush (call : ℕ) (sending : SendCall) (w : ℕ) (fails : Option ℕ) : Option Writers :=
  let writer := this.heap w
  if writer.failed then some (this.setCall call sending (.returned true))
  else if writer.buffered = [] then some (this.setCall call sending (.flushed w))
  else
    match writer.wr, fails with
    | none, _ => none
    | some conn, none =>
        some (((this.setWriter w { writer with buffered := [] }).write
          ⟨call, conn, writer.buffered⟩).setCall call sending (.flushed w))
    | some conn, some n =>
        some (((this.setWriter w { writer with
          buffered := writer.buffered.drop n
          failed := true }).write
            ⟨call, conn, writer.buffered.take n⟩).setCall call sending (.returned true))

/-- The end of `sendData` behind `Flush`, up to the `Reset(nil)`. -/
def clear (call : ℕ) (sending : SendCall) (w : ℕ) : Writers :=
  let size := writerSize sending.packet.length
  (this.setWriter w ((this.heap w).reset none)).setCall call sending
    (if size = 2048 ∨ size = 4096 ∨ size = 8192 then .cleared w else .returned false)

/-- `Put` in `putBufioWriter`. -/
def putBufioWriter (call : ℕ) (sending : SendCall) (w : ℕ) : Writers :=
  match bufioWriterPool (this.heap w).available with
  | some pool =>
      { this with pool := Function.update this.pool pool (w :: this.pool pool) }.setCall call
        sending (.returned false)
  | none => this.setCall call sending (.returned false)

def goOn (call : ℕ) (sending : SendCall) : Option Writers :=
  match sending.point with
  | .taken w =>
      some ((this.setWriter w ((this.heap w).reset (some sending.conn))).setCall call sending
        (.ready w))
  | .ready w =>
      ((this.heap w).write sending.packet).map fun writer =>
        (this.setWriter w writer).setCall call sending (.buffered w)
  | .flushed w => some (this.clear call sending w)
  | .cleared w => some (this.putBufioWriter call sending w)
  | .opening | .buffered _ | .returned _ => none

def step : WritersStep → Option Writers
  | .send call conn packet =>
      if this.calls call = none then some (this.setCall call ⟨conn, packet, .opening⟩ .opening)
      else none
  | .newWriter call pooled =>
      match this.calls call with
      | some ⟨conn, packet, .opening⟩ =>
          this.newBufioWriterSize call ⟨conn, packet, .opening⟩ pooled
      | _ => none
  | .flush call fails =>
      match this.calls call with
      | some ⟨conn, packet, .buffered w⟩ =>
          this.flush call ⟨conn, packet, .buffered w⟩ w fails
      | _ => none
  | .goOn call => (this.calls call).bind (this.goOn call)
  | .collect pool w =>
      if w ∈ this.pool pool then
        some { this with pool := Function.update this.pool pool ((this.pool pool).erase w) }
      else none

/-- The writer that a call works with. -/
def held (call : ℕ) : Option ℕ := (this.calls call).bind fun sending => sending.point.writer

@[simp]
theorem held_setCall (call : ℕ) (sending : SendCall) (point : SendPoint) :
    (this.setCall call sending point).held =
      Function.update this.held call point.writer := by
  funext other
  by_cases hother : other = call
  · subst hother
    simp [held, setCall]
  · simp [held, setCall, Function.update_of_ne hother]

end Writers

end Xmqtt.Service
