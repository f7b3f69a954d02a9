import Xmqtt.Message.Reuse
import Xmqtt.Service.Incoming
import Xmqtt.Service.ReceiveLoop
import Xmqtt.Service.RingCalls

/-!
# The receive path over the ring buffer

The goroutine `receiver` reads from the connection into the ring buffer `in`, with
`ReadFrom`; the goroutine `processor` peeks a message at a time in it, hands the message to
`processIncoming`, and commits its bytes afterwards.  `receiverData` replaces the two.

The slice of `ReadWait` has capacity behind its end, the one of `receiverData` has none: where a
decoder reads behind the end of its packet `receiverData` panics, and `processor` may go on.

Between any two accesses to the buffer the other goroutine may go on, and the buffer may be
closed.
-/

namespace Xmqtt.Service

open Xmqtt.Core Xmqtt.Go Xmqtt.Message Xmqtt.Sessions

/-- Why `processor` has returned: the error of a call of the buffer, its own error or that
of `Decode`, a panic, a DISCONNECT, or because the service is done. -/
inductive ProcessorEnd where
  | read (err : RingBuffer.BufErr)
  | err (err : Err)
  | panicked
  | disconnected
  | done
  deriving DecidableEq, Repr

/-- Where `processor` is: in the call of `ReadWait` in `peekMessageSize` or in `peekMessage`,
at `processIncoming`, in `ReadCommit`, at `isDone`, or behind its `return`. -/
inductive Processing where
  | sizing (cnt : ℕ)
  | peeking (mtype : MessageType) (total : ℤ)
  | processing (handed : HandOver)
  | committing (handed : HandOver)
  | checking
  | returned (reason : ProcessorEnd)
  deriving DecidableEq

/-- `filled` counts the bytes that a read of the connection has put into the slice of
`ReadFrom`.  All bytes from the connection and all messages handed to `processIncoming`
are kept as history. -/
structure Inbound where
  ring : RingBuffer
  filled : ℕ
  processor : Processing
  arrived : Bytes
  handled : List HandOver
  deriving DecidableEq

inductive InboundStep where
  /-- `receiver`: a round of `ReadFrom` begins, a byte arrives, what has arrived is
  committed, a read brings nothing, and the next access to the buffer. -/
  | readFrom
  | arrive (byte : Byte)
  | writeCommit
  | giveUp
  | produce
  | close
  /-- `processor`: the next access to the buffer, and what comes behind its calls.  `spare`
  is what lies behind the slice of `ReadWait`, up to its capacity. -/
  | consume
  | process (spare : Bytes)
  | incoming (ending : Ending)
  | isDone (done : Bool)

def continuationErr : Err :=
  .errorf "sendrecv/peekMessageSize: 4th byte of remaining length has continuation bit set" []

/-- `peekMessage` behind its `ReadWait`. -/
def decodePeeked (mtype : MessageType) (b : Slice) : Outcome Err (Option Xmqtt.Message) :=
  match mtype.new with
  | .error err => .fail none 0 err
  | .ok message => (message.decode b).map some

namespace Inbound

def start (ring : RingBuffer) : Inbound :=
  ⟨ring.step (.peek .readWait 2), 0, .sizing 2, [], []⟩

variable (this : Inbound)

def ended (reason : ProcessorEnd) : Inbound := { this with processor := .returned reason }

/-- The call of `ReadWait(n)`. -/
def readWait (n : ℤ) (processor : Processing) : Inbound :=
  { this with ring := this.ring.step (.peek .readWait n), processor := processor }

/-- `peekMessageSize` has `cnt` bytes. -/
def sized (cnt : ℕ) (b : Bytes) : Inbound :=
  if b.length < cnt then this.readWait cnt (.sizing cnt)
  else if 0x80 ≤ b.getD (cnt - 1) 0 then
    if cnt + 1 > 5 then this.ended (.err continuationErr)
    else this.readWait (cnt + 1) (.sizing (cnt + 1))
  else
    let total : ℤ := ((uvarint b.tail).1 : ℤ) + 1 + (uvarint b.tail).2
    this.readWait total (.peeking (.ofNibble (b.headD 0 >>> 4)) total)

/-- `peekMessage` has a slice. -/
def peeked (mtype : MessageType) (total : ℤ) (b : Slice) : Inbound :=
  if b.bytes.length < total then this.readWait total (.peeking mtype total)
  else
    match decodePeeked mtype b with
    | .fail _ _ err => this.ended (.err err)
    | .done (some message) _ =>
        { this with
          processor := .processing ⟨message, b.bytes⟩
          handled := this.handled ++ [⟨message, b.bytes⟩] }
    | _ => this.ended .panicked

/-- What `processor` does behind a call of the buffer. -/
def goOn (spare : Bytes) : Option Inbound :=
  match this.processor, this.ring.consumer with
  | .sizing cnt, .held b _ => some (this.sized cnt b)
  | .sizing _, .idle _ (some err) => some (this.ended (.read err))
  | .peeking mtype total, .held b _ => some (this.peeked mtype total ⟨b, spare⟩)
  | .peeking mtype total, .idle _ (some err) =>
      if err = .insufficientData then some (this.readWait total (.peeking mtype total))
      else some (this.ended (.read err))
  | .committing _, .idle _ none => some { this with processor := .checking }
  | .committing _, .idle _ (some err) => some (this.ended (.read err))
  | _, _ => none

/-- Only a DISCONNECT ends the loop; other errors of `processIncoming` are logged. -/
def processed (ending : Ending) : Option Inbound :=
  match this.processor, ending with
  | .processing _, .panicked => some (this.ended .panicked)
  | .processing handed, .returned err =>
      if err = some errDisconnect then some (this.ended .disconnected)
      else
        some { this with
          ring := this.ring.step (.readCommit handed.buffer.length)
          processor := .committing handed }
  | _, _ => none

def step : InboundStep → Option Inbound
  | .readFrom => some { this with ring := this.ring.step .readFrom }
  | .arrive byte =>
      match this.ring.producer with
      | .reserved _ cnt =>
          if this.filled < cnt then
            some { this with
              ring := this.ring.step (.fill this.filled byte)
              filled := this.filled + 1
              arrived := this.arrived ++ [byte] }
          else none
      | _ => none
  | .writeCommit =>
      match this.ring.producer with
      | .reserved _ _ =>
          some { this with ring := this.ring.step (.writeCommit this.filled), filled := 0 }
      | _ => none
  | .giveUp =>
      if this.filled = 0 then some { this with ring := this.ring.step .giveUp } else none
  | .produce => some { this with ring := this.ring.step .produce }
  | .close => some { this with ring := this.ring.step .close }
  | .consume => some { this with ring := this.ring.step .consume }
  | .process spare => this.goOn spare
  | .incoming ending => this.processed ending
  | .isDone done =>
      if this.processor = .checking then
        if done ∧ (this.ring.pseq : ℤ) - this.ring.cseq = 0 then some (this.ended .done)
        else some (this.readWait 2 (.sizing 2))
      else none

end Inbound

/-! ## What was cut off the stream -/

/-- The getters of a message, and its buffer. -/
def HandOver.shown (handed : HandOver) : (HeaderGetters × Getters) × Bytes :=
  (handed.message.getters, handed.buffer)

/-- The message was decoded from a whole packet. -/
def Whole (handed : HandOver) : Prop :=
  ∃ (frame : Frame) (spare : Bytes) (n : ℕ), handed.buffer = frame.bytes ∧
    frame.bytes.length ≤ maxBufferSize ∧
    decodePeeked frame.mtype ⟨frame.bytes, spare⟩ = .done (some handed.message) n

/-- Where `receiverData` does not panic, `processor` decodes the same. -/
theorem decodePeeked_follows (mtype : MessageType) (b spare : Bytes) :
    Outcome.Follows (fun left right => left.map Message.getters = right.map Message.getters)
      (decodePacket mtype b) (decodePeeked mtype ⟨b, spare⟩) := by
  rw [decodePacket, decodePeeked]
  cases mtype.new with
  | error err => exact rfl
  | ok message =>
      have hsrc : (Slice.full b).Grows ⟨b, spare⟩ := ⟨rfl, List.nil_prefix⟩
      exact (Message.decode_follows rfl (.refl message) hsrc).map _ _ _
        fun _ _ hsame => congrArg some hsame

theorem Whole.decodePacket {handed : HandOver} (hwhole : Whole handed) :
    ∃ frame : Frame, handed.buffer = frame.bytes ∧ frame.bytes.length ≤ maxBufferSize ∧
      (decodePacket frame.mtype frame.bytes = .panic ∨
        ∃ message n, decodePacket frame.mtype frame.bytes = .done (some message) n ∧
          message.getters = handed.message.getters) := by
  obtain ⟨frame, spare, n, hbuffer, hsmall, hdone⟩ := hwhole
  refine ⟨frame, hbuffer, hsmall, ?_⟩
  have hfollows := decodePeeked_follows frame.mtype frame.bytes spare
  rcases hfollows.panic_or_done hdone with hpanic | ⟨state, hdone', hsame⟩
  · exact .inl hpanic
  · obtain ⟨message, rfl, hgetters⟩ := Option.map_eq_some_iff.mp hsame
    exact .inr ⟨message, n, hdone', hgetters⟩

/-- `receiverData` hands over the whole packets in front of a stream, unless it panics at
one of them. -/
theorem receiverData_whole (behind : ReadErr) (rounds : ℕ) {handled : List HandOver}
    (hwhole : ∀ handed ∈ handled, Whole handed) (past : List Xmqtt.Message) (rest : Bytes) :
    ∃ theirs past', theirs.map HandOver.shown <+: handled.map HandOver.shown ∧
      (receiverData (fun _ => .goOn) behind (handled.length + rounds) past
          (handedBytes handled ++ rest) = (theirs, .panicked) ∨
        theirs.map HandOver.shown = handled.map HandOver.shown ∧
        receiverData (fun _ => .goOn) behind (handled.length + rounds) past
            (handedBytes handled ++ rest) =
          (theirs ++ (receiverData (fun _ => .goOn) behind rounds past' rest).1,
            (receiverData (fun _ => .goOn) behind rounds past' rest).2)) := by
  induction handled generalizing past with
  | nil =>
      refine ⟨[], past, List.prefix_rfl, .inr ⟨rfl, ?_⟩⟩
      rw [List.length_nil, Nat.zero_add]
      rfl
  | cons handed handled ih =>
      obtain ⟨frame, hbuffer, hsmall, hdecoded⟩ := (hwhole handed List.mem_cons_self).decodePacket
      have hbytes : handedBytes (handed :: handled) ++ rest =
          frame.bytes ++ (handedBytes handled ++ rest) := by
        rw [← hbuffer, ← List.append_assoc]
        rfl
      rw [hbytes, List.length_cons, Nat.succ_add]
      rcases hdecoded with hpanic | ⟨message, n, hdone, hgetters⟩
      · exact ⟨[], past, List.nil_prefix,
          .inl (receiverData_of_panic (Begins.of_append frame _) hsmall hpanic)⟩
      · have hshown : HandOver.shown ⟨message, frame.bytes⟩ = handed.shown :=
          Prod.ext hgetters hbuffer.symm
        obtain ⟨theirs, past', hfront, hloop⟩ :=
          ih (fun other hmem => hwhole other (List.mem_cons_of_mem _ hmem)) (message :: past)
        refine ⟨⟨message, frame.bytes⟩ :: theirs, past', ?_, ?_⟩
        · rw [List.map_cons, List.map_cons, hshown]
          exact (List.prefix_cons_inj _).mpr hfront
        · rw [receiverData_of_goOn (Begins.of_append frame _) hsmall hdone rfl, List.drop_left]
          rcases hloop with hpanicked | ⟨hall, hrest⟩
          · rw [hpanicked]
            exact .inl rfl
          · rw [hrest, List.map_cons, List.map_cons, hshown, hall]
            exact .inr ⟨rfl, rfl⟩

/-- The header is not longer than the packet that it announces. -/
theorem length_le_total {stream b : Bytes} (hpeek : peekHeader stream 4 2 = .ok b) :
    (b.length : ℤ) ≤ ((uvarint b.tail).1 : ℤ) + 1 + (uvarint b.tail).2 := by
  obtain ⟨rest, first, digits, hterm, hshort, rfl, rfl⟩ := peekHeader_eq_ok_iff.mp hpeek
  have hvarint := uvarint_terminated hterm (by simp only [maxVarintLen64]; omega) []
  rw [List.append_nil] at hvarint
  rw [List.tail_cons, hvarint, List.length_cons]
  push_cast
  omega

/-- A slice of the announced length is the packet itself. -/
theorem frame_of_size {b : Bytes} {mtype : MessageType} {total : ℤ}
    (hsize : getPeekMessageSize b = .ok (mtype, total)) (htotal : (b.length : ℤ) = total) :
    ∃ frame : Frame, b = frame.bytes ∧ mtype = frame.mtype := by
  obtain ⟨frame, hbegins, rfl, rfl⟩ := exists_begins_of_size hsize
  have hlength : b.length = frame.bytes.length := by exact_mod_cast htotal
  refine ⟨frame, ?_, rfl⟩
  conv_lhs => rw [hbegins.whole hlength.ge, ← hlength, List.drop_length, List.append_nil]

/-- One more byte of the header is looked at. -/
theorem peekHeader_step {b more : Bytes} {left : ℕ} :
    peekHeader (b ++ more) (left + 1) b.length =
      if b.getD (b.length - 1) 0 < 0x80 then .ok b
      else peekHeader (b ++ more) left (b.length + 1) := by
  rw [peekHeader, peek, if_pos (by rw [List.length_append]; omega), List.take_left]

/-! ## The invariant -/

/-- `getPeekMessageSize` says the same of every stream with these bytes in front. -/
def Sizes (seen : Bytes) (size : Except ReadErr (MessageType × ℤ)) : Prop :=
  ∀ more, getPeekMessageSize (seen ++ more) = size

/-- The error of `getPeekMessageSize` where `peekMessageSize` returns `continuationErr`. -/
def longHeaderErr : Err :=
  .errorf "readwrite/getPeekMessageSize: 4th byte of remaining length has continuation bit set" []

/-- What the bytes behind the messages handed over are like when `processor` has refused
them. -/
def Refuses (unread : Bytes) : ProcessorEnd → Prop
  | .read .bufferFull => ∃ seen mtype total, seen <+: unread ∧ (maxBufferSize : ℤ) < total ∧
      Sizes seen (.ok (mtype, total))
  | .err err =>
      (err = continuationErr ∧ ∃ seen, seen <+: unread ∧
        Sizes seen (.error (.err longHeaderErr))) ∨
      ∃ (frame : Frame) (spare : Bytes) (state : Option Xmqtt.Message) (n : ℕ),
        frame.bytes <+: unread ∧ frame.bytes.length ≤ maxBufferSize ∧
        decodePeeked frame.mtype ⟨frame.bytes, spare⟩ = .fail state n err
  | _ => True

namespace Inbound

/-- The messages handed over so far are committed. -/
def Settled (this : Inbound) : Prop := this.ring.received = handedBytes this.handled

/-- The last message handed over is not. -/
def Holding (this : Inbound) (handed : HandOver) (before : Bytes) : Prop :=
  ∃ earlier, this.handled = earlier ++ [handed] ∧ before = handedBytes earlier

def At (this : Inbound) : Processing → Prop
  | .sizing cnt => this.Settled ∧ 2 ≤ cnt ∧ cnt ≤ 5 ∧ RingBuffer.ReadWaitAt cnt this.ring.consumer ∧
      ∃ seen, this.ring.Next seen ∧ seen.length < cnt ∧
        ∀ more, peekHeader (seen ++ more) 4 2 = peekHeader (seen ++ more) (6 - cnt) cnt
  | .peeking mtype total => this.Settled ∧
      (∃ seen, this.ring.Next seen ∧ (seen.length : ℤ) ≤ total ∧
        Sizes seen (.ok (mtype, total))) ∧
      (total ≤ maxBufferSize ∧ RingBuffer.ReadWaitAt total.toNat this.ring.consumer ∨
        maxBufferSize < total ∧ ∃ n, this.ring.consumer = .idle n (some .bufferFull))
  | .processing handed => this.Holding handed this.ring.received ∧
      ∃ err, this.ring.consumer = .held handed.buffer err
  | .committing handed => ∃ before, this.Holding handed before ∧
      RingBuffer.CommitAt before handed.buffer this.ring
  | .checking => this.Settled ∧ ∃ n, this.ring.consumer = .idle n none
  | .returned reason => Refuses (this.ring.sent.drop (handedBytes this.handled).length) reason

end Inbound

/-- What holds between any two accesses. -/
structure Cut (this : Inbound) : Prop where
  fifo : RingBuffer.Fifo this.ring
  size : this.ring.size = maxBufferSize
  putting : ∃ inHand, RingBuffer.Putting inHand this.ring ∧
    this.arrived = this.ring.sent ++ inHand ∧
    ∀ start cnt, this.ring.producer = .reserved start cnt → inHand.length = this.filled
  unfilled : (∀ start cnt, this.ring.producer ≠ .reserved start cnt) → this.filled = 0
  whole : ∀ handed ∈ this.handled, Whole handed
  front : handedBytes this.handled <+: this.ring.sent
  processor : this.At this.processor

namespace Cut

variable {this : Inbound}

/-! ### The other goroutine -/

theorem refuses_mono {unread unread' : Bytes} {reason : ProcessorEnd}
    (hgrown : unread <+: unread') (hrefuses : Refuses unread reason) :
    Refuses unread' reason := by
  unfold Refuses at hrefuses ⊢
  split at hrefuses
  · obtain ⟨seen, mtype, total, hseen, hlarge, hsizes⟩ := hrefuses
    exact ⟨seen, mtype, total, hseen.trans hgrown, hlarge, hsizes⟩
  · rcases hrefuses with ⟨herr, seen, hseen, hsizes⟩ | ⟨frame, spare, state, n, hframe, hfail⟩
    · exact .inl ⟨herr, seen, hseen.trans hgrown, hsizes⟩
    · exact .inr ⟨frame, spare, state, n, hframe.trans hgrown, hfail⟩
  · trivial

/-- `processor` does not see what the producer changes. -/
theorem at_produces {ring : RingBuffer} {filled : ℕ} {arrived : Bytes}
    (hproduces : RingBuffer.Produces this.ring ring) {processor : Processing}
    (hat : this.At processor) :
    Inbound.At { this with ring := ring, filled := filled, arrived := arrived } processor := by
  have hsettled : this.Settled →
      Inbound.Settled { this with ring := ring, filled := filled, arrived := arrived } :=
    fun hsettled => hproduces.received.trans hsettled
  cases processor with
  | sizing cnt =>
      obtain ⟨hbytes, hlow, hhigh, hwait, seen, hseen, hlength, hpeek⟩ := hat
      refine ⟨hsettled hbytes, hlow, hhigh, ?_, seen, hproduces.next hseen, hlength, hpeek⟩
      change RingBuffer.ReadWaitAt cnt ring.consumer
      rwa [hproduces.consumer]
  | peeking mtype total =>
      obtain ⟨hbytes, ⟨seen, hseen, hlength, hsizes⟩, hwait⟩ := hat
      refine ⟨hsettled hbytes, ⟨seen, hproduces.next hseen, hlength, hsizes⟩, ?_⟩
      simp only [hproduces.consumer]
      exact hwait
  | processing handed =>
      obtain ⟨⟨earlier, hhandled, hreceived⟩, err, hheld⟩ := hat
      exact ⟨⟨earlier, hhandled, hproduces.received.trans hreceived⟩, err,
        hproduces.consumer.trans hheld⟩
  | committing handed =>
      obtain ⟨before, hholding, hcommit⟩ := hat
      refine ⟨before, hholding, ?_⟩
      simp only [RingBuffer.CommitAt, hproduces.consumer, hproduces.received]
      exact hcommit
  | checking =>
      obtain ⟨hbytes, n, hidle⟩ := hat
      exact ⟨hsettled hbytes, n, hproduces.consumer.trans hidle⟩
  | returned reason =>
      exact refuses_mono (hproduces.sent.drop _) hat

/-- The producer has gone on. -/
theorem produces (hcut : Cut this) {ring : RingBuffer} {filled : ℕ} {arrived inHand : Bytes}
    (hfifo : RingBuffer.Fifo ring) (hproduces : RingBuffer.Produces this.ring ring)
    (hputting : RingBuffer.Putting inHand ring) (harrived : arrived = ring.sent ++ inHand)
    (hfilled : ∀ start cnt, ring.producer = .reserved start cnt → inHand.length = filled)
    (hunfilled : (∀ start cnt, ring.producer ≠ .reserved start cnt) → filled = 0) :
    Cut { this with ring := ring, filled := filled, arrived := arrived } where
  fifo := hfifo
  size := hproduces.size.trans hcut.size
  putting := ⟨inHand, hputting, harrived, hfilled⟩
  unfilled := hunfilled
  whole := hcut.whole
  front := hcut.front.trans hproduces.sent
  processor := at_produces hproduces hcut.processor

theorem close (hcut : Cut this) : Cut { this with ring := this.ring.step .close } := by
  obtain ⟨inHand, hputting, harrived, hfilled⟩ := hcut.putting
  refine hcut.produces (hcut.fifo.step .close) ⟨rfl, rfl, rfl, rfl, List.prefix_rfl⟩ ?_ harrived
    hfilled hcut.unfilled
  unfold RingBuffer.Putting at hputting ⊢
  simp only [RingBuffer.step]
  split at hputting <;> simp_all

theorem readFrom (hcut : Cut this) : Cut { this with ring := this.ring.step .readFrom } := by
  obtain ⟨inHand, hputting, harrived, hfilled⟩ := hcut.putting
  by_cases hdone : this.ring.done = true
  · simp only [RingBuffer.step, if_pos hdone]
    exact hcut
  · have hfifo := hcut.fifo.step .readFrom
    simp only [RingBuffer.step, if_neg hdone] at hfifo ⊢
    obtain ⟨hcalled, hreserved⟩ := RingBuffer.putting_callProducer hputting
      (Bool.eq_false_of_not_eq_true hdone) RingBuffer.defaultReadBlockSize
      (show RingBuffer.Purpose.readFrom.bytes = [] from rfl)
    refine hcut.produces hfifo (RingBuffer.produces_callProducer _ _) hcalled ?_ ?_ ?_
    · rw [harrived, RingBuffer.sent_callProducer]
    · exact fun start cnt hnow => hfilled start cnt ((hreserved start cnt).mp hnow)
    · exact fun hnot => hcut.unfilled fun start cnt hbefore =>
        hnot start cnt ((hreserved start cnt).mpr hbefore)

theorem produce (hcut : Cut this) : Cut { this with ring := this.ring.step .produce } := by
  obtain ⟨inHand, hputting, harrived, hfilled⟩ := hcut.putting
  obtain ⟨left, hleft, hsent, hreserved⟩ := RingBuffer.putting_produce hputting
  have hfifo := hcut.fifo.step .produce
  by_cases hbefore : ∃ start cnt, this.ring.producer = .reserved start cnt
  · obtain ⟨start, cnt, hbefore⟩ := hbefore
    have hsame : this.ring.step .produce = this.ring := by
      simp only [RingBuffer.step, RingBuffer.produce, hbefore]
    rw [hsame]
    exact hcut
  · have hzero := hcut.unfilled fun start cnt hnow => hbefore ⟨start, cnt, hnow⟩
    refine hcut.produces hfifo RingBuffer.produces_produce hleft (harrived.trans hsent.symm) ?_
      fun _ => hzero
    intro start cnt hnow
    rcases hreserved start cnt hnow with rfl | ⟨hsame, -⟩
    · exact hzero.symm
    · exact absurd ⟨start, cnt, hsame⟩ hbefore

theorem arrive (hcut : Cut this) {start cnt : ℕ}
    (hproducer : this.ring.producer = .reserved start cnt) (hroom : this.filled < cnt)
    (byte : Byte) :
    Cut { this with
      ring := this.ring.step (.fill this.filled byte)
      filled := this.filled + 1
      arrived := this.arrived ++ [byte] } := by
  obtain ⟨inHand, hputting, harrived, hfilled⟩ := hcut.putting
  have hlength := hfilled start cnt hproducer
  have hfifo := hcut.fifo.step (.fill this.filled byte)
  have hmore := RingBuffer.putting_fill hcut.fifo hputting hproducer (hlength ▸ hroom) byte
  rw [hlength] at hmore
  have hring : this.ring.step (.fill this.filled byte) =
      { this.ring with
        buf := this.ring.buf.set (this.ring.index start + this.filled) byte } := by
    simp only [RingBuffer.step, hproducer, if_pos hroom]
  rw [hring] at hfifo hmore ⊢
  refine hcut.produces hfifo ⟨rfl, rfl, rfl, rfl, List.prefix_rfl⟩ hmore ?_ ?_ ?_
  · rw [harrived, List.append_assoc]
  · intro _ _ _
    rw [List.length_append, hlength]
    rfl
  · exact fun hnot => absurd hproducer (hnot start cnt)

theorem writeCommit (hcut : Cut this) {start cnt : ℕ}
    (hproducer : this.ring.producer = .reserved start cnt) :
    Cut { this with ring := this.ring.step (.writeCommit this.filled), filled := 0 } := by
  obtain ⟨inHand, hputting, harrived, hfilled⟩ := hcut.putting
  have hlength := hfilled start cnt hproducer
  have hfifo := hcut.fifo.step (.writeCommit this.filled)
  have hcommit := RingBuffer.putting_writeCommit hcut.fifo hputting hproducer
  simp only [RingBuffer.Putting, hproducer] at hputting
  have hle : this.filled ≤ cnt := hlength ▸ hputting.1
  rw [hlength] at hcommit
  simp only [RingBuffer.step, hproducer, if_pos hle] at hfifo hcommit ⊢
  exact hcut.produces hfifo ⟨rfl, rfl, rfl, rfl, List.prefix_rfl⟩ hcommit harrived
    (by rintro _ _ ⟨⟩) fun _ => rfl

/-- A read that brings nothing. -/
theorem giveUp (hcut : Cut this) (hnone : this.filled = 0) :
    Cut { this with ring := this.ring.step .giveUp } := by
  obtain ⟨inHand, hputting, harrived, hfilled⟩ := hcut.putting
  have hfifo := hcut.fifo.step .giveUp
  cases hproducer : this.ring.producer with
  | reserved start cnt =>
      obtain rfl : inHand = [] :=
        List.length_eq_zero_iff.mp ((hfilled start cnt hproducer).trans hnone)
      simp only [RingBuffer.step, hproducer] at hfifo ⊢
      exact hcut.produces hfifo ⟨rfl, rfl, rfl, rfl, List.prefix_rfl⟩ rfl harrived
        (by rintro _ _ ⟨⟩) fun _ => hnone
  | _ =>
      simp only [RingBuffer.step, hproducer]
      exact hcut

/-! ### `processor` itself -/

/-- `processor` has gone on. -/
theorem consumes (hcut : Cut this) {ring : RingBuffer} {processor : Processing}
    (hfifo : RingBuffer.Fifo ring) (hconsumes : RingBuffer.Consumes this.ring ring)
    (hat : Inbound.At { this with ring := ring, processor := processor } processor) :
    Cut { this with ring := ring, processor := processor } where
  fifo := hfifo
  size := hconsumes.size.trans hcut.size
  putting := by
    obtain ⟨inHand, hputting, harrived, hfilled⟩ := hcut.putting
    refine ⟨inHand, hconsumes.putting hputting, ?_, ?_⟩
    · rw [hconsumes.sent]
      exact harrived
    · rw [hconsumes.producer]
      exact hfilled
  unfilled := by
    rw [hconsumes.producer]
    exact hcut.unfilled
  whole := hcut.whole
  front := by
    rw [hconsumes.sent]
    exact hcut.front
  processor := hat

/-- `processor` returns. -/
theorem ended (hcut : Cut this) {reason : ProcessorEnd}
    (hrefuses : Refuses (this.ring.sent.drop (handedBytes this.handled).length) reason) :
    Cut (this.ended reason) :=
  hcut.consumes hcut.fifo ⟨rfl, rfl, rfl, rfl, rfl, rfl⟩ hrefuses

/-- Behind the messages handed over comes what is unread. -/
theorem length_of_settled (hcut : Cut this) (hsettled : this.Settled) :
    (handedBytes this.handled).length = this.ring.cseq := by
  have horder := hcut.fifo.order
  rw [← hsettled, hcut.fifo.received, List.length_take, hcut.fifo.sent]
  omega

/-- `processor` returns between two messages. -/
theorem ended_of_settled (hcut : Cut this) {reason : ProcessorEnd} (hsettled : this.Settled)
    (hrefuses : Refuses (this.ring.sent.drop this.ring.cseq) reason) :
    Cut (this.ended reason) := by
  apply hcut.ended
  rwa [hcut.length_of_settled hsettled]

/-- `ReadWait(n)` is called. -/
theorem readWait (hcut : Cut this) {n : ℤ} {processor : Processing}
    (hcan : this.ring.CanCall) (hpos : 0 ≤ n)
    (hat : ∀ consumer, (n ≤ maxBufferSize ∧ RingBuffer.ReadWaitAt n.toNat consumer ∨
        maxBufferSize < n ∧ ∃ m, consumer = .idle m (some .bufferFull)) →
      Inbound.At { this with
        ring := { this.ring with consumer := consumer }
        processor := processor } processor) :
    Cut (this.readWait n processor) := by
  have hfifo := hcut.fifo.step (.peek .readWait n)
  rw [Inbound.readWait]
  rw [← hcut.size] at hat
  by_cases hlarge : n > this.ring.size
  · simp only [RingBuffer.step, if_pos hlarge, RingBuffer.callConsumer_eq hcan] at hfifo ⊢
    exact hcut.consumes hfifo ⟨rfl, rfl, rfl, rfl, rfl, rfl⟩
      (hat _ (.inr ⟨hlarge, 0, rfl⟩))
  · simp only [RingBuffer.step, if_neg hlarge, if_neg (not_lt.mpr hpos),
      RingBuffer.callConsumer_eq hcan] at hfifo ⊢
    exact hcut.consumes hfifo ⟨rfl, rfl, rfl, rfl, rfl, rfl⟩
      (hat _ (.inl ⟨not_lt.mp hlarge, rfl, rfl⟩))

/-- `peekMessageSize` asks for `cnt` bytes, of which it has seen fewer. -/
theorem readWait_sizing (hcut : Cut this) (hsettled : this.Settled) (hcan : this.ring.CanCall)
    {cnt : ℕ} (hlow : 2 ≤ cnt) (hhigh : cnt ≤ 5) {seen : Bytes} (hseen : this.ring.Next seen)
    (hlength : seen.length < cnt)
    (hpeek : ∀ more, peekHeader (seen ++ more) 4 2 = peekHeader (seen ++ more) (6 - cnt) cnt) :
    Cut (this.readWait cnt (.sizing cnt)) := by
  refine hcut.readWait hcan (Int.natCast_nonneg cnt) fun consumer hconsumer => ?_
  rcases hconsumer with ⟨-, hwait⟩ | ⟨hlarge, -⟩
  · exact ⟨hsettled, hlow, hhigh, hwait, seen, hseen, hlength, hpeek⟩
  · rw [maxBufferSize] at hlarge
    omega

/-- `peekMessageSize` begins. -/
theorem readWait_two (hcut : Cut this) (hsettled : this.Settled) (hcan : this.ring.CanCall) :
    Cut (this.readWait 2 (.sizing 2)) := by
  change Cut (this.readWait (2 : ℕ) (.sizing 2))
  exact hcut.readWait_sizing hsettled hcan le_rfl (by omega) List.nil_prefix Nat.two_pos
    fun _ => rfl

theorem consume (hcut : Cut this) : Cut { this with ring := this.ring.step .consume } := by
  have hfifo := hcut.fifo.step .consume
  have hconsumes : RingBuffer.Consumes this.ring this.ring.consume :=
    RingBuffer.consumes_consume
  refine hcut.consumes hfifo hconsumes ?_
  have hat := hcut.processor
  have hidle : ∀ n err, this.ring.consumer = .idle n err → this.ring.consume = this.ring :=
    fun n err hconsumer => by simp only [RingBuffer.consume, hconsumer]
  cases hprocessor : this.processor with
  | sizing cnt =>
      rw [hprocessor] at hat
      obtain ⟨hsettled, hlow, hhigh, hwait, seen, hseen, hlength, hpeek⟩ := hat
      obtain ⟨hwait', hcseq, hreceived⟩ := RingBuffer.readWaitAt_consume hcut.fifo hwait
      refine ⟨hreceived.trans hsettled, hlow, hhigh, hwait', seen, ?_, hlength, hpeek⟩
      simp only [RingBuffer.Next, RingBuffer.step, hcseq, hconsumes.sent]
      exact hseen
  | peeking mtype total =>
      rw [hprocessor] at hat
      obtain ⟨hsettled, ⟨seen, hseen, hlength, hsizes⟩, hwait⟩ := hat
      rcases hwait with ⟨hsmall, hwait⟩ | ⟨hlarge, n, hfull⟩
      · obtain ⟨hwait', hcseq, hreceived⟩ := RingBuffer.readWaitAt_consume hcut.fifo hwait
        refine ⟨hreceived.trans hsettled, ⟨seen, ?_, hlength, hsizes⟩, .inl ⟨hsmall, hwait'⟩⟩
        simp only [RingBuffer.Next, RingBuffer.step, hcseq, hconsumes.sent]
        exact hseen
      · simp only [RingBuffer.step, hidle n _ hfull]
        exact ⟨hsettled, ⟨seen, hseen, hlength, hsizes⟩, .inr ⟨hlarge, n, hfull⟩⟩
  | processing handed =>
      rw [hprocessor] at hat
      obtain ⟨hholding, err, hheld⟩ := hat
      have hsame : this.ring.consume = this.ring := by
        simp only [RingBuffer.consume, hheld]
      simp only [RingBuffer.step, hsame]
      exact ⟨hholding, err, hheld⟩
  | committing handed =>
      rw [hprocessor] at hat
      obtain ⟨before, hholding, hcommit⟩ := hat
      exact ⟨before, hholding, RingBuffer.commitAt_consume hcut.fifo hcommit⟩
  | checking =>
      rw [hprocessor] at hat
      obtain ⟨hsettled, n, hconsumer⟩ := hat
      simp only [RingBuffer.step, hidle n _ hconsumer]
      exact ⟨hsettled, n, hconsumer⟩
  | returned reason =>
      rw [hprocessor] at hat
      simp only [Inbound.At, RingBuffer.step, hconsumes.sent]
      exact hat

/-- Bytes that were seen before are in front of those that are held. -/
theorem exists_more (hcut : Cut this) {seen b : Bytes} {err : Option RingBuffer.BufErr}
    (hseen : this.ring.Next seen) (hheld : this.ring.consumer = .held b err)
    (hlength : seen.length ≤ b.length) : ∃ more, b = seen ++ more := by
  have hnext := hcut.fifo.consumerAt hheld
  obtain ⟨more, hmore⟩ := List.prefix_of_prefix_length_le hseen hnext hlength
  exact ⟨more, hmore.symm⟩

/-- `peekMessageSize` looks at the last byte that it has. -/
theorem sized (hcut : Cut this) {cnt : ℕ} {b : Bytes} {err : Option RingBuffer.BufErr}
    (hat : this.At (.sizing cnt)) (hheld : this.ring.consumer = .held b err) :
    Cut (this.sized cnt b) := by
  obtain ⟨hsettled, hlow, hhigh, hwait, seen, hseen, hlength, hpeek⟩ := hat
  rw [hheld] at hwait
  obtain ⟨rfl, rfl⟩ := hwait
  have hnext := hcut.fifo.consumerAt hheld
  obtain ⟨more, hmore⟩ := hcut.exists_more hseen hheld hlength.le
  -- what the loop of `getPeekMessageSize` does behind the same bytes
  have hloop : ∀ rest, peekHeader (b ++ rest) 4 2 =
      if b.getD (b.length - 1) 0 < 0x80 then .ok b
      else peekHeader (b ++ rest) (5 - b.length) (b.length + 1) := by
    intro rest
    have hsame := hpeek (more ++ rest)
    rw [← List.append_assoc, ← hmore] at hsame
    rw [hsame, show 6 - b.length = 5 - b.length + 1 by omega, peekHeader_step]
  have hcan : this.ring.CanCall := .inr ⟨b, none, hheld⟩
  rw [Inbound.sized, if_neg (lt_irrefl _)]
  split_ifs with hmarked hlast
  · refine hcut.ended_of_settled hsettled (.inl ⟨rfl, b, hnext, fun rest => ?_⟩)
    rw [getPeekMessageSize, hloop, if_neg (UInt8.not_lt.mpr hmarked),
      show 5 - b.length = 0 by omega]
    rfl
  · change Cut (this.readWait (b.length + 1 : ℕ) _)
    refine hcut.readWait_sizing hsettled hcan (by omega) (by omega) hnext (Nat.lt_succ_self _)
      fun rest => ?_
    rw [hloop, if_neg (UInt8.not_lt.mpr hmarked), Nat.succ_sub_succ]
  · have hok : ∀ rest, peekHeader (b ++ rest) 4 2 = .ok b := by
      intro rest
      rw [hloop, if_pos (UInt8.not_le.mp hmarked)]
    have htotal := length_le_total (hok [])
    refine hcut.readWait hcan (by omega) fun consumer hconsumer => ?_
    refine ⟨hsettled, ⟨b, hnext, htotal, fun rest => ?_⟩, hconsumer⟩
    rw [getPeekMessageSize, hok]

/-- The next bytes of the stream come behind the messages handed over. -/
theorem front_of_next (hcut : Cut this) (hsettled : this.Settled) {bytes : Bytes}
    (hnext : this.ring.Next bytes) : handedBytes this.handled ++ bytes <+: this.ring.sent := by
  rw [← hsettled, hcut.fifo.received]
  conv_rhs => rw [← List.take_append_drop this.ring.cseq this.ring.sent]
  exact (List.prefix_append_right_inj _).mpr hnext

/-- `peekMessage` hands the packet over. -/
theorem handOver (hcut : Cut this) (hsettled : this.Settled) {handed : HandOver}
    {err : Option RingBuffer.BufErr} (hwhole : Whole handed)
    (hheld : this.ring.consumer = .held handed.buffer err) :
    Cut { this with processor := .processing handed, handled := this.handled ++ [handed] } :=
  { hcut with
    whole := by
      intro other hmem
      rcases List.mem_append.mp hmem with hbefore | hnew
      · exact hcut.whole other hbefore
      · rwa [List.mem_singleton.mp hnew]
    front := by
      have hfront := hcut.front_of_next hsettled (hcut.fifo.consumerAt hheld)
      simpa [handedBytes] using hfront
    processor := ⟨⟨this.handled, rfl, hsettled⟩, err, hheld⟩ }

/-- `peekMessage` decodes the packet that it has. -/
theorem peeked (hcut : Cut this) {mtype : MessageType} {total : ℤ} {b : Bytes}
    {err : Option RingBuffer.BufErr} (hat : this.At (.peeking mtype total))
    (hheld : this.ring.consumer = .held b err) (spare : Bytes) :
    Cut (this.peeked mtype total ⟨b, spare⟩) := by
  obtain ⟨hsettled, ⟨seen, hseen, hlength, hsizes⟩, ⟨hsmall, hwait⟩ | ⟨-, n, hfull⟩⟩ := hat
  · rw [hheld] at hwait
    obtain ⟨hb, rfl⟩ := hwait
    have htotal : (b.length : ℤ) = total := by omega
    have hnext := hcut.fifo.consumerAt hheld
    obtain ⟨more, hmore⟩ := hcut.exists_more hseen hheld (by omega)
    obtain ⟨frame, hframe, rfl⟩ := frame_of_size (hmore ▸ hsizes more) htotal
    rw [Inbound.peeked, if_neg (not_lt.mpr htotal.ge)]
    rw [hframe] at hnext htotal
    split
    · next state n err hfail =>
        rw [hframe] at hfail
        exact hcut.ended_of_settled hsettled
          (.inr ⟨frame, spare, state, n, hnext, by omega, hfail⟩)
    · next message n hdone =>
        rw [hframe] at hdone
        exact hcut.handOver hsettled ⟨frame, spare, n, hframe, by omega, hdone⟩ hheld
    · exact hcut.ended_of_settled hsettled trivial
  · rw [hheld] at hfull
    cases hfull

theorem goOn (hcut : Cut this) {spare : Bytes} {next : Inbound}
    (hstep : this.goOn spare = some next) : Cut next := by
  have hat := hcut.processor
  rw [Inbound.goOn] at hstep
  split at hstep
  · next cnt b err hprocessor hheld =>
      cases hstep
      exact hcut.sized (hprocessor ▸ hat) hheld
  · next cnt n err hprocessor hidle =>
      cases hstep
      rw [hprocessor] at hat
      obtain ⟨hsettled, -, -, hwait, -⟩ := hat
      rw [hidle] at hwait
      cases hwait
      exact hcut.ended_of_settled hsettled trivial
  · next mtype total b err hprocessor hheld =>
      cases hstep
      exact hcut.peeked (hprocessor ▸ hat) hheld spare
  · next mtype total n err hprocessor hidle =>
      rw [hprocessor] at hat
      obtain ⟨hsettled, ⟨seen, hseen, -, hsizes⟩, ⟨-, hwait⟩ | ⟨hlarge, m, hfull⟩⟩ := hat
      · rw [hidle] at hwait
        cases hwait
        cases hstep
        exact hcut.ended_of_settled hsettled trivial
      · rw [hidle] at hfull
        cases hfull
        cases hstep
        exact hcut.ended_of_settled hsettled ⟨seen, mtype, total, hseen, hlarge, hsizes⟩
  · next handed n hprocessor hidle =>
      cases hstep
      rw [hprocessor] at hat
      obtain ⟨before, ⟨earlier, hhandled, rfl⟩, hcommit⟩ := hat
      simp only [RingBuffer.CommitAt, hidle] at hcommit
      refine hcut.consumes hcut.fifo ⟨rfl, rfl, rfl, rfl, rfl, rfl⟩ ⟨?_, n, hidle⟩
      rw [Inbound.Settled, hcommit.2, hhandled]
      simp [handedBytes]
  · next handed n err hprocessor hidle =>
      rw [hprocessor] at hat
      obtain ⟨before, -, hcommit⟩ := hat
      simp only [RingBuffer.CommitAt, hidle] at hcommit
      cases hcommit.1
  · cases hstep

theorem processed (hcut : Cut this) {ending : Ending} {next : Inbound}
    (hstep : this.processed ending = some next) : Cut next := by
  have hat := hcut.processor
  unfold Inbound.processed at hstep
  split at hstep
  · next handed hprocessor =>
      cases hstep
      exact hcut.ended trivial
  · next handed failure hprocessor =>
      rw [hprocessor] at hat
      obtain ⟨hholding, err, hheld⟩ := hat
      split_ifs at hstep
      · cases hstep
        exact hcut.ended trivial
      · cases hstep
        have hfifo := hcut.fifo.step (.readCommit handed.buffer.length)
        simp only [RingBuffer.step, hheld, if_pos le_rfl] at hfifo ⊢
        exact hcut.consumes hfifo ⟨rfl, rfl, rfl, rfl, rfl, rfl⟩ ⟨_, hholding, rfl, rfl, rfl⟩
  · cases hstep

theorem isDone (hcut : Cut this) {done : Bool} {next : Inbound}
    (hstep : this.step (.isDone done) = some next) : Cut next := by
  have hat := hcut.processor
  rw [Inbound.step] at hstep
  split_ifs at hstep with hchecking
  · cases hstep
    exact hcut.ended trivial
  · cases hstep
    rw [hchecking] at hat
    obtain ⟨hsettled, n, hidle⟩ := hat
    exact hcut.readWait_two hsettled (.inl ⟨n, none, hidle⟩)

theorem step {label : InboundStep} {next : Inbound} (hcut : Cut this)
    (hstep : this.step label = some next) : Cut next := by
  cases label with
  | readFrom =>
      cases hstep
      exact hcut.readFrom
  | arrive byte =>
      rw [Inbound.step] at hstep
      split at hstep
      · next start cnt hproducer =>
          split_ifs at hstep with hroom
          cases hstep
          exact hcut.arrive hproducer hroom byte
      · cases hstep
  | writeCommit =>
      rw [Inbound.step] at hstep
      split at hstep <;> cases hstep
      rename_i start cnt hproducer
      exact hcut.writeCommit hproducer
  | giveUp =>
      rw [Inbound.step] at hstep
      split_ifs at hstep with hnone
      cases hstep
      exact hcut.giveUp hnone
  | produce =>
      cases hstep
      exact hcut.produce
  | close =>
      cases hstep
      exact hcut.close
  | consume =>
      cases hstep
      exact hcut.consume
  | process spare => exact hcut.goOn hstep
  | incoming ending => exact hcut.processed hstep
  | isDone done => exact hcut.isDone hstep

end Cut

/-- The buffer has the size that the service gives it. -/
theorem cut_start {ring : RingBuffer}
    (hnew : RingBuffer.newBuffer RingBuffer.defaultBufferSize = .ok ring) :
    Cut (Inbound.start ring) := by
  have hfifo := RingBuffer.fifo_newBuffer hnew
  cases hnew
  have hbefore : Cut ⟨_, 0, .checking, [], []⟩ := {
    fifo := hfifo
    size := rfl
    putting := ⟨[], rfl, rfl, by rintro _ _ ⟨⟩⟩
    unfilled := fun _ => rfl
    whole := List.forall_mem_nil _
    front := List.nil_prefix
    processor := ⟨rfl, 0, rfl⟩ }
  exact hbefore.readWait_two rfl (.inl ⟨0, none, rfl⟩)

/-! ## The two receive paths -/

theorem cut_of_run {ring : RingBuffer} {labels : List InboundStep} {last : Inbound}
    (hnew : RingBuffer.newBuffer RingBuffer.defaultBufferSize = .ok ring)
    (hrun : run Inbound.step (Inbound.start ring) labels = some last) : Cut last :=
  run_keeps (fun _ _ _ hcut hstep => hcut.step hstep) (cut_start hnew) hrun

/-- `processor` has refused the next packet. -/
def ProcessorEnd.Refuses (reason : ProcessorEnd) : Prop :=
  reason = .read .bufferFull ∨ ∃ err, reason = .err err

/-- The same refusal in the words of `receiverData`. -/
def ProcessorEnd.Matches : ProcessorEnd → LoopEnd → Prop
  | .read .bufferFull, ending => ending = .refused .tooLarge
  | .err failure, ending => ending = .refused (.err failure) ∨
      failure = continuationErr ∧ ending = .refused (.err longHeaderErr)
  | _, _ => False

/-- `processor` waits for bytes that are not in the buffer. -/
def Inbound.Starved (this : Inbound) : Prop :=
  match this.processor with
  | .sizing cnt => this.ring.pseq < this.ring.cseq + cnt
  | .peeking _ total => (this.ring.pseq : ℤ) < this.ring.cseq + total
  | _ => False

theorem size_of_front {unread : Bytes} {frame : Frame}
    (hframe : frame.bytes <+: unread) : ∃ total : ℤ, total ≤ unread.length ∧
      getPeekMessageSize unread = .ok (frame.mtype, total) := by
  obtain ⟨more, rfl⟩ := hframe
  refine ⟨frame.bytes.length, ?_, getPeekMessageSize_frame frame more⟩
  rw [List.length_append]
  omega

/-- A starved `processor` has no whole packet before it. -/
theorem Cut.incomplete {this : Inbound} (hcut : Cut this) (hstarved : this.Starved) :
    Incomplete (this.ring.sent.drop (handedBytes this.handled).length) := by
  have hat := hcut.processor
  have horder := hcut.fifo.order
  rw [Inbound.Starved] at hstarved
  intro frame hframe
  obtain ⟨total, hle, hsize⟩ := size_of_front hframe
  split at hstarved
  · next cnt hprocessor =>
      rw [hprocessor] at hat
      obtain ⟨hsettled, hlow, hhigh, -, seen, ⟨more, hmore⟩, -, hpeek⟩ := hat
      rw [hcut.length_of_settled hsettled] at hsize
      have hshort : (this.ring.sent.drop this.ring.cseq).length < cnt := by
        rw [hcut.fifo.length_unread]
        omega
      -- the header itself is not complete
      have heof : peekHeader (this.ring.sent.drop this.ring.cseq) 4 2 = .error .eof := by
        rw [← hmore, hpeek more, hmore, show 6 - cnt = 5 - cnt + 1 by omega, peekHeader, peek,
          if_neg (not_le.mpr hshort)]
      rw [getPeekMessageSize, heof] at hsize
      cases hsize
  · next mtype wanted hprocessor =>
      rw [hprocessor] at hat
      obtain ⟨hsettled, ⟨seen, ⟨more, hmore⟩, -, hsizes⟩, -⟩ := hat
      rw [hcut.length_of_settled hsettled] at hsize hle
      have hsame := hsizes more
      rw [hmore, hsize] at hsame
      injection hsame with hpair
      obtain ⟨-, rfl⟩ := Prod.mk.inj hpair
      rw [hcut.fifo.length_unread] at hle
      omega
  · exact hstarved

/-- A refusal of `processor` is a refusal of `receiverData` or its panic, on a stream that
begins in the same way. -/
theorem refused_of_refuses {unread rest : Bytes} {reason : ProcessorEnd}
    (hrefuses : Refuses unread reason) (hreason : reason.Refuses) (hrest : unread <+: rest)
    (behind : ReadErr) :
    ∃ ending, (ending = .panicked ∨ reason.Matches ending) ∧ ∀ rounds past,
      receiverData (fun _ => .goOn) behind (rounds + 1) past rest = ([], ending) := by
  rcases hreason with rfl | ⟨err, rfl⟩
  · obtain ⟨seen, mtype, total, hseen, hlarge, hsizes⟩ := hrefuses
    obtain ⟨more, rfl⟩ := hseen.trans hrest
    refine ⟨_, .inr rfl, fun rounds past => ?_⟩
    rw [receiverData, hsizes more]
    exact if_pos hlarge
  · rcases hrefuses with
      ⟨rfl, seen, hseen, hsizes⟩ | ⟨frame, spare, state, n, hframe, hsmall, hfail⟩
    · obtain ⟨more, rfl⟩ := hseen.trans hrest
      refine ⟨_, .inr (.inr ⟨rfl, rfl⟩), fun rounds past => ?_⟩
      rw [receiverData, hsizes more]
      rfl
    · obtain ⟨more, rfl⟩ := hframe.trans hrest
      have hbegins := Begins.of_append frame more
      have hfollows := decodePeeked_follows frame.mtype frame.bytes spare
      rcases hfollows.panic_or_fail hfail with hpanic | ⟨state', m, hfail'⟩
      · exact ⟨_, .inl rfl, fun _ _ => receiverData_of_panic hbegins hsmall hpanic⟩
      · exact ⟨_, .inr (.inl rfl), fun _ _ => receiverData_of_fail hbegins hsmall hfail'⟩

/-- `receiverData` hands over these messages first, or panics at one of them. -/
def Agrees (handled : List HandOver) (theirs : List HandOver × LoopEnd) : Prop :=
  handled.map HandOver.shown <+: theirs.1.map HandOver.shown ∨
    theirs.2 = .panicked ∧ theirs.1.map HandOver.shown <+: handled.map HandOver.shown

/-- Over a buffer of the size that the service gives it, in every interleaving of the two
goroutines and whatever lies behind the slices of `ReadWait`, `processor` hands over the
messages that `receiverData` hands over for the same bytes, in the same order, up to a packet
at which `receiverData` panics; where it refuses a packet `receiverData` panics or refuses it
too, for the same reason; and where it waits, no whole packet is before it. -/
theorem processor_agrees {ring : RingBuffer} {labels : List InboundStep} {last : Inbound}
    (hnew : RingBuffer.newBuffer RingBuffer.defaultBufferSize = .ok ring)
    (hrun : run Inbound.step (Inbound.start ring) labels = some last) (behind : ReadErr) :
    (∀ rounds, Agrees last.handled (receiverData (fun _ => .goOn) behind
      (last.handled.length + rounds) [] last.arrived)) ∧
    (∀ reason, last.processor = .returned reason → reason.Refuses → ∀ rounds,
      ∃ theirs ending, receiverData (fun _ => .goOn) behind
          (last.handled.length + (rounds + 1)) [] last.arrived = (theirs, ending) ∧
        (ending = .panicked ∨ reason.Matches ending ∧
          theirs.map HandOver.shown = last.handled.map HandOver.shown)) ∧
    (last.Starved → Incomplete (last.ring.sent.drop (handedBytes last.handled).length)) := by
  have hcut := cut_of_run hnew hrun
  obtain ⟨inHand, -, harrived, -⟩ := hcut.putting
  obtain ⟨unread, hunread⟩ := hcut.front
  have hstream : last.arrived = handedBytes last.handled ++ (unread ++ inHand) := by
    rw [harrived, ← hunread, List.append_assoc]
  rw [hstream]
  refine ⟨fun rounds => ?_, fun reason hreturned hreason rounds => ?_, hcut.incomplete⟩
  · obtain ⟨theirs, past, hfront, hpanicked | ⟨hall, hloop⟩⟩ :=
      receiverData_whole behind rounds hcut.whole [] (unread ++ inHand)
    · rw [hpanicked]
      exact .inr ⟨rfl, hfront⟩
    · rw [hloop, Agrees, List.map_append, hall]
      exact .inl (List.prefix_append _ _)
  · have hat := hcut.processor
    rw [hreturned] at hat
    have hrefuses : Refuses _ reason := hat
    rw [← hunread, List.drop_left] at hrefuses
    obtain ⟨ending, hmatches, hended⟩ :=
      refused_of_refuses hrefuses hreason (List.prefix_append unread inHand) behind
    obtain ⟨theirs, past, -, hpanicked | ⟨hall, hloop⟩⟩ :=
      receiverData_whole behind (rounds + 1) hcut.whole [] (unread ++ inHand)
    · exact ⟨theirs, _, hpanicked, .inl rfl⟩
    · rw [hended, List.append_nil] at hloop
      exact ⟨theirs, ending, hloop, hmatches.imp_right fun hmatch => ⟨hmatch, hall⟩⟩

/-- A PINGREQ arrives, byte by byte and with a pause, and is processed. -/
def pingArrives : List InboundStep :=
  [.readFrom, .consume, .produce, .produce, .produce, .arrive 0xc0, .consume, .writeCommit,
    .produce, .produce, .produce, .produce, .consume, .readFrom, .produce, .produce, .produce,
    .arrive 0x00, .writeCommit, .consume, .produce, .produce, .produce, .produce, .consume,
    .consume, .process [0], .consume, .consume, .process [0], .incoming (.returned none),
    .consume, .consume, .consume, .process [0], .isDone false]

theorem processor_agrees_ping :
    ∃ ring last, RingBuffer.newBuffer RingBuffer.defaultBufferSize = .ok ring ∧
      run Inbound.step (Inbound.start ring) pingArrives = some last ∧
      last.handled.map HandOver.buffer = [[0xc0, 0x00]] ∧
      Agrees last.handled (receiverData (fun _ => .goOn) .eof (last.handled.length + 1) []
        last.arrived) := by
  obtain ⟨ring, hnew, hends⟩ : ∃ ring,
      RingBuffer.newBuffer RingBuffer.defaultBufferSize = .ok ring ∧
      (run Inbound.step (Inbound.start ring) pingArrives).map
        (fun last => last.handled.map HandOver.buffer) = some [[0xc0, 0x00]] :=
    ⟨_, rfl, by decide +kernel⟩
  obtain ⟨last, hrun, hhandled⟩ := Option.map_eq_some_iff.mp hends
  exact ⟨ring, last, hnew, hrun, hhandled, (processor_agrees hnew hrun .eof).1 1⟩

end Xmqtt.Service
