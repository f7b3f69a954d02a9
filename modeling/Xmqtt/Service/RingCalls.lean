import Xmqtt.Service.RingFifo

/-!
# The calls of the ring buffer

What a caller may rely on, while the other party goes on between any two accesses: what
`ReadWait` returns and what `ReadCommit` takes off the stream.
-/

namespace Xmqtt.Service.RingBuffer

open Xmqtt.Core Xmqtt.Go

/-! ## What the other party does -/

/-- What a step of the producer leaves to the consumer. -/
structure Produces (this next : RingBuffer) : Prop where
  consumer : next.consumer = this.consumer
  cseq : next.cseq = this.cseq
  received : next.received = this.received
  size : next.size = this.size
  sent : this.sent <+: next.sent

/-- What a step of the consumer leaves to the producer. -/
structure Consumes (this next : RingBuffer) : Prop where
  producer : next.producer = this.producer
  done : next.done = this.done
  buf : next.buf = this.buf
  pseq : next.pseq = this.pseq
  size : next.size = this.size
  sent : next.sent = this.sent

variable {this : RingBuffer}

theorem Produces.refl (this : RingBuffer) : Produces this this :=
  ⟨rfl, rfl, rfl, rfl, List.prefix_rfl⟩

theorem produces_granted (n ppos : ℕ) (purpose : Purpose) :
    Produces this (this.granted n ppos purpose) := by
  cases purpose with
  | write p | readFrom | writeCommit filled => exact ⟨rfl, rfl, rfl, rfl, List.prefix_rfl⟩
  | writeWait =>
      rw [granted]
      split_ifs
      · exact ⟨rfl, rfl, rfl, rfl, List.prefix_rfl⟩
      · exact ⟨rfl, rfl, rfl, rfl, List.prefix_rfl⟩

theorem sent_granted (n ppos : ℕ) (purpose : Purpose) :
    (this.granted n ppos purpose).sent = this.sent := by
  cases purpose with
  | writeWait =>
      rw [granted]
      split_ifs <;> rfl
  | _ => rfl

theorem produces_produce : Produces this this.produce := by
  have hmove : ∀ producer, Produces this { this with producer := producer } :=
    fun _ => ⟨rfl, rfl, rfl, rfl, List.prefix_rfl⟩
  rw [produce]
  split
  · exact .refl this
  · split_ifs
    · exact hmove _
    · exact hmove _
  · exact hmove _
  · split_ifs
    · exact hmove _
    · exact produces_granted _ _ _
  · split_ifs
    · exact hmove _
    · next purpose n ppos _ _ =>
        have hgate : Produces { this with gate := this.cseq }
            ({ this with gate := this.cseq }.granted n ppos purpose) := produces_granted _ _ _
        exact ⟨hgate.consumer, hgate.cseq, hgate.received, hgate.size, hgate.sent⟩
  · split_ifs
    · exact hmove _
    · exact hmove _
  · split
    · exact ⟨rfl, rfl, rfl, rfl, List.prefix_rfl⟩
    · exact hmove _
  · exact .refl this
  · exact ⟨rfl, rfl, rfl, rfl, List.prefix_append _ _⟩

theorem consumes_consume : Consumes this this.consume := by
  have hmove : ∀ consumer, Consumes this { this with consumer := consumer } :=
    fun _ => ⟨rfl, rfl, rfl, rfl, rfl, rfl⟩
  have hhands : ∀ slice consumer, Consumes this (this.hands slice consumer) :=
    fun _ _ => ⟨rfl, rfl, rfl, rfl, rfl, rfl⟩
  rw [consume]
  split
  all_goals first
    | exact hmove _
    | exact ⟨rfl, rfl, rfl, rfl, rfl, rfl⟩
    | (split_ifs <;> first | exact hmove _ | exact hhands _ _)
    | (split <;> first | exact hmove _ | (split_ifs <;> first | exact hmove _ | exact hhands _ _))

/-- The steps of the producer and `Close`. -/
theorem produces_callProducer (n : ℕ) (purpose : Purpose) :
    Produces this (this.callProducer n purpose) := by
  rw [callProducer]
  split
  · split_ifs
    · exact ⟨rfl, rfl, rfl, rfl, List.prefix_rfl⟩
    · exact .refl this
  · exact .refl this

theorem sent_callProducer (n : ℕ) (purpose : Purpose) :
    (this.callProducer n purpose).sent = this.sent := by
  rw [callProducer]
  split
  · split_ifs <;> rfl
  · rfl

/-- The next bytes stay the next ones when more are sent. -/
theorem Produces.next {next : RingBuffer} (hproduces : Produces this next) {bytes : Bytes}
    (hnext : this.Next bytes) : next.Next bytes := by
  rw [Next, hproduces.cseq]
  exact hnext.trans (hproduces.sent.drop this.cseq)

/-- The consumer may call: it has returned from its last call. -/
def CanCall (this : RingBuffer) : Prop :=
  (∃ n err, this.consumer = .idle n err) ∨ ∃ slice err, this.consumer = .held slice err

theorem callConsumer_eq (hcan : this.CanCall) (consumer : Consumer) :
    this.callConsumer consumer = { this with consumer := consumer } := by
  rcases hcan with ⟨n, err, hconsumer⟩ | ⟨slice, err, hconsumer⟩
  · rw [callConsumer, hconsumer]
  · rw [callConsumer, hconsumer]

/-! ## `ReadWait` -/

/-- The consumer is in `ReadWait(n)`, or has what it returned. -/
def ReadWaitAt (n : ℕ) : Consumer → Prop
  | .peekLoad peek m => peek = .readWait ∧ m = n
  | .peekLook peek m _ => peek = .readWait ∧ m = n
  | .peekStall peek m _ => peek = .readWait ∧ m = n
  | .tmp _ m err _ => m = n ∧ err = none
  | .held slice err => slice.length = n ∧ err = none
  | .idle _ err => err = some .eof
  | _ => False

theorem readWaitAt_consume (hfifo : Fifo this) {n : ℕ} (hat : ReadWaitAt n this.consumer) :
    ReadWaitAt n this.consume.consumer ∧ this.consume.cseq = this.cseq ∧
      this.consume.received = this.received := by
  cases hconsumer : this.consumer with
  | idle m err | held slice err =>
      simp only [consume, hconsumer, and_self, and_true]
      rwa [hconsumer] at hat
  | peekLoad peek m =>
      rw [hconsumer] at hat
      simp only [consume, hconsumer, and_self, and_true]
      exact hat
  | peekLook peek m cpos =>
      rw [hconsumer] at hat
      obtain ⟨rfl, rfl⟩ := hat
      obtain rfl : cpos = this.cseq := hfifo.consumerAt hconsumer
      by_cases hmore : this.cseq + m > this.pseq
      · simp only [consume, hconsumer, peekCount, if_pos hmore, and_self, and_true]
        exact ⟨rfl, rfl⟩
      · simp only [consume, hconsumer, peekCount, if_neg hmore]
        split_ifs
        · exact ⟨⟨rfl, rfl⟩, rfl, rfl⟩
        · refine ⟨⟨?_, rfl⟩, rfl, rfl⟩
          rw [List.length_take, List.length_drop, hfifo.length]
          omega
  | peekStall peek m cpos =>
      rw [hconsumer] at hat
      simp only [consume, hconsumer]
      split_ifs
      · exact ⟨rfl, rfl, rfl⟩
      · exact ⟨hat, rfl, rfl⟩
  | tmp cpos m err got =>
      rw [hconsumer] at hat
      obtain ⟨rfl, rfl⟩ := hat
      obtain ⟨-, -, hlength, -⟩ := hfifo.consumerAt hconsumer
      simp only [consume, hconsumer]
      split_ifs with hmore
      · exact ⟨⟨rfl, rfl⟩, rfl, rfl⟩
      · exact ⟨⟨le_antisymm hlength (not_lt.mp hmore), rfl⟩, rfl, rfl⟩
  | _ =>
      rw [hconsumer] at hat
      exact hat.elim

/-! ## `ReadCommit` -/

/-- The consumer takes the slice off the stream, behind what it had before. -/
def CommitAt (before slice : Bytes) (this : RingBuffer) : Prop :=
  match this.consumer with
  | .commitLoad n held => n = held.length ∧ held = slice ∧ this.received = before
  | .commitLook n _ held => n = held.length ∧ held = slice ∧ this.received = before
  | .store _ bytes => bytes = slice ∧ this.received = before
  | .idle _ err => err = none ∧ this.received = before ++ slice
  | _ => False

theorem commitAt_consume (hfifo : Fifo this) {before slice : Bytes}
    (hat : CommitAt before slice this) : CommitAt before slice this.consume := by
  rw [CommitAt] at hat
  split at hat
  · next n held hconsumer =>
      simp only [CommitAt, consume, hconsumer]
      exact hat
  · next n cpos held hconsumer =>
      obtain ⟨rfl, rfl, hreceived⟩ := hat
      obtain ⟨rfl, -, hnext⟩ := hfifo.consumerAt hconsumer
      have hlength := hnext.length_le
      have horder := hfifo.order
      rw [hfifo.length_unread] at hlength
      simp only [CommitAt, consume, hconsumer, if_pos (show this.cseq + held.length ≤ this.pseq by
        omega), List.take_length, true_and]
      exact hreceived
  · next pos bytes hconsumer =>
      obtain ⟨rfl, hreceived⟩ := hat
      simp only [CommitAt, consume, hconsumer, consumed, hreceived, and_self]
  · next n err hconsumer =>
      simp only [CommitAt, consume, hconsumer]
      exact hat
  · exact hat.elim

/-! ## What the producer puts behind the stream -/

def Purpose.bytes : Purpose → Bytes
  | .write p => p
  | .writeWait | .readFrom => []
  | .writeCommit filled => filled

/-- The bytes are in the hands of the producer: it is about to send them, or has put them
into its slice.  Behind an error they may be anything, for the buffer is closed then. -/
def Putting (bytes : Bytes) (this : RingBuffer) : Prop :=
  match this.producer with
  | .idle _ none => bytes = []
  | .idle _ (some _) => this.done = true
  | .enter purpose _ => purpose.bytes = bytes
  | .load purpose _ => purpose.bytes = bytes
  | .compare purpose _ _ => purpose.bytes = bytes
  | .look purpose _ _ => purpose.bytes = bytes
  | .stall purpose _ _ => purpose.bytes = bytes
  | .copy p _ _ => p = bytes
  | .reserved _ cnt => bytes.length ≤ cnt ∧ Ring.Shows this.buf this.pseq bytes
  | .store _ committed => committed = bytes

theorem putting_granted {n ppos : ℕ} {purpose : Purpose} {bytes : Bytes}
    (hbytes : purpose.bytes = bytes) : Putting bytes (this.granted n ppos purpose) ∧
      ∀ start cnt, (this.granted n ppos purpose).producer = .reserved start cnt →
        bytes = [] := by
  cases purpose with
  | write p | writeCommit filled => exact ⟨hbytes, by rintro _ _ ⟨⟩⟩
  | writeWait =>
      rw [granted]
      split_ifs
      · exact ⟨hbytes.symm, by rintro _ _ ⟨⟩⟩
      · subst hbytes
        exact ⟨⟨Nat.zero_le _, Ring.Shows.nil _ _⟩, fun _ _ _ => rfl⟩
  | readFrom =>
      subst hbytes
      exact ⟨⟨Nat.zero_le _, Ring.Shows.nil _ _⟩, fun _ _ _ => rfl⟩

/-- What the producer has in hand is sent or stays in hand, and a slice that it gets is
empty. -/
theorem putting_produce {bytes : Bytes} (hputting : Putting bytes this) :
    ∃ left, Putting left this.produce ∧ this.produce.sent ++ left = this.sent ++ bytes ∧
      ∀ start cnt, this.produce.producer = .reserved start cnt →
        left = [] ∨ this.producer = .reserved start cnt ∧ left = bytes := by
  cases hproducer : this.producer with
  | idle n err =>
      simp only [produce, hproducer]
      exact ⟨bytes, hputting, rfl, by rintro _ _ ⟨⟩⟩
  | enter purpose n | stall purpose n ppos =>
      simp only [Putting, hproducer] at hputting
      simp only [produce, hproducer]
      split_ifs with hdone
      · exact ⟨bytes, hdone, rfl, by rintro _ _ ⟨⟩⟩
      · exact ⟨bytes, hputting, rfl, by rintro _ _ ⟨⟩⟩
  | load purpose n =>
      simp only [Putting, hproducer] at hputting
      simp only [produce, hproducer]
      exact ⟨bytes, hputting, rfl, by rintro _ _ ⟨⟩⟩
  | compare purpose n ppos | look purpose n ppos =>
      simp only [Putting, hproducer] at hputting
      simp only [produce, hproducer]
      split_ifs
      · exact ⟨bytes, hputting, rfl, by rintro _ _ ⟨⟩⟩
      · obtain ⟨hgranted, hempty⟩ := putting_granted hputting
        exact ⟨bytes, hgranted, by rw [sent_granted],
          fun start cnt hreserved => .inl (hempty start cnt hreserved)⟩
  | copy p start i =>
      simp only [Putting, hproducer] at hputting
      simp only [produce, hproducer]
      split
      · exact ⟨bytes, hputting, rfl, by rintro _ _ ⟨⟩⟩
      · exact ⟨bytes, hputting, rfl, by rintro _ _ ⟨⟩⟩
  | reserved start cnt =>
      simp only [produce, hproducer]
      exact ⟨bytes, hputting, rfl, fun _ _ hreserved => .inr ⟨hreserved, rfl⟩⟩
  | store pos committed =>
      simp only [Putting, hproducer] at hputting
      subst hputting
      simp only [produce, hproducer]
      exact ⟨[], rfl, List.append_nil _, by rintro _ _ ⟨⟩⟩

/-- A call that brings no bytes, on a buffer that is open. -/
theorem putting_callProducer {bytes : Bytes} (hputting : Putting bytes this)
    (hopen : this.done = false) (n : ℕ) {purpose : Purpose} (hbytes : purpose.bytes = []) :
    Putting bytes (this.callProducer n purpose) ∧
      ∀ start cnt, (this.callProducer n purpose).producer = .reserved start cnt ↔
        this.producer = .reserved start cnt := by
  rw [callProducer]
  split
  · next m err hidle =>
      cases err with
      | none =>
          simp only [Putting, hidle] at hputting
          subst hputting
          split_ifs
          · exact ⟨hbytes, by simp [hidle]⟩
          · exact ⟨by simp only [Putting, hidle], fun _ _ => Iff.rfl⟩
      | some err =>
          simp only [Putting, hidle, hopen, Bool.false_eq_true] at hputting
  · exact ⟨hputting, fun _ _ => Iff.rfl⟩

/-- The consumer does not touch what the producer has in hand. -/
theorem Consumes.putting {next : RingBuffer} (hconsumes : Consumes this next) {bytes : Bytes}
    (hputting : Putting bytes this) : Putting bytes next := by
  rw [Putting, hconsumes.producer, hconsumes.done, hconsumes.buf, hconsumes.pseq]
  exact hputting

/-- The owner of the slice puts a byte behind the others. -/
theorem putting_fill (hfifo : Fifo this) {bytes : Bytes} (hputting : Putting bytes this)
    {start cnt : ℕ} (hproducer : this.producer = .reserved start cnt)
    (hroom : bytes.length < cnt) (byte : Byte) :
    Putting (bytes ++ [byte]) (this.step (.fill bytes.length byte)) := by
  obtain ⟨rfl, -, hwrap⟩ := hfifo.producerAt hproducer
  simp only [Putting, hproducer] at hputting
  have hslot : this.index this.pseq + bytes.length =
      Ring.slot this.buf.length this.pseq bytes.length := by
    rw [hfifo.length, Ring.slot_of_lt (by rw [← hfifo.index_eq]; omega), hfifo.index_eq]
  simp only [Putting, step, hproducer, if_pos hroom, hslot]
  refine ⟨?_, hputting.2.push ?_ byte⟩
  · rw [List.length_append]
    exact hroom
  · rw [hfifo.length]
    omega

/-- `WriteCommit` of what was put into the slice. -/
theorem putting_writeCommit (hfifo : Fifo this) {bytes : Bytes} (hputting : Putting bytes this)
    {start cnt : ℕ} (hproducer : this.producer = .reserved start cnt) :
    Putting bytes (this.step (.writeCommit bytes.length)) := by
  obtain ⟨rfl, -, hwrap⟩ := hfifo.producerAt hproducer
  simp only [Putting, hproducer] at hputting
  obtain ⟨hlength, hshows⟩ := hputting
  have hwindow := hshows.eq_window (by rw [hfifo.length, ← hfifo.index_eq]; omega)
  rw [hfifo.length, ← hfifo.index_eq] at hwindow
  simp only [Putting, step, hproducer, if_pos hlength, hwindow, Purpose.bytes]

end Xmqtt.Service.RingBuffer
