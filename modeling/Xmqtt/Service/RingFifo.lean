import Xmqtt.Service.RingBuffer

/-!
# A lossless FIFO

The cells between the two cursors show what was sent and not yet received.  The producer
writes in front of them, and less than a round ahead of its gate, which the consumer has
passed; the consumer reads from the cells between the cursors only.
-/

namespace Xmqtt.Service.RingBuffer

open Xmqtt.Core Xmqtt.Go

/-! ## The invariant -/

/-- What is to be committed is in the ring already. -/
def Pending (this : RingBuffer) (n : ℕ) : Purpose → Prop
  | .write p => n = p.length
  | .writeWait => True
  | .readFrom => True
  | .writeCommit filled => n = filled.length ∧ Ring.Shows this.buf this.pseq filled

/-- The producer has a place in the ring for `n` bytes. -/
def HasSpace (this : RingBuffer) (n : ℕ) : Prop := this.pseq + n ≤ this.gate + this.size

def ProducerAt (this : RingBuffer) : Producer → Prop
  | .idle _ _ => True
  | .enter purpose n => this.Pending n purpose
  | .load purpose n => this.Pending n purpose
  | .compare purpose n ppos => ppos = this.pseq ∧ this.Pending n purpose
  | .look purpose n ppos => ppos = this.pseq ∧ this.Pending n purpose
  | .stall purpose n ppos => ppos = this.pseq ∧ this.Pending n purpose
  | .copy p start i => start = this.pseq ∧ this.HasSpace p.length ∧ i ≤ p.length ∧
      Ring.Shows this.buf this.pseq (p.take i)
  | .reserved start cnt => start = this.pseq ∧ this.HasSpace cnt ∧
      this.index start + cnt ≤ this.size
  | .store pos bytes => pos = this.pseq + bytes.length ∧ this.HasSpace bytes.length ∧
      Ring.Shows this.buf this.pseq bytes

/-- The next bytes of the stream. -/
def Next (this : RingBuffer) (bytes : Bytes) : Prop := bytes <+: this.sent.drop this.cseq

def ConsumerAt (this : RingBuffer) : Consumer → Prop
  | .idle _ _ => True
  | .enter _ => True
  | .lenLoad _ => True
  | .lenLook _ cpos => cpos = this.cseq
  | .load _ => True
  | .look _ cpos => cpos = this.cseq
  | .wait _ cpos => cpos = this.cseq
  | .stall _ cpos => cpos = this.cseq
  | .copy cpos n got => cpos = this.cseq ∧ cpos + n ≤ this.pseq ∧
      this.index cpos + n ≤ this.size ∧ got.length ≤ n ∧ this.Next got
  | .store pos bytes => pos = this.cseq + bytes.length ∧ this.Next bytes
  | .peekLoad _ _ => True
  | .peekLook _ _ cpos => cpos = this.cseq
  | .peekStall _ _ cpos => cpos = this.cseq
  | .tmp cpos m _ got => cpos = this.cseq ∧ cpos + m ≤ this.pseq ∧ got.length ≤ m ∧
      this.Next got
  | .held slice _ => this.Next slice
  | .commitLoad n slice => n ≤ slice.length ∧ this.Next slice
  | .commitLook n cpos slice => cpos = this.cseq ∧ n ≤ slice.length ∧ this.Next slice

/-- What holds between any two accesses. -/
structure Fifo (this : RingBuffer) : Prop where
  power : ∃ k, this.size = 2 ^ k
  length : this.buf.length = this.size
  sent : this.sent.length = this.pseq
  received : this.received = this.sent.take this.cseq
  order : this.cseq ≤ this.pseq
  space : this.pseq ≤ this.gate + this.size
  gate : this.gate ≤ this.cseq
  unread : Ring.Shows this.buf this.cseq (this.sent.drop this.cseq)
  slices : ∀ slice ∈ this.slices, slice.2 <+: this.sent.drop slice.1
  producer : this.ProducerAt this.producer
  consumer : this.ConsumerAt this.consumer

variable {this : RingBuffer}

theorem Fifo.index_eq (hfifo : Fifo this) (pos : ℕ) : this.index pos = pos % this.size := by
  obtain ⟨k, hk⟩ := hfifo.power
  rw [index, hk, Nat.and_two_pow_sub_one_eq_mod]

theorem Fifo.size_pos (hfifo : Fifo this) : 0 < this.size := by
  obtain ⟨k, hk⟩ := hfifo.power
  rw [hk]
  exact Nat.two_pow_pos k

theorem Fifo.index_lt (hfifo : Fifo this) (pos : ℕ) : this.index pos < this.size := by
  rw [hfifo.index_eq]
  exact Nat.mod_lt _ hfifo.size_pos

theorem Fifo.producerAt (hfifo : Fifo this) {producer : Producer}
    (hproducer : this.producer = producer) : this.ProducerAt producer :=
  hproducer ▸ hfifo.producer

theorem Fifo.consumerAt (hfifo : Fifo this) {consumer : Consumer}
    (hconsumer : this.consumer = consumer) : this.ConsumerAt consumer :=
  hconsumer ▸ hfifo.consumer

theorem Fifo.slot_index (hfifo : Fifo this) (pos i : ℕ) :
    Ring.slot this.size (this.index pos) i = Ring.slot this.buf.length pos i := by
  rw [hfifo.index_eq, hfifo.length, Ring.slot, Ring.slot, Nat.mod_add_mod]

theorem Fifo.length_unread (hfifo : Fifo this) :
    (this.sent.drop this.cseq).length = this.pseq - this.cseq := by
  rw [List.length_drop, hfifo.sent]

/-! ## What a step can do -/

/-- The producer does not see what the consumer changes. -/
theorem ProducerAt.of_eq {other : RingBuffer} {producer : Producer}
    (hat : this.ProducerAt producer) (hbuf : other.buf = this.buf) (hsize : other.size = this.size)
    (hpseq : other.pseq = this.pseq) (hgate : other.gate = this.gate) :
    other.ProducerAt producer := by
  have hpending : ∀ n purpose, this.Pending n purpose → other.Pending n purpose := by
    intro n purpose hpending
    cases purpose with
    | writeCommit filled =>
        rw [Pending, hbuf, hpseq]
        exact hpending
    | write p => exact hpending
    | writeWait => trivial
    | readFrom => trivial
  cases producer with
  | idle n err => trivial
  | enter purpose n | load purpose n => exact hpending n purpose hat
  | compare purpose n ppos | look purpose n ppos | stall purpose n ppos =>
      exact ⟨hat.1.trans hpseq.symm, hpending n purpose hat.2⟩
  | copy p start i | store pos bytes =>
      rw [ProducerAt, HasSpace, hbuf, hsize, hpseq, hgate]
      exact hat
  | reserved start cnt =>
      rw [ProducerAt, HasSpace, index, hsize, hpseq, hgate]
      exact hat

/-- The consumer sees of the producer only that it sends more. -/
theorem ConsumerAt.of_grown {other : RingBuffer} {consumer : Consumer}
    (hat : this.ConsumerAt consumer) (hsize : other.size = this.size)
    (hcseq : other.cseq = this.cseq) (hpseq : this.pseq ≤ other.pseq)
    (hsent : this.sent <+: other.sent) : other.ConsumerAt consumer := by
  have hnext : ∀ bytes, this.Next bytes → other.Next bytes := by
    intro bytes hnext
    rw [Next, hcseq]
    exact hnext.trans (hsent.drop this.cseq)
  cases consumer with
  | idle n err | enter pl | lenLoad pl | load pl | peekLoad peek n => trivial
  | lenLook pl cpos | look pl cpos | wait pl cpos | stall pl cpos | peekLook peek n cpos
  | peekStall peek n cpos => exact hat.trans hcseq.symm
  | copy cpos n got =>
      obtain ⟨hcpos, hn, hindex, hlength, hgot⟩ := hat
      rw [ConsumerAt, index, hsize]
      exact ⟨hcpos.trans hcseq.symm, hn.trans hpseq, hindex, hlength, hnext got hgot⟩
  | store pos bytes =>
      rw [ConsumerAt, hcseq]
      exact ⟨hat.1, hnext bytes hat.2⟩
  | tmp cpos m err got =>
      obtain ⟨hcpos, hm, hlength, hgot⟩ := hat
      exact ⟨hcpos.trans hcseq.symm, hm.trans hpseq, hlength, hnext got hgot⟩
  | held slice err => exact hnext slice hat
  | commitLoad n slice => exact ⟨hat.1, hnext slice hat.2⟩
  | commitLook n cpos slice => exact ⟨hat.1.trans hcseq.symm, hat.2.1, hnext slice hat.2.2⟩

theorem Fifo.moveProducer (hfifo : Fifo this) {producer : Producer}
    (hat : this.ProducerAt producer) : Fifo { this with producer := producer } :=
  { hfifo with
    producer := hat.of_eq rfl rfl rfl rfl
    consumer := hfifo.consumer.of_grown rfl rfl le_rfl List.prefix_rfl }

theorem Fifo.moveConsumer (hfifo : Fifo this) {consumer : Consumer}
    (hat : this.ConsumerAt consumer) : Fifo { this with consumer := consumer } :=
  { hfifo with
    producer := hfifo.producer.of_eq rfl rfl rfl rfl
    consumer := hat.of_grown rfl rfl le_rfl List.prefix_rfl }

/-- The producer writes a byte in front of what is unread. -/
theorem Fifo.poke (hfifo : Fifo this) {i : ℕ} (hi : this.HasSpace (i + 1)) (byte : Byte)
    (producer : Producer)
    (hat : { this with buf := this.buf.set (Ring.slot this.buf.length this.pseq i) byte
      }.ProducerAt producer) :
    Fifo { this with
      buf := this.buf.set (Ring.slot this.buf.length this.pseq i) byte
      producer := producer } := by
  have horder := hfifo.order
  have hgate := hfifo.gate
  rw [HasSpace] at hi
  have hslot : Ring.slot this.buf.length this.pseq i =
      Ring.slot this.buf.length this.cseq (this.pseq - this.cseq + i) := by
    rw [Ring.slot, Ring.slot, ← Nat.add_assoc, Nat.add_sub_cancel' horder]
  refine { hfifo with
    length := (List.length_set).trans hfifo.length
    unread := ?_
    producer := hat.of_eq rfl rfl rfl rfl
    consumer := hfifo.consumer.of_grown rfl rfl le_rfl List.prefix_rfl }
  simp only [hslot]
  refine hfifo.unread.set ?_ ?_ byte
  · rw [hfifo.length_unread]
    omega
  · rw [hfifo.length]
    omega

/-- The producer stores its cursor behind bytes that are in the ring. -/
theorem Fifo.publish (hfifo : Fifo this) {bytes : Bytes} (hspace : this.HasSpace bytes.length)
    (hshows : Ring.Shows this.buf this.pseq bytes) (n : ℕ) (err : Option BufErr) :
    Fifo ({ this with pseq := this.pseq + bytes.length, sent := this.sent ++ bytes }.produced
      n err) := by
  have horder := hfifo.order
  have hdrop : (this.sent ++ bytes).drop this.cseq = this.sent.drop this.cseq ++ bytes :=
    List.drop_append_of_le_length (hfifo.sent ▸ horder)
  refine { hfifo with
    sent := ?_
    received := ?_
    order := Nat.le_add_right_of_le horder
    space := hspace
    unread := ?_
    slices := fun slice hmem => (hfifo.slices slice hmem).trans
      ((List.prefix_append _ _).drop _)
    producer := trivial
    consumer := hfifo.consumer.of_grown rfl rfl (Nat.le_add_right _ _)
      (List.prefix_append _ _) }
  · exact List.length_append.trans (congrArg (· + bytes.length) hfifo.sent)
  · exact hfifo.received.trans (List.take_append_of_le_length (hfifo.sent ▸ horder)).symm
  · change Ring.Shows this.buf this.cseq ((this.sent ++ bytes).drop this.cseq)
    rw [hdrop, Ring.Shows.append_iff, hfifo.length_unread, Nat.add_sub_cancel' horder]
    exact ⟨hfifo.unread, hshows⟩

/-- The consumer stores its cursor behind the next bytes. -/
theorem Fifo.advance (hfifo : Fifo this) {bytes : Bytes} (hnext : this.Next bytes)
    (n : ℕ) (err : Option BufErr) :
    Fifo ({ this with cseq := this.cseq + bytes.length, received := this.received ++ bytes
      }.consumed n err) := by
  obtain ⟨rest, hrest⟩ := hnext
  have hlength := hfifo.length_unread
  rw [← hrest, List.length_append] at hlength
  have horder := hfifo.order
  have hgate := hfifo.gate
  have hdrop : this.sent.drop (this.cseq + bytes.length) = rest := by
    rw [← List.drop_drop, ← hrest, List.drop_left]
  refine { hfifo with
    received := ?_
    order := ?_
    gate := Nat.le_add_right_of_le hgate
    unread := ?_
    producer := hfifo.producer.of_eq rfl rfl rfl rfl
    consumer := trivial }
  · change this.received ++ bytes = this.sent.take (this.cseq + bytes.length)
    rw [List.take_add, ← hrest, List.take_left, hfifo.received]
  · change this.cseq + bytes.length ≤ this.pseq
    omega
  · change Ring.Shows this.buf (this.cseq + bytes.length)
      (this.sent.drop (this.cseq + bytes.length))
    have hunread := hfifo.unread
    rw [← hrest] at hunread
    rw [hdrop]
    exact (Ring.Shows.append_iff.mp hunread).2

/-- The consumer is given a slice. -/
theorem Fifo.hands (hfifo : Fifo this) {slice : Bytes} (hnext : this.Next slice)
    {consumer : Consumer} (hat : this.ConsumerAt consumer) :
    Fifo (this.hands slice consumer) := by
  refine { hfifo with
    slices := fun other hmem => ?_
    producer := hfifo.producer.of_eq rfl rfl rfl rfl
    consumer := hat.of_grown rfl rfl le_rfl List.prefix_rfl }
  rcases List.mem_append.mp hmem with hbefore | hnew
  · exact hfifo.slices other hbefore
  · rw [List.mem_singleton.mp hnew]
    exact hnext

/-- The producer looks where the consumer is. -/
theorem Fifo.moveGate (hfifo : Fifo this) {producer : Producer}
    (hproducer : this.producer = producer)
    (hat : { this with gate := this.cseq }.ProducerAt producer) :
    Fifo { this with gate := this.cseq } := by
  have hspace := hfifo.space
  have hgate := hfifo.gate
  refine { hfifo with
    space := ?_
    gate := le_rfl
    producer := ?_
    consumer := hfifo.consumer.of_grown rfl rfl le_rfl List.prefix_rfl }
  · change this.pseq ≤ this.cseq + this.size
    omega
  · change { this with gate := this.cseq }.ProducerAt this.producer
    rw [hproducer]
    exact hat

/-! ## Every step -/

/-- Behind `waitForWriteSpace` there is space. -/
theorem Fifo.granted (hfifo : Fifo this) {n : ℕ} {purpose : Purpose}
    (hpending : this.Pending n purpose) (hspace : this.HasSpace n) :
    Fifo (this.granted n this.pseq purpose) := by
  cases purpose with
  | write p =>
      refine hfifo.moveProducer ⟨rfl, ?_, Nat.zero_le _, Ring.Shows.nil _ _⟩
      rw [← show n = p.length from hpending]
      exact hspace
  | writeWait =>
      rw [RingBuffer.granted]
      split_ifs with hwrap
      · exact hfifo.moveProducer trivial
      · exact hfifo.moveProducer ⟨rfl, hspace, not_lt.mp hwrap⟩
  | readFrom =>
      have hindex := hfifo.index_lt this.pseq
      refine hfifo.moveProducer ⟨rfl, ?_, ?_⟩
      · rw [HasSpace] at hspace ⊢
        omega
      · omega
  | writeCommit filled =>
      obtain ⟨hn, hshows⟩ := hpending
      refine hfifo.moveProducer ⟨by rw [hn], ?_, hshows⟩
      rw [← hn]
      exact hspace

/-- A byte is copied to the place of the byte before it and one further. -/
theorem Fifo.produceCopy (hfifo : Fifo this) {p : Bytes} {i : ℕ} {byte : Byte}
    (hspace : this.HasSpace p.length) (hshows : Ring.Shows this.buf this.pseq (p.take i))
    (hbyte : p[i]? = some byte) :
    Fifo { this with
      buf := this.buf.set (Ring.slot this.size (this.index this.pseq) i) byte
      producer := .copy p this.pseq (i + 1) } := by
  have hi := (List.getElem?_eq_some_iff.mp hbyte).1
  have hlength : (p.take i).length = i := List.length_take_of_le hi.le
  have hspace' := hspace
  have hbound := hfifo.space
  have hgate := hfifo.gate
  have horder := hfifo.order
  rw [HasSpace] at hspace'
  rw [hfifo.slot_index]
  refine hfifo.poke (by rw [HasSpace]; omega) byte _ ⟨rfl, hspace, hi, ?_⟩
  have hroom : (p.take i).length < this.buf.length := by
    rw [hlength, hfifo.length]
    omega
  have hpush := hshows.push hroom byte
  rw [hlength] at hpush
  rw [List.take_add_one, hbyte]
  exact hpush

theorem Fifo.produce (hfifo : Fifo this) : Fifo this.produce := by
  cases hproducer : this.producer with
  | idle n err | reserved start cnt =>
      simp only [RingBuffer.produce, hproducer]
      exact hfifo
  | enter purpose n | stall purpose n ppos =>
      have hat := hfifo.producerAt hproducer
      simp only [RingBuffer.produce, hproducer]
      split_ifs
      · exact hfifo.moveProducer trivial
      · exact hfifo.moveProducer hat
  | load purpose n =>
      simp only [RingBuffer.produce, hproducer]
      exact hfifo.moveProducer ⟨rfl, hfifo.producerAt hproducer⟩
  | compare purpose n ppos =>
      simp only [RingBuffer.produce, hproducer]
      obtain ⟨rfl, hpending⟩ := hfifo.producerAt hproducer
      split_ifs with hwait
      · exact hfifo.moveProducer ⟨rfl, hpending⟩
      · refine hfifo.granted hpending ?_
        rw [HasSpace]
        omega
  | look purpose n ppos =>
      simp only [RingBuffer.produce, hproducer]
      obtain ⟨rfl, hpending⟩ := hfifo.producerAt hproducer
      split_ifs with hwait
      · exact hfifo.moveProducer ⟨rfl, hpending⟩
      · have hpending' : { this with gate := this.cseq }.Pending n purpose := by
          cases purpose <;> exact hpending
        refine (hfifo.moveGate hproducer ⟨rfl, hpending'⟩).granted hpending' ?_
        change this.pseq + n ≤ this.cseq + this.size
        omega
  | copy p start i =>
      simp only [RingBuffer.produce, hproducer]
      obtain ⟨rfl, hspace, hi, hshows⟩ := hfifo.producerAt hproducer
      cases hbyte : p[i]? with
      | some byte => exact hfifo.produceCopy hspace hshows hbyte
      | none =>
          rw [List.take_of_length_le (List.getElem?_eq_none_iff.mp hbyte)] at hshows
          exact hfifo.moveProducer ⟨rfl, hspace, hshows⟩
  | store pos bytes =>
      simp only [RingBuffer.produce, hproducer]
      obtain ⟨rfl, hspace, hshows⟩ := hfifo.producerAt hproducer
      exact hfifo.publish hspace hshows _ _

/-! ### The consumer -/

/-- The next byte is read from its cell. -/
theorem Fifo.next_concat (hfifo : Fifo this) {got : Bytes} (hgot : this.Next got)
    (hmore : this.cseq + got.length < this.pseq) :
    ∃ byte, this.buf[Ring.slot this.buf.length this.cseq got.length]? = some byte ∧
      this.Next (got ++ [byte]) := by
  obtain ⟨rest, hrest⟩ := hgot
  have hlength := hfifo.length_unread
  rw [← hrest, List.length_append] at hlength
  cases rest with
  | nil =>
      rw [List.length_nil] at hlength
      omega
  | cons byte rest =>
      refine ⟨byte, hfifo.unread got.length byte ?_, rest, ?_⟩
      · rw [← hrest, List.getElem?_append_right le_rfl, Nat.sub_self]
        rfl
      · rw [← hrest, List.append_assoc]
        rfl

/-- Bytes that do not wrap around. -/
theorem Fifo.next_window (hfifo : Fifo this) {m : ℕ} (hm : this.cseq + m ≤ this.pseq)
    (hwrap : this.index this.cseq + m ≤ this.size) :
    this.Next ((this.buf.drop (this.index this.cseq)).take m) := by
  have hlength : ((this.sent.drop this.cseq).take m).length = m := by
    rw [List.length_take, hfifo.length_unread]
    omega
  have hsplit := hfifo.unread
  rw [← List.take_append_drop m (this.sent.drop this.cseq), Ring.Shows.append_iff] at hsplit
  have hwindow := hsplit.1.eq_window (by
    rw [hlength, hfifo.length, ← hfifo.index_eq]
    exact hwrap)
  rw [hlength, hfifo.length, ← hfifo.index_eq] at hwindow
  rw [Next, hwindow]
  exact List.take_prefix m _

/-- `Read` copies what is there, and not beyond the end of the ring. -/
theorem readCount_le {pl cpos ppos n : ℕ} (hcount : this.readCount pl cpos ppos = some n)
    (hindex : this.index cpos ≤ this.size) :
    cpos + n ≤ ppos ∧ this.index cpos + n ≤ this.size := by
  rw [readCount] at hcount
  split_ifs at hcount
  all_goals
    injection hcount with hn
    omega

theorem peekCount_le {n cpos ppos m : ℕ} {err : Option BufErr} {peek : Peek}
    (hcount : peekCount n cpos ppos peek = some (m, err)) : cpos + m ≤ ppos := by
  cases peek with
  | readPeek =>
      rw [peekCount] at hcount
      split_ifs at hcount
      all_goals
        obtain ⟨rfl, -⟩ := Prod.mk.inj (Option.some.inj hcount)
        omega
  | readWait =>
      rw [peekCount] at hcount
      split_ifs at hcount
      obtain ⟨rfl, -⟩ := Prod.mk.inj (Option.some.inj hcount)
      omega

theorem Fifo.consumeLook (hfifo : Fifo this) {pl cpos : ℕ}
    (hconsumer : this.consumer = .look pl cpos) : Fifo this.consume := by
  obtain rfl : cpos = this.cseq := hfifo.consumerAt hconsumer
  simp only [RingBuffer.consume, hconsumer]
  cases hcount : this.readCount pl this.cseq this.pseq with
  | none => exact hfifo.moveConsumer rfl
  | some n =>
      obtain ⟨hn, hwrap⟩ := readCount_le hcount (hfifo.index_lt _).le
      exact hfifo.moveConsumer ⟨rfl, hn, hwrap, Nat.zero_le _, List.nil_prefix⟩

/-- `Read` copies one more byte, or returns its slice. -/
theorem Fifo.consumeCopy (hfifo : Fifo this) {cpos n : ℕ} {got : Bytes}
    (hconsumer : this.consumer = .copy cpos n got) : Fifo this.consume := by
  obtain ⟨rfl, hn, hwrap, hlength, hgot⟩ := hfifo.consumerAt hconsumer
  simp only [RingBuffer.consume, hconsumer]
  split_ifs with hmore
  · obtain ⟨byte, hbyte, hnext⟩ := hfifo.next_concat hgot (by omega)
    rw [hfifo.length, Ring.slot_of_lt (by rw [← hfifo.index_eq]; omega),
      ← hfifo.index_eq] at hbyte
    rw [hbyte]
    refine hfifo.moveConsumer ⟨rfl, hn, hwrap, ?_, hnext⟩
    rw [Option.toList_some, List.length_append]
    exact hmore
  · exact hfifo.hands hgot ⟨by omega, hgot⟩

/-- A slice that does not wrap around is returned as it lies in the ring. -/
theorem Fifo.consumePeekLook (hfifo : Fifo this) {peek : Peek} {n cpos : ℕ}
    (hconsumer : this.consumer = .peekLook peek n cpos) : Fifo this.consume := by
  obtain rfl : cpos = this.cseq := hfifo.consumerAt hconsumer
  simp only [RingBuffer.consume, hconsumer]
  cases hcount : peekCount n this.cseq this.pseq peek with
  | none => exact hfifo.moveConsumer rfl
  | some count =>
      have hm := peekCount_le hcount
      simp only
      split_ifs with hwrap
      · exact hfifo.moveConsumer ⟨rfl, hm, Nat.zero_le _, List.nil_prefix⟩
      · have hnext := hfifo.next_window hm (not_lt.mp hwrap)
        exact hfifo.hands hnext hnext

/-- One that does is copied byte by byte. -/
theorem Fifo.consumeTmp (hfifo : Fifo this) {cpos m : ℕ} {err : Option BufErr} {got : Bytes}
    (hconsumer : this.consumer = .tmp cpos m err got) : Fifo this.consume := by
  obtain ⟨rfl, hm, hlength, hgot⟩ := hfifo.consumerAt hconsumer
  simp only [RingBuffer.consume, hconsumer]
  split_ifs with hmore
  · obtain ⟨byte, hbyte, hnext⟩ := hfifo.next_concat hgot (by omega)
    rw [hfifo.slot_index, hbyte]
    refine hfifo.moveConsumer ⟨rfl, hm, ?_, hnext⟩
    rw [Option.toList_some, List.length_append]
    exact hmore
  · exact hfifo.hands hgot hgot

theorem Fifo.consumeCommitLook (hfifo : Fifo this) {n cpos : ℕ} {slice : Bytes}
    (hconsumer : this.consumer = .commitLook n cpos slice) : Fifo this.consume := by
  obtain ⟨rfl, hn, hslice⟩ := hfifo.consumerAt hconsumer
  simp only [RingBuffer.consume, hconsumer]
  split_ifs
  · refine hfifo.moveConsumer ⟨?_, (List.take_prefix n slice).trans hslice⟩
    rw [List.length_take_of_le hn]
  · exact hfifo.moveConsumer trivial

theorem Fifo.consume (hfifo : Fifo this) : Fifo this.consume := by
  cases hconsumer : this.consumer with
  | idle n err | held slice err =>
      simp only [RingBuffer.consume, hconsumer]
      exact hfifo
  | enter pl =>
      simp only [RingBuffer.consume, hconsumer]
      refine hfifo.moveConsumer ?_
      split_ifs <;> trivial
  | lenLoad pl | load pl | peekLoad peek n =>
      simp only [RingBuffer.consume, hconsumer]
      exact hfifo.moveConsumer rfl
  | lenLook pl cpos =>
      simp only [RingBuffer.consume, hconsumer]
      split_ifs <;> exact hfifo.moveConsumer trivial
  | look pl cpos => exact hfifo.consumeLook hconsumer
  | wait pl cpos =>
      have hat := hfifo.consumerAt hconsumer
      simp only [RingBuffer.consume, hconsumer]
      refine hfifo.moveConsumer ?_
      split_ifs
      · exact hat
      · trivial
  | stall pl cpos | peekStall peek n cpos =>
      have hat := hfifo.consumerAt hconsumer
      simp only [RingBuffer.consume, hconsumer]
      split_ifs
      · exact hfifo.moveConsumer trivial
      · exact hfifo.moveConsumer hat
  | copy cpos n got => exact hfifo.consumeCopy hconsumer
  | store pos bytes =>
      simp only [RingBuffer.consume, hconsumer]
      obtain ⟨rfl, hnext⟩ := hfifo.consumerAt hconsumer
      exact hfifo.advance hnext _ _
  | peekLook peek n cpos => exact hfifo.consumePeekLook hconsumer
  | tmp cpos m err got => exact hfifo.consumeTmp hconsumer
  | commitLoad n slice =>
      simp only [RingBuffer.consume, hconsumer]
      exact hfifo.moveConsumer ⟨rfl, hfifo.consumerAt hconsumer⟩
  | commitLook n cpos slice => exact hfifo.consumeCommitLook hconsumer

/-! ### Calls and runs -/

theorem Fifo.callProducer (hfifo : Fifo this) {n : ℕ} {purpose : Purpose}
    (hpending : this.Pending n purpose) : Fifo (this.callProducer n purpose) := by
  rw [RingBuffer.callProducer]
  split
  · split_ifs
    · exact hfifo.moveProducer hpending
    · exact hfifo
  · exact hfifo

theorem Fifo.callConsumer (hfifo : Fifo this) {consumer : Consumer}
    (hat : this.ConsumerAt consumer) : Fifo (this.callConsumer consumer) := by
  rw [RingBuffer.callConsumer]
  split
  · exact hfifo.moveConsumer hat
  · exact hfifo.moveConsumer hat
  · exact hfifo

/-- The owner of a slice writes a byte of it. -/
theorem Fifo.fill (hfifo : Fifo this) {start cnt i : ℕ}
    (hproducer : this.producer = .reserved start cnt) (hi : i < cnt) (byte : Byte) :
    Fifo { this with buf := this.buf.set (this.index start + i) byte } := by
  obtain ⟨rfl, hspace, hwrap⟩ := hfifo.producerAt hproducer
  have hslot : this.index this.pseq + i = Ring.slot this.buf.length this.pseq i := by
    rw [hfifo.length, Ring.slot_of_lt (by rw [← hfifo.index_eq]; omega), hfifo.index_eq]
  have hplace : this.HasSpace (i + 1) := by
    rw [HasSpace] at hspace ⊢
    omega
  have hpoke := hfifo.poke hplace byte (.reserved this.pseq cnt) ⟨rfl, hspace, hwrap⟩
  rw [← hslot, ← hproducer] at hpoke
  exact hpoke

theorem Fifo.step (hfifo : Fifo this) (action : Action) : Fifo (this.step action) := by
  cases action with
  | close =>
      exact { hfifo with
        producer := hfifo.producer.of_eq rfl rfl rfl rfl
        consumer := hfifo.consumer.of_grown rfl rfl le_rfl List.prefix_rfl }
  | write p =>
      rw [RingBuffer.step]
      split_ifs
      · exact hfifo
      · exact hfifo.callProducer rfl
  | writeWait n => exact hfifo.callProducer trivial
  | readFrom =>
      rw [RingBuffer.step]
      split_ifs
      · exact hfifo
      · exact hfifo.callProducer trivial
  | fill i byte =>
      simp only [RingBuffer.step]
      split
      · rename_i hproducer
        split_ifs with hi
        · exact hfifo.fill hproducer hi byte
        · exact hfifo
      · exact hfifo
  | writeCommit n =>
      simp only [RingBuffer.step]
      split
      · rename_i start cnt hproducer
        split_ifs with hn
        · obtain ⟨rfl, -, hwrap⟩ := hfifo.producerAt hproducer
          have hlength : n ≤ (this.buf.drop (this.index this.pseq)).length := by
            rw [List.length_drop, hfifo.length]
            omega
          refine hfifo.moveProducer ⟨(List.length_take_of_le hlength).symm, ?_⟩
          have hindex : this.index this.pseq = this.pseq % this.buf.length := by
            rw [hfifo.index_eq, hfifo.length]
          rw [hindex]
          apply Ring.Shows.window
          rw [← hindex, hfifo.length]
          omega
        · exact hfifo
      · exact hfifo
  | giveUp =>
      simp only [RingBuffer.step]
      split
      · exact hfifo.moveProducer trivial
      · exact hfifo
  | produce => exact hfifo.produce
  | read pl => exact hfifo.callConsumer trivial
  | peek peek n =>
      rw [RingBuffer.step]
      split_ifs <;> exact hfifo.callConsumer trivial
  | readCommit n =>
      simp only [RingBuffer.step]
      split
      · rename_i slice err hconsumer
        split_ifs with hn
        · exact hfifo.moveConsumer ⟨hn, hfifo.consumerAt hconsumer⟩
        · exact hfifo
      · exact hfifo
  | consume => exact hfifo.consume

/-- A new buffer is empty. -/
theorem fifo_newBuffer {size : ℤ} (hnew : newBuffer size = .ok this) : Fifo this := by
  rw [newBuffer] at hnew
  by_cases hneg : size < 0
  · rw [if_pos hneg] at hnew
    cases hnew
  rw [if_neg hneg] at hnew
  generalize (if size = 0 then defaultBufferSize else size.toNat) = n at hnew
  dsimp only at hnew
  split_ifs at hnew with hpower
  cases hnew
  have hpower : ∃ k, n = 2 ^ k := by
    rw [Bool.not_eq_true', Bool.not_eq_false] at hpower
    exact powerOfTwo64_iff.mp hpower
  exact {
    power := hpower
    length := List.length_replicate
    sent := rfl
    received := rfl
    order := le_rfl
    space := Nat.zero_le _
    gate := le_rfl
    unread := Ring.Shows.nil _ _
    slices := nofun
    producer := trivial
    consumer := trivial }

/-- The buffer is a lossless FIFO: for every size that `newBuffer` accepts and in every
interleaving the producer is at most `size` bytes ahead of the consumer, its gate is not ahead
of the consumer, every slice that the consumer was given shows the next bytes of the stream
from its position on, what it has committed is a front part of what the producer has
committed, and every byte that it has not read is still in its cell. -/
theorem lossless_fifo {size : ℤ} (hnew : newBuffer size = .ok this) (actions : List Action) :
    let last := actions.foldl step this
    last.cseq ≤ last.pseq ∧ last.pseq ≤ last.cseq + last.size ∧ last.gate ≤ last.cseq ∧
      (∀ slice ∈ last.slices, slice.2 <+: last.sent.drop slice.1) ∧
      (last.received <+: last.sent ∧ last.received.length = last.cseq ∧
        last.sent.length = last.pseq) ∧
      ∀ pos, last.cseq ≤ pos → pos < last.pseq →
        last.buf[pos % last.size]? = last.sent[pos]? := by
  intro last
  have hfifo : Fifo last := List.foldlRecOn actions step (fifo_newBuffer hnew)
    fun _ hfifo action _ => hfifo.step action
  have hspace := hfifo.space
  have hgate := hfifo.gate
  have horder := hfifo.order
  refine ⟨horder, by omega, hgate, hfifo.slices, ⟨?_, ?_, hfifo.sent⟩, ?_⟩
  · rw [hfifo.received]
    exact List.take_prefix _ _
  · rw [hfifo.received, List.length_take, hfifo.sent]
    omega
  · intro pos hlow hhigh
    have hlt : pos < last.sent.length := hfifo.sent ▸ hhigh
    obtain ⟨byte, hbyte⟩ : ∃ byte, last.sent[pos]? = some byte :=
      ⟨_, List.getElem?_eq_getElem hlt⟩
    have hunread : (last.sent.drop last.cseq)[pos - last.cseq]? = some byte := by
      rw [List.getElem?_drop, Nat.add_sub_cancel' hlow, hbyte]
    have hcell := hfifo.unread _ _ hunread
    rw [Ring.slot, Nat.add_sub_cancel' hlow, hfifo.length] at hcell
    rw [hcell, hbyte]

/-- Three bytes are written and two of them are read. -/
def threeWrittenTwoRead : List Action :=
  .write [1, 2, 3] :: List.replicate 8 .produce ++ .read 2 :: List.replicate 7 .consume

theorem lossless_fifo_threeWrittenTwoRead : ∃ this, newBuffer 16384 = .ok this ∧
    (threeWrittenTwoRead.foldl step this).received = [1, 2] ∧
    (threeWrittenTwoRead.foldl step this).received <+:
      (threeWrittenTwoRead.foldl step this).sent :=
  ⟨_, rfl, by decide +kernel,
    (lossless_fifo (show newBuffer 16384 = .ok _ from rfl) threeWrittenTwoRead).2.2.2.2.1.1⟩

end Xmqtt.Service.RingBuffer
