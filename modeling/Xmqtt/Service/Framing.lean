import Xmqtt.Message.EncodedFrame

/-!
# Cutting the byte stream into packets

`getPeekMessageSize` and `getPeekMessage` of `readwrite.go`.  The buffered reader
is the list of the bytes that are still to come: `Peek(k)` shows the next `k` of
them when they exist, and `io.ReadFull` takes them.
-/

namespace Xmqtt.Service

open Xmqtt.Go Xmqtt.Message

/-- `server.MaxBufferSize`: `DefaultMaxBufferSize`, which the configuration always
ends up with. -/
def maxBufferSize : ℕ := 1024 * 256

/-- Why the receive loop ends before it has a message. -/
inductive ReadErr where
  | eof
  | err (err : Err)
  | tooLarge
  deriving DecidableEq, Repr

/-- `br.Peek(cnt)`. -/
def peek (stream : Bytes) (cnt : ℕ) : Except ReadErr Bytes :=
  if cnt ≤ stream.length then .ok (stream.take cnt) else .error .eof

/-- The loop of `getPeekMessageSize` from `cnt` on, with `left` more sizes to try:
the prefix that ends with the last byte of the remaining length. -/
def peekHeader (stream : Bytes) : ℕ → ℕ → Except ReadErr Bytes
  | 0, _ =>
      .error (.err (.errorf
        "readwrite/getPeekMessageSize: 4th byte of remaining length has continuation bit set"
        []))
  | left + 1, cnt =>
      match peek stream cnt with
      | .error err => .error err
      | .ok b =>
          if b.getD (cnt - 1) 0 < 0x80 then .ok b else peekHeader stream left (cnt + 1)

/-- The type and the total length of the next packet. -/
def getPeekMessageSize (stream : Bytes) : Except ReadErr (MessageType × ℤ) :=
  match peekHeader stream 4 2 with
  | .error err => .error err
  | .ok b =>
      .ok (.ofNibble (b.headD 0 >>> 4), ((uvarint b.tail).1 : ℤ) + 1 + (uvarint b.tail).2)

/-- A fresh message of the type is handed the packet. -/
def decodePacket (mtype : MessageType) (b : Bytes) : Outcome Err (Option Xmqtt.Message) :=
  match mtype.new with
  | .error err => .fail none 0 err
  | .ok message => (message.decode (Slice.full b)).map some

/-- The message and what is left of the stream.  The error of `io.ReadFull` is only
logged: the buffer keeps its zeros where the stream was too short. -/
def getPeekMessage (stream : Bytes) (mtype : MessageType) (total : ℤ) :
    Outcome Err (Option Xmqtt.Message) × Bytes :=
  if total < 0 then (.panic, stream)
  else
    (decodePacket mtype (stream.take total.toNat ++
      List.replicate (total.toNat - stream.length) 0), stream.drop total.toNat)

/-- What one round of the receive loop finds. -/
structure Round where
  mtype : MessageType
  total : ℤ
  message : Outcome Err (Option Xmqtt.Message)
  deriving DecidableEq, Repr

/-- One round of the receive loop, up to the message it has to process. -/
def receiveRound (stream : Bytes) : Except ReadErr (Round × Bytes) :=
  match getPeekMessageSize stream with
  | .error err => .error err
  | .ok (mtype, total) =>
      if maxBufferSize < total then .error .tooLarge
      else
        .ok (⟨mtype, total, (getPeekMessage stream mtype total).1⟩,
          (getPeekMessage stream mtype total).2)

/-- The rounds found in a stream, and what is left of it behind them. -/
def receive : ℕ → Bytes → Except ReadErr (List Round × Bytes)
  | 0, stream => .ok ([], stream)
  | rounds + 1, stream =>
      match receiveRound stream with
      | .error err => .error err
      | .ok (round, stream) =>
          match receive rounds stream with
          | .error err => .error err
          | .ok (found, stream) => .ok (round :: found, stream)

/-! ## One frame -/

/-- The loop stops at the end of the remaining length. -/
theorem peekHeader_of_terminated {digits : Bytes} (hterm : Terminated digits) {left : ℕ}
    (hleft : digits.length ≤ left) (out more : Bytes) :
    peekHeader (out ++ (digits ++ more)) left (out.length + 1) = .ok (out ++ digits) := by
  induction digits generalizing left out with
  | nil => exact hterm.elim
  | cons byte digits ih =>
      obtain ⟨left, rfl⟩ : ∃ less, left = less + 1 :=
        ⟨left - 1, by rw [List.length_cons] at hleft; omega⟩
      have hpeek : peek (out ++ (byte :: digits ++ more)) (out.length + 1) =
          .ok (out ++ [byte]) := by
        rw [peek, if_pos (by simp)]
        simp [List.take_append]
      rw [peekHeader, hpeek]
      simp only [Nat.add_sub_cancel, List.getD_append_right _ _ _ _ le_rfl, Nat.sub_self,
        List.getD_cons_zero]
      cases digits with
      | nil =>
          have hlast : byte < 0x80 := hterm
          rw [if_pos hlast]
      | cons next digits =>
          have hrest : (next :: digits).length ≤ left := Nat.le_of_succ_le_succ hleft
          have hnext := ih hterm.2 hrest (out ++ [byte])
          rw [List.length_append, List.append_assoc, List.append_assoc] at hnext
          rw [if_neg hterm.1]
          exact hnext

/-- The size of the next packet is read off its fixed header, whatever follows. -/
theorem getPeekMessageSize_header (frame : Frame) (rest : Bytes) :
    getPeekMessageSize (frame.first :: (frame.digits ++ rest)) =
      .ok (frame.mtype, frame.bytes.length) := by
  have hpeek := peekHeader_of_terminated frame.terminated frame.short [frame.first] rest
  have hvarint := uvarint_terminated frame.terminated
    (by have := frame.short; simp only [maxVarintLen64]; omega) []
  rw [List.append_nil] at hvarint
  simp only [List.length_singleton, Nat.reduceAdd, List.singleton_append] at hpeek
  rw [getPeekMessageSize, hpeek]
  simp only [List.headD_cons, List.tail_cons, hvarint, frame.value_eq,
    frame.length_bytes, Frame.headerLength, Frame.mtype]
  congr 2
  push_cast
  omega

theorem getPeekMessageSize_frame (frame : Frame) (more : Bytes) :
    getPeekMessageSize (frame.bytes ++ more) = .ok (frame.mtype, frame.bytes.length) := by
  rw [Frame.bytes, List.cons_append, List.append_assoc]
  exact getPeekMessageSize_header frame (frame.body ++ more)

theorem getPeekMessage_append (packet more : Bytes) (mtype : MessageType) :
    getPeekMessage (packet ++ more) mtype packet.length =
      (decodePacket mtype packet, more) := by
  rw [getPeekMessage, if_neg (by omega)]
  simp

/-- The round in which a packet is found: its type nibble, its length, and what a
fresh message of its type makes of exactly its bytes. -/
def packetRound (packet : Bytes) : Round where
  mtype := .ofNibble (packet.headD 0 >>> 4)
  total := packet.length
  message := decodePacket (.ofNibble (packet.headD 0 >>> 4)) packet

theorem receiveRound_frame (frame : Frame) (hsize : frame.bytes.length ≤ maxBufferSize)
    (more : Bytes) :
    receiveRound (frame.bytes ++ more) = .ok (packetRound frame.bytes, more) := by
  rw [receiveRound, getPeekMessageSize_frame]
  simp only [getPeekMessage_append]
  rw [if_neg (by omega)]
  rfl

/-! ## A stream of packets -/

/-- A packet that the receive loop is sent: what `Encode` of some message left in its
buffer. -/
def Sent (packet : Bytes) : Prop :=
  ∃ (message : Xmqtt.Message) (dst : Bytes) (gPacketId : UInt64)
    (state : Encoded Xmqtt.Message) (n : ℕ),
    message.Emittable ∧ message.encode dst gPacketId = .done state n ∧
      n ≤ state.dst.length ∧ packet = state.dst.take n

theorem Sent.frame {packet : Bytes} (hsent : Sent packet)
    (hsize : packet.length ≤ maxBufferSize) :
    ∃ frame : Frame, packet = frame.bytes := by
  obtain ⟨message, dst, gPacketId, state, n, hemittable, hdone, hn, rfl⟩ := hsent
  rw [List.length_take, min_eq_left hn, maxBufferSize] at hsize
  exact framed_of_encode hemittable hdone hn (by omega)

theorem receive_append (before after : List Bytes)
    (hframes : ∀ packet ∈ before, packet.length ≤ maxBufferSize ∧
      ∃ frame : Frame, packet = frame.bytes) :
    receive before.length (before ++ after).flatten =
      .ok (before.map packetRound, after.flatten) := by
  induction before with
  | nil => rfl
  | cons packet before ih =>
      obtain ⟨hsize, frame, rfl⟩ := hframes packet List.mem_cons_self
      have hrest := ih fun packet hmem => hframes packet (List.mem_cons_of_mem _ hmem)
      rw [List.length_cons, receive, List.cons_append, List.flatten_cons,
        receiveRound_frame frame hsize]
      simp only [hrest, List.map_cons]

/-- Behind the last packet the next round meets the end of the stream. -/
theorem receive_succ_of_nil {rounds : ℕ} {stream : Bytes} {found : List Round}
    (hfound : receive rounds stream = .ok (found, [])) :
    receive (rounds + 1) stream = .error .eof := by
  induction rounds generalizing stream found with
  | zero =>
      injection hfound with hpair
      injection hpair with _ hstream
      rw [hstream]
      rfl
  | succ rounds ih =>
      rw [receive] at hfound ⊢
      cases hround : receiveRound stream with
      | error err => simp [hround] at hfound
      | ok result =>
          simp only [hround] at hfound ⊢
          cases hrest : receive rounds result.2 with
          | error err => simp [hrest] at hfound
          | ok last =>
              simp only [hrest, Except.ok.injEq, Prod.mk.injEq] at hfound
              rw [ih (hrest.trans (by rw [← hfound.2]))]

/-- Packets that were encoded one after the other are found one after the other.
After each round what is left of the stream is exactly the packets not found yet, and
behind the last one there is nothing. -/
theorem receive_sent (packets : List Bytes)
    (hsent : ∀ packet ∈ packets, Sent packet ∧ packet.length ≤ maxBufferSize) :
    (∀ before after, packets = before ++ after →
      receive before.length packets.flatten = .ok (before.map packetRound, after.flatten)) ∧
    receive packets.length packets.flatten = .ok (packets.map packetRound, []) ∧
    receive (packets.length + 1) packets.flatten = .error .eof := by
  have hframes : ∀ packet ∈ packets, packet.length ≤ maxBufferSize ∧
      ∃ frame : Frame, packet = frame.bytes := fun packet hmem =>
    ⟨(hsent packet hmem).2, (hsent packet hmem).1.frame (hsent packet hmem).2⟩
  have hall := receive_append packets [] hframes
  rw [List.append_nil, List.flatten_nil] at hall
  refine ⟨?_, hall, receive_succ_of_nil hall⟩
  rintro before after rfl
  exact receive_append before after fun packet hmem =>
    hframes packet (List.mem_append_left after hmem)

/-- PUBACK with packet id 7 as `Encode` leaves it. -/
def pubackSeven : PubackMessage := newPubackMessage.setPacketId 7

theorem receive_sent_two :
    receive 2 [0x40, 0x02, 0x00, 0x07, 0xc0, 0x00] =
        .ok ([packetRound [0x40, 0x02, 0x00, 0x07], packetRound [0xc0, 0x00]], []) ∧
      receive 1 [0x40, 0x02, 0x00, 0x07, 0xc0, 0x00] =
        .ok ([packetRound [0x40, 0x02, 0x00, 0x07]], [0xc0, 0x00]) := by
  have hpuback : Sent [0x40, 0x02, 0x00, 0x07] :=
    ⟨.puback pubackSeven, [0, 0, 0, 0], 0,
      ⟨.puback ⟨pubackSeven.sized 2⟩, [0x40, 0x02, 0x00, 0x07], 0⟩, 4,
      emittable_of_dirty (by decide +kernel) rfl, by decide +kernel, by decide, rfl⟩
  have hnew : MessageType.pingreq.new = .ok (.pingreq newPingreqMessage) := rfl
  have hpingreq : Sent [0xc0, 0x00] :=
    ⟨.pingreq newPingreqMessage, [0, 0], 0,
      ⟨.pingreq newPingreqMessage, [0xc0, 0x00], 0⟩, 2,
      emittable_new hnew, by decide +kernel, by decide, rfl⟩
  have hcut := receive_sent [[0x40, 0x02, 0x00, 0x07], [0xc0, 0x00]] (by
    intro packet hmem
    simp only [List.mem_cons, List.not_mem_nil, or_false] at hmem
    rcases hmem with rfl | rfl
    · exact ⟨hpuback, by decide⟩
    · exact ⟨hpingreq, by decide⟩)
  exact ⟨hcut.2.1, hcut.1 [[0x40, 0x02, 0x00, 0x07]] [[0xc0, 0x00]] rfl⟩

/-- PUBACK with packet id 7 after a decode from a buffer with one more byte in it. -/
def pubackReread : PubackMessage where
  toHeader := { newHeader .puback with
    remlen := 2
    dbuf := Slice.full [0x40, 0x02, 0x00, 0x07, 0xff]
    flagsInDbuf := true
    packetId := [0x00, 0x07]
    packetIdAt := some 2
    dirty := false }

theorem receive_splits_reread :
    newPubackMessage.decode (Slice.full [0x40, 0x02, 0x00, 0x07, 0xff]) =
        .done pubackReread 4 ∧
      (Message.puback pubackReread).encode [0, 0, 0, 0, 0] 0 =
        .done ⟨.puback pubackReread, [0x40, 0x02, 0x00, 0x07, 0xff], 0⟩ 5 ∧
      receive 1 [0x40, 0x02, 0x00, 0x07, 0xff] =
        .ok ([⟨.puback, 4, .done (some (.puback { pubackReread with
          dbuf := Slice.full [0x40, 0x02, 0x00, 0x07] })) 4⟩], [0xff]) := by
  decide +kernel

end Xmqtt.Service
