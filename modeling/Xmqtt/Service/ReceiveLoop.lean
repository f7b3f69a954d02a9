import Xmqtt.Service.MessageBuffer

/-!
# The receive loop on a stream that ends

`receiverData` of `readwrite.go` cuts one packet after the other off the stream
and hands the messages to `processIncoming`.  The error of `io.ReadFull` is only
logged, so the last packet may be decoded although its end never came: its buffer
has zeros there.
-/

namespace Xmqtt.Service

open Xmqtt.Go Xmqtt.Message

/-- What `processIncoming` and the `isDone` behind it do to the loop. -/
inductive Verdict where
  | goOn
  | error (err : Err)
  | panicked
  | done
  deriving DecidableEq, Repr

/-- A message for `processIncoming`, with the buffer that it was decoded from. -/
structure HandOver where
  message : Xmqtt.Message
  buffer : Bytes
  deriving DecidableEq, Repr

/-- How the loop ends: with the error of a read or of `Decode`, in a panic of `Decode`
that the deferred handler recovers, or behind `processIncoming`. -/
inductive LoopEnd where
  | refused (err : ReadErr)
  | panicked
  | stopped (verdict : Verdict)
  | outOfRounds
  deriving DecidableEq, Repr

/-- A buffer of `size` bytes after `io.ReadFull`. -/
def readFull (stream : Bytes) (size : ℕ) : Bytes :=
  stream.take size ++ List.replicate (size - stream.length) 0

/-- The loop of `receiverData`.  `ending` is the error of a read behind the last byte;
`processIncoming` may depend on all messages so far, the last one first. -/
def receiverData (process : List Xmqtt.Message → Verdict) (ending : ReadErr) :
    ℕ → List Xmqtt.Message → Bytes → List HandOver × LoopEnd
  | 0, _, _ => ([], .outOfRounds)
  | rounds + 1, past, stream =>
      match getPeekMessageSize stream with
      | .error err => ([], .refused (if err = .eof then ending else err))
      | .ok (mtype, total) =>
          if maxBufferSize < total then ([], .refused .tooLarge)
          else
            match getPeekMessage stream mtype total with
            | (.fail _ _ err, _) => ([], .refused (.err err))
            | (.done (some message) _, rest) =>
                let handed : HandOver := ⟨message, readFull stream total.toNat⟩
                match process (message :: past) with
                | .goOn =>
                    let more := receiverData process ending rounds (message :: past) rest
                    (handed :: more.1, more.2)
                | verdict => ([handed], .stopped verdict)
            | _ => ([], .panicked)

/-! ## The packet that the stream begins with -/

theorem length_readFull (stream : Bytes) (size : ℕ) : (readFull stream size).length = size := by
  rw [readFull, List.length_append, List.length_take, List.length_replicate]
  omega

theorem readFull_append (front rest : Bytes) (size : ℕ) :
    readFull (front ++ rest) (front.length + size) = front ++ readFull rest size := by
  rw [readFull, readFull, List.take_length_add_append, List.length_append,
    Nat.add_sub_add_left, List.append_assoc]

theorem getPeekMessage_eq (stream : Bytes) (mtype : MessageType) (size : ℕ) :
    getPeekMessage stream mtype size =
      (decodePacket mtype (readFull stream size), stream.drop size) := by
  rw [getPeekMessage, if_neg (by omega)]
  rfl

/-- The stream begins with the fixed header of the frame, and where it is too short for
the rest, the frame has zeros. -/
structure Begins (stream : Bytes) (frame : Frame) : Prop where
  header : frame.headerLength ≤ stream.length
  filled : readFull stream frame.bytes.length = frame.bytes

/-- What `getPeekMessageSize` has found is the header of a frame. -/
theorem exists_begins_of_size {stream : Bytes} {mtype : MessageType} {total : ℤ}
    (hsize : getPeekMessageSize stream = .ok (mtype, total)) :
    ∃ frame : Frame, Begins stream frame ∧ mtype = frame.mtype ∧
      total = frame.bytes.length := by
  obtain ⟨header, hpeek, rfl, rfl⟩ := getPeekMessageSize_eq_ok_iff.mp hsize
  obtain ⟨rest, first, digits, hterm, hshort, rfl, rfl⟩ := peekHeader_eq_ok_iff.mp hpeek
  have hvarint := uvarint_terminated hterm (by simp only [maxVarintLen64]; omega) []
  rw [List.append_nil] at hvarint
  let frame : Frame := ⟨first, digits, readFull rest (uvarintValue digits), hterm, hshort,
    (length_readFull _ _).symm⟩
  have hlength : frame.bytes.length = (first :: digits).length + uvarintValue digits := by
    rw [frame.length_bytes, List.length_cons, add_comm digits.length]
    exact congrArg (_ + ·) (length_readFull _ _)
  refine ⟨frame, ⟨?_, ?_⟩, rfl, ?_⟩
  · change 1 + digits.length ≤ _
    rw [List.length_cons, List.length_append]
    omega
  · rw [hlength]
    exact readFull_append (first :: digits) rest _
  · rw [List.tail_cons, hvarint, hlength, List.length_cons]
    push_cast
    ring

namespace Begins

variable {stream : Bytes} {frame : Frame}

/-- A whole frame in front of the stream. -/
theorem of_append (frame : Frame) (rest : Bytes) : Begins (frame.bytes ++ rest) frame where
  header := by
    rw [List.length_append, frame.length_bytes]
    omega
  filled := by
    have hread := readFull_append frame.bytes rest 0
    have hnone : readFull rest 0 = [] := List.length_eq_zero_iff.mp (length_readFull rest 0)
    rwa [hnone, List.append_nil, Nat.add_zero] at hread

theorem size (hbegins : Begins stream frame) :
    getPeekMessageSize stream = .ok (frame.mtype, frame.bytes.length) := by
  have hshort : frame.headerLength ≤ frame.bytes.length := by
    rw [frame.length_bytes]
    omega
  have hfront : stream.take frame.headerLength = frame.first :: frame.digits := by
    have htake := congrArg (List.take frame.headerLength) hbegins.filled
    rw [readFull, List.take_append_of_le_length
      (by rw [List.length_take]; exact le_min hshort hbegins.header),
      List.take_take, min_eq_left hshort] at htake
    rw [htake, Frame.bytes, Frame.headerLength, add_comm, List.take_succ_cons, List.take_left]
  rw [← List.take_append_drop frame.headerLength stream, hfront]
  exact getPeekMessageSize_header frame _

/-- The frame is complete. -/
theorem whole (hbegins : Begins stream frame) (hle : frame.bytes.length ≤ stream.length) :
    stream = frame.bytes ++ stream.drop frame.bytes.length := by
  have hfilled := hbegins.filled
  rw [readFull, Nat.sub_eq_zero_of_le hle, List.replicate_zero, List.append_nil] at hfilled
  conv_lhs => rw [← List.take_append_drop frame.bytes.length stream, hfilled]

/-- Two frames that a stream begins with are the same packet. -/
theorem unique (hbegins : Begins stream frame) {other : Frame} (hother : Begins stream other) :
    frame.mtype = other.mtype ∧ frame.bytes = other.bytes := by
  have hsame := hbegins.size.symm.trans hother.size
  injection hsame with hpair
  obtain ⟨hmtype, hlength⟩ := Prod.mk.inj hpair
  refine ⟨hmtype, ?_⟩
  rw [← hbegins.filled, ← hother.filled, Int.ofNat_inj.mp hlength]

end Begins

/-! ## One round -/

section Round

variable {process : List Xmqtt.Message → Verdict} {ending : ReadErr} {rounds : ℕ}
variable {past : List Xmqtt.Message} {stream : Bytes} {frame : Frame}

theorem receiverData_of_error {err : ReadErr} (herr : getPeekMessageSize stream = .error err) :
    receiverData process ending (rounds + 1) past stream =
      ([], .refused (if err = .eof then ending else err)) := by
  rw [receiverData, herr]

variable (hbegins : Begins stream frame)

include hbegins

theorem receiverData_of_large (hlarge : maxBufferSize < frame.bytes.length) :
    receiverData process ending (rounds + 1) past stream = ([], .refused .tooLarge) := by
  rw [receiverData, hbegins.size]
  exact if_pos (by exact_mod_cast hlarge)

variable (hsmall : frame.bytes.length ≤ maxBufferSize)

include hsmall

theorem receiverData_of_fail {state : Option Xmqtt.Message} {n : ℕ} {err : Err}
    (hfail : decodePacket frame.mtype frame.bytes = .fail state n err) :
    receiverData process ending (rounds + 1) past stream = ([], .refused (.err err)) := by
  simp only [receiverData, hbegins.size, getPeekMessage_eq, hbegins.filled, hfail]
  exact if_neg (by exact_mod_cast not_lt.mpr hsmall)

theorem receiverData_of_panic (hpanic : decodePacket frame.mtype frame.bytes = .panic) :
    receiverData process ending (rounds + 1) past stream = ([], .panicked) := by
  simp only [receiverData, hbegins.size, getPeekMessage_eq, hbegins.filled, hpanic]
  exact if_neg (by exact_mod_cast not_lt.mpr hsmall)

theorem receiverData_of_goOn {message : Xmqtt.Message} {n : ℕ}
    (hdone : decodePacket frame.mtype frame.bytes = .done (some message) n)
    (hgoOn : process (message :: past) = .goOn) :
    receiverData process ending (rounds + 1) past stream =
      (⟨message, frame.bytes⟩ ::
          (receiverData process ending rounds (message :: past)
            (stream.drop frame.bytes.length)).1,
        (receiverData process ending rounds (message :: past)
          (stream.drop frame.bytes.length)).2) := by
  simp only [receiverData, hbegins.size, getPeekMessage_eq, hbegins.filled, hdone, hgoOn,
    Int.toNat_natCast]
  exact if_neg (by exact_mod_cast not_lt.mpr hsmall)

theorem receiverData_of_stop {message : Xmqtt.Message} {n : ℕ}
    (hdone : decodePacket frame.mtype frame.bytes = .done (some message) n)
    (hstop : process (message :: past) ≠ .goOn) :
    receiverData process ending (rounds + 1) past stream =
      ([⟨message, frame.bytes⟩], .stopped (process (message :: past))) := by
  simp only [receiverData, hbegins.size, getPeekMessage_eq, hbegins.filled, hdone,
    Int.toNat_natCast]
  exact if_neg (by exact_mod_cast not_lt.mpr hsmall)

end Round

theorem decodePacket_ne_none (mtype : MessageType) (b : Bytes) (n : ℕ) :
    decodePacket mtype b ≠ .done none n := by
  rw [decodePacket]
  cases mtype.new with
  | error err => simp
  | ok message =>
      intro hdone
      obtain ⟨inner, -, hnone⟩ := Outcome.map_eq_done_iff.mp hdone
      cases hnone

/-! ## The whole loop -/

/-- The stream ends before its first packet is complete. -/
def Incomplete (stream : Bytes) : Prop := ∀ frame : Frame, ¬ frame.bytes <+: stream

/-- The bytes that the messages handed over were decoded from. -/
def handedBytes (handed : List HandOver) : Bytes := (handed.map HandOver.buffer).flatten

/-- What the loop has made of a stream: each message was decoded from its buffer, the buffers
are one after the other what was received, and when the loop comes to a packet that is
not complete, it ends with an error. -/
structure Received (stream : Bytes) (result : List HandOver × LoopEnd) : Prop where
  decoded : ∀ handed ∈ result.1, ∃ mtype n,
    decodePacket mtype handed.buffer = .done (some handed.message) n
  received : handedBytes result.1 <+: stream
  refused : Incomplete (stream.drop (handedBytes result.1).length) →
    (∃ verdict, result.2 = .stopped verdict) ∨ ∃ err, result.2 = .refused err

/-- Behind whole packets that were processed comes one that is cut off behind its fixed
header, and `Decode` does not return an error for it with zeros in place of the missing
bytes. -/
inductive CutAccepted (process : List Xmqtt.Message → Verdict) :
    List Xmqtt.Message → Bytes → Prop where
  | here {past : List Xmqtt.Message} {stream : Bytes} {frame : Frame} :
      Begins stream frame → stream.length < frame.bytes.length →
      frame.bytes.length ≤ maxBufferSize →
      (∀ state n err, decodePacket frame.mtype frame.bytes ≠ .fail state n err) →
        CutAccepted process past stream
  | later {past : List Xmqtt.Message} {rest : Bytes} {frame : Frame}
      {message : Xmqtt.Message} {n : ℕ} :
      frame.bytes.length ≤ maxBufferSize →
      decodePacket frame.mtype frame.bytes = .done (some message) n →
      process (message :: past) = .goOn → CutAccepted process (message :: past) rest →
        CutAccepted process past (frame.bytes ++ rest)

section Loop

variable {process : List Xmqtt.Message → Verdict} {past : List Xmqtt.Message}
variable {stream : Bytes} {frame : Frame}

/-- With the frame that the stream begins with at hand, there is one way for a cut packet to
be accepted. -/
theorem cutAccepted_iff (hbegins : Begins stream frame) :
    CutAccepted process past stream ↔ frame.bytes.length ≤ maxBufferSize ∧
      (stream.length < frame.bytes.length ∧
          (∀ state n err, decodePacket frame.mtype frame.bytes ≠ .fail state n err) ∨
        frame.bytes.length ≤ stream.length ∧ ∃ message n,
          decodePacket frame.mtype frame.bytes = .done (some message) n ∧
          process (message :: past) = .goOn ∧
          CutAccepted process (message :: past) (stream.drop frame.bytes.length)) := by
  constructor
  · intro hcut
    cases hcut with
    | here hother hlt hsmall haccepted =>
        obtain ⟨hmtype, hbytes⟩ := hbegins.unique hother
        rw [hmtype, hbytes]
        exact ⟨hsmall, Or.inl ⟨hlt, haccepted⟩⟩
    | @later _ rest other message n hsmall hdone hgoOn hrest =>
        obtain ⟨hmtype, hbytes⟩ := hbegins.unique (.of_append other rest)
        rw [hmtype, hbytes, List.drop_left, List.length_append]
        exact ⟨hsmall, Or.inr ⟨Nat.le_add_right _ _, message, n, hdone, hgoOn, hrest⟩⟩
  · rintro ⟨hsmall, ⟨hlt, haccepted⟩ | ⟨hle, message, n, hdone, hgoOn, hrest⟩⟩
    · exact .here hbegins hlt hsmall haccepted
    · rw [hbegins.whole hle]
      exact .later hsmall hdone hgoOn hrest

theorem Received.of_refused (stream : Bytes) (err : ReadErr) :
    Received stream ([], .refused err) where
  decoded := fun _ hmem => absurd hmem List.not_mem_nil
  received := List.nil_prefix
  refused := fun _ => Or.inr ⟨err, rfl⟩

/-- A whole packet in front of the stream is handed over as it was received. -/
theorem received_cons_iff {rest : Bytes} {message : Xmqtt.Message} {n : ℕ}
    (hdone : decodePacket frame.mtype frame.bytes = .done (some message) n)
    {handed : List HandOver} {last : LoopEnd} :
    Received (frame.bytes ++ rest) (⟨message, frame.bytes⟩ :: handed, last) ↔
      Received rest (handed, last) := by
  have hbytes : handedBytes (⟨message, frame.bytes⟩ :: handed) =
      frame.bytes ++ handedBytes handed := rfl
  have hdrop : (frame.bytes ++ rest).drop (frame.bytes ++ handedBytes handed).length =
      rest.drop (handedBytes handed).length := by
    rw [List.length_append, List.drop_length_add_append]
  constructor
  · rintro ⟨hdecoded, hreceived, hrefused⟩
    simp only [hbytes, hdrop] at hreceived hrefused
    exact ⟨(List.forall_mem_cons.mp hdecoded).2,
      (List.prefix_append_right_inj frame.bytes).mp hreceived, hrefused⟩
  · rintro ⟨hdecoded, hreceived, hrefused⟩
    constructor
    case decoded => exact List.forall_mem_cons.mpr ⟨⟨_, n, hdone⟩, hdecoded⟩
    case received =>
      rw [hbytes]
      exact (List.prefix_append_right_inj frame.bytes).mpr hreceived
    case refused =>
      rw [hbytes, hdrop]
      exact hrefused

/-- A stream that is too short for its first packet. -/
theorem incomplete_of_begins (hbegins : Begins stream frame)
    (hlt : stream.length < frame.bytes.length) : Incomplete stream := by
  intro other hprefix
  obtain ⟨rest, rfl⟩ := hprefix
  rw [(hbegins.unique (.of_append other rest)).2, List.length_append] at hlt
  omega

/-- A packet whose end was not received has not been received. -/
theorem not_received_of_cut (hlt : stream.length < frame.bytes.length)
    {message : Xmqtt.Message} {handed : List HandOver} {last : LoopEnd} :
    ¬ Received stream (⟨message, frame.bytes⟩ :: handed, last) := by
  intro hreceived
  have hle := hreceived.received.length_le
  have hbytes : handedBytes (⟨message, frame.bytes⟩ :: handed) =
      frame.bytes ++ handedBytes handed := rfl
  rw [hbytes, List.length_append] at hle
  omega

theorem CutAccepted.begins (hcut : CutAccepted process past stream) :
    ∃ frame : Frame, Begins stream frame := by
  cases hcut with
  | here hbegins => exact ⟨_, hbegins⟩
  | later => exact ⟨_, .of_append _ _⟩

/-- A packet whose end is missing. -/
theorem received_of_cut (ending : ReadErr) (rounds : ℕ) (hbegins : Begins stream frame)
    (hsmall : frame.bytes.length ≤ maxBufferSize) (hlt : stream.length < frame.bytes.length) :
    Received stream (receiverData process ending (rounds + 1) past stream) ↔
      ¬ ∀ state n err, decodePacket frame.mtype frame.bytes ≠ .fail state n err := by
  cases hdecode : decodePacket frame.mtype frame.bytes with
  | fail state n err =>
      rw [receiverData_of_fail hbegins hsmall hdecode]
      exact iff_of_true (.of_refused _ _) fun hnot => hnot state n err rfl
  | panic =>
      rw [receiverData_of_panic hbegins hsmall hdecode]
      refine iff_of_false (fun hreceived => ?_) (by simp)
      rcases hreceived.refused (incomplete_of_begins hbegins hlt) with ⟨_, hend⟩ | ⟨_, hend⟩
      · cases hend
      · cases hend
  | done message n =>
      cases message with
      | none => exact absurd hdecode (decodePacket_ne_none _ _ n)
      | some message =>
          refine iff_of_false ?_ (by simp)
          by_cases hgoOn : process (message :: past) = .goOn
          · rw [receiverData_of_goOn hbegins hsmall hdecode hgoOn]
            exact not_received_of_cut hlt
          · rw [receiverData_of_stop hbegins hsmall hdecode hgoOn]
            exact not_received_of_cut hlt

/-- A whole packet: what comes of the stream is what comes of the rest of it, if the loop goes
on behind the packet. -/
theorem received_of_whole (ending : ReadErr) (rounds : ℕ) {rest : Bytes}
    (hsmall : frame.bytes.length ≤ maxBufferSize) :
    Received (frame.bytes ++ rest)
        (receiverData process ending (rounds + 1) past (frame.bytes ++ rest)) ↔
      ∀ message n, decodePacket frame.mtype frame.bytes = .done (some message) n →
        process (message :: past) = .goOn →
        Received rest (receiverData process ending rounds (message :: past) rest) := by
  have hbegins := Begins.of_append frame rest
  cases hdecode : decodePacket frame.mtype frame.bytes with
  | fail state n err =>
      rw [receiverData_of_fail hbegins hsmall hdecode]
      exact iff_of_true (.of_refused _ _) (by simp)
  | panic =>
      rw [receiverData_of_panic hbegins hsmall hdecode]
      refine iff_of_true ⟨fun _ hmem => absurd hmem List.not_mem_nil, List.nil_prefix, ?_⟩
        (by simp)
      exact fun hincomplete => absurd (List.prefix_append _ _) (hincomplete frame)
  | done message n =>
      cases message with
      | none => exact absurd hdecode (decodePacket_ne_none _ _ n)
      | some message =>
          by_cases hgoOn : process (message :: past) = .goOn
          · rw [receiverData_of_goOn hbegins hsmall hdecode hgoOn, List.drop_left,
              received_cons_iff hdecode]
            constructor
            · rintro hreceived _ _ ⟨⟩ _
              exact hreceived
            · exact fun hreceived => hreceived message n rfl hgoOn
          · rw [receiverData_of_stop hbegins hsmall hdecode hgoOn, received_cons_iff hdecode]
            refine iff_of_true ⟨fun _ hmem => absurd hmem List.not_mem_nil, List.nil_prefix,
              fun _ => Or.inl ⟨_, rfl⟩⟩ ?_
            rintro _ _ ⟨⟩ hgoes
            exact absurd hgoes hgoOn

/-- One round decides for the packet in front, the rounds behind it for the rest. -/
theorem received_receiverData (ending : ReadErr) {rounds : ℕ}
    (hrounds : stream.length < rounds) :
    Received stream (receiverData process ending rounds past stream) ↔
      ¬ CutAccepted process past stream := by
  induction rounds generalizing past stream with
  | zero => exact absurd hrounds (Nat.not_lt_zero _)
  | succ rounds ih =>
      cases hsize : getPeekMessageSize stream with
      | error err =>
          rw [receiverData_of_error hsize]
          refine iff_of_true (.of_refused _ _) fun hcut => ?_
          obtain ⟨frame, hbegins⟩ := hcut.begins
          rw [hbegins.size] at hsize
          cases hsize
      | ok found =>
          obtain ⟨frame, hbegins, -, -⟩ := exists_begins_of_size hsize
          rw [cutAccepted_iff hbegins]
          by_cases hsmall : frame.bytes.length ≤ maxBufferSize
          · by_cases hwhole : frame.bytes.length ≤ stream.length
            · have hstream := hbegins.whole hwhole
              generalize stream.drop frame.bytes.length = rest at hstream ⊢
              subst hstream
              have hrest : rest.length < rounds := by
                have hheader : 1 ≤ frame.bytes.length := Nat.le_add_left 1 _
                rw [List.length_append] at hrounds
                omega
              rw [received_of_whole ending rounds hsmall]
              simp only [hsmall, hwhole, not_lt.mpr hwhole, true_and, false_and, false_or,
                not_exists, not_and, ih hrest]
            · rw [received_of_cut ending rounds hbegins hsmall (not_le.mp hwhole)]
              simp only [hsmall, hwhole, not_le.mp hwhole, true_and, false_and, or_false]
          · rw [receiverData_of_large hbegins (not_le.mp hsmall)]
            exact iff_of_true (.of_refused _ _) fun hcut => hsmall hcut.1

end Loop

/-- For every stream, every error that reads return behind its end, and whatever
`processIncoming` does: all that is handed over was received, and a packet whose end is
missing ends the loop with an error, unless such a packet is accepted with zeros in place of
its end. -/
theorem received_iff (process : List Xmqtt.Message → Verdict) (ending : ReadErr)
    (stream : Bytes) :
    Received stream (receiverData process ending (stream.length + 1) [] stream) ↔
      ¬ CutAccepted process [] stream :=
  received_receiverData ending (Nat.lt_succ_self _)

/-- A PUBACK without its last byte is handed over as the PUBACK of packet id 0. -/
theorem cut_puback_handed_over :
    ((receiverData (fun _ => .goOn) .eof 4 [] [0x40, 0x02, 0x00]).1.map fun handed =>
        (handed.message.packetId, handed.buffer)) = [(0, [0x40, 0x02, 0x00, 0x00])] ∧
      (receiverData (fun _ => .goOn) .eof 4 [] [0x40, 0x02, 0x00]).2 = .refused .eof ∧
      ¬ Received [0x40, 0x02, 0x00]
        (receiverData (fun _ => .goOn) .eof 4 [] [0x40, 0x02, 0x00]) := by
  have hhanded : handedBytes (receiverData (fun _ => .goOn) .eof 4 [] [0x40, 0x02, 0x00]).1 =
      [0x40, 0x02, 0x00, 0x00] := by decide +kernel
  refine ⟨by decide +kernel, by decide +kernel, fun hreceived => ?_⟩
  have hle := hreceived.received.length_le
  rw [hhanded] at hle
  exact absurd hle (by decide)

end Xmqtt.Service
