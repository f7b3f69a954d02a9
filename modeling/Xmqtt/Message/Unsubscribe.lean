import Xmqtt.Message.Encode
import Xmqtt.Message.Frame

/-!
# UNSUBSCRIBE

The UNSUBSCRIBE message of `unsubscribe.go`.  Its decoder counts the remaining
length down as SUBSCRIBE does, one more than it has read for each topic, but
an UNSUBSCRIBE entry has no QoS byte: the loop ends too early when the number
of topics exceeds what the last topic makes up for.
-/

namespace Xmqtt.Message

open Xmqtt.Go

structure UnsubscribeMessage extends Header where
  topics : List Bytes
  deriving DecidableEq, Repr

def newUnsubscribeMessage : UnsubscribeMessage where
  toHeader := newHeader .unsubscribe
  topics := []

namespace UnsubscribeMessage

def withHeader (this : UnsubscribeMessage) (header : Header) : UnsubscribeMessage :=
  ⟨header, this.topics⟩

def topicExists (this : UnsubscribeMessage) (topic : Bytes) : Bool :=
  this.topics.contains topic

def addTopic (this : UnsubscribeMessage) (topic : Bytes) : UnsubscribeMessage :=
  if this.topicExists topic then this
  else { this with topics := this.topics ++ [topic], dirty := true }

def setPacketId (this : UnsubscribeMessage) (v : UInt16) : UnsubscribeMessage :=
  this.withHeader (this.toHeader.setPacketId v)

def msglen (this : UnsubscribeMessage) : ℕ :=
  2 + (this.topics.map fun topic => 2 + topic.length).sum

def len (this : UnsubscribeMessage) : UnsubscribeMessage × ℕ :=
  (this.withHeader (this.lenOf this.msglen).1, (this.lenOf this.msglen).2)

/-- The loop of `Decode`, with at most `remlen` rounds as in SUBSCRIBE.
`remlen` goes down by one more than the bytes read. -/
def decodeTopics (src : Slice) :
    ℕ → ℤ → UnsubscribeMessage → ℕ → Outcome Err UnsubscribeMessage
  | 0, _, this, total => .done this total
  | rounds + 1, remlen, this, total =>
      if 0 < remlen then
        readLPThen src (fun _ => this) total fun topic after =>
          decodeTopics src rounds (remlen - ((after : ℤ) - total) - 1)
            { this with topics := this.topics ++ [topic] } after
      else .done this total

def decode (this : UnsubscribeMessage) (src : Slice) : Outcome Err UnsubscribeMessage :=
  ((this.toHeader.decode src).map this.withHeader).andThen fun this hn =>
  ((this.readPacketId src hn).map this.withHeader).andThen fun this total =>
  (decodeTopics src (this.remlen - ((total : ℤ) - hn)).toNat
    (this.remlen - ((total : ℤ) - hn)) this total).andThen fun this total =>
  if this.topics.length = 0 then
    .fail this 0 (.errorf "unsubscribe/Decode: Empty topic list" [])
  else .done { this with dirty := false } total

def emitTopics : List Bytes → Encoded UnsubscribeMessage → ℕ →
    Outcome Err (Encoded UnsubscribeMessage)
  | [], state, total => .done state total
  | topic :: topics, state, total =>
      (emitLP topic state total).andThen (emitTopics topics)

def encode (this : UnsubscribeMessage) (dst : Bytes) (gPacketId : UInt64) :
    Outcome Err (Encoded UnsubscribeMessage) :=
  if !this.dirty then encodeClean "unsubscribe" this.toHeader ⟨this, dst, gPacketId⟩
  else
    encodeBody this.toHeader this.withHeader this.msglen
      (fun state total =>
        (emitPacketId toHeader withHeader state total).andThen (emitTopics this.topics))
      dst gPacketId "unsubscribe"

/-! ## What a successful encode writes -/

/-- The wire form of topics. -/
def topicsBytes (topics : List Bytes) : Bytes := topics.flatMap lpBytes

theorem length_topicsBytes (topics : List Bytes) :
    (topicsBytes topics).length = (topics.map fun topic => 2 + topic.length).sum := by
  simp [topicsBytes, List.length_flatMap]

theorem length_topicsBytes_cons (topic : Bytes) (topics : List Bytes) :
    (topicsBytes (topic :: topics)).length =
      2 + topic.length + (topicsBytes topics).length := by
  simp [topicsBytes]

theorem msglen_eq (this : UnsubscribeMessage) :
    this.msglen = 2 + (topicsBytes this.topics).length := by
  rw [msglen, length_topicsBytes]

theorem emitTopics_writes (topics : List Bytes) :
    Writes (emitTopics topics) (∀ topic ∈ topics, topic.length ≤ maxLPString)
      (topicsBytes topics) := by
  induction topics with
  | nil => exact writes_done.of_iff (by simp)
  | cons topic topics ih => exact ((emitLP_writes topic).andThen ih).of_iff (by simp)

/-- `Encode` of a changed UNSUBSCRIBE. -/
theorem encode_eq_done_iff {this : UnsubscribeMessage} (hdirty : this.dirty = true)
    {dst : Bytes} {gPacketId : UInt64} {state : Encoded UnsubscribeMessage} {n : ℕ} :
    this.encode dst gPacketId = .done state n ↔
      Emits this.toHeader this.msglen (∀ topic ∈ this.topics, topic.length ≤ maxLPString)
        (((this.sized this.msglen).ensurePacketId gPacketId).1.packetId ++
          topicsBytes this.topics) dst
        (this.withHeader ((this.sized this.msglen).ensurePacketId gPacketId).1)
        ((this.sized this.msglen).ensurePacketId gPacketId).2 state n := by
  rw [encode, if_neg (by simp [hdirty])]
  exact encodeBody_packetId_eq_done_iff (fun _ _ => rfl) (emitTopics_writes this.topics)
    this.msglen_eq

/-! ## How far the decoder gets -/

/-- The topics that the decoder's loop reads when it starts with the counter at
`remlen`. -/
def reached : ℤ → List Bytes → List Bytes
  | _, [] => []
  | remlen, topic :: topics =>
      if 0 < remlen then topic :: reached (remlen - (2 + topic.length) - 1) topics else []

/-- On topics that the counter does not outlast, the loop reads those that are
reached and stops behind them. -/
theorem decodeTopics_eq {src : Slice} {topics : List Bytes}
    (hlp : ∀ topic ∈ topics, topic.length ≤ maxLPString) {remlen : ℤ}
    (hremlen : remlen ≤ (topicsBytes topics).length) {this : UnsubscribeMessage}
    {total rounds : ℕ} {more spare : Bytes}
    (htail : src.tail total = some ⟨topicsBytes topics ++ more, spare⟩)
    (hrounds : remlen ≤ rounds) :
    decodeTopics src rounds remlen this total =
      .done { this with topics := this.topics ++ reached remlen topics }
        (total + (topicsBytes (reached remlen topics)).length) := by
  induction topics generalizing remlen this total rounds with
  | nil =>
      have hstop : ¬ 0 < remlen := by simpa [topicsBytes] using hremlen
      cases rounds <;> simp [decodeTopics, reached, topicsBytes, hstop]
  | cons topic topics ih =>
      by_cases hpos : 0 < remlen
      · obtain ⟨rounds, rfl⟩ : ∃ r, rounds = r + 1 := ⟨rounds - 1, by omega⟩
        have hsplit : topicsBytes (topic :: topics) = lpBytes topic ++ topicsBytes topics := rfl
        rw [hsplit, List.append_assoc] at htail
        rw [hsplit, List.length_append, length_lpBytes] at hremlen
        have hnext := Slice.tail_add htail
        have hcounter : remlen - (((total + (lpBytes topic).length : ℕ) : ℤ) - total) - 1 =
            remlen - (2 + topic.length) - 1 := by
          rw [length_lpBytes]
          omega
        rw [decodeTopics, if_pos hpos,
          readLPThen_lpBytes htail (hlp topic (List.mem_cons_self ..)), hcounter,
          ih (fun other hother => hlp other (List.mem_cons_of_mem _ hother)) (by omega)
            hnext (by omega)]
        simp only [reached, if_pos hpos, topicsBytes, List.flatMap_cons, List.length_append,
          List.append_assoc, List.cons_append, List.nil_append, add_assoc]
      · cases rounds <;> simp [decodeTopics, reached, topicsBytes, hpos]

theorem length_getLast_le {topics : List Bytes} (htopics : topics ≠ []) :
    (topics.getLast htopics).length + 2 * topics.length ≤ (topicsBytes topics).length := by
  induction topics with
  | nil => exact (htopics rfl).elim
  | cons topic topics ih =>
      rw [length_topicsBytes_cons, List.length_cons]
      by_cases hrest : topics = []
      · subst hrest
        simp [topicsBytes]
        omega
      · rw [List.getLast_cons hrest]
        have hle := ih hrest
        omega

/-- With the counter `drift` short of the bytes there are, all topics are
reached exactly when the last one makes up for the drift. -/
theorem reached_eq_self_iff {topics : List Bytes} (htopics : topics ≠ []) (drift : ℕ) :
    reached ((topicsBytes topics).length - drift) topics = topics ↔
      drift + topics.length ≤ (topics.getLast htopics).length + 2 := by
  induction topics generalizing drift with
  | nil => exact (htopics rfl).elim
  | cons topic topics ih =>
      have hsplit := length_topicsBytes_cons topic topics
      have hcounter : (((topicsBytes (topic :: topics)).length : ℤ) - drift) -
          (2 + topic.length) - 1 = (topicsBytes topics).length - ((drift + 1 : ℕ) : ℤ) := by
        omega
      rw [reached, hcounter]
      by_cases hrest : topics = []
      · subst hrest
        simp [reached, topicsBytes]
        omega
      · have hlast := length_getLast_le hrest
        rw [List.getLast_cons hrest, List.length_cons]
        by_cases hpos : (0 : ℤ) < (topicsBytes (topic :: topics)).length - drift
        · rw [if_pos hpos, List.cons_inj_right, ih hrest]
          omega
        · rw [if_neg hpos]
          simp only [List.nil_eq, reduceCtorEq, false_iff]
          omega

/-- An encoded header, a packet id and topics decode to that packet id and the
topics that are reached, whatever follows them. -/
theorem decode_wire (header : Header) {topics : List Bytes} {id : Bytes}
    (hflags : header.mtypeflags = (newHeader .unsubscribe).mtypeflags)
    (hremlen : header.remlen = (id ++ topicsBytes topics).length)
    (hbound : header.remlen ≤ maxRemainingLength) (hid : id.length = 2)
    (htopics : topics ≠ []) (hlp : ∀ topic ∈ topics, topic.length ≤ maxLPString)
    (more spare : Bytes) :
    ∃ decoded, newUnsubscribeMessage.decode
        ⟨header.wire ++ (id ++ topicsBytes topics) ++ more, spare⟩ =
          .done decoded (header.msglen + 2 +
            (topicsBytes (reached (topicsBytes topics).length topics)).length) ∧
      decoded.topics = reached (topicsBytes topics).length topics ∧
      decoded.packetId = id := by
  have hheader : newUnsubscribeMessage.toHeader.decode _ = _ :=
    Header.decode_wire hremlen hbound more spare
      (by rw [Header.type, Header.type, hflags]; rfl) (by rw [Header.type, hflags]; rfl)
      (by rw [hflags]; rfl)
  have hstart := Header.tail_wire hremlen hbound more spare
  generalize Slice.mk _ spare = src at hheader hstart ⊢
  rw [List.append_assoc] at hstart
  have hbehind := Slice.tail_add hstart
  rw [hid] at hbehind
  have hrest := Header.counter_eq hid (topicsBytes topics) header.msglen
  have hfirst : reached (topicsBytes topics).length topics ≠ [] := by
    cases topics with
    | nil => exact (htopics rfl).elim
    | cons topic topics =>
        rw [reached, if_pos (by rw [length_topicsBytes_cons]; omega)]
        exact List.cons_ne_nil _ _
  rw [decode, hheader, Outcome.map_done, Outcome.done_andThen,
    Header.readPacketId_of_tail hstart hid, Outcome.map_done, Outcome.done_andThen]
  simp only [withHeader, Header.received, hrest, Int.toNat_natCast]
  rw [decodeTopics_eq hlp le_rfl hbehind le_rfl, Outcome.done_andThen,
    if_neg (by simpa [newUnsubscribeMessage] using hfirst)]
  exact ⟨_, rfl, rfl, rfl⟩

/-! ## Messages built with `AddTopic` and `SetPacketId` -/

def addTopics (this : UnsubscribeMessage) (topics : List Bytes) : UnsubscribeMessage :=
  topics.foldl addTopic this

/-- New topics are appended in order. -/
theorem addTopics_eq {this : UnsubscribeMessage} {topics : List Bytes}
    (hdirty : this.dirty = true) (hdistinct : (this.topics ++ topics).Nodup) :
    this.addTopics topics = ⟨this.toHeader, this.topics ++ topics⟩ := by
  induction topics generalizing this with
  | nil => simp [addTopics]
  | cons topic topics ih =>
      have hfresh : topic ∉ this.topics := fun hmem =>
        (List.nodup_append.mp hdistinct).2.2 topic hmem topic (by simp) rfl
      have hheader : { this.toHeader with dirty := true } = this.toHeader := by
        rw [← hdirty]
      have hstep : this.addTopic topic = ⟨this.toHeader, this.topics ++ [topic]⟩ := by
        rw [addTopic, topicExists, if_neg (by simpa using hfresh), hheader]
      have hrest : (this.addTopic topic).addTopics topics = _ :=
        ih (by rw [hstep]; exact hdirty) (by rw [hstep]; simpa using hdistinct)
      rw [addTopics, List.foldl_cons, ← addTopics, hrest, hstep]
      simp

theorem addTopics_setPacketId_addTopics {before after : List Bytes} {id : UInt16}
    (hdistinct : (before ++ after).Nodup) :
    ((newUnsubscribeMessage.addTopics before).setPacketId id).addTopics after =
      ⟨(newHeader .unsubscribe).setPacketId id, before ++ after⟩ := by
  have hbefore : newUnsubscribeMessage.addTopics before =
      ⟨newHeader .unsubscribe, before⟩ :=
    addTopics_eq rfl (List.Nodup.of_append_left hdistinct)
  rw [hbefore, addTopics_eq (Header.dirty_setPacketId rfl id) hdistinct]
  rfl

/-- An UNSUBSCRIBE whose header is ready is encoded without an error, and the
bytes decode to the same packet id and the topics that are reached. -/
theorem roundTrip (this : UnsubscribeMessage) {id : UInt16}
    (hready : this.toHeader.Ready .unsubscribe id this.msglen) (htopics : this.topics ≠ [])
    (hlp : ∀ topic ∈ this.topics, topic.length ≤ maxLPString)
    (hsize : this.msglen ≤ 268435455) {dst : Bytes}
    (hdst : dst.length = (this.sized this.msglen).msglen + this.msglen) (gPacketId : UInt64)
    (spare : Bytes) :
    ∃ state decoded, this.encode dst gPacketId = .done state dst.length ∧
      newUnsubscribeMessage.decode ⟨state.dst, spare⟩ =
        .done decoded ((this.sized this.msglen).msglen + 2 +
          (topicsBytes (reached (topicsBytes this.topics).length this.topics)).length) ∧
      decoded.packetIdValue = id.toNat ∧
      decoded.topics = reached (topicsBytes this.topics).length this.topics := by
  have hint := int32_of_lt (show this.msglen < 2 ^ 31 by omega)
  have hremlen := Header.remlen_bounds hsize
  have hbody : (this.packetId ++ topicsBytes this.topics).length = this.msglen := by
    rw [List.length_append, hready.length_packetId, msglen_eq]
  have hfit := hready.msglen_le
  have hencode : this.encode dst gPacketId = .done _ _ :=
    (encode_eq_done_iff hready.dirty).mpr ⟨by omega, hremlen, by rw [hready.type_eq]; rfl,
      hlp, hdst.ge, rfl, rfl⟩
  obtain ⟨decoded, hdone, hdecodedTopics, hdecodedId⟩ :=
    decode_wire (this.sized this.msglen) hready.mtypeflags (by rw [hbody]; exact hint)
      hremlen.2 hready.length_packetId htopics hlp [] spare
  rw [List.append_nil] at hdone
  rw [Header.ensurePacketId_sized hready.packetIdValue_ne_zero, ← hdst, List.drop_length,
    List.append_nil] at hencode
  refine ⟨_, decoded, hencode, hdone, ?_, hdecodedTopics⟩
  rw [Header.packetIdValue, hdecodedId]
  exact hready.packetIdValue

/-- UNSUBSCRIBE round trip.  The message comes back exactly when the number of
topics exceeds the length of the last one by no more than two. -/
theorem decode_encode_iff_of_addTopics (before after : List Bytes) (id : UInt16)
    (htopics : before ++ after ≠ []) (hdistinct : (before ++ after).Nodup)
    (hlp : ∀ topic ∈ before ++ after, topic.length ≤ 65535) (hid : id ≠ 0)
    (hsize : 2 + ((before ++ after).map fun topic => 2 + topic.length).sum ≤ 268435455)
    {message start : UnsubscribeMessage}
    (hmessage : message =
      ((newUnsubscribeMessage.addTopics before).setPacketId id).addTopics after)
    (hstart : start = message ∨ start = message.len.1) (dst : Bytes)
    (hdst : dst.length = message.len.2) (gPacketId : UInt64) (spare : Bytes) :
    (∃ state decoded, start.encode dst gPacketId = .done state message.len.2 ∧
      newUnsubscribeMessage.decode ⟨state.dst, spare⟩ = .done decoded message.len.2 ∧
      decoded.packetIdValue = id.toNat ∧ decoded.topics = before ++ after) ↔
      (before ++ after).length ≤ ((before ++ after).getLast htopics).length + 2 := by
  rw [addTopics_setPacketId_addTopics hdistinct] at hmessage
  have hlist : message.topics = before ++ after := by rw [hmessage]
  have hready : message.toHeader.Ready .unsubscribe id message.msglen := by
    rw [hmessage]
    exact Header.Ready.new .unsubscribe hid _
  clear hmessage
  simp only [← hlist] at htopics hlp hsize ⊢
  have hmsglen : message.msglen ≤ 268435455 := hsize
  have hlen : message.len = (message.withHeader (message.sized message.msglen),
      (message.sized message.msglen).msglen + message.msglen) := by
    rw [len, Header.lenOf_of_le hready.dirty hmsglen]
  rw [hlen] at hstart hdst ⊢
  simp only at hstart hdst ⊢
  obtain ⟨state, decoded, hencode, hdecode, hpacketId, hdecoded⟩ :
      ∃ state decoded, start.encode dst gPacketId = .done state dst.length ∧
        newUnsubscribeMessage.decode ⟨state.dst, spare⟩ =
          .done decoded ((message.sized message.msglen).msglen + 2 +
            (topicsBytes (reached (topicsBytes message.topics).length
              message.topics)).length) ∧
        decoded.packetIdValue = id.toNat ∧
        decoded.topics = reached (topicsBytes message.topics).length message.topics := by
    rcases hstart with rfl | rfl
    · exact roundTrip start hready htopics hlp hsize hdst gPacketId spare
    · exact roundTrip (message.withHeader (message.sized message.msglen)) hready.sized
        htopics hlp hsize hdst gPacketId spare
  have hreached := reached_eq_self_iff htopics 0
  simp only [Nat.cast_zero, sub_zero, zero_add] at hreached
  rw [← hreached, ← hdst]
  constructor
  · rintro ⟨state', decoded', hencode', hdecode', -, hdecoded'⟩
    rw [hencode] at hencode'
    injection hencode' with hstate
    rw [← hstate, hdecode] at hdecode'
    injection hdecode' with hmessage
    exact hdecoded.symm.trans ((congrArg topics hmessage).trans hdecoded')
  · intro hall
    rw [hall] at hdecode hdecoded
    have hcount : (message.sized message.msglen).msglen + 2 +
        (topicsBytes message.topics).length = dst.length := by
      rw [hdst, msglen_eq, add_assoc]
    rw [hcount] at hdecode
    exact ⟨state, decoded, hencode, hdecode, hpacketId, hdecoded⟩

/-- The topics `a` and `b` come back. -/
theorem decode_encode_iff_of_addTopics_two :
    ∃ state decoded,
      ((newUnsubscribeMessage.addTopics [[0x61], [0x62]]).setPacketId 1).encode
        (List.replicate 10 0) 0 = .done state 10 ∧
      newUnsubscribeMessage.decode ⟨state.dst, []⟩ = .done decoded 10 ∧
      decoded.packetIdValue = (1 : UInt16).toNat ∧ decoded.topics = [[0x61], [0x62]] := by
  have hlen : ((newUnsubscribeMessage.addTopics [[0x61], [0x62]]).setPacketId 1).len.2 =
      10 := by decide +kernel
  have hround := (decode_encode_iff_of_addTopics [[0x61], [0x62]] [] 1 (by decide)
    (by decide) (by decide) (by decide) (by decide) rfl (Or.inl rfl) (List.replicate 10 0)
    (by rw [addTopics, List.foldl_nil, hlen]; rfl) 0 []).mpr (by decide)
  rwa [addTopics, List.foldl_nil, hlen] at hround

/-- The topics `a`, `b`, `c` and `d` with packet id 1: the encoding is sixteen
bytes long, and three topics come back from its first thirteen. -/
theorem decode_encode_loses_topic :
    (((newUnsubscribeMessage.addTopics [[0x61], [0x62], [0x63], [0x64]]).setPacketId 1).encode
        (List.replicate 16 0) 0).map Encoded.dst =
      .done [0xa2, 14, 0, 1, 0, 1, 0x61, 0, 1, 0x62, 0, 1, 0x63, 0, 1, 0x64] 16 ∧
    (newUnsubscribeMessage.decode
        ⟨[0xa2, 14, 0, 1, 0, 1, 0x61, 0, 1, 0x62, 0, 1, 0x63, 0, 1, 0x64], []⟩).map topics =
      .done [[0x61], [0x62], [0x63]] 13 := by
  decide +kernel

end UnsubscribeMessage

end Xmqtt.Message
