import Xmqtt.Message.Encode
import Xmqtt.Message.Frame

/-!
# SUBSCRIBE

The SUBSCRIBE message of `subscribe.go`.  Topics and QoS values are two
parallel slices; the decoder fills both in a loop that counts the remaining
length down to zero.
-/

namespace Xmqtt.Message

open Xmqtt.Go

structure SubscribeMessage extends Header where
  topics : List Bytes
  qos : Bytes
  deriving DecidableEq, Repr

def newSubscribeMessage : SubscribeMessage where
  toHeader := newHeader .subscribe
  topics := []
  qos := []

namespace SubscribeMessage

def withHeader (this : SubscribeMessage) (header : Header) : SubscribeMessage :=
  ⟨header, this.topics, this.qos⟩

/-- A topic that is already there gets the new QoS; the message does not count
as changed then. -/
def addTopic (this : SubscribeMessage) (topic : Bytes) (qos : Byte) :
    SubscribeMessage × Option Err :=
  if !validQos qos then (this, some (.errorf "Invalid QoS %d" [.int qos.toNat]))
  else
    match this.topics.findIdx? (· == topic) with
    | some i => ({ this with qos := this.qos.set i qos }, none)
    | none =>
        ({ this with
            topics := this.topics ++ [topic]
            qos := this.qos ++ [qos]
            dirty := true }, none)

def setPacketId (this : SubscribeMessage) (v : UInt16) : SubscribeMessage :=
  this.withHeader (this.toHeader.setPacketId v)

def msglen (this : SubscribeMessage) : ℕ :=
  2 + (this.topics.map fun topic => 2 + topic.length + 1).sum

def len (this : SubscribeMessage) : SubscribeMessage × ℕ :=
  (this.withHeader (this.lenOf this.msglen).1, (this.lenOf this.msglen).2)

/-- The loop of `Decode`.  Every round takes at least three from `remlen`, so
`remlen` rounds are enough and the first equation is never reached with
anything left. -/
def decodeTopics (src : Slice) :
    ℕ → ℤ → SubscribeMessage → ℕ → Outcome Err SubscribeMessage
  | 0, _, this, total => .done this total
  | rounds + 1, remlen, this, total =>
      if 0 < remlen then
        readLPThen src (fun _ => this) total fun topic after =>
          (readByteField src
            (fun this qos =>
              { this with topics := this.topics ++ [topic], qos := this.qos ++ [qos] })
            this after).andThen
              (decodeTopics src rounds (remlen - ((after : ℤ) - total) - 1))
      else .done this total

def decode (this : SubscribeMessage) (src : Slice) : Outcome Err SubscribeMessage :=
  ((this.toHeader.decode src).map this.withHeader).andThen fun this hn =>
  ((this.readPacketId src hn).map this.withHeader).andThen fun this total =>
  (decodeTopics src (this.remlen - ((total : ℤ) - hn)).toNat
    (this.remlen - ((total : ℤ) - hn)) this total).andThen fun this total =>
  if this.topics.length = 0 then
    .fail this 0 (.errorf "subscribe/Decode: Empty topic list" [])
  else .done { this with dirty := false } total

/-- The loop of `Encode` over the topics and, by the same index, the QoS
values. -/
def emitTopics : List Bytes → Bytes → Encoded SubscribeMessage → ℕ →
    Outcome Err (Encoded SubscribeMessage)
  | [], _, state, total => .done state total
  | topic :: topics, qos, state, total =>
      (emitLP topic state total).andThen fun state total =>
        match qos with
        | [] => .panic
        | byte :: qos => (emitByte byte state total).andThen (emitTopics topics qos)

def encode (this : SubscribeMessage) (dst : Bytes) (gPacketId : UInt64) :
    Outcome Err (Encoded SubscribeMessage) :=
  if !this.dirty then encodeClean "subscribe" this.toHeader ⟨this, dst, gPacketId⟩
  else
    encodeBody this.toHeader this.withHeader this.msglen
      (fun state total =>
        (emitPacketId toHeader withHeader state total).andThen
          (emitTopics this.topics this.qos))
      dst gPacketId "subscribe"

/-! ## What a successful encode writes -/

/-- The wire form of topics and QoS values.  A missing QoS counts as zero, so
that the length depends on the topics alone. -/
def topicsBytes : List Bytes → Bytes → Bytes
  | [], _ => []
  | topic :: topics, qos => lpBytes topic ++ (qos.headD 0 :: topicsBytes topics qos.tail)

theorem msglen_eq (this : SubscribeMessage) :
    this.msglen = 2 + (topicsBytes this.topics this.qos).length := by
  rw [msglen]
  congr 1
  generalize this.qos = qos
  induction this.topics generalizing qos with
  | nil => rfl
  | cons topic topics ih =>
      rw [List.map_cons, List.sum_cons, ih qos.tail, topicsBytes, List.length_append,
        List.length_cons, length_lpBytes]
      omega

theorem emitTopics_writes (topics : List Bytes) (qos : Bytes) :
    Writes (emitTopics topics qos)
      (topics.length ≤ qos.length ∧ ∀ topic ∈ topics, topic.length ≤ maxLPString)
      (topicsBytes topics qos) := by
  induction topics generalizing qos with
  | nil => exact writes_done.of_iff (by simp)
  | cons topic topics ih =>
      cases qos with
      | nil =>
          intro this out rest gPacketId state n
          simp [emitTopics, Outcome.andThen_eq_done_iff]
      | cons byte qos =>
          refine ((emitLP_writes topic).andThen
            ((emitByte_writes byte).andThen (ih qos))).of_iff ?_
          simp only [List.length_cons, List.mem_cons, forall_eq_or_imp, true_and,
            add_le_add_iff_right]
          tauto

/-- `Encode` of a changed SUBSCRIBE. -/
theorem encode_eq_done_iff {this : SubscribeMessage} (hdirty : this.dirty = true)
    {dst : Bytes} {gPacketId : UInt64} {state : Encoded SubscribeMessage} {n : ℕ} :
    this.encode dst gPacketId = .done state n ↔
      Emits this.toHeader this.msglen
        (this.topics.length ≤ this.qos.length ∧
          ∀ topic ∈ this.topics, topic.length ≤ maxLPString)
        (((this.sized this.msglen).ensurePacketId gPacketId).1.packetId ++
          topicsBytes this.topics this.qos) dst
        (this.withHeader ((this.sized this.msglen).ensurePacketId gPacketId).1)
        ((this.sized this.msglen).ensurePacketId gPacketId).2 state n := by
  rw [encode, if_neg (by simp [hdirty])]
  exact encodeBody_packetId_eq_done_iff (fun _ _ => rfl)
    (emitTopics_writes this.topics this.qos) this.msglen_eq

/-! ## Decoding what was encoded -/

/-- The wire form of topics with their QoS. -/
def entriesBytes (entries : List (Bytes × Byte)) : Bytes :=
  topicsBytes (entries.map Prod.fst) (entries.map Prod.snd)

theorem entriesBytes_cons (entry : Bytes × Byte) (entries : List (Bytes × Byte)) :
    entriesBytes (entry :: entries) =
      lpBytes entry.1 ++ (entry.2 :: entriesBytes entries) := rfl

/-- The loop reads back the entries it was given, whatever follows them. -/
theorem decodeTopics_eq {src : Slice} {entries : List (Bytes × Byte)}
    (hlp : ∀ entry ∈ entries, entry.1.length ≤ maxLPString) {this : SubscribeMessage}
    {total rounds : ℕ} {more spare : Bytes}
    (htail : src.tail total = some ⟨entriesBytes entries ++ more, spare⟩)
    (hrounds : (entriesBytes entries).length ≤ rounds) :
    decodeTopics src rounds (entriesBytes entries).length this total =
      .done
        { this with
          topics := this.topics ++ entries.map Prod.fst
          qos := this.qos ++ entries.map Prod.snd }
        (total + (entriesBytes entries).length) := by
  induction entries generalizing this total rounds with
  | nil => cases rounds <;> simp [decodeTopics, entriesBytes, topicsBytes]
  | cons entry entries ih =>
      rw [entriesBytes_cons, List.append_assoc, List.cons_append] at htail
      have hlength : (entriesBytes (entry :: entries)).length =
          (lpBytes entry.1).length + 1 + (entriesBytes entries).length := by
        rw [entriesBytes_cons, List.length_append, List.length_cons]
        omega
      have hbyte := Slice.tail_add htail
      have hnext := Slice.tail_succ hbyte
      obtain ⟨rounds, rfl⟩ : ∃ r, rounds = r + 1 := ⟨rounds - 1, by omega⟩
      have hremlen : ((entriesBytes (entry :: entries)).length : ℤ) -
          (((total + (lpBytes entry.1).length : ℕ) : ℤ) - total) - 1 =
          (entriesBytes entries).length := by omega
      rw [decodeTopics, if_pos (by omega),
        readLPThen_lpBytes htail (hlp entry (List.mem_cons_self ..)),
        readByteField_cons hbyte, Outcome.done_andThen, hremlen,
        ih (fun other hother => hlp other (List.mem_cons_of_mem _ hother)) hnext (by omega)]
      simp only [List.map_cons, List.append_assoc, List.cons_append, List.nil_append, hlength,
        add_assoc]

/-- The loop of `Decode` adds a topic and a QoS in every round. -/
theorem length_of_decodeTopics {src : Slice} {rounds total n : ℕ} {remlen : ℤ}
    {this result : SubscribeMessage} (hsame : this.topics.length = this.qos.length)
    (hdone : decodeTopics src rounds remlen this total = .done result n) :
    result.topics.length = result.qos.length ∧
      result.qos.length ≤ this.qos.length + rounds := by
  induction rounds generalizing remlen this total with
  | zero =>
      cases hdone
      exact ⟨hsame, le_rfl⟩
  | succ rounds ih =>
      rw [decodeTopics] at hdone
      split_ifs at hdone
      · obtain ⟨topic, after, -, hnext⟩ := next_of_readLPThen hdone
        obtain ⟨middle, count, hbyte, hrest⟩ := Outcome.andThen_eq_done_iff.mp hnext
        obtain ⟨byte, rfl⟩ := byte_of_readByteField hbyte
        obtain ⟨hlength, hle⟩ := ih (by simpa using hsame) hrest
        rw [List.length_append, List.length_singleton] at hle
        exact ⟨hlength, by omega⟩
      · cases hdone
        exact ⟨hsame, Nat.le_add_right _ _⟩

/-- An encoded header, a packet id and entries decode to that packet id and
these entries, whatever follows them. -/
theorem decode_wire (header : Header) {entries : List (Bytes × Byte)} {id : Bytes}
    (hflags : header.mtypeflags = (newHeader .subscribe).mtypeflags)
    (hremlen : header.remlen = (id ++ entriesBytes entries).length)
    (hbound : header.remlen ≤ maxRemainingLength) (hid : id.length = 2)
    (hentries : entries ≠ []) (hlp : ∀ entry ∈ entries, entry.1.length ≤ maxLPString)
    (more spare : Bytes) :
    ∃ decoded, newSubscribeMessage.decode
        ⟨header.wire ++ (id ++ entriesBytes entries) ++ more, spare⟩ =
          .done decoded (header.msglen + (id ++ entriesBytes entries).length) ∧
      decoded.topics = entries.map Prod.fst ∧ decoded.qos = entries.map Prod.snd ∧
      decoded.packetId = id := by
  have hheader : newSubscribeMessage.toHeader.decode _ = _ :=
    Header.decode_wire hremlen hbound more spare
      (by rw [Header.type, Header.type, hflags]; rfl) (by rw [Header.type, hflags]; rfl)
      (by rw [hflags]; rfl)
  have hstart := Header.tail_wire hremlen hbound more spare
  generalize Slice.mk _ spare = src at hheader hstart ⊢
  rw [List.append_assoc] at hstart
  have hbehind := Slice.tail_add hstart
  rw [hid] at hbehind
  have hrest := Header.counter_eq hid (entriesBytes entries) header.msglen
  rw [decode, hheader, Outcome.map_done, Outcome.done_andThen,
    Header.readPacketId_of_tail hstart hid, Outcome.map_done, Outcome.done_andThen]
  simp only [withHeader, Header.received, hrest, Int.toNat_natCast]
  rw [decodeTopics_eq hlp hbehind le_rfl, Outcome.done_andThen,
    if_neg (by simpa [newSubscribeMessage] using hentries)]
  exact ⟨_, by rw [List.length_append, hid, add_assoc], rfl, rfl, rfl⟩

/-! ## Messages built with `AddTopic` and `SetPacketId` -/

def addTopics (this : SubscribeMessage) (entries : List (Bytes × Byte)) : SubscribeMessage :=
  entries.foldl (fun this entry => (this.addTopic entry.1 entry.2).1) this

theorem addTopic_of_notMem {this : SubscribeMessage} {topic : Bytes} {qos : Byte}
    (hqos : validQos qos = true) (htopic : topic ∉ this.topics) :
    (this.addTopic topic qos).1 =
      ⟨{ this.toHeader with dirty := true }, this.topics ++ [topic], this.qos ++ [qos]⟩ := by
  have hnone : this.topics.findIdx? (· == topic) = none := by
    rw [List.findIdx?_eq_none_iff]
    intro other hother
    simpa using fun heq : other = topic => htopic (heq ▸ hother)
  rw [addTopic, hnone, if_neg (by simp [hqos])]

/-- New topics are appended in order. -/
theorem addTopics_eq {this : SubscribeMessage} {entries : List (Bytes × Byte)}
    (hdirty : this.dirty = true) (hqos : ∀ entry ∈ entries, validQos entry.2 = true)
    (hdistinct : (this.topics ++ entries.map Prod.fst).Nodup) :
    this.addTopics entries =
      ⟨this.toHeader, this.topics ++ entries.map Prod.fst,
        this.qos ++ entries.map Prod.snd⟩ := by
  induction entries generalizing this with
  | nil => simp [addTopics]
  | cons entry entries ih =>
      have hfresh : entry.1 ∉ this.topics := fun hmem =>
        (List.nodup_append.mp hdistinct).2.2 entry.1 hmem entry.1 (by simp) rfl
      have hheader : { this.toHeader with dirty := true } = this.toHeader := by
        rw [← hdirty]
      have hstep := addTopic_of_notMem (hqos entry (List.mem_cons_self ..)) hfresh
      rw [hheader] at hstep
      have hrest : (this.addTopic entry.1 entry.2).1.addTopics entries = _ :=
        ih (by rw [hstep]; exact hdirty)
          (fun other hother => hqos other (List.mem_cons_of_mem _ hother))
          (by rw [hstep]; simpa using hdistinct)
      rw [addTopics, List.foldl_cons, ← addTopics, hrest, hstep]
      simp

theorem addTopics_setPacketId_addTopics {before after : List (Bytes × Byte)} {id : UInt16}
    (hqos : ∀ entry ∈ before ++ after, validQos entry.2 = true)
    (hdistinct : ((before ++ after).map Prod.fst).Nodup) :
    ((newSubscribeMessage.addTopics before).setPacketId id).addTopics after =
      ⟨(newHeader .subscribe).setPacketId id, (before ++ after).map Prod.fst,
        (before ++ after).map Prod.snd⟩ := by
  rw [List.map_append] at hdistinct
  have hbefore : newSubscribeMessage.addTopics before =
      ⟨newHeader .subscribe, before.map Prod.fst, before.map Prod.snd⟩ :=
    addTopics_eq rfl (fun entry hentry => hqos entry (List.mem_append_left _ hentry))
      (List.Nodup.of_append_left hdistinct)
  rw [hbefore, addTopics_eq (Header.dirty_setPacketId rfl id)
    (fun entry hentry => hqos entry (List.mem_append_right _ hentry)) hdistinct,
    List.map_append, List.map_append]
  rfl

/-- A SUBSCRIBE whose header is ready, encoded into a buffer of the right length,
decodes to the same packet id and entries. -/
theorem roundTrip (this : SubscribeMessage) {id : UInt16} {entries : List (Bytes × Byte)}
    (hready : this.toHeader.Ready .subscribe id this.msglen)
    (htopics : this.topics = entries.map Prod.fst) (hqos : this.qos = entries.map Prod.snd)
    (hentries : entries ≠ []) (hlp : ∀ entry ∈ entries, entry.1.length ≤ maxLPString)
    (hsize : this.msglen ≤ 268435455) {dst : Bytes}
    (hdst : dst.length = (this.sized this.msglen).msglen + this.msglen) (gPacketId : UInt64)
    (more spare : Bytes) :
    ∃ state decoded, this.encode dst gPacketId = .done state dst.length ∧
      newSubscribeMessage.decode ⟨state.dst ++ more, spare⟩ = .done decoded dst.length ∧
      decoded.packetIdValue = id.toNat ∧ decoded.topics = entries.map Prod.fst ∧
      decoded.qos = entries.map Prod.snd := by
  have hint := int32_of_lt (show this.msglen < 2 ^ 31 by omega)
  have hremlen := Header.remlen_bounds hsize
  have hbody : (this.packetId ++ entriesBytes entries).length = this.msglen := by
    rw [List.length_append, hready.length_packetId, entriesBytes, ← htopics, ← hqos, msglen_eq]
  have hfit := hready.msglen_le
  have hencode : this.encode dst gPacketId = .done _ _ :=
    (encode_eq_done_iff hready.dirty).mpr ⟨by omega, hremlen, by rw [hready.type_eq]; rfl,
      ⟨by rw [htopics, hqos, List.length_map, List.length_map], by
        rw [htopics]
        simpa using hlp⟩, hdst.ge, rfl, rfl⟩
  obtain ⟨decoded, hdone, hdecodedTopics, hdecodedQos, hdecodedId⟩ :=
    decode_wire (this.sized this.msglen) hready.mtypeflags
      (by rw [hbody]; exact hint) hremlen.2 hready.length_packetId hentries hlp more spare
  rw [hbody, ← hdst] at hdone
  rw [Header.ensurePacketId_sized hready.packetIdValue_ne_zero, ← hdst, List.drop_length,
    List.append_nil] at hencode
  refine ⟨_, decoded, hencode, ?_, ?_, hdecodedTopics, hdecodedQos⟩
  · simp only [htopics, hqos]
    exact hdone
  · rw [Header.packetIdValue, hdecodedId]
    exact hready.packetIdValue

/-- SUBSCRIBE round trip.  The topics are added in order, the packet id is set
somewhere in between; the encoded bytes may be followed by any others. -/
theorem decode_encode_of_addTopics (before after : List (Bytes × Byte)) (id : UInt16)
    (hentries : before ++ after ≠ [])
    (hdistinct : ((before ++ after).map Prod.fst).Nodup)
    (hlp : ∀ entry ∈ before ++ after, entry.1.length ≤ 65535)
    (hqos : ∀ entry ∈ before ++ after, entry.2 = 0 ∨ entry.2 = 1 ∨ entry.2 = 2)
    (hid : id ≠ 0)
    (hsize : 2 + ((before ++ after).map fun entry => 2 + entry.1.length + 1).sum ≤ 268435455)
    {message start : SubscribeMessage}
    (hmessage : message = ((newSubscribeMessage.addTopics before).setPacketId id).addTopics after)
    (hstart : start = message ∨ start = message.len.1) (dst : Bytes)
    (hdst : dst.length = message.len.2) (gPacketId : UInt64) (more spare : Bytes) :
    ∃ state decoded, start.encode dst gPacketId = .done state message.len.2 ∧
      newSubscribeMessage.decode ⟨state.dst ++ more, spare⟩ = .done decoded message.len.2 ∧
      decoded.packetIdValue = id.toNat ∧
      decoded.topics = (before ++ after).map Prod.fst ∧
      decoded.qos = (before ++ after).map Prod.snd := by
  have hvalidQos : ∀ entry ∈ before ++ after, validQos entry.2 = true := by
    intro entry hentry
    rcases hqos entry hentry with heq | heq | heq <;> rw [heq] <;> rfl
  rw [addTopics_setPacketId_addTopics hvalidQos hdistinct] at hmessage
  have htopics : message.topics = (before ++ after).map Prod.fst := by rw [hmessage]
  have hqosList : message.qos = (before ++ after).map Prod.snd := by rw [hmessage]
  have hready : message.toHeader.Ready .subscribe id message.msglen := by
    rw [hmessage]
    exact Header.Ready.new .subscribe hid _
  clear hmessage
  have hmsglen : message.msglen ≤ 268435455 := by
    rw [msglen, htopics, List.map_map]
    exact hsize
  have hlen : message.len = (message.withHeader (message.sized message.msglen),
      (message.sized message.msglen).msglen + message.msglen) := by
    rw [len, Header.lenOf_of_le hready.dirty hmsglen]
  rw [hlen] at hstart hdst ⊢
  simp only at hstart hdst ⊢
  rw [← hdst]
  rcases hstart with rfl | rfl
  · exact roundTrip start hready htopics hqosList hentries hlp hmsglen hdst gPacketId more
      spare
  · exact roundTrip (message.withHeader (message.sized message.msglen)) hready.sized
      htopics hqosList hentries hlp hmsglen hdst gPacketId more spare

/-- Two topics around `SetPacketId`. -/
theorem decode_encode_of_addTopics_two :
    ∃ state decoded,
      (((newSubscribeMessage.addTopics [([0x61], 1)]).setPacketId 5).addTopics
        [([], 2)]).encode (List.replicate 11 0) 0 = .done state 11 ∧
      newSubscribeMessage.decode ⟨state.dst ++ [0xff], []⟩ = .done decoded 11 ∧
      decoded.packetIdValue = (5 : UInt16).toNat ∧ decoded.topics = [[0x61], []] ∧
      decoded.qos = [1, 2] := by
  have hlen : (((newSubscribeMessage.addTopics [([0x61], 1)]).setPacketId 5).addTopics
      [([], 2)]).len.2 = 11 := by decide +kernel
  have hround := decode_encode_of_addTopics [([0x61], 1)] [([], 2)] 5 (by decide)
    (by decide) (by decide) (by decide) (by decide) (by decide) rfl (Or.inl rfl)
    (List.replicate 11 0) (by rw [hlen]; rfl) 0 [0xff] []
  rwa [hlen] at hround

end SubscribeMessage

end Xmqtt.Message
