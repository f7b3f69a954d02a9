import Xmqtt.Message.Stored

/-!
# The grammars of PUBLISH and SUBSCRIBE

What a body has to look like, said without the decoders: a length-prefixed
field is two bytes, big-endian, and that many bytes.  `PublishMessage.Decode`
accepts exactly the frames of its grammar and returns their parts.
`SubscribeMessage.Decode` reads the QoS of an entry without looking at it, so
it accepts more than the frames of its own.
-/

namespace Xmqtt.Message

open Xmqtt.Go

/-- `bytes` is `field` behind its length, two bytes big-endian. -/
def LengthPrefixed (field bytes : Bytes) : Prop :=
  ∃ high low, bytes = high :: low :: field ∧ bigEndianUint16 high low = field.length

theorem lengthPrefixed_iff {field bytes : Bytes} :
    LengthPrefixed field bytes ↔ bytes = lpBytes field ∧ field.length ≤ maxLPString := by
  constructor
  · rintro ⟨high, low, rfl, hlength⟩
    have hlt := bigEndianUint16_lt high low
    constructor
    · rw [lpBytes, ← hlength, uint16Bytes_bigEndianUint16]
      rfl
    · rw [← hlength]
      exact Nat.le_of_lt_succ hlt
  · rintro ⟨rfl, hfield⟩
    exact ⟨_, _, rfl, bigEndianUint16_uint16Bytes (Nat.lt_succ_of_le hfield)⟩

/-- A header that is decoded from a frame of its own type. -/
theorem Frame.decode_header_full (frame : Frame) {this : Header}
    (hvalid : frame.mtype.valid = true) (htype : this.type = frame.mtype)
    (hflags : flagsAccepted frame.first = true) :
    this.decode (Slice.full frame.bytes) =
      .done (this.received (Slice.full frame.bytes) frame.first frame.body.length)
        frame.headerLength := by
  have hheader := frame.decode_header_of_accepted hvalid htype hflags [] []
  rwa [List.append_nil] at hheader

/-! ## PUBLISH -/

/-- The QoS bits of a PUBLISH type byte. -/
def qosBits (first : Byte) : Byte := (first >>> 1) &&& 0x3

theorem qosBits_eq : ∀ first : Byte, qosBits first = ((first &&& 0x0f) >>> 1) &&& 0x3 := by
  decide +kernel

theorem ofNibble_eq_publish_iff : ∀ first : Byte,
    MessageType.ofNibble (first >>> 4) = .publish ↔ first >>> 4 = 3 := by
  decide +kernel

/-- The frame is a PUBLISH of these parts. -/
structure PublishParts (frame : Frame) (topic id payload : Bytes) : Prop where
  type : frame.first >>> 4 = 3
  qos : qosBits frame.first = 0 ∨ qosBits frame.first = 1 ∨ qosBits frame.first = 2
  body : ∃ prefixed, LengthPrefixed topic prefixed ∧ frame.body = prefixed ++ (id ++ payload)
  topic : 1 ≤ topic.length ∧ 0x23 ∉ topic ∧ 0x2b ∉ topic
  id : id.length = if 0 < qosBits frame.first then 2 else 0

theorem validTopic_iff {topic : Bytes} :
    validTopic topic = true ↔ 1 ≤ topic.length ∧ 0x23 ∉ topic ∧ 0x2b ∉ topic := by
  simp only [validTopic, Bool.and_eq_true, decide_eq_true_eq, Bool.not_eq_true',
    List.contains_eq_mem, decide_eq_false_iff_not, and_assoc]
  rfl

theorem validQos_iff {qos : Byte} : validQos qos = true ↔ qos = 0 ∨ qos = 1 ∨ qos = 2 := by
  simp [validQos, qosAtMostOnce, qosAtLeastOnce, qosExactlyOnce, or_assoc]

/-- The checks of the type byte are those of the grammar. -/
theorem publish_accepted_iff {first : Byte} :
    MessageType.ofNibble (first >>> 4) = .publish ∧ flagsAccepted first = true ↔
      first >>> 4 = 3 ∧ (qosBits first = 0 ∨ qosBits first = 1 ∨ qosBits first = 2) := by
  rw [ofNibble_eq_publish_iff]
  apply and_congr_right
  intro htype
  have hpublish := (ofNibble_eq_publish_iff first).mpr htype
  rw [← validQos_iff, qosBits_eq, flagsAccepted]
  simp only [hpublish, if_true]

namespace PublishMessage

/-- A frame of the grammar is decoded to its parts. -/
theorem decode_of_parts {frame : Frame} {topic id payload : Bytes}
    (hparts : PublishParts frame topic id payload) :
    ∃ this, newPublishMessage.decode (Slice.full frame.bytes) =
      .done this frame.bytes.length := by
  obtain ⟨hpublish, hflags⟩ := publish_accepted_iff.mpr ⟨hparts.type, hparts.qos⟩
  obtain ⟨prefixed, hprefixed, hbody⟩ := hparts.body
  obtain ⟨rfl, hlp⟩ := lengthPrefixed_iff.mp hprefixed
  have hheader : newPublishMessage.toHeader.decode (Slice.full frame.bytes) = _ :=
    frame.decode_header_full (by rw [Frame.mtype, hpublish]; rfl) hpublish.symm hflags
  have hstart : (Slice.full frame.bytes).tail frame.headerLength =
      some ⟨lpBytes topic ++ (id ++ (payload ++ [])), []⟩ := by
    rw [List.append_nil, ← hbody]
    exact frame.tail_full
  rw [decode, hheader, Outcome.map_done, Outcome.done_andThen]
  generalize hstate : newPublishMessage.withHeader _ = state
  have hqos : state.qos = qosBits frame.first := by
    rw [← hstate, qosBits_eq]
    rfl
  have hremlen : state.remlen = (lpBytes topic ++ (id ++ payload)).length := by
    rw [← hstate, ← hbody]
    rfl
  have hid : id.length = if state.qos ≠ 0 then 2 else 0 := by
    rw [hqos, hparts.id]
    simp only [UInt8.pos_iff_ne_zero]
  obtain ⟨this, hdone, -⟩ :=
    decodeFields_eq state hstart hremlen (validTopic_iff.mpr hparts.topic) hlp hid
  rw [hdone, ← hbody, ← frame.length_bytes]
  exact ⟨this, rfl⟩

/-- A frame that is decoded is one of the grammar, and the message has its parts. -/
theorem parts_of_decode {frame : Frame} {this : PublishMessage} {n : ℕ}
    (hdone : newPublishMessage.decode (Slice.full frame.bytes) = .done this n) :
    PublishParts frame this.topic this.packetId this.payload := by
  obtain ⟨header, hn, hheader, hfields⟩ := Outcome.map_andThen_eq_done_iff.mp hdone
  obtain ⟨-, htype, hflags, rfl, rfl⟩ := frame.decode_header_eq_done hheader
  obtain ⟨hnibble, hqos⟩ := publish_accepted_iff.mp ⟨htype.symm, hflags⟩
  obtain ⟨topic, id, payload, hbody, hvalid, hlp, hresult⟩ :=
    decodeFields_eq_done frame.tail_full rfl hfields
  have hprefixed := lengthPrefixed_iff.mpr ⟨rfl, hlp⟩
  have htopic := validTopic_iff.mp hvalid
  have hbits := qosBits_eq frame.first
  rcases hresult with ⟨hne, hid, rfl⟩ | ⟨hzero, rfl, rfl⟩
  · have hpos : 0 < qosBits frame.first := UInt8.pos_iff_ne_zero.mpr (hbits ▸ hne)
    exact ⟨hnibble, hqos, ⟨_, hprefixed, hbody⟩, htopic, by rw [if_pos hpos]; exact hid⟩
  · have hnot : ¬ 0 < qosBits frame.first := by
      rw [UInt8.pos_iff_ne_zero, not_not, hbits]
      exact hzero
    exact ⟨hnibble, hqos, ⟨_, hprefixed, hbody⟩, htopic, by rw [if_neg hnot]; rfl⟩

/-- `Decode` accepts exactly the frames of the grammar, reads all of the frame, and
returns its parts. -/
theorem decode_iff_grammar (frame : Frame) :
    ((∃ this n, newPublishMessage.decode (Slice.full frame.bytes) = .done this n) ↔
        ∃ topic id payload, PublishParts frame topic id payload) ∧
      ∀ this n, newPublishMessage.decode (Slice.full frame.bytes) = .done this n →
        n = frame.bytes.length ∧
          PublishParts frame this.topic this.packetId this.payload := by
  constructor
  · constructor
    · rintro ⟨this, n, hdone⟩
      exact ⟨_, _, _, parts_of_decode hdone⟩
    · rintro ⟨topic, id, payload, hparts⟩
      obtain ⟨this, hdone⟩ := decode_of_parts hparts
      exact ⟨this, _, hdone⟩
  · intro this n hdone
    have hparts := parts_of_decode hdone
    obtain ⟨again, hagain⟩ := decode_of_parts hparts
    rw [hdone] at hagain
    injection hagain with _ hcount
    exact ⟨hcount, hparts⟩

end PublishMessage

/-! ## SUBSCRIBE -/

/-- The bytes of a list of entries, each a length-prefixed topic and a QoS byte. -/
inductive EntryList : List (Bytes × Byte) → Bytes → Prop where
  | nil : EntryList [] []
  | cons {topic prefixed rest : Bytes} {qos : Byte} {entries : List (Bytes × Byte)} :
      LengthPrefixed topic prefixed → EntryList entries rest →
        EntryList ((topic, qos) :: entries) (prefixed ++ qos :: rest)

theorem EntryList.eq_entriesBytes {entries : List (Bytes × Byte)} {bytes : Bytes}
    (hlist : EntryList entries bytes) :
    bytes = SubscribeMessage.entriesBytes entries ∧
      ∀ entry ∈ entries, entry.1.length ≤ maxLPString := by
  induction hlist with
  | nil => exact ⟨rfl, fun entry hentry => absurd hentry List.not_mem_nil⟩
  | cons hprefixed _ ih =>
      obtain ⟨rfl, hlp⟩ := lengthPrefixed_iff.mp hprefixed
      obtain ⟨rfl, hall⟩ := ih
      exact ⟨rfl, List.forall_mem_cons.mpr ⟨hlp, hall⟩⟩

/-- The frame is a SUBSCRIBE of these parts, whatever the QoS bytes are. -/
structure SubscribeParts (frame : Frame) (id : Bytes) (entries : List (Bytes × Byte)) :
    Prop where
  first : frame.first = 0x82
  body : ∃ listed, EntryList entries listed ∧ frame.body = id ++ listed
  packetId : id.length = 2
  nonempty : entries ≠ []

theorem subscribe_accepted_iff : ∀ first : Byte,
    MessageType.ofNibble (first >>> 4) = .subscribe ∧ flagsAccepted first = true ↔
      first = 0x82 := by
  decide +kernel

namespace SubscribeMessage

/-- A frame of these parts is decoded to them. -/
theorem decode_of_parts {frame : Frame} {id : Bytes} {entries : List (Bytes × Byte)}
    (hparts : SubscribeParts frame id entries) :
    ∃ this, newSubscribeMessage.decode (Slice.full frame.bytes) =
        .done this frame.bytes.length ∧
      this.packetId = id ∧ this.topics = entries.map Prod.fst ∧
      this.qos = entries.map Prod.snd := by
  obtain ⟨hsubscribe, hflags⟩ := (subscribe_accepted_iff _).mpr hparts.first
  obtain ⟨listed, hlist, hbody⟩ := hparts.body
  obtain ⟨rfl, hlp⟩ := hlist.eq_entriesBytes
  have hid := hparts.packetId
  have hheader : newSubscribeMessage.toHeader.decode (Slice.full frame.bytes) = _ :=
    frame.decode_header_full (by rw [Frame.mtype, hsubscribe]; rfl) hsubscribe.symm hflags
  have hstart := frame.tail_full
  rw [hbody] at hstart
  have hbehind := Slice.tail_add hstart
  rw [hid, ← List.append_nil (entriesBytes entries)] at hbehind
  have hrest := frame.counter_of_body hbody hid
  have hcount : frame.headerLength + 2 + (entriesBytes entries).length =
      frame.bytes.length := by
    rw [frame.length_bytes, hbody, List.length_append, hid, add_assoc]
  rw [decode, hheader, Outcome.map_done, Outcome.done_andThen,
    Header.readPacketId_of_tail hstart hid, Outcome.map_done, Outcome.done_andThen]
  simp only [withHeader, Header.received, hrest, Int.toNat_natCast]
  rw [decodeTopics_eq hlp hbehind le_rfl, Outcome.done_andThen,
    if_neg (by simpa [newSubscribeMessage] using hparts.nonempty), hcount]
  exact ⟨_, rfl, rfl, rfl, rfl⟩

/-- The loop ends without an error only behind a list of entries. -/
theorem decodeTopics_eq_done {src : Slice} {rounds total n : ℕ}
    {this result : SubscribeMessage} {rest : Bytes} (htail : src.tail total = some ⟨rest, []⟩)
    (hrounds : rest.length ≤ rounds)
    (hdone : decodeTopics src rounds rest.length this total = .done result n) :
    ∃ entries, EntryList entries rest ∧
      result.topics = this.topics ++ entries.map Prod.fst := by
  induction rounds generalizing this total rest with
  | zero =>
      obtain rfl := List.eq_nil_of_length_eq_zero (Nat.le_zero.mp hrounds)
      rw [decodeTopics] at hdone
      injection hdone with hresult
      exact ⟨[], .nil, by rw [← hresult, List.map_nil, List.append_nil]⟩
  | succ rounds ih =>
      rw [decodeTopics] at hdone
      split_ifs at hdone with hmore
      · obtain ⟨topic, after, hsplit, hdone⟩ := readLPThen_eq_done htail hdone
        obtain ⟨rfl, hlp⟩ := lpSplit_eq_some hsplit
        have hbehind := Slice.tail_add htail
        cases after with
        | nil =>
            rw [readByteField, Slice.getElem?_of_tail hbehind] at hdone
            simp at hdone
        | cons qos last =>
            rw [readByteField_cons hbehind, Outcome.done_andThen] at hdone
            have hcounter : ((lpBytes topic ++ qos :: last).length : ℤ) -
                (((total + (lpBytes topic).length : ℕ) : ℤ) - total) - 1 = last.length := by
              simp only [List.length_append, List.length_cons]
              omega
            rw [hcounter] at hdone
            simp only [List.length_append, List.length_cons] at hrounds
            obtain ⟨entries, hlist, htopics⟩ :=
              ih (Slice.tail_succ hbehind) (by omega) hdone
            refine ⟨(topic, qos) :: entries,
              .cons (lengthPrefixed_iff.mpr ⟨rfl, hlp⟩) hlist, ?_⟩
            rw [htopics, List.map_cons, List.append_assoc]
            rfl
      · obtain rfl : rest = [] := by
          rw [← List.length_eq_zero_iff]
          omega
        injection hdone with hresult
        exact ⟨[], .nil, by rw [← hresult, List.map_nil, List.append_nil]⟩

theorem parts_of_decode {frame : Frame} {this : SubscribeMessage} {n : ℕ}
    (hdone : newSubscribeMessage.decode (Slice.full frame.bytes) = .done this n) :
    ∃ id entries, SubscribeParts frame id entries := by
  obtain ⟨header, hn, hheader, hdone⟩ := Outcome.map_andThen_eq_done_iff.mp hdone
  obtain ⟨-, htype, hflags, rfl, rfl⟩ := frame.decode_header_eq_done hheader
  obtain ⟨header, total, hheader, hdone⟩ := Outcome.map_andThen_eq_done_iff.mp hdone
  obtain ⟨id, rest, hbody, hid, rfl, rfl⟩ :=
    Header.readPacketId_eq_done frame.tail_full hheader
  have htail := frame.tail_full
  rw [hbody] at htail
  have hbehind := Slice.tail_add htail
  rw [hid] at hbehind
  have hrest := frame.counter_of_body hbody hid
  simp only [withHeader, Header.received, hrest, Int.toNat_natCast] at hdone
  obtain ⟨filled, count, hloop, hdone⟩ := Outcome.andThen_eq_done_iff.mp hdone
  obtain ⟨entries, hlist, htopics⟩ := decodeTopics_eq_done hbehind le_rfl hloop
  split_ifs at hdone with hempty
  refine ⟨id, entries, (subscribe_accepted_iff _).mp ⟨htype.symm, hflags⟩,
    ⟨rest, hlist, hbody⟩, hid, ?_⟩
  rintro rfl
  rw [htopics] at hempty
  exact hempty rfl

/-- The parts of a frame are determined by it. -/
theorem parts_unique {frame : Frame} {id id' : Bytes} {entries entries' : List (Bytes × Byte)}
    (hparts : SubscribeParts frame id entries) (hparts' : SubscribeParts frame id' entries') :
    entries = entries' := by
  obtain ⟨this, hdone, -, htopics, hqos⟩ := decode_of_parts hparts
  obtain ⟨this', hdone', -, htopics', hqos'⟩ := decode_of_parts hparts'
  rw [hdone] at hdone'
  injection hdone' with hthis
  rw [← List.zip_unzip entries, ← List.zip_unzip entries', List.unzip_eq_map,
    List.unzip_eq_map, ← htopics, ← hqos, ← htopics', ← hqos', hthis]

/-- The property of the decoder for one frame: it accepts the frame if and only if it is
one of the grammar, whose QoS bytes are at most 2, and then lists the entries in order. -/
def DecodesGrammar (frame : Frame) : Prop :=
  ((∃ this n, newSubscribeMessage.decode (Slice.full frame.bytes) = .done this n) ↔
      ∃ id entries, SubscribeParts frame id entries ∧ ∀ entry ∈ entries, entry.2 ≤ 2) ∧
    ∀ this n, newSubscribeMessage.decode (Slice.full frame.bytes) = .done this n →
      n = frame.bytes.length ∧ this.topics.length = this.qos.length ∧
        ∃ id entries, SubscribeParts frame id entries ∧ this.packetId = id ∧
          this.topics = entries.map Prod.fst ∧ this.qos = entries.map Prod.snd

/-- What the decoder returns for a frame it accepts. -/
theorem lists_of_decode {frame : Frame} {this : SubscribeMessage} {n : ℕ}
    (hdone : newSubscribeMessage.decode (Slice.full frame.bytes) = .done this n) :
    n = frame.bytes.length ∧ this.topics.length = this.qos.length ∧
      ∃ id entries, SubscribeParts frame id entries ∧ this.packetId = id ∧
        this.topics = entries.map Prod.fst ∧ this.qos = entries.map Prod.snd := by
  obtain ⟨id, entries, hparts⟩ := parts_of_decode hdone
  obtain ⟨again, hagain, hid, htopics, hqos⟩ := decode_of_parts hparts
  rw [hdone] at hagain
  injection hagain with hthis hcount
  subst hthis
  refine ⟨hcount, ?_, id, entries, hparts, hid, htopics, hqos⟩
  rw [htopics, hqos, List.length_map, List.length_map]

/-- A SUBSCRIBE with a QoS byte that is no QoS is accepted like any other. -/
theorem not_decodesGrammar {frame : Frame} {id : Bytes} {entries : List (Bytes × Byte)}
    (hparts : SubscribeParts frame id entries) {entry : Bytes × Byte} (hentry : entry ∈ entries)
    (hlarge : 2 < entry.2) : ¬ DecodesGrammar frame := by
  rintro ⟨hiff, -⟩
  obtain ⟨this, hdone, -⟩ := decode_of_parts hparts
  obtain ⟨id', entries', hparts', hsmall⟩ := hiff.mp ⟨this, _, hdone⟩
  rw [parts_unique hparts hparts'] at hentry
  exact absurd (hsmall entry hentry) (UInt8.not_le.mpr hlarge)

/-- The decoder and the grammar agree on a frame unless it is a SUBSCRIBE with a QoS byte
that is no QoS. -/
theorem decodesGrammar_iff (frame : Frame) :
    DecodesGrammar frame ↔
      ¬ ∃ id entries, SubscribeParts frame id entries ∧ ∃ entry ∈ entries, 2 < entry.2 := by
  constructor
  · rintro hagrees ⟨id, entries, hparts, entry, hentry, hlarge⟩
    exact not_decodesGrammar hparts hentry hlarge hagrees
  · intro hnone
    refine ⟨⟨?_, ?_⟩, fun this n hdone => lists_of_decode hdone⟩
    · rintro ⟨this, n, hdone⟩
      obtain ⟨id, entries, hparts⟩ := parts_of_decode hdone
      refine ⟨id, entries, hparts, fun entry hentry => ?_⟩
      apply UInt8.not_lt.mp
      intro hlarge
      exact hnone ⟨id, entries, hparts, entry, hentry, hlarge⟩
    · rintro ⟨id, entries, hparts, -⟩
      obtain ⟨this, hdone, -⟩ := decode_of_parts hparts
      exact ⟨this, _, hdone⟩

/-- SUBSCRIBE to `a` with QoS 3. -/
def subscribeQos3 : Frame := .brief 0x82 [0x00, 0x01, 0x00, 0x01, 0x61, 0x03]

theorem decode_accepts_qos3 :
    (newSubscribeMessage.decode (Slice.full subscribeQos3.bytes)).map
        (fun this => (this.topics, this.qos)) = .done ([[0x61]], [0x03]) 8 ∧
      ¬ DecodesGrammar subscribeQos3 := by
  have hlist : EntryList [([0x61], 0x03)] [0x00, 0x01, 0x61, 0x03] :=
    .cons ⟨0x00, 0x01, rfl, rfl⟩ .nil
  have hparts : SubscribeParts subscribeQos3 [0x00, 0x01] [([0x61], 0x03)] :=
    ⟨rfl, ⟨_, hlist, rfl⟩, rfl, List.cons_ne_nil _ _⟩
  have hlarge : (2 : Byte) < 0x03 := by decide
  exact ⟨by decide +kernel, not_decodesGrammar hparts (List.mem_singleton.mpr rfl) hlarge⟩

end SubscribeMessage

end Xmqtt.Message
