import Xmqtt.Message.DecodeSafety
import Xmqtt.Message.EncodedFrame

/-!
# Messages in reused buffers

An ack queue encodes a message into a buffer that is longer than the message
and still holds what was there before, and later decodes the whole buffer.
-/

namespace Xmqtt.Message

open Xmqtt.Go

theorem lift_eq_done_iff {μ : Type} {wrap : μ → Xmqtt.Message}
    {outcome : Outcome Err (Encoded μ)} {state : Encoded Xmqtt.Message} {n : ℕ} :
    lift wrap outcome = .done state n ↔
      ∃ inner, outcome = .done inner n ∧ state = ⟨wrap inner.this, inner.dst, inner.gPacketId⟩ := by
  cases outcome with
  | panic => simp [lift]
  | fail inner count err => simp [lift]
  | done inner count => simp [lift, eq_comm, and_comm]

theorem exists_done_lift_iff {μ : Type} {wrap : μ → Xmqtt.Message}
    {outcome : Outcome Err (Encoded μ)} :
    (∃ state n, Xmqtt.Message.lift wrap outcome = .done state n) ↔
      ∃ state n, outcome = .done state n := by
  constructor
  · rintro ⟨state, n, hlift⟩
    obtain ⟨inner, hinner, -⟩ := lift_eq_done_iff.mp hlift
    exact ⟨inner, n, hinner⟩
  · rintro ⟨inner, n, hinner⟩
    exact ⟨_, n, lift_eq_done_iff.mpr ⟨inner, hinner, rfl⟩⟩

theorem readLPThen_eq_done {σ : Type} {src : Slice} {total n : ℕ} {rest : Bytes}
    {failed : Bytes → σ} {next : Bytes → ℕ → Outcome Err σ} {result : σ}
    (htail : src.tail total = some ⟨rest, []⟩)
    (hdone : readLPThen src failed total next = .done result n) :
    ∃ field after, lpSplit rest = some (field, after) ∧
      next field (total + (lpBytes field).length) = .done result n := by
  rw [readLPThen, htail] at hdone
  cases hread : readLPBytes ⟨rest, []⟩ with
  | panic | fail field count err => simp [hread] at hdone
  | done field count =>
      obtain ⟨after, hsplit, rfl⟩ := readLPBytes_eq_done_iff.mp hread
      simp only [hread] at hdone
      exact ⟨field, after, hsplit, by rw [length_lpBytes]; exact hdone⟩

theorem readLPField_eq_done {σ : Type} {src : Slice} {total n : ℕ} {rest : Bytes}
    {set : σ → Bytes → σ} {this result : σ} (htail : src.tail total = some ⟨rest, []⟩)
    (hdone : readLPField src set this total = .done result n) :
    ∃ field after, lpSplit rest = some (field, after) ∧ result = set this field ∧
      n = total + (lpBytes field).length := by
  obtain ⟨field, after, hsplit, hnext⟩ := readLPThen_eq_done htail hdone
  injection hnext with hresult hcount
  exact ⟨field, after, hsplit, hresult.symm, hcount.symm⟩

theorem Header.readPacketId_eq_done {this result : Header} {src : Slice} {total n : ℕ}
    {rest : Bytes} (htail : src.tail total = some ⟨rest, []⟩)
    (hdone : this.readPacketId src total = .done result n) :
    ∃ id after, rest = id ++ after ∧ id.length = 2 ∧ n = total + 2 ∧
      result = { this with packetId := id, packetIdAt := some total } := by
  match rest with
  | high :: low :: after =>
      have hid : src.tail total = some ⟨[high, low] ++ after, []⟩ := htail
      rw [readPacketId_of_tail hid rfl] at hdone
      injection hdone with hresult hcount
      exact ⟨[high, low], after, rfl, rfl, hcount.symm, hresult.symm⟩
  | [_] | [] =>
      rw [readPacketId, Slice.window_of_tail htail] at hdone
      simp [Slice.window, Slice.cap] at hdone

/-- A header that is decoded from a frame without an error. -/
theorem Frame.decode_header_eq_done (frame : Frame) {this result : Header} {n : ℕ}
    (hdone : this.decode (Slice.full frame.bytes) = .done result n) :
    frame.mtype.valid = true ∧ this.type = frame.mtype ∧ flagsAccepted frame.first = true ∧
      result = this.received (Slice.full frame.bytes) frame.first frame.body.length ∧
      n = frame.headerLength := by
  have hfull : Slice.full frame.bytes = ⟨frame.bytes ++ [], []⟩ := by
    rw [List.append_nil]
    rfl
  rw [hfull] at hdone ⊢
  cases hcheck : (this.adopt ⟨frame.bytes ++ [], []⟩ frame.first).checkType this.type with
  | some err =>
      rw [Header.decode, frame.cells_eq] at hdone
      simp only [hcheck, reduceCtorEq] at hdone
  | none =>
      obtain ⟨hvalid, htype, hflags⟩ := (frame.checkType_adopt_eq_none_iff this _).mp hcheck
      rw [frame.decode_header_of_accepted hvalid htype hflags] at hdone
      injection hdone with hresult hcount
      exact ⟨hvalid, htype, hflags, hresult.symm, hcount.symm⟩

namespace PublishMessage

/-- `Encode` accepts the message, given a buffer of `Len` bytes. -/
def encodes (this : PublishMessage) : Bool :=
  !this.dirty ||
    (this.topic.length ≠ 0 && this.payload.length ≠ 0 && this.topic.length ≤ maxLPString &&
      this.type.valid && 0 ≤ int32 this.msglen && int32 this.msglen ≤ maxRemainingLength)

theorem len_of_clean {this : PublishMessage} (hclean : this.dirty = false) :
    this.len = (this, this.dbuf.bytes.length) := by
  rw [len, Header.lenOf, hclean]
  rfl

theorem len_of_dirty {this : PublishMessage} (hdirty : this.dirty = true)
    (hremlen : 0 ≤ int32 this.msglen ∧ int32 this.msglen ≤ maxRemainingLength) :
    this.len = (this.withHeader (this.sized this.msglen),
      (this.sized this.msglen).msglen + this.msglen) := by
  rw [len, Header.lenOf, hdirty, Header.setRemainingLength_int32 hremlen]
  rfl

theorem len_of_not {this : PublishMessage} (hdirty : this.dirty = true)
    (hremlen : ¬ (0 ≤ int32 this.msglen ∧ int32 this.msglen ≤ maxRemainingLength)) :
    this.len = (this, 0) := by
  obtain ⟨err, herr⟩ := this.toHeader.setRemainingLength_of_not hremlen
  rw [len, Header.lenOf, hdirty, herr]
  rfl

/-- What `encodes` says of a changed message. -/
theorem encodes_iff_encodable {this : PublishMessage} (hdirty : this.dirty = true)
    {dst : Bytes} (hdst : this.len.2 ≤ dst.length) :
    this.encodes = true ↔ this.Encodable dst := by
  rw [encodes, hdirty]
  constructor
  · intro hencodes
    simp only [Bool.not_true, Bool.false_or, Bool.and_eq_true, decide_eq_true_eq] at hencodes
    obtain ⟨⟨⟨⟨⟨htopic, hpayload⟩, hlp⟩, htype⟩, hlow⟩, hhigh⟩ := hencodes
    rw [len_of_dirty hdirty ⟨hlow, hhigh⟩] at hdst
    exact ⟨htopic, hpayload, hlp, htype, ⟨hlow, hhigh⟩, hdst⟩
  · intro hable
    simp [hable.topic, hable.payload, hable.lpTopic, hable.type, hable.remlen]

/-- The bytes that `Len` and `Encode` put at the front of a buffer. -/
def stored (this : PublishMessage) (gPacketId : UInt64) : Bytes :=
  if this.dirty then (this.sized this.msglen).wire ++ (this.sent gPacketId).body
  else this.dbuf.bytes

theorem Encodable.afterLen {this : PublishMessage} {dst : Bytes} (hable : this.Encodable dst) :
    (this.withHeader (this.sized this.msglen)).Encodable dst :=
  ⟨hable.topic, hable.payload, hable.lpTopic, hable.type, hable.remlen, hable.fits⟩

/-- `Len` and then `Encode` into a buffer of at least that length. -/
theorem encode_len {this : PublishMessage} (hencodes : this.encodes = true) {dst : Bytes}
    (hdst : this.len.2 ≤ dst.length) (gPacketId : UInt64) :
    ∃ message counter n, this.len.1.encode dst gPacketId =
        .done ⟨message, this.stored gPacketId ++ dst.drop (this.stored gPacketId).length,
          counter⟩ n ∧
      (this.stored gPacketId).length ≤ dst.length := by
  by_cases hdirty : this.dirty = true
  · have hable := (encodes_iff_encodable hdirty hdst).mp hencodes
    have hlength : (this.stored gPacketId).length =
        (this.sized this.msglen).msglen + this.msglen := by
      rw [stored, if_pos hdirty, List.length_append, hable.length_wire, length_body_sent]
    rw [len_of_dirty hdirty hable.remlen, hlength,
      encode_of_encodable rfl hable.afterLen gPacketId]
    rw [stored, if_pos hdirty]
    exact ⟨_, _, _, rfl, hable.fits⟩
  · have hclean := Bool.eq_false_of_not_eq_true hdirty
    rw [len_of_clean hclean] at hdst ⊢
    rw [encode, if_pos (by rw [hclean]; rfl), encodeClean, if_neg (not_lt.mpr hdst), stored,
      if_neg hdirty]
    exact ⟨_, _, _, rfl, hdst⟩

/-- Whether `Encode` accepts a message does not depend on what is in the buffer. -/
theorem encode_len_done_iff (this : PublishMessage) {dst : Bytes}
    (hdst : this.len.2 ≤ dst.length) (gPacketId : UInt64) :
    (∃ state n, this.len.1.encode dst gPacketId = .done state n) ↔ this.encodes = true := by
  constructor
  · rintro ⟨state, n, hdone⟩
    by_cases hdirty : this.dirty = true
    · rw [encodes_iff_encodable hdirty hdst]
      by_cases hremlen : 0 ≤ int32 this.msglen ∧ int32 this.msglen ≤ maxRemainingLength
      · rw [len_of_dirty hdirty hremlen] at hdone
        obtain ⟨htopic, hpayload, hlp, htype, hremlen, hfits⟩ :=
          encodable_of_encode_eq_done rfl hdone
        exact ⟨htopic, hpayload, hlp, htype, hremlen, hfits⟩
      · rw [len_of_not hdirty hremlen] at hdone
        exact encodable_of_encode_eq_done hdirty hdone
    · simp [encodes, hdirty]
  · intro hencodes
    obtain ⟨message, counter, n, hdone, -⟩ := encode_len hencodes hdst gPacketId
    exact ⟨_, n, hdone⟩

/-! ## A PUBLISH decoded from a frame -/

theorem decodePayload_eq_done {this result : PublishMessage} {src : Slice} {hn total n : ℕ}
    {rest : Bytes} (htail : src.tail total = some ⟨rest, []⟩)
    (hremlen : this.remlen - ((total : ℤ) - hn) = rest.length)
    (hdone : decodePayload src hn this total = .done result n) :
    result = { this with payload := rest, dirty := false } := by
  have hwhole : src.tail total = some ⟨rest ++ [], []⟩ := by rwa [List.append_nil]
  rw [decodePayload_eq hwhole hremlen] at hdone
  injection hdone with hresult
  exact hresult.symm

/-- A body that is decoded without an error is a topic, a packet id if the QoS asks for
one, and a payload. -/
theorem decodeFields_eq_done {this result : PublishMessage} {src : Slice} {hn n : ℕ}
    {body : Bytes} (htail : src.tail hn = some ⟨body, []⟩)
    (hremlen : this.remlen = body.length)
    (hdone : decodeFields src this hn = .done result n) :
    ∃ topic id payload, body = lpBytes topic ++ (id ++ payload) ∧
      validTopic topic = true ∧ topic.length ≤ maxLPString ∧
      ((this.qos ≠ 0 ∧ id.length = 2 ∧
          result = { this with
            topic := topic, payload := payload, packetId := id
            packetIdAt := some (hn + (lpBytes topic).length), dirty := false }) ∨
        (this.qos = 0 ∧ id = [] ∧
          result = { this with topic := topic, payload := payload, dirty := false })) := by
  rw [decodeFields] at hdone
  obtain ⟨named, count, hread, hdone⟩ := Outcome.andThen_eq_done_iff.mp hdone
  obtain ⟨topic, after, hsplit, hnamed, hcount⟩ := readLPField_eq_done htail hread
  obtain ⟨hbody, hlp⟩ := lpSplit_eq_some hsplit
  rw [hbody] at htail
  have hbehind := Slice.tail_add htail
  obtain ⟨same, count', hvalid, hdone⟩ := Outcome.andThen_eq_done_iff.mp hdone
  rw [Outcome.reject] at hvalid
  split_ifs at hvalid with hinvalid
  injection hvalid with hsame hcount'
  subst hsame hcount' hnamed hcount
  have hvalid : validTopic topic = true := by simpa using hinvalid
  have hqos : ({ this with topic := topic } : PublishMessage).qos = this.qos := rfl
  rw [hqos] at hdone
  by_cases hzero : this.qos ≠ 0
  · rw [if_pos hzero] at hdone
    obtain ⟨header, count, hheader, hdone⟩ := Outcome.map_andThen_eq_done_iff.mp hdone
    obtain ⟨id, rest, rfl, hid, rfl, rfl⟩ := Header.readPacketId_eq_done hbehind hheader
    have hlast := Slice.tail_add hbehind
    rw [hid] at hlast
    refine ⟨topic, id, rest, hbody, hvalid, hlp, Or.inl ⟨hzero, hid, ?_⟩⟩
    refine decodePayload_eq_done hlast ?_ hdone
    simp only [withHeader, hremlen, hbody, List.length_append, hid]
    push_cast
    ring
  · rw [if_neg hzero, Outcome.done_andThen] at hdone
    refine ⟨topic, [], after, hbody, hvalid, hlp, Or.inr ⟨not_not.mp hzero, rfl, ?_⟩⟩
    refine decodePayload_eq_done hbehind ?_ hdone
    simp only [hremlen, hbody, List.length_append]
    push_cast
    ring

/-- A PUBLISH that has not changed since it was decoded from a frame: its fields are
those of the frame.  Only the type byte and the packet id can have been written since,
and they are written in the frame too. -/
structure Mirrors (this : PublishMessage) (frame : Frame) : Prop where
  clean : this.dirty = false
  dbuf : this.dbuf.bytes = frame.bytes
  first : frame.first = this.mtypeflags
  flagsInDbuf : this.flagsInDbuf = true
  type : this.type = .publish
  qos : validQos this.qos = true
  topic : validTopic this.topic = true
  lpTopic : this.topic.length ≤ maxLPString
  body : frame.body = lpBytes this.topic ++ (this.packetId ++ this.payload)
  packetId : this.packetId = [] ∨ this.packetId.length = 2 ∧
    this.packetIdAt = some (frame.headerLength + (lpBytes this.topic).length)

theorem mirrors_of_decode {frame : Frame} {this : PublishMessage} {n : ℕ}
    (hdone : newPublishMessage.decode (Slice.full frame.bytes) = .done this n) :
    this.Mirrors frame := by
  obtain ⟨header, hn, hheader, hfields⟩ := Outcome.map_andThen_eq_done_iff.mp hdone
  obtain ⟨-, htype, hflags, rfl, rfl⟩ := frame.decode_header_eq_done hheader
  have hpublish : MessageType.ofNibble (frame.first >>> 4) = .publish := htype.symm
  have hqos : validQos (((frame.first &&& 0x0f) >>> 1) &&& 0x3) = true := by
    simpa only [flagsAccepted, hpublish, if_true] using hflags
  obtain ⟨topic, id, payload, hbody, hvalid, hlp, hresult⟩ :=
    decodeFields_eq_done frame.tail_full rfl hfields
  rcases hresult with ⟨-, hid, rfl⟩ | ⟨-, rfl, rfl⟩
  · exact ⟨rfl, rfl, rfl, rfl, hpublish, hqos, hvalid, hlp, hbody, Or.inr ⟨hid, rfl⟩⟩
  · exact ⟨rfl, rfl, rfl, rfl, hpublish, hqos, hvalid, hlp, hbody, Or.inl rfl⟩

namespace Mirrors

variable {this : PublishMessage} {frame : Frame}

/-- A setter that only writes the type byte. -/
theorem setMtypeflags (hmirrors : this.Mirrors frame) {byte : Byte}
    (htype : MessageType.ofNibble (byte >>> 4) = .publish)
    (hqos : validQos (((byte &&& 0x0f) >>> 1) &&& 0x3) = true) :
    (this.withHeader (this.setMtypeflags byte)).Mirrors { frame with first := byte } where
  clean := hmirrors.clean
  dbuf := by
    simp only [withHeader, Header.setMtypeflags, hmirrors.flagsInDbuf, if_true, Slice.poke,
      hmirrors.dbuf]
    rfl
  first := rfl
  flagsInDbuf := hmirrors.flagsInDbuf
  type := htype
  qos := hqos
  topic := hmirrors.topic
  lpTopic := hmirrors.lpTopic
  body := hmirrors.body
  packetId := hmirrors.packetId

/-- `SetPacketId` writes a packet id that is already there in place. -/
theorem setPacketId (hmirrors : this.Mirrors frame) (hid : this.packetId.length = 2)
    (high low : Byte) :
    ∃ written, (this.withHeader (this.storePacketId high low)).Mirrors written := by
  obtain ⟨-, hat⟩ : this.packetId.length = 2 ∧ this.packetIdAt =
      some (frame.headerLength + (lpBytes this.topic).length) :=
    hmirrors.packetId.resolve_left fun hnil => by simp [hnil] at hid
  obtain ⟨high', low', hpair⟩ := List.length_eq_two.mp hid
  have hbody := hmirrors.body
  rw [hpair] at hbody
  have hbytes : this.dbuf.bytes =
      (frame.first :: (frame.digits ++ lpBytes this.topic)) ++
        high' :: low' :: this.payload := by
    rw [hmirrors.dbuf, Frame.bytes, hbody]
    simp
  have hfront : (frame.first :: (frame.digits ++ lpBytes this.topic)).length =
      frame.headerLength + (lpBytes this.topic).length := by
    rw [List.length_cons, List.length_append, Frame.headerLength]
    omega
  have hpoke := Slice.bytes_poke_pair hbytes high low
  rw [hfront] at hpoke
  refine ⟨⟨frame.first, frame.digits, lpBytes this.topic ++ ([high, low] ++ this.payload),
    frame.terminated, frame.short, ?_⟩, ?_⟩
  · rw [frame.value_eq, hbody]
    simp
  · constructor
    case clean => exact hmirrors.clean
    case dbuf =>
      simp only [withHeader, Header.storePacketId, hat, hpoke]
      simp [Frame.bytes]
    case first => exact hmirrors.first
    case flagsInDbuf => exact hmirrors.flagsInDbuf
    case type => exact hmirrors.type
    case qos => exact hmirrors.qos
    case topic => exact hmirrors.topic
    case lpTopic => exact hmirrors.lpTopic
    case body => rfl
    case packetId => exact Or.inr ⟨rfl, hat⟩

theorem mtype (hmirrors : this.Mirrors frame) : frame.mtype = .publish := by
  rw [Frame.mtype, hmirrors.first]
  exact hmirrors.type

theorem flagsAccepted (hmirrors : this.Mirrors frame) : flagsAccepted frame.first = true := by
  have hpublish : MessageType.ofNibble (this.mtypeflags >>> 4) = .publish := hmirrors.type
  simp only [hmirrors.first, Message.flagsAccepted, hpublish, if_true]
  exact hmirrors.qos

/-- The frame decodes to the message if it has a packet id just when the QoS asks for
one.  What follows the frame in the buffer is not read. -/
theorem decode_bytes {fresh : PublishMessage} (hfresh : fresh.type = .publish)
    (hmirrors : this.Mirrors frame)
    (hid : this.packetId.length = if this.qos ≠ 0 then 2 else 0) (more spare : Bytes) :
    ∃ decoded n, fresh.decode ⟨this.dbuf.bytes ++ more, spare⟩ = .done decoded n ∧
      decoded.topic = this.topic ∧ decoded.payload = this.payload ∧
      decoded.mtypeflags = this.mtypeflags ∧
      (this.qos ≠ 0 → decoded.packetId = this.packetId) := by
  have htype := hmirrors.mtype
  have hnew : fresh.toHeader.type = frame.mtype := hfresh.trans htype.symm
  have hheader := frame.decode_header_of_accepted (by rw [htype]; rfl) hnew
    hmirrors.flagsAccepted more spare
  have hstart := frame.tail_headerLength more spare
  rw [hmirrors.dbuf]
  generalize Slice.mk (frame.bytes ++ more) spare = src at hheader hstart ⊢
  have hqosSame : (fresh.withHeader (fresh.toHeader.received src frame.first
      frame.body.length)).qos = this.qos := by
    rw [hmirrors.first]
    rfl
  rw [hmirrors.body, List.append_assoc, List.append_assoc] at hstart
  obtain ⟨decoded, hdone, htopic, hpayload, hmtype, hpacketId⟩ :=
    decodeFields_eq (fresh.withHeader
      (fresh.toHeader.received src frame.first frame.body.length)) hstart
      (by rw [← hmirrors.body]; rfl) hmirrors.topic hmirrors.lpTopic
      (by rw [hqosSame, hid])
  refine ⟨decoded, frame.headerLength +
    (lpBytes this.topic ++ (this.packetId ++ this.payload)).length, ?_, htopic, hpayload,
    hmtype.trans hmirrors.first, ?_⟩
  · rw [decode, hheader, Outcome.map_done, Outcome.done_andThen]
    exact hdone
  · rwa [hqosSame] at hpacketId

end Mirrors

/-! ## Every PUBLISH there can be -/

/-- A PUBLISH that was made new or decoded from a frame, and then changed by its setters,
by `Len` and by `Encode`. -/
inductive Made : PublishMessage → Prop
  | new : Made newPublishMessage
  | decode {frame : Frame} {this : PublishMessage} {n : ℕ}
      (hdone : newPublishMessage.decode (Slice.full frame.bytes) = .done this n) : Made this
  | perform {this : PublishMessage} (hmade : Made this) (call : Setter) :
      Made (this.perform call)
  | len {this : PublishMessage} (hmade : Made this) : Made this.len.1
  | encode {this : PublishMessage} {dst : Bytes} {gPacketId : UInt64}
      {state : Encoded PublishMessage} {n : ℕ} (hmade : Made this)
      (hdone : this.encode dst gPacketId = .done state n) : Made state.this

/-- The two states of a PUBLISH: it has changed, or it is still what was decoded. -/
def Coherent (this : PublishMessage) : Prop :=
  (this.Changed ∧ (this.topic = [] ∨ validTopic this.topic = true)) ∨
    ∃ frame, this.Mirrors frame

theorem Mirrors.perform {this : PublishMessage} {frame : Frame}
    (hmirrors : this.Mirrors frame) (call : Setter) : (this.perform call).Coherent := by
  have htype := type_perform hmirrors.type call
  have hqos := validQos_perform hmirrors.qos call
  cases call with
  | dup v | retain v => exact Or.inr ⟨_, hmirrors.setMtypeflags htype hqos⟩
  | qos v =>
      rw [PublishMessage.perform, setQoS] at htype hqos ⊢
      split_ifs at htype hqos ⊢ with hinvalid
      · exact Or.inr ⟨frame, hmirrors⟩
      · exact Or.inr ⟨_, hmirrors.setMtypeflags htype hqos⟩
  | topic v =>
      rw [PublishMessage.perform, setTopic] at htype hqos ⊢
      split_ifs at htype hqos ⊢ with hinvalid
      · exact Or.inr ⟨frame, hmirrors⟩
      · exact Or.inl ⟨⟨rfl, htype, hqos⟩, Or.inr (by simpa using hinvalid)⟩
  | payload v => exact Or.inl ⟨⟨rfl, htype, hqos⟩, Or.inr hmirrors.topic⟩
  | packetId v =>
      rw [PublishMessage.perform, PublishMessage.setPacketId, Header.setPacketId] at htype hqos ⊢
      split_ifs at htype hqos ⊢ with hzero hlength
      · exact Or.inr ⟨frame, hmirrors⟩
      · exact Or.inl ⟨⟨rfl, htype, hqos⟩, Or.inr hmirrors.topic⟩
      · exact Or.inr (hmirrors.setPacketId (not_not.mp hlength) _ _)

theorem topic_perform {this : PublishMessage}
    (htopic : this.topic = [] ∨ validTopic this.topic = true) (call : Setter) :
    (this.perform call).topic = [] ∨ validTopic (this.perform call).topic = true := by
  have hsame : (this.perform call).topic = (this.content.perform call).topic :=
    congrArg Content.topic (content_apply this call)
  rw [hsame]
  cases call with
  | topic v =>
      rw [Content.perform]
      split_ifs with hvalid
      · exact Or.inr hvalid
      · exact htopic
  | dup v | retain v | payload v | qos v | packetId v => exact htopic

theorem Changed.sent {this : PublishMessage} (hchanged : this.Changed)
    (gPacketId : UInt64) : (this.sent gPacketId).Changed where
  dirty := by
    rw [PublishMessage.sent]
    split_ifs
    · exact Header.dirty_ensurePacketId rfl gPacketId
    · rfl
  type := by
    rw [Header.type, mtypeflags_sent]
    exact hchanged.type
  qos := by
    rw [qos_sent]
    exact hchanged.qos

theorem Made.coherent {this : PublishMessage} (hmade : this.Made) : this.Coherent := by
  induction hmade with
  | new => exact Or.inl ⟨changed_newPublishMessage, Or.inl rfl⟩
  | decode hdone => exact Or.inr ⟨_, mirrors_of_decode hdone⟩
  | perform hmade call ih =>
      rcases ih with ⟨hchanged, htopic⟩ | ⟨frame, hmirrors⟩
      · exact Or.inl ⟨hchanged.perform call, topic_perform htopic call⟩
      · exact hmirrors.perform call
  | @len this hmade ih =>
      rcases ih with ⟨hchanged, htopic⟩ | ⟨frame, hmirrors⟩
      · by_cases hremlen : 0 ≤ int32 this.msglen ∧ int32 this.msglen ≤ maxRemainingLength
        · rw [len_of_dirty hchanged.dirty hremlen]
          exact Or.inl ⟨⟨rfl, hchanged.type, hchanged.qos⟩, htopic⟩
        · rw [len_of_not hchanged.dirty hremlen]
          exact Or.inl ⟨hchanged, htopic⟩
      · rw [len_of_clean hmirrors.clean]
        exact Or.inr ⟨frame, hmirrors⟩
  | @encode this dst gPacketId state n hmade hdone ih =>
      rcases ih with ⟨hchanged, htopic⟩ | ⟨frame, hmirrors⟩
      · have hable := encodable_of_encode_eq_done hchanged.dirty hdone
        rw [encode_of_encodable hchanged.dirty hable] at hdone
        injection hdone with hstate
        rw [← hstate]
        exact Or.inl ⟨hchanged.sent gPacketId, htopic⟩
      · rw [PublishMessage.encode, if_pos (by rw [hmirrors.clean]; rfl), encodeClean] at hdone
        split_ifs at hdone
        injection hdone with hstate
        rw [← hstate]
        exact Or.inr ⟨frame, hmirrors⟩

theorem Made.type {this : PublishMessage} (hmade : this.Made) : this.type = .publish := by
  rcases hmade.coherent with ⟨hchanged, -⟩ | ⟨frame, hmirrors⟩
  · exact hchanged.type
  · exact hmirrors.type

theorem content_eq {this that : PublishMessage} (htopic : that.topic = this.topic)
    (hpayload : that.payload = this.payload) (hflags : that.mtypeflags = this.mtypeflags)
    (hpacketId : that.packetId = this.packetId) : that.content = this.content := by
  simp only [content, dup, retain, PublishMessage.qos, Header.flags, Header.packetIdValue,
    htopic, hpayload, hflags, hpacketId]

/-- A PUBLISH that `Encode` accepts is read back from the buffer it was encoded into, whatever
was there before and whatever PUBLISH it is decoded into.  Its length must not wrap around in
`int32`, and unless it has changed its packet id must be there just when the QoS asks for it. -/
theorem Made.decode_stored_into {this fresh : PublishMessage} (hfresh : fresh.type = .publish)
    (hmade : this.Made) (hencodes : this.encodes = true)
    (hid : this.dirty = false → this.packetId.length = if this.qos ≠ 0 then 2 else 0)
    (hsize : this.msglen < 4294967296) (gPacketId : UInt64) (more spare : Bytes) :
    ∃ decoded n, fresh.decode ⟨this.stored gPacketId ++ more, spare⟩ = .done decoded n ∧
      decoded.topic = this.topic ∧ decoded.payload = this.payload ∧
      decoded.mtypeflags = this.mtypeflags ∧
      (this.qos ≠ 0 → decoded.packetId =
        if this.dirty then (this.sent gPacketId).packetId else this.packetId) := by
  rcases hmade.coherent with ⟨hchanged, htopic⟩ | ⟨frame, hmirrors⟩
  · have hable := (encodes_iff_encodable hchanged.dirty
      (le_of_eq (List.length_replicate (n := this.len.2) (a := (0 : Byte))).symm)).mp hencodes
    have hvalid : validTopic this.topic = true := htopic.resolve_left fun hnil =>
      hable.topic (by rw [hnil]; rfl)
    have hint := int32_of_nonneg hsize hable.remlen.1
    obtain ⟨decoded, hdone, hfields⟩ := decode_sent hfresh hchanged.type hchanged.flagsAccepted
      hvalid hable.lpTopic hint hable.remlen.2 gPacketId more spare
    rw [stored, if_pos hchanged.dirty, if_pos hchanged.dirty]
    exact ⟨decoded, _, hdone, hfields⟩
  · have hclean : ¬ this.dirty = true := by simp [hmirrors.clean]
    rw [stored, if_neg hclean, if_neg hclean]
    exact hmirrors.decode_bytes hfresh (hid hmirrors.clean) more spare

/-- With a packet id of its own all of it is read back. -/
theorem Made.decode_stored {this : PublishMessage} (hmade : this.Made)
    (hencodes : this.encodes = true) (hqos : this.qos ≠ 0) (hid : this.packetIdValue ≠ 0)
    (hsize : this.msglen < 4294967296) (gPacketId : UInt64) (more spare : Bytes) :
    ∃ decoded n, newPublishMessage.decode ⟨this.stored gPacketId ++ more, spare⟩ =
        .done decoded n ∧ decoded.content = this.content := by
  have hlength : this.packetId.length = if this.qos ≠ 0 then 2 else 0 := by
    rw [if_pos hqos]
    exact Header.length_packetId_of_value_ne_zero hid
  obtain ⟨decoded, n, hdone, htopic, hpayload, hflags, hpacketId⟩ :=
    hmade.decode_stored_into (show newPublishMessage.type = .publish from rfl) hencodes
      (fun _ => hlength) hsize gPacketId more spare
  have hsent : (this.sent gPacketId).packetId = this.packetId := by
    rw [sent, if_pos hqos, Header.ensurePacketId_sized hid]
    rfl
  rw [hsent, ite_self] at hpacketId
  exact ⟨decoded, n, hdone, content_eq htopic hpayload hflags (hpacketId hqos)⟩

/-- Behind the topic `Decode` ends or panics, and it keeps the header and the topic. -/
theorem decodeFields_lpBytes (this : PublishMessage) {src : Slice} {hn : ℕ}
    {topic rest spare : Bytes} (hstart : src.tail hn = some ⟨lpBytes topic ++ rest, spare⟩)
    (hvalid : validTopic topic = true) (hlp : topic.length ≤ maxLPString) :
    decodeFields src this hn = .panic ∨
      ∃ decoded n, decodeFields src this hn = .done decoded n ∧
        decoded.mtypeflags = this.mtypeflags ∧ decoded.dbuf = this.dbuf ∧
        decoded.topic = topic := by
  rw [decodeFields, readLPField_lpBytes hstart hlp, Outcome.done_andThen, hvalid,
    Bool.not_true, Outcome.reject_false, Outcome.done_andThen]
  have hpayload : ∀ (named : PublishMessage) (total : ℕ),
      decodePayload src hn named total = .panic ∨
        ∃ decoded n, decodePayload src hn named total = .done decoded n ∧
          decoded.mtypeflags = named.mtypeflags ∧ decoded.dbuf = named.dbuf ∧
          decoded.topic = named.topic := by
    intro named total
    rw [decodePayload]
    cases src.window total (total + (named.remlen - ((total : ℤ) - hn))) with
    | none => exact Or.inl rfl
    | some payload => exact Or.inr ⟨_, _, rfl, rfl, rfl, rfl⟩
  split_ifs
  · cases hid : Header.readPacketId _ src (hn + (lpBytes topic).length) with
    | panic => exact Or.inl rfl
    | fail header count err =>
        rw [Header.readPacketId] at hid
        split at hid <;> cases hid
    | done header count =>
        rw [Header.readPacketId] at hid
        split at hid
        · cases hid
        · cases hid
          exact hpayload _ _
  · exact hpayload _ _

/-- What is stored begins with a frame, and this with the topic. -/
theorem Made.exists_frame {this : PublishMessage} (hmade : this.Made)
    (hencodes : this.encodes = true) (gPacketId : UInt64) (more : Bytes) :
    ∃ (frame : Frame) (behind rest : Bytes),
      this.stored gPacketId ++ more = frame.bytes ++ behind ∧ frame.mtype = .publish ∧
      flagsAccepted frame.first = true ∧ frame.body ++ behind = lpBytes this.topic ++ rest ∧
      validTopic this.topic = true ∧ this.topic.length ≤ maxLPString := by
  rcases hmade.coherent with ⟨hchanged, htopic⟩ | ⟨frame, hmirrors⟩
  · have hable := (encodes_iff_encodable hchanged.dirty
      (le_of_eq (List.length_replicate (n := this.len.2) (a := (0 : Byte))).symm)).mp hencodes
    have hvalid : validTopic this.topic = true := htopic.resolve_left fun hnil =>
      hable.topic (by rw [hnil]; rfl)
    -- The length field says as much or less than what is there.
    have hwhole := int32_le this.msglen
    have hnonneg := hable.remlen.1
    have hlength : (this.sized this.msglen).remlen =
        ((this.sent gPacketId).body.take (int32 this.msglen).toNat).length := by
      rw [List.length_take_of_le (by rw [length_body_sent]; omega)]
      exact (Int.toNat_of_nonneg hnonneg).symm
    have hbound : (this.sized this.msglen).remlen ≤ maxRemainingLength := hable.remlen.2
    refine ⟨.ofHeader _ _ hlength hbound,
      (this.sent gPacketId).body.drop (int32 this.msglen).toNat ++ more,
      ((if this.qos ≠ 0 then (this.sent gPacketId).packetId else []) ++ this.payload) ++ more,
      ?_, hchanged.type, hchanged.flagsAccepted, ?_, hvalid, hable.lpTopic⟩
    · rw [stored, if_pos hchanged.dirty, Frame.bytes_ofHeader]
      simp only [List.append_assoc]
      rw [← List.append_assoc (List.take _ _), List.take_append_drop]
    · change List.take _ _ ++ _ = _
      rw [← List.append_assoc, List.take_append_drop, body_sent, List.append_assoc]
  · refine ⟨frame, more, this.packetId ++ this.payload ++ more, ?_, hmirrors.mtype,
      hmirrors.flagsAccepted, ?_, hmirrors.topic, hmirrors.lpTopic⟩
    · rw [stored, if_neg (by simp [hmirrors.clean]), hmirrors.dbuf]
    · rw [hmirrors.body, List.append_assoc]

/-- A PUBLISH lies in the bytes it was decoded from, its topic at `pos`. -/
structure LiesIn (this : PublishMessage) (src : Slice) (pos : ℕ) : Prop where
  type : this.type = .publish
  first : src.cells.head? = some this.mtypeflags
  dbuf : this.dbuf = src
  topic : (src.cells.drop pos).take this.topic.length = this.topic

/-- Decoding what is stored does not fail: it panics, or what is decoded lies in the buffer. -/
theorem Made.decode_stored_cases {this fresh : PublishMessage} (hmade : this.Made)
    (hfresh : fresh.type = .publish) (hencodes : this.encodes = true) (gPacketId : UInt64)
    (more spare : Bytes) :
    fresh.decode ⟨this.stored gPacketId ++ more, spare⟩ = .panic ∨
      ∃ decoded n header hn,
        fresh.decode ⟨this.stored gPacketId ++ more, spare⟩ = .done decoded n ∧
        (newHeader .publish).decode ⟨this.stored gPacketId ++ more, spare⟩ =
          .done header hn ∧
        decoded.LiesIn ⟨this.stored gPacketId ++ more, spare⟩ (hn + 2) := by
  obtain ⟨frame, behind, rest, hbytes, htype, hflags, hbody, hvalid, hlp⟩ :=
    hmade.exists_frame hencodes gPacketId more
  rw [hbytes]
  have hknown : frame.mtype.valid = true := by rw [htype]; rfl
  have hheader : ∀ {header : Header}, header.type = .publish → header.decode _ = .done _ _ :=
    fun hpublish => frame.decode_header_of_accepted hknown (hpublish.trans htype.symm) hflags
      behind spare
  have hstart := frame.tail_headerLength behind spare
  rw [hbody] at hstart
  rcases decodeFields_lpBytes (fresh.withHeader (fresh.toHeader.received
    ⟨frame.bytes ++ behind, spare⟩ frame.first frame.body.length)) hstart hvalid hlp with
      hpanic | ⟨decoded, n, hdone, hfirst, hdbuf, htopic⟩
  · refine Or.inl ?_
    rw [PublishMessage.decode, hheader hfresh, Outcome.map_done, Outcome.done_andThen, hpanic]
  · refine Or.inr ⟨decoded, n, _, _, ?_, hheader rfl, ?_, ?_, hdbuf, ?_⟩
    · rw [PublishMessage.decode, hheader hfresh, Outcome.map_done, Outcome.done_andThen, hdone]
    · rw [Header.type, hfirst]
      exact htype
    · rw [hfirst, frame.cells_eq]
      rfl
    · have hcells : (Slice.mk (frame.bytes ++ behind) spare).cells =
          (frame.first :: frame.digits ++ uint16Bytes this.topic.length) ++
            (this.topic ++ (rest ++ spare)) := by
        calc (Slice.mk (frame.bytes ++ behind) spare).cells
            = frame.first :: frame.digits ++ (frame.body ++ behind) ++ spare := by
              simp [frame.cells_eq]
          _ = _ := by
              rw [hbody, lpBytes]
              simp only [List.append_assoc]
      have hlength : frame.headerLength + 2 =
          (frame.first :: frame.digits ++ uint16Bytes this.topic.length).length := by
        simp [Frame.headerLength, uint16Bytes]
        omega
      rw [hcells, hlength, List.drop_left, htopic, List.take_left]

/-! ## A PUBLISH that is refused -/

/-- The remaining length that `Len` and `Encode` compute fits into a fixed header. -/
def HasRemlen (this : PublishMessage) : Prop :=
  0 ≤ int32 this.msglen ∧ int32 this.msglen ≤ maxRemainingLength

/-- `Encode` refuses a changed PUBLISH for its topic or for its length. -/
def Refused (this : PublishMessage) : Prop :=
  this.dirty = true ∧
    (this.topic.length = 0 ∨ maxLPString < this.topic.length ∨ ¬ this.HasRemlen)

/-- A topic that is too long is refused behind the fixed header. -/
def RefusedLate (this : PublishMessage) : Prop :=
  maxLPString < this.topic.length ∧ this.HasRemlen

theorem Made.type_valid {this : PublishMessage} (hmade : this.Made) :
    this.type.valid = true := by
  rw [hmade.type]
  rfl

theorem Made.encodes_of_not_refused {this : PublishMessage} (hmade : this.Made)
    (hpayload : this.payload.length ≠ 0) (hrefused : ¬ this.Refused) : this.encodes = true := by
  by_cases hdirty : this.dirty = true
  · obtain ⟨htopic, hlp, hremlen⟩ : this.topic.length ≠ 0 ∧ this.topic.length ≤ maxLPString ∧
        this.HasRemlen := by
      rw [Refused, and_iff_right hdirty] at hrefused
      simpa only [not_or, not_lt, not_not] using hrefused
    simp [encodes, htopic, hpayload, hlp, hmade.type_valid, hremlen.1, hremlen.2]
  · simp [encodes, hdirty]

/-- What `Encode` has written into a buffer when it refuses a message. -/
structure LeftBy (this : PublishMessage) (dst left : Bytes) : Prop where
  early : ¬ this.RefusedLate → left = dst
  late : this.RefusedLate → (this.sized this.msglen).wire.length ≤ dst.length ∧
    left = (this.sized this.msglen).wire ++ dst.drop (this.sized this.msglen).wire.length

theorem LeftBy.append {this : PublishMessage} {dst left : Bytes} (hleft : this.LeftBy dst left)
    (spare : Bytes) : this.LeftBy (dst ++ spare) (left ++ spare) where
  early hnot := by rw [hleft.early hnot]
  late hlate := by
    obtain ⟨hlength, rfl⟩ := hleft.late hlate
    rw [List.length_append, List.append_assoc, List.drop_append_of_le_length hlength]
    exact ⟨by omega, rfl⟩

theorem Refused.encode {this : PublishMessage} (hrefused : this.Refused)
    (htype : this.type.valid = true) (hpayload : this.payload.length ≠ 0) {dst : Bytes}
    (hdst : this.HasRemlen → (this.sized this.msglen).msglen + this.msglen ≤ dst.length)
    (gPacketId : UInt64) :
    ∃ state n err, this.encode dst gPacketId = .fail state n err ∧
      this.LeftBy dst state.dst := by
  obtain ⟨hdirty, hwhy⟩ := hrefused
  rw [PublishMessage.encode, if_neg (by simp [hdirty]), if_neg hpayload]
  by_cases htopic : this.topic.length = 0
  · rw [if_pos htopic]
    exact ⟨_, _, _, rfl, fun _ => rfl, fun hlate => absurd hlate.1 (by omega)⟩
  · rw [if_neg htopic]
    by_cases hremlen : this.HasRemlen
    · have hlong : maxLPString < this.topic.length :=
        (hwhy.resolve_left htopic).resolve_right (not_not.mpr hremlen)
      have hwire : (this.sized this.msglen).wire.length = (this.sized this.msglen).msglen :=
        Header.length_wire hremlen.1 hremlen.2
      have hheader : emitHeader (this.sized this.msglen)
          ⟨this.withHeader (this.sized this.msglen), dst, gPacketId⟩ = .done _ _ :=
        emitHeader_eq_done_iff.mpr ⟨hremlen, htype, by have := hdst hremlen; omega, rfl, rfl⟩
      rw [Header.setRemainingLength_int32 hremlen]
      simp only
      rw [if_neg (not_lt.mpr (hdst hremlen)), hheader, Outcome.done_andThen, encodeFields,
        emitLP_of_not_fits (fun hfit => absurd hfit.1 (not_le.mpr hlong)), Outcome.fail_andThen]
      refine ⟨_, _, _, rfl, fun hnot => absurd ⟨hlong, hremlen⟩ hnot, fun _ => ?_⟩
      rw [hwire]
      exact ⟨by have := hdst hremlen; omega, rfl⟩
    · obtain ⟨err, herr⟩ := this.toHeader.setRemainingLength_of_not hremlen
      rw [herr]
      exact ⟨_, _, _, rfl, fun _ => rfl, fun hlate => absurd hlate.2 hremlen⟩

/-- The same of `Len` and then `Encode` into a buffer of that length. -/
theorem Refused.encode_len {this : PublishMessage} (hrefused : this.Refused)
    (htype : this.type.valid = true) (hpayload : this.payload.length ≠ 0) {dst : Bytes}
    (hdst : this.len.2 ≤ dst.length) (gPacketId : UInt64) :
    ∃ state n err, this.len.1.encode dst gPacketId = .fail state n err ∧
      this.LeftBy dst state.dst := by
  by_cases hremlen : this.HasRemlen
  · rw [len_of_dirty hrefused.1 hremlen] at hdst ⊢
    have hsized : (this.withHeader (this.sized this.msglen)).Refused := ⟨rfl, hrefused.2⟩
    obtain ⟨state, n, err, hfail, hearly, hlate⟩ :=
      hsized.encode htype hpayload (fun _ => hdst) gPacketId
    exact ⟨state, n, err, hfail, hearly, hlate⟩
  · rw [len_of_not hrefused.1 hremlen]
    exact hrefused.encode htype hpayload (fun h => absurd h hremlen) gPacketId

end PublishMessage

/-! ## Acknowledgements -/

namespace PubackMessage

/-- An acknowledgement of one of the types that are a packet id and nothing else, made new
or decoded from a frame, and then changed by `SetPacketId` and `Len`. -/
inductive Made (mtype : MessageType) : PubackMessage → Prop
  | new : Made mtype ⟨newHeader mtype⟩
  | decode {frame : Frame} {this : PubackMessage} {n : ℕ}
      (hdone : PubackMessage.decode ⟨newHeader mtype⟩ (Slice.full frame.bytes) =
        .done this n) : Made mtype this
  | setPacketId {this : PubackMessage} (hmade : Made mtype this) (v : UInt16) :
      Made mtype (this.setPacketId v)
  | len {this : PubackMessage} (hmade : Made mtype this) : Made mtype this.len.1

/-- An acknowledgement that has changed since it was made or decoded. -/
structure Changed (mtype : MessageType) (this : PubackMessage) : Prop where
  dirty : this.dirty = true
  type : this.type = mtype
  flags : flagsAccepted this.mtypeflags = true
  packetId : this.packetId = [] ∨ this.packetId.length = 2

/-- An acknowledgement that is still what was decoded from a frame. -/
structure Mirrors (mtype : MessageType) (this : PubackMessage) (frame : Frame) : Prop where
  clean : this.dirty = false
  dbuf : this.dbuf.bytes = frame.bytes
  first : frame.first = this.mtypeflags
  type : this.type = mtype
  flags : flagsAccepted this.mtypeflags = true
  body : ∃ rest, frame.body = this.packetId ++ rest
  packetId : this.packetId.length = 2
  packetIdAt : this.packetIdAt = some frame.headerLength

def Coherent (mtype : MessageType) (this : PubackMessage) : Prop :=
  this.Changed mtype ∨ ∃ frame, this.Mirrors mtype frame

theorem mirrors_of_decode {mtype : MessageType} {frame : Frame} {this : PubackMessage} {n : ℕ}
    (hdone : PubackMessage.decode ⟨newHeader mtype⟩ (Slice.full frame.bytes) = .done this n) :
    this.Mirrors mtype frame := by
  obtain ⟨header, hn, hheader, hrest⟩ := Outcome.map_andThen_eq_done_iff.mp hdone
  obtain ⟨-, htype, hflags, rfl, rfl⟩ := frame.decode_header_eq_done hheader
  obtain ⟨header, count, hheader, hrest⟩ := Outcome.map_andThen_eq_done_iff.mp hrest
  obtain ⟨id, after, hbody, hid, -, rfl⟩ :=
    Header.readPacketId_eq_done frame.tail_full hheader
  injection hrest with hthis
  rw [← hthis]
  rw [type_newHeader] at htype
  exact ⟨rfl, rfl, rfl, htype.symm, hflags, ⟨after, hbody⟩, hid, rfl⟩

theorem Changed.setPacketId {mtype : MessageType} {this : PubackMessage}
    (hchanged : this.Changed mtype) (v : UInt16) : (this.setPacketId v).Changed mtype where
  dirty := Header.dirty_setPacketId hchanged.dirty v
  type := by
    rw [Header.type, PubackMessage.setPacketId, withHeader, Header.mtypeflags_setPacketId]
    exact hchanged.type
  flags := by
    rw [PubackMessage.setPacketId, withHeader, Header.mtypeflags_setPacketId]
    exact hchanged.flags
  packetId := by
    by_cases hzero : v = 0
    · rw [PubackMessage.setPacketId, Header.setPacketId, if_pos hzero]
      exact hchanged.packetId
    · exact Or.inr (Header.length_packetId_setPacketId hzero)

theorem Mirrors.storePacketId {mtype : MessageType} {this : PubackMessage} {frame : Frame}
    (hmirrors : this.Mirrors mtype frame) (high low : Byte) :
    ∃ written, (this.withHeader (this.storePacketId high low)).Mirrors mtype written := by
  obtain ⟨high', low', hpair⟩ := List.length_eq_two.mp hmirrors.packetId
  obtain ⟨rest, hbody⟩ := hmirrors.body
  rw [hpair] at hbody
  have hbytes : this.dbuf.bytes = (frame.first :: frame.digits) ++ high' :: low' :: rest := by
    rw [hmirrors.dbuf, Frame.bytes, hbody]
    simp
  have hfront : (frame.first :: frame.digits).length = frame.headerLength := by
    rw [List.length_cons, Frame.headerLength, Nat.add_comm]
  have hpoke := Slice.bytes_poke_pair hbytes high low
  rw [hfront] at hpoke
  refine ⟨⟨frame.first, frame.digits, [high, low] ++ rest, frame.terminated, frame.short, ?_⟩,
    ?_⟩
  · rw [frame.value_eq, hbody]
    simp
  · constructor
    case clean => exact hmirrors.clean
    case dbuf =>
      simp only [withHeader, Header.storePacketId, hmirrors.packetIdAt, hpoke]
      simp [Frame.bytes]
    case first => exact hmirrors.first
    case type => exact hmirrors.type
    case flags => exact hmirrors.flags
    case body => exact ⟨rest, rfl⟩
    case packetId => rfl
    case packetIdAt => exact hmirrors.packetIdAt

theorem len_of_dirty {this : PubackMessage} (hdirty : this.dirty = true) :
    this.len = (⟨this.sized 2⟩, 4) := by
  have hml : (2 : ℕ) ≤ 268435455 := by norm_num
  have hint : int32 2 = 2 := int32_of_lt (by norm_num)
  rw [len, msglen, Header.lenOf_of_le hdirty hml, Header.msglen, Header.remlen_sized, hint]
  rfl

theorem len_of_clean {this : PubackMessage} (hclean : this.dirty = false) :
    this.len = (this, this.dbuf.bytes.length) := by
  rw [len, Header.lenOf, hclean]
  rfl

theorem Made.coherent {mtype : MessageType} {this : PubackMessage} (hmade : Made mtype this) :
    this.Coherent mtype := by
  induction hmade with
  | new =>
      exact Or.inl ⟨rfl, type_newHeader mtype, flagsAccepted_newHeader mtype, Or.inl rfl⟩
  | decode hdone => exact Or.inr ⟨_, mirrors_of_decode hdone⟩
  | @setPacketId this hmade v ih =>
      rcases ih with hchanged | ⟨frame, hmirrors⟩
      · exact Or.inl (hchanged.setPacketId v)
      · rw [PubackMessage.setPacketId, Header.setPacketId]
        split_ifs with hzero hlength
        · exact Or.inr ⟨frame, hmirrors⟩
        · exact absurd hmirrors.packetId hlength
        · exact Or.inr (hmirrors.storePacketId _ _)
  | @len this hmade ih =>
      rcases ih with hchanged | ⟨frame, hmirrors⟩
      · rw [len_of_dirty hchanged.dirty]
        exact Or.inl ⟨rfl, hchanged.type, hchanged.flags, hchanged.packetId⟩
      · rw [len_of_clean hmirrors.clean]
        exact Or.inr ⟨frame, hmirrors⟩

/-- The bytes that `Len` and `Encode` put at the front of a buffer. -/
def stored (this : PubackMessage) : Bytes :=
  if this.dirty then (this.sized 2).wire ++ packetIdOrZero this.packetId
  else this.dbuf.bytes

variable {mtype : MessageType} {this : PubackMessage}

/-- `Len` and then `Encode` into a buffer of at least that length. -/
theorem Made.encode_len (hmade : Made mtype this) (hvalid : mtype.valid = true) {dst : Bytes}
    (hdst : this.len.2 ≤ dst.length) (gPacketId : UInt64) :
    ∃ message counter n, this.len.1.encode dst gPacketId =
        .done ⟨message, this.stored ++ dst.drop this.stored.length, counter⟩ n ∧
      this.stored.length ≤ dst.length := by
  rcases hmade.coherent with hchanged | ⟨frame, hmirrors⟩
  · have hint : int32 2 = 2 := int32_of_lt (by norm_num)
    have hremlen := Header.remlen_bounds (show 2 ≤ 268435455 by norm_num)
    have hmsglen : (this.sized 2).msglen = 2 := by
      rw [Header.msglen, Header.remlen_sized, hint]
      rfl
    rw [len_of_dirty hchanged.dirty] at hdst ⊢
    have htype : (this.sized 2).type.valid = true := by
      rw [Header.type_sized, hchanged.type]
      exact hvalid
    have hlength : (this.sized 2).msglen + 2 ≤ dst.length := by
      rw [hmsglen]
      exact hdst
    have hencode : (⟨this.sized 2⟩ : PubackMessage).encode dst gPacketId = .done _ _ :=
      (encodeBody_writes_eq_done_iff (emitPacketIdOrZero_writes this.packetId)
        (length_packetIdOrZero _).symm).mpr ⟨hlength, hremlen, htype, trivial, hlength, rfl, rfl⟩
    have hstored : this.stored.length = (this.sized 2).msglen + 2 := by
      rw [stored, if_pos hchanged.dirty, List.length_append, length_packetIdOrZero,
        Header.length_wire hremlen.1 hremlen.2]
    rw [hencode, hstored, stored, if_pos hchanged.dirty]
    exact ⟨_, _, _, rfl, hlength⟩
  · rw [len_of_clean hmirrors.clean] at hdst ⊢
    rw [encode, if_pos (by rw [hmirrors.clean]; rfl), encodeClean, if_neg (not_lt.mpr hdst),
      stored, if_neg (by simp [hmirrors.clean])]
    exact ⟨_, _, _, rfl, hdst⟩

/-- The packet id of an acknowledgement is read back from the buffer it was encoded into,
whatever was there before. -/
theorem Made.decode_stored (hmade : Made mtype this) (hvalid : mtype.valid = true)
    (more spare : Bytes) :
    ∃ decoded n, PubackMessage.decode ⟨newHeader mtype⟩ ⟨this.stored ++ more, spare⟩ =
        .done decoded n ∧ decoded.packetIdValue = this.packetIdValue := by
  rcases hmade.coherent with hchanged | ⟨frame, hmirrors⟩
  · have hint : int32 2 = 2 := int32_of_lt (by norm_num)
    have hremlen : (this.sized 2).remlen = (packetIdOrZero this.packetId).length := by
      rw [Header.remlen_sized, hint, length_packetIdOrZero]
      rfl
    have hbound : (this.sized 2).remlen ≤ maxRemainingLength :=
      (Header.remlen_bounds (by norm_num)).2
    have htype : (newHeader mtype).type = (this.sized 2).type := by
      rw [type_newHeader, Header.type_sized, hchanged.type]
    have hheader := Header.decode_wire hremlen hbound more spare htype
      (by rw [← htype, type_newHeader]; exact hvalid) hchanged.flags
    have htail := Header.tail_wire hremlen hbound more spare
    rw [stored, if_pos hchanged.dirty, PubackMessage.decode, hheader, Outcome.map_done,
      Outcome.done_andThen, Header.readPacketId_of_tail htail (length_packetIdOrZero _)]
    refine ⟨_, _, rfl, ?_⟩
    rcases hchanged.packetId with hnil | hlength
    · simp only [withHeader, Header.packetIdValue, hnil]
      rfl
    · obtain ⟨high, low, hpair⟩ := List.length_eq_two.mp hlength
      simp only [withHeader, Header.packetIdValue, hpair]
      rfl
  · obtain ⟨rest, hbody⟩ := hmirrors.body
    have htype : (newHeader mtype).type = frame.mtype := by
      rw [type_newHeader, Frame.mtype, hmirrors.first]
      exact hmirrors.type.symm
    have hheader := frame.decode_header_of_accepted (by rw [← htype, type_newHeader]; exact hvalid)
      htype (by rw [hmirrors.first]; exact hmirrors.flags) more spare
    have htail := frame.tail_headerLength more spare
    rw [hbody, List.append_assoc] at htail
    rw [stored, if_neg (by simp [hmirrors.clean]), hmirrors.dbuf, PubackMessage.decode, hheader,
      Outcome.map_done, Outcome.done_andThen,
      Header.readPacketId_of_tail htail hmirrors.packetId]
    exact ⟨_, _, rfl, rfl⟩

end PubackMessage

/-! ## As messages -/

/-- The types of acknowledgement that are a packet id and nothing else, each with its
constructor. -/
inductive AckKind : MessageType → (PubackMessage → Xmqtt.Message) → Prop
  | puback : AckKind .puback .puback
  | pubrec : AckKind .pubrec .pubrec
  | pubrel : AckKind .pubrel .pubrel
  | pubcomp : AckKind .pubcomp .pubcomp
  | unsuback : AckKind .unsuback .unsuback

namespace AckKind

variable {mtype : MessageType} {wrap : PubackMessage → Xmqtt.Message} {this : PubackMessage}

theorem valid (hkind : AckKind mtype wrap) : mtype.valid = true := by
  cases hkind <;> rfl

theorem new (hkind : AckKind mtype wrap) : mtype.new = .ok (wrap ⟨newHeader mtype⟩) := by
  cases hkind <;> rfl

theorem type (hkind : AckKind mtype wrap) (hmade : this.Made mtype) :
    (wrap this).type = mtype := by
  have htype : this.type = mtype := by
    rcases hmade.coherent with hchanged | ⟨frame, hmirrors⟩
    · exact hchanged.type
    · exact hmirrors.type
  cases hkind <;> exact htype

theorem packetId (hkind : AckKind mtype wrap) : (wrap this).packetId = this.packetIdValue := by
  cases hkind <;> rfl

theorem len (hkind : AckKind mtype wrap) : (wrap this).len = (wrap this.len.1, this.len.2) := by
  cases hkind <;> rfl

theorem encode (hkind : AckKind mtype wrap) (dst : Bytes) (gPacketId : UInt64) :
    (wrap this).encode dst gPacketId = lift wrap (this.encode dst gPacketId) := by
  cases hkind <;> rfl

theorem decode (hkind : AckKind mtype wrap) (src : Slice) :
    (wrap this).decode src = (this.decode src).map wrap := by
  cases hkind <;> rfl

end AckKind

end Xmqtt.Message
