import Xmqtt.Message.Methods
import Xmqtt.Message.ReadBack

/-!
# Reading back an edited SUBSCRIBE or UNSUBSCRIBE

Both start their body with a packet id.  As long as a message counts as
unchanged only these two bytes of its frame are written, and the rest of the
frame is decoded as it was the first time.
-/

namespace Xmqtt.Message

open Xmqtt.Go Xmqtt.Go.Outcome

/-! ## A packet id at the start of the body -/

/-- A header that counts as unchanged.  Its decode buffer is the frame it was decoded
from, but for the packet id. -/
structure Header.Rewritten (frame : Frame) (this : Header) : Prop where
  clean : this.dirty = false
  dbuf : this.dbuf.bytes =
    frame.first :: (frame.digits ++ (this.packetId ++ frame.body.drop 2))
  packetId : this.packetId.length = 2
  packetIdAt : this.packetIdAt = some frame.headerLength

theorem Header.Rewritten.storePacketId {frame : Frame} {this : Header}
    (hrewritten : this.Rewritten frame) (high low : Byte) :
    (this.storePacketId high low).Rewritten frame where
  clean := hrewritten.clean
  dbuf := by
    obtain ⟨high', low', hpair⟩ := List.length_eq_two.mp hrewritten.packetId
    have hbytes : this.dbuf.bytes =
        (frame.first :: frame.digits) ++ high' :: low' :: frame.body.drop 2 := by
      rw [hrewritten.dbuf, hpair]
      simp
    have hfront : (frame.first :: frame.digits).length = frame.headerLength := by
      rw [List.length_cons, Frame.headerLength, Nat.add_comm]
    have hpoke := Slice.bytes_poke_pair hbytes high low
    rw [hfront] at hpoke
    simp only [Header.storePacketId, hrewritten.packetIdAt, hpoke]
    simp
  packetId := rfl
  packetIdAt := hrewritten.packetIdAt

theorem Header.Rewritten.setPacketId {frame : Frame} {this : Header}
    (hrewritten : this.Rewritten frame) (v : UInt16) :
    (this.setPacketId v).Rewritten frame := by
  rw [Header.setPacketId]
  split_ifs with hzero hlength
  · exact hrewritten
  · exact absurd hrewritten.packetId hlength
  · exact hrewritten.storePacketId _ _

/-- The frame with another packet id in its first two bytes. -/
def Frame.withPacketId (frame : Frame) (id : Bytes) (hid : id.length = 2)
    (hbody : 2 ≤ frame.body.length) : Frame where
  first := frame.first
  digits := frame.digits
  body := id ++ frame.body.drop 2
  terminated := frame.terminated
  short := frame.short
  value_eq := by
    rw [frame.value_eq, List.length_append, List.length_drop, hid]
    omega

/-- The two frames are the same behind the packet id. -/
theorem Frame.growsFrom_withPacketId (frame : Frame) {id : Bytes} (hid : id.length = 2)
    (hbody : 2 ≤ frame.body.length) (spare : Bytes) :
    Slice.GrowsFrom (frame.headerLength + 2) (Slice.full frame.bytes)
      ⟨(frame.withPacketId id hid hbody).bytes, spare⟩ := by
  have hsplit : frame.body.take 2 ++ frame.body.drop 2 = frame.body :=
    List.take_append_drop 2 frame.body
  have hstart := frame.tail_full
  rw [← hsplit] at hstart
  have hbehind := Slice.tail_add hstart
  rw [List.length_take_of_le hbody] at hbehind
  have hstart' := (frame.withPacketId id hid hbody).tail_headerLength [] spare
  rw [List.append_nil, List.append_nil] at hstart'
  have hbehind' := Slice.tail_add hstart'
  rw [hid] at hbehind'
  intro rest htail
  rw [hbehind] at htail
  cases htail
  exact ⟨_, hbehind', rfl, List.nil_prefix⟩

/-- A new header once the fixed header and the packet id of a frame have been read. -/
def Frame.marked (frame : Frame) (mtype : MessageType) (id spare : Bytes) : Header :=
  { (newHeader mtype).received ⟨frame.bytes, spare⟩ frame.first frame.body.length with
    packetId := id
    packetIdAt := some frame.headerLength }

section Marked

variable (frame : Frame) {mtype : MessageType} (spare : Bytes)

/-- The start of a decoder that reads a packet id first. -/
theorem Frame.decode_new (hvalid : mtype.valid = true) (htype : frame.mtype = mtype)
    (hflags : flagsAccepted frame.first = true) :
    (newHeader mtype).decode ⟨frame.bytes, spare⟩ =
      .done ((newHeader mtype).received ⟨frame.bytes, spare⟩ frame.first frame.body.length)
        frame.headerLength := by
  have hsame : (newHeader mtype).type = frame.mtype := (type_newHeader mtype).trans htype.symm
  have hdecode := frame.decode_header_of_accepted (htype ▸ hvalid) hsame hflags [] spare
  rwa [List.append_nil] at hdecode

theorem Frame.readPacketId_received (mtype : MessageType) {id rest : Bytes}
    (hbody : frame.body = id ++ rest) (hid : id.length = 2) :
    ((newHeader mtype).received ⟨frame.bytes, spare⟩ frame.first
        frame.body.length).readPacketId ⟨frame.bytes, spare⟩ frame.headerLength =
      .done (frame.marked mtype id spare) (frame.headerLength + 2) := by
  have hstart := frame.tail_headerLength [] spare
  rw [List.append_nil, List.append_nil, hbody] at hstart
  exact Header.readPacketId_of_tail hstart hid

/-- What a header and a packet id were read from without an error, whatever is read behind
them. -/
theorem Frame.body_of_done {μ : Type} {rebuild : Header → μ} {toHeader : μ → Header}
    {named : μ → Header → μ} {next : μ → ℕ → μ → ℕ → Outcome Err μ} {decoded : μ} {n : ℕ}
    (hdone : (((newHeader mtype).decode (Slice.full frame.bytes)).map rebuild).andThen
      (fun this hn => (((toHeader this).readPacketId (Slice.full frame.bytes) hn).map
        (named this)).andThen (next this hn)) = .done decoded n)
    (hheader : ∀ header, toHeader (rebuild header) = header) :
    frame.mtype = mtype ∧ flagsAccepted frame.first = true ∧ 2 ≤ frame.body.length := by
  obtain ⟨header, hn, hreceived, hrest⟩ := Outcome.map_andThen_eq_done_iff.mp hdone
  obtain ⟨this, total, hnamed, -⟩ := Outcome.andThen_eq_done_iff.mp hrest
  obtain ⟨marked, hmarked, -⟩ := Outcome.map_eq_done_iff.mp hnamed
  rw [hheader] at hmarked
  obtain ⟨-, htype, hflags, rfl, rfl⟩ := frame.decode_header_eq_done hreceived
  obtain ⟨id, rest, hbody, hid, -⟩ := Header.readPacketId_eq_done frame.tail_full hmarked
  rw [type_newHeader] at htype
  refine ⟨htype.symm, hflags, ?_⟩
  rw [hbody, List.length_append]
  omega

theorem Frame.rewritten_marked {id rest : Bytes} (hbody : frame.body = id ++ rest)
    (hid : id.length = 2) {this : Header}
    (hthis : this = { frame.marked mtype id [] with dirty := false }) :
    this.Rewritten frame where
  clean := by rw [hthis]
  dbuf := by
    have hdrop : frame.body.drop 2 = rest := by
      rw [hbody]
      exact List.drop_left' hid
    rw [hthis, hdrop]
    change frame.bytes = _
    rw [Frame.bytes, hbody]
    rfl
  packetId := by rw [hthis]; exact hid
  packetIdAt := by rw [hthis]; rfl

end Marked

/-! ## SUBSCRIBE -/

/-- A type byte other than that of PUBLISH is accepted with the default flags only. -/
theorem first_eq_of_accepted : ∀ mtype ∈ [MessageType.connect, .subscribe, .unsubscribe],
    ∀ first : Byte, MessageType.ofNibble (first >>> 4) = mtype → flagsAccepted first = true →
      first = (newHeader mtype).mtypeflags := by
  decide +kernel

namespace SubscribeMessage

/-- A decoded SUBSCRIBE after some setters: it has changed, or it has still the topics it
was decoded with. -/
structure Edited (frame : Frame) (topics : List Bytes) (this : SubscribeMessage) : Prop where
  mtypeflags : this.mtypeflags = (newHeader .subscribe).mtypeflags
  length : this.topics.length = this.qos.length
  state : this.dirty = true ∨ this.toHeader.Rewritten frame ∧ this.topics = topics

/-- `Decode` of a frame from the loop on. -/
theorem decode_marked (frame : Frame) {id rest : Bytes} (htype : frame.mtype = .subscribe)
    (hflags : flagsAccepted frame.first = true) (hbody : frame.body = id ++ rest)
    (hid : id.length = 2) (spare : Bytes) :
    newSubscribeMessage.decode ⟨frame.bytes, spare⟩ =
      (decodeTopics ⟨frame.bytes, spare⟩ rest.length rest.length
        (newSubscribeMessage.withHeader (frame.marked .subscribe id spare))
        (frame.headerLength + 2)).andThen fun this total =>
      if this.topics.length = 0 then
        .fail this 0 (.errorf "subscribe/Decode: Empty topic list" [])
      else .done { this with dirty := false } total := by
  have hheader : newSubscribeMessage.toHeader.decode ⟨frame.bytes, spare⟩ = _ :=
    frame.decode_new spare rfl htype hflags
  have hmarked := frame.readPacketId_received spare .subscribe hbody hid
  rw [decode, hheader, map_done, done_andThen]
  refine andThen_of_done (congrArg (Outcome.map _) hmarked) ?_
  simp only [withHeader, Frame.marked, Header.received, frame.counter_of_body hbody hid,
    Int.toNat_natCast]

/-- What is decoded from a frame, and from the frame with another packet id. -/
theorem decode_rewritten {frame : Frame} {decoded : SubscribeMessage} {n : ℕ}
    (hdone : newSubscribeMessage.decode (Slice.full frame.bytes) = .done decoded n) :
    decoded.Edited frame decoded.topics ∧ ∀ id : Bytes, id.length = 2 → ∀ spare,
      ∃ result, newSubscribeMessage.decode
          ⟨frame.first :: (frame.digits ++ (id ++ frame.body.drop 2)), spare⟩ = .done result n ∧
        result.topics = decoded.topics ∧ result.qos = decoded.qos ∧ result.packetId = id := by
  obtain ⟨htype, hflags, htwo⟩ := frame.body_of_done hdone fun _ => rfl
  have hid : (frame.body.take 2).length = 2 := List.length_take_of_le htwo
  have hbody : frame.body = frame.body.take 2 ++ frame.body.drop 2 :=
    (List.take_append_drop 2 frame.body).symm
  rw [Slice.full, decode_marked frame htype hflags hbody hid []] at hdone
  obtain ⟨listed, total, hlisted, hlast⟩ := Outcome.andThen_eq_done_iff.mp hdone
  split_ifs at hlast with hempty
  injection hlast with hdecoded hn
  subst hdecoded hn
  have hagain : ∀ (id' : Bytes) (hid' : id'.length = 2) (spare : Bytes),
      ∃ right, decodeTopics ⟨(frame.withPacketId id' hid' htwo).bytes, spare⟩
          (frame.body.drop 2).length (frame.body.drop 2).length (newSubscribeMessage.withHeader
            ((frame.withPacketId id' hid' htwo).marked .subscribe id' spare))
          (frame.headerLength + 2) = .done right total ∧
        Same (fun left right => left = frame.marked .subscribe (frame.body.take 2) [] ∧
          right.packetId = id') listed right := by
    intro id' hid' spare
    refine Follows.exists_done (decodeTopics_follows ?_
      (frame.growsFrom_withPacketId hid' htwo spare) _ _) hlisted
    exact ⟨⟨rfl, rfl⟩, rfl, rfl⟩
  have hlengths := (length_of_decodeTopics rfl hlisted).1
  constructor
  · obtain ⟨_, -, hsame⟩ := hagain _ hid []
    refine ⟨?_, hlengths, Or.inr ⟨?_, rfl⟩⟩
    · change listed.toHeader.mtypeflags = _
      rw [hsame.header.1]
      exact first_eq_of_accepted _ (by decide) _ htype hflags
    · apply frame.rewritten_marked hbody hid
      rw [← hsame.header.1]
  · intro id' hid' spare
    obtain ⟨right, hright, hsame⟩ := hagain id' hid' spare
    have hrun := decode_marked (frame.withPacketId id' hid' htwo) htype hflags rfl hid' spare
    refine ⟨{ right with dirty := false }, hrun.trans ?_, hsame.topics.symm, hsame.qos.symm,
      hsame.header.2⟩
    refine andThen_of_done hright (if_neg ?_)
    rwa [← hsame.topics]

theorem Edited.perform {frame : Frame} {topics : List Bytes} {this : SubscribeMessage}
    (hedited : this.Edited frame topics) (call : Setter) :
    (this.perform call).Edited frame topics := by
  have hflags := hedited.mtypeflags
  have hlength := hedited.length
  cases call with
  | addTopic topic qos =>
      rw [SubscribeMessage.perform, addTopic]
      split
      · exact hedited
      · split
        · exact ⟨hflags, by simpa using hlength, hedited.state⟩
        · exact ⟨hflags, by simpa using hlength, Or.inl rfl⟩
  | removeTopic topic =>
      rw [SubscribeMessage.perform, removeTopic]
      split
      · exact ⟨hflags, by simp only [List.length_eraseIdx, hlength], Or.inl rfl⟩
      · exact ⟨hflags, hlength, Or.inl rfl⟩
  | packetId v =>
      refine ⟨(Header.mtypeflags_setPacketId _ v).trans hflags, hlength, ?_⟩
      rcases hedited.state with hdirty | ⟨hrewritten, htopics⟩
      · exact Or.inl (Header.dirty_setPacketId hdirty v)
      · exact Or.inr ⟨hrewritten.setPacketId v, htopics⟩

/-- What an edited SUBSCRIBE needs to be read back.  If nothing has marked it as changed,
no topic has got another QoS. -/
structure Sendable (decoded edited : SubscribeMessage) : Prop where
  topics : edited.dirty = true → edited.topics ≠ []
  size : edited.dirty = true → edited.msglen ≤ 268435455
  qos : edited.dirty = false → edited.qos = decoded.qos

theorem readBack_of_fields {edited sent result : SubscribeMessage} {src : Slice} {n : ℕ}
    (hdone : newSubscribeMessage.decode src = .done result n)
    (htopics : result.topics = edited.topics) (hqos : result.qos = edited.qos)
    (hpacketId : result.packetId = sent.packetId)
    (hkept : edited.packetIdValue ≠ 0 → sent.packetIdValue = edited.packetIdValue) :
    ReadBack (.subscribe edited) (.subscribe sent) src (.subscribe result) where
  decode := ⟨n, congrArg (Outcome.map Message.subscribe) hdone⟩
  fields := by
    simp only [Message.getters, SubscribeMessage.getters, htopics, hqos]
  packetId := fun _ =>
    congrArg (fun id => ({ result.toHeader with packetId := id } : Header).packetIdValue)
      hpacketId
  without := fun hnot => (hnot trivial).elim
  kept := hkept

variable {decoded edited : SubscribeMessage} {dst : Bytes} {gPacketId : UInt64}
variable {state : Encoded SubscribeMessage} {size : ℕ}

theorem readBack_of_dirty (hdirty : edited.dirty = true)
    (hflags : edited.mtypeflags = (newHeader .subscribe).mtypeflags)
    (hlength : edited.topics.length = edited.qos.length) (htopics : edited.topics ≠ [])
    (hsize : edited.msglen ≤ 268435455)
    (hencode : edited.encode dst gPacketId = .done state size) (spare : Bytes) :
    ∃ result, Message.ReadBack (.subscribe edited) (.subscribe state.this)
      ⟨state.dst.take size, spare⟩ result := by
  have hemits := (encode_eq_done_iff hdirty).mp hencode
  have hid := Header.length_packetId_ensurePacketId (edited.sized edited.msglen) gPacketId
  generalize hsent : (edited.sized edited.msglen).ensurePacketId gPacketId = sent at hemits hid
  have hfst : (edited.topics.zip edited.qos).map Prod.fst = edited.topics :=
    List.map_fst_zip hlength.le
  have hsnd : (edited.topics.zip edited.qos).map Prod.snd = edited.qos :=
    List.map_snd_zip hlength.ge
  have hbytes : entriesBytes (edited.topics.zip edited.qos) =
      topicsBytes edited.topics edited.qos := by rw [entriesBytes, hfst, hsnd]
  have hbody : (sent.1.packetId ++ topicsBytes edited.topics edited.qos).length =
      edited.msglen := by
    rw [List.length_append, hid, msglen_eq]
  have hint : int32 edited.msglen = edited.msglen := int32_of_lt (by omega)
  obtain ⟨result, hdone, hresult, hqos, hpacketId⟩ :=
    decode_wire (edited.sized edited.msglen) hflags
      (by rw [hbytes, hbody]; exact hint) hemits.remlen.2 hid
      (fun hnil => htopics (by rw [← hfst, hnil]; rfl))
      (fun entry hentry => hemits.writable.2 _ (List.of_mem_zip hentry).1) [] spare
  rw [List.append_nil, hbytes] at hdone
  rw [hemits.take_dst hbody, hemits.state_eq]
  refine ⟨.subscribe result, readBack_of_fields hdone (hresult.trans hfst) (hqos.trans hsnd)
    hpacketId fun hvalue => ?_⟩
  rw [Header.ensurePacketId_sized hvalue] at hsent
  rw [← hsent]
  rfl

/-- An edited SUBSCRIBE that `Encode` accepts is read back. -/
theorem readBack {frame : Frame} {n : ℕ} {calls : List Setter}
    (hdone : newSubscribeMessage.decode (Slice.full frame.bytes) = .done decoded n)
    (hedited : edited = calls.foldl perform decoded) (hsendable : decoded.Sendable edited)
    (hencode : edited.encode dst gPacketId = .done state size) (spare : Bytes) :
    ∃ result, Message.ReadBack (.subscribe edited) (.subscribe state.this)
      ⟨state.dst.take size, spare⟩ result := by
  obtain ⟨hstart, hagain⟩ := decode_rewritten hdone
  have hkept : edited.Edited frame decoded.topics := hedited ▸
    List.foldlRecOn calls perform hstart fun _ hthis call _ => hthis.perform call
  rcases hkept.state with hdirty | ⟨hrewritten, htopics⟩
  · exact readBack_of_dirty hdirty hkept.mtypeflags hkept.length (hsendable.topics hdirty)
      (hsendable.size hdirty) hencode spare
  · rw [encode, if_pos (by rw [hrewritten.clean]; rfl)] at hencode
    obtain ⟨hthis, hbytes⟩ := encodeClean_eq_done hencode
    obtain ⟨result, hresult, htopics', hqos, hpacketId⟩ :=
      hagain edited.packetId hrewritten.packetId spare
    rw [hbytes, hthis, hrewritten.dbuf]
    exact ⟨.subscribe result, readBack_of_fields hresult (htopics'.trans htopics.symm)
      (hqos.trans (hsendable.qos hrewritten.clean).symm) hpacketId fun _ => rfl⟩

end SubscribeMessage

/-! ## UNSUBSCRIBE -/

namespace UnsubscribeMessage

/-- A decoded UNSUBSCRIBE after some setters. -/
structure Edited (frame : Frame) (topics : List Bytes) (this : UnsubscribeMessage) : Prop where
  mtypeflags : this.mtypeflags = (newHeader .unsubscribe).mtypeflags
  state : this.dirty = true ∨ this.toHeader.Rewritten frame ∧ this.topics = topics

/-- `Decode` of a frame from the loop on. -/
theorem decode_marked (frame : Frame) {id rest : Bytes} (htype : frame.mtype = .unsubscribe)
    (hflags : flagsAccepted frame.first = true) (hbody : frame.body = id ++ rest)
    (hid : id.length = 2) (spare : Bytes) :
    newUnsubscribeMessage.decode ⟨frame.bytes, spare⟩ =
      (decodeTopics ⟨frame.bytes, spare⟩ rest.length rest.length
        (newUnsubscribeMessage.withHeader (frame.marked .unsubscribe id spare))
        (frame.headerLength + 2)).andThen fun this total =>
      if this.topics.length = 0 then
        .fail this 0 (.errorf "unsubscribe/Decode: Empty topic list" [])
      else .done { this with dirty := false } total := by
  have hheader : newUnsubscribeMessage.toHeader.decode ⟨frame.bytes, spare⟩ = _ :=
    frame.decode_new spare rfl htype hflags
  have hmarked := frame.readPacketId_received spare .unsubscribe hbody hid
  rw [decode, hheader, map_done, done_andThen]
  refine andThen_of_done (congrArg (Outcome.map _) hmarked) ?_
  simp only [withHeader, Frame.marked, Header.received, frame.counter_of_body hbody hid,
    Int.toNat_natCast]

/-- What is decoded from a frame, and from the frame with another packet id. -/
theorem decode_rewritten {frame : Frame} {decoded : UnsubscribeMessage} {n : ℕ}
    (hdone : newUnsubscribeMessage.decode (Slice.full frame.bytes) = .done decoded n) :
    decoded.Edited frame decoded.topics ∧ ∀ id : Bytes, id.length = 2 → ∀ spare,
      ∃ result, newUnsubscribeMessage.decode
          ⟨frame.first :: (frame.digits ++ (id ++ frame.body.drop 2)), spare⟩ = .done result n ∧
        result.topics = decoded.topics ∧ result.packetId = id := by
  obtain ⟨htype, hflags, htwo⟩ := frame.body_of_done hdone fun _ => rfl
  have hid : (frame.body.take 2).length = 2 := List.length_take_of_le htwo
  have hbody : frame.body = frame.body.take 2 ++ frame.body.drop 2 :=
    (List.take_append_drop 2 frame.body).symm
  rw [Slice.full, decode_marked frame htype hflags hbody hid []] at hdone
  obtain ⟨listed, total, hlisted, hlast⟩ := Outcome.andThen_eq_done_iff.mp hdone
  split_ifs at hlast with hempty
  injection hlast with hdecoded hn
  subst hdecoded hn
  have hagain : ∀ (id' : Bytes) (hid' : id'.length = 2) (spare : Bytes),
      ∃ right, decodeTopics ⟨(frame.withPacketId id' hid' htwo).bytes, spare⟩
          (frame.body.drop 2).length (frame.body.drop 2).length (newUnsubscribeMessage.withHeader
            ((frame.withPacketId id' hid' htwo).marked .unsubscribe id' spare))
          (frame.headerLength + 2) = .done right total ∧
        Same (fun left right => left = frame.marked .unsubscribe (frame.body.take 2) [] ∧
          right.packetId = id') listed right := by
    intro id' hid' spare
    refine Follows.exists_done (decodeTopics_follows ?_
      (frame.growsFrom_withPacketId hid' htwo spare) _ _) hlisted
    exact ⟨⟨rfl, rfl⟩, rfl⟩
  constructor
  · obtain ⟨_, -, hsame⟩ := hagain _ hid []
    refine ⟨?_, Or.inr ⟨?_, rfl⟩⟩
    · change listed.toHeader.mtypeflags = _
      rw [hsame.header.1]
      exact first_eq_of_accepted _ (by decide) _ htype hflags
    · apply frame.rewritten_marked hbody hid
      rw [← hsame.header.1]
  · intro id' hid' spare
    obtain ⟨right, hright, hsame⟩ := hagain id' hid' spare
    have hrun := decode_marked (frame.withPacketId id' hid' htwo) htype hflags rfl hid' spare
    refine ⟨{ right with dirty := false }, hrun.trans ?_, hsame.topics.symm, hsame.header.2⟩
    refine andThen_of_done hright (if_neg ?_)
    rwa [← hsame.topics]

theorem Edited.perform {frame : Frame} {topics : List Bytes} {this : UnsubscribeMessage}
    (hedited : this.Edited frame topics) (call : Setter) :
    (this.perform call).Edited frame topics := by
  have hflags := hedited.mtypeflags
  cases call with
  | addTopic topic =>
      rw [UnsubscribeMessage.perform, addTopic]
      split
      · exact hedited
      · exact ⟨hflags, Or.inl rfl⟩
  | removeTopic topic =>
      rw [UnsubscribeMessage.perform, removeTopic]
      split <;> exact ⟨hflags, Or.inl rfl⟩
  | packetId v =>
      refine ⟨(Header.mtypeflags_setPacketId _ v).trans hflags, ?_⟩
      rcases hedited.state with hdirty | ⟨hrewritten, htopics⟩
      · exact Or.inl (Header.dirty_setPacketId hdirty v)
      · exact Or.inr ⟨hrewritten.setPacketId v, htopics⟩

/-- What an edited UNSUBSCRIBE needs to be read back.  The loop of `Decode` reaches the
last topic only if it makes up for the drift of the counter. -/
structure Sendable (edited : UnsubscribeMessage) : Prop where
  topics : edited.dirty = true → edited.topics ≠ []
  size : edited.dirty = true → edited.msglen ≤ 268435455
  reached : edited.dirty = true → ∀ last, edited.topics.getLast? = some last →
    edited.topics.length ≤ last.length + 2

theorem readBack_of_fields {edited sent result : UnsubscribeMessage} {src : Slice} {n : ℕ}
    (hdone : newUnsubscribeMessage.decode src = .done result n)
    (htopics : result.topics = edited.topics) (hpacketId : result.packetId = sent.packetId)
    (hkept : edited.packetIdValue ≠ 0 → sent.packetIdValue = edited.packetIdValue) :
    ReadBack (.unsubscribe edited) (.unsubscribe sent) src (.unsubscribe result) where
  decode := ⟨n, congrArg (Outcome.map Message.unsubscribe) hdone⟩
  fields := by simp only [Message.getters, UnsubscribeMessage.getters, htopics]
  packetId := fun _ =>
    congrArg (fun id => ({ result.toHeader with packetId := id } : Header).packetIdValue)
      hpacketId
  without := fun hnot => (hnot trivial).elim
  kept := hkept

variable {decoded edited : UnsubscribeMessage} {dst : Bytes} {gPacketId : UInt64}
variable {state : Encoded UnsubscribeMessage} {size : ℕ}

theorem readBack_of_dirty (hdirty : edited.dirty = true)
    (hflags : edited.mtypeflags = (newHeader .unsubscribe).mtypeflags)
    (hsendable : edited.Sendable)
    (hencode : edited.encode dst gPacketId = .done state size) (spare : Bytes) :
    ∃ result, Message.ReadBack (.unsubscribe edited) (.unsubscribe state.this)
      ⟨state.dst.take size, spare⟩ result := by
  have hsize := hsendable.size hdirty
  have htopics := hsendable.topics hdirty
  have hlast := hsendable.reached hdirty _ (List.getLast?_eq_some_getLast htopics)
  have hemits := (encode_eq_done_iff hdirty).mp hencode
  have hid := Header.length_packetId_ensurePacketId (edited.sized edited.msglen) gPacketId
  generalize hsent : (edited.sized edited.msglen).ensurePacketId gPacketId = sent at hemits hid
  have hbody : (sent.1.packetId ++ topicsBytes edited.topics).length = edited.msglen := by
    rw [List.length_append, hid, msglen_eq]
  have hint : int32 edited.msglen = edited.msglen := int32_of_lt (by omega)
  have hall : reached (topicsBytes edited.topics).length edited.topics = edited.topics := by
    have hreached := (reached_eq_self_iff htopics 0).mpr (by rwa [Nat.zero_add])
    rwa [Nat.cast_zero, sub_zero] at hreached
  obtain ⟨result, hdone, hresult, hpacketId⟩ :=
    decode_wire (edited.sized edited.msglen) hflags (by rw [hbody]; exact hint)
      hemits.remlen.2 hid htopics hemits.writable [] spare
  rw [List.append_nil] at hdone
  rw [hemits.take_dst hbody, hemits.state_eq]
  refine ⟨.unsubscribe result, readBack_of_fields hdone (hresult.trans hall) hpacketId
    fun hvalue => ?_⟩
  rw [Header.ensurePacketId_sized hvalue] at hsent
  rw [← hsent]
  rfl

/-- An edited UNSUBSCRIBE that `Encode` accepts is read back. -/
theorem readBack {frame : Frame} {n : ℕ} {calls : List Setter}
    (hdone : newUnsubscribeMessage.decode (Slice.full frame.bytes) = .done decoded n)
    (hedited : edited = calls.foldl perform decoded) (hsendable : edited.Sendable)
    (hencode : edited.encode dst gPacketId = .done state size) (spare : Bytes) :
    ∃ result, Message.ReadBack (.unsubscribe edited) (.unsubscribe state.this)
      ⟨state.dst.take size, spare⟩ result := by
  obtain ⟨hstart, hagain⟩ := decode_rewritten hdone
  have hkept : edited.Edited frame decoded.topics := hedited ▸
    List.foldlRecOn calls perform hstart fun _ hthis call _ => hthis.perform call
  rcases hkept.state with hdirty | ⟨hrewritten, htopics⟩
  · exact readBack_of_dirty hdirty hkept.mtypeflags hsendable hencode spare
  · rw [encode, if_pos (by rw [hrewritten.clean]; rfl)] at hencode
    obtain ⟨hthis, hbytes⟩ := encodeClean_eq_done hencode
    obtain ⟨result, hresult, htopics', hpacketId⟩ :=
      hagain edited.packetId hrewritten.packetId spare
    rw [hbytes, hthis, hrewritten.dbuf]
    exact ⟨.unsubscribe result, readBack_of_fields hresult (htopics'.trans htopics.symm)
      hpacketId fun _ => rfl⟩

end UnsubscribeMessage

end Xmqtt.Message
