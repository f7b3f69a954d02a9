import Xmqtt.Message.Messages

/-!
# When a decoder panics

The receive loop hands every decoder one complete frame, in a buffer without
spare capacity.  A decoder panics exactly when it gets to a field that the body
of the frame is too short for and that it does not check: a packet id, a fixed
byte, or a length-prefixed field whose prefix promises one or two bytes more than
there are.
-/

namespace Xmqtt.Message

open Xmqtt.Go

section Steps

variable {μ : Type} {header : Header} {rebuild : Header → μ}
variable {next : μ → ℕ → Outcome Err μ}

/-- A decoder gets past the fixed header of a frame of its type exactly when the
flags are accepted. -/
theorem Frame.decode_andThen_eq_panic_iff (frame : Frame) (hvalid : frame.mtype.valid = true)
    (htype : header.type = frame.mtype) :
    ((header.decode (Slice.full frame.bytes)).map rebuild).andThen next = .panic ↔
      flagsAccepted frame.first = true ∧
        next (rebuild (header.received (Slice.full frame.bytes) frame.first
          frame.body.length)) frame.headerLength = .panic := by
  cases hflags : flagsAccepted frame.first with
  | true =>
      have hheader := frame.decode_header_of_accepted hvalid htype hflags [] []
      rw [List.append_nil] at hheader
      rw [Slice.full, hheader, Outcome.map_done, Outcome.done_andThen]
      simp
  | false =>
      obtain ⟨err, herr⟩ := frame.decode_header_of_rejected hflags [] []
      rw [List.append_nil] at herr
      rw [Slice.full, herr, Outcome.map_fail, Outcome.fail_andThen]
      simp

theorem Frame.tail_full (frame : Frame) :
    (Slice.full frame.bytes).tail frame.headerLength = some ⟨frame.body, []⟩ := by
  have htail := frame.tail_headerLength [] []
  rwa [List.append_nil, List.append_nil] at htail

/-- The packet id is not there, or something goes wrong behind it. -/
def PacketIdMissing (rest : Bytes) (behind : Bytes → Prop) : Prop :=
  rest.length < 2 ∨ ∃ high low after, rest = high :: low :: after ∧ behind after

/-- A fixed byte is not there, or something goes wrong behind it. -/
def ByteMissing (rest : Bytes) (behind : Byte → Bytes → Prop) : Prop :=
  rest = [] ∨ ∃ byte after, rest = byte :: after ∧ behind byte after

/-- A length-prefixed field overruns, or something goes wrong behind it. -/
def FieldOverruns (rest : Bytes) (behind : Bytes → Bytes → Prop) : Prop :=
  LPOverrun rest ∨ ∃ field after, lpSplit rest = some (field, after) ∧ behind field after

variable {this : μ} {src : Slice} {total : ℕ} {rest spare : Bytes}

theorem readPacketId_panic_iff (htail : src.tail total = some ⟨rest, []⟩)
    {behind : Bytes → Prop}
    (hnext : ∀ high low after, src.tail (total + 2) = some ⟨after, []⟩ →
      (next (rebuild { header with packetId := [high, low], packetIdAt := some total })
        (total + 2) = .panic ↔ behind after)) :
    ((header.readPacketId src total).map rebuild).andThen next = .panic ↔
      PacketIdMissing rest behind := by
  have hshort : rest.length < 2 →
      ((header.readPacketId src total).map rebuild).andThen next = .panic := by
    intro hlength
    have hnone : (Slice.mk rest []).window 0 (2 : ℕ) = none :=
      Slice.window_zero_eq_none_iff.mpr (by simpa using hlength)
    rw [Header.readPacketId, (Slice.window_of_tail htail 2).trans hnone]
    rfl
  rcases rest with _ | ⟨high, _ | ⟨low, after⟩⟩
  · simp [hshort, PacketIdMissing]
  · simp [hshort, PacketIdMissing]
  · have hpair : src.tail total = some ⟨[high, low] ++ after, []⟩ := htail
    rw [Header.readPacketId_of_tail hpair rfl, Outcome.map_done, Outcome.done_andThen,
      hnext high low after (Slice.tail_add hpair)]
    simp [PacketIdMissing]

theorem readByteField_panic_iff (htail : src.tail total = some ⟨rest, spare⟩)
    {set : μ → Byte → μ} {behind : Byte → Bytes → Prop}
    (hnext : ∀ byte after, src.tail (total + 1) = some ⟨after, spare⟩ →
      (next (set this byte) (total + 1) = .panic ↔ behind byte after)) :
    (readByteField src set this total).andThen next = .panic ↔ ByteMissing rest behind := by
  rw [readByteField, Slice.getElem?_of_tail htail]
  cases rest with
  | nil => simp [ByteMissing]
  | cons byte after =>
      have hiff := hnext byte after (Slice.tail_succ htail)
      simp [ByteMissing, hiff]

theorem readLPThen_panic_iff (htail : src.tail total = some ⟨rest, []⟩)
    {failed : Bytes → μ} {step : Bytes → ℕ → Outcome Err μ} {behind : Bytes → Bytes → Prop}
    (hnext : ∀ field after,
      src.tail (total + (lpBytes field).length) = some ⟨after, []⟩ →
      (step field (total + (lpBytes field).length) = .panic ↔ behind field after)) :
    readLPThen src failed total step = .panic ↔ FieldOverruns rest behind := by
  rw [readLPThen_eq_panic_iff htail]
  refine or_congr_right (exists_congr fun field => exists_congr fun after =>
    and_congr_right fun hsplit => ?_)
  obtain ⟨rfl, -⟩ := lpSplit_eq_some hsplit
  exact hnext field after (Slice.tail_add htail)

theorem readLPField_panic_iff (htail : src.tail total = some ⟨rest, []⟩)
    {set : μ → Bytes → μ} {behind : Bytes → Bytes → Prop}
    (hnext : ∀ field after,
      src.tail (total + (lpBytes field).length) = some ⟨after, []⟩ →
      (next (set this field) (total + (lpBytes field).length) = .panic ↔
        behind field after)) :
    (readLPField src set this total).andThen next = .panic ↔ FieldOverruns rest behind := by
  rw [readLPField, readLPThen_andThen]
  exact readLPThen_panic_iff htail fun field after hafter => hnext field after hafter

end Steps

theorem packetIdMissing_false {rest : Bytes} :
    PacketIdMissing rest (fun _ => False) ↔ rest.length < 2 := by
  simp [PacketIdMissing]

/-! ## Acknowledgements -/

section Acks

variable {frame : Frame} (hvalid : frame.mtype.valid = true)

include hvalid

theorem PubackMessage.decode_panic_iff {this : PubackMessage}
    (htype : this.type = frame.mtype) :
    this.decode (Slice.full frame.bytes) = .panic ↔
      flagsAccepted frame.first = true ∧ frame.body.length < 2 := by
  rw [PubackMessage.decode, frame.decode_andThen_eq_panic_iff hvalid htype,
    ← packetIdMissing_false]
  exact and_congr_right fun _ =>
    readPacketId_panic_iff frame.tail_full fun _ _ _ _ => by simp

theorem SubackMessage.decode_panic_iff {this : SubackMessage}
    (htype : this.type = frame.mtype) :
    this.decode (Slice.full frame.bytes) = .panic ↔
      flagsAccepted frame.first = true ∧ frame.body.length < 2 := by
  rw [SubackMessage.decode, frame.decode_andThen_eq_panic_iff hvalid htype,
    ← packetIdMissing_false]
  refine and_congr_right fun _ =>
    readPacketId_panic_iff frame.tail_full fun high low after htail => ?_
  have hsize := frame.counter_of_tail frame.tail_full htail
  simp only [SubackMessage.withHeader, Header.received, readReturnCodes, hsize,
    Slice.window_rest htail, Outcome.done_andThen, Outcome.failOn_andThen_eq_panic_iff, reduceCtorEq,
    and_false]

/-- The flags byte of a CONNACK is not there, or it is accepted and the return
code is not there. -/
def ConnackOverruns (body : Bytes) : Prop :=
  ByteMissing body fun flags after => flags &&& 254 = 0 ∧ after = []

theorem ConnackMessage.decode_panic_iff {this : ConnackMessage}
    (htype : this.type = frame.mtype) :
    this.decode (Slice.full frame.bytes) = .panic ↔
      flagsAccepted frame.first = true ∧ ConnackOverruns frame.body := by
  rw [ConnackMessage.decode, frame.decode_andThen_eq_panic_iff hvalid htype]
  refine and_congr_right fun _ => ?_
  have htail := frame.tail_full
  rw [decodeFields, Slice.getElem?_of_tail htail]
  cases hbody : frame.body with
  | nil => simp [ConnackOverruns, ByteMissing]
  | cons flags after =>
      rw [hbody] at htail
      rw [Slice.getElem?_of_tail (Slice.tail_succ htail)]
      by_cases hflags : flags &&& 254 = 0
      · cases after with
        | nil => simp [ConnackOverruns, ByteMissing, hflags]
        | cons code after =>
            by_cases hcode : code > 5 <;>
              simp [ConnackOverruns, ByteMissing, hflags, hcode]
      · simp [ConnackOverruns, ByteMissing, hflags]

theorem DisconnectMessage.decode_ne_panic {this : DisconnectMessage}
    (htype : this.type = frame.mtype) :
    this.decode (Slice.full frame.bytes) ≠ .panic := by
  rw [DisconnectMessage.decode, Ne, Outcome.map_eq_panic_iff, Slice.full,
    ← List.append_nil frame.bytes]
  cases hflags : flagsAccepted frame.first with
  | true =>
      rw [frame.decode_header_of_accepted hvalid htype hflags [] []]
      simp
  | false =>
      obtain ⟨err, herr⟩ := frame.decode_header_of_rejected hflags [] []
      rw [herr]
      simp

end Acks

/-! ## PUBLISH -/

/-- The topic overruns, or it is valid, a packet id has to follow, and that is
not there. -/
def PublishOverruns (first : Byte) (body : Bytes) : Prop :=
  FieldOverruns body fun topic after =>
    validTopic topic = true ∧ ((first &&& 0x0f) >>> 1) &&& 0x3 ≠ 0 ∧ after.length < 2

/-- The payload is the rest of the frame, so reading it never panics. -/
theorem PublishMessage.decodePayload_ne_panic {this : PublishMessage} {src : Slice}
    {hn total : ℕ} {rest : Bytes} (htail : src.tail total = some ⟨rest, []⟩)
    (hremlen : this.remlen = src.bytes.length - hn) :
    decodePayload src hn this total ≠ .panic := by
  have hlength := Slice.length_of_tail htail
  have hsize : this.remlen - ((total : ℤ) - hn) = rest.length := by omega
  rw [decodePayload, hsize, Slice.window_rest htail]
  simp

theorem PublishMessage.readPacketId_payload_panic_iff {this : PublishMessage} {src : Slice}
    {hn total : ℕ} {rest : Bytes} (htail : src.tail total = some ⟨rest, []⟩)
    (hremlen : this.remlen = src.bytes.length - hn) :
    (if this.qos ≠ 0 then (this.readPacketId src total).map this.withHeader
      else .done this total).andThen (decodePayload src hn) = .panic ↔
      this.qos ≠ 0 ∧ rest.length < 2 := by
  by_cases hqos : this.qos ≠ 0
  · rw [if_pos hqos, ← packetIdMissing_false, and_iff_right hqos]
    exact readPacketId_panic_iff htail fun _ _ _ hafter =>
      iff_false_intro (decodePayload_ne_panic hafter hremlen)
  · rw [if_neg hqos, Outcome.done_andThen]
    exact iff_of_false (decodePayload_ne_panic htail hremlen) fun h => hqos h.1

theorem PublishMessage.decode_panic_iff {this : PublishMessage} {frame : Frame}
    (hvalid : frame.mtype.valid = true) (htype : this.type = frame.mtype) :
    this.decode (Slice.full frame.bytes) = .panic ↔
      flagsAccepted frame.first = true ∧ PublishOverruns frame.first frame.body := by
  rw [PublishMessage.decode, frame.decode_andThen_eq_panic_iff hvalid htype]
  refine and_congr_right fun _ => readLPField_panic_iff frame.tail_full
    fun topic after htail => ?_
  have hremlen : (frame.body.length : ℤ) =
      (Slice.full frame.bytes).bytes.length - frame.headerLength := by
    have hlength := frame.length_bytes
    simp only [Slice.full]
    omega
  rw [Outcome.reject_andThen_eq_panic_iff]
  exact and_congr (by simp) (readPacketId_payload_panic_iff htail hremlen)

/-! ## SUBSCRIBE and UNSUBSCRIBE -/

/-- A topic filter overruns, or its QoS byte is not there. -/
inductive SubscribeOverruns : Bytes → Prop where
  | topic {rest : Bytes} : LPOverrun rest → SubscribeOverruns rest
  | qos {rest topic : Bytes} : lpSplit rest = some (topic, []) → SubscribeOverruns rest
  | next {rest topic after : Bytes} {qos : Byte} :
      lpSplit rest = some (topic, qos :: after) → SubscribeOverruns after →
        SubscribeOverruns rest

theorem subscribeOverruns_iff {rest : Bytes} :
    SubscribeOverruns rest ↔ FieldOverruns rest fun _ after =>
      ByteMissing after fun _ after => SubscribeOverruns after := by
  constructor
  · rintro (htopic | hqos | ⟨hsplit, hnext⟩)
    · exact Or.inl htopic
    · exact Or.inr ⟨_, _, hqos, Or.inl rfl⟩
    · exact Or.inr ⟨_, _, hsplit, Or.inr ⟨_, _, rfl, hnext⟩⟩
  · rintro (htopic | ⟨topic, after, hsplit, rfl | ⟨qos, after, rfl, hnext⟩⟩)
    · exact .topic htopic
    · exact .qos hsplit
    · exact .next hsplit hnext

theorem SubscribeMessage.decodeTopics_panic_iff {src : Slice} {rounds total : ℕ}
    {this : SubscribeMessage} {rest : Bytes} (htail : src.tail total = some ⟨rest, []⟩)
    (hrounds : rest.length ≤ rounds) :
    decodeTopics src rounds rest.length this total = .panic ↔ SubscribeOverruns rest := by
  induction rounds generalizing this total rest with
  | zero =>
      obtain rfl := List.eq_nil_of_length_eq_zero (Nat.le_zero.mp hrounds)
      rw [subscribeOverruns_iff]
      simp [decodeTopics, FieldOverruns, LPOverrun, lpSplit]
  | succ rounds ih =>
      rw [decodeTopics, subscribeOverruns_iff]
      by_cases hempty : rest = []
      · subst hempty
        simp [FieldOverruns, LPOverrun, lpSplit]
      · rw [if_pos (by exact_mod_cast List.length_pos_iff.mpr hempty)]
        refine readLPThen_panic_iff htail fun topic after hafter =>
          readByteField_panic_iff hafter fun qos last hlast => ?_
        have hfirst := Slice.length_of_tail htail
        have hsecond := Slice.length_of_tail hlast
        have hcounter : (rest.length : ℤ) -
            (((total + (lpBytes topic).length : ℕ) : ℤ) - total) - 1 = last.length := by
          omega
        rw [hcounter]
        exact ih hlast (by omega)

theorem SubscribeMessage.decode_panic_iff {this : SubscribeMessage} {frame : Frame}
    (hvalid : frame.mtype.valid = true) (htype : this.type = frame.mtype) :
    this.decode (Slice.full frame.bytes) = .panic ↔
      flagsAccepted frame.first = true ∧ PacketIdMissing frame.body SubscribeOverruns := by
  rw [SubscribeMessage.decode, frame.decode_andThen_eq_panic_iff hvalid htype]
  refine and_congr_right fun _ =>
    readPacketId_panic_iff frame.tail_full fun high low after htail => ?_
  have hcounter := frame.counter_of_tail frame.tail_full htail
  simp only [SubscribeMessage.withHeader, Header.received, hcounter, Int.toNat_natCast]
  refine (Outcome.andThen_panic_iff_left fun message total => ?_).trans
    (decodeTopics_panic_iff htail le_rfl)
  split <;> simp

/-- A topic filter that the counter, `drift` short of the bytes there are, still
reaches overruns. -/
inductive UnsubscribeOverruns : ℕ → Bytes → Prop where
  | topic {drift : ℕ} {rest : Bytes} : drift < rest.length → LPOverrun rest →
      UnsubscribeOverruns drift rest
  | next {drift : ℕ} {rest topic after : Bytes} : drift < rest.length →
      lpSplit rest = some (topic, after) → UnsubscribeOverruns (drift + 1) after →
        UnsubscribeOverruns drift rest

theorem unsubscribeOverruns_iff {drift : ℕ} {rest : Bytes} :
    UnsubscribeOverruns drift rest ↔ drift < rest.length ∧ FieldOverruns rest fun _ after =>
      UnsubscribeOverruns (drift + 1) after := by
  constructor
  · rintro (⟨hlt, htopic⟩ | ⟨hlt, hsplit, hnext⟩)
    · exact ⟨hlt, Or.inl htopic⟩
    · exact ⟨hlt, Or.inr ⟨_, _, hsplit, hnext⟩⟩
  · rintro ⟨hlt, htopic | ⟨topic, after, hsplit, hnext⟩⟩
    · exact .topic hlt htopic
    · exact .next hlt hsplit hnext

theorem UnsubscribeMessage.decodeTopics_panic_iff {src : Slice} {rounds total drift : ℕ}
    {this : UnsubscribeMessage} {rest : Bytes} (htail : src.tail total = some ⟨rest, []⟩)
    (hrounds : rest.length ≤ rounds + drift) :
    decodeTopics src rounds (rest.length - drift) this total = .panic ↔
      UnsubscribeOverruns drift rest := by
  induction rounds generalizing this total rest drift with
  | zero =>
      rw [unsubscribeOverruns_iff]
      simp only [decodeTopics, reduceCtorEq, false_iff]
      omega
  | succ rounds ih =>
      rw [decodeTopics, unsubscribeOverruns_iff]
      by_cases hlt : drift < rest.length
      · rw [if_pos (by omega), and_iff_right hlt]
        refine readLPThen_panic_iff htail fun topic after hafter => ?_
        have hfirst := Slice.length_of_tail htail
        have hsecond := Slice.length_of_tail hafter
        have hprefixed := length_lpBytes topic
        have hcounter : (rest.length : ℤ) - drift -
            (((total + (lpBytes topic).length : ℕ) : ℤ) - total) - 1 =
            after.length - ((drift + 1 : ℕ) : ℤ) := by
          omega
        rw [hcounter]
        exact ih hafter (by omega)
      · rw [if_neg (by omega)]
        simp [hlt]

theorem UnsubscribeMessage.decode_panic_iff {this : UnsubscribeMessage} {frame : Frame}
    (hvalid : frame.mtype.valid = true) (htype : this.type = frame.mtype) :
    this.decode (Slice.full frame.bytes) = .panic ↔
      flagsAccepted frame.first = true ∧
        PacketIdMissing frame.body (UnsubscribeOverruns 0) := by
  rw [UnsubscribeMessage.decode, frame.decode_andThen_eq_panic_iff hvalid htype]
  refine and_congr_right fun _ =>
    readPacketId_panic_iff frame.tail_full fun high low after htail => ?_
  have hcounter := (frame.counter_of_tail frame.tail_full htail).trans (sub_zero _).symm
  simp only [UnsubscribeMessage.withHeader, Header.received, hcounter]
  refine (Outcome.andThen_panic_iff_left fun message total => ?_).trans
    (decodeTopics_panic_iff htail (by omega))
  split <;> simp

/-! ## CONNECT -/

/-- The connect flags of a packet, as its decoder sees them. -/
def ConnectMessage.ofFlags (flags : Byte) : ConnectMessage :=
  { newConnectMessage with connectFlags := flags }

/-- A field that is only there under its flag and if anything is left overruns, or
something goes wrong behind it. -/
def OptionalOverruns (flag : Bool) (rest : Bytes) (behind : Bytes → Prop) : Prop :=
  if flag = true ∧ rest ≠ [] then FieldOverruns rest fun _ => behind else behind rest

/-- The Will topic or the Will message overruns, or something goes wrong behind them. -/
def WillOverruns (flag : Bool) (rest : Bytes) (behind : Bytes → Prop) : Prop :=
  if flag = true then
    FieldOverruns rest fun _ after => FieldOverruns after fun _ => behind
  else behind rest

/-- Behind accepted connect flags: a keep-alive time that is there, then fields that
overrun one after the other, as long as the client id is accepted. -/
def PayloadOverruns (flags : Byte) (rest : Bytes) : Prop :=
  ∃ high low after, rest = high :: low :: after ∧
    FieldOverruns after fun clientId after =>
      (clientId = [] → (ConnectMessage.ofFlags flags).cleanSession = true) ∧
      (clientId ≠ [] → ConnectMessage.validClientId clientId = true) ∧
      WillOverruns (ConnectMessage.ofFlags flags).willFlag after fun after =>
        OptionalOverruns (ConnectMessage.ofFlags flags).usernameFlag after fun after =>
          OptionalOverruns (ConnectMessage.ofFlags flags).passwordFlag after fun _ => False

/-- The body of a CONNECT packet: protocol name, version, connect flags, payload. -/
def ConnectOverruns (body : Bytes) : Prop :=
  FieldOverruns body fun protoName rest =>
    ByteMissing rest fun version rest =>
      supportedVersions version = some protoName ∧ ByteMissing rest fun flags rest =>
        (ConnectMessage.ofFlags flags).checkFlags = none ∧ PayloadOverruns flags rest

namespace ConnectMessage

section Steps

variable {src : Slice} {this : ConnectMessage} {total hn : ℕ} {rest : Bytes} {flags : Byte}
variable {next : ConnectMessage → ℕ → Outcome Err ConnectMessage} {behind : Bytes → Prop}

theorem readOptional_panic_iff {flag : Bool} {set : ConnectMessage → Bytes → ConnectMessage}
    (htail : src.tail total = some ⟨rest, []⟩) (hflags : this.connectFlags = flags)
    (hset : ∀ field, (set this field).connectFlags = this.connectFlags)
    (hnext : ∀ message total after, message.connectFlags = flags →
      src.tail total = some ⟨after, []⟩ → (next message total = .panic ↔ behind after)) :
    (readOptional src flag set this total).andThen next = .panic ↔
      OptionalOverruns flag rest behind := by
  rw [readOptional, OptionalOverruns]
  cases flag with
  | false => simpa using hnext this total rest hflags htail
  | true =>
      rw [if_pos rfl, htail]
      by_cases hrest : rest = []
      · simpa [hrest] using hnext this total rest hflags htail
      · have hpos : 0 < rest.length := List.length_pos_iff.mpr hrest
        rw [if_pos ⟨rfl, hrest⟩]
        simp only [hpos, if_true]
        exact readLPField_panic_iff htail fun field after hafter =>
          hnext _ _ _ ((hset field).trans hflags) hafter

theorem readWill_panic_iff (htail : src.tail total = some ⟨rest, []⟩)
    (hflags : this.connectFlags = flags)
    (hnext : ∀ message total after, message.connectFlags = flags →
      src.tail total = some ⟨after, []⟩ → (next message total = .panic ↔ behind after)) :
    (readWill src this total).andThen next = .panic ↔
      WillOverruns (ofFlags flags).willFlag rest behind := by
  have hwill : this.willFlag = (ofFlags flags).willFlag := by
    rw [willFlag, connectFlag, hflags]
    rfl
  rw [readWill, WillOverruns, hwill]
  split
  · rw [Outcome.andThen_assoc]
    exact readLPField_panic_iff htail fun topic after hafter =>
      readLPField_panic_iff hafter fun message last hlast =>
        hnext _ _ _ hflags hlast
  · exact hnext this total rest hflags htail

theorem readKeepAlive_panic_iff (htail : src.tail total = some ⟨rest, []⟩)
    (hnext : ∀ keepAlive after, src.tail (total + 2) = some ⟨after, []⟩ →
      (next { this with keepAlive := keepAlive } (total + 2) = .panic ↔ behind after)) :
    (readKeepAlive src hn this total).andThen next = .panic ↔
      ∃ high low after, rest = high :: low :: after ∧ behind after := by
  rw [readKeepAlive, htail]
  rcases rest with _ | ⟨high, _ | ⟨low, after⟩⟩
  · simp
  · simp
  · have hpair : src.tail total = some ⟨[high, low] ++ after, []⟩ := htail
    rw [Outcome.done_andThen, hnext _ after (Slice.tail_add hpair)]
    simp

theorem decodePayload_panic_iff (htail : src.tail total = some ⟨rest, []⟩)
    (hflags : this.connectFlags = flags) :
    decodePayload src hn this total = .panic ↔ PayloadOverruns flags rest := by
  have hbits (message : ConnectMessage) (hmessage : message.connectFlags = flags)
      (shift : Byte) : message.connectFlag shift = (ofFlags flags).connectFlag shift := by
    rw [connectFlag, hmessage]
    rfl
  refine readKeepAlive_panic_iff htail fun keepAlive after hafter => ?_
  refine readLPField_panic_iff hafter fun clientId after hafter => ?_
  have hclean := hbits { this with keepAlive := keepAlive, clientId := clientId } hflags 1
  rw [Outcome.reject_andThen_eq_panic_iff, Outcome.reject_andThen_eq_panic_iff]
  refine and_congr ?_ (and_congr ?_ ?_)
  · simp only [cleanSession, hclean]
    cases clientId <;> simp
  · cases clientId <;> simp
  · refine readWill_panic_iff hafter hflags fun message total after hmessage hafter => ?_
    rw [usernameFlag, hbits message hmessage]
    refine readOptional_panic_iff hafter hmessage (fun _ => rfl)
      fun message total after hmessage hafter => ?_
    rw [passwordFlag, hbits message hmessage, ← Outcome.andThen_done (readOptional _ _ _ _ _)]
    exact readOptional_panic_iff hafter hmessage (fun _ => rfl) fun _ _ _ _ _ => by simp

end Steps

theorem decode_panic_iff {this : ConnectMessage} {frame : Frame}
    (hvalid : frame.mtype.valid = true) (htype : this.type = frame.mtype) :
    this.decode (Slice.full frame.bytes) = .panic ↔
      flagsAccepted frame.first = true ∧ ConnectOverruns frame.body := by
  rw [decode, frame.decode_andThen_eq_panic_iff hvalid htype,
    Outcome.andThen_panic_iff_left (by simp)]
  refine and_congr_right fun _ => readLPField_panic_iff frame.tail_full
    fun protoName after hafter => ?_
  refine readByteField_panic_iff hafter fun version after hafter => ?_
  rw [Outcome.reject_andThen_eq_panic_iff]
  refine and_congr (by simp) (readByteField_panic_iff hafter fun flags after hafter => ?_)
  rw [Outcome.failOn_andThen_eq_panic_iff]
  exact and_congr Iff.rfl (decodePayload_panic_iff hafter rfl)

end ConnectMessage

/-! ## Every message type -/

/-- The body of a packet is too short for a field its decoder gets to and does not
check. -/
def BodyOverruns (mtype : MessageType) (first : Byte) (body : Bytes) : Prop :=
  match mtype with
  | .connect => ConnectOverruns body
  | .connack => ConnackOverruns body
  | .publish => PublishOverruns first body
  | .puback | .pubrec | .pubrel | .pubcomp | .suback | .unsuback => body.length < 2
  | .subscribe => PacketIdMissing body SubscribeOverruns
  | .unsubscribe => PacketIdMissing body (UnsubscribeOverruns 0)
  | .pingreq | .pingresp | .disconnect => False
  | .reserved | .reserved2 => False

/-- A frame with accepted flags and a body that is too short. -/
def Frame.Overruns (frame : Frame) : Prop :=
  flagsAccepted frame.first = true ∧ BodyOverruns frame.mtype frame.first frame.body

/-- A fresh message that is handed a frame of its type returns, with success or with
an error, exactly when the frame does not overrun. -/
theorem decode_ne_panic_iff {frame : Frame} {message : Xmqtt.Message}
    (hnew : frame.mtype.new = .ok message) :
    message.decode (Slice.full frame.bytes) ≠ .panic ↔ ¬ frame.Overruns := by
  refine not_congr ?_
  have hvalid : frame.mtype.valid = true := by
    cases hmtype : frame.mtype <;> rw [hmtype] at hnew <;> first | rfl | cases hnew
  rw [Frame.Overruns]
  cases hmtype : frame.mtype <;> rw [hmtype] at hnew <;> cases hnew <;>
    simp only [Message.decode, Outcome.map_eq_panic_iff]
  case connect => exact ConnectMessage.decode_panic_iff hvalid (hmtype ▸ rfl)
  case connack => exact ConnackMessage.decode_panic_iff hvalid (hmtype ▸ rfl)
  case publish => exact PublishMessage.decode_panic_iff hvalid (hmtype ▸ rfl)
  case suback => exact SubackMessage.decode_panic_iff hvalid (hmtype ▸ rfl)
  case subscribe => exact SubscribeMessage.decode_panic_iff hvalid (hmtype ▸ rfl)
  case unsubscribe => exact UnsubscribeMessage.decode_panic_iff hvalid (hmtype ▸ rfl)
  case pingreq | pingresp | disconnect =>
    simpa [BodyOverruns] using DisconnectMessage.decode_ne_panic hvalid (hmtype ▸ rfl)
  all_goals exact PubackMessage.decode_panic_iff hvalid (hmtype ▸ rfl)

/-- PUBLISH with the topic "a", no payload and QoS 0. -/
def publishFrame : Frame := .brief 0x30 [0x00, 0x01, 0x61]

theorem decode_ne_panic_iff_publish :
    publishFrame.mtype.new = .ok (.publish newPublishMessage) ∧
      Message.decode (Slice.full publishFrame.bytes) (.publish newPublishMessage) ≠
        .panic := by
  have hnew : publishFrame.mtype.new = .ok (.publish newPublishMessage) := by decide
  refine ⟨hnew, (decode_ne_panic_iff hnew).mpr ?_⟩
  rintro ⟨-, hoverrun | ⟨topic, after, -, -, hqos, -⟩⟩
  · revert hoverrun
    decide
  · exact hqos (by decide)

/-- PUBLISH whose topic is announced as one byte long and is not there. -/
def publishWithoutTopic : Frame := .brief 0x30 [0x00, 0x01]

def pubackWithoutPacketId : Frame := .brief 0x40 []

theorem decode_panics_on_short_frames :
    (publishWithoutTopic.bytes = [0x30, 0x02, 0x00, 0x01] ∧
      publishWithoutTopic.mtype.new = .ok (.publish newPublishMessage) ∧
      Message.decode (Slice.full publishWithoutTopic.bytes) (.publish newPublishMessage) =
        .panic) ∧
    (pubackWithoutPacketId.bytes = [0x40, 0x00] ∧
      pubackWithoutPacketId.mtype.new = .ok (.puback newPubackMessage) ∧
      Message.decode (Slice.full pubackWithoutPacketId.bytes) (.puback newPubackMessage) =
        .panic) := by
  decide +kernel

end Xmqtt.Message
