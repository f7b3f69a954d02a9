import Xmqtt.Message.Connect

/-!
# What decoding accepts

A step of a decoder changes the field it reads and leaves the others alone, so
what was checked early still holds of the message in the end: its type, its
flags and its client id.
-/

namespace Xmqtt.Message

open Xmqtt.Go

section Keeps

variable {σ τ : Type} {f : σ → τ} {a : τ} {this : σ}

theorem keeps_readLPField {set : σ → Bytes → σ} (hset : ∀ v, f (set this v) = a)
    (src : Slice) (total : ℕ) : (readLPField src set this total).Keeps f a := by
  rw [readLPField, readLPThen]
  split
  · trivial
  · split
    · trivial
    · trivial
    · exact hset _

theorem keeps_readByteField {set : σ → Byte → σ} (hset : ∀ v, f (set this v) = a)
    (src : Slice) (total : ℕ) : (readByteField src set this total).Keeps f a := by
  rw [readByteField]
  split
  · trivial
  · exact hset _

end Keeps

theorem Header.keeps_decodeRemlen (this : Header) (src : Slice) :
    (this.decodeRemlen src).Keeps (fun header => (header.dbuf, header.mtypeflags))
      (this.dbuf, this.mtypeflags) := by
  rw [Header.decodeRemlen]
  split
  · trivial
  · simp only
    split_ifs
    · trivial
    · trivial
    · split
      · trivial
      · split_ifs
        · trivial
        · rfl

/-- What a header is like once it was decoded. -/
theorem Header.accepted_of_decode {this result : Header} {src : Slice} {n : ℕ}
    (hdone : this.decode src = .done result n) :
    result.dbuf = src ∧ result.type = this.type ∧ result.type.valid = true ∧
      flagsAccepted result.mtypeflags = true := by
  rw [Header.decode] at hdone
  cases hcells : src.cells with
  | nil =>
      rw [hcells] at hdone
      cases hdone
  | cons first rest =>
      rw [hcells] at hdone
      cases hcheck : (this.adopt src first).checkType this.type with
      | some err =>
          simp only [hcheck, reduceCtorEq] at hdone
      | none =>
          obtain ⟨hvalid, htype, hflags⟩ := (Header.checkType_eq_none_iff _).mp hcheck
          simp only [hcheck] at hdone
          have hkeeps := (this.adopt src first).keeps_decodeRemlen src
          rw [hdone] at hkeeps
          obtain ⟨hdbuf, hmtypeflags⟩ := Prod.mk.inj hkeeps
          have hresult : result.type = (this.adopt src first).type := by
            rw [Header.type, hmtypeflags]
            rfl
          rw [hresult, hmtypeflags]
          exact ⟨hdbuf, htype.symm, hvalid, hflags⟩

namespace ConnectMessage

section Keeps

variable {τ : Type} {f : ConnectMessage → τ} {a : τ} {this : ConnectMessage}

theorem keeps_readWill (hthis : f this = a)
    (hset : ∀ (this : ConnectMessage) (v : Bytes), f { this with willTopic := v } = f this ∧
      f { this with willMessage := v } = f this) (src : Slice) (total : ℕ) :
    (readWill src this total).Keeps f a := by
  rw [readWill]
  split_ifs
  · apply Outcome.Keeps.andThen
    · exact keeps_readLPField (fun v => (hset this v).1.trans hthis) src total
    · intro this count hthis
      exact keeps_readLPField (fun v => (hset this v).2.trans hthis) src count
  · exact hthis

theorem keeps_readOptional (hthis : f this = a) {set : ConnectMessage → Bytes → ConnectMessage}
    (hset : ∀ (this : ConnectMessage) (v : Bytes), f (set this v) = f this) (src : Slice)
    (flag : Bool) (total : ℕ) : (readOptional src flag set this total).Keeps f a := by
  rw [readOptional]
  split_ifs
  · split
    · trivial
    · split_ifs
      · exact keeps_readLPField (fun v => (hset this v).trans hthis) src total
      · exact hthis
  · exact hthis

/-- The fields behind the client id change none of `f`. -/
theorem keeps_rest (hthis : f this = a)
    (hset : ∀ (this : ConnectMessage) (v : Bytes), f { this with willTopic := v } = f this ∧
      f { this with willMessage := v } = f this ∧ f { this with username := v } = f this ∧
      f { this with password := v } = f this) (src : Slice) (total : ℕ) :
    ((readWill src this total).andThen fun this total =>
      (readOptional src this.usernameFlag (fun this v => { this with username := v }) this
        total).andThen fun this total =>
      readOptional src this.passwordFlag (fun this v => { this with password := v }) this
        total).Keeps f a := by
  apply Outcome.Keeps.andThen
  · exact keeps_readWill hthis (fun this v => ⟨(hset this v).1, (hset this v).2.1⟩) src total
  · intro this count hthis
    apply Outcome.Keeps.andThen
    · exact keeps_readOptional hthis (fun this v => (hset this v).2.2.1) src _ count
    · intro this count hthis
      exact keeps_readOptional hthis (fun this v => (hset this v).2.2.2) src _ count

end Keeps

theorem keeps_decodePayload (this : ConnectMessage) (src : Slice) (hn total : ℕ) :
    (decodePayload src hn this total).Keeps ConnectMessage.toHeader this.toHeader := by
  have hkeepAlive : (readKeepAlive src hn this total).Keeps ConnectMessage.toHeader
      this.toHeader := by
    rw [readKeepAlive]
    split
    · trivial
    · split
      · rfl
      · trivial
  apply hkeepAlive.andThen
  intro message count hmessage
  apply Outcome.Keeps.andThen (keeps_readLPField (fun _ => hmessage) src count)
  intro message count hmessage
  apply Outcome.Keeps.andThen (Outcome.keeps_reject hmessage _ _ _)
  intro message count hmessage
  apply Outcome.Keeps.andThen (Outcome.keeps_reject hmessage _ _ _)
  intro message count hmessage
  exact keeps_rest hmessage (fun _ _ => ⟨rfl, rfl, rfl, rfl⟩) src count

theorem keeps_decodeMessage (this : ConnectMessage) (src : Slice) (hn : ℕ) :
    (decodeMessage src this hn).Keeps ConnectMessage.toHeader this.toHeader := by
  apply Outcome.Keeps.andThen (keeps_readLPField (fun _ => rfl) src hn)
  intro message count hmessage
  apply Outcome.Keeps.andThen (keeps_readByteField (fun _ => hmessage) src count)
  intro message count hmessage
  apply Outcome.Keeps.andThen (Outcome.keeps_reject hmessage _ _ _)
  intro message count hmessage
  apply Outcome.Keeps.andThen (keeps_readByteField (fun _ => hmessage) src count)
  intro message count hmessage
  apply Outcome.Keeps.andThen (Outcome.keeps_failOn hmessage _ _)
  intro message count hmessage
  rw [← hmessage]
  exact keeps_decodePayload message src hn count

/-- The header of a decoded CONNECT is the one that was decoded first. -/
theorem header_of_decode {this : ConnectMessage} {src : Slice} {n : ℕ}
    (hdone : newConnectMessage.decode src = .done this n) :
    ∃ header hn, newConnectMessage.toHeader.decode src = .done header hn ∧
      this.toHeader = { header with dirty := false } := by
  obtain ⟨header, hn, hheader, hrest⟩ := Outcome.map_andThen_eq_done_iff.mp hdone
  obtain ⟨message, count, hmessage, hlast⟩ := Outcome.andThen_eq_done_iff.mp hrest
  have hkeeps := keeps_decodeMessage (newConnectMessage.withHeader header) src hn
  rw [hmessage] at hkeeps
  injection hlast with hthis
  have hsame : message.toHeader = header := hkeeps
  refine ⟨header, hn, hheader, ?_⟩
  rw [← hthis, ← hsame]

/-- What a CONNECT is like once it was decoded. -/
theorem accepted_of_decode {this : ConnectMessage} {src : Slice} {n : ℕ}
    (hdone : newConnectMessage.decode src = .done this n) :
    this.dirty = false ∧ this.dbuf = src ∧ this.type = .connect ∧
      flagsAccepted this.mtypeflags = true := by
  obtain ⟨header, hn, hheader, hthis⟩ := header_of_decode hdone
  obtain ⟨hdbuf, htype, -, hflags⟩ := Header.accepted_of_decode hheader
  rw [hthis]
  exact ⟨rfl, hdbuf, htype, hflags⟩

section Decoded

variable {this result : ConnectMessage} {src : Slice} {hn total n : ℕ}

theorem field_of_readKeepAlive (hdone : readKeepAlive src hn this total = .done result n) :
    ∃ keepAlive, result = { this with keepAlive := keepAlive } := by
  rw [readKeepAlive] at hdone
  split at hdone
  · cases hdone
  · split at hdone
    · injection hdone with hresult
      exact ⟨_, hresult.symm⟩
    · cases hdone

theorem fields_of_readWill (hdone : readWill src this total = .done result n)
    (htopic : this.willTopic.length ≤ maxLPString)
    (hmessage : this.willMessage.length ≤ maxLPString) :
    ∃ topic message, topic.length ≤ maxLPString ∧ message.length ≤ maxLPString ∧
      (this.willFlag = false → topic = this.willTopic ∧ message = this.willMessage) ∧
      result = { this with willTopic := topic, willMessage := message } := by
  rw [readWill] at hdone
  split_ifs at hdone with hwill
  · obtain ⟨named, count, htopic, hmessage⟩ := Outcome.andThen_eq_done_iff.mp hdone
    obtain ⟨topic, hshortTopic, rfl⟩ := field_of_readLPField htopic
    obtain ⟨message, hshortMessage, rfl⟩ := field_of_readLPField hmessage
    refine ⟨topic, message, hshortTopic, hshortMessage, fun hclear => ?_, rfl⟩
    cases hclear.symm.trans hwill
  · injection hdone with hresult
    exact ⟨_, _, htopic, hmessage, fun _ => ⟨rfl, rfl⟩, hresult.symm⟩

theorem field_of_readOptional {flag : Bool} {set : ConnectMessage → Bytes → ConnectMessage}
    (hdone : readOptional src flag set this total = .done result n) {old : Bytes}
    (hold : set this old = this) (hshort : old.length ≤ maxLPString) :
    ∃ field, field.length ≤ maxLPString ∧ (flag = false → field = old) ∧
      result = set this field := by
  have hkept : this = result → ∃ field, field.length ≤ maxLPString ∧
      (flag = false → field = old) ∧ result = set this field := fun hresult =>
    ⟨old, hshort, fun _ => rfl, hresult.symm.trans hold.symm⟩
  rw [readOptional] at hdone
  split_ifs at hdone with hflag
  · split at hdone
    · cases hdone
    · split_ifs at hdone
      · obtain ⟨field, hfield, hresult⟩ := field_of_readLPField hdone
        refine ⟨field, hfield, fun hclear => ?_, hresult⟩
        cases hclear.symm.trans hflag
      · injection hdone with hresult
        exact hkept hresult
  · injection hdone with hresult
    exact hkept hresult

/-- The fields of a CONNECT that was decoded into a new message: they have passed the checks,
and those whose flag is clear are empty. -/
structure Decoded (this : ConnectMessage) : Prop where
  version : supportedVersions this.version = some this.protoName
  flags : this.checkFlags = none
  client : this.clientId = [] → this.cleanSession = true
  valid : this.clientId ≠ [] → validClientId this.clientId = true
  short : this.Short
  will : this.willFlag = false → this.willTopic = [] ∧ this.willMessage = []
  username : this.usernameFlag = false → this.username = []
  password : this.passwordFlag = false → this.password = []

theorem decoded_of_decodePayload (hdone : decodePayload src hn this total = .done result n)
    (hversion : supportedVersions this.version = some this.protoName)
    (hflags : this.checkFlags = none)
    (hempty : this.willTopic = [] ∧ this.willMessage = [] ∧ this.username = [] ∧
      this.password = []) : result.Decoded := by
  obtain ⟨hwillTopic, hwillMessage, husername, hpassword⟩ := hempty
  have hshort : ∀ {field : Bytes}, field = [] → field.length ≤ maxLPString := by
    intro field hnil
    rw [hnil]
    exact Nat.zero_le _
  obtain ⟨_, _, hkeepAlive, hclientId⟩ := Outcome.andThen_eq_done_iff.mp hdone
  obtain ⟨keepAlive, rfl⟩ := field_of_readKeepAlive hkeepAlive
  obtain ⟨_, _, hread, hidentified⟩ := Outcome.andThen_eq_done_iff.mp hclientId
  obtain ⟨clientId, hshortId, rfl⟩ := field_of_readLPField hread
  obtain ⟨_, _, hreject, hchecked⟩ := Outcome.andThen_eq_done_iff.mp hidentified
  obtain ⟨hclient, rfl, rfl⟩ := Outcome.reject_eq_done_iff.mp hreject
  obtain ⟨_, _, hreject', hrest⟩ := Outcome.andThen_eq_done_iff.mp hchecked
  obtain ⟨hvalid, rfl, rfl⟩ := Outcome.reject_eq_done_iff.mp hreject'
  obtain ⟨_, _, hwill, hoptional⟩ := Outcome.andThen_eq_done_iff.mp hrest
  obtain ⟨topic, message, hshortTopic, hshortMessage, hclear, rfl⟩ :=
    fields_of_readWill hwill (hshort hwillTopic) (hshort hwillMessage)
  obtain ⟨_, _, hname, hword⟩ := Outcome.andThen_eq_done_iff.mp hoptional
  obtain ⟨username, hshortName, hnoName, rfl⟩ :=
    field_of_readOptional hname rfl (hshort husername)
  obtain ⟨password, hshortWord, hnoWord, rfl⟩ :=
    field_of_readOptional hword rfl (hshort hpassword)
  refine ⟨hversion, hflags, fun hnil => ?_, fun hne => ?_,
    ⟨hshortId, hshortTopic, hshortMessage, hshortName, hshortWord⟩, fun hflag => ?_,
    fun hflag => (hnoName hflag).trans husername, fun hflag => (hnoWord hflag).trans hpassword⟩
  · rw [Bool.and_eq_false_imp] at hclient
    have hset := hclient (beq_iff_eq.mpr (congrArg List.length hnil))
    rw [Bool.not_eq_false'] at hset
    exact hset
  · simp only at hne hvalid
    simpa [List.length_pos_iff.mpr hne] using hvalid
  · exact ⟨(hclear hflag).1.trans hwillTopic, (hclear hflag).2.trans hwillMessage⟩

theorem decoded_of_decode (hdone : newConnectMessage.decode src = .done this n) :
    this.Decoded := by
  obtain ⟨header, hn, -, hbehind⟩ := Outcome.map_andThen_eq_done_iff.mp hdone
  obtain ⟨message, count, hmessage, hlast⟩ := Outcome.andThen_eq_done_iff.mp hbehind
  injection hlast with hthis
  obtain ⟨_, _, hname, hbehindName⟩ := Outcome.andThen_eq_done_iff.mp hmessage
  obtain ⟨protoName, -, rfl⟩ := field_of_readLPField hname
  obtain ⟨_, _, hversion, hbehindVersion⟩ := Outcome.andThen_eq_done_iff.mp hbehindName
  obtain ⟨version, rfl⟩ := byte_of_readByteField hversion
  obtain ⟨_, _, hreject, hchecked⟩ := Outcome.andThen_eq_done_iff.mp hbehindVersion
  obtain ⟨hsupported, rfl, rfl⟩ := Outcome.reject_eq_done_iff.mp hreject
  obtain ⟨_, _, hbyte, hbehindFlags⟩ := Outcome.andThen_eq_done_iff.mp hchecked
  obtain ⟨flags, rfl⟩ := byte_of_readByteField hbyte
  obtain ⟨_, _, hcheck, hpayload⟩ := Outcome.andThen_eq_done_iff.mp hbehindFlags
  obtain ⟨hflags, rfl, rfl⟩ := Outcome.failOn_eq_done_iff.mp hcheck
  obtain ⟨hversion, hflags, hclient, hvalid, hshort, hwill, husername, hpassword⟩ :=
    decoded_of_decodePayload hpayload (by simpa using hsupported) hflags
      ⟨rfl, rfl, rfl, rfl⟩
  rw [← hthis]
  exact ⟨hversion, hflags, hclient, hvalid,
    ⟨hshort.clientId, hshort.willTopic, hshort.willMessage, hshort.username, hshort.password⟩,
    hwill, husername, hpassword⟩

/-- A client id that was decoded is valid if it is not empty. -/
theorem validClientId_of_decode (hdone : newConnectMessage.decode src = .done this n)
    (hid : this.clientId ≠ []) : validClientId this.clientId = true :=
  (decoded_of_decode hdone).valid hid

end Decoded

/-- The client id is read from where it was written. -/
theorem clientId_of_decodePayload {this source message : ConnectMessage} {src : Slice}
    {spare : Bytes} {hn total n : ℕ}
    (htail : src.tail total = some ⟨source.payloadBytes, spare⟩)
    (hid : source.clientId.length ≤ maxLPString)
    (hdone : decodePayload src hn this total = .done message n) :
    message.clientId = source.clientId := by
  have hidTail := Slice.tail_add htail
  have htwo : (uint16Bytes source.keepAlive.toNat).length = 2 := rfl
  rw [htwo] at hidTail
  rw [decodePayload, readKeepAlive_eq htail, Outcome.done_andThen,
    readLPField_lpBytes hidTail hid, Outcome.done_andThen] at hdone
  obtain ⟨_, _, hreject, hdone⟩ := Outcome.andThen_eq_done_iff.mp hdone
  obtain ⟨-, rfl, rfl⟩ := Outcome.reject_eq_done_iff.mp hreject
  obtain ⟨_, _, hreject, hdone⟩ := Outcome.andThen_eq_done_iff.mp hdone
  obtain ⟨-, rfl, rfl⟩ := Outcome.reject_eq_done_iff.mp hreject
  have hkeeps : Outcome.Keeps ConnectMessage.clientId source.clientId
      (.done message n : Outcome Err ConnectMessage) := by
    rw [← hdone]
    exact keeps_rest rfl (fun _ _ => ⟨rfl, rfl, rfl, rfl⟩) _ _
  exact hkeeps

/-- The client id is read back from an encoded CONNECT. -/
theorem clientId_of_decode_wire {source decoded : ConnectMessage} {verstr spare : Bytes}
    {header : Header} {n : ℕ} (htype : header.type = .connect)
    (hflags : flagsAccepted header.mtypeflags = true)
    (hremlen : header.remlen = (source.body verstr).length)
    (hbound : header.remlen ≤ maxRemainingLength)
    (hversion : supportedVersions source.version = some verstr)
    (hid : source.clientId.length ≤ maxLPString)
    (hdone : newConnectMessage.decode ⟨header.wire ++ source.body verstr, spare⟩ =
      .done decoded n) : decoded.clientId = source.clientId := by
  have hheader : newConnectMessage.toHeader.decode _ = _ :=
    Header.decode_wire hremlen hbound [] spare (by rw [htype]; rfl) (by rw [htype]; rfl) hflags
  have htail := Header.tail_wire hremlen hbound [] spare
  rw [List.append_nil] at hheader htail
  rw [List.append_nil] at htail
  have hversionTail := Slice.tail_add htail
  have hflagsTail := Slice.tail_succ hversionTail
  rw [decode, hheader, Outcome.map_done, Outcome.done_andThen] at hdone
  obtain ⟨message, count, hmessage, hlast⟩ := Outcome.andThen_eq_done_iff.mp hdone
  injection hlast with hdecoded
  rw [decodeMessage, readLPField_lpBytes htail ((length_supportedVersions hversion).trans
    (by decide)), Outcome.done_andThen, readByteField_cons hversionTail,
    Outcome.done_andThen] at hmessage
  obtain ⟨_, _, hreject, hmessage⟩ := Outcome.andThen_eq_done_iff.mp hmessage
  obtain ⟨-, rfl, rfl⟩ := Outcome.reject_eq_done_iff.mp hreject
  rw [readByteField_cons hflagsTail, Outcome.done_andThen] at hmessage
  obtain ⟨_, _, hcheck, hmessage⟩ := Outcome.andThen_eq_done_iff.mp hmessage
  obtain ⟨-, rfl, rfl⟩ := Outcome.failOn_eq_done_iff.mp hcheck
  have hpayload : Slice.tail ⟨_, spare⟩ _ = some ⟨source.payloadBytes, spare⟩ :=
    Slice.tail_succ hflagsTail
  have hclientId := clientId_of_decodePayload hpayload hid hmessage
  rw [← hdecoded]
  exact hclientId

end ConnectMessage

end Xmqtt.Message
