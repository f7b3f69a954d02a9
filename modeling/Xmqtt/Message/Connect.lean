import Xmqtt.Message.Encode
import Xmqtt.Message.Frame

/-!
# CONNECT

The CONNECT message of `connect.go`.  Six bits of the connect flags switch the
fields behind the client id on and off; encoder, decoder and `msglen` each
follow them on their own.
-/

namespace Xmqtt.Message

open Xmqtt.Go

/-- `SupportedVersions`: "MQIsdp" for version 3 and "MQTT" for version 4. -/
def supportedVersions (version : Byte) : Option Bytes :=
  if version = 0x3 then some [0x4d, 0x51, 0x49, 0x73, 0x64, 0x70]
  else if version = 0x4 then some [0x4d, 0x51, 0x54, 0x54]
  else none

theorem length_supportedVersions {version : Byte} {verstr : Bytes}
    (hversion : supportedVersions version = some verstr) : verstr.length ≤ 6 := by
  simp only [supportedVersions] at hversion
  split_ifs at hversion <;> cases hversion <;> decide

structure ConnectMessage extends Header where
  connectFlags : Byte
  version : Byte
  keepAlive : UInt16
  protoName : Bytes
  clientId : Bytes
  willTopic : Bytes
  willMessage : Bytes
  username : Bytes
  password : Bytes
  deriving DecidableEq, Repr

def newConnectMessage : ConnectMessage where
  toHeader := newHeader .connect
  connectFlags := 0
  version := 0
  keepAlive := 0
  protoName := []
  clientId := []
  willTopic := []
  willMessage := []
  username := []
  password := []

namespace ConnectMessage

def withHeader (this : ConnectMessage) (header : Header) : ConnectMessage :=
  { this with toHeader := header }

def setVersion (this : ConnectMessage) (v : Byte) : ConnectMessage × Option Err :=
  if supportedVersions v = none then
    (this, some (.errorf "connect/SetVersion: Invalid version number %d" [.int v.toNat]))
  else ({ this with version := v, dirty := true }, none)

/-- One bit of the connect flags. -/
def connectFlag (this : ConnectMessage) (shift : Byte) : Bool :=
  (this.connectFlags >>> shift) &&& 0x1 == 1

/-- Set a bit of the connect flags with `mask`, or clear it with `clear`. -/
def setConnectFlag (this : ConnectMessage) (mask clear : Byte) (v : Bool) : ConnectMessage :=
  { this with
    connectFlags := if v then this.connectFlags ||| mask else this.connectFlags &&& clear
    dirty := true }

def cleanSession (this : ConnectMessage) : Bool := this.connectFlag 1

def setCleanSession (this : ConnectMessage) (v : Bool) : ConnectMessage :=
  this.setConnectFlag 0x2 253 v

def willFlag (this : ConnectMessage) : Bool := this.connectFlag 2

def setWillFlag (this : ConnectMessage) (v : Bool) : ConnectMessage :=
  this.setConnectFlag 0x4 251 v

def willQos (this : ConnectMessage) : Byte := (this.connectFlags >>> 3) &&& 0x3

def setWillQos (this : ConnectMessage) (qos : Byte) : ConnectMessage × Option Err :=
  if qos ≠ qosAtMostOnce ∧ qos ≠ qosAtLeastOnce ∧ qos ≠ qosExactlyOnce then
    (this, some (.errorf "connect/SetWillQos: Invalid QoS level %d" [.int qos.toNat]))
  else
    ({ this with
        connectFlags := (this.connectFlags &&& (231 : Byte)) ||| (qos <<< 3)
        dirty := true }, none)

def willRetain (this : ConnectMessage) : Bool := this.connectFlag 5

def setWillRetain (this : ConnectMessage) (v : Bool) : ConnectMessage :=
  this.setConnectFlag 32 223 v

def usernameFlag (this : ConnectMessage) : Bool := this.connectFlag 7

def setUsernameFlag (this : ConnectMessage) (v : Bool) : ConnectMessage :=
  this.setConnectFlag 128 127 v

def passwordFlag (this : ConnectMessage) : Bool := this.connectFlag 6

def setPasswordFlag (this : ConnectMessage) (v : Bool) : ConnectMessage :=
  this.setConnectFlag 64 191 v

def setKeepAlive (this : ConnectMessage) (v : UInt16) : ConnectMessage :=
  { this with keepAlive := v, dirty := true }

/-- `strings.ContainsAny(cid, "|securemode&algorithm&timeStamp")`: a client id
needs one of these characters. -/
def validClientId (cid : Bytes) : Bool :=
  cid.any fun byte => "|securemode&algorithm&timeStamp".toUTF8.toList.contains byte

def setClientId (this : ConnectMessage) (v : Bytes) : ConnectMessage × Option Err :=
  if v.length ≤ 0 then (this, some (.connack errIdentifierRejected))
  else if !validClientId v then (this, some (.connack errIdentifierRejected))
  else ({ this with clientId := v, dirty := true }, none)

/-- `SetWillTopic` and `SetWillMessage` switch the Will flag on for a non-empty
value, and off for an empty one when the other field is empty too. -/
def updateWillFlag (this : ConnectMessage) (v other : Bytes) : ConnectMessage :=
  if 0 < v.length then this.setWillFlag true
  else if other.length = 0 then this.setWillFlag false
  else { this with dirty := true }

def setWillTopic (this : ConnectMessage) (v : Bytes) : ConnectMessage :=
  { this with willTopic := v }.updateWillFlag v this.willMessage

def setWillMessage (this : ConnectMessage) (v : Bytes) : ConnectMessage :=
  { this with willMessage := v }.updateWillFlag v this.willTopic

def setUsername (this : ConnectMessage) (v : Bytes) : ConnectMessage :=
  { this with username := v }.setUsernameFlag (0 < v.length)

def setPassword (this : ConnectMessage) (v : Bytes) : ConnectMessage :=
  { this with password := v }.setPasswordFlag (0 < v.length)

def msglen (this : ConnectMessage) : ℕ :=
  match supportedVersions this.version with
  | none => 0
  | some verstr =>
      2 + verstr.length + 1 + 1 + 2 + (2 + this.clientId.length) +
        (if this.willFlag then 2 + this.willTopic.length + 2 + this.willMessage.length
          else 0) +
        (if this.usernameFlag ∧ 0 < this.username.length then 2 + this.username.length
          else 0) +
        if this.passwordFlag ∧ 0 < this.password.length then 2 + this.password.length
        else 0

def len (this : ConnectMessage) : ConnectMessage × ℕ :=
  (this.withHeader (this.lenOf this.msglen).1, (this.lenOf this.msglen).2)

/-- The two bytes of the keep-alive time.  Unlike the other errors of
`decodeMessage` this one does not count what was read before it. -/
def readKeepAlive (src : Slice) (hn : ℕ) (this : ConnectMessage) (total : ℕ) :
    Outcome Err ConnectMessage :=
  match src.tail total with
  | none => .panic
  | some buf =>
      match buf.bytes with
      | high :: low :: _ =>
          .done { this with keepAlive := UInt16.ofNat (bigEndianUint16 high low) } (total + 2)
      | _ =>
          .fail this hn (.errorf
            "connect/decodeMessage: Insufficient buffer size. Expecting %d, got %d."
            [.int 2, .int buf.bytes.length])

/-- A length-prefixed field that is read if its flag is set and anything is
left. -/
def readOptional (src : Slice) (flag : Bool) (set : ConnectMessage → Bytes → ConnectMessage)
    (this : ConnectMessage) (total : ℕ) : Outcome Err ConnectMessage :=
  if flag then
    match src.tail total with
    | none => .panic
    | some buf =>
        if 0 < buf.bytes.length then readLPField src set this total else .done this total
  else .done this total

def readWill (src : Slice) (this : ConnectMessage) (total : ℕ) :
    Outcome Err ConnectMessage :=
  if this.willFlag then
    (readLPField src (fun this v => { this with willTopic := v }) this total).andThen
      (readLPField src (fun this v => { this with willMessage := v }))
  else .done this total

/-- The fields behind the connect flags. -/
def decodePayload (src : Slice) (hn : ℕ) (this : ConnectMessage) (total : ℕ) :
    Outcome Err ConnectMessage :=
  (readKeepAlive src hn this total).andThen fun this total =>
  (readLPField src (fun this v => { this with clientId := v }) this total).andThen
    fun this total =>
  (Outcome.reject (this.clientId.length == 0 && !this.cleanSession)
    (.connack errIdentifierRejected) this total).andThen fun this total =>
  (Outcome.reject (0 < this.clientId.length && !validClientId this.clientId)
    (.connack errIdentifierRejected) this total).andThen fun this total =>
  (readWill src this total).andThen fun this total =>
  (readOptional src this.usernameFlag (fun this v => { this with username := v }) this
    total).andThen fun this total =>
  readOptional src this.passwordFlag (fun this v => { this with password := v }) this total

/-- The checks on the connect flags. -/
def checkFlags (this : ConnectMessage) : Option Err :=
  if this.connectFlags &&& 0x1 ≠ 0 then
    some (.errorf "connect/decodeMessage: Connect Flags reserved bit 0 is not 0" [])
  else if this.willQos > qosExactlyOnce then
    some (.errorf "connect/decodeMessage: Invalid QoS level (%d) for %s message"
      [.int this.willQos.toNat, .string "CONNECT"])
  else if !this.willFlag ∧ (this.willRetain ∨ this.willQos ≠ qosAtMostOnce) then
    some (.errorf
      "connect/decodeMessage: Protocol violation: If the Will Flag (%t) is set to 0 the Will QoS (%d) and Will Retain (%t) fields MUST be set to zero"
      [.bool this.willFlag, .int this.willQos.toNat, .bool this.willRetain])
  else if !this.usernameFlag ∧ this.passwordFlag then
    some (.errorf
      "connect/decodeMessage: Username flag is not set but Password flag is set, invalid" [])
  else none

def decodeMessage (src : Slice) (this : ConnectMessage) (hn : ℕ) :
    Outcome Err ConnectMessage :=
  (readLPField src (fun this v => { this with protoName := v }) this hn).andThen
    fun this total =>
  (readByteField src (fun this v => { this with version := v }) this total).andThen
    fun this total =>
  (Outcome.reject (supportedVersions this.version != some this.protoName)
    (.connack errInvalidProtocolVersion) this total).andThen fun this total =>
  (readByteField src (fun this v => { this with connectFlags := v }) this total).andThen
    fun this total =>
  (Outcome.failOn this.checkFlags this total).andThen (decodePayload src hn)

def decode (this : ConnectMessage) (src : Slice) : Outcome Err ConnectMessage :=
  ((this.toHeader.decode src).map this.withHeader).andThen fun this hn =>
  (decodeMessage src this hn).andThen fun this total =>
  .done { this with dirty := false } total

def encodeMessage (this : ConnectMessage) (verstr : Bytes) (state : Encoded ConnectMessage)
    (total : ℕ) : Outcome Err (Encoded ConnectMessage) :=
  (emitLP verstr state total).andThen fun state total =>
  (emitByte this.version state total).andThen fun state total =>
  (emitByte this.connectFlags state total).andThen fun state total =>
  (emitUint16 this.keepAlive.toNat state total).andThen fun state total =>
  (emitLP this.clientId state total).andThen fun state total =>
  (if this.willFlag then
    (emitLP this.willTopic state total).andThen (emitLP this.willMessage)
  else .done state total).andThen fun state total =>
  (if this.usernameFlag ∧ 0 < this.username.length then emitLP this.username state total
    else .done state total).andThen fun state total =>
  if this.passwordFlag ∧ 0 < this.password.length then emitLP this.password state total
  else .done state total

def encode (this : ConnectMessage) (dst : Bytes) (gPacketId : UInt64) :
    Outcome Err (Encoded ConnectMessage) :=
  if !this.dirty then encodeClean "connect" this.toHeader ⟨this, dst, gPacketId⟩
  else if this.type ≠ .connect then
    .fail ⟨this, dst, gPacketId⟩ 0 (.errorf
      "connect/Encode: Invalid message type. Expecting %d, got %d"
      [.int MessageType.connect.value.toNat, .int this.type.value.toNat])
  else
    match supportedVersions this.version with
    | none => .fail ⟨this, dst, gPacketId⟩ 0 (.connack errInvalidProtocolVersion)
    | some verstr =>
        encodeBody this.toHeader this.withHeader this.msglen (this.encodeMessage verstr) dst
          gPacketId "connect"

/-! ## What a successful encode writes -/

/-- The Will fields on the wire. -/
def willBytes (this : ConnectMessage) : Bytes :=
  if this.willFlag then lpBytes this.willTopic ++ lpBytes this.willMessage else []

/-- A field that is there if its flag is set and it is not empty. -/
def optionalBytes (flag : Bool) (field : Bytes) : Bytes :=
  if flag ∧ 0 < field.length then lpBytes field else []

/-- The wire form of everything behind the fixed header. -/
def body (this : ConnectMessage) (verstr : Bytes) : Bytes :=
  lpBytes verstr ++ ([this.version] ++ ([this.connectFlags] ++
    (uint16Bytes this.keepAlive.toNat ++ (lpBytes this.clientId ++ (this.willBytes ++
      (optionalBytes this.usernameFlag this.username ++
        optionalBytes this.passwordFlag this.password))))))

theorem msglen_eq {this : ConnectMessage} {verstr : Bytes}
    (hversion : supportedVersions this.version = some verstr) :
    this.msglen = (this.body verstr).length := by
  rw [msglen, hversion]
  simp only [body, willBytes, optionalBytes, List.length_append, length_lpBytes,
    length_uint16Bytes, List.length_singleton]
  split_ifs <;> simp only [List.length_append, length_lpBytes, List.length_nil] <;> omega

/-- What the fields must satisfy to be written. -/
def Fits (this : ConnectMessage) : Prop :=
  this.clientId.length ≤ maxLPString ∧
    (this.willFlag = true →
      this.willTopic.length ≤ maxLPString ∧ this.willMessage.length ≤ maxLPString) ∧
    (this.usernameFlag = true → this.username.length ≤ maxLPString) ∧
    (this.passwordFlag = true → this.password.length ≤ maxLPString)

theorem emitOptional_writes {μ : Type} (flag : Bool) (field : Bytes) :
    Writes (μ := μ)
      (fun state total => if flag ∧ 0 < field.length then emitLP field state total
        else .done state total)
      (flag = true → field.length ≤ maxLPString) (optionalBytes flag field) := by
  refine (Writes.ite (flag ∧ 0 < field.length) (emitLP_writes field) writes_done).of_iff ?_
  by_cases hflag : flag = true
  · by_cases hfield : 0 < field.length
    · simp [hflag, hfield]
    · have hzero : field.length = 0 := by omega
      simp [hflag, hzero]
  · simp [hflag]

theorem emitWill_writes {μ : Type} (this : ConnectMessage) :
    Writes (μ := μ)
      (fun state total => if this.willFlag then
        (emitLP this.willTopic state total).andThen (emitLP this.willMessage)
        else .done state total)
      (this.willFlag = true →
        this.willTopic.length ≤ maxLPString ∧ this.willMessage.length ≤ maxLPString)
      this.willBytes := by
  refine (Writes.ite (this.willFlag = true)
    ((emitLP_writes this.willTopic).andThen (emitLP_writes this.willMessage))
    writes_done).of_iff ?_
  by_cases hflag : this.willFlag = true <;> simp [hflag]

theorem encodeMessage_writes (this : ConnectMessage) {verstr : Bytes}
    (hversion : supportedVersions this.version = some verstr) :
    Writes (this.encodeMessage verstr) this.Fits (this.body verstr) := by
  have hshort : verstr.length ≤ maxLPString :=
    (length_supportedVersions hversion).trans (by decide)
  refine ((emitLP_writes verstr).andThen ((emitByte_writes this.version).andThen
    ((emitByte_writes this.connectFlags).andThen
    ((emitUint16_writes this.keepAlive.toNat).andThen ((emitLP_writes this.clientId).andThen
    (this.emitWill_writes.andThen ((emitOptional_writes this.usernameFlag this.username).andThen
      (emitOptional_writes this.passwordFlag this.password)))))))).of_iff ?_
  simp only [hshort, true_and, Fits]

/-- `Encode` of a changed CONNECT. -/
theorem encode_eq_done_iff {this : ConnectMessage} (hdirty : this.dirty = true)
    {dst : Bytes} {gPacketId : UInt64} {state : Encoded ConnectMessage} {n : ℕ} :
    this.encode dst gPacketId = .done state n ↔
      this.type = .connect ∧ ∃ verstr, supportedVersions this.version = some verstr ∧
        Emits this.toHeader this.msglen this.Fits (this.body verstr) dst
          (this.withHeader (this.sized this.msglen)) gPacketId state n := by
  rw [encode, if_neg (by simp [hdirty])]
  by_cases htype : this.type = .connect
  · rw [if_neg (not_not.mpr htype)]
    cases hversion : supportedVersions this.version with
    | none => simp
    | some verstr =>
        simp only [Option.some.injEq, exists_eq_left', and_iff_right htype]
        exact encodeBody_writes_eq_done_iff (this.encodeMessage_writes hversion)
          (msglen_eq hversion)
  · rw [if_pos htype]
    simp [htype]

/-! ## Decoding what was encoded -/

section Decode

variable {this source : ConnectMessage} {src : Slice} {hn total : ℕ} {more spare : Bytes}

theorem readKeepAlive_eq {value : UInt16}
    (htail : src.tail total = some ⟨uint16Bytes value.toNat ++ more, spare⟩) :
    readKeepAlive src hn this total = .done { this with keepAlive := value } (total + 2) := by
  have hvalue := bigEndianUint16_uint16Bytes value.toNat_lt
  rw [readKeepAlive, htail]
  simp only [uint16Bytes, List.cons_append, List.nil_append, hvalue, UInt16.ofNat_toNat]

theorem readWill_eq (hwill : this.willFlag = source.willFlag)
    (htail : src.tail total = some ⟨source.willBytes ++ more, spare⟩)
    (hfits : source.willFlag = true →
      source.willTopic.length ≤ maxLPString ∧ source.willMessage.length ≤ maxLPString) :
    readWill src this total =
      .done
        { this with
          willTopic := if source.willFlag then source.willTopic else this.willTopic
          willMessage := if source.willFlag then source.willMessage else this.willMessage }
        (total + source.willBytes.length) := by
  rw [readWill, hwill]
  by_cases hflag : source.willFlag = true
  · rw [willBytes, if_pos hflag] at htail ⊢
    rw [List.append_assoc] at htail
    rw [if_pos hflag, if_pos hflag, if_pos hflag,
      readLPField_lpBytes htail (hfits hflag).1, Outcome.done_andThen,
      readLPField_lpBytes (Slice.tail_add htail) (hfits hflag).2, List.length_append,
      add_assoc]
  · rw [willBytes, if_neg hflag, if_neg hflag, if_neg hflag, if_neg hflag]
    rfl

/-- An empty field is not there.  It is not missed if nothing follows and the message
has an empty one. -/
theorem readOptional_eq {read flag : Bool} (hread : read = flag)
    {set : ConnectMessage → Bytes → ConnectMessage} {field old : Bytes}
    (htail : src.tail total = some ⟨optionalBytes flag field ++ more, spare⟩)
    (hpresent : flag = true → 0 < field.length ∨ more = [] ∧ old = [])
    (hfits : flag = true → field.length ≤ maxLPString) (hold : set this old = this) :
    readOptional src read set this total =
      .done (set this (if flag then field else old))
        (total + (optionalBytes flag field).length) := by
  rw [readOptional, hread]
  by_cases hflag : flag = true
  · by_cases hfield : 0 < field.length
    · have hbytes : optionalBytes flag field = lpBytes field := if_pos ⟨hflag, hfield⟩
      rw [hbytes] at htail ⊢
      rw [if_pos hflag, if_pos hflag, htail]
      simp only [List.length_append, length_lpBytes]
      rw [if_pos (by omega), readLPField_lpBytes htail (hfits hflag), length_lpBytes]
    · obtain ⟨hmore, hnil⟩ := (hpresent hflag).resolve_left hfield
      have hempty : field = [] := List.length_eq_zero_iff.mp (by omega)
      have hbytes : optionalBytes flag field = [] := if_neg fun h => hfield h.2
      rw [hbytes, hmore] at htail
      rw [hnil] at hold
      rw [hbytes, if_pos hflag, if_pos hflag, htail, hempty, hold]
      rfl
  · have hbytes : optionalBytes flag field = [] := if_neg fun h => hflag h.1
    rw [hbytes, if_neg hflag, if_neg hflag, hold]
    rfl

/-- What a decoder makes of the payload of `source`: the Will fields, the user
name and the password are set only if their flag is. -/
def withPayload (this source : ConnectMessage) : ConnectMessage :=
  { this with
    keepAlive := source.keepAlive
    clientId := source.clientId
    willTopic := if source.willFlag then source.willTopic else this.willTopic
    willMessage := if source.willFlag then source.willMessage else this.willMessage
    username := if source.usernameFlag then source.username else this.username
    password := if source.passwordFlag then source.password else this.password }

/-- The wire form of the fields behind the connect flags. -/
def payloadBytes (source : ConnectMessage) : Bytes :=
  uint16Bytes source.keepAlive.toNat ++ (lpBytes source.clientId ++ (source.willBytes ++
    (optionalBytes source.usernameFlag source.username ++
      optionalBytes source.passwordFlag source.password)))

/-- What `source` must satisfy for `this` to decode its payload.  An empty user name or
password is not sent, so nothing may follow it. -/
structure Readable (this source : ConnectMessage) : Prop where
  client : source.clientId = [] → source.cleanSession = true
  valid : source.clientId ≠ [] → validClientId source.clientId = true
  username : source.usernameFlag = true → 0 < source.username.length ∨
    optionalBytes source.passwordFlag source.password = [] ∧ this.username = []
  password : source.passwordFlag = true → 0 < source.password.length ∨ this.password = []

theorem Readable.of_present (hclient : 0 < source.clientId.length)
    (hvalid : validClientId source.clientId = true)
    (husername : source.usernameFlag = true → 0 < source.username.length)
    (hpassword : source.passwordFlag = true → 0 < source.password.length) :
    this.Readable source where
  client := fun hnil => absurd hnil (List.ne_nil_of_length_pos hclient)
  valid := fun _ => hvalid
  username := fun hflag => Or.inl (husername hflag)
  password := fun hflag => Or.inl (hpassword hflag)

theorem decodePayload_eq (hflags : this.connectFlags = source.connectFlags)
    (htail : src.tail total = some ⟨source.payloadBytes, spare⟩) (hfits : source.Fits)
    (hreadable : this.Readable source) :
    decodePayload src hn this total =
      .done (this.withPayload source) (total + source.payloadBytes.length) := by
  obtain ⟨hclientId, hwillFits, husernameFits, hpasswordFits⟩ := hfits
  have hbits : ∀ shift, this.connectFlag shift = source.connectFlag shift := fun shift => by
    rw [connectFlag, connectFlag, hflags]
  have hclientTail := Slice.tail_add htail
  have hwillTail := Slice.tail_add hclientTail
  have husernameTail := Slice.tail_add hwillTail
  have hpasswordTail := Slice.tail_add husernameTail
  rw [← List.append_nil (optionalBytes source.passwordFlag source.password)] at hpasswordTail
  have hidentified : (source.clientId.length == 0 && !this.cleanSession) = false := by
    rw [Bool.and_eq_false_imp, beq_iff_eq, List.length_eq_zero_iff]
    intro hnil
    rw [cleanSession, hbits 1, Bool.not_eq_false']
    exact hreadable.client hnil
  have hvalid : (decide (0 < source.clientId.length) &&
      !validClientId source.clientId) = false := by
    rw [Bool.and_eq_false_imp, decide_eq_true_eq, Bool.not_eq_false']
    exact fun hpos => hreadable.valid (List.ne_nil_of_length_pos hpos)
  rw [payloadBytes]
  simp only [List.length_append, ← add_assoc]
  refine Outcome.andThen_of_done (readKeepAlive_eq htail) ?_
  refine Outcome.andThen_of_done (readLPField_lpBytes hclientTail hclientId _ _) ?_
  refine Outcome.andThen_of_done (Outcome.reject_of_false hidentified _ _ _) ?_
  refine Outcome.andThen_of_done (Outcome.reject_of_false hvalid _ _ _) ?_
  refine Outcome.andThen_of_done (readWill_eq (hbits 2) hwillTail hwillFits) ?_
  refine Outcome.andThen_of_done
    (readOptional_eq (hbits 7) husernameTail hreadable.username husernameFits rfl) ?_
  exact readOptional_eq (hbits 6) hpasswordTail
    (fun hflag => (hreadable.password hflag).imp_right fun hnil => ⟨rfl, hnil⟩) hpasswordFits rfl

/-- The checks on the connect flags pass for a Will that is consistent and a
password that comes with a user name. -/
theorem checkFlags_eq_none (hreserved : this.connectFlags &&& 0x1 = 0)
    (hqos : this.willQos ≤ 2)
    (hwill : this.willFlag = true ∨ this.willQos = 0 ∧ this.willRetain = false)
    (hpassword : this.passwordFlag = true → this.usernameFlag = true) :
    this.checkFlags = none := by
  rw [checkFlags, if_neg (not_not.mpr hreserved), 
    if_neg (show ¬ this.willQos > qosExactlyOnce from UInt8.not_lt.mpr hqos)]
  rw [if_neg, if_neg]
  · rintro ⟨husername, hset⟩
    simp [hpassword hset] at husername
  · rintro ⟨hclear, hset⟩
    rcases hwill with hflag | ⟨hzero, hretain⟩
    · simp [hflag] at hclear
    · simp [hretain, hzero, qosAtMostOnce] at hset

theorem decodeMessage_eq {verstr : Bytes}
    (hversion : supportedVersions source.version = some verstr)
    (htail : src.tail hn = some ⟨source.body verstr, spare⟩)
    (hlp : verstr.length ≤ maxLPString) (hflags : source.checkFlags = none)
    (hfits : source.Fits) (hreadable : this.Readable source) :
    decodeMessage src this hn =
      .done
        ({ this with
            protoName := verstr
            version := source.version
            connectFlags := source.connectFlags }.withPayload source)
        (hn + (source.body verstr).length) := by
  have hversionTail := Slice.tail_add htail
  have hflagsTail := Slice.tail_succ hversionTail
  have hpayloadTail := Slice.tail_succ hflagsTail
  have hcount : hn + (source.body verstr).length =
      hn + (lpBytes verstr).length + 1 + 1 + source.payloadBytes.length := by
    simp only [body, payloadBytes, List.length_append, List.length_singleton]
    omega
  rw [hcount]
  refine Outcome.andThen_of_done (readLPField_lpBytes htail hlp _ _) ?_
  refine Outcome.andThen_of_done (readByteField_cons hversionTail _ _) ?_
  refine Outcome.andThen_of_done (Outcome.reject_of_false (by simp [hversion]) _ _ _) ?_
  refine Outcome.andThen_of_done (readByteField_cons hflagsTail _ _) ?_
  refine Outcome.andThen_of_done (Outcome.failOn_of_none hflags _ _) ?_
  exact decodePayload_eq rfl hpayloadTail hfits
    ⟨hreadable.client, hreadable.valid, hreadable.username, hreadable.password⟩

end Decode

/-! ## Round trip -/

/-- A CONNECT that has changed since it was made or decoded. -/
structure Changed (this : ConnectMessage) : Prop where
  dirty : this.dirty = true
  mtypeflags : this.mtypeflags = (newHeader .connect).mtypeflags
  reserved : this.connectFlags &&& 0x1 = 0

/-- All strings are short enough for a length prefix. -/
structure Short (this : ConnectMessage) : Prop where
  clientId : this.clientId.length ≤ 65535
  willTopic : this.willTopic.length ≤ 65535
  willMessage : this.willMessage.length ≤ 65535
  username : this.username.length ≤ 65535
  password : this.password.length ≤ 65535

theorem Short.fits {this : ConnectMessage} (hshort : this.Short) : this.Fits :=
  ⟨hshort.clientId, fun _ => ⟨hshort.willTopic, hshort.willMessage⟩,
    fun _ => hshort.username, fun _ => hshort.password⟩

theorem Fits.msglen_le {this : ConnectMessage} (hfits : this.Fits) :
    this.msglen ≤ 268435455 := by
  obtain ⟨hclientId, hwill, husername, hpassword⟩ := hfits
  simp only [maxLPString] at hclientId hwill husername hpassword
  rw [msglen]
  cases hversion : supportedVersions this.version with
  | none => simp
  | some verstr =>
      have hlength := length_supportedVersions hversion
      simp only
      split_ifs <;> simp_all <;> omega

/-- A call of one of the setters. -/
inductive Setter where
  | version (v : Byte)
  | cleanSession (v : Bool)
  | willFlag (v : Bool)
  | willQos (v : Byte)
  | willRetain (v : Bool)
  | usernameFlag (v : Bool)
  | passwordFlag (v : Bool)
  | keepAlive (v : UInt16)
  | clientId (v : Bytes)
  | willTopic (v : Bytes)
  | willMessage (v : Bytes)
  | username (v : Bytes)
  | password (v : Bytes)
  deriving DecidableEq, Repr

def perform (this : ConnectMessage) : Setter → ConnectMessage
  | .version v => (this.setVersion v).1
  | .cleanSession v => this.setCleanSession v
  | .willFlag v => this.setWillFlag v
  | .willQos v => (this.setWillQos v).1
  | .willRetain v => this.setWillRetain v
  | .usernameFlag v => this.setUsernameFlag v
  | .passwordFlag v => this.setPasswordFlag v
  | .keepAlive v => this.setKeepAlive v
  | .clientId v => (this.setClientId v).1
  | .willTopic v => this.setWillTopic v
  | .willMessage v => this.setWillMessage v
  | .username v => this.setUsername v
  | .password v => this.setPassword v

theorem changed_newConnectMessage : newConnectMessage.Changed := ⟨rfl, rfl, rfl⟩

theorem reserved_or : ∀ mask ∈ [(0x2 : Byte), 0x4, 32, 64, 128], ∀ flags : Byte,
    flags &&& 0x1 = 0 → (flags ||| mask) &&& 0x1 = 0 := by
  decide +kernel

theorem reserved_willQos : ∀ qos ∈ [(0 : Byte), 1, 2], ∀ flags : Byte,
    flags &&& 0x1 = 0 → ((flags &&& (231 : Byte)) ||| (qos <<< 3)) &&& 0x1 = 0 := by
  decide +kernel

/-- Setting or clearing a flag other than the reserved one. -/
theorem Changed.setConnectFlag {this : ConnectMessage} (hchanged : this.Changed)
    {mask : Byte} (hmask : mask ∈ [(0x2 : Byte), 0x4, 32, 64, 128]) (clear : Byte) (v : Bool) :
    (this.setConnectFlag mask clear v).Changed where
  dirty := rfl
  mtypeflags := hchanged.mtypeflags
  reserved := by
    simp only [ConnectMessage.setConnectFlag]
    split
    · exact reserved_or mask hmask _ hchanged.reserved
    · rw [UInt8.and_assoc, UInt8.and_comm clear, ← UInt8.and_assoc, hchanged.reserved,
        UInt8.zero_and]

/-- A field that is not part of the header or the connect flags. -/
theorem Changed.of_eq {this that : ConnectMessage} (hchanged : this.Changed)
    (hdirty : that.dirty = true) (hmtypeflags : that.mtypeflags = this.mtypeflags)
    (hflags : that.connectFlags = this.connectFlags) : that.Changed :=
  ⟨hdirty, hmtypeflags.trans hchanged.mtypeflags, hflags ▸ hchanged.reserved⟩

theorem Changed.updateWillFlag {this : ConnectMessage} (hchanged : this.Changed)
    (v other : Bytes) : (this.updateWillFlag v other).Changed := by
  rw [ConnectMessage.updateWillFlag]
  split_ifs
  · exact hchanged.setConnectFlag (by decide) _ _
  · exact hchanged.setConnectFlag (by decide) _ _
  · exact hchanged.of_eq rfl rfl rfl

/-- No setter makes a message unfit to be encoded. -/
theorem Changed.perform {this : ConnectMessage} (hchanged : this.Changed) (call : Setter) :
    (this.perform call).Changed := by
  cases call with
  | version v =>
      rw [ConnectMessage.perform, setVersion]
      split_ifs
      · exact hchanged
      · exact hchanged.of_eq rfl rfl rfl
  | cleanSession v | willFlag v | willRetain v | usernameFlag v | passwordFlag v =>
      exact hchanged.setConnectFlag (by decide) _ _
  | willQos v =>
      rw [ConnectMessage.perform, setWillQos]
      split_ifs with hinvalid
      · exact hchanged
      · refine ⟨rfl, hchanged.mtypeflags, reserved_willQos v ?_ _ hchanged.reserved⟩
        simp only [qosAtMostOnce, qosAtLeastOnce, qosExactlyOnce] at hinvalid
        simp only [List.mem_cons, List.not_mem_nil, or_false]
        tauto
  | keepAlive v => exact hchanged.of_eq rfl rfl rfl
  | clientId v =>
      rw [ConnectMessage.perform, setClientId]
      split_ifs
      · exact hchanged
      · exact hchanged
      · exact hchanged.of_eq rfl rfl rfl
  | willTopic v =>
      have hfield : ({ this with willTopic := v } : ConnectMessage).Changed :=
        hchanged.of_eq hchanged.dirty rfl rfl
      exact hfield.updateWillFlag _ _
  | willMessage v =>
      have hfield : ({ this with willMessage := v } : ConnectMessage).Changed :=
        hchanged.of_eq hchanged.dirty rfl rfl
      exact hfield.updateWillFlag _ _
  | username v =>
      have hfield : ({ this with username := v } : ConnectMessage).Changed :=
        hchanged.of_eq hchanged.dirty rfl rfl
      exact hfield.setConnectFlag (by decide) _ _
  | password v =>
      have hfield : ({ this with password := v } : ConnectMessage).Changed :=
        hchanged.of_eq hchanged.dirty rfl rfl
      exact hfield.setConnectFlag (by decide) _ _

/-- A message made by `NewConnectMessage` and any setter calls is changed. -/
theorem changed_foldl_perform (calls : List Setter) :
    (calls.foldl perform newConnectMessage).Changed :=
  List.foldlRecOn calls perform changed_newConnectMessage
    fun _ hthis call _ => hthis.perform call

theorem setClientId_eq_none_iff {this : ConnectMessage} {v : Bytes} :
    (this.setClientId v).2 = none ↔ 0 < v.length ∧ validClientId v = true := by
  rw [setClientId]
  split_ifs with hempty hchars
  · simp only [false_iff]
    omega
  · simp_all
  · simp_all [List.length_pos_iff]

/-- An encoded header and the body of `source` decode to the fields of
`source`. -/
theorem decode_wire {source : ConnectMessage} {verstr : Bytes} (header : Header)
    (hmtypeflags : header.mtypeflags = (newHeader .connect).mtypeflags)
    (hremlen : header.remlen = (source.body verstr).length)
    (hbound : header.remlen ≤ maxRemainingLength)
    (hversion : supportedVersions source.version = some verstr)
    (hflags : source.checkFlags = none) (hfits : source.Fits)
    (hreadable : newConnectMessage.Readable source) (spare : Bytes) :
    ∃ decoded, newConnectMessage.decode ⟨header.wire ++ source.body verstr, spare⟩ =
        .done decoded (header.msglen + (source.body verstr).length) ∧
      decoded.version = source.version ∧ decoded.connectFlags = source.connectFlags ∧
      decoded.keepAlive = source.keepAlive ∧ decoded.clientId = source.clientId ∧
      decoded.willTopic = (if source.willFlag then source.willTopic else []) ∧
      decoded.willMessage = (if source.willFlag then source.willMessage else []) ∧
      decoded.username = (if source.usernameFlag then source.username else []) ∧
      decoded.password = (if source.passwordFlag then source.password else []) := by
  have hheader : newConnectMessage.toHeader.decode _ = _ :=
    Header.decode_wire hremlen hbound [] spare
      (by rw [Header.type, Header.type, hmtypeflags]; rfl)
      (by rw [Header.type, hmtypeflags]; rfl) (by rw [hmtypeflags]; rfl)
  have hstart := Header.tail_wire hremlen hbound [] spare
  rw [List.append_nil] at hheader hstart
  rw [List.append_nil] at hstart
  have hreceived := congrArg (Outcome.map newConnectMessage.withHeader) hheader
  exact ⟨_, Outcome.andThen_of_done hreceived
    (Outcome.andThen_of_done (decodeMessage_eq hversion hstart
      ((length_supportedVersions hversion).trans (by decide)) hflags hfits
      ⟨hreadable.client, hreadable.valid, hreadable.username, hreadable.password⟩) rfl),
    rfl, rfl, rfl, rfl, rfl, rfl, rfl, rfl⟩

/-- A changed message is encoded into as many bytes as `Len` says.  They decode to the
fields of every message that has the same wire form and can be decoded. -/
theorem decode_encode_of_body {message source : ConnectMessage} {verstr : Bytes}
    (hdirty : message.dirty = true)
    (hmtypeflags : message.mtypeflags = (newHeader .connect).mtypeflags)
    (hversion : supportedVersions message.version = some verstr) (hfits : message.Fits)
    (hbody : message.body verstr = source.body verstr)
    (hsource : supportedVersions source.version = some verstr)
    (hflags : source.checkFlags = none) (hsourceFits : source.Fits)
    (hreadable : newConnectMessage.Readable source) {dst : Bytes}
    (hdst : dst.length = message.len.2) (gPacketId : UInt64) (spare : Bytes) :
    ∃ state decoded, message.len.1.encode dst gPacketId = .done state message.len.2 ∧
      newConnectMessage.decode ⟨state.dst, spare⟩ = .done decoded message.len.2 ∧
      decoded.version = source.version ∧ decoded.connectFlags = source.connectFlags ∧
      decoded.keepAlive = source.keepAlive ∧ decoded.clientId = source.clientId ∧
      decoded.willTopic = (if source.willFlag then source.willTopic else []) ∧
      decoded.willMessage = (if source.willFlag then source.willMessage else []) ∧
      decoded.username = (if source.usernameFlag then source.username else []) ∧
      decoded.password = (if source.passwordFlag then source.password else []) := by
  have hmsglen := hfits.msglen_le
  have hint := int32_of_lt (show message.msglen < 2 ^ 31 by omega)
  have hremlen := Header.remlen_bounds hmsglen
  have htype : message.type = .connect := by
    rw [Header.type, hmtypeflags]
    rfl
  have hlen : message.len = (message.withHeader (message.sized message.msglen),
      (message.sized message.msglen).msglen + message.msglen) := by
    rw [len, Header.lenOf_of_le hdirty hmsglen]
  rw [hlen] at hdst ⊢
  simp only at hdst ⊢
  have hencode : (message.withHeader (message.sized message.msglen)).encode dst gPacketId =
      .done ⟨message.withHeader (message.sized message.msglen),
        (message.sized message.msglen).wire ++ message.body verstr ++
          dst.drop ((message.sized message.msglen).msglen + message.msglen), gPacketId⟩
        ((message.sized message.msglen).msglen + message.msglen) :=
    (encode_eq_done_iff rfl).mpr ⟨htype, verstr, hversion, ⟨hdst.ge, hremlen,
      congrArg MessageType.valid htype, hfits, hdst.ge, rfl, rfl⟩⟩
  obtain ⟨decoded, hdecode, hfields⟩ :=
    decode_wire (message.sized message.msglen) hmtypeflags
      (by rw [← hbody, ← msglen_eq hversion]; exact hint) hremlen.2 hsource hflags hsourceFits
      hreadable spare
  have hexact : dst.drop ((message.sized message.msglen).msglen + message.msglen) = [] := by
    rw [← hdst, List.drop_length]
  rw [hexact, List.append_nil] at hencode
  rw [← hbody, ← msglen_eq hversion] at hdecode
  exact ⟨_, decoded, hencode, hdecode, hfields⟩

/-- CONNECT round trip.  A changed message is encoded into as many bytes as
`Len` says, and they decode to the same message, the Will fields if the Will flag
is set. -/
theorem decode_encode_of_changed (message : ConnectMessage) (hchanged : message.Changed)
    (hversion : message.version = 3 ∨ message.version = 4)
    (hclient : (newConnectMessage.setClientId message.clientId).2 = none)
    (hwill : message.willFlag = true ∨ message.willQos = 0 ∧ message.willRetain = false)
    (hqos : message.willQos ≤ 2)
    (husername : message.usernameFlag = true ↔ message.username ≠ [])
    (hpassword : message.passwordFlag = true ↔ message.password ≠ [])
    (hboth : message.passwordFlag = true → message.usernameFlag = true)
    (hshort : message.Short) (dst : Bytes) (hdst : dst.length = message.len.2)
    (gPacketId : UInt64) (spare : Bytes) :
    ∃ state decoded, message.len.1.encode dst gPacketId = .done state message.len.2 ∧
      newConnectMessage.decode ⟨state.dst, spare⟩ = .done decoded message.len.2 ∧
      decoded.version = message.version ∧ decoded.connectFlags = message.connectFlags ∧
      decoded.keepAlive = message.keepAlive ∧ decoded.clientId = message.clientId ∧
      decoded.willTopic = (if message.willFlag then message.willTopic else []) ∧
      decoded.willMessage = (if message.willFlag then message.willMessage else []) ∧
      decoded.username = message.username ∧ decoded.password = message.password := by
  obtain ⟨verstr, hverstr⟩ : ∃ verstr, supportedVersions message.version = some verstr := by
    rcases hversion with heq | heq <;> rw [heq] <;> exact ⟨_, rfl⟩
  obtain ⟨hid, hchars⟩ := setClientId_eq_none_iff.mp hclient
  obtain ⟨state, decoded, hencode, hdecode, hsameVersion, hsameFlags, hkeepAlive, hsameId,
      hwillTopic, hwillMessage, hsameUsername, hsamePassword⟩ :=
    decode_encode_of_body hchanged.dirty hchanged.mtypeflags hverstr hshort.fits rfl hverstr
      (checkFlags_eq_none hchanged.reserved hqos hwill hboth) hshort.fits
      (.of_present hid hchars (fun hset => List.length_pos_iff.mpr (husername.mp hset))
        fun hset => List.length_pos_iff.mpr (hpassword.mp hset)) hdst gPacketId spare
  refine ⟨state, decoded, hencode, hdecode, hsameVersion, hsameFlags, hkeepAlive, hsameId,
    hwillTopic, hwillMessage, hsameUsername.trans ?_, hsamePassword.trans ?_⟩
  · split_ifs with hset
    · rfl
    · exact (not_not.mp (mt husername.mpr hset)).symm
  · split_ifs with hset
    · rfl
    · exact (not_not.mp (mt hpassword.mpr hset)).symm

/-- A CONNECT of version 4 with a Will and a user name. -/
theorem decode_encode_of_changed_will :
    ∃ state decoded, (([.version 4, .clientId [0x61], .willTopic [0x77], .willQos 1,
        .username [0x75]] : List Setter).foldl perform newConnectMessage).len.1.encode
          (List.replicate 23 0) 0 = .done state 23 ∧
      newConnectMessage.decode ⟨state.dst, []⟩ = .done decoded 23 ∧
      decoded.version = 4 ∧ decoded.connectFlags = 0x8c ∧ decoded.keepAlive = 0 ∧
      decoded.clientId = [0x61] ∧ decoded.willTopic = [0x77] ∧ decoded.willMessage = [] ∧
      decoded.username = [0x75] ∧ decoded.password = [] := by
  have hlen : (([.version 4, .clientId [0x61], .willTopic [0x77], .willQos 1,
      .username [0x75]] : List Setter).foldl perform newConnectMessage).len.2 = 23 := by
    decide +kernel
  have hround := decode_encode_of_changed
    (([.version 4, .clientId [0x61], .willTopic [0x77], .willQos 1,
      .username [0x75]] : List Setter).foldl perform newConnectMessage)
    (changed_foldl_perform _) (Or.inr (by decide +kernel)) (by decide +kernel)
    (Or.inl (by decide +kernel)) (by decide +kernel) (by decide +kernel) (by decide +kernel)
    (by decide +kernel) ⟨by decide +kernel, by decide +kernel, by decide +kernel,
      by decide +kernel, by decide +kernel⟩ (List.replicate 23 0) (by rw [hlen]; rfl) 0 []
  rw [hlen] at hround
  obtain ⟨state, decoded, hencode, hdecode, hversion, hflags, hkeepAlive, hclientId, hwillTopic,
    hwillMessage, husername, hpassword⟩ := hround
  exact ⟨state, decoded, hencode, hdecode, hversion.trans (by decide +kernel),
    hflags.trans (by decide +kernel), hkeepAlive.trans (by decide +kernel),
    hclientId.trans (by decide +kernel), hwillTopic.trans (by decide +kernel),
    hwillMessage.trans (by decide +kernel), husername.trans (by decide +kernel),
    hpassword.trans (by decide +kernel)⟩

/-- A Will topic is not sent once the Will flag is cleared, and a message that
has not changed since its decode is measured by its decode buffer, trailing
bytes included. -/
theorem decode_encode_loses_will :
    (([.version 4, .clientId [0x61], .willTopic [0x77], .willFlag false] :
        List Setter).foldl perform newConnectMessage).willTopic = [0x77] ∧
    ((([.version 4, .clientId [0x61], .willTopic [0x77], .willFlag false] :
        List Setter).foldl perform newConnectMessage).encode (List.replicate 15 0) 0).map
          Encoded.dst =
      .done [0x10, 13, 0, 4, 0x4d, 0x51, 0x54, 0x54, 4, 0, 0, 0, 0, 1, 0x61] 15 ∧
    (newConnectMessage.decode
        ⟨[0x10, 13, 0, 4, 0x4d, 0x51, 0x54, 0x54, 4, 0, 0, 0, 0, 1, 0x61], []⟩).map
          willTopic = .done [] 15 ∧
    (newConnectMessage.decode
        ⟨[0x10, 14, 0, 4, 0x4d, 0x51, 0x54, 0x54, 4, 0, 0, 0, 0, 1, 0x61, 0], []⟩).map
          (fun message => message.len.2) = .done 16 15 := by
  decide +kernel

end ConnectMessage

end Xmqtt.Message
