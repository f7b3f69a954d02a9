import Xmqtt.Go.TwoRuns
import Xmqtt.Message.Messages

/-!
# Decoding into a used message

`Decode` does not reset its message: it assigns the fields that the packet has.
What an earlier packet or a setter has left in the others stays, and topics are
appended to those already there.  This module compares `Decode` on a message in
any state with `Decode` on a new one, through what the getters show afterwards.
-/

namespace Xmqtt.Message

open Xmqtt.Go Xmqtt.Go.Outcome

/-! ## Getters -/

/-- The getters that every message has from its header. -/
structure HeaderGetters where
  type : MessageType
  flags : Byte
  remainingLength : ℤ
  packetId : ℕ
  deriving DecidableEq, Repr

def Header.getters (this : Header) : HeaderGetters :=
  ⟨this.type, this.flags, this.remlen, this.packetIdValue⟩

/-- The getters of the single types. -/
inductive Getters where
  | connect (version : Byte) (cleanSession willFlag : Bool) (willQos : Byte)
      (willRetain usernameFlag passwordFlag : Bool) (keepAlive : UInt16)
      (clientId willTopic willMessage username password : Bytes)
  | connack (sessionPresent : Bool) (returnCode : ConnackCode)
  | publish (dup retain : Bool) (qos : Byte) (topic payload : Bytes)
  | subscribe (topics : List Bytes) (qos : Bytes)
  | suback (returnCodes : Bytes)
  | unsubscribe (topics : List Bytes)
  | header
  deriving DecidableEq, Repr

def ConnectMessage.getters (this : ConnectMessage) : HeaderGetters × Getters :=
  (this.toHeader.getters,
    .connect this.version this.cleanSession this.willFlag this.willQos this.willRetain
      this.usernameFlag this.passwordFlag this.keepAlive this.clientId this.willTopic
      this.willMessage this.username this.password)

def ConnackMessage.getters (this : ConnackMessage) : HeaderGetters × Getters :=
  (this.toHeader.getters, .connack this.sessionPresent this.returnCode)

def PublishMessage.getters (this : PublishMessage) : HeaderGetters × Getters :=
  (this.toHeader.getters, .publish this.dup this.retain this.qos this.topic this.payload)

def SubscribeMessage.getters (this : SubscribeMessage) : HeaderGetters × Getters :=
  (this.toHeader.getters, .subscribe this.topics this.qos)

def SubackMessage.getters (this : SubackMessage) : HeaderGetters × Getters :=
  (this.toHeader.getters, .suback this.returnCodes)

def UnsubscribeMessage.getters (this : UnsubscribeMessage) : HeaderGetters × Getters :=
  (this.toHeader.getters, .unsubscribe this.topics)

/-- All that the getters of a message show. -/
def getters : Message → HeaderGetters × Getters
  | .connect this => this.getters
  | .connack this => this.getters
  | .publish this => this.getters
  | .subscribe this => this.getters
  | .suback this => this.getters
  | .unsubscribe this => this.getters
  | .puback this | .pubrec this | .pubrel this | .pubcomp this | .unsuback this =>
      (this.toHeader.getters, .header)
  | .pingreq this | .pingresp this | .disconnect this => (this.toHeader.getters, .header)

/-- The message type that belongs to the Go type of a message. -/
def kind : Message → MessageType
  | .connect _ => .connect
  | .connack _ => .connack
  | .publish _ => .publish
  | .puback _ => .puback
  | .pubrec _ => .pubrec
  | .pubrel _ => .pubrel
  | .pubcomp _ => .pubcomp
  | .subscribe _ => .subscribe
  | .suback _ => .suback
  | .unsubscribe _ => .unsubscribe
  | .unsuback _ => .unsuback
  | .pingreq _ => .pingreq
  | .pingresp _ => .pingresp
  | .disconnect _ => .disconnect

/-- A new message of the same Go type. -/
def fresh : Message → Message
  | .connect _ => .connect newConnectMessage
  | .connack _ => .connack newConnackMessage
  | .publish _ => .publish newPublishMessage
  | .puback _ => .puback newPubackMessage
  | .pubrec _ => .pubrec newPubrecMessage
  | .pubrel _ => .pubrel newPubrelMessage
  | .pubcomp _ => .pubcomp newPubcompMessage
  | .subscribe _ => .subscribe newSubscribeMessage
  | .suback _ => .suback newSubackMessage
  | .unsubscribe _ => .unsubscribe newUnsubscribeMessage
  | .unsuback _ => .unsuback newUnsubackMessage
  | .pingreq _ => .pingreq newPingreqMessage
  | .pingresp _ => .pingresp newPingrespMessage
  | .disconnect _ => .disconnect newDisconnectMessage

theorem new_kind (message : Message) : message.kind.new = .ok message.fresh := by
  cases message <;> rfl

theorem type_fresh (message : Message) : message.fresh.type = message.kind := by
  cases message <;> exact type_newHeader _

/-- Decoding a buffer succeeds as it does on a new message, and the getters show the
same afterwards. -/
def DecodesAsNew (used : Message) (src : Slice) : Prop :=
  (used.decode src).result getters = (used.fresh.decode src).result getters

/-! ## Reading the same bytes -/

section Steps

variable {μ : Type} {rel : μ → μ → Prop} {header header' : Header} {src src' : Slice}

/-- Headers that have read the same fixed header. -/
structure Header.Read (left right : Header) : Prop where
  mtypeflags : left.mtypeflags = right.mtypeflags
  remlen : left.remlen = right.remlen

/-- They have also kept the packet ids they had. -/
structure Header.Twin (id id' : Bytes) (left right : Header) : Prop extends
    Header.Read left right where
  left_id : left.packetId = id
  right_id : right.packetId = id'

/-- Headers with the same getters. -/
structure Header.Same (left right : Header) : Prop extends Header.Read left right where
  packetIdValue : left.packetIdValue = right.packetIdValue

theorem Header.Same.getters {left right : Header} (hsame : left.Same right) :
    left.getters = right.getters := by
  rw [Header.getters, Header.getters, Header.type, Header.type, Header.flags, Header.flags,
    hsame.mtypeflags, hsame.remlen, hsame.packetIdValue]

theorem Header.Same.of_changed {left right : Header} (hsame : left.Same right) :
    ({ left with dirty := false } : Header).Same { right with dirty := false } :=
  ⟨⟨hsame.mtypeflags, hsame.remlen⟩, hsame.packetIdValue⟩

/-- Packet ids that are kept have to be the same. -/
theorem Header.Twin.same {left right : Header}
    (htwin : Header.Twin header.packetId header'.packetId left right)
    (hid : header.packetIdValue = header'.packetIdValue) : left.Same right := by
  refine ⟨htwin.toRead, ?_⟩
  rw [Header.packetIdValue, htwin.left_id, Header.packetIdValue, htwin.right_id]
  exact hid

theorem Header.decodeRemlen_follows (hflags : header.mtypeflags = header'.mtypeflags)
    (hsrc : src.Grows src') :
    Follows (Header.Twin header.packetId header'.packetId) (header.decodeRemlen src)
      (header'.decodeRemlen src') := by
  rw [decodeRemlen, decodeRemlen]
  cases htail : src.tail 1 with
  | none => exact trivial
  | some rest =>
      obtain ⟨rest', htail', hrest⟩ := hsrc.tail 1 htail
      simp only [htail', ← hrest.bytes]
      split_ifs
      · exact rfl
      · exact trivial
      · generalize ((1 : ℤ) + (uvarint rest.bytes).2).toNat = total
        cases hbody : src.tail total with
        | none => exact trivial
        | some body =>
            obtain ⟨body', hbody', hgrows⟩ := hsrc.tail total hbody
            simp only [hbody', ← hgrows.bytes]
            split_ifs
            · exact rfl
            · exact follows_done _ ⟨⟨hflags, rfl⟩, rfl, rfl⟩

/-- Of the header only its type has a say in what is accepted. -/
theorem Header.decode_follows (htype : header.type = header'.type) (hsrc : src.Grows src') :
    Follows (Header.Twin header.packetId header'.packetId) (header.decode src)
      (header'.decode src') := by
  rw [decode, decode]
  cases hcells : src.cells with
  | nil => exact trivial
  | cons first rest =>
      obtain ⟨more, hmore⟩ := hsrc.cells
      rw [hcells, List.cons_append] at hmore
      have hcheck : (header.adopt src first).checkType header.type =
          (header'.adopt src' first).checkType header'.type := by
        rw [htype]
        rfl
      have hremlen := decodeRemlen_follows
        (show (header.adopt src first).mtypeflags = (header'.adopt src' first).mtypeflags
          from rfl) hsrc
      simp only [← hmore, hcheck]
      cases (header'.adopt src' first).checkType header'.type with
      | some err => exact rfl
      | none => exact hremlen

theorem Header.readPacketId_follows (hread : header.Read header') (hsrc : src.Grows src')
    (total : ℕ) :
    Follows Header.Same (header.readPacketId src total)
      (header'.readPacketId src' total) := by
  rw [readPacketId, readPacketId]
  cases hfield : src.window total (total + 2) with
  | none => exact trivial
  | some field =>
      obtain ⟨field', hfield', hbytes⟩ := hsrc.window hfield
      simp only [hfield', hbytes]
      exact follows_done _ ⟨⟨hread.mtypeflags, hread.remlen⟩, rfl⟩

theorem readLPBytes_follows {buf buf' : Slice} (hbuf : buf.Grows buf') :
    Follows Eq (readLPBytes buf) (readLPBytes buf') := by
  rw [readLPBytes, readLPBytes, ← hbuf.bytes]
  split
  · next high low rest hbytes =>
      dsimp only
      split_ifs
      · exact rfl
      · cases hwindow : buf.window 2 (2 + (bigEndianUint16 high low : ℤ)) with
        | none => exact trivial
        | some part =>
            obtain ⟨part', hpart', hsame⟩ := hbuf.window hwindow
            simp only [hpart', hsame]
            exact follows_done _ rfl
  · exact rfl

theorem readLPThen_follows {total : ℕ} (hsrc : Slice.GrowsFrom total src src')
    {failed failed' : Bytes → μ} {next next' : Bytes → ℕ → Outcome Err μ}
    (hnext : ∀ field n, total ≤ n → Follows rel (next field n) (next' field n)) :
    Follows rel (readLPThen src failed total next) (readLPThen src' failed' total next') := by
  rw [readLPThen, readLPThen]
  cases htail : src.tail total with
  | none => exact trivial
  | some buf =>
      obtain ⟨buf', htail', hbuf⟩ := hsrc buf htail
      simp only [htail']
      have hread := readLPBytes_follows hbuf
      cases hfield : readLPBytes buf with
      | done field n =>
          obtain ⟨_, hfield', rfl⟩ := hread.exists_done hfield
          rw [hfield']
          exact hnext field _ (Nat.le_add_right ..)
      | fail field n err =>
          obtain ⟨field', m, hfield'⟩ := hread.exists_fail hfield
          rw [hfield']
          exact rfl
      | panic => exact trivial

variable (rel) (left right : μ)

/-- A field that is read replaces what was there. -/
theorem readLPField_follows (hsrc : src.Grows src') (set : μ → Bytes → μ) (total : ℕ)
    (hset : ∀ field, rel (set left field) (set right field)) :
    Follows rel (readLPField src set left total) (readLPField src' set right total) :=
  readLPThen_follows (hsrc.behind total) fun field n _ => follows_done n (hset field)

theorem readByteField_follows (hsrc : src.Grows src') (set : μ → Byte → μ) (total : ℕ)
    (hset : ∀ byte, rel (set left byte) (set right byte)) :
    Follows rel (readByteField src set left total) (readByteField src' set right total) := by
  rw [readByteField, readByteField, ← hsrc.bytes]
  cases src.bytes[total]? with
  | none => exact trivial
  | some byte => exact follows_done _ (hset byte)

end Steps

/-! ## Acknowledgements and messages without a body -/

section Decoders

variable {src src' : Slice}

theorem PubackMessage.decode_follows {used other : PubackMessage}
    (htype : used.type = other.type) (hsrc : src.Grows src') :
    Follows (fun left right => left.toHeader.Same right.toHeader) (used.decode src)
      (other.decode src') := by
  have hheader := (Header.decode_follows htype hsrc).map used.withHeader other.withHeader
    (fun left right : PubackMessage => left.toHeader.Read right.toHeader)
    fun left right htwin => htwin.toRead
  refine hheader.andThen fun left right n hread => ?_
  have hid := (Header.readPacketId_follows hread hsrc n).map left.withHeader right.withHeader
    (fun left right : PubackMessage => left.toHeader.Same right.toHeader)
    fun left right hsame => hsame
  exact hid.andThen fun left right n hsame => follows_done n hsame.of_changed

theorem DisconnectMessage.decode_follows {used other : DisconnectMessage}
    (htype : used.type = other.type) (hid : used.packetIdValue = other.packetIdValue)
    (hsrc : src.Grows src') :
    Follows (fun left right => left.toHeader.Same right.toHeader) (used.decode src)
      (other.decode src') :=
  (Header.decode_follows htype hsrc).map used.withHeader other.withHeader _
    fun _ _ htwin => htwin.same hid

theorem ConnackMessage.decode_follows {used other : ConnackMessage}
    (htype : used.type = other.type) (hid : used.packetIdValue = other.packetIdValue)
    (hsrc : src.Grows src') :
    Follows (fun left right => left.getters = right.getters) (used.decode src)
      (other.decode src') := by
  have hheader := (Header.decode_follows htype hsrc).map used.withHeader other.withHeader
    (fun left right : ConnackMessage => left.toHeader.Same right.toHeader)
    fun left right htwin => htwin.same hid
  refine hheader.andThen fun left right n hsame => ?_
  rw [decodeFields, decodeFields, ← hsrc.bytes]
  cases src.bytes[n]? with
  | none => exact trivial
  | some flags =>
      simp only
      split_ifs
      · exact rfl
      · cases src.bytes[n + 1]? with
        | none => exact trivial
        | some code =>
            simp only
            split_ifs
            · exact rfl
            · refine follows_done _ ?_
              rw [getters, getters, hsame.of_changed.getters]

theorem SubackMessage.decode_follows {used other : SubackMessage}
    (htype : used.type = other.type) (hsrc : src.Grows src') :
    Follows (fun left right => left.getters = right.getters) (used.decode src)
      (other.decode src') := by
  have hheader := (Header.decode_follows htype hsrc).map used.withHeader other.withHeader
    (fun left right : SubackMessage => left.toHeader.Read right.toHeader)
    fun left right htwin => htwin.toRead
  refine hheader.andThen fun left right hn hread => ?_
  have hid := (Header.readPacketId_follows hread hsrc hn).map left.withHeader right.withHeader
    (fun left right : SubackMessage => left.toHeader.Same right.toHeader)
    fun left right hsame => hsame
  refine hid.andThen fun left right n hsame => ?_
  rw [readReturnCodes, readReturnCodes, hsame.remlen]
  cases hcodes : src.window n (n + (right.remlen - ((n : ℤ) - hn))) with
  | none => exact trivial
  | some codes =>
      obtain ⟨codes', hcodes', hbytes⟩ := hsrc.window hcodes
      simp only [hcodes', hbytes, done_andThen]
      cases checkReturnCodes "Decode" codes.bytes with
      | some err => exact rfl
      | none =>
          refine follows_done _ ?_
          rw [getters, getters, hsame.of_changed.getters]

/-! ## PUBLISH -/

structure PublishMessage.Fields (left right : PublishMessage) : Prop where
  header : left.toHeader.Same right.toHeader
  topic : left.topic = right.topic

theorem PublishMessage.decodePayload_follows {left right : PublishMessage}
    (hfields : Fields left right) (hsrc : src.Grows src') (hn total : ℕ) :
    Follows (fun left right => left.getters = right.getters) (decodePayload src hn left total)
      (decodePayload src' hn right total) := by
  have hwindow : src.window total (total + (left.remlen - ((total : ℤ) - hn))) =
      src.window total (total + (right.remlen - ((total : ℤ) - hn))) := by
    rw [hfields.header.remlen]
  rw [decodePayload, decodePayload, hwindow]
  cases hpayload : src.window total (total + (right.remlen - ((total : ℤ) - hn))) with
  | none => exact trivial
  | some payload =>
      obtain ⟨payload', hpayload', hbytes⟩ := hsrc.window hpayload
      simp only [hpayload', hbytes]
      refine follows_done _ ?_
      rw [getters, getters, hfields.header.of_changed.getters]
      simp only [dup, retain, qos, Header.flags, hfields.header.mtypeflags, hfields.topic]

theorem PublishMessage.decode_follows {used other : PublishMessage}
    (htype : used.type = other.type) (hid : used.packetIdValue = other.packetIdValue)
    (hsrc : src.Grows src') :
    Follows (fun left right => left.getters = right.getters) (used.decode src)
      (other.decode src') := by
  have hheader := (Header.decode_follows htype hsrc).map used.withHeader other.withHeader
    (fun left right : PublishMessage => left.toHeader.Same right.toHeader)
    fun left right htwin => htwin.same hid
  refine hheader.andThen fun left right hn hsame => ?_
  refine (readLPField_follows Fields left right hsrc
    (fun this topic => { this with topic := topic }) hn fun topic => ⟨hsame, rfl⟩).andThen
    fun left right n hfields => ?_
  refine (follows_reject Fields (by rw [hfields.topic]) (by rw [hfields.topic]) hfields).andThen
    fun left right n hfields => ?_
  have hqos : left.qos = right.qos := by
    rw [qos, qos, Header.flags, Header.flags, hfields.header.mtypeflags]
  rw [hqos]
  split
  · have hread := (Header.readPacketId_follows hfields.header.toRead hsrc n).map left.withHeader
      right.withHeader Fields fun header header' hsame => ⟨hsame, hfields.topic⟩
    exact hread.andThen fun left right n hfields => decodePayload_follows hfields hsrc hn n
  · exact decodePayload_follows hfields hsrc hn n

/-! ## SUBSCRIBE and UNSUBSCRIBE -/

/-- The topics are appended to the same ones.  The loop leaves the headers as they
are. -/
structure SubscribeMessage.Same (rel : Header → Header → Prop)
    (left right : SubscribeMessage) : Prop where
  header : rel left.toHeader right.toHeader
  topics : left.topics = right.topics
  qos : left.qos = right.qos

theorem SubscribeMessage.decodeTopics_follows {rel : Header → Header → Prop}
    {left right : SubscribeMessage} (hsame : left.Same rel right) {total : ℕ}
    (hsrc : Slice.GrowsFrom total src src') (rounds : ℕ) (remlen : ℤ) :
    Follows (Same rel) (decodeTopics src rounds remlen left total)
      (decodeTopics src' rounds remlen right total) := by
  induction rounds generalizing left right remlen total with
  | zero => exact follows_done total hsame
  | succ rounds ih =>
      rw [decodeTopics, decodeTopics]
      split
      · refine readLPThen_follows hsrc fun topic after hafter => ?_
        rw [readByteField, readByteField]
        cases hbyte : src.bytes[after]? with
        | none => exact trivial
        | some byte =>
            rw [(hsrc.mono hafter).getElem? hbyte]
            refine ih ?_ (hsrc.mono (Nat.le_succ_of_le hafter)) _
            exact ⟨hsame.header, congrArg (· ++ [topic]) hsame.topics,
              congrArg (· ++ [byte]) hsame.qos⟩
      · exact follows_done total hsame

theorem SubscribeMessage.decode_follows {used other : SubscribeMessage}
    (htype : used.type = other.type) (htopics : used.topics = other.topics)
    (hqos : used.qos = other.qos) (hsrc : src.Grows src') :
    Follows (fun left right => left.getters = right.getters) (used.decode src)
      (other.decode src') := by
  have hheader := (Header.decode_follows htype hsrc).map used.withHeader other.withHeader
    (fun left right : SubscribeMessage => left.toHeader.Read right.toHeader ∧
      left.topics = right.topics ∧ left.qos = right.qos)
    fun left right htwin => ⟨htwin.toRead, htopics, hqos⟩
  refine hheader.andThen fun left right hn hread => ?_
  have hid := (Header.readPacketId_follows hread.1 hsrc hn).map left.withHeader
    right.withHeader (Same Header.Same) fun header header' hsame =>
      ⟨hsame, hread.2.1, hread.2.2⟩
  refine hid.andThen fun left right n hsame => ?_
  rw [hsame.header.remlen]
  refine (decodeTopics_follows hsame (hsrc.behind n) _ _).andThen fun left right n hsame => ?_
  rw [hsame.topics]
  split
  · exact rfl
  · refine follows_done n ?_
    rw [getters, getters, hsame.header.of_changed.getters, hsame.qos]

structure UnsubscribeMessage.Same (rel : Header → Header → Prop)
    (left right : UnsubscribeMessage) : Prop where
  header : rel left.toHeader right.toHeader
  topics : left.topics = right.topics

theorem UnsubscribeMessage.decodeTopics_follows {rel : Header → Header → Prop}
    {left right : UnsubscribeMessage} (hsame : left.Same rel right) {total : ℕ}
    (hsrc : Slice.GrowsFrom total src src') (rounds : ℕ) (remlen : ℤ) :
    Follows (Same rel) (decodeTopics src rounds remlen left total)
      (decodeTopics src' rounds remlen right total) := by
  induction rounds generalizing left right remlen total with
  | zero => exact follows_done total hsame
  | succ rounds ih =>
      rw [decodeTopics, decodeTopics]
      split
      · refine readLPThen_follows hsrc fun topic after hafter => ?_
        refine ih ?_ (hsrc.mono hafter) _
        exact ⟨hsame.header, congrArg (· ++ [topic]) hsame.topics⟩
      · exact follows_done total hsame

theorem UnsubscribeMessage.decode_follows {used other : UnsubscribeMessage}
    (htype : used.type = other.type) (htopics : used.topics = other.topics)
    (hsrc : src.Grows src') :
    Follows (fun left right => left.getters = right.getters) (used.decode src)
      (other.decode src') := by
  have hheader := (Header.decode_follows htype hsrc).map used.withHeader other.withHeader
    (fun left right : UnsubscribeMessage => left.toHeader.Read right.toHeader ∧
      left.topics = right.topics)
    fun left right htwin => ⟨htwin.toRead, htopics⟩
  refine hheader.andThen fun left right hn hread => ?_
  have hid := (Header.readPacketId_follows hread.1 hsrc hn).map left.withHeader
    right.withHeader (Same Header.Same) fun header header' hsame => ⟨hsame, hread.2⟩
  refine hid.andThen fun left right n hsame => ?_
  rw [hsame.header.remlen]
  refine (decodeTopics_follows hsame (hsrc.behind n) _ _).andThen fun left right n hsame => ?_
  rw [hsame.topics]
  split
  · exact rfl
  · refine follows_done n ?_
    rw [getters, getters, hsame.header.of_changed.getters]

end Decoders

/-! ## CONNECT -/

namespace ConnectMessage

/-- The fields that a packet may leave out. -/
structure Left (left right : ConnectMessage) : Prop where
  header : left.toHeader.Same right.toHeader
  willTopic : left.willTopic = right.willTopic
  willMessage : left.willMessage = right.willMessage
  username : left.username = right.username
  password : left.password = right.password

/-- What is known of the two messages when their connect flags have been read. -/
structure Flagged (left right : ConnectMessage) : Prop extends Left left right where
  version : left.version = right.version
  connectFlags : left.connectFlags = right.connectFlags

/-- All fields that have a getter. -/
structure Same (left right : ConnectMessage) : Prop extends Flagged left right where
  keepAlive : left.keepAlive = right.keepAlive
  clientId : left.clientId = right.clientId

variable {left right : ConnectMessage} {src src' : Slice}

theorem Same.connectFlag (hsame : left.Same right) (shift : Byte) :
    left.connectFlag shift = right.connectFlag shift := by
  rw [ConnectMessage.connectFlag, hsame.connectFlags, ConnectMessage.connectFlag]

theorem Same.getters (hsame : left.Same right) : left.getters = right.getters := by
  rw [ConnectMessage.getters, ConnectMessage.getters, hsame.header.getters]
  simp only [cleanSession, willFlag, willRetain, usernameFlag, passwordFlag, willQos,
    hsame.connectFlag, hsame.connectFlags, hsame.version, hsame.keepAlive, hsame.clientId,
    hsame.willTopic, hsame.willMessage, hsame.username, hsame.password]

theorem readOptional_follows (hsame : left.Same right) (hsrc : src.Grows src') (flag : Bool)
    (set : ConnectMessage → Bytes → ConnectMessage) (total : ℕ)
    (hset : ∀ field, (set left field).Same (set right field)) :
    Follows Same (readOptional src flag set left total)
      (readOptional src' flag set right total) := by
  rw [readOptional, readOptional]
  split
  · cases htail : src.tail total with
    | none => exact trivial
    | some buf =>
        obtain ⟨buf', htail', hbuf⟩ := hsrc.tail total htail
        simp only [htail', ← hbuf.bytes]
        split
        · exact readLPField_follows Same left right hsrc set total hset
        · exact follows_done total hsame
  · exact follows_done total hsame

theorem readWill_follows (hsame : left.Same right) (hsrc : src.Grows src') (total : ℕ) :
    Follows Same (readWill src left total) (readWill src' right total) := by
  rw [readWill, readWill, willFlag, willFlag, hsame.connectFlag]
  split
  · refine (readLPField_follows Same left right hsrc
      (fun this v => { this with willTopic := v }) total fun topic => ?_).andThen
      fun left right n hsame => readLPField_follows Same left right hsrc _ n fun message => ?_
    · exact { hsame with willTopic := rfl }
    · exact { hsame with willMessage := rfl }
  · exact follows_done total hsame

theorem readKeepAlive_follows (hsrc : src.Grows src') (hn total : ℕ)
    (rel : ConnectMessage → ConnectMessage → Prop)
    (hset : ∀ v, rel { left with keepAlive := v } { right with keepAlive := v }) :
    Follows rel (readKeepAlive src hn left total) (readKeepAlive src' hn right total) := by
  rw [readKeepAlive, readKeepAlive]
  cases htail : src.tail total with
  | none => exact trivial
  | some buf =>
      obtain ⟨buf', htail', hbuf⟩ := hsrc.tail total htail
      simp only [htail', ← hbuf.bytes]
      rcases buf.bytes with _ | ⟨high, _ | ⟨low, after⟩⟩
      · exact rfl
      · exact rfl
      · exact follows_done _ (hset _)

theorem checkFlags_congr (hflags : left.connectFlags = right.connectFlags) :
    left.checkFlags = right.checkFlags := by
  have hcheck (message : ConnectMessage) : message.checkFlags =
      { newConnectMessage with connectFlags := message.connectFlags }.checkFlags := rfl
  rw [hcheck left, hflags, ← hcheck right]

/-- From the connect flags on. -/
theorem decodePayload_follows (hflagged : left.Flagged right) (hsrc : src.Grows src')
    (hn total : ℕ) :
    Follows Same (decodePayload src hn left total) (decodePayload src' hn right total) := by
  refine (readKeepAlive_follows hsrc hn total
    (fun left right => left.Flagged right ∧ left.keepAlive = right.keepAlive)
    fun v => ⟨{ hflagged with }, rfl⟩).andThen fun left right n hread => ?_
  refine (readLPField_follows Same left right hsrc (fun this v => { this with clientId := v }) n
    fun v => ⟨{ hread.1 with }, hread.2, rfl⟩).andThen fun left right n hsame => ?_
  refine (follows_reject Same (by rw [hsame.clientId, cleanSession, cleanSession,
    hsame.connectFlag]) rfl hsame).andThen fun left right n hsame => ?_
  refine (follows_reject Same (by rw [hsame.clientId]) rfl hsame).andThen
    fun left right n hsame => ?_
  refine (readWill_follows hsame hsrc n).andThen fun left right n hsame => ?_
  rw [usernameFlag, usernameFlag, hsame.connectFlag]
  refine (readOptional_follows hsame hsrc _ _ n fun field => { hsame with username := rfl }).andThen
    fun left right n hsame => ?_
  rw [passwordFlag, passwordFlag, hsame.connectFlag]
  exact readOptional_follows hsame hsrc _ _ n fun field => { hsame with password := rfl }

theorem decode_follows {used other : ConnectMessage} (htype : used.type = other.type)
    (hid : used.packetIdValue = other.packetIdValue)
    (hwillTopic : used.willTopic = other.willTopic)
    (hwillMessage : used.willMessage = other.willMessage)
    (husername : used.username = other.username) (hpassword : used.password = other.password)
    (hsrc : src.Grows src') :
    Follows (fun left right => left.getters = right.getters) (used.decode src)
      (other.decode src') := by
  have hheader := (Header.decode_follows htype hsrc).map used.withHeader other.withHeader Left
    fun left right htwin =>
      ⟨htwin.same hid, hwillTopic, hwillMessage, husername, hpassword⟩
  refine hheader.andThen fun left right hn hleft => ?_
  have hmessage : Follows Same (decodeMessage src left hn) (decodeMessage src' right hn) := by
    refine (readLPField_follows
      (fun left right => left.Left right ∧ left.protoName = right.protoName) left right hsrc
      (fun this v => { this with protoName := v }) hn fun v => ⟨{ hleft with }, rfl⟩).andThen
      fun left right n hread => ?_
    refine (readByteField_follows
      (fun left right => left.Left right ∧ left.protoName = right.protoName ∧
        left.version = right.version) left right hsrc
      (fun this v => { this with version := v }) n fun v =>
        ⟨{ hread.1 with }, hread.2, rfl⟩).andThen fun left right n hread => ?_
    refine (follows_reject (fun left right => left.Left right ∧ left.version = right.version)
      (by rw [hread.2.1, hread.2.2]) rfl ⟨hread.1, hread.2.2⟩).andThen
      fun left right n hread => ?_
    refine (readByteField_follows Flagged left right hsrc
      (fun this v => { this with connectFlags := v }) n fun v =>
        ⟨{ hread.1 with }, hread.2, rfl⟩).andThen fun left right n hflagged => ?_
    refine (follows_failOn Flagged (checkFlags_congr hflagged.connectFlags) hflagged).andThen
      fun left right n hflagged => ?_
    exact decodePayload_follows hflagged hsrc hn n
  exact hmessage.andThen fun left right n hsame =>
    follows_done n (Same.getters { hsame with header := hsame.header.of_changed })

end ConnectMessage

/-! ## Every message type -/

/-- Nothing is left in the fields that a packet of this type may leave out, or that
its topics are appended to. -/
def Cleared : Message → Prop
  | .connect this =>
      this.packetIdValue = 0 ∧ this.willTopic = [] ∧ this.willMessage = [] ∧
        this.username = [] ∧ this.password = []
  | .connack this => this.packetIdValue = 0
  | .publish this => this.packetIdValue = 0
  | .subscribe this => this.topics = [] ∧ this.qos = []
  | .unsubscribe this => this.topics = []
  | .pingreq this | .pingresp this | .disconnect this => this.packetIdValue = 0
  | .puback _ | .pubrec _ | .pubrel _ | .pubcomp _ | .suback _ | .unsuback _ => True

/-- Two messages of one Go type in which the same is left. -/
inductive SameLeft : Message → Message → Prop
  | connect {this other : ConnectMessage} (hid : this.packetIdValue = other.packetIdValue)
      (hwillTopic : this.willTopic = other.willTopic)
      (hwillMessage : this.willMessage = other.willMessage)
      (husername : this.username = other.username)
      (hpassword : this.password = other.password) : SameLeft (.connect this) (.connect other)
  | connack {this other : ConnackMessage} (hid : this.packetIdValue = other.packetIdValue) :
      SameLeft (.connack this) (.connack other)
  | publish {this other : PublishMessage} (hid : this.packetIdValue = other.packetIdValue) :
      SameLeft (.publish this) (.publish other)
  | puback {this other : PubackMessage} : SameLeft (.puback this) (.puback other)
  | pubrec {this other : PubackMessage} : SameLeft (.pubrec this) (.pubrec other)
  | pubrel {this other : PubackMessage} : SameLeft (.pubrel this) (.pubrel other)
  | pubcomp {this other : PubackMessage} : SameLeft (.pubcomp this) (.pubcomp other)
  | subscribe {this other : SubscribeMessage} (htopics : this.topics = other.topics)
      (hqos : this.qos = other.qos) : SameLeft (.subscribe this) (.subscribe other)
  | suback {this other : SubackMessage} : SameLeft (.suback this) (.suback other)
  | unsubscribe {this other : UnsubscribeMessage} (htopics : this.topics = other.topics) :
      SameLeft (.unsubscribe this) (.unsubscribe other)
  | unsuback {this other : PubackMessage} : SameLeft (.unsuback this) (.unsuback other)
  | pingreq {this other : DisconnectMessage} (hid : this.packetIdValue = other.packetIdValue) :
      SameLeft (.pingreq this) (.pingreq other)
  | pingresp {this other : DisconnectMessage} (hid : this.packetIdValue = other.packetIdValue) :
      SameLeft (.pingresp this) (.pingresp other)
  | disconnect {this other : DisconnectMessage}
      (hid : this.packetIdValue = other.packetIdValue) :
      SameLeft (.disconnect this) (.disconnect other)

theorem SameLeft.refl (message : Message) : SameLeft message message := by
  cases message <;> constructor <;> rfl

theorem SameLeft.symm {used other : Message} (hleft : SameLeft used other) :
    SameLeft other used := by
  cases hleft <;> constructor <;> symm <;> assumption

theorem sameLeft_fresh_of_cleared {used : Message} (hcleared : used.Cleared) :
    SameLeft used used.fresh := by
  cases used with
  | connect this =>
      obtain ⟨hid, hwillTopic, hwillMessage, husername, hpassword⟩ := hcleared
      exact .connect hid hwillTopic hwillMessage husername hpassword
  | subscribe this => exact .subscribe hcleared.1 hcleared.2
  | connack this => exact .connack hcleared
  | publish this => exact .publish hcleared
  | unsubscribe this => exact .unsubscribe hcleared
  | pingreq this => exact .pingreq hcleared
  | pingresp this => exact .pingresp hcleared
  | disconnect this => exact .disconnect hcleared
  | _ => constructor

/-- `Decode` of the same bytes into two messages of the same type. -/
theorem decode_follows {used other : Message} (htype : used.type = other.type)
    (hleft : SameLeft used other) {src src' : Slice} (hsrc : src.Grows src') :
    Follows (fun left right => left.getters = right.getters) (used.decode src)
      (other.decode src') := by
  cases hleft with
  | connect hid hwillTopic hwillMessage husername hpassword =>
      exact (ConnectMessage.decode_follows htype hid hwillTopic hwillMessage husername hpassword
        hsrc).map _ _ _ fun _ _ hsame => hsame
  | connack hid =>
      exact (ConnackMessage.decode_follows htype hid hsrc).map _ _ _ fun _ _ hsame => hsame
  | publish hid =>
      exact (PublishMessage.decode_follows htype hid hsrc).map _ _ _ fun _ _ hsame => hsame
  | subscribe htopics hqos =>
      exact (SubscribeMessage.decode_follows htype htopics hqos hsrc).map _ _ _
        fun _ _ hsame => hsame
  | unsubscribe htopics =>
      exact (UnsubscribeMessage.decode_follows htype htopics hsrc).map _ _ _
        fun _ _ hsame => hsame
  | suback =>
      exact (SubackMessage.decode_follows htype hsrc).map _ _ _ fun _ _ hsame => hsame
  | puback | pubrec | pubrel | pubcomp | unsuback =>
      exact (PubackMessage.decode_follows htype hsrc).map _ _ _
        fun _ _ hsame => congrArg (·, Getters.header) hsame.getters
  | pingreq hid | pingresp hid | disconnect hid =>
      exact (DisconnectMessage.decode_follows htype hid hsrc).map _ _ _
        fun _ _ hsame => congrArg (·, Getters.header) hsame.getters

/-- A cleared message decodes every buffer as a new one does. -/
theorem decodesAsNew_of_cleared {used : Message} (htype : used.type = used.kind)
    (hcleared : used.Cleared) (src : Slice) : used.DecodesAsNew src := by
  rw [← type_fresh] at htype
  have hleft := sameLeft_fresh_of_cleared hcleared
  exact result_eq_of_follows (decode_follows htype hleft (.refl src))
    (decode_follows htype.symm hleft.symm (.refl src))

/-! ## Packets that show what was left -/

/-- A short packet of each type, without any optional field. -/
def probe : MessageType → Frame
  | .connect => .brief 0x10 [0, 4, 0x4d, 0x51, 0x54, 0x54, 4, 0, 0, 0, 0, 1, 0x73]
  | .connack => .brief 0x20 [0, 0]
  | .publish => .brief 0x30 [0, 1, 0x61]
  | .puback => .brief 0x40 [0, 7]
  | .pubrec => .brief 0x50 [0, 7]
  | .pubrel => .brief 0x62 [0, 7]
  | .pubcomp => .brief 0x70 [0, 7]
  | .subscribe => .brief 0x82 [0, 7, 0, 1, 0x61, 0]
  | .suback => .brief 0x90 [0, 7, 0]
  | .unsubscribe => .brief 0xa2 [0, 7, 0, 1, 0x61]
  | .unsuback => .brief 0xb0 [0, 7]
  | .pingreq => .brief 0xc0 []
  | .pingresp => .brief 0xd0 []
  | .disconnect => .brief 0xe0 []
  | .reserved => .brief 0x00 []
  | .reserved2 => .brief 0xf0 []

theorem mtype_probe (mtype : MessageType) : (probe mtype).mtype = mtype := by
  cases mtype <;> decide

theorem flagsAccepted_probe (mtype : MessageType) :
    flagsAccepted (probe mtype).first = true := by
  cases mtype <;> decide

/-- A new message accepts the packet of its type. -/
theorem result_probe_of_new {mtype : MessageType} {message : Message}
    (hnew : mtype.new = .ok message) :
    (message.decode ⟨(probe mtype).bytes, []⟩).result getters ≠ none := by
  cases mtype <;> cases hnew <;> decide +kernel

section Header

variable {μ τ : Type} {header : Header} {rebuild : Header → μ} {next : μ → ℕ → Outcome Err μ}

theorem Frame.result_decode_of_type_ne (frame : Frame) (htype : header.type ≠ frame.mtype)
    (f : μ → τ) :
    (((header.decode ⟨frame.bytes, []⟩).map rebuild).andThen next).result f = none := by
  have hrejected := mt (frame.checkType_adopt_eq_none_iff header ⟨frame.bytes, []⟩).mp
    fun haccepted => htype haccepted.2.1
  obtain ⟨err, herr⟩ := Option.ne_none_iff_exists'.mp hrejected
  have hcells := frame.cells_eq [] []
  rw [List.append_nil] at hcells
  rw [Header.decode, hcells]
  simp only [herr, map_fail, fail_andThen, result]

/-- The fixed header of the packet of a type. -/
theorem decode_probe {mtype : MessageType} (hvalid : mtype.valid = true)
    (htype : header.type = mtype) :
    header.decode ⟨(probe mtype).bytes, []⟩ =
      .done
        (header.received ⟨(probe mtype).bytes, []⟩ (probe mtype).first
          (probe mtype).body.length)
        (probe mtype).headerLength := by
  have hmtype := mtype_probe mtype
  have hheader := (probe mtype).decode_header_of_accepted (hmtype.symm ▸ hvalid)
    (htype.trans hmtype.symm) (flagsAccepted_probe mtype) [] []
  rwa [List.append_nil] at hheader

end Header

theorem result_map {ε σ τ ν : Type} (f : τ → ν) (g : σ → τ) (outcome : Outcome ε σ) :
    (outcome.map g).result f = outcome.result (f ∘ g) := by
  cases outcome <;> rfl

/-- A message whose type was changed accepts no packet of its own type. -/
theorem result_probe_of_type_ne {used : Message} (htype : used.type ≠ used.kind) :
    (used.decode ⟨(probe used.kind).bytes, []⟩).result getters = none := by
  rw [← mtype_probe used.kind] at htype
  cases used with
  | pingreq this | pingresp this | disconnect this =>
      refine (result_map _ _ _).trans ?_
      rw [DisconnectMessage.decode, ← Outcome.andThen_done (Outcome.map _ _)]
      exact Frame.result_decode_of_type_ne _ htype _
  | _ => exact (result_map _ _ _).trans (Frame.result_decode_of_type_ne _ htype _)

theorem DisconnectMessage.decode_probe {this : DisconnectMessage} {mtype : MessageType}
    (hvalid : mtype.valid = true) (htype : this.type = mtype) :
    ∃ state n, this.decode ⟨(probe mtype).bytes, []⟩ = .done state n ∧
      state.packetIdValue = this.packetIdValue := by
  rw [decode, Message.decode_probe hvalid htype]
  exact ⟨_, _, rfl, rfl⟩

theorem ConnackMessage.decode_probe {this : ConnackMessage} (htype : this.type = .connack) :
    ∃ state n, this.decode ⟨(probe .connack).bytes, []⟩ = .done state n ∧
      state.packetIdValue = this.packetIdValue := by
  rw [decode, Message.decode_probe rfl htype]
  exact ⟨_, _, rfl, rfl⟩

theorem PublishMessage.decode_probe {this : PublishMessage} (htype : this.type = .publish) :
    ∃ state n, this.decode ⟨(probe .publish).bytes, []⟩ = .done state n ∧
      state.packetIdValue = this.packetIdValue := by
  have hstart : (Slice.mk (probe .publish).bytes []).tail (probe .publish).headerLength =
      some ⟨lpBytes [0x61] ++ ([] ++ []), []⟩ := rfl
  have hpayload := Slice.tail_add hstart
  have hqos : ¬ ((((probe .publish).first &&& 0x0f) >>> 1) &&& 0x3 : Byte) ≠ 0 := by decide
  rw [decode, Message.decode_probe rfl htype, map_done, done_andThen, decodeFields,
    readLPField_lpBytes hstart (by decide), done_andThen,
    reject_of_false (show (!validTopic [0x61]) = false by decide), done_andThen, if_neg,
    done_andThen, decodePayload_eq hpayload (by rfl)]
  · exact ⟨_, _, rfl, rfl⟩
  · exact hqos

theorem SubscribeMessage.decode_probe {this : SubscribeMessage}
    (htype : this.type = .subscribe) :
    ∃ state n, this.decode ⟨(probe .subscribe).bytes, []⟩ = .done state n ∧
      state.topics = this.topics ++ [[0x61]] ∧ state.qos = this.qos ++ [0] := by
  have hstart : (Slice.mk (probe .subscribe).bytes []).tail (probe .subscribe).headerLength =
      some ⟨[0, 7] ++ (entriesBytes [([0x61], 0)] ++ []), []⟩ := rfl
  have htopics : (Slice.mk (probe .subscribe).bytes []).tail
      ((probe .subscribe).headerLength + 2) = _ := Slice.tail_add hstart
  have hrest := (probe .subscribe).counter_of_body
    (show _ = [0, 7] ++ entriesBytes [([0x61], 0)] from rfl) rfl
  rw [decode, Message.decode_probe rfl htype, map_done, done_andThen,
    Header.readPacketId_of_tail hstart rfl, map_done, done_andThen]
  simp only [withHeader, Header.received, hrest, Int.toNat_natCast]
  rw [decodeTopics_eq (by decide) htopics le_rfl, done_andThen, if_neg (by simp)]
  exact ⟨_, _, rfl, rfl, rfl⟩

theorem UnsubscribeMessage.decode_probe {this : UnsubscribeMessage}
    (htype : this.type = .unsubscribe) :
    ∃ state n, this.decode ⟨(probe .unsubscribe).bytes, []⟩ = .done state n ∧
      state.topics = this.topics ++ [[0x61]] := by
  have hstart : (Slice.mk (probe .unsubscribe).bytes []).tail
      (probe .unsubscribe).headerLength =
      some ⟨[0, 7] ++ (topicsBytes [[0x61]] ++ []), []⟩ := rfl
  have htopics : (Slice.mk (probe .unsubscribe).bytes []).tail
      ((probe .unsubscribe).headerLength + 2) = _ := Slice.tail_add hstart
  have hrest := (probe .unsubscribe).counter_of_body
    (show _ = [0, 7] ++ topicsBytes [[0x61]] from rfl) rfl
  rw [decode, Message.decode_probe rfl htype, map_done, done_andThen,
    Header.readPacketId_of_tail hstart rfl, map_done, done_andThen]
  simp only [withHeader, Header.received, hrest, Int.toNat_natCast]
  rw [decodeTopics_eq (by decide) le_rfl htopics le_rfl, done_andThen, if_neg]
  · exact ⟨_, _, rfl, rfl⟩
  · simp [reached, topicsBytes]

/-- The CONNECT that its packet stands for. -/
def ConnectMessage.probe : ConnectMessage :=
  { newConnectMessage with version := 4, clientId := [0x73] }

theorem ConnectMessage.tail_probe :
    (Slice.mk (Message.probe .connect).bytes []).tail (Message.probe .connect).headerLength =
      some ⟨probe.body [0x4d, 0x51, 0x54, 0x54], []⟩ := by
  decide +kernel

theorem ConnectMessage.decode_probe {this : ConnectMessage} (htype : this.type = .connect) :
    ∃ state n, this.decode ⟨(Message.probe .connect).bytes, []⟩ = .done state n ∧
      state.packetIdValue = this.packetIdValue ∧ state.willTopic = this.willTopic ∧
      state.willMessage = this.willMessage ∧ state.username = this.username ∧
      state.password = this.password := by
  rw [decode, Message.decode_probe rfl htype, map_done, done_andThen,
    decodeMessage_eq (by decide) tail_probe (by decide) (by decide)
      (by rw [Fits]; decide)
      (.of_present (by decide) (by decide +kernel) (by decide) (by decide)), done_andThen]
  exact ⟨_, _, rfl, rfl, rfl, rfl, rfl, rfl⟩

theorem getters_eq_of_decodesAsNew {used state state' : Message} {src : Slice} {n n' : ℕ}
    (hnew : used.DecodesAsNew src) (hdone : used.decode src = .done state n)
    (hdone' : used.fresh.decode src = .done state' n') : state.getters = state'.getters := by
  rw [DecodesAsNew, hdone, hdone'] at hnew
  exact Option.some.inj hnew

theorem packetId_getters (message : Message) : message.getters.1.packetId = message.packetId := by
  cases message <;> rfl

theorem packetId_fresh (message : Message) : message.fresh.packetId = 0 := by
  cases message <;> rfl

/-- A packet id that both messages keep is that of the new one. -/
theorem packetId_eq_zero {μ : Type} (wrap : μ → Message) {used : Message} {src : Slice}
    {own own' : Outcome Err μ} (hnew : used.DecodesAsNew src)
    (hused : used.decode src = own.map wrap) (hfresh : used.fresh.decode src = own'.map wrap)
    (hdone : ∃ state n, own = .done state n ∧ (wrap state).packetId = used.packetId)
    (hdone' : ∃ state n, own' = .done state n ∧ (wrap state).packetId = used.fresh.packetId) :
    used.packetId = 0 := by
  obtain ⟨state, n, rfl, hid⟩ := hdone
  obtain ⟨state', n', rfl, hid'⟩ := hdone'
  have hshown := congrArg (·.1.packetId) (getters_eq_of_decodesAsNew hnew hused hfresh)
  simp only [packetId_getters] at hshown
  rw [← hid, hshown, hid', packetId_fresh]

/-- What was left shows in the packet of its type. -/
theorem cleared_of_decodesAsNew {used : Message} (htype : used.type = used.kind)
    (hnew : used.DecodesAsNew ⟨(probe used.kind).bytes, []⟩) : used.Cleared := by
  have hfresh := used.type_fresh
  cases used with
  | connect this =>
      obtain ⟨state, n, hdone, hid, htopic, hmessage, husername, hpassword⟩ :=
        ConnectMessage.decode_probe htype
      obtain ⟨state', n', hdone', hid', htopic', hmessage', husername', hpassword'⟩ :=
        ConnectMessage.decode_probe hfresh
      have hid'' := packetId_eq_zero .connect hnew rfl rfl ⟨state, n, hdone, hid⟩
        ⟨state', n', hdone', hid'⟩
      replace hdone := congrArg (map Message.connect) hdone
      replace hdone' := congrArg (map Message.connect) hdone'
      have hshown := getters_eq_of_decodesAsNew hnew hdone hdone'
      injection hshown with _ hfields
      injection hfields with _ _ _ _ _ _ _ _ _ hw hm hu hp
      exact ⟨hid'', htopic.symm.trans (hw.trans htopic'),
        hmessage.symm.trans (hm.trans hmessage'), husername.symm.trans (hu.trans husername'),
        hpassword.symm.trans (hp.trans hpassword')⟩
  | connack this =>
      exact packetId_eq_zero .connack hnew rfl rfl (ConnackMessage.decode_probe htype)
        (ConnackMessage.decode_probe hfresh)
  | publish this =>
      exact packetId_eq_zero .publish hnew rfl rfl (PublishMessage.decode_probe htype)
        (PublishMessage.decode_probe hfresh)
  | subscribe this =>
      obtain ⟨state, n, hdone, htopics, hqos⟩ := SubscribeMessage.decode_probe htype
      obtain ⟨state', n', hdone', htopics', hqos'⟩ := SubscribeMessage.decode_probe hfresh
      have hshown := getters_eq_of_decodesAsNew hnew (congrArg (map Message.subscribe) hdone)
        (congrArg (map Message.subscribe) hdone')
      injection hshown with _ hfields
      injection hfields with ht hq
      exact ⟨List.append_cancel_right (htopics.symm.trans (ht.trans htopics')),
        List.append_cancel_right (hqos.symm.trans (hq.trans hqos'))⟩
  | unsubscribe this =>
      obtain ⟨state, n, hdone, htopics⟩ := UnsubscribeMessage.decode_probe htype
      obtain ⟨state', n', hdone', htopics'⟩ := UnsubscribeMessage.decode_probe hfresh
      have hshown := getters_eq_of_decodesAsNew hnew
        (congrArg (map Message.unsubscribe) hdone) (congrArg (map Message.unsubscribe) hdone')
      injection hshown with _ hfields
      injection hfields with ht
      exact List.append_cancel_right (htopics.symm.trans (ht.trans htopics'))
  | pingreq this =>
      exact packetId_eq_zero .pingreq hnew rfl rfl (DisconnectMessage.decode_probe rfl htype)
        (DisconnectMessage.decode_probe rfl hfresh)
  | pingresp this =>
      exact packetId_eq_zero .pingresp hnew rfl rfl (DisconnectMessage.decode_probe rfl htype)
        (DisconnectMessage.decode_probe rfl hfresh)
  | disconnect this =>
      exact packetId_eq_zero .disconnect hnew rfl rfl (DisconnectMessage.decode_probe rfl htype)
        (DisconnectMessage.decode_probe rfl hfresh)
  | _ => exact trivial

/-- A message in any state decodes every frame as a new message does exactly when
it still has its own type and nothing is left in it. -/
theorem decodes_as_new_iff (used : Message) :
    (∀ (frame : Frame) (spare : Bytes), used.DecodesAsNew ⟨frame.bytes, spare⟩) ↔
      used.type = used.kind ∧ used.Cleared := by
  constructor
  · intro hnew
    have hprobe := hnew (probe used.kind) []
    have htype : used.type = used.kind := by
      by_contra hne
      rw [DecodesAsNew, result_probe_of_type_ne hne] at hprobe
      exact result_probe_of_new used.new_kind hprobe.symm
    exact ⟨htype, cleared_of_decodesAsNew htype hprobe⟩
  · rintro ⟨htype, hcleared⟩ frame spare
    exact decodesAsNew_of_cleared htype hcleared _

/-- A SUBSCRIBE that decodes the same packet twice shows its topic twice. -/
theorem reused_subscribe_repeats_topics :
    (Message.decode ⟨(probe .subscribe).bytes, []⟩ (.subscribe newSubscribeMessage)).result
        getters = some (⟨.subscribe, 2, 6, 7⟩, .subscribe [[0x61]] [0]) ∧
      ((Message.decode ⟨(probe .subscribe).bytes, []⟩
        (.subscribe newSubscribeMessage)).andThen fun used _ =>
          used.decode ⟨(probe .subscribe).bytes, []⟩).result getters =
        some (⟨.subscribe, 2, 6, 7⟩, .subscribe [[0x61], [0x61]] [0, 0]) := by
  decide +kernel

end Xmqtt.Message
