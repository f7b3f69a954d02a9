import Xmqtt.Message.Accepted
import Xmqtt.Message.Reuse
import Xmqtt.Message.Stored

/-!
# Reading back an edited PUBLISH

A decoded message that counts as unchanged is encoded by copying its decode
buffer.  The type byte and the packet id are written into that buffer as well
as into the message, all other setters have to mark the message as changed.
This module says what it means that the output of `Encode` is read back, and
follows a decoded PUBLISH through its setters.
-/

namespace Xmqtt.Message

open Xmqtt.Go Xmqtt.Go.Outcome

/-- A packet id is part of the message on the wire. -/
def CarriesPacketId : Message → Prop
  | .publish this => this.qos ≠ 0
  | .connect _ | .connack _ | .pingreq _ | .pingresp _ | .disconnect _ => False
  | _ => True

/-- A new message decodes `src`, where `edited` was encoded and left as `sent`, and shows
all that `edited` shows: its fields and, if it is sent at all, the packet id.  `Encode`
gives a message that has none a packet id, and keeps any other. -/
structure ReadBack (edited sent : Message) (src : Slice) (result : Message) : Prop where
  decode : ∃ n, edited.fresh.decode src = .done result n
  fields : result.getters.2 = edited.getters.2
  packetId : edited.CarriesPacketId → result.packetId = sent.packetId
  without : ¬ edited.CarriesPacketId → result.packetId = 0
  kept : edited.packetId ≠ 0 → sent.packetId = edited.packetId

theorem encodeClean_eq_done {μ : Type} {name : String} {header : Header}
    {start state : Encoded μ} {size : ℕ}
    (hdone : encodeClean name header start = .done state size) :
    state.this = start.this ∧ state.dst.take size = header.dbuf.bytes := by
  rw [encodeClean] at hdone
  split_ifs at hdone
  injection hdone with hstate hsize
  rw [← hstate, ← hsize]
  exact ⟨rfl, List.take_left' rfl⟩

theorem Header.packetId_of_decode {this result : Header} {src : Slice} {n : ℕ}
    (hdone : this.decode src = .done result n) : result.packetId = this.packetId := by
  obtain ⟨right, -, htwin⟩ :=
    (Header.decode_follows rfl (Slice.Grows.refl src)).exists_done hdone
  exact htwin.left_id

theorem Header.readPacketId_done {this result : Header} {src : Slice} {total n : ℕ}
    (hdone : this.readPacketId src total = .done result n) :
    result.packetId.length = 2 ∧ result.mtypeflags = this.mtypeflags := by
  rw [readPacketId] at hdone
  cases hfield : src.window total (total + 2) with
  | none => simp [hfield] at hdone
  | some field =>
      simp only [hfield, Outcome.done.injEq] at hdone
      rw [← hdone.1]
      refine ⟨?_, rfl⟩
      rw [Slice.window] at hfield
      split_ifs at hfield with hbounds
      injection hfield with hfield
      rw [← hfield, List.length_drop, List.length_take]
      rw [Slice.cap] at hbounds
      omega

/-! ## PUBLISH -/

namespace PublishMessage

/-- A decoded PUBLISH has a packet id if its QoS asks for one. -/
theorem length_packetId_of_decode {this : PublishMessage} {src : Slice} {n : ℕ}
    (hdone : newPublishMessage.decode src = .done this n) :
    this.packetId.length = if this.qos ≠ 0 then 2 else 0 := by
  obtain ⟨header, hn, hheader, hfields⟩ := Outcome.map_andThen_eq_done_iff.mp hdone
  have hnone : header.packetId = [] := Header.packetId_of_decode hheader
  obtain ⟨named, count, hnamed, hfields⟩ := Outcome.andThen_eq_done_iff.mp hfields
  have hkeeps : Outcome.Keeps toHeader header (.done named count : Outcome Err PublishMessage) :=
    hnamed ▸ keeps_readLPField (fun _ => rfl) src hn
  have hsame : named.toHeader = header := hkeeps
  obtain ⟨valid, _, hreject, hrest⟩ := Outcome.andThen_eq_done_iff.mp hfields
  obtain ⟨-, hvalid, -⟩ := Outcome.reject_eq_done_iff.mp hreject
  rw [hvalid] at hrest
  obtain ⟨marked, total, hmarked, hpayload⟩ := Outcome.andThen_eq_done_iff.mp hrest
  have hmarked : marked.packetId.length = if marked.qos ≠ 0 then 2 else 0 := by
    by_cases hqos : named.qos ≠ 0
    · rw [if_pos hqos] at hmarked
      obtain ⟨header', hid, rfl⟩ := Outcome.map_eq_done_iff.mp hmarked
      obtain ⟨hlength, hflags⟩ := Header.readPacketId_done hid
      have hqos' : (named.withHeader header').qos = named.qos :=
        congrArg (fun first : Byte => ((first &&& 15) >>> 1) &&& 3) hflags
      rw [hqos', if_pos hqos]
      exact hlength
    · rw [if_neg hqos] at hmarked
      injection hmarked with hmarked
      rw [← hmarked, if_neg hqos, hsame, hnone]
      rfl
  unfold decodePayload at hpayload
  split at hpayload
  · cases hpayload
  · injection hpayload with hthis
    rw [← hthis]
    exact hmarked

/-- Setters that leave a PUBLISH unchanged do not give it a packet id or take it away. -/
theorem packetId_perform {this : PublishMessage} {call : Setter}
    (hclean : (this.perform call).dirty = false) :
    (this.perform call).packetId.length = this.packetId.length := by
  cases call with
  | dup v => rfl
  | retain v => rfl
  | qos v =>
      rw [perform, setQoS]
      split <;> rfl
  | topic v =>
      rw [perform, setTopic]
      split <;> rfl
  | payload v => rfl
  | packetId v =>
      rw [perform, setPacketId, Header.setPacketId] at hclean ⊢
      split_ifs at hclean ⊢ with hzero hlength
      · rfl
      · cases hclean
      · exact (not_not.mp hlength).symm

/-- A decoded PUBLISH after some setters: it has changed, or it is still the copy of a
frame, with a packet id of the length it was decoded with. -/
def Edited (length : ℕ) (this : PublishMessage) : Prop :=
  (this.Changed ∧ (this.topic = [] ∨ validTopic this.topic = true)) ∨
    ∃ frame, this.Mirrors frame ∧ this.packetId.length = length

theorem Edited.perform {length : ℕ} {this : PublishMessage} (hedited : this.Edited length)
    (call : Setter) : (this.perform call).Edited length := by
  rcases hedited with ⟨hchanged, htopic⟩ | ⟨frame, hmirrors, hlength⟩
  · exact Or.inl ⟨hchanged.perform call, topic_perform htopic call⟩
  · rcases hmirrors.perform call with hchanged | ⟨frame', hmirrors'⟩
    · exact Or.inl hchanged
    · exact Or.inr ⟨frame', hmirrors', (packetId_perform hmirrors'.clean).trans hlength⟩

theorem edited_of_decode {frame : Frame} {decoded : PublishMessage} {n : ℕ}
    (hdone : newPublishMessage.decode (Slice.full frame.bytes) = .done decoded n)
    (calls : List Setter) :
    (calls.foldl perform decoded).Edited (if decoded.qos ≠ 0 then 2 else 0) :=
  List.foldlRecOn calls perform
    (Or.inr ⟨frame, mirrors_of_decode hdone, length_packetId_of_decode hdone⟩)
    fun _ hedited call _ => hedited.perform call

/-- What an edited PUBLISH needs to be read back.  If nothing has marked it as changed,
its QoS has not crossed zero. -/
structure Sendable (decoded edited : PublishMessage) : Prop where
  size : edited.dirty = true → edited.msglen ≤ 268435455
  qos : edited.dirty = false → (edited.qos = 0 ↔ decoded.qos = 0)

theorem readBack_of_fields {edited sent result : PublishMessage} {src : Slice} {n : ℕ}
    (hdone : newPublishMessage.decode src = .done result n)
    (htopic : result.topic = edited.topic) (hpayload : result.payload = edited.payload)
    (hflags : result.mtypeflags = edited.mtypeflags)
    (hpacketId : edited.qos ≠ 0 → result.packetId = sent.packetId)
    (hkept : edited.packetIdValue ≠ 0 → sent.packetIdValue = edited.packetIdValue) :
    ReadBack (.publish edited) (.publish sent) src (.publish result) where
  decode := ⟨n, congrArg (Outcome.map Message.publish) hdone⟩
  fields := by
    simp only [Message.getters, PublishMessage.getters, dup, retain, PublishMessage.qos,
      Header.flags, htopic, hpayload, hflags]
  packetId := fun hqos =>
    congrArg (fun id => ({ result.toHeader with packetId := id } : Header).packetIdValue)
      (hpacketId hqos)
  without := fun hzero => by
    have hqos : ¬ edited.qos ≠ 0 := hzero
    have hsame : result.qos = edited.qos :=
      congrArg (fun first : Byte => ((first &&& 15) >>> 1) &&& 3) hflags
    have hlength := length_packetId_of_decode hdone
    rw [hsame, if_neg hqos] at hlength
    change result.packetIdValue = 0
    rw [Header.packetIdValue, List.length_eq_zero_iff.mp hlength]
  kept := hkept

/-- A packet id that is there is sent as it is. -/
theorem packetIdValue_sent {this : PublishMessage} (hid : this.packetIdValue ≠ 0)
    (gPacketId : UInt64) : (this.sent gPacketId).packetIdValue = this.packetIdValue := by
  rw [sent, Header.ensurePacketId_sized hid]
  split_ifs <;> rfl

variable {decoded edited : PublishMessage} {dst : Bytes} {gPacketId : UInt64}
variable {state : Encoded PublishMessage} {size : ℕ}

theorem Changed.readBack (hchanged : edited.Changed)
    (htopic : edited.topic = [] ∨ validTopic edited.topic = true)
    (hsize : edited.msglen ≤ 268435455)
    (hencode : edited.encode dst gPacketId = .done state size) (spare : Bytes) :
    ∃ result, Message.ReadBack (.publish edited) (.publish state.this)
      ⟨state.dst.take size, spare⟩ result := by
  have hable := encodable_of_encode_eq_done hchanged.dirty hencode
  have hvalid : validTopic edited.topic = true := htopic.resolve_left fun hnil =>
    hable.topic (by rw [hnil]; rfl)
  rw [encode_of_encodable hchanged.dirty hable] at hencode
  injection hencode with hstate hcount
  have htake : size =
      ((edited.sized edited.msglen).wire ++ (edited.sent gPacketId).body).length := by
    rw [List.length_append, hable.length_wire, length_body_sent, hcount]
  obtain ⟨result, hdone, hsame, hpayload, hflags, hpacketId⟩ :=
    decode_sent (show newPublishMessage.type = .publish from rfl) hchanged.type
      hchanged.flagsAccepted hvalid hable.lpTopic (int32_of_lt (by omega)) hable.remlen.2
      gPacketId [] spare
  rw [List.append_nil] at hdone
  rw [← hstate]
  simp only [List.take_left' htake.symm]
  exact ⟨.publish result, readBack_of_fields hdone hsame hpayload hflags hpacketId
    fun hid => packetIdValue_sent hid gPacketId⟩

theorem Mirrors.readBack {frame : Frame} (hmirrors : edited.Mirrors frame)
    (hid : edited.packetId.length = if edited.qos ≠ 0 then 2 else 0)
    (hencode : edited.encode dst gPacketId = .done state size) (spare : Bytes) :
    ∃ result, Message.ReadBack (.publish edited) (.publish state.this)
      ⟨state.dst.take size, spare⟩ result := by
  rw [encode, if_pos (by rw [hmirrors.clean]; rfl)] at hencode
  obtain ⟨hthis, hbytes⟩ := encodeClean_eq_done hencode
  obtain ⟨result, n, hdone, htopic, hpayload, hflags, hpacketId⟩ :=
    hmirrors.decode_bytes (show newPublishMessage.type = .publish from rfl) hid [] spare
  rw [List.append_nil] at hdone
  rw [hbytes, hthis]
  exact ⟨.publish result, readBack_of_fields hdone htopic hpayload hflags hpacketId fun _ => rfl⟩

/-- An edited PUBLISH that `Encode` accepts is read back. -/
theorem readBack {frame : Frame} {n : ℕ} {calls : List Setter}
    (hdone : newPublishMessage.decode (Slice.full frame.bytes) = .done decoded n)
    (hedited : edited = calls.foldl perform decoded) (hsendable : decoded.Sendable edited)
    (hencode : edited.encode dst gPacketId = .done state size) (spare : Bytes) :
    ∃ result, Message.ReadBack (.publish edited) (.publish state.this)
      ⟨state.dst.take size, spare⟩ result := by
  rcases hedited ▸ edited_of_decode hdone calls with ⟨hchanged, htopic⟩ | ⟨frame', hmirrors, hid⟩
  · exact hchanged.readBack htopic (hsendable.size hchanged.dirty) hencode spare
  · refine hmirrors.readBack ?_ hencode spare
    rw [hid]
    exact if_congr (not_congr (hsendable.qos hmirrors.clean).symm) rfl rfl

end PublishMessage

end Xmqtt.Message
