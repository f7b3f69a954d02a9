import Xmqtt.Message.Messages

/-!
# Encoded packets are frames

Whatever the type of a message, an encode that returns without an error leaves
one frame in the destination buffer, as long as the message has changed since
its decode or was decoded from a single frame.
-/

namespace Xmqtt.Message

open Xmqtt.Go

/-- The first `n` bytes of an encoder's buffer are one frame. -/
def Framed {μ : Type} (state : Encoded μ) (n : ℕ) : Prop :=
  ∃ frame : Frame, state.dst.take n = frame.bytes

section Framed

variable {μ : Type} {header : Header} {state : Encoded μ} {n ml : ℕ}

/-- A sized header in front of a body of that size.  The bound excludes sizes that
`int32(ml)` does not keep. -/
theorem framed_of_dst {body rest : Bytes}
    (hremlen : 0 ≤ int32 ml ∧ int32 ml ≤ maxRemainingLength)
    (hdst : state.dst = (header.sized ml).wire ++ body ++ rest) (hbody : body.length = ml)
    (hn : n = (header.sized ml).msglen + ml) (hsmall : n < 2147483648) :
    Framed state n := by
  have hint : (header.sized ml).remlen = body.length := by
    rw [Header.remlen_sized, int32_of_lt (by omega), hbody]
  have hbound : (header.sized ml).remlen ≤ maxRemainingLength := hremlen.2
  have hwire : (header.sized ml).wire.length = (header.sized ml).msglen :=
    Header.length_wire hremlen.1 hremlen.2
  refine ⟨Frame.ofHeader (header.sized ml) body hint hbound, ?_⟩
  rw [Frame.bytes_ofHeader, hdst]
  exact List.take_left' (by rw [List.length_append, hwire, hn, hbody])

theorem Emits.framed {ok : Prop} {body dst : Bytes} {sent : μ} {gPacketId : UInt64}
    (hemits : Emits header ml ok body dst sent gPacketId state n) (hbody : body.length = ml)
    (hsmall : n < 2147483648) : Framed state n :=
  framed_of_dst hemits.remlen (congrArg Encoded.dst hemits.state_eq) hbody hemits.count_eq hsmall

/-- Fields that take up `ml` bytes of the buffer, although what they leave there may
depend on what was there before. -/
def Fills (fields : Encoded μ → ℕ → Outcome Err (Encoded μ)) (ml : ℕ) : Prop :=
  ∀ (this : μ) (out rest : Bytes) (gPacketId : UInt64) (state : Encoded μ) (n : ℕ),
    fields ⟨this, out ++ rest, gPacketId⟩ out.length = .done state n →
      n ≤ state.dst.length →
      ∃ body after, state.dst = out ++ body ++ after ∧ body.length = ml ∧ n = out.length + ml

theorem Writes.fills {fields : Encoded μ → ℕ → Outcome Err (Encoded μ)} {ok : Prop}
    {bytes : Bytes} (hfields : Writes fields ok bytes) : Fills fields bytes.length := by
  intro this out rest gPacketId state n hdone _
  obtain ⟨-, -, rfl, rfl⟩ := (hfields this out rest gPacketId state n).mp hdone
  exact ⟨bytes, rest.drop bytes.length, rfl, rfl, List.length_append⟩

theorem framed_of_encodeBody {rebuild : Header → μ}
    {fields : Encoded μ → ℕ → Outcome Err (Encoded μ)} {dst : Bytes} {gPacketId : UInt64}
    {name : String} (hfields : Fills fields ml)
    (hdone : encodeBody header rebuild ml fields dst gPacketId name = .done state n)
    (hn : n ≤ state.dst.length) (hsmall : n < 2147483648) : Framed state n := by
  obtain ⟨-, hsized⟩ := encodeBody_eq_done_iff.mp hdone
  obtain ⟨hremlen, -, -, hrest⟩ := encodeSized_eq_done_iff.mp hsized
  obtain ⟨body, after, hdst, hbody, hcount⟩ := hfields _ _ _ _ _ _ hrest hn
  rw [Header.length_wire hremlen.1 hremlen.2] at hcount
  exact framed_of_dst hremlen hdst hbody hcount hsmall

theorem framed_of_encodeClean {name : String} {start : Encoded μ} {frame : Frame}
    (hdbuf : header.dbuf.bytes = frame.bytes)
    (hdone : encodeClean name header start = .done state n) : Framed state n := by
  rw [encodeClean] at hdone
  split at hdone
  · simp at hdone
  · injection hdone with hstate hcount
    refine ⟨frame, ?_⟩
    rw [← hstate, ← hcount, ← hdbuf]
    exact List.take_left

end Framed

/-! ## The encoders -/

theorem emitPacketIdOrZero_writes {μ : Type} (id : Bytes) :
    Writes (μ := μ) (emitPacketIdOrZero id) True (packetIdOrZero id) := by
  intro this out rest gPacketId state n
  rw [emitPacketIdOrZero, length_packetIdOrZero]
  by_cases hfit : 2 ≤ rest.length
  · rw [if_neg (by simp only [List.length_append]; omega)]
    simp [hfit, eq_comm]
  · rw [if_pos (by simp only [List.length_append]; omega)]
    simp [hfit]

theorem SubackMessage.encodeFields_fills (this : SubackMessage) :
    Fills this.encodeFields this.msglen := by
  intro message out rest gPacketId state n hdone hn
  obtain ⟨middle, count, hid, hcodes⟩ := Outcome.andThen_eq_done_iff.mp hdone
  obtain ⟨-, hfit, rfl, rfl⟩ :=
    (emitPacketIdOrZero_writes this.packetId _ _ _ _ _ _).mp hid
  generalize hafter : rest.drop (packetIdOrZero this.packetId).length = after at hcodes
  by_cases hroom : this.returnCodes.length ≤ after.length
  · rw [emitWhole_of_le hroom] at hcodes
    injection hcodes with hstate hcount
    refine ⟨packetIdOrZero this.packetId ++ this.returnCodes,
      after.drop this.returnCodes.length, ?_, ?_, ?_⟩
    · rw [← hstate, List.append_assoc out]
    · rw [List.length_append, length_packetIdOrZero, msglen]
    · rw [← hcount, List.append_assoc, List.length_append, List.length_append,
        length_packetIdOrZero, msglen]
  · -- a buffer that the codes do not fit into stays shorter than the count returned
    rw [emitWhole] at hcodes
    injection hcodes with hstate hcount
    rw [← hstate, ← hcount] at hn
    simp only [List.length_append, List.length_take, List.length_drop] at hn hroom
    omega

theorem ConnackMessage.encodeFields_fills (this : ConnackMessage) :
    Fills this.encodeFields this.msglen := by
  intro message out rest gPacketId state n hdone hn
  match rest with
  | [] | [_] =>
      cases hsession : this.sessionPresent <;>
        simp [encodeFields, emitByte, hsession] at hdone
  | old :: code :: rest =>
      have hstate : state.dst = out ++
          [if this.sessionPresent then 1 else old, this.returnCode.toUInt8] ++ rest ∧
          n = out.length + 2 := by
        cases hsession : this.sessionPresent <;>
          simp [encodeFields, emitByte, hsession] at hdone <;>
          simp [← hdone.1, ← hdone.2]
      exact ⟨_, rest, hstate.1, rfl, hstate.2⟩

section Encoders

variable {dst : Bytes} {gPacketId : UInt64} {n : ℕ}

theorem PubackMessage.framed {this : PubackMessage} {state : Encoded PubackMessage}
    (hdirty : this.dirty = true) (hdone : this.encode dst gPacketId = .done state n)
    (hn : n ≤ state.dst.length) (hsmall : n < 2147483648) : Framed state n := by
  rw [encode, if_neg (by simp [hdirty])] at hdone
  have hfills := (emitPacketIdOrZero_writes (μ := PubackMessage) this.packetId).fills
  rw [length_packetIdOrZero] at hfills
  exact framed_of_encodeBody hfills hdone hn hsmall

theorem SubackMessage.framed {this : SubackMessage} {state : Encoded SubackMessage}
    (hdirty : this.dirty = true) (hdone : this.encode dst gPacketId = .done state n)
    (hn : n ≤ state.dst.length) (hsmall : n < 2147483648) : Framed state n := by
  rw [encode, if_neg (by simp [hdirty])] at hdone
  split at hdone
  · simp at hdone
  · exact framed_of_encodeBody this.encodeFields_fills hdone hn hsmall

theorem ConnackMessage.framed {this : ConnackMessage} {state : Encoded ConnackMessage}
    (hdirty : this.dirty = true) (hdone : this.encode dst gPacketId = .done state n)
    (hn : n ≤ state.dst.length) (hsmall : n < 2147483648) : Framed state n := by
  rw [encode, if_neg (by simp [hdirty])] at hdone
  exact framed_of_encodeBody this.encodeFields_fills hdone hn hsmall

/-- The header alone is a frame when it announces no body. -/
theorem DisconnectMessage.framed {this : DisconnectMessage} {state : Encoded DisconnectMessage}
    (hdirty : this.dirty = true) (hremlen : this.remlen = 0)
    (hdone : this.encode dst gPacketId = .done state n) : Framed state n := by
  rw [encode, if_neg (by simp [hdirty])] at hdone
  obtain ⟨⟨-, hbound⟩, -, -, rfl, rfl⟩ := emitHeader_eq_done_iff.mp hdone
  refine ⟨Frame.ofHeader this.toHeader [] hremlen hbound, ?_⟩
  rw [Frame.bytes_ofHeader, List.append_nil]
  exact List.take_left

theorem PublishMessage.framed {this : PublishMessage} {state : Encoded PublishMessage}
    (hdirty : this.dirty = true) (hdone : this.encode dst gPacketId = .done state n)
    (hsmall : n < 2147483648) : Framed state n := by
  have hable := encodable_of_encode_eq_done hdirty hdone
  rw [encode_of_encodable hdirty hable] at hdone
  injection hdone with hstate hcount
  exact framed_of_dst hable.remlen (by rw [← hstate]) (this.length_body_sent gPacketId)
    hcount.symm hsmall

theorem SubscribeMessage.framed {this : SubscribeMessage} {state : Encoded SubscribeMessage}
    (hdirty : this.dirty = true) (hdone : this.encode dst gPacketId = .done state n)
    (hsmall : n < 2147483648) : Framed state n := by
  refine ((encode_eq_done_iff hdirty).mp hdone).framed ?_ hsmall
  rw [List.length_append, Header.length_packetId_ensurePacketId, this.msglen_eq]

theorem UnsubscribeMessage.framed {this : UnsubscribeMessage}
    {state : Encoded UnsubscribeMessage} (hdirty : this.dirty = true)
    (hdone : this.encode dst gPacketId = .done state n) (hsmall : n < 2147483648) :
    Framed state n := by
  refine ((encode_eq_done_iff hdirty).mp hdone).framed ?_ hsmall
  rw [List.length_append, Header.length_packetId_ensurePacketId, this.msglen_eq]

theorem ConnectMessage.framed {this : ConnectMessage} {state : Encoded ConnectMessage}
    (hdirty : this.dirty = true) (hdone : this.encode dst gPacketId = .done state n)
    (hsmall : n < 2147483648) : Framed state n := by
  obtain ⟨-, verstr, hversion, hemits⟩ := (encode_eq_done_iff hdirty).mp hdone
  exact hemits.framed (msglen_eq hversion).symm hsmall

end Encoders

/-! ## Any message -/

/-- The messages that are a header and nothing else. -/
def bodiless : Xmqtt.Message → Bool
  | .pingreq _ | .pingresp _ | .disconnect _ => true
  | _ => false

/-- A message in a state that `Encode` turns into one frame: it has changed since it
was made or decoded, or it was decoded from one frame.  PINGREQ, PINGRESP and
DISCONNECT count as changed even after a decode, and then must not announce a body. -/
def Emittable (message : Xmqtt.Message) : Prop :=
  if message.header.dirty = true then message.bodiless = true → message.header.remlen = 0
  else ∃ frame : Frame, message.header.dbuf.bytes = frame.bytes

/-- Every setter leaves its message changed, and so emittable. -/
theorem emittable_of_dirty {message : Xmqtt.Message} (hdirty : message.header.dirty = true)
    (hbody : message.bodiless = false) : message.Emittable := by
  rw [Emittable, if_pos hdirty]
  simp [hbody]

theorem emittable_new {mtype : MessageType} {message : Xmqtt.Message}
    (hnew : mtype.new = .ok message) : message.Emittable := by
  cases mtype <;> cases hnew <;> exact fun _ => rfl

section Lift

variable {μ : Type} {wrap : μ → Xmqtt.Message} {dst : Bytes} {gPacketId : UInt64} {n : ℕ}
variable {state : Encoded Xmqtt.Message}

theorem lift_encodeClean (name : String) (header : Header) (this : μ) :
    lift wrap (encodeClean name header ⟨this, dst, gPacketId⟩) =
      encodeClean name header ⟨wrap this, dst, gPacketId⟩ := by
  rw [encodeClean, encodeClean, lift]
  split <;> rfl

theorem framed_of_lift {outcome : Outcome Err (Encoded μ)}
    (hdone : lift wrap outcome = .done state n) (hn : n ≤ state.dst.length)
    (hframed : ∀ inner, outcome = .done inner n → n ≤ inner.dst.length → Framed inner n) :
    Framed state n := by
  cases outcome with
  | panic | fail inner count err => simp [lift] at hdone
  | done inner count =>
      simp only [lift, Outcome.map_done, Outcome.done.injEq] at hdone
      obtain ⟨rfl, rfl⟩ := hdone
      exact hframed inner rfl hn

end Lift

section Encode

variable {message : Xmqtt.Message} {dst : Bytes} {gPacketId : UInt64}
variable {state : Encoded Xmqtt.Message} {n : ℕ}

theorem encode_of_clean (hclean : message.header.dirty = false) :
    ∃ name, message.encode dst gPacketId =
      encodeClean name message.header ⟨message, dst, gPacketId⟩ := by
  cases message <;> simp only [header] at hclean <;>
    simp only [Message.encode, ConnectMessage.encode, ConnackMessage.encode,
      PublishMessage.encode, PubackMessage.encode, SubscribeMessage.encode,
      SubackMessage.encode, UnsubscribeMessage.encode, DisconnectMessage.encode, hclean,
      Bool.not_false, if_true, lift_encodeClean] <;>
    exact ⟨_, rfl⟩

theorem framed_of_dirty (hdirty : message.header.dirty = true)
    (hbodiless : message.bodiless = true → message.header.remlen = 0)
    (hdone : message.encode dst gPacketId = .done state n) (hn : n ≤ state.dst.length)
    (hsmall : n < 2147483648) : Framed state n := by
  cases message with
  | connect this =>
      exact framed_of_lift hdone hn fun _ hinner _ =>
        ConnectMessage.framed hdirty hinner hsmall
  | connack this =>
      exact framed_of_lift hdone hn fun _ hinner hle =>
        ConnackMessage.framed hdirty hinner hle hsmall
  | publish this =>
      exact framed_of_lift hdone hn fun _ hinner _ =>
        PublishMessage.framed hdirty hinner hsmall
  | subscribe this =>
      exact framed_of_lift hdone hn fun _ hinner _ =>
        SubscribeMessage.framed hdirty hinner hsmall
  | suback this =>
      exact framed_of_lift hdone hn fun _ hinner hle =>
        SubackMessage.framed hdirty hinner hle hsmall
  | unsubscribe this =>
      exact framed_of_lift hdone hn fun _ hinner _ =>
        UnsubscribeMessage.framed hdirty hinner hsmall
  | puback this | pubrec this | pubrel this | pubcomp this | unsuback this =>
      exact framed_of_lift hdone hn fun _ hinner hle =>
        PubackMessage.framed hdirty hinner hle hsmall
  | pingreq this | pingresp this | disconnect this =>
      exact framed_of_lift hdone hn fun _ hinner _ =>
        DisconnectMessage.framed hdirty (hbodiless rfl) hinner

/-- Every encoded packet is one frame. -/
theorem framed_of_encode (hemittable : message.Emittable)
    (hdone : message.encode dst gPacketId = .done state n) (hn : n ≤ state.dst.length)
    (hsmall : n < 2147483648) : Framed state n := by
  rw [Emittable] at hemittable
  split at hemittable
  · rename_i hdirty
    exact framed_of_dirty hdirty hemittable hdone hn hsmall
  · rename_i hclean
    obtain ⟨frame, hframe⟩ := hemittable
    obtain ⟨name, hname⟩ := encode_of_clean (Bool.eq_false_of_not_eq_true hclean)
    rw [hname] at hdone
    exact framed_of_encodeClean hframe hdone

end Encode

end Xmqtt.Message
