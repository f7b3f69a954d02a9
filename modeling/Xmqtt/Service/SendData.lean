import Xmqtt.Service.Incoming

/-!
# The packets that a service sends

The acknowledgements that `processIncoming` sends, as they are on the wire.
-/

namespace Xmqtt.Service

open Xmqtt.Go Xmqtt.Message Xmqtt.Sessions

/-- A packet whose body is a packet id. -/
def ackPacket (first : Byte) (id : ℕ) : Bytes := [first, 2] ++ uint16Bytes id

def subackPacket (id : ℕ) (codes : Bytes) : Bytes :=
  0x90 :: uvarintBytes (2 + codes.length) ++ (uint16Bytes id ++ codes)

/-- What was sent does not fail in `Encode`. -/
theorem encodes_of_sendData {pm : PublishMessage} {gPacketId : UInt64}
    (hsent : (sendData (.publish pm) gPacketId).1 = .returned none) : pm.encodes = true := by
  have hroom : pm.len.2 ≤ (List.replicate pm.len.2 (0 : Byte)).length := by
    rw [List.length_replicate]
  rw [← pm.encode_len_done_iff hroom gPacketId]
  rw [sendData] at hsent
  split at hsent
  · cases hsent
  · cases hsent
  · next state n hdone =>
      obtain ⟨inner, hinner, -⟩ := lift_eq_done_iff.mp hdone
      exact ⟨inner, n, hinner⟩

section SendData

variable (gPacketId : UInt64)

theorem idOf_toNat (header : Header) : (idOf header).toNat = header.packetIdValue :=
  UInt16.toNat_ofNat_of_lt' (header.packetIdValue_lt)

/-- A new acknowledgement carries the packet id it is given, and zero if it is given zero. -/
theorem packetIdOrZero_setPacketId (mtype : MessageType) (v : UInt16) :
    packetIdOrZero ((newHeader mtype).setPacketId v).packetId = uint16Bytes v.toNat := by
  by_cases hzero : v = 0
  · subst hzero
    rfl
  · rw [Header.setPacketId, if_neg hzero]
    rfl

/-- Fields that, given room for just `bytes`, write them. -/
def Fit {μ : Type} (fields : Encoded μ → ℕ → Outcome Err (Encoded μ)) (bytes : Bytes) :
    Prop :=
  ∀ (this : μ) (out rest : Bytes) (gPacketId : UInt64), rest.length = bytes.length →
    fields ⟨this, out ++ rest, gPacketId⟩ out.length =
      .done ⟨this, out ++ bytes, gPacketId⟩ (out.length + bytes.length)

theorem fit_packetId {μ : Type} (id : Bytes) :
    Fit (μ := μ) (emitPacketIdOrZero id) (packetIdOrZero id) := by
  intro this out rest gPacketId hrest
  refine (emitPacketIdOrZero_writes id this out rest gPacketId _ _).mpr
    ⟨trivial, hrest.ge, ?_, List.length_append.symm⟩
  rw [← hrest, List.drop_length, List.append_nil]

theorem fit_subackFields (this : SubackMessage) :
    Fit this.encodeFields (packetIdOrZero this.packetId ++ this.returnCodes) := by
  intro message out rest gPacketId hrest
  have hlength : rest.length = 2 + this.returnCodes.length := by
    rw [hrest, List.length_append, length_packetIdOrZero]
  have hid := (emitPacketIdOrZero_writes this.packetId message out rest gPacketId _ _).mpr
    ⟨trivial, by rw [length_packetIdOrZero, hlength]; exact Nat.le_add_right _ _, rfl, rfl⟩
  have hcodes : this.returnCodes.length =
      (rest.drop (packetIdOrZero this.packetId).length).length := by
    rw [List.length_drop, length_packetIdOrZero, hlength, Nat.add_sub_cancel_left]
  rw [SubackMessage.encodeFields, hid, Outcome.done_andThen, emitWhole_of_le hcodes.le, hcodes,
    List.drop_length, List.append_nil, List.append_assoc, List.length_append]

/-- `Encode` of a changed message after `Len`, as all types but PUBLISH have it. -/
theorem encodeBody_after_len {μ : Type} {header : Header} {rebuild : Header → μ} {ml : ℕ}
    {fields : Encoded μ → ℕ → Outcome Err (Encoded μ)} {bytes : Bytes}
    (hfields : Fit fields bytes) (hml : ml = bytes.length) (hshort : ml ≤ 268435455)
    (hvalid : header.type.valid = true) (name : String) :
    encodeBody (header.sized ml) rebuild ml fields
        (List.replicate ((header.sized ml).msglen + ml) 0) gPacketId name =
      .done ⟨rebuild (header.sized ml), (header.sized ml).wire ++ bytes, gPacketId⟩
        ((header.sized ml).msglen + ml) := by
  have hremlen := Header.remlen_bounds hshort
  have hwire : (header.sized ml).wire.length = (header.sized ml).msglen :=
    Header.length_wire hremlen.1 hremlen.2
  have hrest : ((List.replicate ((header.sized ml).msglen + ml) (0 : Byte)).drop
      (header.sized ml).msglen).length = bytes.length := by
    rw [List.length_drop, List.length_replicate, Nat.add_sub_cancel_left, hml]
  have hdone := hfields (rebuild (header.sized ml)) (header.sized ml).wire _ gPacketId hrest
  rw [encodeBody_eq_done_iff, encodeSized_eq_done_iff, List.length_replicate]
  refine ⟨le_rfl, hremlen, hvalid, Nat.le_add_right _ _, ?_⟩
  rw [← hml, hwire] at hdone
  rw [Header.sized_sized, hwire]
  exact hdone

theorem wire_sized (header : Header) {ml : ℕ} (hshort : ml ≤ 268435455) :
    (header.sized ml).wire = header.mtypeflags :: uvarintBytes ml := by
  rw [Header.wire, Header.remlen_sized, int32_of_lt (hshort.trans_lt (by norm_num))]
  rfl

/-- A message that was changed is sent as its header in front of its fields. -/
theorem sendData_body {μ : Type} {wrap : μ → Xmqtt.Message} {msg sized : Xmqtt.Message}
    {header : Header} {rebuild : Header → μ} {ml : ℕ}
    {fields : Encoded μ → ℕ → Outcome Err (Encoded μ)} {bytes : Bytes} {name : String}
    (hlen : msg.len = (sized, (header.sized ml).msglen + ml))
    (hencode : ∀ dst, sized.encode dst gPacketId =
      lift wrap (encodeBody (header.sized ml) rebuild ml fields dst gPacketId name))
    (hfields : Fit fields bytes) (hml : ml = bytes.length) (hshort : ml ≤ 268435455)
    (hvalid : header.type.valid = true) :
    sendData msg gPacketId =
      (.returned none, [header.mtypeflags :: uvarintBytes ml ++ bytes]) := by
  have hwire : ((header.sized ml).wire ++ bytes).length = (header.sized ml).msglen + ml := by
    rw [List.length_append, hml, ← hml, Header.length_wire]
    · rw [Header.remlen_sized, int32_of_lt (hshort.trans_lt (by norm_num))]
      omega
    · rw [Header.remlen_sized, int32_of_lt (hshort.trans_lt (by norm_num)), maxRemainingLength]
      omega
  rw [sendData, hlen, hencode, encodeBody_after_len gPacketId hfields hml hshort hvalid]
  simp only [lift, Outcome.map_done, hwire, le_refl, if_true]
  rw [← hwire, List.take_length, wire_sized header hshort]

theorem sendData_ack {mtype : MessageType} {wrap : PubackMessage → Xmqtt.Message}
    (hkind : AckKind mtype wrap) (v : UInt16) :
    sendData (wrap (PubackMessage.setPacketId ⟨newHeader mtype⟩ v)) gPacketId =
      (.returned none, [ackPacket (newHeader mtype).mtypeflags v.toNat]) := by
  have hdirty : ((newHeader mtype).setPacketId v).dirty = true :=
    Header.dirty_setPacketId rfl v
  have hflags := Header.mtypeflags_setPacketId (newHeader mtype) v
  have hvalid : ((newHeader mtype).setPacketId v).type.valid = true := by
    rw [Header.type, hflags]
    exact (congrArg MessageType.valid (type_newHeader mtype)).trans hkind.valid
  have hlen : PubackMessage.len ⟨(newHeader mtype).setPacketId v⟩ =
      (⟨((newHeader mtype).setPacketId v).sized 2⟩,
        (((newHeader mtype).setPacketId v).sized 2).msglen + 2) := by
    rw [PubackMessage.len, PubackMessage.msglen, Header.lenOf_of_le hdirty (by norm_num)]
    rfl
  have hsent := sendData_body gPacketId (hkind.len.trans (by rw [hlen]))
    (fun dst => hkind.encode dst gPacketId) (fit_packetId _) (length_packetIdOrZero _).symm
    (by norm_num) hvalid
  refine hsent.trans ?_
  rw [hflags]
  exact congrArg (fun id => (Ending.returned none, [_ :: _ ++ id]))
    (packetIdOrZero_setPacketId mtype v)

/-- The codes that a SUBACK may carry. -/
def ReturnCode (code : Byte) : Prop :=
  code = qosAtMostOnce ∨ code = qosAtLeastOnce ∨ code = qosExactlyOnce ∨ code = qosFailure

theorem addReturnCodes_of_forall {codes : Bytes} (hcodes : ∀ code ∈ codes, ReturnCode code)
    (this : SubackMessage) :
    this.addReturnCodes codes =
      ({ this with returnCodes := this.returnCodes ++ codes, dirty := true }, none) := by
  induction codes generalizing this with
  | nil => rw [SubackMessage.addReturnCodes, List.append_nil]
  | cons code codes ih =>
      have hcode := hcodes code List.mem_cons_self
      rw [SubackMessage.addReturnCodes, if_neg (by unfold ReturnCode at hcode; tauto),
        ih fun other hother => hcodes other (List.mem_cons_of_mem _ hother)]
      simp only [List.append_assoc, List.singleton_append]

theorem addReturnCodes_of_not {codes : Bytes} (hcodes : ¬∀ code ∈ codes, ReturnCode code)
    (this : SubackMessage) : ∃ resp err, this.addReturnCodes codes = (resp, some err) := by
  induction codes generalizing this with
  | nil => simp at hcodes
  | cons code codes ih =>
      rw [SubackMessage.addReturnCodes]
      by_cases hcode : ReturnCode code
      · rw [if_neg (by unfold ReturnCode at hcode; tauto)]
        apply ih
        intro hrest
        exact hcodes (List.forall_mem_cons.mpr ⟨hcode, hrest⟩)
      · rw [if_pos (by unfold ReturnCode at hcode; tauto)]
        exact ⟨_, _, rfl⟩

theorem sendData_suback {this : SubackMessage} (hdirty : this.dirty = true)
    (hvalid : this.type.valid = true) (hcodes : ∀ code ∈ this.returnCodes, ReturnCode code)
    (hshort : this.msglen ≤ 268435455) :
    sendData (.suback this) gPacketId =
      (.returned none, [this.mtypeflags :: uvarintBytes this.msglen ++
        (packetIdOrZero this.packetId ++ this.returnCodes)]) := by
  have hlen : (Xmqtt.Message.suback this).len =
      (.suback (this.withHeader (this.sized this.msglen)),
        (this.sized this.msglen).msglen + this.msglen) := by
    rw [Message.len, SubackMessage.len, Header.lenOf_of_le hdirty hshort]
  have hencode : ∀ dst,
      (Xmqtt.Message.suback (this.withHeader (this.sized this.msglen))).encode dst gPacketId =
        lift .suback (encodeBody (this.sized this.msglen) this.withHeader this.msglen
          this.encodeFields dst gPacketId "suback") := by
    intro dst
    have hcheck : checkReturnCodes "Encode"
        (this.withHeader (this.sized this.msglen)).returnCodes = none :=
      checkReturnCodes_of_forall hcodes _
    rw [Message.encode, SubackMessage.encode, hcheck]
    rfl
  have hml : this.msglen = (packetIdOrZero this.packetId ++ this.returnCodes).length := by
    rw [List.length_append, length_packetIdOrZero, SubackMessage.msglen]
  exact sendData_body gPacketId hlen hencode (fit_subackFields this) hml hshort hvalid

/-- The reply of `processSubscribe`. -/
theorem sendData_subscribed (v : UInt16) {codes : Bytes}
    (hcodes : ∀ code ∈ codes, ReturnCode code) (hshort : 2 + codes.length ≤ 268435455) :
    sendData (.suback ((newSubackMessage.setPacketId v).addReturnCodes codes).1) gPacketId =
      (.returned none, [subackPacket v.toNat codes]) := by
  have hflags := Header.mtypeflags_setPacketId (newHeader .suback) v
  have hid := packetIdOrZero_setPacketId .suback v
  have hvalid : ((newHeader .suback).setPacketId v).type.valid = true := by
    rw [Header.type, hflags]
    rfl
  have hadded := congrArg Prod.fst
    (addReturnCodes_of_forall hcodes (newSubackMessage.setPacketId v))
  generalize ((newSubackMessage.setPacketId v).addReturnCodes codes).1 = resp at hadded
  have hreturn : resp.returnCodes = codes := by
    rw [hadded]
    rfl
  have hmsglen : resp.msglen = 2 + codes.length := by
    rw [SubackMessage.msglen, hreturn]
  have hdirty : resp.dirty = true := by rw [hadded]
  have htype : resp.type.valid = true := by
    rw [hadded]
    exact hvalid
  have hfirst : resp.mtypeflags = 0x90 := by
    rw [hadded]
    exact hflags
  have hpacketId : packetIdOrZero resp.packetId = uint16Bytes v.toNat := by
    rw [hadded]
    exact hid
  rw [← hreturn] at hcodes
  rw [sendData_suback gPacketId hdirty htype hcodes (hmsglen.trans_le hshort), hfirst,
    hpacketId, hmsglen, hreturn, subackPacket]

end SendData

end Xmqtt.Service
