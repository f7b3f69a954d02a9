import Xmqtt.Message.Rewritten

/-!
# Edits after `Decode`

A CONNECT counts as changed after any setter that succeeds, so it is written
anew, and its flags decide which fields are sent.  With this all four types
that a client edits after `Decode` are followed through their setters and
`Encode`.
-/

namespace Xmqtt.Message

open Xmqtt.Go Xmqtt.Go.Outcome

/-! ## CONNECT -/

namespace ConnectMessage

/-- A decoded CONNECT after some setters: a setter that changes anything marks it as
changed. -/
structure Edited (decoded this : ConnectMessage) : Prop where
  mtypeflags : this.mtypeflags = (newHeader .connect).mtypeflags
  clientId : this.clientId ≠ [] → validClientId this.clientId = true
  state : this.dirty = true ∨ this = decoded

theorem edited_of_decode {decoded : ConnectMessage} {src : Slice} {n : ℕ}
    (hdone : newConnectMessage.decode src = .done decoded n) : decoded.Edited decoded where
  mtypeflags := by
    obtain ⟨-, -, htype, hflags⟩ := accepted_of_decode hdone
    exact first_eq_of_accepted _ (by decide) _ htype hflags
  clientId := validClientId_of_decode hdone
  state := Or.inr rfl

/-- A setter that leaves the client id alone. -/
theorem Edited.of_eq {decoded this that : ConnectMessage} (hedited : decoded.Edited this)
    (hdirty : that.dirty = true) (hflags : that.mtypeflags = this.mtypeflags)
    (hid : that.clientId = this.clientId) : decoded.Edited that :=
  ⟨hflags.trans hedited.mtypeflags, hid ▸ hedited.clientId, Or.inl hdirty⟩

theorem Edited.perform {decoded this : ConnectMessage} (hedited : decoded.Edited this)
    (call : Setter) : decoded.Edited (this.perform call) := by
  cases call with
  | version v =>
      rw [ConnectMessage.perform, setVersion]
      split
      · exact hedited
      · exact hedited.of_eq rfl rfl rfl
  | willQos v =>
      rw [ConnectMessage.perform, setWillQos]
      split
      · exact hedited
      · exact hedited.of_eq rfl rfl rfl
  | clientId v =>
      rw [ConnectMessage.perform, setClientId]
      split
      · exact hedited
      · split
        · exact hedited
        · rename_i hvalid
          exact ⟨hedited.mtypeflags, fun _ => by simpa using hvalid, Or.inl rfl⟩
  | willTopic v =>
      rw [ConnectMessage.perform, setWillTopic, updateWillFlag]
      split_ifs <;> exact hedited.of_eq rfl rfl rfl
  | willMessage v =>
      rw [ConnectMessage.perform, setWillMessage, updateWillFlag]
      split_ifs <;> exact hedited.of_eq rfl rfl rfl
  | cleanSession v | willFlag v | willRetain v | usernameFlag v | passwordFlag v
  | keepAlive v | username v | password v => exact hedited.of_eq rfl rfl rfl

/-- What a changed CONNECT needs to be read back: flags and a client id that `Decode`
accepts, and no field that its flag, or an empty user name before it, keeps from being
sent. -/
structure Sendable (edited : ConnectMessage) : Prop where
  flags : edited.checkFlags = none
  clientId : edited.clientId = [] → edited.cleanSession = true
  will : edited.willFlag = false → edited.willTopic = [] ∧ edited.willMessage = []
  username : edited.usernameFlag = false → edited.username = []
  password : edited.passwordFlag = false ∨ edited.username = [] → edited.password = []

variable {decoded edited : ConnectMessage} {dst : Bytes} {gPacketId : UInt64}
variable {state : Encoded ConnectMessage} {size : ℕ}

theorem Sendable.readable (hsendable : edited.Sendable)
    (hid : edited.clientId ≠ [] → validClientId edited.clientId = true) :
    newConnectMessage.Readable edited where
  client := hsendable.clientId
  valid := hid
  username := fun _ => by
    by_cases hname : edited.username = []
    · refine Or.inr ⟨if_neg ?_, rfl⟩
      rw [hsendable.password (Or.inr hname)]
      exact fun h => absurd h.2 (lt_irrefl _)
    · exact Or.inl (List.length_pos_iff.mpr hname)
  password := fun _ => Or.inr rfl

/-- CONNECT never reads a packet id. -/
theorem packetIdValue_of_decode {this : ConnectMessage} {src : Slice} {n : ℕ}
    (hdone : newConnectMessage.decode src = .done this n) : this.packetIdValue = 0 := by
  obtain ⟨header, hn, hheader, hthis⟩ := header_of_decode hdone
  have hid : header.packetId = [] := Header.packetId_of_decode hheader
  rw [hthis, Header.packetIdValue, hid]

theorem readBack_of_getters {edited sent result : ConnectMessage} {src : Slice} {n : ℕ}
    (hdone : newConnectMessage.decode src = .done result n)
    (hfields : result.getters.2 = edited.getters.2)
    (hkept : sent.packetIdValue = edited.packetIdValue) :
    ReadBack (.connect edited) (.connect sent) src (.connect result) where
  decode := ⟨n, congrArg (Outcome.map Message.connect) hdone⟩
  fields := hfields
  packetId := False.elim
  without := fun _ => packetIdValue_of_decode hdone
  kept := fun _ => hkept

theorem readBack_of_dirty (hdirty : edited.dirty = true) (hedited : decoded.Edited edited)
    (hsendable : edited.Sendable)
    (hencode : edited.encode dst gPacketId = .done state size) (spare : Bytes) :
    ∃ result, Message.ReadBack (.connect edited) (.connect state.this)
      ⟨state.dst.take size, spare⟩ result := by
  obtain ⟨-, verstr, hversion, hemits⟩ := (encode_eq_done_iff hdirty).mp hencode
  have hfits := hemits.writable
  have hmsglen : edited.msglen ≤ 268435455 := hfits.msglen_le
  have hint : int32 edited.msglen = edited.msglen := int32_of_lt (by omega)
  obtain ⟨result, hdone, hsameVersion, hflags, hkeepAlive, hclientId, hwillTopic, hwillMessage,
      husername, hpassword⟩ :=
    decode_wire (edited.sized edited.msglen) hedited.mtypeflags
      (by rw [← msglen_eq hversion]; exact hint) hemits.remlen.2 hversion hsendable.flags hfits
      (hsendable.readable hedited.clientId) spare
  rw [hemits.take_dst (msglen_eq hversion).symm, hemits.state_eq]
  refine ⟨.connect result, readBack_of_getters hdone ?_ rfl⟩
  have hbits : ∀ shift, result.connectFlag shift = edited.connectFlag shift := fun shift => by
    rw [connectFlag, connectFlag, hflags]
  have hwillTopic' : result.willTopic = edited.willTopic := by
    rw [hwillTopic]
    split_ifs with hflag
    · rfl
    · exact (hsendable.will (by simpa using hflag)).1.symm
  have hwillMessage' : result.willMessage = edited.willMessage := by
    rw [hwillMessage]
    split_ifs with hflag
    · rfl
    · exact (hsendable.will (by simpa using hflag)).2.symm
  have husername' : result.username = edited.username := by
    rw [husername]
    split_ifs with hflag
    · rfl
    · exact (hsendable.username (by simpa using hflag)).symm
  have hpassword' : result.password = edited.password := by
    rw [hpassword]
    split_ifs with hflag
    · rfl
    · exact (hsendable.password (Or.inl (by simpa using hflag))).symm
  simp only [getters, cleanSession, willFlag, willQos, willRetain, usernameFlag, passwordFlag,
    hbits, hflags, hsameVersion, hkeepAlive, hclientId, hwillTopic', hwillMessage', husername',
    hpassword']

/-- An edited CONNECT that `Encode` accepts is read back. -/
theorem readBack {frame : Frame} {n : ℕ} {calls : List Setter}
    (hdone : newConnectMessage.decode (Slice.full frame.bytes) = .done decoded n)
    (hedited : edited = calls.foldl perform decoded)
    (hsendable : edited.dirty = true → edited.Sendable)
    (hencode : edited.encode dst gPacketId = .done state size) (spare : Bytes) :
    ∃ result, Message.ReadBack (.connect edited) (.connect state.this)
      ⟨state.dst.take size, spare⟩ result := by
  have hkept : decoded.Edited edited := hedited ▸
    List.foldlRecOn calls perform (edited_of_decode hdone) fun _ hthis call _ =>
      hthis.perform call
  obtain ⟨hclean, hdbuf, -⟩ := accepted_of_decode hdone
  rcases hkept.state with hdirty | hsame
  · exact readBack_of_dirty hdirty hkept (hsendable hdirty) hencode spare
  · rw [hsame] at hencode ⊢
    rw [encode, if_pos (by rw [hclean]; rfl)] at hencode
    obtain ⟨hthis, hbytes⟩ := encodeClean_eq_done hencode
    have hgrows : (Slice.full frame.bytes).Grows ⟨frame.bytes, spare⟩ := ⟨rfl, List.nil_prefix⟩
    obtain ⟨result, hresult, hgetters⟩ :=
      (decode_follows rfl rfl rfl rfl rfl rfl hgrows).exists_done hdone
    rw [hbytes, hthis, hdbuf]
    exact ⟨.connect result, readBack_of_getters hresult
      (congrArg Prod.snd hgetters).symm rfl⟩

end ConnectMessage

/-! ## The four types -/

/-- A setter of the type of a message, as opposed to the methods that all types have. -/
def Method.IsSetter : Method → Prop
  | .connect _ | .publish _ | .subscribe _ | .unsubscribe _ => True
  | _ => False

/-- Calls of setters come down to those of the type of the message. -/
theorem foldl_perform_eq {μ σ : Type} (wrap : μ → Message) (step : μ → σ → μ)
    (hstep : ∀ (this : μ) (call : Method), call.IsSetter → (wrap this).perform call = wrap this ∨
      ∃ own, (wrap this).perform call = wrap (step this own))
    {calls : List Method} (hcalls : ∀ call ∈ calls, call.IsSetter) (this : μ) :
    ∃ own : List σ, calls.foldl perform (wrap this) = wrap (own.foldl step this) := by
  induction calls generalizing this with
  | nil => exact ⟨[], rfl⟩
  | cons call calls ih =>
      have hrest := ih fun other hother => hcalls other (List.mem_cons_of_mem _ hother)
      rcases hstep this call (hcalls call (List.mem_cons_self ..)) with hsame | ⟨own, hown⟩
      · obtain ⟨rest, heq⟩ := hrest this
        exact ⟨rest, by rw [List.foldl_cons, hsame, heq]⟩
      · obtain ⟨rest, heq⟩ := hrest (step this own)
        exact ⟨own :: rest, by rw [List.foldl_cons, hown, heq, List.foldl_cons]⟩

/-- What a message that was `decoded` and then `edited` needs to be read back. -/
def Sendable : Message → Message → Prop
  | .publish decoded, .publish edited => decoded.Sendable edited
  | .subscribe decoded, .subscribe edited => decoded.Sendable edited
  | _, .unsubscribe edited => edited.Sendable
  | _, .connect edited => edited.dirty = true → edited.Sendable
  | _, _ => True

/-- What is decoded, edited and encoded as a message is so as a value of its own type. -/
theorem exists_own_of_edits {μ σ : Type} {wrap : μ → Message} {step : μ → σ → μ}
    {received : Outcome Err μ} {sent : μ → Outcome Err (Encoded μ)}
    (hstep : ∀ (this : μ) (call : Method), call.IsSetter → (wrap this).perform call = wrap this ∨
      ∃ own, (wrap this).perform call = wrap (step this own))
    {dst : Bytes} {gPacketId : UInt64}
    (hsent : ∀ this, (wrap this).encode dst gPacketId = lift wrap (sent this))
    {decoded edited : Message} {n size : ℕ} (hdecode : received.map wrap = .done decoded n)
    {calls : List Method} (hcalls : ∀ call ∈ calls, call.IsSetter)
    (hedited : edited = calls.foldl perform decoded) {state : Encoded Message}
    (hencode : edited.encode dst gPacketId = .done state size) :
    ∃ (this : μ) (own : List σ) (inner : Encoded μ),
      received = .done this n ∧ decoded = wrap this ∧ edited = wrap (own.foldl step this) ∧
      sent (own.foldl step this) = .done inner size ∧
      state = ⟨wrap inner.this, inner.dst, inner.gPacketId⟩ := by
  obtain ⟨this, hdone, rfl⟩ := Outcome.map_eq_done_iff.mp hdecode
  obtain ⟨own, hown⟩ := foldl_perform_eq wrap step hstep hcalls this
  rw [hown] at hedited
  subst hedited
  rw [hsent] at hencode
  obtain ⟨inner, hinner, hstate⟩ := lift_eq_done_iff.mp hencode
  exact ⟨this, own, inner, hdone, rfl, rfl, hinner, hstate⟩

/-- A frame that is decoded, edited by the setters of its type and encoded again is read
back with all that the getters show after the setters. -/
theorem edits_read_back (frame : Frame) {mtype : MessageType}
    (hmtype : mtype ∈ [MessageType.publish, .subscribe, .unsubscribe, .connect])
    {new decoded edited : Message} {n : ℕ} (hnew : mtype.new = .ok new)
    (hdecode : new.decode (Slice.full frame.bytes) = .done decoded n)
    {calls : List Method} (hcalls : ∀ call ∈ calls, call.IsSetter)
    (hedited : edited = calls.foldl perform decoded) (hsendable : decoded.Sendable edited)
    {dst : Bytes} {gPacketId : UInt64} {state : Encoded Message} {size : ℕ}
    (hencode : edited.encode dst gPacketId = .done state size) (spare : Bytes) :
    ∃ result, edited.ReadBack state.this ⟨state.dst.take size, spare⟩ result := by
  simp only [List.mem_cons, List.not_mem_nil, or_false] at hmtype
  rcases hmtype with rfl | rfl | rfl | rfl
  · cases hnew
    obtain ⟨this, own, inner, hdone, rfl, rfl, hinner, rfl⟩ := exists_own_of_edits
      (fun _ call hcall => by
        cases call with
        | publish call => exact Or.inr ⟨call, rfl⟩
        | subscribe call | unsubscribe call | connect call => exact Or.inl rfl
        | _ => exact hcall.elim) (fun _ => rfl) hdecode hcalls hedited hencode
    exact PublishMessage.readBack hdone rfl hsendable hinner spare
  · cases hnew
    obtain ⟨this, own, inner, hdone, rfl, rfl, hinner, rfl⟩ := exists_own_of_edits
      (fun _ call hcall => by
        cases call with
        | subscribe call => exact Or.inr ⟨call, rfl⟩
        | publish call | unsubscribe call | connect call => exact Or.inl rfl
        | _ => exact hcall.elim) (fun _ => rfl) hdecode hcalls hedited hencode
    exact SubscribeMessage.readBack hdone rfl hsendable hinner spare
  · cases hnew
    obtain ⟨this, own, inner, hdone, rfl, rfl, hinner, rfl⟩ := exists_own_of_edits
      (fun _ call hcall => by
        cases call with
        | unsubscribe call => exact Or.inr ⟨call, rfl⟩
        | publish call | subscribe call | connect call => exact Or.inl rfl
        | _ => exact hcall.elim) (fun _ => rfl) hdecode hcalls hedited hencode
    exact UnsubscribeMessage.readBack hdone rfl hsendable hinner spare
  · cases hnew
    obtain ⟨this, own, inner, hdone, rfl, rfl, hinner, rfl⟩ := exists_own_of_edits
      (fun _ call hcall => by
        cases call with
        | connect call => exact Or.inr ⟨call, rfl⟩
        | publish call | subscribe call | unsubscribe call => exact Or.inl rfl
        | _ => exact hcall.elim) (fun _ => rfl) hdecode hcalls hedited hencode
    exact ConnectMessage.readBack hdone rfl hsendable hinner spare

/-- A SUBSCRIBE that gets another packet id and a second topic. -/
theorem edits_read_back_subscribe :
    ∃ decoded edited state size result,
      Message.decode (Slice.full (probe .subscribe).bytes) (.subscribe newSubscribeMessage) =
        .done decoded 8 ∧
      edited = (decoded.perform (.subscribe (.packetId 9))).perform
        (.subscribe (.addTopic [0x62] 1)) ∧
      edited.getters.2 = .subscribe [[0x61], [0x62]] [0, 1] ∧ edited.packetId = 9 ∧
      edited.encode (List.replicate 12 0) 0 = .done state size ∧
      edited.ReadBack state.this ⟨state.dst.take size, []⟩ result := by
  have hdecode : Message.decode (Slice.full (probe .subscribe).bytes)
      (.subscribe newSubscribeMessage) =
      .done (.subscribe ⟨⟨6, 0x82, [0, 7], ⟨(probe .subscribe).bytes, []⟩, false, true, some 2⟩,
        [[0x61]], [0]⟩) 8 := by
    decide +kernel
  generalize hdecoded : Message.subscribe ⟨⟨6, 0x82, [0, 7], ⟨(probe .subscribe).bytes, []⟩,
    false, true, some 2⟩, [[0x61]], [0]⟩ = decoded at hdecode
  have hencode : (((decoded.perform (.subscribe (.packetId 9))).perform
      (.subscribe (.addTopic [0x62] 1))).encode (List.replicate 12 0) 0).result
        (fun _ => ()) = some () := by
    rw [← hdecoded]
    decide +kernel
  obtain ⟨state, size, hencode, -⟩ := result_eq_some_iff.mp hencode
  have hsetters : ∀ call ∈ [Method.subscribe (.packetId 9), .subscribe (.addTopic [0x62] 1)],
      call.IsSetter := by simp [Method.IsSetter]
  obtain ⟨result, hresult⟩ := edits_read_back (probe .subscribe)
    (show MessageType.subscribe ∈ _ by decide) rfl hdecode hsetters rfl (by
      rw [← hdecoded]
      exact ⟨fun _ => by decide, fun _ => by decide +kernel, fun hclean => by cases hclean⟩)
    hencode []
  refine ⟨decoded, _, state, size, result, hdecode, rfl, ?_, ?_, hencode, hresult⟩
  · rw [← hdecoded]
    decide +kernel
  · rw [← hdecoded]
    decide +kernel

/-- A Will topic stays in a decoded CONNECT when its Will flag is cleared, but it is not
sent. -/
theorem cleared_will_is_not_read_back :
    ((Message.decode (Slice.full [0x10, 18, 0, 4, 0x4d, 0x51, 0x54, 0x54, 4, 4, 0, 0, 0, 1, 0x73,
        0, 1, 0x77, 0, 0]) (.connect newConnectMessage)).result fun decoded =>
          ((decoded.perform (.connect (.willFlag false))).getters.2,
            ((decoded.perform (.connect (.willFlag false))).encode
              (List.replicate 15 0) 0).result Encoded.dst)) =
      some (.connect 4 false false 0 false false false 0 [0x73] [0x77] [] [] [],
        some [0x10, 13, 0, 4, 0x4d, 0x51, 0x54, 0x54, 4, 0, 0, 0, 0, 1, 0x73]) ∧
    (Message.decode (Slice.full [0x10, 13, 0, 4, 0x4d, 0x51, 0x54, 0x54, 4, 0, 0, 0, 0, 1, 0x73])
        (.connect newConnectMessage)).result (fun decoded => decoded.getters.2) =
      some (.connect 4 false false 0 false false false 0 [0x73] [] [] [] []) := by
  decide +kernel

end Xmqtt.Message
