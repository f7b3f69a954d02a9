import Xmqtt.Sessions.Session

/-!
# The copy of a CONNECT

The server sets the keep-alive time of the CONNECT that it has received, and
`Session.Init` encodes it and decodes the bytes into the copy that the session
keeps.  Decoding accepts a user name that is there but empty; encoding leaves it
out, and the password moves into its place.
-/

namespace Xmqtt.Sessions

open Xmqtt.Go Xmqtt.Message

/-- The copy says the same as the CONNECT, the keep-alive time apart. -/
structure SaysSame (copy msg : ConnectMessage) : Prop where
  version : copy.version = msg.version
  connectFlags : copy.connectFlags = msg.connectFlags
  clientId : copy.clientId = msg.clientId
  willTopic : copy.willTopic = msg.willTopic
  willMessage : copy.willMessage = msg.willMessage
  username : copy.username = msg.username
  password : copy.password = msg.password

/-- After `SetKeepAlive(k)`, `Init` succeeds and its copy says the same with keep-alive `k`. -/
def Survives (msg : ConnectMessage) (k : UInt16) : Prop :=
  ∃ session copy, Session.init (msg.setKeepAlive k) = some session ∧
    session.cmsg = some copy ∧ SaysSame copy msg ∧ copy.keepAlive = k

section Copy

variable {msg : ConnectMessage} {src : Slice} {n : ℕ}

theorem mtypeflags_of_accepted : ∀ first : Byte,
    MessageType.ofNibble (first >>> 4) = .connect → flagsAccepted first = true →
      first = (newHeader .connect).mtypeflags := by
  decide +kernel

/-- The copy is made of the fields of any message with the same wire form that can be
decoded. -/
theorem init_of_body (hdone : newConnectMessage.decode src = .done msg n) (k : UInt16)
    {source : ConnectMessage}
    (hbody : (msg.setKeepAlive k).body msg.protoName = source.body msg.protoName)
    (hversion : source.version = msg.version) (hflags : source.checkFlags = none)
    (hfits : source.Fits) (hreadable : newConnectMessage.Readable source) :
    ∃ session copy, Session.init (msg.setKeepAlive k) = some session ∧
      session.cmsg = some copy ∧ copy.version = source.version ∧
      copy.connectFlags = source.connectFlags ∧ copy.keepAlive = source.keepAlive ∧
      copy.clientId = source.clientId ∧
      copy.willTopic = (if source.willFlag then source.willTopic else []) ∧
      copy.willMessage = (if source.willFlag then source.willMessage else []) ∧
      copy.username = (if source.usernameFlag then source.username else []) ∧
      copy.password = (if source.passwordFlag then source.password else []) := by
  have hdecoded := ConnectMessage.decoded_of_decode hdone
  obtain ⟨-, -, htype, haccepted⟩ := ConnectMessage.accepted_of_decode hdone
  have hmsgFits : (msg.setKeepAlive k).Fits := hdecoded.short.fits
  obtain ⟨encoded, copy, hencode, hdecode, hfields⟩ :=
    ConnectMessage.decode_encode_of_body (show (msg.setKeepAlive k).dirty = true from rfl)
      (mtypeflags_of_accepted _ htype haccepted) hdecoded.version hmsgFits hbody
      (hversion.symm ▸ hdecoded.version) hflags hfits hreadable
      (List.length_replicate (a := 0)) 0 []
  refine ⟨⟨msg.clientId, some copy⟩, copy, ?_, rfl, hfields⟩
  rw [Session.init, hencode]
  simp only [Slice.full, hdecode]
  rfl

/-- A password comes with both flags. -/
theorem flags_of_password (hdecoded : msg.Decoded) (hpassword : msg.password ≠ []) :
    msg.usernameFlag = true ∧ msg.passwordFlag = true := by
  have hset : msg.passwordFlag = true := by
    rw [← Bool.not_eq_false]
    exact mt hdecoded.password hpassword
  refine ⟨?_, hset⟩
  have hflags := hdecoded.flags
  rw [ConnectMessage.checkFlags] at hflags
  split_ifs at hflags with _ _ _ hboth
  rw [← Bool.not_eq_false]
  exact fun hclear => hboth ⟨by rw [hclear]; rfl, hset⟩

/-- A CONNECT whose password does not come without a user name is copied as it is. -/
theorem survives_of_username (hdone : newConnectMessage.decode src = .done msg n) (k : UInt16)
    (hpresent : msg.username = [] → msg.password = []) : Survives msg k := by
  have hdecoded := ConnectMessage.decoded_of_decode hdone
  have hreadable : newConnectMessage.Readable (msg.setKeepAlive k) := by
    refine ⟨hdecoded.client, hdecoded.valid, fun _ => ?_, fun _ => Or.inr rfl⟩
    by_cases husername : msg.username = []
    · refine Or.inr ⟨if_neg fun hand => ?_, rfl⟩
      exact List.length_pos_iff.mp hand.2 (hpresent husername)
    · exact Or.inl (List.length_pos_iff.mpr husername)
  obtain ⟨session, copy, hinit, hcopy, hversion, hflags, hkeepAlive, hclientId, hwillTopic,
    hwillMessage, husername, hpassword⟩ :=
    init_of_body hdone k rfl rfl hdecoded.flags hdecoded.short.fits hreadable
  refine ⟨session, copy, hinit, hcopy, ⟨hversion, hflags, hclientId, hwillTopic.trans ?_,
    hwillMessage.trans ?_, husername.trans ?_, hpassword.trans ?_⟩, hkeepAlive⟩
  · split_ifs with hset
    · rfl
    · exact (hdecoded.will (Bool.eq_false_of_not_eq_true hset)).1.symm
  · split_ifs with hset
    · rfl
    · exact (hdecoded.will (Bool.eq_false_of_not_eq_true hset)).2.symm
  · split_ifs with hset
    · rfl
    · exact (hdecoded.username (Bool.eq_false_of_not_eq_true hset)).symm
  · split_ifs with hset
    · rfl
    · exact (hdecoded.password (Bool.eq_false_of_not_eq_true hset)).symm

/-- A password behind an empty user name is copied as the user name. -/
theorem username_of_init (hdone : newConnectMessage.decode src = .done msg n) (k : UInt16)
    (husername : msg.username = []) (hpassword : msg.password ≠ []) :
    ∃ session copy, Session.init (msg.setKeepAlive k) = some session ∧
      session.cmsg = some copy ∧ copy.username = msg.password ∧ copy.password = [] := by
  have hdecoded := ConnectMessage.decoded_of_decode hdone
  obtain ⟨hname, hword⟩ := flags_of_password hdecoded hpassword
  have hpos : 0 < msg.password.length := List.length_pos_iff.mpr hpassword
  let source : ConnectMessage :=
    { msg.setKeepAlive k with username := msg.password, password := [] }
  have hoptional : ConnectMessage.optionalBytes msg.usernameFlag msg.username ++
      ConnectMessage.optionalBytes msg.passwordFlag msg.password =
        ConnectMessage.optionalBytes msg.usernameFlag msg.password ++
          ConnectMessage.optionalBytes msg.passwordFlag [] := by
    simp [ConnectMessage.optionalBytes, husername, hname, hword, hpos]
  have hbody : (msg.setKeepAlive k).body msg.protoName = source.body msg.protoName := by
    rw [ConnectMessage.body, ConnectMessage.body]
    exact congrArg (fun rest => lpBytes msg.protoName ++ ([msg.version] ++
      ([msg.connectFlags] ++ (uint16Bytes k.toNat ++ (lpBytes msg.clientId ++
        (msg.willBytes ++ rest)))))) hoptional
  have hshort := hdecoded.short
  have hfits : source.Fits := ⟨hshort.clientId,
    fun _ => ⟨hshort.willTopic, hshort.willMessage⟩, fun _ => hshort.password,
    fun _ => Nat.zero_le _⟩
  have hreadable : newConnectMessage.Readable source :=
    ⟨hdecoded.client, hdecoded.valid, fun _ => Or.inl hpos, fun _ => Or.inr rfl⟩
  obtain ⟨session, copy, hinit, hcopy, -, -, -, -, -, -, hcopyName, hcopyWord⟩ :=
    init_of_body hdone k hbody rfl hdecoded.flags hfits hreadable
  exact ⟨session, copy, hinit, hcopy, hcopyName.trans (if_pos hname),
    hcopyWord.trans (if_pos hword)⟩

theorem not_survives (hdone : newConnectMessage.decode src = .done msg n) (k : UInt16)
    (husername : msg.username = []) (hpassword : msg.password ≠ []) : ¬ Survives msg k := by
  rintro ⟨session, copy, hinit, hcopy, hsame, -⟩
  obtain ⟨session', copy', hinit', hcopy', hname, -⟩ :=
    username_of_init hdone k husername hpassword
  obtain rfl := Option.some.inj (hinit.symm.trans hinit')
  obtain rfl := Option.some.inj (hcopy.symm.trans hcopy')
  exact hpassword (hname.symm.trans (hsame.username.trans husername))

/-- Every CONNECT that `Decode` accepts survives in the copy of a session, whatever the
keep-alive time is set to, if and only if it has no password or a user name that is not
empty. -/
theorem survives_iff (hdone : newConnectMessage.decode src = .done msg n) (k : UInt16) :
    Survives msg k ↔ (msg.username = [] → msg.password = []) := by
  constructor
  · intro hsurvives husername
    by_contra hpassword
    exact not_survives hdone k husername hpassword hsurvives
  · exact survives_of_username hdone k

end Copy

/-- The frame of a CONNECT of version 4 from client "s" with a user name and a password. -/
def signedConnect (username password : Bytes) : Bytes :=
  [0x10, UInt8.ofNat (17 + username.length + password.length), 0, 4, 0x4d, 0x51, 0x54, 0x54, 4,
    0xc2, 0, 10, 0, 1, 0x73] ++ lpBytes username ++ lpBytes password

/-- With the user name "u" and the password "p". -/
theorem survives_iff_signed :
    ∃ msg, newConnectMessage.decode (.full (signedConnect [0x75] [0x70])) = .done msg 21 ∧
      Survives msg 30 := by
  have hfields : (newConnectMessage.decode (.full (signedConnect [0x75] [0x70]))).map
      (fun msg => (msg.username, msg.password)) = .done ([0x75], [0x70]) 21 := by decide +kernel
  obtain ⟨msg, hdone, hsigned⟩ := Outcome.map_eq_done_iff.mp hfields
  refine ⟨msg, hdone, (survives_iff hdone 30).mpr fun husername => ?_⟩
  cases (Prod.mk.inj hsigned).1.symm.trans husername

/-- With an empty user name the password "p" becomes the user name of the copy. -/
theorem password_becomes_username :
    ∃ msg, newConnectMessage.decode (.full (signedConnect [] [0x70])) = .done msg 20 ∧
      msg.username = [] ∧ msg.password = [0x70] ∧ (∀ k, ¬ Survives msg k) ∧
      (Session.init (msg.setKeepAlive 30)).bind Session.cmsg ≠ none ∧
      ∀ session copy, Session.init (msg.setKeepAlive 30) = some session →
        session.cmsg = some copy → copy.username = [0x70] ∧ copy.password = [] := by
  have hfields : (newConnectMessage.decode (.full (signedConnect [] [0x70]))).map
      (fun msg => (msg.username, msg.password)) = .done ([], [0x70]) 20 := by decide +kernel
  obtain ⟨msg, hdone, hsigned⟩ := Outcome.map_eq_done_iff.mp hfields
  obtain ⟨husername, hpassword⟩ := Prod.mk.inj hsigned
  have hne : msg.password ≠ [] := by simp [hpassword]
  obtain ⟨session, copy, hinit, hcopy, hname, hword⟩ := username_of_init hdone 30 husername hne
  refine ⟨msg, hdone, husername, hpassword, fun k => not_survives hdone k husername hne, ?_, ?_⟩
  · simp [hinit, hcopy]
  · intro session' copy' hinit' hcopy'
    obtain rfl := Option.some.inj (hinit.symm.trans hinit')
    obtain rfl := Option.some.inj (hcopy.symm.trans hcopy')
    exact ⟨hname.trans hpassword, hword⟩

end Xmqtt.Sessions
