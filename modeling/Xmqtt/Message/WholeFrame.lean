import Xmqtt.Message.DecodeSafety

/-!
# Decoders that stop away from the end of a frame

A decoder returns how many bytes it has read, and its caller does not look at
that.  PUBLISH, SUBSCRIBE and SUBACK read up to the remaining length.  The other
decoders stop behind the last field they know, which may be in front of the end
of the frame, and a slice with spare capacity lets some of them go past it.
-/

namespace Xmqtt.Message

open Xmqtt.Go

/-- The call returns without an error, but with a count other than `size`. -/
def Strays {μ : Type} (size : ℕ) (outcome : Outcome Err μ) : Prop :=
  ∃ state n, outcome = .done state n ∧ n ≠ size

section Strays

variable {μ ν : Type} {size n : ℕ} {outcome : Outcome Err μ}

@[simp]
theorem strays_done_iff {state : μ} : Strays size (.done state n) ↔ n ≠ size := by
  simp [Strays]

@[simp]
theorem not_strays_fail {state : μ} {err : Err} : ¬ Strays size (.fail state n err) := by
  simp [Strays]

@[simp]
theorem not_strays_panic : ¬ Strays size (.panic : Outcome Err μ) := by
  simp [Strays]

theorem strays_map_iff {f : μ → ν} : Strays size (outcome.map f) ↔ Strays size outcome := by
  cases outcome <;> simp

theorem strays_reject_iff {cond : Bool} {err : Err} {state : μ}
    {next : μ → ℕ → Outcome Err μ} :
    Strays size ((Outcome.reject cond err state n).andThen next) ↔
      cond = false ∧ Strays size (next state n) := by
  cases cond <;> simp [Outcome.reject]

theorem strays_failOn_iff {check : Option Err} {state : μ} {next : μ → ℕ → Outcome Err μ} :
    Strays size ((Outcome.failOn check state n).andThen next) ↔
      check = none ∧ Strays size (next state n) := by
  cases check <;> simp [Outcome.failOn]

/-- A last step that keeps the count changes nothing. -/
theorem strays_andThen_done {f : μ → μ} :
    Strays size (outcome.andThen fun state n => .done (f state) n) ↔ Strays size outcome := by
  cases outcome <;> simp

end Strays

/-! ## Reading at a cursor -/

/-- Where a decoder has got to: in front of the rest of the buffer, or behind its
end. -/
def At (src : Slice) (total : ℕ) : Option Bytes → Prop
  | some rest => src.tail total = some ⟨rest, src.spare⟩
  | none => src.bytes.length < total

/-- A length-prefixed field is read.  One that overruns ends in the spare bytes. -/
def FieldRead (spare : Bytes) (behind : Bytes → Option Bytes → Prop) : Option Bytes → Prop
  | none => False
  | some rest =>
      (∃ field after, lpSplit rest = some (field, after) ∧ behind field (some after)) ∨
        LPOverrun rest ∧ ∃ field more, lpSplit (rest ++ spare) = some (field, more) ∧
          behind field none

/-- A byte is read. -/
def ByteRead (behind : Byte → Option Bytes → Prop) : Option Bytes → Prop
  | some (byte :: after) => behind byte (some after)
  | _ => False

theorem readLPBytes_done_iff {rest spare field : Bytes} {n : ℕ} :
    readLPBytes ⟨rest, spare⟩ = .done field n ↔
      n = (lpBytes field).length ∧
        ((∃ after, lpSplit rest = some (field, after)) ∨
          LPOverrun rest ∧ ∃ more, lpSplit (rest ++ spare) = some (field, more)) := by
  match rest with
  | [] | [_] => simp [readLPBytes, lpSplit, LPOverrun]
  | high :: low :: rest =>
      rw [readLPBytes_cons]
      simp only [lpSplit, LPOverrun, List.cons_append, length_lpBytes]
      generalize bigEndianUint16 high low = count
      by_cases hinside : count ≤ rest.length
      · rw [if_neg (by omega), if_neg (by omega), if_pos hinside]
        simp only [List.take_append_of_le_length hinside, Outcome.done.injEq,
          Option.some.injEq, Prod.mk.injEq, not_lt.mpr hinside, false_and, or_false]
        have hlength := List.length_take_of_le hinside
        constructor
        · rintro ⟨rfl, rfl⟩
          exact ⟨by rw [hlength], _, rfl, rfl⟩
        · rintro ⟨rfl, after, rfl, -⟩
          exact ⟨rfl, by rw [hlength]⟩
      · by_cases hacross : count ≤ rest.length + 2 ∧ count ≤ rest.length + spare.length
        · rw [if_neg (by omega), if_neg (by omega), if_neg hinside,
            if_pos (by simpa using hacross.2)]
          simp only [Outcome.done.injEq, Option.some.injEq, Prod.mk.injEq, reduceCtorEq,
            exists_false, false_or, not_le.mp hinside, hacross.1, true_and]
          have hlength : ((rest ++ spare).take count).length = count :=
            List.length_take_of_le (by simpa using hacross.2)
          constructor
          · rintro ⟨rfl, rfl⟩
            exact ⟨by rw [hlength], _, rfl, rfl⟩
          · rintro ⟨rfl, after, rfl, -⟩
            exact ⟨rfl, by rw [hlength]⟩
        · refine iff_of_false ?_ ?_
          · split_ifs
            · simp
            · simp
            · omega
          · rintro ⟨-, ⟨after, hafter⟩ | ⟨hover, more, hmore⟩⟩
            · rw [if_neg hinside] at hafter
              cases hafter
            · rw [if_neg (by rw [List.length_append]; omega)] at hmore
              cases hmore

theorem length_lt_of_overrun {rest spare field more : Bytes} (hover : LPOverrun rest)
    (hsplit : lpSplit (rest ++ spare) = some (field, more)) :
    rest.length < (lpBytes field).length := by
  match rest with
  | [] | [_] => exact hover.elim
  | high :: low :: rest =>
      simp only [LPOverrun] at hover
      simp only [List.cons_append, lpSplit] at hsplit
      split at hsplit <;> rename_i hcount
      · simp only [Option.some.injEq, Prod.mk.injEq] at hsplit
        rw [length_lpBytes, ← hsplit.1, List.length_take_of_le hcount, List.length_cons,
          List.length_cons]
        omega
      · cases hsplit

theorem At.tail_eq_none {src : Slice} {total : ℕ} (hat : At src total none) :
    src.tail total = none := by
  rw [Slice.tail, if_neg (not_le.mpr hat)]

theorem At.count_ne_iff {src : Slice} {total : ℕ} {cursor : Option Bytes}
    (hat : At src total cursor) : total ≠ src.bytes.length ↔ cursor ≠ some [] := by
  cases cursor with
  | none => exact iff_of_true hat.ne' nofun
  | some rest =>
      have hlength := Slice.length_of_tail hat
      refine not_congr ⟨fun hend => ?_, ?_⟩
      · rw [List.eq_nil_of_length_eq_zero (show rest.length = 0 by omega)]
      · rintro ⟨⟩
        simpa using hlength

section Steps

variable {μ : Type} {src : Slice} {total size : ℕ} {cursor : Option Bytes}
variable {next : μ → ℕ → Outcome Err μ} {this : μ}

theorem strays_readLPThen_iff (hat : At src total cursor) {failed : Bytes → μ}
    {step : Bytes → ℕ → Outcome Err μ} {behind : Bytes → Option Bytes → Prop}
    (hstep : ∀ field after, At src (total + (lpBytes field).length) after →
      (Strays size (step field (total + (lpBytes field).length)) ↔ behind field after)) :
    Strays size (readLPThen src failed total step) ↔ FieldRead src.spare behind cursor := by
  rw [readLPThen]
  cases cursor with
  | none =>
      rw [hat.tail_eq_none]
      exact iff_of_false not_strays_panic id
  | some rest =>
      have htail : src.tail total = some ⟨rest, src.spare⟩ := hat
      have hinside {field after : Bytes} (hsplit : lpSplit rest = some (field, after)) :
          At src (total + (lpBytes field).length) (some after) := by
        obtain ⟨rfl, -⟩ := lpSplit_eq_some hsplit
        exact Slice.tail_add htail
      have hacross {field more : Bytes} (hover : LPOverrun rest)
          (hsplit : lpSplit (rest ++ src.spare) = some (field, more)) :
          At src (total + (lpBytes field).length) none := by
        have hlength := Slice.length_of_tail htail
        have := length_lt_of_overrun hover hsplit
        exact show src.bytes.length < _ by omega
      rw [htail]
      calc
        Strays size _ ↔ ∃ field n, readLPBytes ⟨rest, src.spare⟩ = .done field n ∧
            Strays size (step field (total + n)) := by
          cases hread : readLPBytes ⟨rest, src.spare⟩ <;> simp [hread]
        _ ↔ FieldRead src.spare behind (some rest) := by
          simp only [readLPBytes_done_iff]
          constructor
          · rintro ⟨field, _, ⟨rfl, ⟨after, hsplit⟩ | ⟨hover, more, hsplit⟩⟩, hstrays⟩
            · exact Or.inl ⟨field, after, hsplit, (hstep _ _ (hinside hsplit)).mp hstrays⟩
            · exact Or.inr ⟨hover, field, more, hsplit,
                (hstep _ _ (hacross hover hsplit)).mp hstrays⟩
          · rintro (⟨field, after, hsplit, hbehind⟩ | ⟨hover, field, more, hsplit, hbehind⟩)
            · exact ⟨field, _, ⟨rfl, Or.inl ⟨after, hsplit⟩⟩,
                (hstep _ _ (hinside hsplit)).mpr hbehind⟩
            · exact ⟨field, _, ⟨rfl, Or.inr ⟨hover, more, hsplit⟩⟩,
                (hstep _ _ (hacross hover hsplit)).mpr hbehind⟩

theorem strays_readLPField_iff (hat : At src total cursor) {set : μ → Bytes → μ}
    {behind : Bytes → Option Bytes → Prop}
    (hnext : ∀ field after, At src (total + (lpBytes field).length) after →
      (Strays size (next (set this field) (total + (lpBytes field).length)) ↔
        behind field after)) :
    Strays size ((readLPField src set this total).andThen next) ↔
      FieldRead src.spare behind cursor := by
  rw [readLPField, readLPThen_andThen]
  exact strays_readLPThen_iff hat hnext

theorem strays_readByteField_iff (hat : At src total cursor) {set : μ → Byte → μ}
    (behind : Byte → Option Bytes → Prop)
    (hnext : ∀ byte after, At src (total + 1) (some after) →
      (Strays size (next (set this byte) (total + 1)) ↔ behind byte (some after))) :
    Strays size ((readByteField src set this total).andThen next) ↔
      ByteRead behind cursor := by
  rw [readByteField]
  cases cursor with
  | none =>
      have hend : src.bytes[total]? = none := List.getElem?_eq_none (Nat.le_of_lt hat)
      simp [hend, ByteRead]
  | some rest =>
      rw [Slice.getElem?_of_tail hat]
      cases rest with
      | nil => simp [ByteRead]
      | cons byte after => exact hnext byte after (Slice.tail_succ hat)

theorem not_strays_readLPThen (hat : At src total cursor) {failed : Bytes → μ}
    {step : Bytes → ℕ → Outcome Err μ}
    (hstep : ∀ field after, At src (total + (lpBytes field).length) after →
      ¬ Strays size (step field (total + (lpBytes field).length))) :
    ¬ Strays size (readLPThen src failed total step) := by
  rw [strays_readLPThen_iff hat fun field after hafter =>
    iff_false_intro (hstep field after hafter)]
  cases cursor with
  | none => exact id
  | some rest => simp [FieldRead]

theorem not_strays_readByteField (hat : At src total cursor) {set : μ → Byte → μ}
    (hnext : ∀ byte after, At src (total + 1) (some after) →
      ¬ Strays size (next (set this byte) (total + 1))) :
    ¬ Strays size ((readByteField src set this total).andThen next) := by
  rw [strays_readByteField_iff hat (fun _ _ => False) fun byte after hafter =>
    iff_false_intro (hnext byte after hafter)]
  match cursor with
  | none | some [] | some (_ :: _) => exact id

/-- A packet id that ends in the spare bytes is read as well; `hshort` says that
nothing comes of it. -/
theorem strays_readPacketId_iff {header : Header} {rebuild : Header → μ} {rest : Bytes}
    (hat : At src total (some rest)) {behind : Bytes → Prop}
    (hnext : ∀ high low after, At src (total + 2) (some after) →
      (Strays size (next (rebuild { header with
        packetId := [high, low], packetIdAt := some total }) (total + 2)) ↔ behind after))
    (hshort : rest.length < 2 → ∀ id, ¬ Strays size
      (next (rebuild { header with packetId := id, packetIdAt := some total }) (total + 2))) :
    Strays size (((header.readPacketId src total).map rebuild).andThen next) ↔
      ∃ high low after, rest = high :: low :: after ∧ behind after := by
  have hend (hlength : rest.length < 2) :
      ¬ Strays size (((header.readPacketId src total).map rebuild).andThen next) := by
    rw [Header.readPacketId]
    split
    · exact not_strays_panic
    · exact hshort hlength _
  rcases rest with _ | ⟨high, _ | ⟨low, after⟩⟩
  · simp [hend]
  · simp [hend]
  · have hpair : src.tail total = some ⟨[high, low] ++ after, src.spare⟩ := hat
    rw [Header.readPacketId_of_tail hpair rfl, Outcome.map_done, Outcome.done_andThen,
      hnext high low after (Slice.tail_add hpair)]
    simp

end Steps

namespace Frame

variable (frame : Frame) (spare : Bytes)

theorem at_body : At ⟨frame.bytes, spare⟩ frame.headerLength (some frame.body) := by
  have htail := frame.tail_headerLength [] spare
  rwa [List.append_nil, List.append_nil] at htail

/-- A decoder gets past the fixed header of a frame of its type with accepted
flags. -/
theorem strays_decode_iff {μ : Type} {header : Header} {rebuild : Header → μ}
    {next : μ → ℕ → Outcome Err μ} {size : ℕ} (hvalid : header.type.valid = true) :
    Strays size (((header.decode ⟨frame.bytes, spare⟩).map rebuild).andThen next) ↔
      (frame.mtype = header.type ∧ flagsAccepted frame.first = true) ∧
        Strays size (next (rebuild (header.received ⟨frame.bytes, spare⟩ frame.first
          frame.body.length)) frame.headerLength) := by
  by_cases haccepted : frame.mtype = header.type ∧ flagsAccepted frame.first = true
  · have hheader := frame.decode_header_of_accepted (haccepted.1 ▸ hvalid)
      haccepted.1.symm haccepted.2 [] spare
    rw [List.append_nil] at hheader
    rw [hheader, Outcome.map_done, Outcome.done_andThen, and_iff_right haccepted]
  · have hrejected := mt (frame.checkType_adopt_eq_none_iff header
      ⟨frame.bytes, spare⟩).mp fun h => haccepted ⟨h.2.1.symm, h.2.2⟩
    obtain ⟨err, herr⟩ := Option.ne_none_iff_exists'.mp hrejected
    have hcells := frame.cells_eq [] spare
    rw [List.append_nil] at hcells
    rw [Header.decode, hcells]
    simp only [herr, Outcome.map_fail, Outcome.fail_andThen]
    exact iff_of_false not_strays_fail fun h => haccepted h.1

end Frame

/-! ## Acknowledgements -/

section Fields

variable {frame : Frame} {spare : Bytes}

theorem PubackMessage.strays_decode_iff {this : PubackMessage}
    (hvalid : this.type.valid = true) :
    Strays frame.bytes.length (this.decode ⟨frame.bytes, spare⟩) ↔
      (frame.mtype = this.type ∧ flagsAccepted frame.first = true) ∧
        2 ≤ frame.body.length + spare.length ∧ frame.body.length ≠ 2 := by
  rw [decode, frame.strays_decode_iff spare hvalid]
  refine and_congr_right fun _ => ?_
  have hlength := frame.length_bytes
  have hwindow := Slice.window_of_tail (frame.at_body spare) 2
  by_cases hthere : 2 ≤ frame.body.length + spare.length
  · have hsome : (Slice.mk frame.body spare).window 0 2 = some _ :=
      Slice.window_zero_eq_some hthere
    rw [Header.readPacketId, hwindow, hsome, Outcome.map_done, Outcome.done_andThen,
      strays_done_iff, and_iff_right hthere]
    omega
  · have hnone : (Slice.mk frame.body spare).window 0 2 = none :=
      Slice.window_zero_eq_none_iff.mpr (not_le.mp hthere)
    rw [Header.readPacketId, hwindow, hnone]
    exact iff_of_false not_strays_panic fun h => hthere h.1

theorem DisconnectMessage.strays_decode_iff {this : DisconnectMessage}
    (hvalid : this.type.valid = true) :
    Strays frame.bytes.length (this.decode ⟨frame.bytes, spare⟩) ↔
      (frame.mtype = this.type ∧ flagsAccepted frame.first = true) ∧ frame.body ≠ [] := by
  rw [decode, ← Outcome.andThen_done (Outcome.map _ _), frame.strays_decode_iff spare hvalid,
    strays_done_iff, (frame.at_body spare).count_ne_iff]
  simp

/-- A CONNACK with accepted flags and code and something behind them. -/
def ConnackStrays (body : Bytes) : Prop :=
  ∃ flags code more, body = flags :: code :: more ∧ flags &&& 254 = 0 ∧ ¬ code > 5 ∧ more ≠ []

theorem ConnackMessage.strays_decode_iff {this : ConnackMessage}
    (hvalid : this.type.valid = true) :
    Strays frame.bytes.length (this.decode ⟨frame.bytes, spare⟩) ↔
      (frame.mtype = this.type ∧ flagsAccepted frame.first = true) ∧
        ConnackStrays frame.body := by
  rw [decode, frame.strays_decode_iff spare hvalid]
  refine and_congr_right fun _ => ?_
  have hat := frame.at_body spare
  rw [decodeFields, Slice.getElem?_of_tail hat]
  rcases hbody : frame.body with _ | ⟨flags, _ | ⟨code, more⟩⟩
  · simp [ConnackStrays]
  · rw [hbody] at hat
    rw [Slice.getElem?_of_tail (Slice.tail_succ hat)]
    by_cases hflags : flags &&& 254 = 0 <;> simp [ConnackStrays, hflags]
  · rw [hbody] at hat
    rw [Slice.getElem?_of_tail (Slice.tail_succ hat)]
    have hend : At ⟨frame.bytes, spare⟩ (frame.headerLength + 2) (some more) :=
      Slice.tail_succ (Slice.tail_succ hat)
    by_cases hflags : flags &&& 254 = 0
    · by_cases hcode : code > 5
      · simp [ConnackStrays, hflags, hcode]
      · simp [ConnackStrays, hflags, hcode, hend.count_ne_iff]
        exact fun _ => UInt8.not_lt.mp hcode
    · simp [ConnackStrays, hflags]

theorem SubackMessage.not_strays_decode {this : SubackMessage}
    (hvalid : this.type.valid = true) :
    ¬ Strays frame.bytes.length (this.decode ⟨frame.bytes, spare⟩) := by
  rw [decode, frame.strays_decode_iff spare hvalid, Header.readPacketId]
  rintro ⟨-, hstrays⟩
  split at hstrays
  · exact not_strays_panic hstrays
  · rw [Outcome.map_done, Outcome.done_andThen, readReturnCodes] at hstrays
    split at hstrays <;> rename_i hcodes
    · exact not_strays_panic hstrays
    · rw [Outcome.done_andThen, strays_failOn_iff, strays_done_iff] at hstrays
      have hstop := Slice.length_window hcodes
      have hlength := frame.length_bytes
      simp only [withHeader, Header.received] at hstop
      omega

/-! ## PUBLISH -/

theorem PublishMessage.not_strays_decodePayload {this : PublishMessage} {src : Slice}
    {hn total size : ℕ} (hsize : this.remlen = (size : ℤ) - hn) :
    ¬ Strays size (decodePayload src hn this total) := by
  rw [decodePayload]
  split <;> rename_i hpayload
  · exact not_strays_panic
  · have hstop := Slice.length_window hpayload
    rw [strays_done_iff]
    omega

theorem PublishMessage.not_strays_decode {this : PublishMessage}
    (hvalid : this.type.valid = true) :
    ¬ Strays frame.bytes.length (this.decode ⟨frame.bytes, spare⟩) := by
  rw [decode, frame.strays_decode_iff spare hvalid]
  rintro ⟨-, hstrays⟩
  have hsize : (frame.body.length : ℤ) = (frame.bytes.length : ℤ) - frame.headerLength := by
    rw [frame.length_bytes]
    omega
  rw [decodeFields, readLPField, readLPThen_andThen] at hstrays
  refine not_strays_readLPThen (frame.at_body spare) (fun topic after hat => ?_) hstrays
  rw [Outcome.done_andThen, strays_reject_iff]
  rintro ⟨-, hstrays⟩
  split at hstrays
  · rw [Header.readPacketId] at hstrays
    split at hstrays
    · exact not_strays_panic hstrays
    · exact not_strays_decodePayload hsize hstrays
  · exact not_strays_decodePayload hsize hstrays

/-! ## SUBSCRIBE -/

theorem strays_of_andThen {μ : Type} {size : ℕ} {outcome : Outcome Err μ}
    {next : μ → ℕ → Outcome Err μ} (hnext : ∀ state n, Strays size (next state n) → n ≠ size)
    (hstrays : Strays size (outcome.andThen next)) : Strays size outcome := by
  cases outcome with
  | done state n => exact strays_done_iff.mpr (hnext state n hstrays)
  | fail state n err => exact hstrays
  | panic => exact hstrays

theorem SubscribeMessage.not_strays_decodeTopics {src : Slice} {rounds total : ℕ}
    {this : SubscribeMessage} {rest : Bytes} (hat : At src total (some rest))
    (hrounds : rest.length ≤ rounds) :
    ¬ Strays src.bytes.length (decodeTopics src rounds rest.length this total) := by
  induction rounds generalizing this total rest with
  | zero =>
      obtain rfl := List.eq_nil_of_length_eq_zero (Nat.le_zero.mp hrounds)
      rw [decodeTopics, strays_done_iff, hat.count_ne_iff]
      simp
  | succ rounds ih =>
      rw [decodeTopics]
      by_cases hempty : rest = []
      · subst hempty
        rw [if_neg (by simp), strays_done_iff, hat.count_ne_iff]
        simp
      · rw [if_pos (by exact_mod_cast List.length_pos_iff.mpr hempty)]
        apply not_strays_readLPThen hat
        intro topic after hafter
        apply not_strays_readByteField hafter
        intro qos last hlast
        have hfirst := Slice.length_of_tail hat
        have hsecond := Slice.length_of_tail hlast
        have hcounter : (rest.length : ℤ) -
            (((total + (lpBytes topic).length : ℕ) : ℤ) - total) - 1 = last.length := by
          omega
        rw [hcounter]
        exact ih hlast (by omega)

theorem SubscribeMessage.not_strays_decode {this : SubscribeMessage}
    (hvalid : this.type.valid = true) (hfresh : this.topics = []) :
    ¬ Strays frame.bytes.length (this.decode ⟨frame.bytes, spare⟩) := by
  have hbody := Slice.length_of_tail (frame.at_body spare)
  rw [decode, frame.strays_decode_iff spare hvalid]
  rintro ⟨-, hstrays⟩
  rw [strays_readPacketId_iff (frame.at_body spare) fun high low after hat =>
    iff_false_intro ?_] at hstrays
  · obtain ⟨-, -, -, -, hfalse⟩ := hstrays
    exact hfalse
  · intro hshort id
    have hcounter : ((frame.body.length : ℤ) -
        (((frame.headerLength + 2 : ℕ) : ℤ) - frame.headerLength)).toNat = 0 := by
      omega
    simp only [withHeader, Header.received, hcounter, decodeTopics, Outcome.done_andThen,
      hfresh, List.length_nil, if_true]
    exact not_strays_fail
  · intro hloop
    have hcounter := frame.counter_of_tail (frame.at_body spare) hat
    simp only [withHeader, Header.received, hcounter, Int.toNat_natCast] at hloop
    refine not_strays_decodeTopics hat le_rfl (strays_of_andThen ?_ hloop)
    intro state n hstate
    split at hstate
    · exact (not_strays_fail hstate).elim
    · exact strays_done_iff.mp hstate

/-! ## UNSUBSCRIBE -/

/-- The counter, `drift` short of the bytes there are, ends the loop while some of
them are left, or the last topic that it reaches overruns. -/
inductive UnsubscribeStrays (spare : Bytes) : ℕ → Bytes → Prop where
  | stop {drift : ℕ} {rest : Bytes} : rest.length ≤ drift → rest ≠ [] →
      UnsubscribeStrays spare drift rest
  | across {drift : ℕ} {rest topic more : Bytes} : drift < rest.length → LPOverrun rest →
      lpSplit (rest ++ spare) = some (topic, more) → UnsubscribeStrays spare drift rest
  | next {drift : ℕ} {rest topic after : Bytes} : drift < rest.length →
      lpSplit rest = some (topic, after) → UnsubscribeStrays spare (drift + 1) after →
      UnsubscribeStrays spare drift rest

theorem unsubscribeStrays_iff_of_le {drift : ℕ} {rest : Bytes} (hstop : rest.length ≤ drift) :
    UnsubscribeStrays spare drift rest ↔ rest ≠ [] := by
  constructor
  · intro hstrays
    cases hstrays with
    | stop _ hrest => exact hrest
    | across hlt => omega
    | next hlt => omega
  · exact .stop hstop

theorem unsubscribeStrays_iff_of_lt {drift : ℕ} {rest : Bytes} (hlt : drift < rest.length) :
    UnsubscribeStrays spare drift rest ↔
      FieldRead spare (fun _ after => ∀ last, after = some last →
        UnsubscribeStrays spare (drift + 1) last) (some rest) := by
  constructor
  · intro hstrays
    cases hstrays with
    | stop hstop => omega
    | across _ hover hsplit => exact Or.inr ⟨hover, _, _, hsplit, nofun⟩
    | next _ hsplit hnext =>
        refine Or.inl ⟨_, _, hsplit, ?_⟩
        rintro _ ⟨⟩
        exact hnext
  · rintro (⟨topic, after, hsplit, hnext⟩ | ⟨hover, topic, more, hsplit, -⟩)
    · exact .next hlt hsplit (hnext after rfl)
    · exact .across hlt hover hsplit

/-- The end of `Decode`: an empty topic list is an error. -/
def UnsubscribeMessage.finish (this : UnsubscribeMessage) (total : ℕ) :
    Outcome Err UnsubscribeMessage :=
  if this.topics.length = 0 then
    .fail this 0 (.errorf "unsubscribe/Decode: Empty topic list" [])
  else .done { this with dirty := false } total

theorem UnsubscribeMessage.strays_finish_iff {this : UnsubscribeMessage} {total size : ℕ}
    (hread : this.topics.length ≠ 0) : Strays size (this.finish total) ↔ total ≠ size := by
  rw [finish, if_neg hread, strays_done_iff]

theorem UnsubscribeMessage.strays_finish_iff_of_le {src : Slice} {total drift : ℕ}
    {this : UnsubscribeMessage} {rest : Bytes} (hat : At src total (some rest))
    (hdrift : this.topics.length = drift) (hstop : rest.length ≤ drift) :
    Strays src.bytes.length (this.finish total) ↔
      UnsubscribeStrays src.spare drift rest := by
  rw [unsubscribeStrays_iff_of_le hstop]
  by_cases hread : this.topics.length = 0
  · obtain rfl := List.eq_nil_of_length_eq_zero (show rest.length = 0 by omega)
    rw [finish, if_pos hread]
    exact iff_of_false not_strays_fail (by simp)
  · rw [strays_finish_iff hread, hat.count_ne_iff]
    simp

theorem UnsubscribeMessage.strays_decodeTopics_iff {src : Slice} {rounds total drift : ℕ}
    {this : UnsubscribeMessage} {rest : Bytes} (hat : At src total (some rest))
    (hrounds : rest.length ≤ rounds + drift) (hdrift : this.topics.length = drift) :
    Strays src.bytes.length
        ((decodeTopics src rounds (rest.length - drift) this total).andThen finish) ↔
      UnsubscribeStrays src.spare drift rest := by
  induction rounds generalizing this total rest drift with
  | zero => exact strays_finish_iff_of_le hat hdrift (by omega)
  | succ rounds ih =>
      rw [decodeTopics]
      by_cases hlt : drift < rest.length
      · rw [if_pos (by omega), readLPThen_andThen, unsubscribeStrays_iff_of_lt hlt]
        apply strays_readLPThen_iff hat
        intro topic after hafter
        have hlength := Slice.length_of_tail hat
        have hlp := length_lpBytes topic
        cases after with
        | some after =>
            have hrest := Slice.length_of_tail hafter
            have hcounter : (rest.length : ℤ) - drift -
                (((total + (lpBytes topic).length : ℕ) : ℤ) - total) - 1 =
                after.length - ((drift + 1 : ℕ) : ℤ) := by
              omega
            rw [hcounter, ih hafter (by omega) (by simp [hdrift])]
            simp
        | none =>
            -- the counter is negative by now, so this was the last topic
            have hover : src.bytes.length < total + (lpBytes topic).length := hafter
            have hnegative : ¬ (0 : ℤ) < (rest.length : ℤ) - drift -
                (((total + (lpBytes topic).length : ℕ) : ℤ) - total) - 1 := by
              omega
            have hlast : ∀ message total', decodeTopics src rounds ((rest.length : ℤ) - drift -
                (((total + (lpBytes topic).length : ℕ) : ℤ) - total) - 1) message total' =
                .done message total' := by
              intro message total'
              cases rounds with
              | zero => rfl
              | succ rounds => rw [decodeTopics, if_neg hnegative]
            rw [hlast, Outcome.done_andThen, strays_finish_iff (by simp)]
            refine iff_of_true hover.ne' ?_
            rintro after ⟨⟩
      · rw [if_neg (by omega), Outcome.done_andThen]
        exact strays_finish_iff_of_le hat hdrift (by omega)

theorem UnsubscribeMessage.strays_decode_iff {this : UnsubscribeMessage}
    (hvalid : this.type.valid = true) (hfresh : this.topics = []) :
    Strays frame.bytes.length (this.decode ⟨frame.bytes, spare⟩) ↔
      (frame.mtype = this.type ∧ flagsAccepted frame.first = true) ∧
        ∃ high low rest, frame.body = high :: low :: rest ∧
          UnsubscribeStrays spare 0 rest := by
  have hbody := Slice.length_of_tail (frame.at_body spare)
  rw [decode, frame.strays_decode_iff spare hvalid]
  refine and_congr_right fun _ => strays_readPacketId_iff (frame.at_body spare) ?_ ?_
  · intro high low after hat
    have hcounter := (frame.counter_of_tail (frame.at_body spare) hat).trans (sub_zero _).symm
    simp only [withHeader, Header.received, hcounter]
    exact strays_decodeTopics_iff hat (by omega) (by simp [hfresh])
  · intro hshort id
    have hcounter : ((frame.body.length : ℤ) -
        (((frame.headerLength + 2 : ℕ) : ℤ) - frame.headerLength)).toNat = 0 := by
      omega
    simp only [withHeader, Header.received, hcounter, decodeTopics, Outcome.done_andThen,
      hfresh, List.length_nil, if_true]
    exact not_strays_fail

end Fields

/-! ## CONNECT -/

/-- A field is read that is only there under its flag and if anything is left. -/
def OptionalRead (flag : Bool) (spare : Bytes) (behind : Option Bytes → Prop)
    (cursor : Option Bytes) : Prop :=
  if flag = true ∧ cursor ≠ some [] then FieldRead spare (fun _ => behind) cursor
  else behind cursor

/-- The Will topic and the Will message are read. -/
def WillRead (flag : Bool) (spare : Bytes) (behind : Option Bytes → Prop)
    (cursor : Option Bytes) : Prop :=
  if flag = true then FieldRead spare (fun _ => FieldRead spare fun _ => behind) cursor
  else behind cursor

/-- Behind accepted connect flags: all fields are read, and that does not end where
the frame does. -/
def PayloadStrays (flags : Byte) (spare : Bytes) (cursor : Option Bytes) : Prop :=
  ∃ high low after, cursor = some (high :: low :: after) ∧
    FieldRead spare
      (fun clientId cursor =>
        (clientId = [] → (ConnectMessage.ofFlags flags).cleanSession = true) ∧
        (clientId ≠ [] → ConnectMessage.validClientId clientId = true) ∧
        WillRead (ConnectMessage.ofFlags flags).willFlag spare
          (OptionalRead (ConnectMessage.ofFlags flags).usernameFlag spare
            (OptionalRead (ConnectMessage.ofFlags flags).passwordFlag spare (· ≠ some [])))
          cursor)
      (some after)

/-- The body of a CONNECT packet: protocol name, version, connect flags, payload. -/
def ConnectStrays (spare body : Bytes) : Prop :=
  FieldRead spare
    (fun protoName => ByteRead fun version cursor =>
      supportedVersions version = some protoName ∧
        ByteRead (fun flags cursor => (ConnectMessage.ofFlags flags).checkFlags = none ∧
          PayloadStrays flags spare cursor) cursor)
    (some body)

namespace ConnectMessage

section Steps

variable {src : Slice} {this : ConnectMessage} {total hn size : ℕ} {flags : Byte}
variable {cursor : Option Bytes} {behind : Option Bytes → Prop}
variable {next : ConnectMessage → ℕ → Outcome Err ConnectMessage}

theorem strays_readOptional_iff {flag : Bool} {set : ConnectMessage → Bytes → ConnectMessage}
    (hat : At src total cursor) (hflags : this.connectFlags = flags)
    (hset : ∀ field, (set this field).connectFlags = this.connectFlags)
    (hnext : ∀ message total after, message.connectFlags = flags → At src total after →
      (Strays size (next message total) ↔ behind after)) :
    Strays size ((readOptional src flag set this total).andThen next) ↔
      OptionalRead flag src.spare behind cursor := by
  rw [readOptional, OptionalRead]
  cases flag with
  | false => simpa using hnext this total cursor hflags hat
  | true =>
      have hfield : Strays size ((readLPField src set this total).andThen next) ↔
          FieldRead src.spare (fun _ => behind) cursor :=
        strays_readLPField_iff hat fun field after hafter =>
          hnext _ _ _ ((hset field).trans hflags) hafter
      rw [if_pos rfl]
      rcases cursor with _ | _ | ⟨byte, rest⟩
      · rw [hat.tail_eq_none]
        exact iff_of_false not_strays_panic (by simp [FieldRead])
      · have htail : src.tail total = some ⟨[], src.spare⟩ := hat
        rw [htail]
        simpa using hnext this total (some []) hflags hat
      · have htail : src.tail total = some ⟨byte :: rest, src.spare⟩ := hat
        rw [htail, if_pos ⟨rfl, by simp⟩]
        simpa using hfield

theorem strays_readWill_iff (hat : At src total cursor) (hflags : this.connectFlags = flags)
    (hnext : ∀ message total after, message.connectFlags = flags → At src total after →
      (Strays size (next message total) ↔ behind after)) :
    Strays size ((readWill src this total).andThen next) ↔
      WillRead (ofFlags flags).willFlag src.spare behind cursor := by
  have hwill : this.willFlag = (ofFlags flags).willFlag := by
    rw [willFlag, connectFlag, hflags]
    rfl
  rw [readWill, WillRead, hwill]
  split
  · rw [Outcome.andThen_assoc]
    exact strays_readLPField_iff hat fun topic after hafter =>
      strays_readLPField_iff hafter fun message last hlast => hnext _ _ _ hflags hlast
  · exact hnext this total cursor hflags hat

theorem strays_readKeepAlive_iff (hat : At src total cursor) {behind : Bytes → Prop}
    (hnext : ∀ keepAlive after, At src (total + 2) (some after) →
      (Strays size (next { this with keepAlive := keepAlive } (total + 2)) ↔ behind after)) :
    Strays size ((readKeepAlive src hn this total).andThen next) ↔
      ∃ high low after, cursor = some (high :: low :: after) ∧ behind after := by
  rw [readKeepAlive]
  cases cursor with
  | none =>
      rw [hat.tail_eq_none]
      exact iff_of_false not_strays_panic (by simp)
  | some rest =>
      have htail : src.tail total = some ⟨rest, src.spare⟩ := hat
      rw [htail]
      rcases rest with _ | ⟨high, _ | ⟨low, after⟩⟩
      · simp
      · simp
      · have hpair : src.tail total = some ⟨[high, low] ++ after, src.spare⟩ := hat
        rw [Outcome.done_andThen, hnext _ after (Slice.tail_add hpair)]
        simp

theorem strays_decodePayload_iff (hat : At src total cursor)
    (hflags : this.connectFlags = flags) :
    Strays src.bytes.length (decodePayload src hn this total) ↔
      PayloadStrays flags src.spare cursor := by
  have hbits (message : ConnectMessage) (hmessage : message.connectFlags = flags)
      (shift : Byte) : message.connectFlag shift = (ofFlags flags).connectFlag shift := by
    rw [connectFlag, hmessage]
    rfl
  refine strays_readKeepAlive_iff hat fun keepAlive after hafter => ?_
  refine strays_readLPField_iff hafter fun clientId cursor hcursor => ?_
  have hclean := hbits { this with keepAlive := keepAlive, clientId := clientId } hflags 1
  rw [strays_reject_iff, strays_reject_iff]
  refine and_congr ?_ (and_congr ?_ ?_)
  · simp only [cleanSession, hclean]
    cases clientId <;> simp
  · cases clientId <;> simp
  · refine strays_readWill_iff hcursor hflags fun message total cursor hmessage hcursor => ?_
    rw [usernameFlag, hbits message hmessage]
    refine strays_readOptional_iff hcursor hmessage (fun _ => rfl)
      fun message total cursor hmessage hcursor => ?_
    rw [passwordFlag, hbits message hmessage, ← Outcome.andThen_done (readOptional _ _ _ _ _)]
    exact strays_readOptional_iff hcursor hmessage (fun _ => rfl)
      fun _ _ _ _ hend => strays_done_iff.trans hend.count_ne_iff

end Steps

theorem strays_decode_iff {this : ConnectMessage} {frame : Frame} {spare : Bytes}
    (hvalid : this.type.valid = true) :
    Strays frame.bytes.length (this.decode ⟨frame.bytes, spare⟩) ↔
      (frame.mtype = this.type ∧ flagsAccepted frame.first = true) ∧
        ConnectStrays spare frame.body := by
  rw [decode, frame.strays_decode_iff spare hvalid, strays_andThen_done]
  refine and_congr_right fun _ => strays_readLPField_iff (frame.at_body spare)
    fun protoName cursor hcursor => ?_
  refine strays_readByteField_iff hcursor _ fun version after hafter => ?_
  rw [strays_reject_iff]
  refine and_congr (by simp) (strays_readByteField_iff hafter _ fun flags after hafter => ?_)
  rw [strays_failOn_iff]
  exact and_congr Iff.rfl (strays_decodePayload_iff hafter rfl)

end ConnectMessage

/-! ## Every message type -/

/-- The decoder of a type accepts a body with these spare bytes behind it, but does
not stop at its end. -/
def BodyStrays (spare body : Bytes) : MessageType → Prop
  | .connect => ConnectStrays spare body
  | .connack => ConnackStrays body
  | .puback | .pubrec | .pubrel | .pubcomp | .unsuback =>
      2 ≤ body.length + spare.length ∧ body.length ≠ 2
  | .unsubscribe =>
      ∃ high low rest, body = high :: low :: rest ∧ UnsubscribeStrays spare 0 rest
  | .pingreq | .pingresp | .disconnect => body ≠ []
  | .publish | .subscribe | .suback | .reserved | .reserved2 => False

/-- A fresh message that accepts a frame returns the length of the frame, unless
the frame is of its type, with accepted flags, and its body strays. -/
theorem decode_counts_frame_iff {mtype : MessageType} {message : Message}
    (hnew : mtype.new = .ok message) (frame : Frame) (spare : Bytes) :
    (∀ state n, message.decode ⟨frame.bytes, spare⟩ = .done state n →
        n = frame.bytes.length) ↔
      ¬ ((frame.mtype = mtype ∧ flagsAccepted frame.first = true) ∧
        BodyStrays spare frame.body mtype) := by
  have hstrays : (∀ state n, message.decode ⟨frame.bytes, spare⟩ = .done state n →
      n = frame.bytes.length) ↔
      ¬ Strays frame.bytes.length (message.decode ⟨frame.bytes, spare⟩) := by
    simp only [Strays, not_exists, not_and, ne_eq, not_not]
  rw [hstrays]
  refine not_congr ?_
  cases mtype <;> cases hnew <;> refine strays_map_iff.trans ?_
  case connect => exact ConnectMessage.strays_decode_iff rfl
  case connack => exact ConnackMessage.strays_decode_iff rfl
  case unsubscribe => exact UnsubscribeMessage.strays_decode_iff rfl rfl
  case publish =>
    exact iff_of_false (PublishMessage.not_strays_decode rfl) fun hstray => hstray.2
  case subscribe =>
    exact iff_of_false (SubscribeMessage.not_strays_decode rfl rfl) fun hstray => hstray.2
  case suback =>
    exact iff_of_false (SubackMessage.not_strays_decode rfl) fun hstray => hstray.2
  case pingreq | pingresp | disconnect => exact DisconnectMessage.strays_decode_iff rfl
  all_goals exact PubackMessage.strays_decode_iff rfl

/-- PUBACK of packet id 7. -/
def pubackSeven : Frame := .brief 0x40 [0x00, 0x07]

theorem decode_counts_frame_iff_puback :
    MessageType.puback.new = .ok (.puback newPubackMessage) ∧
      ∀ state n, Message.decode ⟨pubackSeven.bytes, []⟩ (.puback newPubackMessage) =
        .done state n → n = pubackSeven.bytes.length := by
  have hnew : MessageType.puback.new = .ok (.puback newPubackMessage) := rfl
  refine ⟨hnew, (decode_counts_frame_iff hnew pubackSeven []).mpr ?_⟩
  rintro ⟨-, -, hlength⟩
  exact hlength rfl

/-- The same with one more byte in the body. -/
def pubackLong : Frame := .brief 0x40 [0x00, 0x07, 0xff]

theorem puback_accepts_longer_body :
    pubackLong.bytes = [0x40, 0x03, 0x00, 0x07, 0xff] ∧
      MessageType.puback.new = .ok (.puback newPubackMessage) ∧
      (Message.decode ⟨pubackLong.bytes, []⟩ (.puback newPubackMessage)).map header =
        .done
          { (newHeader .puback).received ⟨pubackLong.bytes, []⟩ 0x40 3 with
            packetId := [0x00, 0x07], packetIdAt := some 2, dirty := false } 4 := by
  decide +kernel

end Xmqtt.Message
