import Xmqtt.Go.Binary

/-!
# Message fields on the wire

The length-prefixed fields of `message.go`, and the steps from which the
decoders and encoders of all messages are made: reading a field at an offset
of the source buffer, and writing one at an offset of the destination.
-/

namespace Xmqtt.Message

open Xmqtt.Go

/-- The codes of `connackcode.go`; as an `error` value one of them tells the
broker which CONNACK to send. -/
abbrev ConnackCode := UInt64

def connectionAccepted : ConnackCode := 0
def errInvalidProtocolVersion : ConnackCode := 1
def errIdentifierRejected : ConnackCode := 2

/-- An argument of `fmt.Errorf`. -/
inductive Arg where
  | int (value : ℤ)
  | text (bytes : Bytes)
  | string (value : String)
  | bool (value : Bool)
  deriving DecidableEq, Repr

/-- A Go `error` of this package: formatted text, or a CONNACK code. -/
inductive Err where
  | errorf (format : String) (args : List Arg)
  | connack (code : ConnackCode)
  deriving DecidableEq, Repr

def maxLPString : ℕ := 65535

/-- Read length prefixed bytes.  The second check compares the prefix with the
whole buffer, prefix included. -/
def readLPBytes (buf : Slice) : Outcome Err Bytes :=
  match buf.bytes with
  | high :: low :: _ =>
      let n := bigEndianUint16 high low
      if buf.bytes.length < n then
        .fail [] 2 (.errorf
          "utils/readLPBytes: Insufficient buffer size. Expecting %d, got %d."
          [.int n, .int buf.bytes.length])
      else
        match buf.window 2 (2 + n) with
        | none => .panic
        | some field => .done field.bytes (2 + n)
  | _ =>
      .fail [] 0 (.errorf
        "utils/readLPBytes: Insufficient buffer size. Expecting %d, got %d."
        [.int 2, .int buf.bytes.length])

/-- Write length prefixed bytes. -/
def writeLPBytes (buf field : Bytes) : Outcome Err Bytes :=
  if maxLPString < field.length then
    .fail buf 0 (.errorf
      "utils/writeLPBytes: Length (%d) greater than %d bytes."
      [.int field.length, .int maxLPString])
  else if buf.length < 2 + field.length then
    .fail buf 0 (.errorf
      "utils/writeLPBytes: Insufficient buffer size. Expecting %d, got %d."
      [.int (2 + field.length), .int buf.length])
  else
    .done (uint16Bytes field.length ++ field ++ buf.drop (2 + field.length))
      (2 + field.length)

/-- `field, n, err := readLPBytes(src[total:])` and the return on an error.
`failed` is the message at that return, `next` runs with the field and the
offset behind it. -/
def readLPThen {σ : Type} (src : Slice) (failed : Bytes → σ) (total : ℕ)
    (next : Bytes → ℕ → Outcome Err σ) : Outcome Err σ :=
  match src.tail total with
  | none => .panic
  | some buf =>
      match readLPBytes buf with
      | .panic => .panic
      | .fail field n err => .fail (failed field) (total + n) err
      | .done field n => next field (total + n)

/-- `this.field, n, err = readLPBytes(src[total:])`: the field is assigned even
when there is an error. -/
def readLPField {σ : Type} (src : Slice) (set : σ → Bytes → σ) (this : σ)
    (total : ℕ) : Outcome Err σ :=
  readLPThen src (set this) total fun field total => .done (set this field) total

/-- `this.field = src[total]; total++`. -/
def readByteField {σ : Type} (src : Slice) (set : σ → Byte → σ) (this : σ)
    (total : ℕ) : Outcome Err σ :=
  match src.bytes[total]? with
  | none => .panic
  | some byte => .done (set this byte) (total + 1)

/-- What an encoder has made of its message, of the destination buffer and of
the package's packet id counter. -/
structure Encoded (μ : Type) where
  this : μ
  dst : Bytes
  gPacketId : UInt64
  deriving DecidableEq, Repr

section Emit

variable {μ : Type}

/-- `n, err = writeLPBytes(dst[total:], field)` and the return on an error. -/
def emitLP (field : Bytes) (state : Encoded μ) (total : ℕ) : Outcome Err (Encoded μ) :=
  match writeLPBytes (state.dst.drop total) field with
  | .panic => .panic
  | .fail buf n err =>
      .fail { state with dst := state.dst.take total ++ buf } (total + n) err
  | .done buf n => .done { state with dst := state.dst.take total ++ buf } (total + n)

/-- `dst[total] = byte; total++`. -/
def emitByte (byte : Byte) (state : Encoded μ) (total : ℕ) : Outcome Err (Encoded μ) :=
  if total < state.dst.length then
    .done { state with dst := state.dst.set total byte } (total + 1)
  else .panic

/-- `binary.BigEndian.PutUint16(dst[total:], value); total += 2`. -/
def emitUint16 (value : ℕ) (state : Encoded μ) (total : ℕ) : Outcome Err (Encoded μ) :=
  (emitByte (UInt8.ofNat (value / 256)) state total).andThen
    (emitByte (UInt8.ofNat value))

/-- `n = copy(dst[total:], field); total += n`. -/
def emitCopy (field : Bytes) (state : Encoded μ) (total : ℕ) :
    Outcome Err (Encoded μ) :=
  let n := min (state.dst.length - total) field.length
  .done
    { state with
      dst := state.dst.take total ++ field.take n ++ state.dst.drop (total + n) }
    (total + n)

/-- `copy(dst[total:], field); total += len(field)`: the count does not depend
on how much was copied. -/
def emitWhole (field : Bytes) (state : Encoded μ) (total : ℕ) :
    Outcome Err (Encoded μ) :=
  .done
    { state with
      dst := state.dst.take total ++ field.take (state.dst.length - total) ++
        state.dst.drop (total + field.length) }
    (total + field.length)

end Emit

/-! ## Length-prefixed fields -/

/-- The wire form of a length-prefixed field. -/
def lpBytes (field : Bytes) : Bytes := uint16Bytes field.length ++ field

@[simp]
theorem length_lpBytes (field : Bytes) : (lpBytes field).length = 2 + field.length := by
  simp [lpBytes, uint16Bytes]
  omega

theorem readLPBytes_lpBytes {field : Bytes} (hfield : field.length ≤ maxLPString)
    (rest spare : Bytes) :
    readLPBytes ⟨lpBytes field ++ rest, spare⟩ = .done field (2 + field.length) := by
  have hcount := bigEndianUint16_uint16Bytes (Nat.lt_succ_of_le hfield)
  have htail : (Slice.mk (lpBytes field ++ rest) spare).tail 2 =
      some ⟨field ++ rest, spare⟩ := by
    rw [lpBytes, List.append_assoc]
    exact Slice.tail_append (uint16Bytes field.length) (field ++ rest) spare
  have hwindow := Slice.window_of_tail htail field.length
  rw [Slice.window_zero_of_append rfl] at hwindow
  simp only [lpBytes, uint16Bytes, List.cons_append, List.nil_append] at hwindow
  simp only [readLPBytes, lpBytes, uint16Bytes, List.cons_append, List.nil_append,
    hcount]
  rw [if_neg (by simp; omega)]
  push_cast at hwindow
  rw [hwindow]

theorem writeLPBytes_of_le {buf field : Bytes} (hfield : field.length ≤ maxLPString)
    (hbuf : 2 + field.length ≤ buf.length) :
    writeLPBytes buf field =
      .done (lpBytes field ++ buf.drop (2 + field.length)) (2 + field.length) := by
  rw [writeLPBytes, if_neg (by omega), if_neg (by omega), lpBytes]

theorem writeLPBytes_eq_done {buf field result : Bytes} {n : ℕ}
    (hdone : writeLPBytes buf field = .done result n) :
    field.length ≤ maxLPString ∧ 2 + field.length ≤ buf.length ∧
      result = lpBytes field ++ buf.drop (2 + field.length) ∧ n = 2 + field.length := by
  by_cases hfield : maxLPString < field.length
  · simp [writeLPBytes, hfield] at hdone
  by_cases hbuf : buf.length < 2 + field.length
  · simp [writeLPBytes, hfield, hbuf] at hdone
  rw [writeLPBytes_of_le (by omega) (by omega)] at hdone
  injection hdone with hresult hcount
  exact ⟨by omega, by omega, hresult.symm, hcount.symm⟩

/-- The first length-prefixed field of a buffer and the bytes behind it, when
all of it is there. -/
def lpSplit : Bytes → Option (Bytes × Bytes)
  | high :: low :: rest =>
      if bigEndianUint16 high low ≤ rest.length then
        some (rest.take (bigEndianUint16 high low), rest.drop (bigEndianUint16 high low))
      else none
  | _ => none

/-- The length prefix promises one or two bytes more than there are, which the
comparison with the whole buffer, prefix included, does not notice. -/
def LPOverrun : Bytes → Prop
  | high :: low :: rest =>
      rest.length < bigEndianUint16 high low ∧
        bigEndianUint16 high low ≤ rest.length + 2
  | _ => False

instance decidableLPOverrun : (bytes : Bytes) → Decidable (LPOverrun bytes)
  | [] => isFalse id
  | [_] => isFalse id
  | high :: low :: rest =>
      inferInstanceAs (Decidable (rest.length < bigEndianUint16 high low ∧
        bigEndianUint16 high low ≤ rest.length + 2))

theorem lpSplit_eq_some {bytes field after : Bytes}
    (hsplit : lpSplit bytes = some (field, after)) :
    bytes = lpBytes field ++ after ∧ field.length ≤ maxLPString := by
  match bytes with
  | [] | [_] => simp [lpSplit] at hsplit
  | high :: low :: rest =>
      rw [lpSplit] at hsplit
      split at hsplit
      · rename_i hle
        simp only [Option.some.injEq, Prod.mk.injEq] at hsplit
        obtain ⟨hfield, hafter⟩ := hsplit
        have hlength : field.length = bigEndianUint16 high low := by
          rw [← hfield, List.length_take_of_le hle]
        have hlt := bigEndianUint16_lt high low
        refine ⟨?_, by simp only [maxLPString]; omega⟩
        rw [lpBytes, hlength, uint16Bytes_bigEndianUint16, ← hfield, ← hafter]
        simp
      · simp at hsplit

/-- The three ends of reading a length-prefixed field: an announced length above that of the
whole buffer is refused, one that the capacity has no room for panics, and for any other the
bytes are taken, spare ones too. -/
theorem readLPBytes_cons (high low : Byte) (rest spare : Bytes) :
    readLPBytes ⟨high :: low :: rest, spare⟩ =
      if rest.length + 2 < bigEndianUint16 high low then
        .fail [] 2 (.errorf
          "utils/readLPBytes: Insufficient buffer size. Expecting %d, got %d."
          [.int (bigEndianUint16 high low), .int (rest.length + 2 : ℕ)])
      else if rest.length + spare.length < bigEndianUint16 high low then .panic
      else .done ((rest ++ spare).take (bigEndianUint16 high low))
        (2 + bigEndianUint16 high low) := by
  have htail : (Slice.mk (high :: low :: rest) spare).tail 2 = some ⟨rest, spare⟩ :=
    Slice.tail_append [high, low] rest spare
  have hwindow := Slice.window_of_tail htail (bigEndianUint16 high low)
  push_cast at hwindow
  simp only [readLPBytes, List.length_cons, hwindow]
  split_ifs with hlong hshort
  · rfl
  · rw [Slice.window_zero_eq_none_iff.mpr hshort]
  · rw [Slice.window_zero_eq_some (not_lt.mp hshort)]

/-- Without spare capacity, reading a length-prefixed field panics exactly on
an overrun. -/
theorem readLPBytes_eq_panic_iff {bytes : Bytes} :
    readLPBytes ⟨bytes, []⟩ = .panic ↔ LPOverrun bytes := by
  match bytes with
  | [] | [_] => simp [readLPBytes, LPOverrun]
  | high :: low :: rest =>
      rw [readLPBytes_cons, LPOverrun, List.length_nil, add_zero]
      split_ifs with hlong hshort
      · exact iff_of_false (by simp) (by omega)
      · exact iff_of_true rfl (by omega)
      · exact iff_of_false (by simp) (by omega)

/-- Without spare capacity, a field is read exactly when all of it is
there. -/
theorem readLPBytes_eq_done_iff {bytes field : Bytes} {n : ℕ} :
    readLPBytes ⟨bytes, []⟩ = .done field n ↔
      ∃ after, lpSplit bytes = some (field, after) ∧ n = 2 + field.length := by
  match bytes with
  | [] | [_] => simp [readLPBytes, lpSplit]
  | high :: low :: rest =>
      rw [readLPBytes_cons, lpSplit, List.length_nil, add_zero, List.append_nil]
      by_cases hfits : bigEndianUint16 high low ≤ rest.length
      · have hlength := List.length_take_of_le hfits
        rw [if_neg (by omega), if_neg (by omega), if_pos hfits]
        simp only [Outcome.done.injEq, Option.some.injEq, Prod.mk.injEq]
        constructor
        · intro ⟨hfield, hcount⟩
          exact ⟨_, ⟨hfield, rfl⟩, by rw [← hcount, ← hfield, hlength]⟩
        · intro ⟨after, ⟨hfield, _⟩, hcount⟩
          exact ⟨hfield, by rw [hcount, ← hfield, hlength]⟩
      · rw [if_neg hfits, if_pos (not_le.mp hfits)]
        split_ifs <;> simp

/-! ## Reading at a cursor -/

section Read

variable {σ : Type} {src : Slice} {total : ℕ} {rest spare : Bytes}

theorem readLPThen_lpBytes {field : Bytes}
    (htail : src.tail total = some ⟨lpBytes field ++ rest, spare⟩)
    (hfield : field.length ≤ maxLPString) (failed : Bytes → σ)
    (next : Bytes → ℕ → Outcome Err σ) :
    readLPThen src failed total next = next field (total + (lpBytes field).length) := by
  rw [readLPThen, htail]
  simp only [readLPBytes_lpBytes hfield, length_lpBytes]

theorem readLPField_lpBytes {field : Bytes}
    (htail : src.tail total = some ⟨lpBytes field ++ rest, spare⟩)
    (hfield : field.length ≤ maxLPString) (set : σ → Bytes → σ) (this : σ) :
    readLPField src set this total =
      .done (set this field) (total + (lpBytes field).length) := by
  rw [readLPField, readLPThen_lpBytes htail hfield]

theorem readByteField_cons {byte : Byte}
    (htail : src.tail total = some ⟨byte :: rest, spare⟩)
    (set : σ → Byte → σ) (this : σ) :
    readByteField src set this total = .done (set this byte) (total + 1) := by
  rw [readByteField, Slice.getElem?_of_tail htail]
  rfl

/-- A length-prefixed field panics when it overruns; else the rest of the
decoder runs behind it. -/
theorem readLPThen_eq_panic_iff (htail : src.tail total = some ⟨rest, []⟩)
    {failed : Bytes → σ} {next : Bytes → ℕ → Outcome Err σ} :
    readLPThen src failed total next = .panic ↔
      LPOverrun rest ∨ ∃ field after, lpSplit rest = some (field, after) ∧
        next field (total + (lpBytes field).length) = .panic := by
  rw [readLPThen, htail]
  cases hread : readLPBytes ⟨rest, []⟩ with
  | panic => simp [hread, readLPBytes_eq_panic_iff.mp hread]
  | fail field n err =>
      have hpanic : ¬ LPOverrun rest := by
        rw [← readLPBytes_eq_panic_iff, hread]
        simp
      have hsplit : lpSplit rest = none := by
        by_contra hsome
        obtain ⟨⟨part, after⟩, hpart⟩ := Option.ne_none_iff_exists'.mp hsome
        have hdone := readLPBytes_eq_done_iff.mpr ⟨after, hpart, rfl⟩
        rw [hread] at hdone
        simp at hdone
      simp [hread, hpanic, hsplit]
  | done field n =>
      have hpanic : ¬ LPOverrun rest := by
        rw [← readLPBytes_eq_panic_iff, hread]
        simp
      obtain ⟨after, hsplit, hcount⟩ := readLPBytes_eq_done_iff.mp hread
      simp [hread, hpanic, hsplit, hcount]

theorem readLPThen_andThen {failed : Bytes → σ} {next : Bytes → ℕ → Outcome Err σ}
    {last : σ → ℕ → Outcome Err σ} :
    (readLPThen src failed total next).andThen last =
      readLPThen src failed total fun field total => (next field total).andThen last := by
  rw [readLPThen, readLPThen]
  cases src.tail total with
  | none => rfl
  | some buf =>
      simp only
      cases readLPBytes buf <;> rfl

theorem length_of_readLPBytes {buf : Slice} {field : Bytes} {n : ℕ}
    (hdone : readLPBytes buf = .done field n) : field.length ≤ maxLPString := by
  obtain ⟨bytes, spare⟩ := buf
  match bytes with
  | [] | [_] => cases hdone
  | high :: low :: rest =>
      rw [readLPBytes_cons] at hdone
      split_ifs at hdone
      injection hdone with hfield
      calc field.length = ((rest ++ spare).take (bigEndianUint16 high low)).length := by
            rw [hfield]
        _ ≤ bigEndianUint16 high low := List.length_take_le _ _
        _ ≤ maxLPString := Nat.le_of_lt_succ (bigEndianUint16_lt high low)

theorem next_of_readLPThen {failed : Bytes → σ} {next : Bytes → ℕ → Outcome Err σ}
    {result : σ} {n : ℕ} (hdone : readLPThen src failed total next = .done result n) :
    ∃ field after, field.length ≤ maxLPString ∧ next field after = .done result n := by
  rw [readLPThen] at hdone
  split at hdone
  · cases hdone
  · split at hdone
    · cases hdone
    · cases hdone
    · rename_i field count hread
      exact ⟨field, total + count, length_of_readLPBytes hread, hdone⟩

theorem field_of_readLPField {set : σ → Bytes → σ} {this result : σ} {n : ℕ}
    (hdone : readLPField src set this total = .done result n) :
    ∃ field, field.length ≤ maxLPString ∧ result = set this field := by
  obtain ⟨field, after, hfield, hnext⟩ := next_of_readLPThen hdone
  injection hnext with hresult
  exact ⟨field, hfield, hresult.symm⟩

theorem byte_of_readByteField {set : σ → Byte → σ} {this result : σ} {n : ℕ}
    (hdone : readByteField src set this total = .done result n) :
    ∃ byte, result = set this byte := by
  rw [readByteField] at hdone
  split at hdone
  · cases hdone
  · rename_i byte hbyte
    injection hdone with hresult
    exact ⟨byte, hresult.symm⟩

end Read

/-! ## Writing at a cursor -/

section Write

variable {μ : Type} {first second : Encoded μ → ℕ → Outcome Err (Encoded μ)}
variable {okFirst okSecond : Prop} {firstBytes secondBytes : Bytes}

/-- A step that, behind what is already written, writes exactly `bytes` when
`ok` holds and they fit, and otherwise does not return without an error. -/
def Writes (step : Encoded μ → ℕ → Outcome Err (Encoded μ)) (ok : Prop)
    (bytes : Bytes) : Prop :=
  ∀ (this : μ) (out rest : Bytes) (gPacketId : UInt64) (state : Encoded μ) (n : ℕ),
    step ⟨this, out ++ rest, gPacketId⟩ out.length = .done state n ↔
      ok ∧ bytes.length ≤ rest.length ∧
        state = ⟨this, (out ++ bytes) ++ rest.drop bytes.length, gPacketId⟩ ∧
        n = (out ++ bytes).length

theorem Writes.of_iff {ok : Prop} (hfirst : Writes first okFirst firstBytes)
    (hok : okFirst ↔ ok) : Writes first ok firstBytes :=
  propext hok ▸ hfirst

theorem writes_done : Writes (μ := μ) (fun state total => .done state total) True [] := by
  intro this out rest gPacketId state n
  simp [eq_comm]

theorem Writes.andThen (hfirst : Writes first okFirst firstBytes)
    (hsecond : Writes second okSecond secondBytes) :
    Writes (fun state total => (first state total).andThen second)
      (okFirst ∧ okSecond) (firstBytes ++ secondBytes) := by
  intro this out rest gPacketId state n
  have hrun := hsecond this (out ++ firstBytes) (rest.drop firstBytes.length) gPacketId
  simp only [List.append_assoc] at hrun
  rw [Outcome.andThen_eq_done_iff]
  constructor
  · rintro ⟨middle, count, hdone, hnext⟩
    obtain ⟨hok, hfit, rfl, rfl⟩ := (hfirst this out rest gPacketId middle count).mp hdone
    simp only [List.append_assoc] at hnext
    obtain ⟨hok', hfit', hstate, hcount⟩ := (hrun state n).mp hnext
    simp only [List.length_drop] at hfit'
    refine ⟨⟨hok, hok'⟩, by rw [List.length_append]; omega, ?_, ?_⟩
    · rw [hstate, List.drop_drop]
      simp
    · rw [hcount]
  · rintro ⟨⟨hok, hok'⟩, hfit, hstate, hcount⟩
    rw [List.length_append] at hfit
    refine ⟨_, _, (hfirst this out rest gPacketId _ _).mpr
      ⟨hok, by omega, rfl, rfl⟩, ?_⟩
    simp only [List.append_assoc]
    refine (hrun state n).mpr ⟨hok', by rw [List.length_drop]; omega, ?_, hcount⟩
    rw [hstate, List.drop_drop]
    simp

theorem Writes.ite (cond : Prop) [Decidable cond]
    (hfirst : Writes first okFirst firstBytes)
    (hsecond : Writes second okSecond secondBytes) :
    Writes (fun state total => if cond then first state total else second state total)
      (if cond then okFirst else okSecond) (if cond then firstBytes else secondBytes) := by
  by_cases hcond : cond
  · simpa only [hcond, if_true] using hfirst
  · simpa only [hcond, if_false] using hsecond

theorem emitLP_writes (field : Bytes) :
    Writes (μ := μ) (emitLP field) (field.length ≤ maxLPString) (lpBytes field) := by
  intro this out rest gPacketId state n
  simp only [emitLP, List.drop_left, List.take_left, length_lpBytes, List.length_append]
  constructor
  · intro hdone
    cases hwrite : writeLPBytes rest field with
    | panic | fail buf count err => simp [hwrite] at hdone
    | done buf count =>
        obtain ⟨hfield, hfit, rfl, rfl⟩ := writeLPBytes_eq_done hwrite
        simp only [hwrite, Outcome.done.injEq] at hdone
        refine ⟨hfield, hfit, ?_, hdone.2.symm⟩
        rw [← hdone.1, List.append_assoc]
  · rintro ⟨hfield, hfit, rfl, rfl⟩
    rw [writeLPBytes_of_le hfield hfit]
    simp

theorem emitLP_of_fits {field : Bytes} {state : Encoded μ} {total : ℕ}
    (hfield : field.length ≤ maxLPString)
    (hfit : (lpBytes field).length ≤ (state.dst.drop total).length) :
    emitLP field state total =
      .done
        { state with
          dst := state.dst.take total ++ lpBytes field ++
            state.dst.drop (total + (lpBytes field).length) }
        (total + (lpBytes field).length) := by
  rw [length_lpBytes] at hfit ⊢
  rw [emitLP, writeLPBytes_of_le hfield hfit, List.drop_drop]
  simp only [List.append_assoc]

/-- A field that is too long or does not fit is refused, and nothing is written. -/
theorem emitLP_of_not_fits {field : Bytes} {state : Encoded μ} {total : ℕ}
    (hfit : ¬ (field.length ≤ maxLPString ∧
      (lpBytes field).length ≤ (state.dst.drop total).length)) :
    emitLP field state total =
      .fail state total
        (if maxLPString < field.length then
          .errorf "utils/writeLPBytes: Length (%d) greater than %d bytes."
            [.int field.length, .int maxLPString]
        else
          .errorf "utils/writeLPBytes: Insufficient buffer size. Expecting %d, got %d."
            [.int (2 + field.length), .int (state.dst.drop total).length]) := by
  rw [length_lpBytes] at hfit
  by_cases hfield : maxLPString < field.length
  · simp only [emitLP, writeLPBytes, if_pos hfield, List.take_append_drop, add_zero]
  · have hshort : (state.dst.drop total).length < 2 + field.length := by omega
    simp only [emitLP, writeLPBytes, if_neg hfield, if_pos hshort, List.take_append_drop,
      add_zero]

theorem emitByte_writes (byte : Byte) : Writes (μ := μ) (emitByte byte) True [byte] := by
  intro this out rest gPacketId state n
  cases rest with
  | nil => simp [emitByte]
  | cons old rest => simp [emitByte, eq_comm]

theorem emitUint16_writes (value : ℕ) :
    Writes (μ := μ) (emitUint16 value) True (uint16Bytes value) :=
  ((emitByte_writes _).andThen (emitByte_writes _)).of_iff (and_self_iff)

/-- A copy that fits is complete. -/
theorem emitCopy_of_le {field out rest : Bytes} (hfit : field.length ≤ rest.length)
    (this : μ) (gPacketId : UInt64) :
    emitCopy field ⟨this, out ++ rest, gPacketId⟩ out.length =
      .done ⟨this, (out ++ field) ++ rest.drop field.length, gPacketId⟩
        (out ++ field).length := by
  simp only [emitCopy, List.length_append, Nat.add_sub_cancel_left,
    Nat.min_eq_right hfit, List.take_length, List.take_left]
  rw [List.drop_length_add_append]

theorem emitWhole_of_le {field out rest : Bytes} (hfit : field.length ≤ rest.length)
    (this : μ) (gPacketId : UInt64) :
    emitWhole field ⟨this, out ++ rest, gPacketId⟩ out.length =
      .done ⟨this, (out ++ field) ++ rest.drop field.length, gPacketId⟩
        (out ++ field).length := by
  simp only [emitWhole, List.length_append, Nat.add_sub_cancel_left,
    List.take_of_length_le hfit, List.take_left]
  rw [List.drop_length_add_append]

end Write

end Xmqtt.Message
