import Xmqtt.Sessions.Expiry

/-!
# What `Wait` reports

`insert` knows whether a message was stored, was a repetition, or was refused, and
returns an error for the last.  `Wait` calls it and returns `nil` whatever it says.
Whether a message is stored depends on the packet ids that wait and on the message
alone: the buffer that the pool hands out is always long enough.
-/

namespace Xmqtt.Message

open Xmqtt.Go

/-! ## Encoding does not depend on the buffer -/

/-- A buffer of the length that `Len` returns has room for the message. -/
theorem Header.room_of_lenOf {this : Header} (hdirty : this.dirty = true) {ml size : ℕ}
    (hremlen : 0 ≤ int32 ml ∧ int32 ml ≤ maxRemainingLength)
    (hsize : (this.lenOf ml).2 ≤ size) :
    (this.lenOf ml).1.msglen + ml ≤ size ∧ ((this.lenOf ml).1.sized ml).msglen + ml ≤ size := by
  have hlen : this.lenOf ml = (this.sized ml, (this.sized ml).msglen + ml) := by
    rw [lenOf, hdirty, setRemainingLength_int32 hremlen]
    rfl
  rw [hlen] at hsize ⊢
  exact ⟨hsize, hsize⟩

theorem encodeClean_done {μ : Type} (name : String) {header : Header} {state : Encoded μ}
    (hroom : header.dbuf.bytes.length ≤ state.dst.length) :
    ∃ result n, encodeClean name header state = .done result n := by
  rw [encodeClean, if_neg (not_lt.mpr hroom)]
  exact ⟨_, _, rfl⟩

section Buffers

variable {dst dst' : Bytes} {gPacketId gPacketId' : UInt64}

theorem SubscribeMessage.encode_len_of_done {this : SubscribeMessage}
    (hdst : this.len.2 ≤ dst.length)
    (hdone : ∃ state n, this.len.1.encode dst' gPacketId' = .done state n) :
    ∃ state n, this.len.1.encode dst gPacketId = .done state n := by
  by_cases hdirty : this.dirty = true
  · have hchanged : this.len.1.dirty = true := Header.dirty_lenOf hdirty _
    obtain ⟨state, n, hdone⟩ := hdone
    obtain ⟨-, hremlen, hvalid, hok, -⟩ := (encode_eq_done_iff hchanged).mp hdone
    obtain ⟨hroom, hsized⟩ := Header.room_of_lenOf hdirty hremlen hdst
    exact ⟨_, _, (encode_eq_done_iff hchanged).mpr
      ⟨hroom, hremlen, hvalid, hok, hsized, rfl, rfl⟩⟩
  · have hclean := Bool.eq_false_of_not_eq_true hdirty
    have hlen : this.len = (this, this.dbuf.bytes.length) := by
      rw [len, Header.lenOf, hclean]
      rfl
    rw [hlen] at hdst ⊢
    rw [encode, if_pos (by rw [hclean]; rfl)]
    exact encodeClean_done _ hdst

theorem UnsubscribeMessage.encode_len_of_done {this : UnsubscribeMessage}
    (hdst : this.len.2 ≤ dst.length)
    (hdone : ∃ state n, this.len.1.encode dst' gPacketId' = .done state n) :
    ∃ state n, this.len.1.encode dst gPacketId = .done state n := by
  by_cases hdirty : this.dirty = true
  · have hchanged : this.len.1.dirty = true := Header.dirty_lenOf hdirty _
    obtain ⟨state, n, hdone⟩ := hdone
    obtain ⟨-, hremlen, hvalid, hok, -⟩ := (encode_eq_done_iff hchanged).mp hdone
    obtain ⟨hroom, hsized⟩ := Header.room_of_lenOf hdirty hremlen hdst
    exact ⟨_, _, (encode_eq_done_iff hchanged).mpr
      ⟨hroom, hremlen, hvalid, hok, hsized, rfl, rfl⟩⟩
  · have hclean := Bool.eq_false_of_not_eq_true hdirty
    have hlen : this.len = (this, this.dbuf.bytes.length) := by
      rw [len, Header.lenOf, hclean]
      rfl
    rw [hlen] at hdst ⊢
    rw [encode, if_pos (by rw [hclean]; rfl)]
    exact encodeClean_done _ hdst

end Buffers

end Xmqtt.Message

namespace Xmqtt.Sessions

open Xmqtt.Go Xmqtt.Message

/-- The messages that `Wait` inserts. -/
def Waitable : Xmqtt.Message → Prop
  | .publish pm => pm.qos ≠ qosAtMostOnce
  | .subscribe _ => True
  | .unsubscribe _ => True
  | _ => False

/-- A PUBLISH with the DUP flag. -/
def DupPublish : Xmqtt.Message → Prop
  | .publish pm => pm.dup = true
  | _ => False

/-- `Encode` accepts the message, given a new buffer of `Len` bytes. -/
def CanEncode (msg : Xmqtt.Message) : Prop :=
  ∃ state n, msg.len.1.encode (List.replicate msg.len.2 0) 0 = .done state n

/-- Any other buffer that is long enough does as well. -/
theorem exists_done_iff_canEncode {msg : Xmqtt.Message} (hwaitable : Waitable msg) {dst : Bytes}
    (hdst : msg.len.2 ≤ dst.length) (gPacketId : UInt64) :
    (∃ state n, msg.len.1.encode dst gPacketId = .done state n) ↔ CanEncode msg := by
  have hfresh : msg.len.2 ≤ (List.replicate msg.len.2 (0 : Byte)).length := by
    rw [List.length_replicate]
  cases msg with
  | publish pm =>
      rw [CanEncode]
      exact exists_done_lift_iff.trans ((pm.encode_len_done_iff hdst gPacketId).trans
        ((pm.encode_len_done_iff hfresh 0).symm.trans exists_done_lift_iff.symm))
  | subscribe sm =>
      refine exists_done_lift_iff.trans (Iff.trans ?_ exists_done_lift_iff.symm)
      exact ⟨SubscribeMessage.encode_len_of_done hfresh,
        SubscribeMessage.encode_len_of_done hdst⟩
  | unsubscribe um =>
      refine exists_done_lift_iff.trans (Iff.trans ?_ exists_done_lift_iff.symm)
      exact ⟨UnsubscribeMessage.encode_len_of_done hfresh,
        UnsubscribeMessage.encode_len_of_done hdst⟩
  | _ => exact hwaitable.elim

/-! ## The pool always has a buffer -/

/-- The pool can make buffers, and those that were put back have full length. -/
structure BytesPool.Serves (bp : BytesPool) : Prop where
  width_eq : bp.width = 8192
  initialized : bp.initialized = true
  length_free : ∀ bs ∈ bp.free, (bp.bytes bs).length = 8192

namespace BytesPool.Serves

variable {bp : BytesPool}

theorem write (hserves : bp.Serves) (bs : BufferRef) (contents : Bytes) :
    (bp.write bs contents).Serves := by
  refine ⟨hserves.width_eq, hserves.initialized, ?_⟩
  intro other hother
  by_cases hbs : bs < bp.heap.length
  · rw [length_bytes_write hbs]
    exact hserves.length_free other hother
  · have hsame : bp.write bs contents = bp := by
      rw [BytesPool.write, List.set_eq_of_length_le (not_lt.mp hbs)]
    rw [hsame]
    exact hserves.length_free other hother

theorem put (hserves : bp.Serves) (buffer : Option BufferRef) : (bp.put buffer).Serves := by
  cases buffer with
  | none => exact hserves
  | some bs =>
      rw [BytesPool.put]
      split_ifs with hwidth
      · refine ⟨hserves.width_eq, hserves.initialized, ?_⟩
        intro other hother
        rcases List.mem_append.mp hother with hfree | hlast
        · exact hserves.length_free other hfree
        · rw [List.mem_singleton.mp hlast]
          exact hwidth.trans hserves.width_eq
      · exact hserves

theorem make (hserves : bp.Serves) (length : ℕ) : (bp.make length).1.Serves := by
  refine ⟨hserves.width_eq, hserves.initialized, ?_⟩
  intro other hother
  have hlength := hserves.length_free other hother
  have hlt : other < bp.heap.length := by
    by_contra hge
    rw [bytes, List.getD_eq_default _ _ (not_lt.mp hge)] at hlength
    cases hlength
  rw [bytes_make_of_lt hlt]
  exact hlength

/-- The buffer that is handed out is long enough. -/
theorem get (hserves : bp.Serves) (length choice : ℕ) :
    ∃ next bs, bp.get length choice = some (next, bs) ∧ next.Serves ∧
      length ≤ (next.bytes bs).length := by
  have hmade : ∀ size, length ≤ size → ∃ next bs, some (bp.make size) = some (next, bs) ∧
      next.Serves ∧ length ≤ (next.bytes bs).length := by
    intro size hsize
    refine ⟨(bp.make size).1, (bp.make size).2, rfl, hserves.make size, ?_⟩
    rwa [bytes_make_self, List.length_replicate]
  rw [BytesPool.get]
  by_cases hshort : length < bp.width
  · rw [if_pos hshort]
    rw [hserves.width_eq] at hshort
    cases hfree : bp.free[choice]? with
    | none =>
        rw [hserves.initialized]
        exact hmade 8192 hshort.le
    | some bs =>
        refine ⟨_, bs, rfl, ⟨hserves.width_eq, hserves.initialized, ?_⟩, ?_⟩
        · intro other hother
          exact hserves.length_free other (List.mem_of_mem_eraseIdx hother)
        · exact hshort.le.trans_eq (hserves.length_free bs (List.mem_of_getElem? hfree)).symm
  · rw [if_neg hshort]
    exact hmade length le_rfl

/-- What `Get` and `Encode` do together. -/
theorem fill (hserves : bp.Serves) (msg : Xmqtt.Message) (gPacketId : UInt64) (choice : ℕ) :
    (bp.fill msg gPacketId choice).bytesPool.Serves ∧
      ∃ old : Bytes, msg.len.2 ≤ old.length ∧
        ((bp.fill msg gPacketId choice).ending = .returned none ↔
          ∃ state n, msg.len.1.encode old gPacketId = .done state n) := by
  obtain ⟨next, bs, hget, hnext, hlength⟩ := hserves.get msg.len.2 choice
  cases hencode : msg.len.1.encode (next.bytes bs) gPacketId with
  | panic =>
      have hfill : bp.fill msg gPacketId choice = ⟨next, some bs, .panicked⟩ := by
        simp only [BytesPool.fill, hget, hencode]
      rw [hfill]
      exact ⟨hnext, next.bytes bs, hlength, by simp [hencode]⟩
  | fail state n err =>
      have hfill : bp.fill msg gPacketId choice =
          ⟨next.write bs state.dst, some bs, .returned (some err)⟩ := by
        simp only [BytesPool.fill, hget, hencode]
      rw [hfill]
      exact ⟨hnext.write bs _, next.bytes bs, hlength, by simp [hencode]⟩
  | done state n =>
      have hfill : bp.fill msg gPacketId choice =
          ⟨next.write bs state.dst, some bs, .returned none⟩ := by
        simp only [BytesPool.fill, hget, hencode]
      rw [hfill]
      exact ⟨hnext.write bs _, next.bytes bs, hlength, by simp [hencode]⟩

theorem fill_iff (hserves : bp.Serves) {msg : Xmqtt.Message} (hwaitable : Waitable msg)
    (gPacketId : UInt64) (choice : ℕ) :
    (bp.fill msg gPacketId choice).ending = .returned none ↔ CanEncode msg := by
  obtain ⟨-, old, hold, hending⟩ := hserves.fill msg gPacketId choice
  rw [hending, exists_done_iff_canEncode hwaitable hold]

theorem release (hserves : bp.Serves) (entries : List AckMsg) :
    (entries.foldl Backlog.release bp).Serves := by
  induction entries generalizing bp with
  | nil => exact hserves
  | cons entry entries ih => exact ih ((hserves.put _).put _)

end BytesPool.Serves

namespace Backlog

variable {this : Backlog} {msg : Xmqtt.Message}

theorem serves_waitInsert (hserves : this.bytesPool.Serves) (msg : Xmqtt.Message)
    (onComplete : Bool) (gPacketId : UInt64) (choice : ℕ) (now : ℤ) :
    (this.waitInsert msg onComplete gPacketId choice now).1.bytesPool.Serves := by
  rw [waitInsert, insert]
  simp only
  split_ifs
  · exact hserves
  · exact (hserves.fill msg gPacketId choice).1
  · exact (hserves.fill msg gPacketId choice).1

theorem serves_step (hserves : this.bytesPool.Serves) (call : Ackqueue.Call) :
    (this.step call).1.bytesPool.Serves := by
  cases call with
  | wait msg onComplete gPacketId choice now =>
      have hinsert := serves_waitInsert hserves msg onComplete gPacketId choice now
      change (this.wait msg onComplete gPacketId choice now).1.bytesPool.Serves
      cases msg with
      | publish pm =>
          rw [wait]
          split_ifs
          · exact hserves
          · exact hinsert
      | subscribe _ => exact hinsert
      | unsubscribe _ => exact hinsert
      | _ => exact hserves
  | ack msg gPacketId choice =>
      change (this.ack msg gPacketId choice).1.bytesPool.Serves
      rw [ack]
      split_ifs
      · exact (hserves.fill msg gPacketId choice).1
      · exact hserves
      · exact hserves
      · exact hserves
  | acked => exact hserves
  | tick now => exact hserves.release _

theorem serves_handleAll (hserves : this.bytesPool.Serves) (events : List Event) :
    (events.foldl handle this).bytesPool.Serves := by
  induction events generalizing this with
  | nil => exact hserves
  | cons event events ih =>
      apply ih
      cases event with
      | call call => exact serves_step hserves call
      | put buffer => exact hserves.put buffer

/-! ## The outcomes of `Wait` -/

theorem wait_eq_waitInsert (hwaitable : Waitable msg) (onComplete : Bool) (gPacketId : UInt64)
    (choice : ℕ) (now : ℤ) : this.wait msg onComplete gPacketId choice now =
      this.waitInsert msg onComplete gPacketId choice now := by
  cases msg with
  | publish pm => rw [wait, if_neg hwaitable]
  | subscribe _ => rfl
  | unsubscribe _ => rfl
  | _ => exact hwaitable.elim

/-- A repetition is dropped, and the error with it. -/
theorem wait_of_pending (hwaitable : Waitable msg) (hwaits : this.Waits msg.packetId)
    (onComplete : Bool) (gPacketId : UInt64) (choice : ℕ) (now : ℤ) :
    this.wait msg onComplete gPacketId choice now = (this, .returned none) := by
  rw [wait_eq_waitInsert hwaitable, waitInsert, insert, if_pos hwaits]
  rfl

theorem wait_of_new (hserves : this.bytesPool.Serves) (hwaitable : Waitable msg)
    (hnew : ¬ this.Waits msg.packetId) (hcan : CanEncode msg) (onComplete : Bool)
    (gPacketId : UInt64) (choice : ℕ) (now : ℤ) :
    (this.wait msg onComplete gPacketId choice now).1.entries =
        this.entries ++ [.waiting msg (this.bytesPool.fill msg gPacketId choice).buffer
          onComplete now] ∧
      (this.wait msg onComplete gPacketId choice now).2 = .returned none := by
  have hfilled := (hserves.fill_iff hwaitable gPacketId choice).mpr hcan
  rw [wait_eq_waitInsert hwaitable, waitInsert, insert, if_neg hnew]
  simp only
  rw [if_pos hfilled]
  exact ⟨rfl, rfl⟩

/-- Whatever `insert` says, no error comes out of `Wait`. -/
theorem wait_ne_error (hwaitable : Waitable msg) (onComplete : Bool) (gPacketId : UInt64)
    (choice : ℕ) (now : ℤ) (err : Err) :
    (this.wait msg onComplete gPacketId choice now).2 ≠ .returned (some err) := by
  rw [wait_eq_waitInsert hwaitable, waitInsert]
  simp only
  cases (this.insert msg onComplete gPacketId choice now).2 with
  | returned result | panicked => simp [Ackqueue.dropError]

end Backlog

/-! ## Reports -/

namespace Ackqueue

/-- A message with the packet id is pending. -/
def Pends (this : Ackqueue) (pktid : ℕ) : Prop := ∃ entry ∈ this.waiting, entry.pktid = pktid

/-- `nil` stands for a message that is pending now, because it was stored or because it is
the repetition of one that was pending; a repetition without DUP and a message that cannot
be encoded are reported and change nothing. -/
structure Reports (this : Ackqueue) (msg : Xmqtt.Message) (onComplete : Bool)
    (gPacketId : UInt64) (choice : ℕ) (now : ℤ) : Prop where
  nil_iff : (this.wait msg onComplete gPacketId choice now).2 = .returned none ↔
    (this.wait msg onComplete gPacketId choice now).1.Pends msg.packetId ∧
      ((¬ this.Pends msg.packetId ∧ ∃ buffer,
          (this.wait msg onComplete gPacketId choice now).1.waiting =
            this.waiting ++ [.waiting msg buffer onComplete now]) ∨
        (DupPublish msg ∧ this.Pends msg.packetId ∧
          (this.wait msg onComplete gPacketId choice now).1.waiting = this.waiting))
  error_of : (this.Pends msg.packetId ∧ ¬ DupPublish msg) ∨ ¬ CanEncode msg →
    (∃ err, (this.wait msg onComplete gPacketId choice now).2 = .returned (some err)) ∧
      (this.wait msg onComplete gPacketId choice now).1.waiting = this.waiting

end Ackqueue

theorem Represents.pends_iff {queue : Ackqueue} {backlog : Backlog}
    (hrep : Represents queue backlog) (pktid : ℕ) : queue.Pends pktid ↔ backlog.Waits pktid := by
  rw [Ackqueue.Pends, hrep.waiting_eq, Backlog.Waits]

/-- Nothing is reported, so the report is right where nothing is to be reported. -/
theorem Represents.reports_iff {queue : Ackqueue} {backlog : Backlog}
    (hrep : Represents queue backlog) (hserves : backlog.bytesPool.Serves)
    {msg : Xmqtt.Message} (hwaitable : Waitable msg) (onComplete : Bool) (gPacketId : UInt64)
    (choice : ℕ) (now : ℤ) :
    queue.Reports msg onComplete gPacketId choice now ↔
      CanEncode msg ∧ (queue.Pends msg.packetId → DupPublish msg) := by
  obtain ⟨hnext, hending⟩ := hrep.wait msg onComplete gPacketId choice now
  constructor
  · intro hreports
    have hquiet : ¬ ((queue.Pends msg.packetId ∧ ¬ DupPublish msg) ∨ ¬ CanEncode msg) := by
      intro hcase
      obtain ⟨⟨err, herr⟩, -⟩ := hreports.error_of hcase
      exact Backlog.wait_ne_error hwaitable onComplete gPacketId choice now err
        (hending.symm.trans herr)
    exact ⟨not_not.mp fun hcannot => hquiet (Or.inr hcannot),
      fun hpends => not_not.mp fun hdup => hquiet (Or.inl ⟨hpends, hdup⟩)⟩
  · rintro ⟨hcan, hdup⟩
    refine ⟨?_, ?_⟩
    · by_cases hpends : queue.Pends msg.packetId
      · have hwait := Backlog.wait_of_pending hwaitable ((hrep.pends_iff _).mp hpends)
          onComplete gPacketId choice now
        rw [hwait] at hnext hending
        have hsame : (queue.wait msg onComplete gPacketId choice now).1.waiting =
            queue.waiting := hnext.waiting_eq.trans hrep.waiting_eq.symm
        refine ⟨fun _ => ⟨?_, Or.inr ⟨hdup hpends, hpends, hsame⟩⟩, fun _ => hending⟩
        rw [Ackqueue.Pends, hsame]
        exact hpends
      · obtain ⟨hentries, hdone⟩ := Backlog.wait_of_new hserves hwaitable
          (mt (hrep.pends_iff _).mpr hpends) hcan onComplete gPacketId choice now
        have hstored := hnext.waiting_eq
        rw [hentries, ← hrep.waiting_eq] at hstored
        refine ⟨fun _ => ⟨?_, Or.inl ⟨hpends, _, hstored⟩⟩, fun _ => hending.trans hdone⟩
        rw [Ackqueue.Pends, hstored]
        exact ⟨_, List.mem_append_right _ (List.mem_singleton.mpr rfl), rfl⟩
    · rintro (⟨hpends, hnot⟩ | hcannot)
      · exact absurd (hdup hpends) hnot
      · exact absurd hcan hcannot

theorem serves_reached (events : List Event) :
    (events.foldl Backlog.handle (.new "Pub1ack")).bytesPool.Serves :=
  Backlog.serves_handleAll ⟨rfl, rfl, by simp [Backlog.new]⟩ events

/-- In every queue that can be reached `Wait` reports what it did exactly if the message can
be encoded and its packet id is new, or else it is a PUBLISH with the DUP flag. -/
theorem Ackqueue.reports_reached_iff (events : List Event) (msg : Xmqtt.Message)
    (hwaitable : Waitable msg) (onComplete : Bool) (gPacketId : UInt64) (choice : ℕ) (now : ℤ) :
    (reached events).Reports msg onComplete gPacketId choice now ↔
      CanEncode msg ∧ ((reached events).Pends msg.packetId → DupPublish msg) :=
  (Represents.reached events).reports_iff (serves_reached events) hwaitable onComplete
    gPacketId choice now

theorem waitable_publishQos1 : Waitable (.publish (Ackqueue.publishQos1 7)) := by
  change (Ackqueue.publishQos1 7).qos ≠ qosAtMostOnce
  decide +kernel

theorem canEncode_publishQos1 : CanEncode (.publish (Ackqueue.publishQos1 7)) := by
  have hroom : (Ackqueue.publishQos1 7).len.2 ≤
      (List.replicate (Ackqueue.publishQos1 7).len.2 (0 : Byte)).length := by
    rw [List.length_replicate]
  apply exists_done_lift_iff.mpr
  exact ((Ackqueue.publishQos1 7).encode_len_done_iff hroom 0).mpr (by decide +kernel)

/-- A QoS 1 PUBLISH with the packet id 9 is pending. -/
def ninePending : List Event :=
  [.call (.wait (.publish (Ackqueue.publishQos1 9)) true 0 0 0)]

/-- A PUBLISH behind another one that is pending. -/
theorem Ackqueue.reports_reached_iff_second :
    (reached ninePending).waiting.map AckMsg.pktid = [9] ∧
      (reached ninePending).Reports (.publish (publishQos1 7)) true 0 0 0 := by
  have hids : (reached ninePending).waiting.map AckMsg.pktid = [9] := by decide +kernel
  refine ⟨hids, (reports_reached_iff _ _ waitable_publishQos1 true 0 0 0).mpr
    ⟨canEncode_publishQos1, ?_⟩⟩
  rintro ⟨entry, hmem, hid⟩
  have hnine : entry.pktid ∈ [9] := hids ▸ List.mem_map_of_mem hmem
  rw [hid] at hnine
  exact absurd hnine (by decide +kernel)

/-- A second PUBLISH with a packet id that is pending is dropped, and `Wait` returns `nil`. -/
theorem Ackqueue.repetition_not_reported :
    ¬ (reached [.call (.wait (.publish (publishQos1 7)) true 0 0 0)]).Reports
      (.publish (publishQos1 7)) true 0 0 0 := by
  have hids : (reached [.call (.wait (.publish (publishQos1 7)) true 0 0 0)]).waiting.map
      AckMsg.pktid = [(Xmqtt.Message.publish (publishQos1 7)).packetId] := by
    decide +kernel
  intro hreports
  have hdup := (((Represents.reached _).reports_iff (serves_reached _) waitable_publishQos1
    true 0 0 0).mp hreports).2
  have hpends : (reached [.call (.wait (.publish (publishQos1 7)) true 0 0 0)]).Pends
      (Xmqtt.Message.publish (publishQos1 7)).packetId := by
    apply List.mem_map.mp
    rw [hids]
    exact List.mem_singleton.mpr rfl
  have hflag : (publishQos1 7).dup = true := hdup hpends
  exact absurd hflag (by decide +kernel)

end Xmqtt.Sessions
