import Xmqtt.Sessions.InFlight

/-!
# What comes back from the ack queue

Whatever the goroutines do in between, the entries that the receiver takes give
back the messages that were given to `Wait`, provided that `PushMsg` can have
built these.
-/

namespace Xmqtt.Sessions

open Xmqtt.Go Xmqtt.Message

/-- Every entry carries the message of the pending one beside it. -/
def CarryAll (fits : PublishMessage → Prop) (bp : BytesPool) (entries : List AckMsg)
    (pending : List Pending) : Prop :=
  List.Forall₂ (fun entry pending => Carries fits bp entry pending.msg) entries pending

theorem CarryAll.of_bytes_eq {fits : PublishMessage → Prop} {bp next : BytesPool}
    {entries : List AckMsg} {pending : List Pending}
    (hcarry : CarryAll fits bp entries pending)
    (hbytes : ∀ bs ∈ entries.flatMap AckMsg.buffers, next.bytes bs = bp.bytes bs) :
    CarryAll fits next entries pending := by
  induction hcarry with
  | nil => exact List.Forall₂.nil
  | cons hhead _ ih =>
      rw [List.flatMap_cons] at hbytes
      exact List.Forall₂.cons
        (hhead.of_bytes_eq fun bs hbs => hbytes bs (List.mem_append_left _ hbs))
        (ih fun bs hbs => hbytes bs (List.mem_append_right _ hbs))

/-- Entries that leave from the front, on both sides alike. -/
theorem CarryAll.leave {fits : PublishMessage → Prop} {bp : BytesPool}
    {entries : List AckMsg} {pending : List Pending} (hcarry : CarryAll fits bp entries pending)
    (hbare : entries.map AckMsg.bare = pending.map Pending.entry) (goes : AckMsg → Bool)
    (hgoes : ∀ am : AckMsg, goes am.bare = goes am) :
    CarryAll fits bp (entries.takeWhile goes) (pending.takeWhile (goes ∘ Pending.entry)) ∧
      CarryAll fits bp (entries.dropWhile goes)
        (pending.dropWhile (goes ∘ Pending.entry)) := by
  induction hcarry with
  | nil => exact ⟨List.Forall₂.nil, List.Forall₂.nil⟩
  | @cons entry first entries pending hhead htail ih =>
      injection hbare with hfirst hrest
      have hsame : (goes ∘ Pending.entry) first = goes entry := by
        rw [Function.comp_apply, ← hfirst, hgoes]
      rw [List.takeWhile_cons, List.takeWhile_cons, List.dropWhile_cons, List.dropWhile_cons,
        hsame]
      by_cases hgo : goes entry = true
      · rw [if_pos hgo, if_pos hgo, if_pos hgo, if_pos hgo]
        exact ⟨List.Forall₂.cons hhead (ih hrest).1, (ih hrest).2⟩
      · rw [if_neg hgo, if_neg hgo, if_neg hgo, if_neg hgo]
        exact ⟨List.Forall₂.nil, List.Forall₂.cons hhead htail⟩

/-- Completed entries that the receiver has not read yet, and the pending messages that
they stand for. -/
structure StandFor (fits : PublishMessage → Prop) (bp : BytesPool) (taken : List AckMsg)
    (given : List Pending) : Prop where
  carry : CarryAll fits bp taken given
  bare : taken.map AckMsg.bare = given.map Pending.entry
  completed : ∀ entry ∈ taken, Backlog.completed entry = true

theorem StandFor.tail {fits : PublishMessage → Prop} {bp : BytesPool} {taken : List AckMsg}
    {given : List Pending} (hstand : StandFor fits bp taken given) :
    StandFor fits bp taken.tail given.tail where
  carry := by
    rw [CarryAll, ← List.drop_one, ← List.drop_one]
    exact List.forall₂_drop 1 hstand.carry
  bare := by rw [List.map_tail, List.map_tail, hstand.bare]
  completed := fun entry hmem => hstand.completed entry (List.mem_of_mem_tail hmem)

/-- The entries that are still to be decoded: all, or all but the one in front. -/
def unread {α : Type} : Phase → List α → List α
  | .decoding, taken => taken
  | _, taken => taken.tail

/-- The invariant of the runs, with the backlog behind the ring. -/
structure Sound (fits : PublishMessage → Prop) (backlog : Backlog) (state : InFlight) :
    Prop where
  represents : Represents state.queue backlog
  refines : Matches backlog state.fifo
  owns : BytesPool.Owns
    (held state.phase state.taken ++ backlog.entries.flatMap AckMsg.buffers) backlog.bytesPool
  carry : CarryAll fits backlog.bytesPool backlog.entries state.fifo.pending
  taken : StandFor fits backlog.bytesPool (unread state.phase state.taken)
    (unread state.phase state.given)

/-- The buffers of the entries that are still to be decoded are held. -/
theorem unread_buffers_subset (phase : Phase) (taken : List AckMsg) :
    (unread phase taken).flatMap AckMsg.buffers ⊆ held phase taken := by
  cases phase with
  | decoding => exact List.Subset.refl _
  | puttingAckbuf | puttingMsgbuf =>
      cases taken with
      | nil => exact List.Subset.refl _
      | cons ackmsg rest => exact List.subset_append_right _ _

namespace Sound

variable {fits : PublishMessage → Prop} {backlog : Backlog} {state : InFlight}

theorem new : Sound fits (.new "Pub1ack") .new where
  represents := Represents.new
  refines := Matches.new
  owns := BytesPool.Owns.new
  carry := List.Forall₂.nil
  taken := ⟨List.Forall₂.nil, rfl, by simp [InFlight.new, unread]⟩

/-- Another pool in which the buffers in use are what they were. -/
theorem standFor_of_bytes_eq (hsound : Sound fits backlog state) {next : BytesPool}
    (hbytes : ∀ bs ∈ held state.phase state.taken ++
      backlog.entries.flatMap AckMsg.buffers, next.bytes bs = backlog.bytesPool.bytes bs) :
    CarryAll fits next backlog.entries state.fifo.pending ∧
      StandFor fits next (unread state.phase state.taken) (unread state.phase state.given) := by
  refine ⟨hsound.carry.of_bytes_eq fun bs hbs => hbytes bs (List.mem_append_right _ hbs), ?_⟩
  refine ⟨hsound.taken.carry.of_bytes_eq fun bs hbs => ?_, hsound.taken.bare,
    hsound.taken.completed⟩
  exact hbytes bs (List.mem_append_left _ (unread_buffers_subset _ _ hbs))

/-- `Wait` on a PUBLISH. -/
theorem wait (hsound : Sound fits backlog state) {pm : PublishMessage} (hmade : pm.Made)
    (hid : pm.packetIdValue ≠ 0) (hfits : fits pm) (onComplete : Bool) (gPacketId : UInt64)
    (choice : ℕ) (now : ℤ) :
    Sound fits (backlog.wait (.publish pm) onComplete gPacketId choice now).1
      { state with
        queue := (state.queue.wait (.publish pm) onComplete gPacketId choice now).1
        fifo := state.fifo.wait (.publish pm) onComplete now } := by
  have hrep := (hsound.represents.wait (.publish pm) onComplete gPacketId choice now).1
  have hmatches := hsound.refines.wait hsound.owns pm onComplete gPacketId choice now
  have hwaits := hsound.refines.waits_iff (Xmqtt.Message.publish pm).packetId
  by_cases hrefused : pm.qos = qosAtMostOnce ∨
      backlog.Waits (Xmqtt.Message.publish pm).packetId
  · rw [Backlog.wait_publish_of_refused hrefused] at hrep hmatches ⊢
    rw [Fifo.wait_of_refused (hsound.refines.refused hrefused)] at hmatches ⊢
    exact ⟨hrep, hmatches, hsound.owns, hsound.carry, hsound.taken⟩
  obtain ⟨hqos, hnew⟩ := not_or.mp hrefused
  obtain ⟨bs, old, hbuffer, howns, hsame, hlength, -, hfilled⟩ :=
    hsound.owns.fill (.publish pm) gPacketId choice
  obtain ⟨hcarry, htaken⟩ := hsound.standFor_of_bytes_eq hsame
  rw [Backlog.wait_publish hsound.owns hqos hnew] at hrep hmatches ⊢
  by_cases hencodes : pm.encodes = true
  · have haccepts : Fifo.accepts (.publish pm) = true := by
      simp [Fifo.accepts, hqos, hencodes]
    rw [if_pos hencodes] at hrep hmatches ⊢
    rw [Fifo.wait_of_accepts haccepts (hwaits.not.mp hnew)] at hmatches ⊢
    refine ⟨hrep, hmatches, ?_, ?_, htaken⟩
    · apply howns.perm
      rw [hbuffer, List.flatMap_append, List.flatMap_singleton, ← List.append_assoc]
      exact (List.perm_append_singleton bs _).symm
    · obtain ⟨message, counter, n, hdone, hle⟩ := pm.encode_len hencodes hlength gPacketId
      have hstored := hfilled _ n (lift_eq_done_iff.mpr ⟨_, hdone, rfl⟩) (by
        simp only [List.length_append, List.length_drop]
        omega)
      rw [hbuffer]
      apply List.rel_append hcarry
      exact List.Forall₂.cons (.waiting hmade hqos hid hencodes hfits hstored onComplete now)
        List.Forall₂.nil
  · have haccepts : Fifo.accepts (.publish pm) = false := by
      simp [Fifo.accepts, hencodes]
    rw [if_neg hencodes] at hrep hmatches ⊢
    rw [Fifo.wait_of_refused (Or.inl haccepts)] at hmatches ⊢
    exact ⟨hrep, hmatches, howns.sublist (List.sublist_cons_self _ _), hcarry, htaken⟩

/-- `Ack` with an acknowledgement. -/
theorem ack (hsound : Sound fits backlog state) {mtype : MessageType}
    {wrap : PubackMessage → Xmqtt.Message} {this : PubackMessage} (hkind : AckKind mtype wrap)
    (hmade : this.Made mtype) (gPacketId : UInt64) (choice : ℕ) :
    Sound fits (backlog.ack (wrap this) gPacketId choice).1
      { state with
        queue := (state.queue.ack (wrap this) gPacketId choice).1
        fifo := state.fifo.ack (wrap this).type (wrap this).packetId } := by
  have hrep := (hsound.represents.ack (wrap this) gPacketId choice).1
  have hmatches := hsound.refines.ack (wrap this) gPacketId choice
  have hacks : Ackqueue.acksEntry (wrap this).type = true := by
    rw [hkind.type hmade]
    cases hkind <;> rfl
  have hmsg : ∀ pending : Pending, (if pending.pktid = (wrap this).packetId then
      { pending with latest := (wrap this).type } else pending).msg = pending.msg := by
    intro pending
    split_ifs <;> rfl
  rw [Fifo.ack, if_pos hacks] at hmatches ⊢
  by_cases hwaits : backlog.Waits (wrap this).packetId
  · obtain ⟨bs, old, hbuffer, howns, hsame, hlength, -, hfilled⟩ :=
      hsound.owns.fill (wrap this) gPacketId choice
    obtain ⟨hcarry, htaken⟩ := hsound.standFor_of_bytes_eq hsame
    rw [hkind.len] at hlength hfilled
    obtain ⟨message, counter, n, hdone, hle⟩ := hmade.encode_len hkind.valid hlength gPacketId
    have hstored := hfilled _ n
      (by rw [hkind.encode]; exact lift_eq_done_iff.mpr ⟨_, hdone, rfl⟩) (by
        simp only [List.length_append, List.length_drop]
        omega)
    rw [Backlog.ack_of_waits hacks hwaits, hbuffer] at hrep hmatches ⊢
    refine ⟨hrep, hmatches, ?_, ?_, htaken⟩
    · obtain ⟨entry, hmem, hid⟩ := hwaits
      rw [← hid]
      exact howns.answer hsound.represents.nodup hmem _
    · rw [CarryAll, Backlog.answer, List.forall₂_map_left_iff, List.forall₂_map_right_iff]
      apply List.Forall₂.imp _ hcarry
      intro entry pending hcarries
      rw [hmsg]
      split_ifs with hid
      · rw [hkind.type hmade]
        exact hcarries.answered hkind hmade (hid.trans hkind.packetId) hstored
      · exact hcarries
  · rw [Backlog.ack_of_unknown hacks hwaits] at hrep hmatches ⊢
    refine ⟨hrep, hmatches, hsound.owns, ?_, hsound.taken⟩
    rw [CarryAll, List.forall₂_map_right_iff]
    apply List.Forall₂.imp _ hsound.carry
    intro entry pending hcarries
    rwa [hmsg]

theorem ack_returned (hsound : Sound fits backlog state) {mtype : MessageType}
    {wrap : PubackMessage → Xmqtt.Message} {this : PubackMessage} (hkind : AckKind mtype wrap)
    (hmade : this.Made mtype) (gPacketId : UInt64) (choice : ℕ) :
    (state.queue.ack (wrap this) gPacketId choice).2 = .returned none := by
  have hacks : Ackqueue.acksEntry (wrap this).type = true := by
    rw [hkind.type hmade]
    cases hkind <;> rfl
  rw [(hsound.represents.ack (wrap this) gPacketId choice).2]
  by_cases hwaits : backlog.Waits (wrap this).packetId
  · obtain ⟨bs, old, -, -, -, hlength, hending, -⟩ :=
      hsound.owns.fill (wrap this) gPacketId choice
    rw [hkind.len] at hlength hending
    obtain ⟨message, counter, n, hdone, -⟩ := hmade.encode_len hkind.valid hlength gPacketId
    rw [Backlog.ack_of_waits hacks hwaits]
    exact hending.mpr ⟨_, n, (hkind.encode old gPacketId).trans
      (lift_eq_done_iff.mpr ⟨_, hdone, rfl⟩)⟩
  · rw [Backlog.ack_of_unknown hacks hwaits]

/-- `Ack` with a message that acknowledges no entry. -/
theorem ack_of_not (hsound : Sound fits backlog state) {msg : Xmqtt.Message}
    (hnot : Ackqueue.acksEntry msg.type = false) (gPacketId : UInt64) (choice : ℕ) :
    Sound fits (backlog.ack msg gPacketId choice).1
      { state with
        queue := (state.queue.ack msg gPacketId choice).1
        fifo := state.fifo.ack msg.type msg.packetId } := by
  have hrep := (hsound.represents.ack msg gPacketId choice).1
  have hmatches := hsound.refines.ack msg gPacketId choice
  have hacks : ¬ Ackqueue.acksEntry msg.type = true := ne_true_of_eq_false hnot
  rw [Backlog.ack, if_neg hacks] at hrep hmatches ⊢
  rw [Fifo.ack, if_neg hacks] at hmatches ⊢
  by_cases hping : msg.type = .pingresp
  · rw [if_pos hping] at hrep hmatches ⊢
    exact ⟨hrep, hmatches, hsound.owns, hsound.carry, hsound.taken⟩
  · rw [if_neg hping] at hrep hmatches ⊢
    exact ⟨hrep, hmatches, hsound.owns, hsound.carry, hsound.taken⟩

/-- A tick of the goroutine that lets entries expire. -/
theorem clear (hsound : Sound fits backlog state) (now : ℤ) :
    Sound fits (backlog.clear now)
      { state with
        queue := state.queue.clear now
        fifo := state.fifo.step (.tick now) } := by
  obtain ⟨hcarry, htaken⟩ := hsound.standFor_of_bytes_eq
    fun bs _ => BytesPool.bytes_release (backlog.entries.takeWhile (Backlog.expired now)) _ bs
  refine ⟨hsound.represents.clear now, hsound.refines.clear now, ?_, ?_, htaken⟩
  · apply BytesPool.Owns.release
    apply hsound.owns.perm
    rw [flatMap_while (Backlog.expired now), ← List.append_assoc, ← List.append_assoc]
    exact List.perm_append_comm.append_right _
  · exact (hcarry.leave hsound.refines.entries (Backlog.expired now) fun _ => rfl).2

/-- `Acked`, called by a receiver that is through with its entries. -/
theorem acked (hsound : Sound fits backlog state) (hthrough : state.taken = []) :
    ∃ next, state.acked = some next ∧ next.phase = .decoding ∧
      next.given = state.fifo.pending.takeWhile Pending.completed ∧
      Sound fits backlog.acked.1 next := by
  obtain ⟨hrep, hreply⟩ := hsound.represents.acked
  obtain ⟨hmatches, ackdone, hackdone, hbare⟩ := hsound.refines.acked
  obtain ⟨hgo, hstay⟩ :=
    hsound.carry.leave hsound.refines.entries Backlog.completed fun _ => rfl
  have htake : ackdone = backlog.entries.takeWhile Backlog.completed := by
    rw [Backlog.acked, hsound.refines.ping] at hackdone
    injection hackdone with htake
    exact htake.symm
  have howns := hsound.owns
  rw [hthrough, held_nil, List.nil_append, flatMap_while Backlog.completed] at howns
  refine ⟨⟨state.queue.acked.1, ackdone, .decoding, state.fifo.step .acked,
    state.fifo.pending.takeWhile Pending.completed⟩, ?_, rfl, rfl, hrep, hmatches, ?_, hstay,
    ?_⟩
  · rw [InFlight.acked, if_pos hthrough]
    rw [hackdone] at hreply
    have hpair : state.queue.acked = (state.queue.acked.1, .acked ackdone) :=
      Prod.ext rfl hreply
    rw [hpair]
  · rw [htake]
    exact howns
  · rw [htake] at hbare ⊢
    exact ⟨hgo, hbare, fun entry hmem => List.mem_takeWhile_imp hmem⟩

/-- The pool has taken a buffer back that the receiver held. -/
theorem put (hsound : Sound fits backlog state) {slice : Option BufferRef} {next : InFlight}
    (hqueue : next.queue = { state.queue with bytesPool := state.queue.bytesPool.put slice })
    (hfifo : next.fifo = state.fifo)
    (hheld : (held state.phase state.taken).Perm
      (slice.toList ++ held next.phase next.taken))
    (htaken : unread next.phase next.taken = unread state.phase state.taken)
    (hgiven : unread next.phase next.given = unread state.phase state.given) :
    Sound fits { backlog with bytesPool := backlog.bytesPool.put slice } next := by
  obtain ⟨hcarry, hstand⟩ :=
    hsound.standFor_of_bytes_eq fun bs _ => backlog.bytesPool.bytes_put slice bs
  constructor
  case represents =>
    rw [hqueue, hsound.represents.bytesPool_eq]
    exact hsound.represents.withPool _
  case refines =>
    rw [hfifo]
    exact ⟨hsound.refines.entries, hsound.refines.ping⟩
  case owns =>
    apply BytesPool.Owns.putOption
    apply hsound.owns.perm
    rw [← List.append_assoc]
    exact hheld.append_right _
  case carry =>
    rw [hfifo]
    exact hcarry
  case taken =>
    rw [htaken, hgiven]
    exact hstand

/-- The receiver drops entries that it cannot read. -/
theorem skip (hsound : Sound fits backlog state) {taken : List AckMsg} {given : List Pending}
    (hheld : (taken.flatMap AckMsg.buffers).Sublist (held state.phase state.taken))
    (hstand : StandFor fits backlog.bytesPool taken given) :
    Sound fits backlog ⟨state.queue, taken, .decoding, state.fifo, given⟩ :=
  ⟨hsound.represents, hsound.refines, hsound.owns.sublist (hheld.append_right _),
    hsound.carry, hstand⟩

/-- The receiver decodes the entry in front. -/
theorem process (hsound : Sound fits backlog state) {next : InFlight}
    (hstep : state.step .process = some next) : Sound fits backlog next := by
  obtain ⟨queue, taken, phase, fifo, given⟩ := state
  cases phase with
  | puttingAckbuf | puttingMsgbuf => exact absurd hstep (by simp [InFlight.step])
  | decoding =>
      cases taken with
      | nil => exact absurd hstep (by simp [InFlight.step])
      | cons ackmsg rest =>
          rw [InFlight.step] at hstep
          cases hreading : processEntry queue.bytesPool ackmsg with
          | read msg ack =>
              simp only [hreading, Option.some.injEq] at hstep
              rw [← hstep]
              exact ⟨hsound.represents, hsound.refines, hsound.owns, hsound.carry,
                hsound.taken.tail⟩
          | skipped =>
              simp only [hreading, Option.some.injEq] at hstep
              rw [← hstep]
              exact hsound.skip (List.sublist_append_right _ _) hsound.taken.tail
          | panicked =>
              simp only [hreading, Option.some.injEq] at hstep
              rw [← hstep]
              exact hsound.skip (List.nil_sublist _) ⟨List.Forall₂.nil, rfl, by simp⟩

theorem putAckbuf (hsound : Sound fits backlog state) {next : InFlight}
    (hstep : state.step .putAckbuf = some next) : ∃ backlog, Sound fits backlog next := by
  obtain ⟨queue, taken, phase, fifo, given⟩ := state
  cases phase with
  | decoding | puttingMsgbuf => exact absurd hstep (by simp [InFlight.step])
  | puttingAckbuf =>
      cases taken with
      | nil => exact absurd hstep (by simp [InFlight.step])
      | cons ackmsg rest =>
          injection hstep with hnext
          rw [← hnext]
          refine ⟨_, hsound.put rfl rfl ?_ rfl rfl⟩
          change (ackmsg.buffers ++ _).Perm (_ ++ (_ ++ _))
          rw [AckMsg.buffers, ← List.append_assoc]
          exact List.perm_append_comm.append_right _

theorem putMsgbuf (hsound : Sound fits backlog state) {next : InFlight}
    (hstep : state.step .putMsgbuf = some next) : ∃ backlog, Sound fits backlog next := by
  obtain ⟨queue, taken, phase, fifo, given⟩ := state
  cases phase with
  | decoding | puttingAckbuf => exact absurd hstep (by simp [InFlight.step])
  | puttingMsgbuf =>
      cases taken with
      | nil => exact absurd hstep (by simp [InFlight.step])
      | cons ackmsg rest =>
          injection hstep with hnext
          rw [← hnext]
          exact ⟨_, hsound.put rfl rfl (List.Perm.refl _) rfl rfl⟩

/-- Every step of a session keeps the invariant. -/
theorem step (hsound : Sound fits backlog state) {label : InFlightStep} {next : InFlight}
    (hadmitted : Admitted fits label) (hstep : state.step label = some next) :
    ∃ backlog, Sound fits backlog next := by
  cases label with
  | call call =>
      cases call with
      | wait msg onComplete gPacketId choice now =>
          obtain ⟨pm, rfl, hmade, hid, hfits⟩ := hadmitted
          injection hstep with hnext
          exact ⟨_, hnext ▸ hsound.wait hmade hid hfits onComplete gPacketId choice now⟩
      | ack msg gPacketId choice =>
          injection hstep with hnext
          rcases hadmitted with hnot | ⟨mtype, wrap, this, hkind, hmade, rfl⟩
          · exact ⟨_, hnext ▸ hsound.ack_of_not hnot gPacketId choice⟩
          · exact ⟨_, hnext ▸ hsound.ack hkind hmade gPacketId choice⟩
      | acked =>
          have hthrough : state.taken = [] := by
            by_contra hnot
            rw [InFlight.step, InFlight.acked, if_neg hnot] at hstep
            exact absurd hstep (by simp)
          obtain ⟨after, hacked, -, -, hafter⟩ := hsound.acked hthrough
          have hnext : next = after := Option.some.inj (hstep.symm.trans hacked)
          exact ⟨_, hnext ▸ hafter⟩
      | tick now =>
          injection hstep with hnext
          exact ⟨_, hnext ▸ hsound.clear now⟩
  | process => exact ⟨backlog, hsound.process hstep⟩
  | putAckbuf => exact hsound.putAckbuf hstep
  | putMsgbuf => exact hsound.putMsgbuf hstep

end Sound

def IsSound (fits : PublishMessage → Prop) (state : InFlight) : Prop :=
  ∃ backlog, Sound fits backlog state

/-- Every state that a session reaches is sound. -/
theorem isSound_of_run {fits : PublishMessage → Prop} {labels : List InFlightStep}
    {last : InFlight} (hadmitted : ∀ label ∈ labels, Admitted fits label)
    (hrun : Core.run InFlight.step .new labels = some last) : IsSound fits last := by
  have hstep : ∀ state label next, IsSound fits state → Admitted fits label →
      InFlight.step state label = some next → IsSound fits next := by
    rintro state label next ⟨backlog, hsound⟩ hlabel hnext
    exact hsound.step hlabel hnext
  exact Core.run_invariant hstep ⟨_, Sound.new⟩
    (Core.along_of_forall (fun label hmem _ => hadmitted label hmem) _) hrun

/-- No buffer has two owners, and the entry that the receiver is about to decode gives back
the PUBLISH that was given to `Wait` and an ack with its packet id. -/
structure InFlight.Intact (state : InFlight) : Prop where
  owned : (state.inUse ++ state.queue.bytesPool.free).Nodup
  content : state.phase = .decoding → ∀ entry rest, state.taken = entry :: rest →
    ∃ pending more pm decoded ack, state.given = pending :: more ∧
      pending.msg = .publish pm ∧ entry.bare = pending.entry ∧
      processEntry state.queue.bytesPool entry = .read (.publish decoded) ack ∧
      decoded.content = pm.content ∧ ack.packetId = pm.packetIdValue

theorem Sound.owned {fits : PublishMessage → Prop} {backlog : Backlog} {state : InFlight}
    (hsound : Sound fits backlog state) :
    (state.inUse ++ state.queue.bytesPool.free).Nodup := by
  rw [InFlight.inUse, hsound.represents.waiting_eq, hsound.represents.bytesPool_eq]
  exact hsound.owns.nodup

/-- The content of what is in flight is kept in every run of a session whose messages are
such as `PushMsg` builds. -/
theorem intact_of_run {labels : List InFlightStep} {last : InFlight}
    (hadmitted : ∀ label ∈ labels, Admitted Pushable label)
    (hrun : Core.run InFlight.step .new labels = some last) : last.Intact := by
  obtain ⟨backlog, hsound⟩ := isSound_of_run hadmitted hrun
  refine ⟨hsound.owned, fun hphase entry rest htaken => ?_⟩
  have hstand := hsound.taken
  rw [hphase, htaken] at hstand
  obtain ⟨hcarry, hbare, hcompleted⟩ := hstand
  cases hgiven : last.given with
  | nil =>
      rw [hgiven] at hbare
      exact absurd hbare (by simp [unread])
  | cons pending more =>
      rw [hgiven] at hcarry hbare
      obtain ⟨hcarries, -⟩ := List.forall₂_cons.mp hcarry
      injection hbare with hentry
      obtain ⟨pm, decoded, ack, hmsg, hread, hcontent, hid⟩ :=
        hcarries.processEntry_eq (fun _ => Pushable.msglen_lt)
          (hcompleted entry List.mem_cons_self)
      rw [← hsound.represents.bytesPool_eq] at hread
      exact ⟨pending, more, pm, decoded, ack, rfl, hmsg, hentry, hread, hcontent, hid⟩

theorem made_publishQos1 (id : UInt16) : (Ackqueue.publishQos1 id).Made :=
  .perform (.perform (.perform (.perform .new (.qos 1)) (.topic [0x61])) (.payload [0x78]))
    (.packetId id)

/-- Two messages one after the other, the second in the buffers of the first. -/
def oneByOne : List InFlightStep :=
  [.call (.wait (.publish (Ackqueue.publishQos1 7)) true 0 0 0),
    .call (.ack (.puback (newPubackMessage.setPacketId 7)) 0 0), .call .acked,
    .process, .putAckbuf, .putMsgbuf,
    .call (.wait (.publish (Ackqueue.publishQos1 9)) true 0 1 0),
    .call (.ack (.puback (newPubackMessage.setPacketId 9)) 0 0), .call .acked]

theorem intact_of_run_oneByOne :
    ∃ last, Core.run InFlight.step .new oneByOne = some last ∧
      last.taken.map AckMsg.buffers = [[0, 1]] ∧ last.Intact := by
  have hrun : (Core.run InFlight.step .new oneByOne).map
      (fun state => state.taken.map AckMsg.buffers) = some [[0, 1]] := by decide +kernel
  obtain ⟨last, hlast, htaken⟩ := Option.map_eq_some_iff.mp hrun
  refine ⟨last, hlast, htaken, intact_of_run ?_ hlast⟩
  have hwait : ∀ id : UInt16, (Ackqueue.publishQos1 id).packetIdValue ≠ 0 →
      Pushable (Ackqueue.publishQos1 id) → ∀ choice, Admitted Pushable
        (.call (.wait (.publish (Ackqueue.publishQos1 id)) true 0 choice 0)) :=
    fun id hid hpushable choice => ⟨_, rfl, made_publishQos1 id, hid, hpushable⟩
  have hack : ∀ id : UInt16, Admitted Pushable
      (.call (.ack (.puback (newPubackMessage.setPacketId id)) 0 0)) :=
    fun id => Or.inr ⟨_, _, _, .puback, .setPacketId .new id, rfl⟩
  intro label hmem
  simp only [oneByOne, List.mem_cons, List.not_mem_nil, or_false] at hmem
  rcases hmem with rfl | rfl | rfl | rfl | rfl | rfl | rfl | rfl | rfl
  · exact hwait 7 (by decide) (by rw [Pushable]; decide) 0
  · exact hack 7
  · trivial
  · trivial
  · trivial
  · trivial
  · exact hwait 9 (by decide) (by rw [Pushable]; decide) 1
  · exact hack 9
  · trivial

end Xmqtt.Sessions
