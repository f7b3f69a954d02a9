import Xmqtt.Sessions.Content

/-!
# What becomes of a recorded PUBACK

An entry that has its PUBACK may still have to wait behind one that has not, and
meanwhile the ticks of `Clear` take entries from the head by their age alone.
As long as no tick finds an acked entry that is too old, every message that was
acked is in the queue, with the receiver, or through its `onComplete`, and in
one of these places only.
-/

namespace Xmqtt.Sessions

open Xmqtt.Go Xmqtt.Message

/-- The steps of `Pub1ack` and its receiver: messages to wait for that are not too long for
their length field, and PUBACKs. -/
def OfPubacks : InFlightStep → Prop
  | .call (.wait msg _ _ _ _) => ∃ pm : PublishMessage, msg = .publish pm ∧ pm.Made ∧
      pm.packetIdValue ≠ 0 ∧ pm.msglen < 4294967296
  | .call (.ack msg _ _) => ∃ this : PubackMessage, msg = .puback this ∧ this.Made .puback
  | _ => True

theorem OfPubacks.admitted {label : InFlightStep} (hlabel : OfPubacks label) :
    Admitted (fun pm => pm.msglen < 4294967296) label := by
  cases label with
  | call call =>
      cases call with
      | wait msg onComplete gPacketId choice now => exact hlabel
      | ack msg gPacketId choice =>
          obtain ⟨this, rfl, hmade⟩ := hlabel
          exact Or.inr ⟨.puback, .puback, this, .puback, hmade, rfl⟩
      | acked => trivial
      | tick now => trivial
  | process | putAckbuf | putMsgbuf => trivial

/-- A run with its record: the serial numbers of the messages whose PUBACK was recorded, and
the messages for which the loop of `processAcked` has come to the call of `onComplete`. -/
structure Ledger where
  inFlight : InFlight
  recorded : List ℕ
  called : List Pending

namespace Ledger

def new : Ledger := ⟨.new, [], []⟩

/-- `Ack` records its PUBACK in the entries with that packet id, and the loop calls
`onComplete` once it has decoded the entry in front. -/
def step (ledger : Ledger) (label : InFlightStep) : Option Ledger :=
  (ledger.inFlight.step label).map fun next =>
    match label with
    | .call (.ack msg _ _) =>
        { ledger with
          inFlight := next
          recorded := ledger.recorded ++ ((ledger.inFlight.fifo.pending.filter
            fun pending => pending.pktid = msg.packetId).map Pending.serial) }
    | .process =>
        { ledger with
          inFlight := next
          called := ledger.called ++
            if next.phase = .puttingAckbuf then next.given.take 1 else [] }
    | _ => { ledger with inFlight := next }

/-- A tick finds no entry that has its PUBACK and is older than five seconds. -/
def InTime (ledger : Ledger) : InFlightStep → Prop
  | .call (.tick now) => ∀ entry ∈ ledger.inFlight.queue.waiting,
      entry.state = .puback → Backlog.expired now entry = false
  | _ => True

instance (ledger : Ledger) (label : InFlightStep) : Decidable (ledger.InTime label) := by
  unfold InTime
  split <;> infer_instance

/-- What has been called, what the receiver has still to read, and what is in the queue. -/
def places (ledger : Ledger) : List Pending :=
  ledger.called ++ unread ledger.inFlight.phase ledger.inFlight.given ++
    ledger.inFlight.fifo.pending

/-- The queue and the receiver hold what the record says, and every message that was acked
has exactly one place. -/
structure Kept (ledger : Ledger) : Prop where
  waiting : ledger.inFlight.queue.waiting.map AckMsg.bare =
    ledger.inFlight.fifo.pending.map Pending.entry
  taken : (unread ledger.inFlight.phase ledger.inFlight.taken).map AckMsg.bare =
    (unread ledger.inFlight.phase ledger.inFlight.given).map Pending.entry
  once : ∀ serial ∈ ledger.recorded, (ledger.places.map Pending.serial).count serial = 1

end Ledger

/-! ## The invariant -/

theorem unread_nil {α : Type} (phase : Phase) : unread phase ([] : List α) = [] := by
  cases phase <;> rfl

/-- Serial numbers are given out once, what was acked has left in good order or is pending,
and what is acked and still pending shows it. -/
structure Sorted (recorded : List ℕ) (left : List Pending) (fifo : Fifo) : Prop where
  nodup : ((left ++ fifo.pending).map Pending.serial).Nodup
  bound : ∀ pending ∈ left ++ fifo.pending, pending.serial < fifo.accepted
  somewhere : ∀ serial ∈ recorded, serial ∈ (left ++ fifo.pending).map Pending.serial
  shown : ∀ pending ∈ fifo.pending, pending.serial ∈ recorded → pending.latest = .puback

namespace Sorted

variable {recorded : List ℕ} {left : List Pending} {fifo : Fifo}

theorem new : Sorted [] [] Fifo.new := by
  constructor <;> simp [Fifo.new]

theorem recorded_lt (hsorted : Sorted recorded left fifo) {serial : ℕ}
    (hmem : serial ∈ recorded) : serial < fifo.accepted := by
  obtain ⟨pending, hpending, rfl⟩ := List.mem_map.mp (hsorted.somewhere serial hmem)
  exact hsorted.bound pending hpending

theorem wait (hsorted : Sorted recorded left fifo) (msg : Xmqtt.Message) (onComplete : Bool)
    (now : ℤ) : Sorted recorded left (fifo.wait msg onComplete now) := by
  rw [Fifo.wait]
  split_ifs
  · exact hsorted
  constructor
  case nodup =>
    rw [← List.append_assoc, List.map_append, List.map_singleton]
    refine hsorted.nodup.append (List.nodup_singleton _) ?_
    rw [List.disjoint_singleton]
    intro hmem
    obtain ⟨pending, hpending, hserial⟩ := List.mem_map.mp hmem
    exact (hsorted.bound pending hpending).ne hserial
  case bound =>
    intro pending hmem
    rw [← List.append_assoc] at hmem
    rcases List.mem_append.mp hmem with hold | hlast
    · exact (hsorted.bound pending hold).trans (Nat.lt_succ_self _)
    · rw [List.mem_singleton.mp hlast]
      exact Nat.lt_succ_self _
  case somewhere =>
    intro serial hmem
    rw [← List.append_assoc, List.map_append]
    exact List.mem_append_left _ (hsorted.somewhere serial hmem)
  case shown =>
    intro pending hmem hrecorded
    rcases List.mem_append.mp hmem with hold | hlast
    · exact hsorted.shown pending hold hrecorded
    · rw [List.mem_singleton.mp hlast] at hrecorded
      exact absurd (hsorted.recorded_lt hrecorded) (lt_irrefl _)

/-- A PUBACK marks the entries with its packet id, and only these are recorded. -/
theorem ack (hsorted : Sorted recorded left fifo) (pktid : ℕ) :
    Sorted (recorded ++ (fifo.pending.filter fun pending => pending.pktid = pktid).map
      Pending.serial) left (fifo.ack .puback pktid) := by
  have hacked : fifo.ack .puback pktid =
      ⟨fifo.pending.map fun pending =>
        if pending.pktid = pktid then { pending with latest := .puback } else pending,
        fifo.accepted⟩ := rfl
  have hserial : ∀ pending : Pending, (if pending.pktid = pktid then
      { pending with latest := .puback } else pending).serial = pending.serial := by
    intro pending
    split_ifs <;> rfl
  have hserials : (left ++ (fifo.ack .puback pktid).pending).map Pending.serial =
      (left ++ fifo.pending).map Pending.serial := by
    rw [hacked, List.map_append, List.map_append, List.map_map]
    exact congrArg _ (List.map_congr_left fun pending _ => hserial pending)
  constructor
  case nodup =>
    rw [hserials]
    exact hsorted.nodup
  case bound =>
    intro pending hmem
    have hold : pending.serial ∈ (left ++ fifo.pending).map Pending.serial := by
      rw [← hserials]
      exact List.mem_map_of_mem hmem
    obtain ⟨same, hsame, heq⟩ := List.mem_map.mp hold
    rw [← heq]
    exact hsorted.bound same hsame
  case somewhere =>
    intro serial hmem
    rw [hserials]
    rcases List.mem_append.mp hmem with hold | hnow
    · exact hsorted.somewhere serial hold
    · obtain ⟨pending, hpending, rfl⟩ := List.mem_map.mp hnow
      exact List.mem_map_of_mem (List.mem_append_right _ (List.mem_of_mem_filter hpending))
  case shown =>
    intro pending hmem hrecorded
    rw [hacked] at hmem
    obtain ⟨before, hbefore, rfl⟩ := List.mem_map.mp hmem
    split_ifs with hid
    · rfl
    · rw [if_neg hid] at hrecorded
      rcases List.mem_append.mp hrecorded with hold | hnow
      · exact hsorted.shown before hbefore hold
      · -- A recorded serial number belongs to one message only.
        obtain ⟨other, hother, heq⟩ := List.mem_map.mp hnow
        obtain ⟨hpending, hpktid⟩ := List.mem_filter.mp hother
        have hsame : other = before := List.inj_on_of_nodup_map hsorted.nodup
          (List.mem_append_right _ hpending) (List.mem_append_right _ hbefore) heq
        rw [hsame] at hpktid
        exact absurd (of_decide_eq_true hpktid) hid

/-- What `Acked` returns has left in good order. -/
theorem leave (hsorted : Sorted recorded left fifo) (goes : Pending → Bool) :
    Sorted recorded (left ++ fifo.pending.takeWhile goes)
      { fifo with pending := fifo.pending.dropWhile goes } := by
  have hsame : left ++ fifo.pending.takeWhile goes ++ fifo.pending.dropWhile goes =
      left ++ fifo.pending := by rw [List.append_assoc, List.takeWhile_append_dropWhile]
  constructor
  case nodup =>
    rw [hsame]
    exact hsorted.nodup
  case bound =>
    rw [hsame]
    exact hsorted.bound
  case somewhere =>
    rw [hsame]
    exact hsorted.somewhere
  case shown =>
    intro pending hmem
    exact hsorted.shown pending ((List.dropWhile_sublist goes).subset hmem)

/-- What expires is nothing that was acked. -/
theorem expire (hsorted : Sorted recorded left fifo) {goes : Pending → Bool}
    (hgoes : ∀ pending ∈ fifo.pending, pending.latest = .puback → goes pending = false) :
    Sorted recorded left { fifo with pending := fifo.pending.dropWhile goes } := by
  have hsub : (left ++ fifo.pending.dropWhile goes).Sublist (left ++ fifo.pending) :=
    (List.dropWhile_sublist goes).append_left left
  constructor
  case nodup => exact hsorted.nodup.sublist (hsub.map Pending.serial)
  case bound => exact fun pending hmem => hsorted.bound pending (hsub.subset hmem)
  case somewhere =>
    intro serial hmem
    obtain ⟨pending, hplace, rfl⟩ := List.mem_map.mp (hsorted.somewhere serial hmem)
    apply List.mem_map_of_mem
    rcases List.mem_append.mp hplace with hleft | hpending
    · exact List.mem_append_left _ hleft
    · have hstays := hgoes pending hpending (hsorted.shown pending hpending hmem)
      rw [← List.takeWhile_append_dropWhile (p := goes) (l := fifo.pending)] at hpending
      rcases List.mem_append.mp hpending with hgone | hkept
      · rw [List.mem_takeWhile_imp hgone] at hstays
        cases hstays
      · exact List.mem_append_right _ hkept
  case shown =>
    intro pending hmem
    exact hsorted.shown pending ((List.dropWhile_sublist goes).subset hmem)

end Sorted

namespace Ledger

/-- The invariant of the runs. -/
structure Inv (ledger : Ledger) : Prop where
  sound : IsSound (fun pm => pm.msglen < 4294967296) ledger.inFlight
  length_eq : ledger.inFlight.given.length = ledger.inFlight.taken.length
  sorted : Sorted ledger.recorded
    (ledger.called ++ unread ledger.inFlight.phase ledger.inFlight.given) ledger.inFlight.fifo

theorem Inv.new : Inv .new := ⟨⟨_, Sound.new⟩, rfl, Sorted.new⟩

theorem Inv.kept {ledger : Ledger} (hinv : ledger.Inv) : ledger.Kept := by
  obtain ⟨backlog, hsound⟩ := hinv.sound
  constructor
  case waiting =>
    rw [hsound.represents.waiting_eq]
    exact hsound.refines.entries
  case taken => exact hsound.taken.bare
  case once =>
    intro serial hmem
    exact List.count_eq_one_of_mem hinv.sorted.nodup (hinv.sorted.somewhere serial hmem)

/-- The loop can read every entry that the receiver has taken. -/
theorem process_of_sound {state next : InFlight}
    (hsound : IsSound (fun pm => pm.msglen < 4294967296) state)
    (hstep : state.step .process = some next) :
    state.phase = .decoding ∧ next = { state with phase := .puttingAckbuf } := by
  obtain ⟨backlog, hsound⟩ := hsound
  obtain ⟨queue, taken, phase, fifo, given⟩ := state
  cases phase with
  | puttingAckbuf | puttingMsgbuf => exact absurd hstep (by simp [InFlight.step])
  | decoding =>
      cases taken with
      | nil => exact absurd hstep (by simp [InFlight.step])
      | cons ackmsg rest =>
          obtain ⟨first, others, hcarries, -, -⟩ :=
            List.forall₂_cons_left_iff.mp hsound.taken.carry
          obtain ⟨pm, decoded, ack, -, hread, -⟩ := hcarries.processEntry_eq
            (fun _ hfits => hfits) (hsound.taken.completed ackmsg List.mem_cons_self)
          rw [← hsound.represents.bytesPool_eq] at hread
          simp only [InFlight.step, hread, Option.some.injEq] at hstep
          exact ⟨rfl, hstep.symm⟩

/-- Putting back a buffer changes neither the queue nor what is still to be read. -/
theorem put_of_step {state next : InFlight} {label : InFlightStep}
    (hlabel : label = .putAckbuf ∨ label = .putMsgbuf)
    (hlength : state.given.length = state.taken.length)
    (hstep : state.step label = some next) :
    next.given.length = next.taken.length ∧ next.fifo = state.fifo ∧
      unread next.phase next.given = unread state.phase state.given := by
  obtain ⟨queue, taken, phase, fifo, given⟩ := state
  rcases hlabel with rfl | rfl
  · rw [InFlight.step] at hstep
    split at hstep
    · next hphase htaken =>
        injection hstep with hstep
        rw [← hstep, hphase]
        exact ⟨hlength, rfl, rfl⟩
    · cases hstep
  · rw [InFlight.step] at hstep
    split at hstep
    · next hphase htaken =>
        injection hstep with hstep
        rw [htaken] at hlength
        rw [← hstep, hphase]
        refine ⟨?_, rfl, rfl⟩
        rw [List.length_tail, hlength]
        rfl
    · cases hstep

/-- `Acked` hands over the entries in front that are acked. -/
theorem Inv.acked {ledger : Ledger} (hinv : ledger.Inv) {next : InFlight}
    (hstep : ledger.inFlight.step (.call .acked) = some next) :
    Inv { ledger with inFlight := next } := by
  have hthrough : ledger.inFlight.taken = [] := by
    by_contra hnot
    rw [InFlight.step, InFlight.acked, if_neg hnot] at hstep
    cases hstep
  have hgiven : ledger.inFlight.given = [] := by
    rw [← List.length_eq_zero_iff, hinv.length_eq, hthrough]
    rfl
  obtain ⟨backlog, hsound⟩ := hinv.sound
  obtain ⟨after, hacked, hphase, htaken, hafter⟩ := hsound.acked hthrough
  have hnext : next = after := Option.some.inj (hstep.symm.trans hacked)
  have hfifo : after.fifo = ledger.inFlight.fifo.step .acked := by
    rw [InFlight.acked, if_pos hthrough] at hacked
    split at hacked
    · injection hacked with hacked
      rw [← hacked]
    · cases hacked
  have hlength := hafter.taken.carry.length_eq
  have hsorted := hinv.sorted
  rw [hphase] at hlength
  rw [hgiven, unread_nil, List.append_nil] at hsorted
  rw [hnext]
  refine ⟨⟨_, hafter⟩, hlength.symm, ?_⟩
  change Sorted _ (_ ++ unread after.phase after.given) after.fifo
  rw [hphase, htaken, hfifo]
  exact hsorted.leave Pending.completed

/-- Every step keeps the invariant, if no tick comes too late. -/
theorem Inv.step {ledger next : Ledger} (hinv : ledger.Inv) {label : InFlightStep}
    (hlabel : OfPubacks label) (hintime : ledger.InTime label)
    (hstep : ledger.step label = some next) : next.Inv := by
  obtain ⟨state, hstate, hnext⟩ := Option.map_eq_some_iff.mp hstep
  have hsound : IsSound (fun pm => pm.msglen < 4294967296) state := by
    obtain ⟨backlog, hsound⟩ := hinv.sound
    exact hsound.step hlabel.admitted hstate
  rw [← hnext]
  cases label with
  | call call =>
      cases call with
      | wait msg onComplete gPacketId choice now =>
          cases hstate
          exact ⟨hsound, hinv.length_eq, hinv.sorted.wait msg onComplete now⟩
      | ack msg gPacketId choice =>
          obtain ⟨this, rfl, hmade⟩ := hlabel
          cases hstate
          refine ⟨hsound, hinv.length_eq, ?_⟩
          have hsorted := hinv.sorted.ack (Xmqtt.Message.puback this).packetId
          rw [← AckKind.puback.type hmade] at hsorted
          exact hsorted
      | acked => exact hinv.acked hstate
      | tick now =>
          cases hstate
          refine ⟨hsound, hinv.length_eq, hinv.sorted.expire fun pending hmem hpuback => ?_⟩
          have hshown : pending.entry ∈ ledger.inFlight.queue.waiting.map AckMsg.bare := by
            rw [hinv.kept.waiting]
            exact List.mem_map_of_mem hmem
          obtain ⟨entry, hentry, hbare⟩ := List.mem_map.mp hshown
          have hearly := hintime entry hentry ((congrArg AckMsg.state hbare).trans hpuback)
          exact (congrArg (Backlog.expired now) hbare).symm.trans hearly
  | process =>
      obtain ⟨hphase, hread⟩ := process_of_sound hinv.sound hstate
      have hsorted := hinv.sorted
      rw [hphase] at hsorted
      subst hread
      refine ⟨hsound, hinv.length_eq, ?_⟩
      have hfront : ledger.inFlight.given.take 1 ++ ledger.inFlight.given.tail =
          ledger.inFlight.given := by rw [← List.drop_one, List.take_append_drop]
      change Sorted _ (ledger.called ++ ledger.inFlight.given.take 1 ++
        ledger.inFlight.given.tail) _
      rw [List.append_assoc, hfront]
      exact hsorted
  | putAckbuf =>
      obtain ⟨hlength, hfifo, hplaces⟩ := put_of_step (.inl rfl) hinv.length_eq hstate
      exact ⟨hsound, hlength, by simpa only [hfifo, hplaces] using hinv.sorted⟩
  | putMsgbuf =>
      obtain ⟨hlength, hfifo, hplaces⟩ := put_of_step (.inr rfl) hinv.length_eq hstate
      exact ⟨hsound, hlength, by simpa only [hfifo, hplaces] using hinv.sorted⟩

/-- In every run in which no tick finds an acked entry that is older than five seconds,
every message whose PUBACK was recorded has left the queue by `Acked` or is still there, and
its `onComplete` is called once. -/
theorem kept_of_run {labels : List InFlightStep} {last : Ledger}
    (hlabels : ∀ label ∈ labels, OfPubacks label)
    (hintime : Core.Along step InTime new labels)
    (hrun : Core.run step new labels = some last) : last.Kept := by
  have hstep : ∀ ledger label next, Inv ledger → OfPubacks label ∧ ledger.InTime label →
      step ledger label = some next → Inv next :=
    fun ledger label next hinv hcond hnext => hinv.step hcond.1 hcond.2 hnext
  have halong : Core.Along step (fun _ label => OfPubacks label) new labels :=
    Core.along_of_forall (fun label hmem _ => hlabels label hmem) new
  exact (Core.run_invariant hstep Inv.new (halong.and hintime) hrun).kept

/-- A QoS 1 PUBLISH is waited for. -/
def waitFor (id : UInt16) (now : ℤ) : InFlightStep :=
  .call (.wait (.publish (Ackqueue.publishQos1 id)) true 0 9 now)

/-- Its PUBACK comes. -/
def pubackFor (id : UInt16) : InFlightStep :=
  .call (.ack (.puback (newPubackMessage.setPacketId id)) 0 9)

theorem ofPubacks_pubackFor (id : UInt16) : OfPubacks (pubackFor id) :=
  ⟨_, rfl, .setPacketId .new id⟩

theorem ofPubacks_waitFor {id : UInt16} (hid : (Ackqueue.publishQos1 id).packetIdValue ≠ 0)
    (hfits : (Ackqueue.publishQos1 id).msglen < 4294967296) (now : ℤ) :
    OfPubacks (waitFor id now) :=
  ⟨_, rfl, made_publishQos1 id, hid, hfits⟩

/-- The second PUBACK comes first, and the first one before five seconds are over. -/
def bothInTime : List InFlightStep :=
  [waitFor 7 0, waitFor 9 1, pubackFor 9, .call .acked, .call (.tick 5), pubackFor 7,
    .call .acked, .process, .putAckbuf, .putMsgbuf, .process]

theorem kept_of_run_bothInTime :
    ∃ last, Core.run step new bothInTime = some last ∧ last.recorded = [1, 0] ∧
      last.called.map Pending.serial = [0, 1] ∧ last.Kept := by
  have hrun : (Core.run step new bothInTime).map (fun last =>
      (last.recorded, last.called.map Pending.serial)) = some ([1, 0], [0, 1]) := by
    decide +kernel
  obtain ⟨last, hlast, hends⟩ := Option.map_eq_some_iff.mp hrun
  injection hends with hrecorded hcalled
  -- Only the tick, which is the fifth step, has to be in time.
  have hintime : Core.Along step InTime new (bothInTime.take 5 ++ bothInTime.drop 5) := by
    refine Core.Along.append (by decide +kernel) fun middle _ => Core.along_of_forall ?_ middle
    simp [bothInTime, pubackFor, InTime]
  rw [List.take_append_drop] at hintime
  refine ⟨last, hlast, hrecorded, hcalled, kept_of_run ?_ hintime hlast⟩
  intro label hmem
  simp only [bothInTime, List.mem_cons, List.not_mem_nil, or_false] at hmem
  rcases hmem with rfl | rfl | rfl | rfl | rfl | rfl | rfl | rfl | rfl | rfl | rfl
  · exact ofPubacks_waitFor (by decide) (by decide) 0
  · exact ofPubacks_waitFor (by decide) (by decide) 1
  · exact ofPubacks_pubackFor 9
  · trivial
  · trivial
  · exact ofPubacks_pubackFor 7
  · trivial
  · trivial
  · trivial
  · trivial
  · trivial

/-- The PUBACK of the second message is recorded while the first one has none.  After six
seconds a tick takes both, and `onComplete` is never called for the message that was
acked. -/
theorem tick_takes_acked_entry :
    (Core.run step new [waitFor 7 0, waitFor 9 0, pubackFor 9, .call .acked,
      .call (.tick 6)]).map (fun last => (last.recorded,
        last.inFlight.queue.waiting, last.inFlight.taken, last.called.map Pending.serial)) =
      some ([1], [], [], []) ∧
    ((Core.run step new [waitFor 7 0, waitFor 9 0, pubackFor 9, .call .acked]).map
      fun last => last.inFlight.queue.waiting.map fun entry => (entry.pktid, entry.state)) =
      some [(7, .reserved), (9, .puback)] := by
  constructor <;> decide +kernel

end Ledger

end Xmqtt.Sessions
