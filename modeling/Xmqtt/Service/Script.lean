import Xmqtt.Service.Conversation
import Xmqtt.Service.Reactions

/-!
# The stream is the script

What a connection sends, which heartbeats it sets and which uploads it offers is
determined by the bytes that it receives: neither the messages that are pushed to the
device meanwhile nor the state of its ack queues can be seen in it.
-/

namespace Xmqtt.Service

open Xmqtt.Go Xmqtt.Message Xmqtt.Sessions

/-! ## What the stream alone determines -/

/-- `processIncoming` as the messages alone determine it. -/
def reacting (service : ServiceRef) : List Xmqtt.Message → Verdict
  | [] => .goOn
  | msg :: _ =>
      match (react service msg).err with
      | none => .goOn
      | some err => .error err

/-- The messages that are going to be heard, and how the loop is going to end. -/
def script (service : ServiceRef) (behind : ReadErr) (stream : Bytes) :
    List HandOver × LoopEnd :=
  receiverData (reacting service) behind (stream.length + 1) [] stream

/-- What is still to come of a script. -/
inductive Follows (service : ServiceRef) (this : Conversation) (whole : List HandOver × LoopEnd) :
    Prop where
  | ended (last : LoopEnd) : this.standing = .ended last → whole = (this.heard, last) →
      Follows service this whole
  | goesOn (rounds : ℕ) (past : List Xmqtt.Message) : (∀ last, this.standing ≠ .ended last) →
      this.stream.length < rounds →
      whole = (this.heard ++
          (receiverData (reacting service) this.behind rounds past this.stream).1,
        (receiverData (reacting service) this.behind rounds past this.stream).2) →
      Follows service this whole

/-- The receiver has done for the messages so far what they ask for, and nothing else. -/
structure Answered (service : ServiceRef) (this : Conversation) : Prop where
  sent : this.sent = this.heard.flatMap fun handed => (react service handed.message).answers
  heartbeats : this.heartbeats =
    this.heard.filterMap fun handed => (react service handed.message).heartbeat
  offered : this.offered =
    this.heard.filterMap fun handed => (react service handed.message).offered

section Next

variable {service : ServiceRef} {whole : List HandOver × LoopEnd} {this after : Conversation}
variable {handed : HandOver}

theorem Follows.error (hfollows : Follows service this whole)
    (hgoes : ∀ last, this.standing ≠ .ended last) {last : LoopEnd}
    (hnext : nextMessage this.behind this.stream = .error last) :
    Follows service (this.ended last) whole := by
  cases hfollows with
  | ended other hother => exact absurd hother (hgoes other)
  | goesOn rounds past _ hrounds hwhole =>
      obtain ⟨rounds, rfl⟩ := Nat.exists_eq_add_of_lt hrounds
      rw [receiverData_of_nextMessage_error hnext, List.append_nil] at hwhole
      exact .ended last rfl hwhole

/-- The message in front is heard, and the rest of the script is what follows. -/
theorem Follows.next (hfollows : Follows service this whole)
    (hgoes : ∀ last, this.standing ≠ .ended last)
    (hnext : nextMessage this.behind this.stream = .ok (handed, after.stream))
    (hbehind : after.behind = this.behind) (hheard : after.heard = this.heard ++ [handed])
    (hon : (react service handed.message).err = none → ∀ last, after.standing ≠ .ended last)
    (hstop : ∀ err, (react service handed.message).err = some err →
      after.standing = .ended (.stopped (.error err))) :
    Follows service after whole := by
  obtain ⟨-, hshorter⟩ := decoded_of_nextMessage hnext
  cases hfollows with
  | ended other hother => exact absurd hother (hgoes other)
  | goesOn rounds past _ hrounds hwhole =>
      obtain ⟨rounds, rfl⟩ := Nat.exists_eq_add_of_lt hrounds
      rw [receiverData_of_nextMessage hnext, reacting] at hwhole
      cases herr : (react service handed.message).err with
      | none =>
          simp only [herr] at hwhole
          refine .goesOn (this.stream.length + rounds) (handed.message :: past) (hon herr)
            (by omega) ?_
          rw [hheard, hbehind, List.append_assoc]
          exact hwhole
      | some err =>
          simp only [herr] at hwhole
          refine .ended _ (hstop err herr) ?_
          rw [hheard]
          exact hwhole

theorem Answered.next (hanswered : Answered service this)
    (hheard : after.heard = this.heard ++ [handed])
    (hsent : after.sent = this.sent ++ (react service handed.message).answers)
    (hheartbeats : after.heartbeats =
      this.heartbeats ++ (react service handed.message).heartbeat.toList)
    (hoffered : after.offered =
      this.offered ++ (react service handed.message).offered.toList) :
    Answered service after where
  sent := by
    rw [hsent, hanswered.sent, hheard, List.flatMap_append, List.flatMap_singleton]
  heartbeats := by
    rw [hheartbeats, hanswered.heartbeats, hheard, List.filterMap_append]
    cases hreact : (react service handed.message).heartbeat <;> simp [hreact]
  offered := by
    rw [hoffered, hanswered.offered, hheard, List.filterMap_append]
    cases hreact : (react service handed.message).offered <;> simp [hreact]

end Next

structure InTune (service : ServiceRef) (whole : List HandOver × LoopEnd)
    (this : Conversation) : Prop where
  service_eq : this.receiver.service = service
  untouched : this.receiver.Untouched
  sound : IsSound Pushable this.inFlight
  through : this.standing ≠ .completing → this.inFlight.taken = []
  answered : Answered service this
  follows : Follows service this whole

namespace InTune

variable {service : ServiceRef} {whole : List HandOver × LoopEnd} {this : Conversation}

/-- Another state of the queue. -/
theorem withInFlight (htune : InTune service whole this) {inFlight : InFlight}
    {standing : Standing} {completed : List Completion} (hsound : IsSound Pushable inFlight)
    (hthrough : standing ≠ .completing → inFlight.taken = [])
    (hended : ∀ last, this.standing ≠ .ended last)
    (hgoes : ∀ last, standing ≠ .ended last) :
    InTune service whole
      { this with inFlight := inFlight, standing := standing, completed := completed } where
  service_eq := htune.service_eq
  untouched := htune.untouched
  sound := hsound
  through := hthrough
  answered := ⟨htune.answered.sent, htune.answered.heartbeats, htune.answered.offered⟩
  follows := by
    cases htune.follows with
    | ended last hlast => exact absurd hlast (hended last)
    | goesOn rounds past _ hrounds hwhole => exact .goesOn rounds past hgoes hrounds hwhole

/-- A call of another goroutine. -/
theorem other (htune : InTune service whole this) {call : Ackqueue.Call} {next : Conversation}
    (hpushes : Admitted Pushable (.call call)) (hstep : this.interfere call = some next) :
    InTune service whole next := by
  obtain ⟨inFlight, hinFlight, htaken, rfl⟩ := Conversation.of_interfere hstep
  obtain ⟨backlog, hsound⟩ := htune.sound
  constructor
  case service_eq => exact htune.service_eq
  case untouched => exact htune.untouched
  case sound => exact hsound.step hpushes hinFlight
  case through => exact fun hstanding => htaken.trans (htune.through hstanding)
  case answered =>
    exact ⟨htune.answered.sent, htune.answered.heartbeats, htune.answered.offered⟩
  case follows =>
    cases htune.follows with
    | ended last hlast hwhole => exact .ended last hlast hwhole
    | goesOn rounds past hgoes hrounds hwhole => exact .goesOn rounds past hgoes hrounds hwhole

/-- The branch for a PUBACK. -/
theorem ackPub1 (htune : InTune service whole this) (hthrough : this.inFlight.taken = [])
    (hended : ∀ last, this.standing ≠ .ended last) {puback : PubackMessage}
    (hmade : puback.Made .puback) (env : Ambient) :
    InTune service whole (this.ackPub1 env (.puback puback)) ∧
      (this.ackPub1 env (.puback puback)).standing = .acking ∧
      (this.ackPub1 env (.puback puback)).stream = this.stream := by
  obtain ⟨backlog, hsound⟩ := htune.sound
  have hreturned := hsound.ack_returned .puback hmade env.gPacketId env.choice
  have hack := hsound.ack .puback hmade env.gPacketId env.choice
  have hequation : this.ackPub1 env (.puback puback) =
      { this with
        inFlight := { this.inFlight with
          queue := (this.inFlight.queue.ack (.puback puback) env.gPacketId env.choice).1
          fifo := this.inFlight.fifo.ack (Xmqtt.Message.puback puback).type
            (Xmqtt.Message.puback puback).packetId }
        standing := .acking } := by
    rw [Conversation.ackPub1, hreturned]
    rfl
  rw [hequation]
  refine ⟨?_, rfl, rfl⟩
  exact htune.withInFlight ⟨_, hack⟩ (fun _ => hthrough) hended (by simp)

/-- The branches for all other messages. -/
theorem processIncoming (htune : InTune service whole this) (hstanding : this.standing = .reading)
    {handed : HandOver} {rest : Bytes}
    (hnext : nextMessage this.behind this.stream = .ok (handed, rest))
    (hnot : ∀ puback, handed.message ≠ .puback puback) (env : Ambient) {after : Conversation}
    (hafter : after =
      { this with stream := rest, heard := this.heard ++ [handed] }.handle env handed.message) :
    InTune service whole after ∧ after.stream = rest ∧
      (after.standing = .reading ∨ ∃ last, after.standing = .ended last) := by
  obtain ⟨hdecoded, -⟩ := decoded_of_nextMessage hnext
  obtain ⟨⟨hsent, hheartbeat, hoffered, hending⟩, huntouched, -, hservice⟩ :=
    handles_processIncoming htune.untouched env hdecoded hnot
  rw [htune.service_eq] at hsent hheartbeat hoffered hending
  have hequation : after =
      { this with
        stream := rest
        heard := this.heard ++ [handed]
        receiver := (this.receiver.processIncoming env handed.message).receiver
        sent := this.sent ++ (react service handed.message).answers
        heartbeats := this.heartbeats ++ (react service handed.message).heartbeat.toList
        offered := this.offered ++ (react service handed.message).offered.toList
        standing := .after (.returned (react service handed.message).err) } := by
    rw [hafter, Conversation.handle, ← hsent, ← hheartbeat, ← hoffered, ← hending]
    exact hnot
  have hgoes : ∀ last, this.standing ≠ .ended last := by
    intro last hlast
    rw [hstanding] at hlast
    cases hlast
  subst hequation
  refine ⟨⟨hservice.trans htune.service_eq, huntouched, htune.sound, ?_, ?_, ?_⟩, rfl, ?_⟩
  · intro _
    exact htune.through (by rw [hstanding]; exact Standing.noConfusion)
  · exact htune.answered.next rfl rfl rfl rfl
  · refine htune.follows.next hgoes hnext rfl rfl ?_ ?_
    · intro herr last
      rw [herr]
      exact Standing.noConfusion
    · intro err herr
      rw [herr]
      rfl
  · cases (react service handed.message).err with
    | none => exact Or.inl rfl
    | some err => exact Or.inr ⟨_, rfl⟩

/-- A round of the receive loop. -/
theorem round (htune : InTune service whole this) (hstanding : this.standing = .reading)
    (env : Ambient) :
    InTune service whole (this.round env) ∧
      ((∃ last, (this.round env).standing = .ended last) ∨
        (this.round env).stream.length < this.stream.length ∧
          ((this.round env).standing = .reading ∨ (this.round env).standing = .acking)) := by
  have hgoes : ∀ last, this.standing ≠ .ended last := by
    intro last hlast
    rw [hstanding] at hlast
    cases hlast
  have hthrough : this.inFlight.taken = [] :=
    htune.through (by rw [hstanding]; exact Standing.noConfusion)
  rw [Conversation.round]
  cases hnext : nextMessage this.behind this.stream with
  | error last =>
      refine ⟨⟨htune.service_eq, htune.untouched, htune.sound, fun _ => hthrough, ?_, ?_⟩,
        Or.inl ⟨last, rfl⟩⟩
      · exact ⟨htune.answered.sent, htune.answered.heartbeats, htune.answered.offered⟩
      · exact htune.follows.error hgoes hnext
  | ok found =>
      obtain ⟨handed, rest⟩ := found
      obtain ⟨hdecoded, hshorter⟩ := decoded_of_nextMessage hnext
      by_cases hpuback : ∃ puback, handed.message = .puback puback
      · obtain ⟨puback, hmessage⟩ := hpuback
        have hreact : react service handed.message = .answer [] := by
          rw [hmessage]
          rfl
        have hheard : InTune service whole
            { this with stream := rest, heard := this.heard ++ [handed] } := by
          refine ⟨htune.service_eq, htune.untouched, htune.sound, fun _ => hthrough, ?_, ?_⟩
          · apply htune.answered.next rfl <;> simp [hreact, Reaction.answer]
          · refine htune.follows.next hgoes hnext rfl rfl (fun _ => hgoes) fun err herr => ?_
            rw [hreact] at herr
            cases herr
        rw [hmessage] at hdecoded
        obtain ⟨hafter, hacking, hstream⟩ :=
          hheard.ackPub1 hthrough hgoes (hdecoded.ack .puback) env
        simp only [hmessage, Conversation.handle]
        refine ⟨hafter, Or.inr ⟨?_, Or.inr hacking⟩⟩
        rw [hstream]
        exact hshorter
      · obtain ⟨hafter, hstream, hend⟩ :=
          htune.processIncoming hstanding hnext (not_exists.mp hpuback) env rfl
        refine ⟨hafter, ?_⟩
        rcases hend with hreading | hended
        · refine Or.inr ⟨?_, Or.inl hreading⟩
          rw [hstream]
          exact hshorter
        · exact Or.inl hended

theorem acked (htune : InTune service whole this) (hstanding : this.standing = .acking) :
    InTune service whole this.acked ∧ this.acked.standing = .completing ∧
      this.acked.stream = this.stream := by
  obtain ⟨backlog, hsound⟩ := htune.sound
  have hthrough : this.inFlight.taken = [] :=
    htune.through (by rw [hstanding]; exact Standing.noConfusion)
  obtain ⟨inFlight, hacked, -, -, hafter⟩ := hsound.acked hthrough
  rw [Conversation.acked, hacked]
  refine ⟨htune.withInFlight ⟨_, hafter⟩ (absurd rfl) ?_ fun _ => Standing.noConfusion, rfl, rfl⟩
  intro last hlast
  rw [hstanding] at hlast
  cases hlast

end InTune

/-- The entry that is going to be decoded was completed, so it is read. -/
theorem read_of_decoding {state : InFlight} (hsound : IsSound Pushable state) {ackmsg : AckMsg}
    {rest : List AckMsg} (hphase : state.phase = .decoding)
    (htaken : state.taken = ackmsg :: rest) :
    ∃ decoded ack, processEntry state.queue.bytesPool ackmsg = .read (.publish decoded) ack := by
  obtain ⟨backlog, hsound⟩ := hsound
  have hstand := hsound.taken
  rw [hphase, htaken, ← hsound.represents.bytesPool_eq] at hstand
  obtain ⟨first, others, hcarries, -, -⟩ := List.forall₂_cons_left_iff.mp hstand.carry
  obtain ⟨-, decoded, ack, -, hread, -, -⟩ :=
    hcarries.processEntry_eq (fun _ => Pushable.msglen_lt)
      (hstand.completed ackmsg List.mem_cons_self)
  exact ⟨decoded, ack, hread⟩

/-- The steps that the loop of `processAcked` is going to take. -/
def toDo (state : InFlight) : ℕ :=
  match state.phase with
  | .decoding => 3 * state.taken.length
  | .puttingAckbuf => 3 * state.taken.length - 1
  | .puttingMsgbuf => 3 * state.taken.length - 2

/-- The loop goes on with the entry in front. -/
theorem complete_of_cons {this : Conversation} (hsound : IsSound Pushable this.inFlight)
    {ackmsg : AckMsg} {rest : List AckMsg} (htaken : this.inFlight.taken = ackmsg :: rest) :
    ∃ label inFlight completed, Admitted Pushable label ∧
      this.inFlight.step label = some inFlight ∧ toDo inFlight < toDo this.inFlight ∧
      this.complete = { this with inFlight := inFlight, completed := completed } := by
  cases hphase : this.inFlight.phase with
  | decoding =>
      obtain ⟨decoded, ack, hread⟩ := read_of_decoding hsound hphase htaken
      have hstep : this.inFlight.step .process =
          some ⟨this.inFlight.queue, ackmsg :: rest, .puttingAckbuf, this.inFlight.fifo,
            this.inFlight.given⟩ := by
        rw [InFlight.step, hphase, htaken]
        simp only [hread]
      refine ⟨.process, _, this.completed ++
        if ackmsg.onComplete then [⟨.publish decoded, ack⟩] else [], trivial, hstep, ?_, ?_⟩
      · simp only [toDo, hphase, htaken, List.length_cons]
        omega
      · simp only [Conversation.complete, htaken, hphase, hread, assertsPublish, if_true,
          advance_of_step hstep]
  | puttingAckbuf =>
      have hstep : this.inFlight.step .putAckbuf =
          some { this.inFlight.withPool (this.inFlight.queue.bytesPool.put ackmsg.ackbuf) with
            phase := .puttingMsgbuf } := by
        rw [InFlight.step, hphase, htaken]
      refine ⟨.putAckbuf, _, this.completed, trivial, hstep, ?_, ?_⟩
      · simp only [toDo, hphase, InFlight.withPool, htaken, List.length_cons]
        omega
      · simp only [Conversation.complete, htaken, hphase, advance_of_step hstep]
  | puttingMsgbuf =>
      have hstep : this.inFlight.step .putMsgbuf =
          some { this.inFlight.withPool (this.inFlight.queue.bytesPool.put ackmsg.msgbuf) with
            taken := rest
            phase := .decoding
            given := this.inFlight.given.tail } := by
        rw [InFlight.step, hphase, htaken]
      refine ⟨.putMsgbuf, _, this.completed, trivial, hstep, ?_, ?_⟩
      · simp only [toDo, hphase, htaken, List.length_cons]
        omega
      · simp only [Conversation.complete, htaken, hphase, advance_of_step hstep]

namespace InTune

variable {service : ServiceRef} {whole : List HandOver × LoopEnd} {this : Conversation}

/-- A step of the loop in `processAcked`. -/
theorem complete (htune : InTune service whole this) (hstanding : this.standing = .completing) :
    InTune service whole this.complete ∧ this.complete.stream = this.stream ∧
      (this.complete.standing = .reading ∨
        this.complete.standing = .completing ∧
          toDo this.complete.inFlight < toDo this.inFlight) := by
  have hgoes : ∀ last, this.standing ≠ .ended last := by
    intro last hlast
    rw [hstanding] at hlast
    cases hlast
  cases htaken : this.inFlight.taken with
  | nil =>
      have hequation : this.complete = { this with standing := .reading } := by
        rw [Conversation.complete, htaken]
      rw [hequation]
      exact ⟨htune.withInFlight htune.sound (fun _ => htaken) hgoes fun _ => Standing.noConfusion,
        rfl, Or.inl rfl⟩
  | cons ackmsg rest =>
      obtain ⟨label, inFlight, completed, hadmitted, hstep, hless, hequation⟩ :=
        complete_of_cons htune.sound htaken
      obtain ⟨backlog, hsound⟩ := htune.sound
      rw [hequation]
      refine ⟨?_, rfl, Or.inr ⟨hstanding, hless⟩⟩
      exact htune.withInFlight (hsound.step hadmitted hstep) (absurd hstanding) hgoes hgoes

theorem step (htune : InTune service whole this) {label : ConversationStep}
    {next : Conversation} (hpushes : label.Pushes) (hstep : this.step label = some next) :
    InTune service whole next := by
  cases label with
  | other call => exact htune.other hpushes hstep
  | receive env =>
      rw [Conversation.step] at hstep
      cases hstanding : this.standing with
      | ended last =>
          rw [hstanding] at hstep
          cases hstep
      | reading =>
          rw [hstanding] at hstep
          exact Option.some.inj hstep ▸ (htune.round hstanding env).1
      | acking =>
          rw [hstanding] at hstep
          exact Option.some.inj hstep ▸ (htune.acked hstanding).1
      | completing =>
          rw [hstanding] at hstep
          exact Option.some.inj hstep ▸ (htune.complete hstanding).1

end InTune

/-! ## The end of the loop -/

/-- The receiver alone comes to its end, whatever the packet ids and the buffers of the pool
are. -/
def Conversation.Finishes (this : Conversation) : Prop :=
  ∀ env : ℕ → Ambient, ∃ steps final last,
    Core.run Conversation.step this ((List.range steps).map fun i => .receive (env i)) =
      some final ∧ final.standing = .ended last

theorem Conversation.Finishes.of_step {this : Conversation}
    (hstep : ∀ env, ∃ next, this.step (.receive env) = some next ∧ next.Finishes) :
    this.Finishes := by
  intro env
  obtain ⟨next, hnext, hfinishes⟩ := hstep (env 0)
  obtain ⟨steps, final, last, hrun, hfinal⟩ := hfinishes fun i => env (i + 1)
  refine ⟨steps + 1, final, last, ?_, hfinal⟩
  rw [List.range_succ_eq_map, List.map_cons, List.map_map, Core.run_cons_eq_some_iff]
  exact ⟨next, hnext, hrun⟩

namespace InTune

variable {service : ServiceRef} {whole : List HandOver × LoopEnd} {this : Conversation}

/-- The loop of `processAcked` ends. -/
theorem finishes_of_completing {entries : ℕ} (htune : InTune service whole this)
    (hstanding : this.standing = .completing) (hentries : toDo this.inFlight ≤ entries)
    (hreading : ∀ next, InTune service whole next → next.standing = .reading →
      next.stream = this.stream → next.Finishes) : this.Finishes := by
  induction entries generalizing this with
  | zero =>
      apply Conversation.Finishes.of_step
      intro env
      obtain ⟨hafter, hstream, hread | ⟨-, hless⟩⟩ := htune.complete hstanding
      · exact ⟨_, by rw [Conversation.step, hstanding], hreading _ hafter hread hstream⟩
      · omega
  | succ entries ih =>
      apply Conversation.Finishes.of_step
      intro env
      refine ⟨_, by rw [Conversation.step, hstanding], ?_⟩
      obtain ⟨hafter, hstream, hread | ⟨hcompleting, hless⟩⟩ := htune.complete hstanding
      · exact hreading _ hafter hread hstream
      · apply ih hafter hcompleting (by omega)
        rw [hstream]
        exact hreading

/-- What is left of the stream gets shorter with every message. -/
theorem finishes_of_reading {length : ℕ} (htune : InTune service whole this)
    (hstanding : this.standing = .reading) (hlength : this.stream.length ≤ length) :
    this.Finishes := by
  induction length generalizing this with
  | zero =>
      apply Conversation.Finishes.of_step
      intro env
      obtain ⟨-, ⟨last, hlast⟩ | ⟨hshorter, -⟩⟩ := htune.round hstanding env
      · exact ⟨_, by rw [Conversation.step, hstanding], fun _ => ⟨0, _, last, rfl, hlast⟩⟩
      · omega
  | succ length ih =>
      apply Conversation.Finishes.of_step
      intro env
      refine ⟨_, by rw [Conversation.step, hstanding], ?_⟩
      obtain ⟨hafter, ⟨last, hlast⟩ | ⟨hshorter, hread | hacking⟩⟩ := htune.round hstanding env
      · exact fun _ => ⟨0, _, last, rfl, hlast⟩
      · exact ih hafter hread (by omega)
      · apply Conversation.Finishes.of_step
        intro env
        refine ⟨_, by rw [Conversation.step, hacking], ?_⟩
        obtain ⟨hacked, hcompleting, hstream⟩ := hafter.acked hacking
        apply hacked.finishes_of_completing hcompleting le_rfl
        intro next hnext hread hsame
        apply ih hnext hread
        rw [hsame, hstream]
        omega

theorem finishes (htune : InTune service whole this) : this.Finishes := by
  cases hstanding : this.standing with
  | ended last => exact fun _ => ⟨0, this, last, rfl, hstanding⟩
  | reading => exact htune.finishes_of_reading hstanding le_rfl
  | completing =>
      apply htune.finishes_of_completing hstanding le_rfl
      exact fun next hnext hread _ => hnext.finishes_of_reading hread le_rfl
  | acking =>
      apply Conversation.Finishes.of_step
      intro env
      refine ⟨_, by rw [Conversation.step, hstanding], ?_⟩
      obtain ⟨hacked, hcompleting, -⟩ := htune.acked hstanding
      apply hacked.finishes_of_completing hcompleting le_rfl
      exact fun next hnext hread _ => hnext.finishes_of_reading hread le_rfl

end InTune

theorem inTune_newConversation (service : ServiceRef) (cmsg : ConnectMessage)
    (behind : ReadErr) (stream : Bytes) :
    InTune service (script service behind stream)
      (newConversation service cmsg behind stream) where
  service_eq := rfl
  untouched := fun name _ => queues_newReceiver service cmsg name
  sound := ⟨_, Sound.new⟩
  through := fun _ => rfl
  answered := ⟨rfl, rfl, rfl⟩
  follows := .goesOn (stream.length + 1) [] (fun _ => Standing.noConfusion)
    (Nat.lt_succ_self _) rfl

/-! ## Every connection -/

/-- On a connection whose writes work, where the send on `keepAliveCH` does not wait and
nobody stops the service, and in every interleaving with goroutines that push messages to the
device and with the queue's own: the messages that were heard are the first ones of the
script; exactly the packets, heartbeats and uploads that they ask for have been sent, set and
offered; a loop that has ended has heard the whole script and ends as it says; and one that
has not ended comes to its end by its own steps. -/
theorem conversation_follows_script (service : ServiceRef) (cmsg : ConnectMessage)
    (behind : ReadErr) (stream : Bytes) {labels : List ConversationStep} {last : Conversation}
    (hpushes : ∀ label ∈ labels, label.Pushes)
    (hrun : Core.run Conversation.step (newConversation service cmsg behind stream) labels =
      some last) :
    last.heard <+: (script service behind stream).1 ∧ Answered service last ∧
      (∀ loopEnd, last.standing = .ended loopEnd →
        script service behind stream = (last.heard, loopEnd)) ∧
      last.Finishes := by
  have htune : InTune service (script service behind stream) last :=
    Core.run_invariant (fun _ _ _ htune hpushes hstep => htune.step hpushes hstep)
      (inTune_newConversation service cmsg behind stream)
      (Core.along_of_forall (fun label hmem _ => hpushes label hmem) _) hrun
  refine ⟨?_, htune.answered, ?_, htune.finishes⟩
  · cases htune.follows with
    | ended loopEnd _ hwhole =>
        rw [hwhole]
    | goesOn rounds past _ _ hwhole =>
        rw [hwhole]
        exact List.prefix_append _ _
  · intro loopEnd hended
    cases htune.follows with
    | ended other hother hwhole =>
        rw [hother] at hended
        injection hended with hended
        rw [hwhole, hended]
    | goesOn rounds past hgoes => exact absurd hended (hgoes loopEnd)

/-- A device that publishes with QoS 1 and pings, while a message is pushed to it. -/
def pushedMeanwhile : List ConversationStep :=
  [.receive ⟨0, 0⟩, .other (.wait (.publish (Ackqueue.publishQos1 5)) true 0 0 0),
    .receive ⟨0, 0⟩, .other (.tick 3), .receive ⟨0, 0⟩]

theorem conversation_follows_script_pushed :
    ∃ last, Core.run Conversation.step (newConversation ⟨0, textBytes "p", textBytes "d"⟩
        newConnectMessage .eof ((publishX 1).bytes ++ [0xc0, 0x00])) pushedMeanwhile =
        some last ∧
      last.sent = [[0x40, 0x02, 0x00, 0x07], [0xd0, 0x00]] ∧
      last.inFlight.fifo.pending.length = 1 ∧
      script ⟨0, textBytes "p", textBytes "d"⟩ .eof ((publishX 1).bytes ++ [0xc0, 0x00]) =
        (last.heard, .refused .eof) := by
  have hpushes : ∀ label ∈ pushedMeanwhile, label.Pushes := by
    simp only [pushedMeanwhile, List.forall_mem_cons, ConversationStep.Pushes, Admitted,
      true_and]
    exact ⟨⟨_, rfl, made_publishQos1 5, by decide +kernel, by decide +kernel,
      by decide +kernel⟩, List.forall_mem_nil _⟩
  have hfound : (Core.run Conversation.step (newConversation
      ⟨0, textBytes "p", textBytes "d"⟩ newConnectMessage .eof
      ((publishX 1).bytes ++ [0xc0, 0x00])) pushedMeanwhile).map
        (fun last => (last.sent, last.inFlight.fifo.pending.length, last.standing)) =
      some ([[0x40, 0x02, 0x00, 0x07], [0xd0, 0x00]], 1, .ended (.refused .eof)) := by
    decide +kernel
  obtain ⟨last, hrun, hlast⟩ := Option.map_eq_some_iff.mp hfound
  obtain ⟨hsent, hpending, hstanding⟩ :
      last.sent = _ ∧ last.inFlight.fifo.pending.length = _ ∧ last.standing = _ := by
    simpa using hlast
  obtain ⟨-, -, hended, -⟩ := conversation_follows_script _ _ _ _ hpushes hrun
  exact ⟨last, hrun, hsent, hpending, hended _ hstanding⟩

end Xmqtt.Service
