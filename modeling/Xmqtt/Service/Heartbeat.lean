import Xmqtt.Core.Run
import Xmqtt.Service.Dispatch

/-!
# Changing the heartbeat

A device changes its heartbeat with a PUBLISH.  The receiver hands the new value over
to the goroutine `updateHeartbeat` through a channel without a buffer, and that
goroutine stores it for the next read.  Meanwhile `newStopConnect` closes first `done`
and then the channel: a receive then yields zero, and a send panics.
-/

namespace Xmqtt.Service

open Xmqtt.Core Xmqtt.Message

/-- The goroutine `updateHeartbeat`: in its `select`, with a value that it has received, or
behind its `return`. -/
inductive Updating where
  | selecting
  | storing (newKeepAlive : ℤ)
  | returned
  deriving DecidableEq, Repr

/-- The receiver: before the next message, at `keepAliveCH <-`, before the PUBACK, at
`isDone`, behind its `return`, or behind a panic. -/
inductive Receiving where
  | reading
  | sending (msg : PublishMessage) (heartbeat : ℤ) (reply : Bool)
  | replying (msg : PublishMessage)
  | checking
  | returned
  | panicked
  deriving DecidableEq

/-- `newStopConnect`: not called, behind `close(this.done)`, or behind
`close(this.keepAliveCH)`. -/
inductive Stopping where
  | running
  | doneClosed
  | stopped
  deriving DecidableEq, Repr

/-- `d` is the field of the `timeoutReader`.  The lists are history: the heartbeats that
the receiver has begun to send, with their messages, those that `updateHeartbeat` has
received from it, the values that were stored, and the messages with a PUBACK. -/
structure Heartbeat where
  service : ServiceRef
  d : ℤ
  updater : Updating
  receiver : Receiving
  stop : Stopping
  published : List (PublishMessage × ℤ)
  taken : List (PublishMessage × ℤ)
  stored : List ℤ
  pubacks : List PublishMessage

inductive HeartbeatStep where
  | publish (msg : PublishMessage)
  | other
  | disconnect
  | handOver
  | panic
  | puback (reply : Puback)
  | isDone
  | receiveZero
  | store
  | leave
  | closeDone
  | closeChannel

namespace Heartbeat

/-- `receiverData` has made the reader and started `updateHeartbeat`. -/
def start (service : ServiceRef) (keepAlive : ℤ) : Heartbeat :=
  ⟨service, keepAlive + 5, .selecting, .reading, .running, [], [], [], []⟩

def step (this : Heartbeat) : HeartbeatStep → Option Heartbeat
  | .publish msg =>
      match this.receiver, processPublish this.service msg with
      | .reading, .updateHeartbeat heartbeat reply =>
          some { this with
            receiver := .sending msg heartbeat reply
            published := this.published ++ [(msg, heartbeat)] }
      | _, _ => none
  -- any other message that does not end the connection
  | .other =>
      if this.receiver = .reading then some { this with receiver := .checking } else none
  | .disconnect =>
      if this.receiver = .reading then some { this with receiver := .returned } else none
  | .handOver =>
      match this.receiver with
      | .sending msg heartbeat reply =>
          if this.updater = .selecting ∧ this.stop ≠ .stopped then
            some { this with
              receiver := if reply then .replying msg else .checking
              updater := .storing heartbeat
              taken := this.taken ++ [(msg, heartbeat)] }
          else none
      | _ => none
  | .panic =>
      match this.receiver with
      | .sending _ _ _ =>
          if this.stop = .stopped then some { this with receiver := .panicked } else none
      | _ => none
  | .puback reply =>
      match this.receiver, reply with
      | .replying msg, .sent =>
          some { this with receiver := .checking, pubacks := this.pubacks ++ [msg] }
      -- `newStopConnect` has set `conn` to nil
      | .replying _, .unsent =>
          if this.stop = .stopped then some { this with receiver := .checking } else none
      | .replying _, .failed => some { this with receiver := .returned }
      | _, _ => none
  | .isDone =>
      if this.receiver = .checking then
        some { this with receiver := if this.stop = .running then .reading else .returned }
      else none
  | .receiveZero =>
      if this.updater = .selecting ∧ this.stop = .stopped then
        some { this with updater := .storing 0 }
      else none
  | .store =>
      match this.updater with
      | .storing newKeepAlive =>
          some { this with
            d := newKeepAlive + 5
            updater := .selecting
            stored := this.stored ++ [newKeepAlive] }
      | _ => none
  | .leave =>
      if this.updater = .selecting ∧ this.stop ≠ .running then
        some { this with updater := .returned }
      else none
  | .closeDone =>
      if this.stop = .running then some { this with stop := .doneClosed } else none
  | .closeChannel =>
      if this.stop = .doneClosed then some { this with stop := .stopped } else none

end Heartbeat

/-- A value that was received and not stored yet. -/
def Updating.pending : Updating → List ℤ
  | storing newKeepAlive => [newKeepAlive]
  | selecting | returned => []

/-- A heartbeat that was not received. -/
def Receiving.waiting : Receiving → List (PublishMessage × ℤ)
  | sending msg heartbeat _ => [(msg, heartbeat)]
  | reading | replying _ | checking | returned | panicked => []

/-- A message whose heartbeat was received and that has no PUBACK yet. -/
def Receiving.owed : Receiving → List PublishMessage
  | replying msg => [msg]
  | reading | sending _ _ _ | checking | returned | panicked => []

/-- What holds of the goroutines at any time.  Only a receive from the closed channel
brings a zero, and only the panic there loses a heartbeat. -/
structure InStep (keepAlive : ℤ) (this : Heartbeat) : Prop where
  d_eq : this.d = this.stored.getLastD keepAlive + 5
  stored : ∃ zeros, this.stored ++ this.updater.pending =
    this.taken.map Prod.snd ++ List.replicate zeros 0 ∧ (0 < zeros → this.stop = .stopped)
  published : this.receiver ≠ .panicked →
    this.published = this.taken ++ this.receiver.waiting
  lost : this.receiver = .panicked →
    this.stop = .stopped ∧ ∃ last, this.published = this.taken ++ [last]
  pubacks : (this.pubacks ++ this.receiver.owed).Sublist
    ((this.taken.map Prod.fst).filter fun msg => msg.qos == qosAtLeastOnce)
  asked : ∀ beat ∈ this.published, ∃ reply,
    processPublish this.service beat.1 = .updateHeartbeat beat.2 reply
  sending : ∀ msg heartbeat reply, this.receiver = .sending msg heartbeat reply →
    processPublish this.service msg = .updateHeartbeat heartbeat reply
  left : this.updater = .returned → this.stop ≠ .running

theorem inStep_start (service : ServiceRef) (keepAlive : ℤ) :
    InStep keepAlive (Heartbeat.start service keepAlive) where
  d_eq := rfl
  stored := ⟨0, rfl, nofun⟩
  published _ := rfl
  lost := nofun
  pubacks := List.Sublist.refl _
  asked := nofun
  sending := nofun
  left := nofun

namespace InStep

variable {keepAlive : ℤ} {this next : Heartbeat}

/-- The receiver goes on without the channel. -/
theorem goOn (hin : InStep keepAlive this) {receiver : Receiving}
    (hlive : this.receiver ≠ .panicked) (hlive' : receiver ≠ .panicked)
    (hwaiting : this.receiver.waiting = []) (hwaiting' : receiver.waiting = [])
    (howed : receiver.owed = []) : InStep keepAlive { this with receiver := receiver } where
  d_eq := hin.d_eq
  stored := hin.stored
  published _ := by
    rw [hin.published hlive, hwaiting, hwaiting']
  lost hpanicked := absurd hpanicked hlive'
  pubacks := by
    rw [howed, List.append_nil]
    exact (List.sublist_append_left _ _).trans hin.pubacks
  asked := hin.asked
  sending msg heartbeat reply hsending := by
    rw [show receiver = .sending msg heartbeat reply from hsending] at hwaiting'
    cases hwaiting'
  left := hin.left

/-- `newStopConnect` goes on. -/
theorem stopping (hin : InStep keepAlive this) {stop : Stopping} (hrunning : stop ≠ .running)
    (hstopped : this.stop ≠ .stopped) : InStep keepAlive { this with stop := stop } where
  d_eq := hin.d_eq
  stored := by
    obtain ⟨zeros, hstored, hzeros⟩ := hin.stored
    exact ⟨zeros, hstored, fun hpos => absurd (hzeros hpos) hstopped⟩
  published := hin.published
  lost hpanicked := absurd (hin.lost hpanicked).1 hstopped
  pubacks := hin.pubacks
  asked := hin.asked
  sending := hin.sending
  left _ := hrunning

theorem publish (hin : InStep keepAlive this) {msg : PublishMessage} {heartbeat : ℤ}
    {reply : Bool} (hreading : this.receiver = .reading)
    (hprocess : processPublish this.service msg = .updateHeartbeat heartbeat reply) :
    InStep keepAlive { this with
      receiver := .sending msg heartbeat reply
      published := this.published ++ [(msg, heartbeat)] } where
  d_eq := hin.d_eq
  stored := hin.stored
  published _ := by
    have hbefore := hin.published (by rw [hreading]; nofun)
    rw [hbefore, hreading]
    simp [Receiving.waiting]
  lost := nofun
  pubacks := by
    have hpubacks := hin.pubacks
    rwa [hreading] at hpubacks
  asked beat hbeat := by
    rcases List.mem_append.mp hbeat with hbefore | hnew
    · exact hin.asked beat hbefore
    · cases List.mem_singleton.mp hnew
      exact ⟨reply, hprocess⟩
  sending msg' heartbeat' reply' hsending := by
    cases hsending
    exact hprocess
  left := hin.left

/-- The reply is asked for exactly by a QoS 1 message. -/
theorem reply_eq (hin : InStep keepAlive this) {msg : PublishMessage} {heartbeat : ℤ}
    {reply : Bool} (hsending : this.receiver = .sending msg heartbeat reply) :
    reply = (msg.qos == qosAtLeastOnce) := by
  have hprocess := hin.sending msg heartbeat reply hsending
  rw [processPublish] at hprocess
  split_ifs at hprocess
  split at hprocess
  · cases hprocess
  · injection hprocess with _ hreply
    exact hreply.symm

theorem handOver (hin : InStep keepAlive this) {msg : PublishMessage} {heartbeat : ℤ}
    {reply : Bool} (hsending : this.receiver = .sending msg heartbeat reply)
    (hselecting : this.updater = .selecting) (hopen : this.stop ≠ .stopped) :
    InStep keepAlive { this with
      receiver := if reply then .replying msg else .checking
      updater := .storing heartbeat
      taken := this.taken ++ [(msg, heartbeat)] } where
  d_eq := hin.d_eq
  stored := by
    obtain ⟨zeros, hstored, hzeros⟩ := hin.stored
    obtain rfl : zeros = 0 := Nat.eq_zero_of_not_pos fun hpos => hopen (hzeros hpos)
    rw [hselecting] at hstored
    refine ⟨0, ?_, nofun⟩
    simpa [Updating.pending] using hstored
  published _ := by
    rw [hin.published (by rw [hsending]; nofun), hsending]
    cases reply <;> simp [Receiving.waiting]
  lost hpanicked := by cases reply <;> cases hpanicked
  pubacks := by
    have hbefore := hin.pubacks
    rw [hsending, Receiving.owed, List.append_nil] at hbefore
    rw [List.map_append, List.filter_append]
    refine hbefore.append ?_
    rw [hin.reply_eq hsending]
    cases hqos : msg.qos == qosAtLeastOnce <;> simp [Receiving.owed, hqos]
  asked := hin.asked
  sending msg' heartbeat' reply' hsending' := by cases reply <;> cases hsending'
  left := nofun

theorem panic (hin : InStep keepAlive this) {msg : PublishMessage} {heartbeat : ℤ}
    {reply : Bool} (hsending : this.receiver = .sending msg heartbeat reply)
    (hstopped : this.stop = .stopped) :
    InStep keepAlive { this with receiver := .panicked } where
  d_eq := hin.d_eq
  stored := hin.stored
  published hlive := absurd rfl hlive
  lost _ := by
    refine ⟨hstopped, (msg, heartbeat), ?_⟩
    rw [hin.published (by rw [hsending]; nofun), hsending, Receiving.waiting]
  pubacks := by
    have hpubacks := hin.pubacks
    rwa [hsending] at hpubacks
  asked := hin.asked
  sending := nofun
  left := hin.left

theorem puback (hin : InStep keepAlive this) {msg : PublishMessage}
    (hreplying : this.receiver = .replying msg) :
    InStep keepAlive { this with
      receiver := .checking
      pubacks := this.pubacks ++ [msg] } where
  d_eq := hin.d_eq
  stored := hin.stored
  published _ := by
    rw [hin.published (by rw [hreplying]; nofun), hreplying]
    rfl
  lost := nofun
  pubacks := by
    have hpubacks := hin.pubacks
    rw [hreplying] at hpubacks
    simpa [Receiving.owed] using hpubacks
  asked := hin.asked
  sending := nofun
  left := hin.left

/-- `updateHeartbeat` leaves its `select` without the receiver. -/
theorem update (hin : InStep keepAlive this) {updater : Updating}
    (hselecting : this.updater = .selecting) (hdone : this.stop ≠ .running)
    (hpending : updater.pending = [] ∨ updater.pending = [0] ∧ this.stop = .stopped) :
    InStep keepAlive { this with updater := updater } where
  d_eq := hin.d_eq
  stored := by
    obtain ⟨zeros, hstored, hzeros⟩ := hin.stored
    rw [hselecting, Updating.pending, List.append_nil] at hstored
    rcases hpending with hnone | ⟨hzero, hstopped⟩
    · refine ⟨zeros, ?_, hzeros⟩
      rw [hnone, List.append_nil, hstored]
    · refine ⟨zeros + 1, ?_, fun _ => hstopped⟩
      rw [hzero, hstored, List.replicate_succ', List.append_assoc]
  published := hin.published
  lost := hin.lost
  pubacks := hin.pubacks
  asked := hin.asked
  sending := hin.sending
  left _ := hdone

theorem store (hin : InStep keepAlive this) {newKeepAlive : ℤ}
    (hstoring : this.updater = .storing newKeepAlive) :
    InStep keepAlive { this with
      d := newKeepAlive + 5
      updater := .selecting
      stored := this.stored ++ [newKeepAlive] } where
  d_eq := by simp
  stored := by
    obtain ⟨zeros, hstored, hzeros⟩ := hin.stored
    rw [hstoring] at hstored
    refine ⟨zeros, ?_, hzeros⟩
    simpa [Updating.pending] using hstored
  published := hin.published
  lost := hin.lost
  pubacks := hin.pubacks
  asked := hin.asked
  sending := hin.sending
  left := nofun

theorem step {label : HeartbeatStep} (hin : InStep keepAlive this)
    (hstep : this.step label = some next) : InStep keepAlive next := by
  cases label with
  | publish msg =>
      simp only [Heartbeat.step] at hstep
      split at hstep <;> cases hstep
      rename_i hreading hprocess
      exact hin.publish hreading hprocess
  | other | disconnect =>
      obtain ⟨hreading, ⟨⟩⟩ := Option.ite_none_right_eq_some.mp hstep
      exact hin.goOn (by simp [hreading]) nofun (by rw [hreading]; rfl) rfl rfl
  | handOver =>
      simp only [Heartbeat.step] at hstep
      split at hstep
      · next hsending =>
          obtain ⟨⟨hselecting, hopen⟩, ⟨⟩⟩ := Option.ite_none_right_eq_some.mp hstep
          exact hin.handOver hsending hselecting hopen
      · cases hstep
  | panic =>
      simp only [Heartbeat.step] at hstep
      split at hstep
      · next hsending =>
          obtain ⟨hstopped, ⟨⟩⟩ := Option.ite_none_right_eq_some.mp hstep
          exact hin.panic hsending hstopped
      · cases hstep
  | puback reply =>
      simp only [Heartbeat.step] at hstep
      split at hstep
      · next hreplying =>
          cases hstep
          exact hin.puback hreplying
      · next hreplying =>
          obtain ⟨-, ⟨⟩⟩ := Option.ite_none_right_eq_some.mp hstep
          exact hin.goOn (by simp [hreplying]) nofun (by rw [hreplying]; rfl) rfl rfl
      · next hreplying =>
          cases hstep
          exact hin.goOn (by simp [hreplying]) nofun (by rw [hreplying]; rfl) rfl rfl
      · cases hstep
  | isDone =>
      obtain ⟨hchecking, ⟨⟩⟩ := Option.ite_none_right_eq_some.mp hstep
      have hnext : ∀ receiver, receiver = .reading ∨ receiver = .returned →
          InStep keepAlive { this with receiver := receiver } := by
        rintro receiver (rfl | rfl) <;>
          exact hin.goOn (by simp [hchecking]) nofun (by rw [hchecking]; rfl) rfl rfl
      exact hnext _ (by split_ifs <;> simp)
  | receiveZero =>
      obtain ⟨⟨hselecting, hstopped⟩, ⟨⟩⟩ := Option.ite_none_right_eq_some.mp hstep
      exact hin.update hselecting (by rw [hstopped]; nofun) (.inr ⟨rfl, hstopped⟩)
  | store =>
      simp only [Heartbeat.step] at hstep
      split at hstep <;> cases hstep
      rename_i hstoring
      exact hin.store hstoring
  | leave =>
      obtain ⟨⟨hselecting, hdone⟩, ⟨⟩⟩ := Option.ite_none_right_eq_some.mp hstep
      exact hin.update hselecting hdone (.inl rfl)
  | closeDone =>
      obtain ⟨hrunning, ⟨⟩⟩ := Option.ite_none_right_eq_some.mp hstep
      exact hin.stopping nofun (by rw [hrunning]; nofun)
  | closeChannel =>
      obtain ⟨hclosed, ⟨⟩⟩ := Option.ite_none_right_eq_some.mp hstep
      exact hin.stopping nofun (by rw [hclosed]; nofun)

end InStep

theorem inStep_of_run {service : ServiceRef} {keepAlive : ℤ} {labels : List HeartbeatStep}
    {last : Heartbeat}
    (hrun : run Heartbeat.step (Heartbeat.start service keepAlive) labels = some last) :
    InStep keepAlive last :=
  run_keeps (fun _ _ _ hin hstep => hin.step hstep) (inStep_start service keepAlive) hrun

theorem updateHeartbeat_range {service : ServiceRef} {msg : PublishMessage} {heartbeat : ℤ}
    {reply : Bool} (hprocess : processPublish service msg = .updateHeartbeat heartbeat reply) :
    1 ≤ heartbeat ∧ heartbeat ≤ 7200 := by
  rw [processPublish] at hprocess
  split_ifs at hprocess
  split at hprocess
  · cases hprocess
  · injection hprocess with hheartbeat
    rw [← hheartbeat]
    split_ifs <;> omega

/-- A value that was stored is a heartbeat that was taken, or the zero of the closed
channel. -/
theorem InStep.range_of_mem_stored {keepAlive : ℤ} {this : Heartbeat}
    (hin : InStep keepAlive this) {value : ℤ} (hvalue : value ∈ this.stored) :
    1 ≤ value ∧ value ≤ 7200 ∨ this.stop = .stopped ∧ value = 0 := by
  obtain ⟨zeros, hstored, hzeros⟩ := hin.stored
  have hmem : value ∈ this.taken.map Prod.snd ++ List.replicate zeros 0 :=
    hstored ▸ List.mem_append_left _ hvalue
  rcases List.mem_append.mp hmem with htaken | hzero
  · obtain ⟨beat, hbeat, rfl⟩ := List.mem_map.mp htaken
    have hpublished : beat ∈ this.published := by
      by_cases hpanicked : this.receiver = .panicked
      · obtain ⟨-, last, hlast⟩ := hin.lost hpanicked
        exact hlast ▸ List.mem_append_left _ hbeat
      · exact hin.published hpanicked ▸ List.mem_append_left _ hbeat
    obtain ⟨reply, hprocess⟩ := hin.asked beat hpublished
    exact .inl (updateHeartbeat_range hprocess)
  · obtain ⟨hne, rfl⟩ := List.mem_replicate.mp hzero
    exact .inr ⟨hzeros (Nat.pos_of_ne_zero hne), rfl⟩

/-- Whatever the order of the steps, the heartbeats are received and stored in the order in
which they were published, each once, and none is acknowledged before it was received.
The reader waits for the last one stored; a connection that is not stopped waits for
the keep-alive of its CONNECT or for a heartbeat in the permitted range, plus five. -/
theorem heartbeats_in_order {service : ServiceRef} {keepAlive : ℤ}
    {labels : List HeartbeatStep} {last : Heartbeat}
    (hrun : run Heartbeat.step (Heartbeat.start service keepAlive) labels = some last) :
    InStep keepAlive last ∧
      (last.d = keepAlive + 5 ∨ 6 ≤ last.d ∧ last.d ≤ 7205 ∨
        last.stop = .stopped ∧ last.d = 5) := by
  have hin := inStep_of_run hrun
  refine ⟨hin, ?_⟩
  rw [hin.d_eq]
  by_cases hnone : last.stored = []
  · exact .inl (by rw [hnone]; rfl)
  · have hmem : last.stored.getLastD keepAlive ∈ last.stored := by
      rw [List.getLastD_eq_getLast?, List.getLast?_eq_some_getLast hnone, Option.getD_some]
      exact List.getLast_mem hnone
    rcases hin.range_of_mem_stored hmem with hrange | ⟨hstopped, hzero⟩
    · exact .inr (.inl (by omega))
    · exact .inr (.inr ⟨hstopped, by omega⟩)

/-- A heartbeat message of QoS 1. -/
def beat (seconds : String) : PublishMessage :=
  { newPublishMessage with
    mtypeflags := 0x32
    topic := heartbeatTopic
    payload := textBytes seconds }

/-- A heartbeat that is stored, and a second one that comes too late. -/
def lateBeat : List HeartbeatStep :=
  [.publish (beat "30"), .handOver, .puback .sent, .store, .isDone, .closeDone,
    .publish (beat "9000"), .leave, .closeChannel, .panic]

theorem heartbeats_in_order_late :
    ∃ last, run Heartbeat.step (Heartbeat.start ⟨0, textBytes "p", textBytes "d"⟩ 60) lateBeat =
        some last ∧
      last.published = [(beat "30", 30), (beat "9000", 7200)] ∧ last.stored = [30] ∧
      InStep 60 last ∧
      (last.d = 65 ∨ 6 ≤ last.d ∧ last.d ≤ 7205 ∨ last.stop = .stopped ∧ last.d = 5) := by
  have hends : (run Heartbeat.step (Heartbeat.start ⟨0, textBytes "p", textBytes "d"⟩ 60)
      lateBeat).map (fun last => (last.published, last.stored)) =
        some ([(beat "30", 30), (beat "9000", 7200)], [30]) := by decide +kernel
  obtain ⟨last, hrun, hlast⟩ := Option.map_eq_some_iff.mp hends
  obtain ⟨hpublished, hstored⟩ := Prod.mk.inj hlast
  exact ⟨last, hrun, hpublished, hstored, heartbeats_in_order hrun⟩

/-! ## Nobody waits for ever -/

namespace Heartbeat

variable {this : Heartbeat}

/-- The steps of `updateHeartbeat` and of the receiver by which a heartbeat gets through. -/
def through : Updating → List HeartbeatStep
  | .storing _ => [.store, .handOver]
  | .selecting | .returned => [.handOver]

/-- As long as the connection is not stopped a heartbeat gets through. -/
theorem run_through {msg : PublishMessage} {heartbeat : ℤ} {reply : Bool}
    (hleft : this.updater ≠ .returned) (hstop : this.stop ≠ .stopped)
    (hsending : this.receiver = .sending msg heartbeat reply) :
    ∃ next, run step this (through this.updater) = some next ∧
      next.taken = this.taken ++ [(msg, heartbeat)] ∧
      next.receiver = (if reply then .replying msg else .checking) := by
  cases hupdater : this.updater with
  | selecting | storing newKeepAlive => simp [through, run, step, hsending, hupdater, hstop]
  | returned => exact absurd hupdater hleft

/-- How many steps the goroutines have left once `done` is closed.  A heartbeat that is
handed over leaves `updateHeartbeat` with one step more. -/
def work (this : Heartbeat) : ℕ :=
  (match this.receiver with
    | .reading => 5
    | .sending _ _ _ => 4
    | .replying _ => 2
    | .checking => 1
    | .returned | .panicked => 0) +
  (match this.updater with
    | .storing _ => 2
    | .selecting => 1
    | .returned => 0) +
  (match this.stop with
    | .running => 2
    | .doneClosed => 1
    | .stopped => 0)

def isReceiveZero : HeartbeatStep → Bool
  | .receiveZero => true
  | _ => false

/-- Whether the receiver can still begin to send a heartbeat. -/
def credit (this : Heartbeat) : ℕ := if this.receiver = .reading then 1 else 0

/-- A step behind `close(this.done)`. -/
structure Winds (this next : Heartbeat) (zero : Bool) : Prop where
  done : next.stop ≠ .running
  work : next.work + 1 ≤ this.work + if zero then 2 else 0
  published : next.published.length + next.credit ≤ this.published.length + this.credit

theorem winds_step {label : HeartbeatStep} {next : Heartbeat} (hdone : this.stop ≠ .running)
    (hstep : this.step label = some next) : this.Winds next (isReceiveZero label) := by
  cases label with
  | publish msg =>
      simp only [step] at hstep
      split at hstep <;> cases hstep
      rename_i hreading _
      exact ⟨hdone, by simp [work, hreading, isReceiveZero],
        by simp [credit, hreading]⟩
  | other | disconnect =>
      obtain ⟨hreading, ⟨⟩⟩ := Option.ite_none_right_eq_some.mp hstep
      exact ⟨hdone, by simp [work, hreading, isReceiveZero], by simp [credit]⟩
  | handOver =>
      simp only [step] at hstep
      split at hstep
      · next hsending =>
          obtain ⟨⟨hselecting, hopen⟩, ⟨⟩⟩ := Option.ite_none_right_eq_some.mp hstep
          refine ⟨hdone, ?_, ?_⟩
          · simp only [work, hsending, hselecting, isReceiveZero]
            split_ifs <;> simp <;> omega
          · simp only [credit, hsending]
            split_ifs <;> simp_all
      · cases hstep
  | panic =>
      simp only [step] at hstep
      split at hstep
      · next hsending =>
          obtain ⟨hstopped, ⟨⟩⟩ := Option.ite_none_right_eq_some.mp hstep
          exact ⟨hdone, by simp [work, hsending, isReceiveZero], by simp [credit]⟩
      · cases hstep
  | puback reply =>
      simp only [step] at hstep
      split at hstep
      · next hreplying =>
          cases hstep
          exact ⟨hdone, by simp [work, hreplying, isReceiveZero], by simp [credit]⟩
      · next hreplying =>
          obtain ⟨-, ⟨⟩⟩ := Option.ite_none_right_eq_some.mp hstep
          exact ⟨hdone, by simp [work, hreplying, isReceiveZero], by simp [credit]⟩
      · next hreplying =>
          cases hstep
          exact ⟨hdone, by simp [work, hreplying, isReceiveZero], by simp [credit]⟩
      · cases hstep
  | isDone =>
      obtain ⟨hchecking, ⟨⟩⟩ := Option.ite_none_right_eq_some.mp hstep
      rw [if_neg hdone]
      exact ⟨hdone, by simp [work, hchecking, isReceiveZero], by simp [credit]⟩
  | receiveZero =>
      obtain ⟨⟨hselecting, -⟩, ⟨⟩⟩ := Option.ite_none_right_eq_some.mp hstep
      exact ⟨hdone, by simp [work, hselecting, isReceiveZero]; omega, le_rfl⟩
  | store =>
      simp only [step] at hstep
      split at hstep <;> cases hstep
      rename_i hstoring
      exact ⟨hdone, by simp [work, hstoring, isReceiveZero], le_rfl⟩
  | leave =>
      obtain ⟨⟨hselecting, -⟩, ⟨⟩⟩ := Option.ite_none_right_eq_some.mp hstep
      exact ⟨hdone, by simp [work, hselecting, isReceiveZero], le_rfl⟩
  | closeDone =>
      obtain ⟨hrunning, ⟨⟩⟩ := Option.ite_none_right_eq_some.mp hstep
      exact absurd hrunning hdone
  | closeChannel =>
      obtain ⟨hclosed, ⟨⟩⟩ := Option.ite_none_right_eq_some.mp hstep
      exact ⟨nofun, by simp [work, hclosed, isReceiveZero], le_rfl⟩

/-- A run behind `close(this.done)`: only the zeros of the closed channel make it longer. -/
theorem winds_run {labels : List HeartbeatStep} {last : Heartbeat}
    (hdone : this.stop ≠ .running) (hrun : run step this labels = some last) :
    last.stop ≠ .running ∧
      labels.length + last.work ≤ this.work + 2 * labels.countP isReceiveZero ∧
      last.published.length + last.credit ≤ this.published.length + this.credit := by
  induction labels generalizing this with
  | nil =>
      cases hrun
      exact ⟨hdone, by simp, le_rfl⟩
  | cons label labels ih =>
      obtain ⟨next, hnext, hrest⟩ := run_cons_eq_some_iff.mp hrun
      have hwinds := winds_step hdone hnext
      obtain ⟨hlast, hwork, hpublished⟩ := ih hwinds.done hrest
      refine ⟨hlast, ?_, hpublished.trans hwinds.published⟩
      have hone := hwinds.work
      rw [List.length_cons, List.countP_cons]
      split_ifs at hone ⊢ <;> omega

theorem work_le_eight (hdone : this.stop ≠ .running) : this.work ≤ 8 := by
  rw [work]
  cases hreceiver : this.receiver <;> cases hupdater : this.updater <;>
    cases hstop : this.stop <;> simp_all

/-- The receiver and `updateHeartbeat` have ended, and `newStopConnect` is behind both
channels. -/
structure Ended (this : Heartbeat) : Prop where
  receiver : this.receiver = .returned ∨ this.receiver = .panicked
  updater : this.updater = .returned
  stop : this.stop = .stopped

/-- The steps that wait for no message of the client. -/
def unprompted : List HeartbeatStep :=
  [.disconnect, .panic, .puback .failed, .isDone, .store, .leave, .closeChannel]

/-- Behind `close(this.done)` one of the goroutines can go on by itself, until all have
ended. -/
theorem ended_or_enabled (hdone : this.stop ≠ .running) :
    this.Ended ∨ ∃ label ∈ unprompted, ∃ next, this.step label = some next := by
  have henabled : ∀ label ∈ unprompted, (this.step label).isSome →
      this.Ended ∨ ∃ label ∈ unprompted, ∃ next, this.step label = some next :=
    fun label hmem hsome => .inr ⟨label, hmem, Option.isSome_iff_exists.mp hsome⟩
  -- `newStopConnect` first: a blocked sender waits for it
  cases hstop : this.stop with
  | running => exact absurd hstop hdone
  | doneClosed => exact henabled .closeChannel (by simp [unprompted]) (by simp [step, hstop])
  | stopped =>
      cases hupdater : this.updater with
      | selecting =>
          exact henabled .leave (by simp [unprompted]) (by simp [step, hupdater, hdone])
      | storing newKeepAlive =>
          exact henabled .store (by simp [unprompted]) (by simp [step, hupdater])
      | returned =>
          cases hreceiver : this.receiver with
          | reading =>
              exact henabled .disconnect (by simp [unprompted]) (by simp [step, hreceiver])
          | sending msg heartbeat reply =>
              exact henabled .panic (by simp [unprompted]) (by simp [step, hreceiver, hstop])
          | replying msg =>
              exact henabled (.puback .failed) (by simp [unprompted])
                (by simp [step, hreceiver])
          | checking =>
              exact henabled .isDone (by simp [unprompted]) (by simp [step, hreceiver])
          | returned => exact .inl ⟨.inl hreceiver, hupdater, hstop⟩
          | panicked => exact .inl ⟨.inr hreceiver, hupdater, hstop⟩

end Heartbeat

/-- Nobody waits for ever.  On a connection that is not being stopped, a heartbeat at the
channel gets through by steps of `updateHeartbeat` alone.  Once `done` is closed the receiver
begins to send at most one more, the goroutines take at most eight more steps, zeros of the
closed channel apart, and until all have ended one of them can go on by itself. -/
theorem heartbeat_never_stuck {service : ServiceRef} {keepAlive : ℤ}
    {labels : List HeartbeatStep} {this : Heartbeat}
    (hrun : run Heartbeat.step (Heartbeat.start service keepAlive) labels = some this) :
    (∀ msg heartbeat reply, this.stop = .running →
      this.receiver = .sending msg heartbeat reply →
        ∃ next, run Heartbeat.step this (Heartbeat.through this.updater) = some next ∧
          next.taken = this.taken ++ [(msg, heartbeat)] ∧
          next.receiver = (if reply then .replying msg else .checking)) ∧
    (this.stop ≠ .running → ∀ more last, run Heartbeat.step this more = some last →
      more.length ≤ 8 + 2 * more.countP Heartbeat.isReceiveZero ∧
      last.published.length ≤ this.published.length + 1 ∧
      (last.Ended ∨ ∃ label ∈ Heartbeat.unprompted, ∃ next, last.step label = some next)) := by
  constructor
  · intro msg heartbeat reply hrunning hsending
    have hleft : this.updater ≠ .returned :=
      fun hreturned => (inStep_of_run hrun).left hreturned hrunning
    exact Heartbeat.run_through hleft (by rw [hrunning]; nofun) hsending
  · intro hdone more last hmore
    obtain ⟨hlast, hwork, hpublished⟩ := Heartbeat.winds_run hdone hmore
    have hcredit : this.credit ≤ 1 := by
      rw [Heartbeat.credit]
      split_ifs <;> omega
    have height := Heartbeat.work_le_eight hdone
    exact ⟨by omega, by omega, Heartbeat.ended_or_enabled hlast⟩

/-- The receiver waits at the channel; `updateHeartbeat` returns before it receives. -/
theorem heartbeat_never_stuck_waiting :
    ∃ this last next,
      run Heartbeat.step (Heartbeat.start ⟨0, textBytes "p", textBytes "d"⟩ 60)
        [.publish (beat "30")] = some this ∧
      run Heartbeat.step this (Heartbeat.through this.updater) = some next ∧
      next.receiver = .replying (beat "30") ∧
      run Heartbeat.step this [.closeDone, .leave, .closeChannel, .panic] = some last ∧
      last.published.length ≤ 2 := by
  have hsends : (run Heartbeat.step (Heartbeat.start ⟨0, textBytes "p", textBytes "d"⟩ 60)
      [.publish (beat "30")]).map (fun this => (this.stop, this.receiver, this.published)) =
        some (.running, .sending (beat "30") 30 true, [(beat "30", 30)]) := by decide +kernel
  obtain ⟨this, hthis, hfields⟩ := Option.map_eq_some_iff.mp hsends
  simp only [Prod.mk.injEq] at hfields
  obtain ⟨hrunning, hsending, hpublished⟩ := hfields
  obtain ⟨next, hnext, -, hreplying⟩ :=
    (heartbeat_never_stuck hthis).1 (beat "30") 30 true hrunning hsending
  let closed : Heartbeat := { this with stop := .doneClosed }
  have hclosed : run Heartbeat.step this [.closeDone] = some closed := by
    simp [run, Heartbeat.step, hrunning, closed]
  have hreach := (run_append hthis).trans hclosed
  have hselecting : this.updater = .selecting := by
    have hupdater : (run Heartbeat.step
        (Heartbeat.start ⟨0, textBytes "p", textBytes "d"⟩ 60)
        [.publish (beat "30")]).map Heartbeat.updater = some .selecting := by decide +kernel
    rw [hthis] at hupdater
    exact Option.some.inj hupdater
  obtain ⟨last, hlast⟩ : ∃ last, run Heartbeat.step closed [.leave, .closeChannel, .panic] =
      some last := by
    simp [run, Heartbeat.step, closed, hselecting, hsending]
  obtain ⟨-, hlength, -⟩ := (heartbeat_never_stuck hreach).2 (by simp [closed]) _ last hlast
  have hone : closed.published.length = 1 := by
    simp [closed, hpublished]
  exact ⟨this, last, next, hthis, hnext, hreplying, (run_append hclosed).trans hlast,
    by omega⟩

end Xmqtt.Service
