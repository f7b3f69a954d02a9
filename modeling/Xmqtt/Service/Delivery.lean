import Xmqtt.Go.Split
import Xmqtt.Service.Dispatch

/-!
# The consumer of `MsgChan`

One goroutine hands every message of the broker over.  It returns for good on the
first topic that has no "/" in it; as long as none of those gets into the channel,
it goes on running and its own steps empty the channel.
-/

namespace Xmqtt.Service

open Xmqtt.Core Xmqtt.Go Xmqtt.Message

/-- A topic names a device when it has at least two parts. -/
theorem route_eq_none_iff {topic : Bytes} : route topic = none ↔ 0x2f ∉ topic := by
  have hlength : route topic = none ↔ (topic.splitOn 0x2f).length < 2 := by
    simp [route]
  rw [hlength]
  constructor
  · intro hshort hslash
    obtain ⟨before, after, rfl⟩ := List.append_of_mem hslash
    have hbefore := List.length_pos_iff.mpr (List.splitOnP_ne_nil (· == 0x2f) before)
    have hafter := List.length_pos_iff.mpr (List.splitOnP_ne_nil (· == 0x2f) after)
    rw [List.splitOn_eq_splitOnP, List.splitOnP_append_cons before after (by simp),
      List.length_append] at hshort
    omega
  · intro hslash
    simp [splitOn_of_notMem hslash]

namespace Dispatch

/-- Where the consumer is, no message without a "/" has brought it. -/
def consumerRoutable : Consumer → Prop
  | .waiting => True
  | .holding msg => 0x2f ∈ msg.topic
  | .exited => False

/-- Every message on its way through the channel names a device, and the consumer is
running. -/
structure Routable (state : Dispatch) : Prop where
  acknowledged : ∀ entry ∈ state.acknowledged, 0x2f ∈ entry.2.topic
  msgChan : ∀ msg ∈ state.msgChan, 0x2f ∈ msg.topic
  consumer : consumerRoutable state.consumer

/-- A message that is acknowledged and offered to the channel has a "/" in its
topic. -/
def SlashInTopic (_state : Dispatch) : DispatchStep → Prop
  | .publish this msg _ => processPublish this msg = .acknowledge → 0x2f ∈ msg.topic
  | _ => True

instance decidableSlashInTopic (state : Dispatch) :
    (label : DispatchStep) → Decidable (state.SlashInTopic label)
  | .publish this msg _ =>
      inferInstanceAs (Decidable (processPublish this msg = .acknowledge → 0x2f ∈ msg.topic))
  | .enqueue _ | .take | .handle | .register _ | .unregister _ => isTrue trivial

variable {state next : Dispatch}

theorem acknowledge_routable (hroutable : state.Routable) (this : ServiceRef)
    {msg : PublishMessage} (hslash : 0x2f ∈ msg.topic) (reply : Puback) :
    (state.acknowledge this msg reply).Routable := by
  have hentries : ∀ entry ∈ (this, msg) :: state.acknowledged, 0x2f ∈ entry.2.topic := by
    intro entry hmem
    rcases List.mem_cons.mp hmem with rfl | hold
    · exact hslash
    · exact hroutable.acknowledged entry hold
  cases reply with
  | sent | unsent => exact ⟨hentries, hroutable.msgChan, hroutable.consumer⟩
  | failed => exact hroutable

theorem enqueue_routable {this : ServiceRef} (hroutable : state.Routable)
    (hstep : state.enqueue this = some next) : next.Routable := by
  rw [enqueue] at hstep
  split at hstep
  · simp at hstep
  rename_i entry hfound
  have hslash : 0x2f ∈ entry.2.topic :=
    hroutable.acknowledged entry (List.mem_of_find?_eq_some hfound)
  have hrest : ∀ other ∈ state.acknowledged.erase entry, 0x2f ∈ other.2.topic :=
    fun other hmem => hroutable.acknowledged other (List.mem_of_mem_erase hmem)
  split at hstep <;> cases hstep
  · refine ⟨hrest, fun msg hmem => ?_, hroutable.consumer⟩
    rcases List.mem_append.mp hmem with hold | hnew
    · exact hroutable.msgChan msg hold
    · exact List.mem_singleton.mp hnew ▸ hslash
  · exact ⟨hrest, hroutable.msgChan, hroutable.consumer⟩

theorem take_routable (hroutable : state.Routable) (hstep : state.take = some next) :
    next.Routable := by
  rw [take] at hstep
  split at hstep
  · rename_i msg msgChan hconsumer hchan
    cases hstep
    have hslash := hroutable.msgChan
    rw [hchan] at hslash
    exact ⟨hroutable.acknowledged, fun other hmem => hslash other (List.mem_cons_of_mem _ hmem),
      hslash msg List.mem_cons_self⟩
  · simp at hstep

theorem handle_routable (hroutable : state.Routable) (hstep : state.handle = some next) :
    next.Routable := by
  rw [handle] at hstep
  split at hstep
  · rename_i msg hconsumer
    have hslash := hroutable.consumer
    rw [hconsumer] at hslash
    rw [if_neg (mt route_eq_none_iff.mp (not_not.mpr hslash))] at hstep
    cases hstep
    exact ⟨hroutable.acknowledged, hroutable.msgChan, trivial⟩
  · simp at hstep

theorem routable_step {label : DispatchStep} (hroutable : state.Routable)
    (hslash : state.SlashInTopic label) (hstep : state.step label = some next) :
    next.Routable := by
  cases label with
  | publish this msg reply =>
      simp only [step, publish] at hstep
      split_ifs at hstep with hbusy hack
      · cases hstep
        exact acknowledge_routable hroutable this (hslash hack) reply
      · cases hstep
        exact hroutable
  | enqueue this => exact enqueue_routable hroutable hstep
  | take => exact take_routable hroutable hstep
  | handle => exact handle_routable hroutable hstep
  | register key | unregister key =>
      cases hstep
      exact ⟨hroutable.acknowledged, hroutable.msgChan, hroutable.consumer⟩

/-! ## Emptying the channel -/

/-- The message the consumer holds. -/
def held : Consumer → List PublishMessage
  | .holding msg => [msg]
  | .waiting | .exited => []

/-- The steps with which the consumer finishes the message it holds and then takes and
handles everything in the channel. -/
def drain (state : Dispatch) : List DispatchStep :=
  (held state.consumer).map (fun _ => .handle) ++
    (state.msgChan.map fun _ => [.take, .handle]).flatten

/-- The state the consumer reaches by handing over `msgs`. -/
def handedOver (state : Dispatch) (msgs : List PublishMessage) : Dispatch :=
  { state with
    msgChan := []
    consumer := .waiting
    taken := state.msgChan.reverse ++ state.taken
    published := state.published ++ msgs.filterMap (download state.svcMap) }

theorem handle_of_holding {msg : PublishMessage} (hconsumer : state.consumer = .holding msg)
    (hslash : 0x2f ∈ msg.topic) :
    state.handle = some { state with
      consumer := .waiting
      published := state.published ++ (download state.svcMap msg).toList } := by
  rw [handle, hconsumer]
  simp only
  rw [if_neg (mt route_eq_none_iff.mp (not_not.mpr hslash))]

theorem handedOver_cons {msg : PublishMessage} {msgChan : List PublishMessage}
    (hchan : state.msgChan = msg :: msgChan) :
    handedOver { state with
      msgChan := msgChan
      consumer := .waiting
      taken := msg :: state.taken
      published := state.published ++ (download state.svcMap msg).toList } msgChan =
      state.handedOver (msg :: msgChan) := by
  have hfirst : (download state.svcMap msg).toList ++
      msgChan.filterMap (download state.svcMap) =
      (msg :: msgChan).filterMap (download state.svcMap) := by
    cases hdownload : download state.svcMap msg <;> simp [hdownload]
  simp only [handedOver, hchan, List.reverse_cons, List.append_assoc, hfirst,
    List.singleton_append]

/-- By induction on the channel: each message costs the consumer a `take` and a
`handle`. -/
theorem run_drain_waiting {msgChan : List PublishMessage} (hchan : state.msgChan = msgChan)
    (hroutable : state.Routable) (hconsumer : state.consumer = .waiting) :
    run step state (msgChan.map fun _ => [.take, .handle]).flatten =
      some (state.handedOver msgChan) := by
  induction msgChan generalizing state with
  | nil =>
      have hsame : state.handedOver [] = state := by
        cases state
        simp_all [handedOver]
      rw [hsame]
      rfl
  | cons msg msgChan ih =>
      have hslash : 0x2f ∈ msg.topic :=
        hroutable.msgChan msg (by rw [hchan]; exact List.mem_cons_self)
      have htake : state.take = some { state with
          msgChan := msgChan
          consumer := .holding msg
          taken := msg :: state.taken } := by
        rw [take, hconsumer, hchan]
      have htaken := take_routable hroutable htake
      have hhandle : handle { state with
          msgChan := msgChan
          consumer := .holding msg
          taken := msg :: state.taken } = some _ := handle_of_holding rfl hslash
      rw [List.map_cons, List.flatten_cons, List.cons_append, List.cons_append, run, step,
        htake]
      simp only
      rw [run, step, hhandle]
      simp only [List.nil_append]
      rw [ih rfl (handle_routable htaken hhandle) rfl, handedOver_cons hchan]

theorem run_drain (hroutable : state.Routable) :
    run step state state.drain =
      some (state.handedOver (held state.consumer ++ state.msgChan)) := by
  have hconsumerRoutable := hroutable.consumer
  cases hconsumer : state.consumer with
  | exited =>
      rw [hconsumer] at hconsumerRoutable
      exact hconsumerRoutable.elim
  | waiting =>
      rw [drain, hconsumer]
      exact run_drain_waiting rfl hroutable hconsumer
  | holding msg =>
      rw [hconsumer] at hconsumerRoutable
      have hhandle := handle_of_holding hconsumer hconsumerRoutable
      rw [drain, hconsumer, held, List.map_singleton, List.singleton_append, run, step, hhandle]
      simp only
      refine (run_drain_waiting rfl (handle_routable hroutable hhandle) rfl).trans ?_
      cases hdownload : download state.svcMap msg <;> simp [handedOver, hdownload]

/-- As long as every message offered to the channel has a "/" in its topic, the
consumer is running in every state the broker reaches.  From each of these states its
own steps take every queued message and hand it to the `publish` of the device it
names, if that is registered. -/
theorem consumer_running_of_run {labels : List DispatchStep}
    (hslash : Along step SlashInTopic dispatchStart labels)
    (hrun : run step dispatchStart labels = some state) :
    state.consumer ≠ .exited ∧
      ∃ last, run step state state.drain = some last ∧ last.msgChan = [] ∧
        last.consumer = .waiting ∧ last.published = state.published ++
          (held state.consumer ++ state.msgChan).filterMap (download state.svcMap) := by
  have hstart : dispatchStart.Routable :=
    ⟨by simp [dispatchStart], by simp [dispatchStart], trivial⟩
  have hroutable : state.Routable :=
    run_invariant (fun _ _ _ => routable_step) hstart hslash hrun
  refine ⟨fun hexited => ?_, _, run_drain hroutable, rfl, rfl, rfl⟩
  have hconsumer := hroutable.consumer
  rw [hexited] at hconsumer
  exact hconsumer

/-- The device "d" of the product "p" registers, and a message to it is on its way. -/
def toRegistered : List DispatchStep :=
  [.register (serviceKey (textBytes "p") (textBytes "d")),
    .publish deviceD toDeviceD .sent, .enqueue deviceD]

theorem consumer_running_of_run_registered :
    ∃ state, run step dispatchStart toRegistered = some state ∧
      state.consumer ≠ .exited ∧
      ∃ last, run step state state.drain = some last ∧ last.msgChan = [] ∧
        last.consumer = .waiting ∧ last.published = state.published ++
          (held state.consumer ++ state.msgChan).filterMap (download state.svcMap) := by
  have hrun : run step dispatchStart toRegistered =
      some ⟨[serviceKey (textBytes "p") (textBytes "d")], [], [toDeviceD], .waiting,
        [toDeviceD], [], []⟩ := by decide +kernel
  exact ⟨_, hrun, consumer_running_of_run (by decide +kernel) hrun⟩

/-! ## A topic without a "/" -/

/-- The consumer has returned, with `downloads` handed over. -/
def Exited (downloads : List Download) (state : Dispatch) : Prop :=
  state.consumer = .exited ∧ state.published = downloads

theorem exited_step {downloads : List Download} {label : DispatchStep}
    (hexited : state.Exited downloads) (hstep : state.step label = some next) :
    next.Exited downloads := by
  obtain ⟨hconsumer, hpublished⟩ := hexited
  cases label with
  | publish this msg reply =>
      simp only [step, publish] at hstep
      split_ifs at hstep
      · cases hstep
        cases reply <;> exact ⟨hconsumer, hpublished⟩
      · cases hstep
        exact ⟨hconsumer, hpublished⟩
  | enqueue this =>
      simp only [step, enqueue] at hstep
      split at hstep
      · simp at hstep
      · split at hstep <;> cases hstep <;> exact ⟨hconsumer, hpublished⟩
  | take => simp [step, take, hconsumer] at hstep
  | handle => simp [step, handle, hconsumer] at hstep
  | register key | unregister key =>
      cases hstep
      exact ⟨hconsumer, hpublished⟩

/-- Once the consumer has returned nothing is handed over any more. -/
theorem exited_of_run {downloads : List Download} {labels : List DispatchStep}
    {last : Dispatch} (hexited : state.Exited downloads)
    (hrun : run step state labels = some last) : last.Exited downloads :=
  run_invariant (fun _ _ _ hreached _ hnext => exited_step hreached hnext) hexited
    (along_of_forall (fun _ _ _ => trivial) state) hrun

/-- PUBLISH with QoS 1, packet id 1 and the topic "a", as `Decode` leaves it. -/
def toA : PublishMessage :=
  { newPublishMessage with
    remlen := 6
    dbuf := Slice.full [0x32, 0x06, 0x00, 0x01, 0x61, 0x00, 0x01, 0x78]
    mtypeflags := 0x32
    flagsInDbuf := true
    packetId := [0x00, 0x01]
    packetIdAt := some 5
    dirty := false
    topic := textBytes "a"
    payload := textBytes "x" }

theorem consumer_exits_on_plain_topic :
    newPublishMessage.decode
        (Slice.full [0x32, 0x06, 0x00, 0x01, 0x61, 0x00, 0x01, 0x78]) = .done toA 8 ∧
      ∃ state, run step dispatchStart
          ([.publish deviceD toA .sent, .enqueue deviceD, .take, .handle] ++ toRegistered) =
        some state ∧
        state.consumer = .exited ∧ state.msgChan = [toDeviceD] ∧
        (download state.svcMap toDeviceD).isSome = true ∧
        ∀ labels last, run step state labels = some last → last.published = [] := by
  refine ⟨by decide +kernel, ⟨[serviceKey (textBytes "p") (textBytes "d")], [], [toDeviceD],
    .exited, [toDeviceD, toA], [toA], []⟩, by decide +kernel, rfl, rfl, by decide +kernel,
    fun labels last hrun => (exited_of_run ⟨rfl, rfl⟩ hrun).2⟩

end Dispatch

end Xmqtt.Service
