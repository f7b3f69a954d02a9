import Xmqtt.Message.Publish
import Xmqtt.Service.Registry

/-!
# From a PUBLISH to the device it is addressed to

`processPublish` of `process.go` runs in the receiver goroutine of every
connection: it acknowledges a QoS 1 message and then offers it to the channel
`MsgChan`.  The goroutine of `PushMsg` in `biz.go` takes the messages out and
hands each to the `publish` of the device that its topic names.
-/

namespace Xmqtt.Service

open Xmqtt.Core Xmqtt.Go Xmqtt.Message

/-! ## `processPublish` -/

/-- The value of a non-empty string of decimal digits. -/
def digitsValue (digits : Bytes) : Option ℕ :=
  if digits = [] then none
  else
    digits.foldlM (fun value byte =>
      if 0x30 ≤ byte ∧ byte ≤ 0x39 then some (value * 10 + (byte.toNat - 0x30)) else none) 0

/-- `strconv.Atoi` for 64-bit integers. -/
def atoi (text : Bytes) : Option ℤ :=
  match text with
  | 0x2d :: digits => do
      let value ← digitsValue digits
      if value ≤ 2 ^ 63 then some (-value) else none
  | 0x2b :: digits => do
      let value ← digitsValue digits
      if value < 2 ^ 63 then some value else none
  | digits => do
      let value ← digitsValue digits
      if value < 2 ^ 63 then some value else none

def heartbeatTopic : Bytes := textBytes "/sys/service/heartbeat/update"

/-- What `processPublish` does with a message. -/
inductive PublishAction where
  /-- Send the new heartbeat to `keepAliveCH`, and a PUBACK after it if asked to. -/
  | updateHeartbeat (seconds : ℤ) (reply : Bool)
  /-- Send a PUBACK, then offer the message to `MsgChan`. -/
  | acknowledge
  | badHeartbeat (payload : Bytes)
  | fail (err : Err)
  deriving DecidableEq, Repr

def processPublish (this : ServiceRef) (msg : PublishMessage) : PublishAction :=
  if msg.topic = heartbeatTopic then
    match atoi msg.payload with
    | none => .badHeartbeat msg.payload
    | some heartbeat =>
        .updateHeartbeat
          (if heartbeat < 1 then 1 else if heartbeat > 2 * 3600 then 2 * 3600 else heartbeat)
          (msg.qos == qosAtLeastOnce)
  else if msg.qos = qosAtLeastOnce then .acknowledge
  else
    .fail (.errorf "productKey %s deviceName %s invalid message QoS %d."
      [.text this.productKey, .text this.deviceName, .int msg.qos.toNat])

/-! ## `PushMsg` -/

/-- Product key and device name: the last two parts of the topic, if there are two. -/
def route (topic : Bytes) : Option (Bytes × Bytes) :=
  let path := topic.splitOn 0x2f
  if path.length < 2 then none
  else some (path.getD (path.length - 2) [], path.getD (path.length - 1) [])

/-- A call of a registered service's `publish`. -/
structure Download where
  key : Bytes
  topic : Bytes
  payload : Bytes
  deriving DecidableEq, Repr

def downloadOf (pKey dName payload : Bytes) : Download where
  key := serviceKey pKey dName
  topic := textBytes "/sys/" ++ pKey ++ textBytes "/" ++ dName ++ textBytes "/thing/download"
  payload := payload

/-- The call that a message leads to, when the device it names is registered. -/
def download (svcMap : List Bytes) (msg : PublishMessage) : Option Download :=
  match route msg.topic with
  | none => none
  | some (pKey, dName) =>
      if serviceKey pKey dName ∈ svcMap then some (downloadOf pKey dName msg.payload) else none

/-- Where the goroutine of `PushMsg` is. -/
inductive Consumer where
  | waiting
  | holding (msg : PublishMessage)
  | exited
  deriving DecidableEq, Repr

/-! ## The goroutines together -/

/-- How `sendData` of a PUBACK ends.  On a closed connection it returns no error
although nothing was sent. -/
inductive Puback where
  | sent
  | unsent
  | failed
  deriving DecidableEq, Repr

/-- `svcMap` holds the keys of the registered services, `acknowledged` the messages
between their PUBACK and the channel.  The last three fields are history. -/
structure Dispatch where
  svcMap : List Bytes
  acknowledged : List (ServiceRef × PublishMessage)
  msgChan : List PublishMessage
  consumer : Consumer
  acked : List PublishMessage
  taken : List PublishMessage
  published : List Download
  deriving DecidableEq, Repr

/-- `make(chan UploadMsg, 1024)`. -/
def msgChanCapacity : ℕ := 1024

/-- The broker when `PushMsg` has been started. -/
def dispatchStart : Dispatch := ⟨[], [], [], .waiting, [], [], []⟩

inductive DispatchStep where
  /-- `processPublish` up to the PUBACK. -/
  | publish (this : ServiceRef) (msg : PublishMessage) (reply : Puback)
  /-- The `select` on `MsgChan`. -/
  | enqueue (this : ServiceRef)
  /-- `msg := <- MsgChan`. -/
  | take
  /-- The body of the loop in `PushMsg`. -/
  | handle
  | register (key : Bytes)
  | unregister (key : Bytes)
  deriving DecidableEq, Repr

namespace Dispatch

/-- The PUBACK of `processPublish`: afterwards the goroutine has the message in hand,
unless there was an error. -/
def acknowledge (state : Dispatch) (this : ServiceRef) (msg : PublishMessage) :
    Puback → Dispatch
  | .sent =>
      { state with
        acknowledged := (this, msg) :: state.acknowledged
        acked := msg :: state.acked }
  | .unsent => { state with acknowledged := (this, msg) :: state.acknowledged }
  | .failed => state

/-- `processPublish` up to the `select`; a goroutine processes one message at a time. -/
def publish (state : Dispatch) (this : ServiceRef) (msg : PublishMessage) (reply : Puback) :
    Option Dispatch :=
  if this ∈ state.acknowledged.map Prod.fst then none
  else if processPublish this msg = .acknowledge then
    some (state.acknowledge this msg reply)
  else some state

/-- The `default` branch of the `select` drops the message. -/
def enqueue (state : Dispatch) (this : ServiceRef) : Option Dispatch :=
  match state.acknowledged.find? fun entry => entry.1 == this with
  | none => none
  | some entry =>
      let rest := { state with acknowledged := state.acknowledged.erase entry }
      if state.msgChan.length < msgChanCapacity then
        some { rest with msgChan := state.msgChan ++ [entry.2] }
      else some rest

def take (state : Dispatch) : Option Dispatch :=
  match state.consumer, state.msgChan with
  | .waiting, msg :: msgChan =>
      some { state with
        msgChan := msgChan
        consumer := .holding msg
        taken := msg :: state.taken }
  | _, _ => none

/-- A topic without a second part makes the goroutine return. -/
def handle (state : Dispatch) : Option Dispatch :=
  match state.consumer with
  | .holding msg =>
      if route msg.topic = none then some { state with consumer := .exited }
      else
        some { state with
          consumer := .waiting
          published := state.published ++ (download state.svcMap msg).toList }
  | _ => none

def step (state : Dispatch) : DispatchStep → Option Dispatch
  | .publish this msg reply => state.publish this msg reply
  | .enqueue this => state.enqueue this
  | .take => state.take
  | .handle => state.handle
  | .register key => some { state with svcMap := key :: state.svcMap }
  | .unregister key => some { state with svcMap := state.svcMap.filter (· ≠ key) }

/-! ## Hand-over -/

/-- The messages that are on their way to the consumer or have got there. -/
def kept (state : Dispatch) : List PublishMessage :=
  state.taken ++ (state.msgChan ++ state.acknowledged.map Prod.snd)

/-- No acknowledged message has been dropped. -/
def Accounted (state : Dispatch) : Prop := state.acked.Subperm state.kept

/-- A message that is offered to the channel finds room there. -/
def RoomLeft (state : Dispatch) : DispatchStep → Prop
  | .enqueue _ => state.msgChan.length < msgChanCapacity
  | _ => True

instance decidableRoomLeft (state : Dispatch) :
    (label : DispatchStep) → Decidable (state.RoomLeft label)
  | .enqueue _ => inferInstanceAs (Decidable (state.msgChan.length < msgChanCapacity))
  | .publish .. | .take | .handle | .register _ | .unregister _ => isTrue trivial

variable {state next : Dispatch}

theorem acknowledge_accounted (haccounted : state.Accounted) (this : ServiceRef)
    (msg : PublishMessage) (reply : Puback) :
    (state.acknowledge this msg reply).Accounted := by
  have hnew : (msg :: state.kept).Perm
      (state.taken ++ (state.msgChan ++ msg :: state.acknowledged.map Prod.snd)) := by
    rw [kept, ← List.append_assoc, ← List.append_assoc]
    exact List.perm_middle.symm
  cases reply with
  | sent => exact ((List.subperm_cons msg).mpr haccounted).trans hnew.subperm
  | unsent =>
      exact haccounted.trans
        ((List.sublist_cons_self msg state.kept).subperm.trans hnew.subperm)
  | failed => exact haccounted

theorem publish_accounted {this : ServiceRef} {msg : PublishMessage} {reply : Puback}
    (haccounted : state.Accounted) (hstep : state.publish this msg reply = some next) :
    next.Accounted := by
  rw [publish] at hstep
  split_ifs at hstep
  · cases hstep
    exact acknowledge_accounted haccounted this msg reply
  · cases hstep
    exact haccounted

theorem enqueue_accounted {this : ServiceRef} (hroom : state.msgChan.length < msgChanCapacity)
    (haccounted : state.Accounted) (hstep : state.enqueue this = some next) :
    next.Accounted := by
  rw [enqueue] at hstep
  split at hstep
  · simp at hstep
  rename_i entry hfound
  have hmem : entry ∈ state.acknowledged := List.mem_of_find?_eq_some hfound
  have hmoved : state.kept.Perm
      (state.taken ++ (state.msgChan ++ [entry.2] ++
        (state.acknowledged.erase entry).map Prod.snd)) := by
    rw [kept, List.append_assoc]
    exact (((List.perm_cons_erase hmem).map Prod.snd).append_left _).append_left _
  rw [if_pos hroom] at hstep
  cases hstep
  exact haccounted.trans hmoved.subperm

theorem take_accounted (haccounted : state.Accounted) (hstep : state.take = some next) :
    next.Accounted := by
  rw [take] at hstep
  split at hstep
  · rename_i msg msgChan hconsumer hchan
    cases hstep
    have hmoved : state.kept.Perm
        (msg :: state.taken ++ (msgChan ++ state.acknowledged.map Prod.snd)) := by
      rw [kept, hchan]
      exact List.perm_middle
    exact haccounted.trans hmoved.subperm
  · simp at hstep

theorem handle_accounted (haccounted : state.Accounted) (hstep : state.handle = some next) :
    next.Accounted := by
  rw [handle] at hstep
  split at hstep
  · split at hstep <;> cases hstep <;> exact haccounted
  · simp at hstep

theorem accounted_step {label : DispatchStep} (haccounted : state.Accounted)
    (hroom : state.RoomLeft label) (hstep : state.step label = some next) :
    next.Accounted := by
  cases label with
  | publish this msg reply => exact publish_accounted haccounted hstep
  | enqueue this => exact enqueue_accounted hroom haccounted hstep
  | take => exact take_accounted haccounted hstep
  | handle => exact handle_accounted haccounted hstep
  | register key | unregister key =>
      cases hstep
      exact haccounted

/-- As long as every offered message finds room in the channel, each acknowledged
message is in the hands of the goroutine that acknowledged it, in the channel, or
taken out of it. -/
theorem accounted_of_run {labels : List DispatchStep}
    (hroom : Along step RoomLeft dispatchStart labels)
    (hrun : run step dispatchStart labels = some state) :
    state.acked.Subperm
      (state.taken ++ (state.msgChan ++ state.acknowledged.map Prod.snd)) := by
  have hstart : dispatchStart.Accounted := List.nil_subperm
  have haccounted : state.Accounted :=
    run_invariant (fun _ _ _ => accounted_step) hstart hroom hrun
  exact haccounted

/-- The service of a device "d" of the product "p". -/
def deviceD : ServiceRef := ⟨1, textBytes "p", textBytes "d"⟩

/-- PUBLISH with QoS 1 to "/p/d". -/
def toDeviceD : PublishMessage :=
  { newPublishMessage with
    mtypeflags := 0x32
    topic := textBytes "/p/d"
    payload := textBytes "x" }

theorem accounted_of_run_two :
    ∃ state, run step dispatchStart [.publish deviceD toDeviceD .sent, .enqueue deviceD] =
      some state ∧ state.acked.Subperm
        (state.taken ++ (state.msgChan ++ state.acknowledged.map Prod.snd)) := by
  have hrun : run step dispatchStart [.publish deviceD toDeviceD .sent, .enqueue deviceD] =
      some ⟨[], [], [toDeviceD], .waiting, [toDeviceD], [], []⟩ := by decide +kernel
  exact ⟨_, hrun, accounted_of_run (by decide +kernel) hrun⟩

section Overflow

variable {this : ServiceRef} {msg : PublishMessage}

/-- A message that is acknowledged and offered to a full channel is dropped. -/
def offered (msg : PublishMessage) (state : Dispatch) : Dispatch :=
  { state with
    acked := msg :: state.acked
    msgChan := if state.msgChan.length < msgChanCapacity then state.msgChan ++ [msg]
      else state.msgChan }

theorem run_offer (hack : processPublish this msg = .acknowledge)
    (hidle : state.acknowledged = []) :
    run step state [.publish this msg .sent, .enqueue this] = some (offered msg state) := by
  by_cases hroom : state.msgChan.length < msgChanCapacity <;>
    simp [run, step, publish, acknowledge, enqueue, offered, hidle, hack, hroom]

theorem run_offers (hack : processPublish this msg = .acknowledge)
    (hidle : state.acknowledged = []) (count : ℕ) :
    run step state
        (List.replicate count [.publish this msg .sent, .enqueue this]).flatten =
      some ((offered msg)^[count] state) := by
  induction count generalizing state with
  | zero => rfl
  | succ count ih =>
      have hidleNext : (offered msg state).acknowledged = [] := hidle
      rw [List.replicate_succ, List.flatten_cons, run_append (run_offer hack hidle),
        ih hidleNext]
      rfl

theorem iterate_offered (msg : PublishMessage) (count : ℕ) :
    ((offered msg)^[count] dispatchStart).acked.length = count ∧
      ((offered msg)^[count] dispatchStart).msgChan.length = min count msgChanCapacity ∧
      ((offered msg)^[count] dispatchStart).taken = [] ∧
      ((offered msg)^[count] dispatchStart).acknowledged = [] := by
  induction count with
  | zero => exact ⟨rfl, rfl, rfl, rfl⟩
  | succ count ih =>
      obtain ⟨hacked, hchan, htaken, hidle⟩ := ih
      rw [Function.iterate_succ_apply']
      refine ⟨?_, ?_, htaken, hidle⟩
      · rw [offered, List.length_cons, hacked]
      · simp only [offered]
        split
        · rw [List.length_append, List.length_singleton]
          omega
        · omega

/-- With nothing taken out of the channel the message behind the first 1024 is lost. -/
theorem acked_message_dropped :
    ∃ state, run step dispatchStart
        (List.replicate 1025 [.publish deviceD toDeviceD .sent, .enqueue deviceD]).flatten =
      some state ∧ state.acked.length = 1025 ∧
        ¬ state.acked.Subperm
          (state.taken ++ (state.msgChan ++ state.acknowledged.map Prod.snd)) := by
  obtain ⟨hacked, hchan, htaken, hidle⟩ := iterate_offered toDeviceD 1025
  refine ⟨_, run_offers (by decide +kernel) rfl 1025, hacked, fun hsubperm => ?_⟩
  have hlength := hsubperm.length_le
  rw [htaken, hidle, List.length_append, List.length_append, hacked, hchan] at hlength
  simp [msgChanCapacity] at hlength

end Overflow

end Dispatch

end Xmqtt.Service
