import Xmqtt.Service.ReceiveLoop
import Xmqtt.Service.Replies

/-!
# A whole connection

The receiver of a connection cuts packets off the stream and processes them, while
other goroutines push messages to the device, which puts entries into `Pub1ack`, and
the queue's own goroutine lets entries expire.  A PUBACK is processed in several
steps, between which the others may come: `Ack`, `Acked`, and three for each entry
that was completed.

The setting: what `sendData` writes is written, the heartbeat goroutine takes what is sent on
`keepAliveCH` at once, and the service is not stopped by another goroutine meanwhile, so
`isDone` does not hold behind `processIncoming`.
-/

namespace Xmqtt.Service

open Xmqtt.Go Xmqtt.Message Xmqtt.Sessions

/-! ## One packet -/

/-- The next message of the stream and what is left behind it, or how the loop ends.
`behind` is the error of a read behind the last byte. -/
def nextMessage (behind : ReadErr) (stream : Bytes) : Except LoopEnd (HandOver × Bytes) :=
  match getPeekMessageSize stream with
  | .error err => .error (.refused (if err = .eof then behind else err))
  | .ok (mtype, total) =>
      if maxBufferSize < total then .error (.refused .tooLarge)
      else
        match getPeekMessage stream mtype total with
        | (.fail _ _ err, _) => .error (.refused (.err err))
        | (.done (some message) _, rest) => .ok (⟨message, readFull stream total.toNat⟩, rest)
        | _ => .error .panicked

section NextMessage

variable {process : List Xmqtt.Message → Verdict} {behind : ReadErr} {rounds : ℕ}
variable {past : List Xmqtt.Message} {stream rest : Bytes} {handed : HandOver}

theorem receiverData_of_nextMessage_error {last : LoopEnd}
    (hnext : nextMessage behind stream = .error last) :
    receiverData process behind (rounds + 1) past stream = ([], last) := by
  rw [nextMessage] at hnext
  cases hsize : getPeekMessageSize stream with
  | error err =>
      rw [hsize] at hnext
      injection hnext with hlast
      rw [receiverData, hsize, ← hlast]
  | ok size =>
      obtain ⟨mtype, total⟩ := size
      rw [hsize] at hnext
      dsimp only at hnext
      by_cases hlarge : maxBufferSize < total
      · rw [if_pos hlarge] at hnext
        injection hnext with hlast
        simp only [receiverData, hsize, if_pos hlarge, hlast]
      · rw [if_neg hlarge] at hnext
        simp only [receiverData, hsize, if_neg hlarge]
        rcases hdecode : getPeekMessage stream mtype total with ⟨outcome, rest⟩
        rw [hdecode] at hnext
        rcases outcome with ⟨_ | message, n⟩ | ⟨state, n, err⟩ | _
        · injection hnext with hlast
          exact congrArg _ hlast
        · cases hnext
        · injection hnext with hlast
          exact congrArg _ hlast
        · injection hnext with hlast
          exact congrArg _ hlast

/-- The loop hands the message over and goes on as `processIncoming` says. -/
theorem receiverData_of_nextMessage (hnext : nextMessage behind stream = .ok (handed, rest)) :
    receiverData process behind (rounds + 1) past stream =
      match process (handed.message :: past) with
      | .goOn => (handed :: (receiverData process behind rounds (handed.message :: past) rest).1,
          (receiverData process behind rounds (handed.message :: past) rest).2)
      | verdict => ([handed], .stopped verdict) := by
  rw [nextMessage] at hnext
  cases hsize : getPeekMessageSize stream with
  | error err =>
      rw [hsize] at hnext
      cases hnext
  | ok size =>
      obtain ⟨mtype, total⟩ := size
      rw [hsize] at hnext
      dsimp only at hnext
      by_cases hlarge : maxBufferSize < total
      · rw [if_pos hlarge] at hnext
        cases hnext
      · rw [if_neg hlarge] at hnext
        simp only [receiverData, hsize, if_neg hlarge]
        rcases hdecode : getPeekMessage stream mtype total with ⟨outcome, left⟩
        rw [hdecode] at hnext
        rcases outcome with ⟨_ | message, n⟩ | ⟨state, n, err⟩ | _
        · cases hnext
        · injection hnext with hpair
          obtain ⟨rfl, rfl⟩ := Prod.mk.inj hpair
          rfl
        · cases hnext
        · cases hnext

/-- The message was decoded from a frame, and the stream is shorter than before. -/
theorem decoded_of_nextMessage (hnext : nextMessage behind stream = .ok (handed, rest)) :
    Decoded handed.message ∧ rest.length < stream.length := by
  rw [nextMessage] at hnext
  split at hnext
  · cases hnext
  · next mtype total hsize =>
      obtain ⟨frame, hbegins, rfl, rfl⟩ := exists_begins_of_size hsize
      split_ifs at hnext with hlarge
      rw [getPeekMessage_eq, hbegins.filled] at hnext
      split at hnext
      · cases hnext
      · next message n left hdecode =>
          obtain ⟨hdone, hleft⟩ := Prod.mk.inj hdecode
          injection hnext with hpair
          obtain ⟨rfl, rfl⟩ := Prod.mk.inj hpair
          have hheader := hbegins.header
          rw [Frame.headerLength] at hheader
          have hframe : 1 ≤ frame.bytes.length := Nat.le_add_left 1 _
          refine ⟨?_, ?_⟩
          · rw [decodePacket] at hdone
            split at hdone
            · cases hdone
            · next fresh hnew =>
                obtain ⟨inner, hinner, hsome⟩ := Outcome.map_eq_done_iff.mp hdone
                injection hsome with hsome
                exact ⟨frame, fresh, n, hnew, hsome ▸ hinner⟩
          · rw [← hleft, List.length_drop]
            omega
      · cases hnext

end NextMessage

/-! ## The receiver and the other goroutines -/

/-- Where the receiver is: at the next packet, behind `Ack` of a PUBACK, in the loop of
`processAcked`, or at its end. -/
inductive Standing where
  | reading
  | acking
  | completing
  | ended (last : LoopEnd)
  deriving DecidableEq, Repr

/-- A connection.  `Pub1ack` is the queue in `inFlight`.  `heard` are the messages that were
handed to `processIncoming`; what it has done for them is in `sent`, `heartbeats`,
`offered` and `completed`. -/
structure Conversation where
  receiver : Receiver
  inFlight : InFlight
  behind : ReadErr
  stream : Bytes
  standing : Standing
  heard : List HandOver
  sent : List Bytes
  heartbeats : List ℤ
  offered : List PublishMessage
  completed : List Completion

/-- A call of another goroutine on `Pub1ack`, or the next step of the receiver. -/
inductive ConversationStep where
  | other (call : Ackqueue.Call)
  | receive (env : Ambient)
  deriving DecidableEq, Repr

/-- What `processIncoming` leads to. -/
def Standing.after : Ending → Standing
  | .returned none => .reading
  | .returned (some err) => .ended (.stopped (.error err))
  | .panicked => .ended (.stopped .panicked)

namespace Conversation

variable (this : Conversation)

def ended (last : LoopEnd) : Conversation := { this with standing := .ended last }

/-- `Pub1ack.Ack`, whose error is dropped. -/
def ackPub1 (env : Ambient) (msg : Xmqtt.Message) : Conversation :=
  match (this.inFlight.queue.ack msg env.gPacketId env.choice).2,
      this.inFlight.step (.call (.ack msg env.gPacketId env.choice)) with
  | .returned _, some inFlight => { this with inFlight := inFlight, standing := .acking }
  | _, _ => this.ended (.stopped .panicked)

/-- `processIncoming`, which for a PUBACK goes on in further steps. -/
def handle (env : Ambient) (msg : Xmqtt.Message) : Conversation :=
  match msg with
  | .puback _ => this.ackPub1 env msg
  | _ =>
      let handled := this.receiver.processIncoming env msg
      { this with
        receiver := handled.receiver
        sent := this.sent ++ handled.sent
        heartbeats := this.heartbeats ++ handled.heartbeat.toList
        offered := this.offered ++ handled.offered.toList
        standing := .after handled.ending }

/-- A round of the receive loop. -/
def round (env : Ambient) : Conversation :=
  match nextMessage this.behind this.stream with
  | .error last => this.ended last
  | .ok (handed, rest) =>
      { this with stream := rest, heard := this.heard ++ [handed] }.handle env handed.message

/-- `Acked` on `Pub1ack`. -/
def acked : Conversation :=
  match this.inFlight.acked with
  | some inFlight => { this with inFlight := inFlight, standing := .completing }
  | none => this.ended (.stopped .panicked)

/-- The receiver goes on with the entries that it has taken. -/
def advance (label : InFlightStep) : Conversation :=
  match this.inFlight.step label with
  | some inFlight => { this with inFlight := inFlight }
  | none => this

/-- The next step in the loop of `processAcked`. -/
def complete : Conversation :=
  match this.inFlight.taken with
  | [] => { this with standing := .reading }
  | ackmsg :: _ =>
      match this.inFlight.phase with
      | .decoding =>
          match processEntry this.inFlight.queue.bytesPool ackmsg with
          | .panicked => this.ended (.stopped .panicked)
          | .skipped => this.advance .process
          | .read msg ack =>
              if assertsPublish ackmsg msg then
                { this.advance .process with
                  completed :=
                    this.completed ++ if ackmsg.onComplete then [⟨msg, ack⟩] else [] }
              else this.ended (.stopped .panicked)
      | .puttingAckbuf => this.advance .putAckbuf
      | .puttingMsgbuf => this.advance .putMsgbuf

/-- The others call `Wait`, and the goroutine of the queue looks for expired entries. -/
def interfere (call : Ackqueue.Call) : Option Conversation :=
  match call with
  | .wait .. | .tick _ =>
      (this.inFlight.step (.call call)).map fun inFlight => { this with inFlight := inFlight }
  | .ack .. | .acked => none

def step : ConversationStep → Option Conversation
  | .other call => this.interfere call
  | .receive env =>
      match this.standing with
      | .reading => some (this.round env)
      | .acking => some this.acked
      | .completing => some this.complete
      | .ended _ => none

variable {this}

/-- The others leave the entries alone that the receiver has taken. -/
theorem of_interfere {call : Ackqueue.Call} {next : Conversation}
    (hnext : this.interfere call = some next) :
    ∃ inFlight, this.inFlight.step (.call call) = some inFlight ∧
      inFlight.taken = this.inFlight.taken ∧ next = { this with inFlight := inFlight } := by
  cases call with
  | ack msg gPacketId choice => cases hnext
  | acked => cases hnext
  | wait msg onComplete gPacketId choice now | tick now =>
      injection hnext with hnext
      exact ⟨_, rfl, rfl, hnext.symm⟩

end Conversation

/-- A new connection with the bytes that it is going to receive. -/
def newConversation (service : ServiceRef) (cmsg : ConnectMessage) (behind : ReadErr)
    (stream : Bytes) : Conversation :=
  ⟨newReceiver service cmsg, .new, behind, stream, .reading, [], [], [], [], []⟩

/-- The other goroutines wait for the acks of messages that were pushed. -/
def ConversationStep.Pushes : ConversationStep → Prop
  | .other call => Admitted Pushable (.call call)
  | .receive _ => True

theorem advance_of_step {this : Conversation} {label : InFlightStep} {inFlight : InFlight}
    (hstep : this.inFlight.step label = some inFlight) :
    this.advance label = { this with inFlight := inFlight } := by
  rw [Conversation.advance, hstep]

end Xmqtt.Service
