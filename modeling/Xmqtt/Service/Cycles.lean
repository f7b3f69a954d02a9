import Xmqtt.Message.Methods
import Xmqtt.Service.Replies

/-!
# Ack cycles

For five kinds of messages the service waits, each on a queue of its own, until
the last ack has come and `processAcked` calls `onComplete`.  All queues are
made by one constructor, but only `Pub1ack` gets a pool that makes buffers, and
the slot for PINGREQ carries no bytes at all.
-/

namespace Xmqtt.Service

open Xmqtt.Go Xmqtt.Message Xmqtt.Sessions

/-- What the service sends and then waits for. -/
inductive Traffic where
  | publishQos1
  | publishQos2
  | subscribe
  | unsubscribe
  | ping
  deriving DecidableEq, Repr

namespace Traffic

/-- The queue of the session on which it waits. -/
def queue : Traffic → QueueName
  | publishQos1 => .pub1ack
  | publishQos2 => .pub2out
  | subscribe => .suback
  | unsubscribe => .unsuback
  | ping => .pingack

/-- A message of this kind.  All but PINGREQ have a packet id. -/
def Sends : Traffic → Xmqtt.Message → Prop
  | publishQos1, msg => ∃ pm : PublishMessage, msg = .publish pm ∧ pm.Made ∧ pm.qos = 1 ∧
      pm.packetIdValue ≠ 0 ∧ Pushable pm
  | publishQos2, msg => ∃ pm : PublishMessage, msg = .publish pm ∧ pm.Made ∧ pm.qos = 2 ∧
      pm.packetIdValue ≠ 0 ∧ Pushable pm
  | subscribe, msg => ∃ this, msg = .subscribe this ∧ this.packetIdValue ≠ 0
  | unsubscribe, msg => ∃ this, msg = .unsubscribe this ∧ this.packetIdValue ≠ 0
  | ping, msg => msg = .pingreq newPingreqMessage

/-- The ack that ends the cycle of `msg`. -/
def Ends (traffic : Traffic) (msg ack : Xmqtt.Message) : Prop :=
  ack.packetId = msg.packetId ∧
    match traffic with
    | publishQos1 => ∃ this : PubackMessage, ack = .puback this ∧ this.Made .puback
    | publishQos2 => ∃ this : PubackMessage, ack = .pubcomp this ∧ this.Made .pubcomp
    | subscribe => ∃ this : SubackMessage, ack = .suback this ∧ (ack.Built ∨
        ∃ (frame : Frame) (n : ℕ),
          newSubackMessage.decode (Slice.full frame.bytes) = .done this n)
    | unsubscribe => ∃ this : PubackMessage, ack = .unsuback this ∧ this.Made .unsuback
    | ping => ack = .pingresp newPingrespMessage

/-- What may have happened on the queue before: only messages of this kind and their acks. -/
def History : Traffic → InFlightStep → Prop
  | publishQos1 => Admitted Pushable
  | _ => fun _ => True

end Traffic

/-- The queue called `t` before anything has happened. -/
def fresh (t : String) : InFlight := ⟨newAckqueue 16 t, [], .decoding, .new, []⟩

/-- `Wait`, the last ack and `processAcked` end without a panic or an error, and there is one
call of `onComplete` with the packet id of the message. -/
structure Completes (queue : Ackqueue) (msg ack : Xmqtt.Message) (sending receiving : Ambient)
    (now : ℤ) : Prop where
  waits : (queue.wait msg true sending.gPacketId sending.choice now).2 = .returned none
  acks : ((queue.wait msg true sending.gPacketId sending.choice now).1.ack ack
    receiving.gPacketId receiving.choice).2 = .returned none
  calls : ∃ after completed, processAcked ((queue.wait msg true sending.gPacketId
      sending.choice now).1.ack ack receiving.gPacketId receiving.choice).1 =
        some (after, completed) ∧
    completed.countP (fun call => call.msg.packetId = msg.packetId) = 1

/-! ## `Pub1ack` -/

/-- A message that is accepted behind completed ones and then takes its last ack is returned
with all of them, and only once. -/
theorem count_of_completed {fifo : Fifo} {msg : Xmqtt.Message}
    (hdone : ∀ pending ∈ fifo.pending, pending.completed = true)
    (hnew : ¬ fifo.Waits msg.packetId) (haccepts : Fifo.accepts msg = true) (now : ℤ)
    {mtype : MessageType} (hacks : Ackqueue.acksEntry mtype = true)
    (hcompletes : Ackqueue.completes mtype = true) :
    (((((fifo.wait msg true now).ack mtype msg.packetId).pending.takeWhile
      Pending.completed).filter Pending.onComplete).map Pending.pktid).count
        msg.packetId = 1 := by
  have hothers : (fifo.pending.map fun pending =>
      if pending.pktid = msg.packetId then { pending with latest := mtype } else pending) =
        fifo.pending := by
    refine (List.map_congr_left fun pending hmem => ?_).trans (List.map_id _)
    exact if_neg fun hid => hnew ⟨pending, hmem, hid⟩
  rw [Fifo.wait_of_accepts haccepts hnew, Fifo.ack, if_pos hacks]
  simp only [List.map_append, hothers, List.map_cons, List.map_nil]
  rw [if_pos (by rfl), List.takeWhile_append_of_pos hdone,
    List.takeWhile_cons_of_pos (by exact hcompletes), List.takeWhile_nil, List.filter_append,
    List.map_append, List.count_append]
  have hnone : ((fifo.pending.filter Pending.onComplete).map Pending.pktid).count
      msg.packetId = 0 := by
    apply List.count_eq_zero_of_not_mem
    intro hmem
    obtain ⟨pending, hpending, hid⟩ := List.mem_map.mp hmem
    exact hnew ⟨pending, List.mem_of_mem_filter hpending, hid⟩
  rw [hnone, Nat.zero_add, List.filter_cons_of_pos (by rfl)]
  exact List.count_singleton_self

/-- On `Pub1ack` the cycle completes. -/
theorem completes_of_sound {backlog : Backlog} {state : InFlight}
    (hsound : Sound Pushable backlog state) (htaken : state.taken = [])
    (hacked : ∀ entry ∈ state.queue.waiting, Backlog.completed entry = true)
    {pm : PublishMessage} (hmade : pm.Made) (hqos : pm.qos = 1) (hid : pm.packetIdValue ≠ 0)
    (hpushable : Pushable pm) (hencodes : pm.encodes = true)
    (hnew : ∀ entry ∈ state.queue.waiting, entry.pktid ≠ pm.packetIdValue)
    {this : PubackMessage} (hack : this.Made .puback)
    (hsame : this.packetIdValue = pm.packetIdValue) (sending receiving : Ambient) (now : ℤ) :
    Completes state.queue (.publish pm) (.puback this) sending receiving now := by
  have hqos0 : pm.qos ≠ qosAtMostOnce := by
    rw [hqos]
    decide
  rw [hsound.represents.waiting_eq] at hacked hnew
  have hidle : ¬ backlog.Waits (Xmqtt.Message.publish pm).packetId := by
    rintro ⟨entry, hmem, heq⟩
    exact hnew entry hmem heq
  have hwaited := hsound.wait hmade hid hpushable true sending.gPacketId sending.choice now
  have hanswered := hwaited.ack .puback hack receiving.gPacketId receiving.choice
  constructor
  case waits =>
    rw [(hsound.represents.wait _ _ _ _ _).2, Backlog.wait, if_neg hqos0, Backlog.waitInsert,
      Backlog.insert, if_neg hidle, if_pos (hsound.owns.fill_publish.mpr hencodes)]
    rfl
  case acks => exact hwaited.ack_returned .puback hack _ _
  case calls =>
    obtain ⟨after, completed, hprocessed, hids⟩ :=
      processAcked_of_sound (fun _ => Pushable.msglen_lt) hanswered htaken
    have hdone : ∀ pending ∈ state.fifo.pending, pending.completed = true := by
      intro pending hmem
      have hshown : pending.entry ∈ backlog.entries.map AckMsg.bare := by
        rw [hsound.refines.entries]
        exact List.mem_map_of_mem hmem
      obtain ⟨entry, hentry, hbare⟩ := List.mem_map.mp hshown
      exact (congrArg Backlog.completed hbare).symm.trans (hacked entry hentry)
    refine ⟨after, completed, hprocessed, ?_⟩
    have htype : (Xmqtt.Message.puback this).type = .puback := AckKind.puback.type hack
    have hpid : (Xmqtt.Message.puback this).packetId =
        (Xmqtt.Message.publish pm).packetId := hsame
    rw [htype, hpid] at hids
    calc completed.countP (fun call =>
          call.msg.packetId = (Xmqtt.Message.publish pm).packetId)
        = (completed.map fun call => call.msg.packetId).count
            (Xmqtt.Message.publish pm).packetId := by
          rw [List.count_eq_countP, List.countP_map]
          rfl
      _ = 1 := by
          rw [hids]
          exact count_of_completed hdone ((hsound.refines.waits_iff _).not.mp hidle)
            (by simp [Fifo.accepts, hqos0, hencodes]) now rfl rfl

/-! ## The other queues -/

/-- A pool that was never initialised. -/
structure Dry (bp : BytesPool) : Prop where
  width_eq : bp.width = 8192
  initialized : bp.initialized = false

namespace Dry

variable {bp : BytesPool}

theorem put (hdry : Dry bp) (slice : Option BufferRef) : Dry (bp.put slice) := by
  cases slice with
  | none => exact hdry
  | some bs =>
      rw [BytesPool.put]
      split_ifs
      · exact ⟨hdry.width_eq, hdry.initialized⟩
      · exact hdry

theorem get (hdry : Dry bp) {length choice : ℕ} {next : BytesPool} {bs : BufferRef}
    (hget : bp.get length choice = some (next, bs)) : Dry next := by
  have hsame : ∀ heap free, (⟨bp.width, bp.initialized, heap, free⟩ : BytesPool) = next →
      Dry next := by
    rintro heap free rfl
    exact ⟨hdry.width_eq, hdry.initialized⟩
  rw [BytesPool.get] at hget
  by_cases hshort : length < bp.width
  · rw [if_pos hshort] at hget
    cases hfree : bp.free[choice]? with
    | none =>
        rw [hfree, hdry.initialized] at hget
        cases hget
    | some taken =>
        rw [hfree] at hget
        exact hsame _ _ (congrArg Prod.fst (Option.some.inj hget))
  · rw [if_neg hshort] at hget
    exact hsame _ _ (congrArg Prod.fst (Option.some.inj hget))

theorem fill (hdry : Dry bp) (msg : Xmqtt.Message) (gPacketId : UInt64) (choice : ℕ) :
    Dry (bp.fill msg gPacketId choice).bytesPool := by
  rw [BytesPool.fill]
  cases hget : bp.get msg.len.2 choice with
  | none => exact hdry
  | some got =>
      obtain ⟨next, bs⟩ := got
      have hnext := hdry.get hget
      have hwrite : ∀ contents, Dry (next.write bs contents) :=
        fun _ => ⟨hnext.width_eq, hnext.initialized⟩
      simp only
      split
      · exact hnext
      · exact hwrite _
      · exact hwrite _

/-- When `sync.Pool` has dropped what was put back, nothing shorter than a buffer of the
pool finds one. -/
theorem fill_panicked (hdry : Dry bp) {msg : Xmqtt.Message} (hshort : msg.len.2 < 8192)
    (gPacketId : UInt64) : (bp.fill msg gPacketId bp.free.length).ending = .panicked := by
  have hnone : bp.free[bp.free.length]? = none := List.getElem?_eq_none le_rfl
  have hget : bp.get msg.len.2 bp.free.length = none := by
    rw [BytesPool.get, hdry.width_eq, if_pos hshort, hnone, hdry.initialized]
    rfl
  rw [BytesPool.fill, hget]

theorem release (hdry : Dry bp) (entries : List AckMsg) :
    Dry (entries.foldl Backlog.release bp) := by
  induction entries generalizing bp with
  | nil => exact hdry
  | cons entry entries ih => exact ih ((hdry.put _).put _)

end Dry

theorem dry_insert {backlog : Backlog} (hdry : Dry backlog.bytesPool) (msg : Xmqtt.Message)
    (onComplete : Bool) (gPacketId : UInt64) (choice : ℕ) (now : ℤ) :
    Dry (backlog.insert msg onComplete gPacketId choice now).1.bytesPool := by
  have hfill := hdry.fill msg gPacketId choice
  rw [Backlog.insert]
  split_ifs
  · exact hdry
  · simp only
    split_ifs
    · exact hfill
    · exact hfill

/-- No call initialises a pool. -/
theorem dry_step {backlog : Backlog} (hdry : Dry backlog.bytesPool) (call : Ackqueue.Call) :
    Dry (backlog.step call).1.bytesPool := by
  cases call with
  | wait msg onComplete gPacketId choice now =>
      have hinsert := dry_insert hdry msg onComplete gPacketId choice now
      change Dry (backlog.wait msg onComplete gPacketId choice now).1.bytesPool
      unfold Backlog.wait
      split
      · split_ifs
        · exact hdry
        · exact hinsert
      · exact hinsert
      · exact hinsert
      · exact hdry
      · exact hdry
  | ack msg gPacketId choice =>
      change Dry (backlog.ack msg gPacketId choice).1.bytesPool
      rw [Backlog.ack]
      split_ifs
      · exact hdry.fill msg gPacketId choice
      · exact hdry
      · exact hdry
      · exact hdry
  | acked => exact hdry
  | tick now => exact hdry.release _

/-- The ring keeps step with a backlog, and the pool was never initialised. -/
def Unserved (state : InFlight) : Prop :=
  ∃ backlog, Represents state.queue backlog ∧ Dry backlog.bytesPool

theorem Unserved.put {state : InFlight} (hstate : Unserved state) (slice : Option BufferRef)
    {next : InFlight}
    (hqueue : next.queue =
      { state.queue with bytesPool := state.queue.bytesPool.put slice }) : Unserved next := by
  obtain ⟨backlog, hrep, hdry⟩ := hstate
  refine ⟨{ backlog with bytesPool := backlog.bytesPool.put slice }, ?_, hdry.put slice⟩
  rw [hqueue, hrep.bytesPool_eq]
  exact hrep.withPool _

theorem Unserved.step {state next : InFlight} (hstate : Unserved state) {label : InFlightStep}
    (hstep : state.step label = some next) : Unserved next := by
  obtain ⟨queue, taken, phase, fifo, given⟩ := state
  cases label with
  | call call =>
      obtain ⟨backlog, hrep, hdry⟩ := hstate
      refine ⟨(backlog.step call).1, ?_, dry_step hdry call⟩
      have hnext := (hrep.step call).1
      cases call with
      | acked =>
          have hacked := acked_of_inFlight hstep
          have hqueue : queue.acked.1 = next.queue := congrArg Prod.fst hacked
          rw [← hqueue]
          exact hnext
      | wait msg onComplete gPacketId choice now | ack msg gPacketId choice | tick now =>
          injection hstep with hstep
          exact hstep ▸ hnext
  | process =>
      rw [InFlight.step] at hstep
      split at hstep
      · split at hstep
        · injection hstep with hstep
          exact hstep ▸ hstate
        · injection hstep with hstep
          exact hstep ▸ hstate
        · injection hstep with hstep
          exact hstep ▸ hstate
      · cases hstep
  | putAckbuf | putMsgbuf =>
      rw [InFlight.step] at hstep
      split at hstep
      · injection hstep with hstep
        exact hstate.put _ (by rw [← hstep]; rfl)
      · cases hstep

theorem unserved_of_run {t : String} (hname : t ≠ "Pub1ack") {labels : List InFlightStep}
    {last : InFlight} (hrun : Core.run InFlight.step (fresh t) labels = some last) :
    Unserved last := by
  have hstart : Unserved (fresh t) := 
    ⟨.new t, Represents.newNamed t, rfl, beq_eq_false_iff_ne.mpr hname⟩
  have hstep : ∀ state label next, Unserved state → True →
      InFlight.step state label = some next → Unserved next :=
    fun state label next hstate _ hnext => hstate.step hnext
  exact Core.run_invariant hstep hstart (Core.along_of_forall (fun _ _ _ => trivial) _) hrun

/-- The messages that wait in the ring. -/
def InRing : Xmqtt.Message → Prop
  | .publish pm => pm.qos ≠ qosAtMostOnce
  | .subscribe _ | .unsubscribe _ => True
  | _ => False

theorem wait_of_inRing {msg : Xmqtt.Message} (hring : InRing msg) (backlog : Backlog)
    (onComplete : Bool) (gPacketId : UInt64) (choice : ℕ) (now : ℤ) :
    backlog.wait msg onComplete gPacketId choice now =
      backlog.waitInsert msg onComplete gPacketId choice now := by
  cases msg with
  | publish pm => exact if_neg hring
  | subscribe _ => rfl
  | unsubscribe _ => rfl
  | _ => exact hring.elim

/-- A long message gets a buffer of its own, which takes what was sent. -/
theorem fill_of_long {bp : BytesPool} (hdry : Dry bp) {msg : Xmqtt.Message}
    (hlong : ¬ msg.len.2 < 8192) {gPacketId : UInt64}
    (hsent : (sendData msg gPacketId).1 = .returned none) (choice : ℕ) :
    (bp.fill msg gPacketId choice).ending = .returned none := by
  have hget : bp.get msg.len.2 choice = some (bp.make msg.len.2) := by
    rw [BytesPool.get, hdry.width_eq, if_neg hlong]
  have hbytes : (bp.make msg.len.2).1.bytes (bp.make msg.len.2).2 =
      List.replicate msg.len.2 0 := bp.bytes_make_self _
  rw [sendData] at hsent
  split at hsent
  · cases hsent
  · cases hsent
  · next state n hdone =>
      simp only [BytesPool.fill, hget, hbytes, hdone]

/-- In the ring of a queue whose pool was never initialised no cycle completes that ends
with a short ack. -/
theorem not_completes_of_inRing {state : InFlight} (hstate : Unserved state)
    {msg ack : Xmqtt.Message} (hring : InRing msg) {gPacketId : UInt64}
    (hsent : (sendData msg gPacketId).1 = .returned none)
    (hnew : ∀ entry ∈ state.queue.waiting, entry.pktid ≠ msg.packetId)
    (hacks : Ackqueue.acksEntry ack.type = true) (hshort : ack.len.2 < 8192)
    (hid : ack.packetId = msg.packetId) :
    ¬ ∀ choice receiving now,
      Completes state.queue msg ack ⟨gPacketId, choice⟩ receiving now := by
  intro hall
  obtain ⟨backlog, hrep, hdry⟩ := hstate
  rw [hrep.waiting_eq] at hnew
  have hidle : ¬ backlog.Waits msg.packetId := by
    rintro ⟨entry, hmem, heq⟩
    exact hnew entry hmem heq
  let choice := backlog.bytesPool.free.length
  let waited := (backlog.wait msg true gPacketId choice 0).1
  have hcompletes := hall choice ⟨0, waited.bytesPool.free.length⟩ 0
  obtain ⟨hrepWaited, hending⟩ := hrep.wait msg true gPacketId choice 0
  have hwaits := hending.symm.trans hcompletes.waits
  have hwaited : backlog.wait msg true gPacketId choice 0 = _ :=
    wait_of_inRing hring backlog true gPacketId choice 0
  rw [Backlog.waitInsert, Backlog.insert, if_neg hidle] at hwaited
  by_cases hlong : msg.len.2 < 8192
  · -- `Wait` itself gets no buffer.
    have hpanicked := hdry.fill_panicked hlong gPacketId
    rw [hwaited] at hwaits
    simp [choice, hpanicked, Ackqueue.dropError] at hwaits
  · -- `Wait` makes a buffer of its own, and then `Ack` gets none.
    have hfilled := fill_of_long hdry hlong hsent choice
    simp only [hfilled, if_true] at hwaited
    have hthere : waited.Waits ack.packetId := by
      refine ⟨.waiting msg (backlog.bytesPool.fill msg gPacketId choice).buffer true 0, ?_,
        hid.symm⟩
      simp only [waited, hwaited]
      exact List.mem_append_right _ (List.mem_singleton_self _)
    have hdryWaited : Dry waited.bytesPool := by
      simp only [waited, hwaited]
      exact hdry.fill msg gPacketId choice
    have hackEnding := (hrepWaited.ack ack 0 waited.bytesPool.free.length).2
    have hpanicked := hdryWaited.fill_panicked hshort 0
    have hreturned := hackEnding.symm.trans hcompletes.acks
    rw [Backlog.ack_of_waits hacks hthere, hpanicked] at hreturned
    cases hreturned

/-- The entry of a PINGREQ that was answered. -/
def answeredPing : AckMsg :=
  { AckMsg.zero with mtype := .pingreq, state := .pingresp, onComplete := true }

/-- It has no buffer, and `Decode` reads the first byte of what is not there. -/
theorem processEntry_answeredPing (bp : BytesPool) :
    processEntry bp answeredPing = .panicked := rfl

theorem not_completes_pingreq {state : InFlight} (hstate : Unserved state)
    (sending receiving : Ambient) (now : ℤ) :
    ¬ Completes state.queue (.pingreq newPingreqMessage) (.pingresp newPingrespMessage) sending
      receiving now := by
  rintro ⟨-, -, after, completed, hprocessed, -⟩
  obtain ⟨backlog, hrep, hdry⟩ := hstate
  have hwaited := (hrep.wait (.pingreq newPingreqMessage) true sending.gPacketId
    sending.choice now).1
  have hanswered := (hwaited.ack (.pingresp newPingrespMessage) receiving.gPacketId
    receiving.choice).1
  obtain ⟨-, hreply⟩ := hanswered.acked
  have hfirst : (((backlog.wait (.pingreq newPingreqMessage) true sending.gPacketId
      sending.choice now).1.ack (.pingresp newPingrespMessage) receiving.gPacketId
        receiving.choice).1.acked).2 =
      .acked (answeredPing :: backlog.entries.takeWhile Backlog.completed) := rfl
  rw [hfirst] at hreply
  rw [processAcked] at hprocessed
  split at hprocessed
  · cases hprocessed
  · next queue ackdone hacked =>
      rw [hacked] at hreply
      injection hreply with hdone
      rw [hdone, processEntries, processEntry_answeredPing] at hprocessed
      cases hprocessed

/-! ## All queues -/

theorem idOf_ne_zero {header : Header} (hid : header.packetIdValue ≠ 0) : idOf header ≠ 0 := by
  intro hzero
  rw [← idOf_toNat, hzero] at hid
  exact hid rfl

/-- There is a short ack for every packet id. -/
theorem exists_ack {mtype : MessageType} {wrap : PubackMessage → Xmqtt.Message}
    (hkind : AckKind mtype wrap) {header : Header} (hid : header.packetIdValue ≠ 0) :
    ∃ this : PubackMessage, this.Made mtype ∧ (wrap this).packetId = header.packetIdValue ∧
      (wrap this).len.2 < 8192 := by
  have hdirty : (PubackMessage.setPacketId ⟨newHeader mtype⟩ (idOf header)).dirty = true :=
    Header.dirty_setPacketId rfl _
  refine ⟨PubackMessage.setPacketId ⟨newHeader mtype⟩ (idOf header), .setPacketId .new _,
    ?_, ?_⟩
  · rw [hkind.packetId]
    exact (Header.packetIdValue_setPacketId _ (idOf_ne_zero hid)).trans (idOf_toNat _)
  · rw [hkind.len, PubackMessage.len_of_dirty hdirty]
    norm_num

/-- A SUBACK with one return code. -/
def subackOf (header : Header) : SubackMessage :=
  ((newSubackMessage.setPacketId (idOf header)).addReturnCodes [0]).1

theorem ends_subackOf {this : SubscribeMessage} (hid : this.packetIdValue ≠ 0) :
    Traffic.subscribe.Ends (.subscribe this) (.suback (subackOf this.toHeader)) := by
  refine ⟨?_, subackOf this.toHeader, rfl, Or.inl ?_⟩
  · exact (Header.packetIdValue_setPacketId _ (idOf_ne_zero hid)).trans (idOf_toNat _)
  · have hnew : (Xmqtt.Message.suback newSubackMessage).Built :=
      .new (show MessageType.suback.new = _ from rfl)
    exact .perform (.addReturnCodes [0]) (.perform (.setPacketId (idOf this.toHeader)) hnew)

theorem len_subackOf (header : Header) :
    (Xmqtt.Message.suback (subackOf header)).len.2 < 8192 := by
  have hml : (3 : ℕ) ≤ 268435455 := by norm_num
  have hlen : (Xmqtt.Message.suback (subackOf header)).len.2 =
      ((subackOf header).lenOf 3).2 := rfl
  rw [hlen, Header.lenOf_of_le rfl hml]
  have hshort := ((subackOf header).sized 3).msglen_le
  omega

theorem type_subackOf (header : Header) :
    (Xmqtt.Message.suback (subackOf header)).type = .suback := by
  change ((newHeader .suback).setPacketId (idOf header)).type = .suback
  rw [Header.type, Header.mtypeflags_setPacketId]
  rfl

/-- Behind a history in which all earlier messages were acked, a cycle completes for every
last ack, whatever the pool hands out, on `Pub1ack` and on no other queue. -/
theorem completes_iff_publishQos1 {traffic : Traffic} {labels : List InFlightStep}
    {last : InFlight} (hhistory : ∀ label ∈ labels, traffic.History label)
    (hrun : Core.run InFlight.step (fresh traffic.queue.text) labels = some last)
    (hthrough : last.taken = [])
    (hacked : ∀ entry ∈ last.queue.waiting, Backlog.completed entry = true)
    {msg : Xmqtt.Message} (hsends : traffic.Sends msg) {gPacketId : UInt64}
    (hsent : (sendData msg gPacketId).1 = .returned none)
    (hnew : ∀ entry ∈ last.queue.waiting, entry.pktid ≠ msg.packetId) :
    (∀ ack choice receiving now, traffic.Ends msg ack →
      Completes last.queue msg ack ⟨gPacketId, choice⟩ receiving now) ↔
        traffic = .publishQos1 := by
  cases traffic with
  | publishQos1 =>
      refine iff_of_true ?_ rfl
      obtain ⟨pm, rfl, hmade, hqos, hid, hpushable⟩ := hsends
      obtain ⟨backlog, hsound⟩ := isSound_of_run hhistory hrun
      rintro _ choice receiving now ⟨hsame, this, rfl, hack⟩
      exact completes_of_sound hsound hthrough hacked hmade hqos hid hpushable
        (encodes_of_sendData hsent) hnew hack hsame ⟨gPacketId, choice⟩ receiving now
  | publishQos2 =>
      refine iff_of_false (fun hall => ?_) (by decide)
      obtain ⟨pm, rfl, -, hqos, hid, -⟩ := hsends
      obtain ⟨this, hmade, hsame, hshort⟩ := exists_ack .pubcomp hid
      have hring : InRing (.publish pm) := by
        rw [InRing, hqos]
        decide
      exact not_completes_of_inRing (unserved_of_run (by decide) hrun) hring hsent hnew
        (acksEntry_type .pubcomp hmade) hshort hsame
        fun choice receiving now => hall _ choice receiving now ⟨hsame, this, rfl, hmade⟩
  | subscribe =>
      refine iff_of_false (fun hall => ?_) (by decide)
      obtain ⟨this, rfl, hid⟩ := hsends
      have hends := ends_subackOf hid
      have hring : InRing (.subscribe this) := trivial
      exact not_completes_of_inRing (unserved_of_run (by decide) hrun) hring hsent hnew
        (by rw [type_subackOf]; rfl) (len_subackOf _) hends.1
        fun choice receiving now => hall _ choice receiving now hends
  | unsubscribe =>
      refine iff_of_false (fun hall => ?_) (by decide)
      obtain ⟨this, rfl, hid⟩ := hsends
      obtain ⟨ack, hmade, hsame, hshort⟩ := exists_ack .unsuback hid
      have hring : InRing (.unsubscribe this) := trivial
      exact not_completes_of_inRing (unserved_of_run (by decide) hrun) hring hsent hnew
        (acksEntry_type .unsuback hmade) hshort hsame
        fun choice receiving now => hall _ choice receiving now ⟨hsame, ack, rfl, hmade⟩
  | ping =>
      refine iff_of_false (fun hall => ?_) (by decide)
      obtain rfl : msg = .pingreq newPingreqMessage := hsends
      exact not_completes_pingreq (unserved_of_run (by decide) hrun) _ _ _
        (hall (.pingresp newPingrespMessage) 0 ⟨0, 0⟩ 0 ⟨rfl, rfl⟩)

/-- A QoS 1 PUBLISH and its PUBACK.  The entry stays until `Acked` takes it. -/
def ackedBefore : List InFlightStep :=
  [.call (.wait (.publish (Ackqueue.publishQos1 9)) true 0 0 0),
    .call (.ack (.puback (newPubackMessage.setPacketId 9)) 0 0)]

/-- A QoS 1 PUBLISH behind one that was acked before. -/
theorem completes_iff_publishQos1_second :
    ∃ last, Core.run InFlight.step (fresh "Pub1ack") ackedBefore = some last ∧
      last.queue.waiting.map AckMsg.pktid = [9] ∧
      ((∀ ack choice receiving now,
        Traffic.publishQos1.Ends (.publish (Ackqueue.publishQos1 7)) ack →
          Completes last.queue (.publish (Ackqueue.publishQos1 7)) ack ⟨0, choice⟩ receiving
            now) ↔ Traffic.publishQos1 = .publishQos1) := by
  have hhistory : ∀ label ∈ ackedBefore, Traffic.publishQos1.History label := by
    simp only [ackedBefore, List.forall_mem_cons, Traffic.History, Admitted]
    exact ⟨⟨_, rfl, made_publishQos1 9, by decide, by rw [Pushable]; decide⟩,
      Or.inr ⟨_, _, _, .puback, .setPacketId .new 9, rfl⟩, List.forall_mem_nil _⟩
  have hends : (Core.run InFlight.step (fresh "Pub1ack") ackedBefore).map (fun last =>
      (last.taken, last.queue.waiting.map AckMsg.pktid,
        last.queue.waiting.all Backlog.completed)) = some ([], [9], true) := by
    decide +kernel
  obtain ⟨last, hrun, hlast⟩ := Option.map_eq_some_iff.mp hends
  simp only [Prod.mk.injEq, List.all_eq_true] at hlast
  obtain ⟨hthrough, hids, hacked⟩ := hlast
  have hnew : ∀ entry ∈ last.queue.waiting,
      entry.pktid ≠ (Xmqtt.Message.publish (Ackqueue.publishQos1 7)).packetId := by
    intro entry hmem hid
    have hnine := List.mem_map_of_mem (f := AckMsg.pktid) hmem
    rw [hids, hid] at hnine
    exact absurd hnine (by decide +kernel)
  refine ⟨last, hrun, hids, completes_iff_publishQos1 hhistory hrun hthrough hacked ?_
    (by decide +kernel) hnew⟩
  exact ⟨_, rfl, made_publishQos1 7, by decide, by decide, by rw [Pushable]; decide⟩

/-- A SUBSCRIBE of the topic `a`. -/
def subscribeA : SubscribeMessage := ((newSubscribeMessage.setPacketId 7).addTopic [0x61] 0).1

/-- `Wait` panics on the first SUBSCRIBE of a session, although it was sent. -/
theorem subscribe_panics_in_wait :
    Traffic.subscribe.Sends (.subscribe subscribeA) ∧
      (sendData (.subscribe subscribeA) 0).1 = .returned none ∧
      (fresh "Suback").queue.waiting = [] ∧
      ((fresh "Suback").queue.wait (.subscribe subscribeA) true 0 0 0).2 = .panicked := by
  refine ⟨⟨_, rfl, by decide⟩, ?_, ?_, ?_⟩ <;> decide +kernel

end Xmqtt.Service
