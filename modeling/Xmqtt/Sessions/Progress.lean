import Xmqtt.Sessions.Fifo

/-!
# The progress of an entry

`Ack` overwrites the state of an entry with the type of the ack, whatever acks came
before.  PUBREC is the one ack that does not complete an entry, so an entry that is
complete and not yet returned is opened again by a PUBREC that comes late, and by
nothing else.
-/

namespace Xmqtt.Sessions

open Xmqtt.Go Xmqtt.Message

namespace Ackqueue

/-- A call of `Ack`. -/
structure AckCall where
  msg : Xmqtt.Message
  gPacketId : UInt64
  choice : ℕ
  deriving DecidableEq, Repr

def takeAck (this : Ackqueue) (call : AckCall) : Ackqueue :=
  (this.ack call.msg call.gPacketId call.choice).1

def takeAcks (this : Ackqueue) (calls : List AckCall) : Ackqueue := calls.foldl takeAck this

/-- The entry in cell `i` has completed its ack cycle. -/
def CompleteAt (this : Ackqueue) (i : ℕ) : Prop :=
  ∃ entry, this.ring[i]? = some (some entry) ∧ completes entry.state = true

/-- An entry that is complete at some point of the sequence of acks stays complete. -/
def Monotone (this : Ackqueue) (calls : List AckCall) : Prop :=
  ∀ before between after, calls = before ++ between ++ after → ∀ i,
    (this.takeAcks before).CompleteAt i → (this.takeAcks (before ++ between)).CompleteAt i

/-- A PUBREC for an entry that is complete. -/
def Reopens (this : Ackqueue) (msg : Xmqtt.Message) : Prop :=
  msg.type = .pubrec ∧ ∃ i, this.emap msg.packetId = some i ∧ this.CompleteAt i

variable {this : Ackqueue} {call : AckCall}

theorem completes_of_acksEntry {mtype : MessageType} (hacks : acksEntry mtype = true)
    (hne : mtype ≠ .pubrec) : completes mtype = true := by
  cases mtype <;> first | rfl | exact absurd rfl hne | exact absurd hacks (by decide)

/-- The entry that the map names takes the ack. -/
theorem ring_takeAck {i : ℕ} {entry : AckMsg} (hacks : acksEntry call.msg.type = true)
    (hemap : this.emap call.msg.packetId = some i) (hcell : this.ring[i]? = some (some entry)) :
    ∃ ackbuf, (this.takeAck call).ring =
      this.ring.set i (some (entry.answered call.msg.type ackbuf)) := by
  rw [takeAck, ack, if_pos hacks, hemap]
  simp only [hcell]
  exact ⟨_, rfl⟩

/-- Without such an entry an ack leaves the ring alone. -/
theorem ring_takeAck_of_not (hnot : ¬ (acksEntry call.msg.type = true ∧
    ∃ i entry, this.emap call.msg.packetId = some i ∧ this.ring[i]? = some (some entry))) :
    (this.takeAck call).ring = this.ring := by
  rw [takeAck, ack]
  by_cases hacks : acksEntry call.msg.type = true
  · rw [if_pos hacks]
    cases hemap : this.emap call.msg.packetId with
    | none => rfl
    | some i =>
        simp only
        split
        · rename_i entry hcell
          exact absurd ⟨hacks, i, entry, hemap, hcell⟩ hnot
        · rfl
  · rw [if_neg hacks]
    split_ifs
    · rfl
    · rfl

theorem completeAt_congr {next : Ackqueue} {i : ℕ} (hcell : next.ring[i]? = this.ring[i]?) :
    next.CompleteAt i ↔ this.CompleteAt i := by
  rw [CompleteAt, CompleteAt, hcell]

theorem completeAt_set_iff {next : Ackqueue} {i : ℕ} {entry answered : AckMsg}
    (hcell : this.ring[i]? = some (some entry))
    (hring : next.ring = this.ring.set i (some answered)) :
    next.CompleteAt i ↔ completes answered.state = true := by
  have hlt : i < this.ring.length := (List.getElem?_eq_some_iff.mp hcell).1
  rw [CompleteAt, hring, List.getElem?_set_self hlt]
  simp

/-- One ack keeps every entry complete exactly if it does not reopen one. -/
theorem keeps_complete_iff (this : Ackqueue) (call : AckCall) :
    (∀ i, this.CompleteAt i → (this.takeAck call).CompleteAt i) ↔ ¬ this.Reopens call.msg := by
  constructor
  · rintro hkeeps ⟨htype, i, hemap, hcomplete⟩
    obtain ⟨entry, hcell, -⟩ := id hcomplete
    have hacks : acksEntry call.msg.type = true := by rw [htype]; rfl
    obtain ⟨ackbuf, hring⟩ := ring_takeAck hacks hemap hcell
    have hstate := (completeAt_set_iff hcell hring).mp (hkeeps i hcomplete)
    rw [AckMsg.answered, htype] at hstate
    cases hstate
  · intro hfine i hcomplete
    by_cases htarget : acksEntry call.msg.type = true ∧
        ∃ i entry, this.emap call.msg.packetId = some i ∧ this.ring[i]? = some (some entry)
    · obtain ⟨hacks, j, entry, hemap, hcell⟩ := htarget
      obtain ⟨ackbuf, hring⟩ := ring_takeAck hacks hemap hcell
      by_cases hij : j = i
      · subst hij
        apply (completeAt_set_iff hcell hring).mpr
        exact completes_of_acksEntry hacks fun htype => hfine ⟨htype, j, hemap, hcomplete⟩
      · apply (completeAt_congr ?_).mpr hcomplete
        rw [hring, List.getElem?_set_ne hij]
    · apply (completeAt_congr ?_).mpr hcomplete
      rw [ring_takeAck_of_not htarget]

theorem takeAcks_concat (this : Ackqueue) (calls : List AckCall) (call : AckCall) :
    this.takeAcks (calls ++ [call]) = (this.takeAcks calls).takeAck call :=
  List.foldl_concat takeAck this call calls

/-- In a sequence of acks every entry that is complete stays complete, exactly if none of the
acks is a PUBREC for an entry that is complete when it comes. -/
theorem monotone_iff (this : Ackqueue) (calls : List AckCall) :
    this.Monotone calls ↔ ∀ before call after, calls = before ++ call :: after →
      ¬ (this.takeAcks before).Reopens call.msg := by
  constructor
  · intro hmonotone before call after hcalls
    apply (keeps_complete_iff _ call).mp
    have hstep := hmonotone before [call] after (by rw [hcalls, List.append_assoc]; rfl)
    rwa [takeAcks_concat] at hstep
  · intro hfine before between after hcalls i hcomplete
    -- The acks in between are taken one by one, the latest last.
    induction between using List.reverseRecOn generalizing after with
    | nil => rwa [List.append_nil]
    | append_singleton between call ih =>
        have hfront : calls = before ++ between ++ call :: after := by
          rw [hcalls, ← List.append_assoc, List.append_assoc _ [call]]
          rfl
        rw [← List.append_assoc, takeAcks_concat]
        exact (keeps_complete_iff _ call).mpr (hfine _ call after hfront) i (ih _ hfront)

/-- The queue with a PUBLISH that waits, of which the PUBCOMP has come. -/
def finished : Ackqueue :=
  ((newAckqueue 16 "Pub1ack").after
    [.wait (.publish (publishQos1 7)) true 0 0 0]).takeAck
      ⟨.pubcomp (newPubcompMessage.setPacketId 7), 0, 0⟩

/-- The PUBREC comes a second time, behind the PUBCOMP. -/
theorem late_pubrec_reopens : ¬ finished.Monotone
    [⟨.pubrec (newPubrecMessage.setPacketId 7), 0, 0⟩] := by
  intro hmonotone
  have hkeeps := hmonotone [] [_] [] rfl
  have hemap : finished.emap 7 = some 0 := by decide +kernel
  have hstate : finished.ring[0]?.join.map AckMsg.state = some .pubcomp := by decide +kernel
  obtain ⟨entry, hjoin, hpubcomp⟩ := Option.map_eq_some_iff.mp hstate
  have hcomplete : completes entry.state = true := by rw [hpubcomp]; rfl
  exact (keeps_complete_iff finished _).mp hkeeps
    ⟨by decide +kernel, 0, hemap, entry, Option.join_eq_some_iff.mp hjoin, hcomplete⟩

end Ackqueue

end Xmqtt.Sessions
