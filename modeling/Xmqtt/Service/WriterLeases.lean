import Xmqtt.Core.Lease
import Xmqtt.Core.Run
import Xmqtt.Service.Framing
import Xmqtt.Service.Writers

/-!
# Who has a writer

All connections share the pools, and a writer does not know who uses it.  A writer that
was taken out of a pool is with one call until it is put back, so what a call flushes is
its own packet, for its own connection.
-/

namespace Xmqtt.Service

open Xmqtt.Go Xmqtt.Message Xmqtt.Core

/-! ## The invariant -/

/-- The one write that a call makes.  `Flush` of nothing does not write. -/
def SendCall.whole (sending : SendCall) (call : ℕ) : List ConnWrite :=
  if sending.packet = [] then [] else [⟨call, sending.conn, sending.packet⟩]

/-- What a call has written so far. -/
def SendCall.Wrote (sending : SendCall) (call : ℕ) (writes : List ConnWrite) : Prop :=
  match sending.point with
  | .opening | .taken _ | .ready _ | .buffered _ => writes = []
  | .flushed _ | .cleared _ | .returned false => writes = sending.whole call
  | .returned true => ∃ n, writes = [⟨call, sending.conn, sending.packet.take n⟩]

/-- What a call knows of its writer. -/
def SendCall.Knows (sending : SendCall) (heap : ℕ → Writer) : Prop :=
  match sending.point with
  | .taken w => (heap w).size = writerSize sending.packet.length
  | .ready w => heap w = ⟨writerSize sending.packet.length, [], some sending.conn, false⟩
  | .buffered w =>
      heap w = ⟨writerSize sending.packet.length, sending.packet, some sending.conn, false⟩
  | .flushed w | .cleared w =>
      (heap w).size = writerSize sending.packet.length ∧ (heap w).buffered = []
  | .opening | .returned _ => True

/-- Every writer is with one call or in one pool, pools have writers of their size, and every
call has written what its point says. -/
structure Orderly (this : Writers) : Prop where
  leased : ∃ owner, Leased this.pool this.held owner ∧ ∀ w, this.made ≤ w → owner w = .nobody
  sized : ∀ pool, ∀ w ∈ this.pool pool, bufioWriterPool (this.heap w).size = some pool
  knows : ∀ call sending, this.calls call = some sending → sending.Knows this.heap
  wrote : ∀ call sending, this.calls call = some sending →
    sending.Wrote call (this.log.filter fun write => write.call = call)
  silent : ∀ call, this.calls call = none → ∀ write ∈ this.log, write.call ≠ call

/-- A call depends on its own writer alone. -/
theorem SendCall.Knows.of_eq {sending : SendCall} {heap other : ℕ → Writer}
    (hknows : sending.Knows heap) (heq : ∀ w, sending.point.writer = some w → other w = heap w) :
    sending.Knows other := by
  obtain ⟨conn, packet, point⟩ := sending
  cases point with
  | opening => trivial
  | returned failed => trivial
  | taken w => exact (congrArg Writer.size (heq w rfl)).trans hknows
  | ready w | buffered w => exact (heq w rfl).trans hknows
  | flushed w | cleared w => exact ⟨(congrArg Writer.size (heq w rfl)).trans hknows.1,
      (congrArg Writer.buffered (heq w rfl)).trans hknows.2⟩

/-- A pool has writers of one size. -/
theorem bufioWriterPool_injective {size other : ℕ} {pool : WriterPool}
    (hsize : bufioWriterPool size = some pool) (hother : bufioWriterPool other = some pool) :
    size = other := by
  rw [bufioWriterPool] at hsize hother
  cases pool <;> split_ifs at hsize hother <;> simp_all

theorem length_le_writerSize (n : ℕ) : n ≤ writerSize n := by
  rw [writerSize]
  split_ifs <;> omega

theorem writerSize_ne_zero (n : ℕ) : writerSize n ≠ 0 := by
  rw [writerSize]
  split_ifs <;> omega

theorem held_of_point {this : Writers} {call w : ℕ} {sending : SendCall} {point : SendPoint}
    (hcall : this.calls call = some sending) (hpoint : sending.point = point)
    (hwriter : point.writer = some w) : this.held call = some w := by
  rw [Writers.held, hcall, Option.bind_some, hpoint, hwriter]

/-- A writer that is given up is like one that was never made. -/
theorem nobody_update {owner : ℕ → Owner WriterPool ℕ} {made : ℕ}
    (hbound : ∀ w, made ≤ w → owner w = .nobody) (w : ℕ) :
    ∀ kept, made ≤ kept → Function.update owner w .nobody kept = .nobody := by
  intro kept hkept
  by_cases hsame : kept = w
  · rw [hsame, Function.update_self]
  · rw [Function.update_of_ne hsame]
    exact hbound kept hkept

namespace Orderly

variable {this next : Writers} (horderly : Orderly this)

include horderly

/-- A step of one call: it changes its own writer and writes for itself. -/
theorem update {call : ℕ} {sending : SendCall} {writes : List ConnWrite}
    (hcalls : next.calls = Function.update this.calls call (some sending))
    (hheap : ∀ other ≠ call, ∀ w, this.held other = some w → next.heap w = this.heap w)
    (hlog : next.log = this.log ++ writes) (hown : ∀ write ∈ writes, write.call = call)
    (hleased : ∃ owner, Leased next.pool next.held owner ∧
      ∀ w, next.made ≤ w → owner w = .nobody)
    (hsized : ∀ pool, ∀ w ∈ next.pool pool, bufioWriterPool (next.heap w).size = some pool)
    (hknows : sending.Knows next.heap)
    (hwrote : sending.Wrote call
      ((this.log.filter fun write => write.call = call) ++ writes)) : Orderly next where
  leased := hleased
  sized := hsized
  knows := by
    intro other kept hkept
    rw [hcalls] at hkept
    by_cases hother : other = call
    · rw [hother, Function.update_self] at hkept
      exact Option.some.inj hkept ▸ hknows
    · rw [Function.update_of_ne hother] at hkept
      apply (horderly.knows other kept hkept).of_eq
      intro w hw
      apply hheap other hother
      rw [Writers.held, hkept]
      exact hw
  wrote := by
    intro other kept hkept
    rw [hcalls] at hkept
    rw [hlog, List.filter_append]
    by_cases hother : other = call
    · subst hother
      rw [Function.update_self] at hkept
      have hall : (writes.filter fun write => write.call = other) = writes :=
        List.filter_eq_self.mpr fun write hmem => decide_eq_true (hown write hmem)
      rw [hall]
      exact Option.some.inj hkept ▸ hwrote
    · rw [Function.update_of_ne hother] at hkept
      have hnone : (writes.filter fun write => write.call = other) = [] := by
        refine List.filter_eq_nil_iff.mpr fun write hmem hsame => hother ?_
        exact (of_decide_eq_true hsame).symm.trans (hown write hmem)
      rw [hnone, List.append_nil]
      exact horderly.wrote other kept hkept
  silent := by
    intro other hother write hmem
    rw [hcalls] at hother
    have hne : other ≠ call := by
      intro hsame
      rw [hsame, Function.update_self] at hother
      cases hother
    rw [Function.update_of_ne hne] at hother
    rw [hlog] at hmem
    rcases List.mem_append.mp hmem with hbefore | hnow
    · exact horderly.silent other hother write hbefore
    · rw [hown write hnow]
      exact hne.symm

/-- No other call has the writer of a call. -/
theorem other_ne {call other : ℕ} {w kept : ℕ} (hheld : this.held call = some w)
    (hother : other ≠ call) (hkept : this.held other = some kept) : kept ≠ w := by
  obtain ⟨owner, hleased, -⟩ := horderly.leased
  intro hsame
  exact hother (hleased.client_eq (hsame ▸ hkept) hheld)

/-- A writer that a call has is in no pool. -/
theorem not_pooled {call w : ℕ} (hheld : this.held call = some w) (pool : WriterPool) :
    w ∉ this.pool pool := by
  obtain ⟨owner, hleased, -⟩ := horderly.leased
  exact hleased.not_mem hheld pool

/-- What a call does to its writer does not change the size of a pooled one. -/
theorem sized_update {call w : ℕ} (hheld : this.held call = some w) (writer : Writer) :
    ∀ pool, ∀ kept ∈ this.pool pool,
      bufioWriterPool (Function.update this.heap w writer kept).size = some pool := by
  intro pool kept hkept
  have hne : kept ≠ w := fun hsame => horderly.not_pooled hheld pool (hsame ▸ hkept)
  rw [Function.update_of_ne hne]
  exact horderly.sized pool kept hkept

/-- A call goes on with its own writer, or leaves it to the garbage collector. -/
theorem goesOn {call w : ℕ} {sending : SendCall} {point : SendPoint} {writer : Writer}
    {writes : List ConnWrite} (hheld : this.held call = some w)
    (hpoint : point.writer = some w ∨ point.writer = none)
    (hcalls : next.calls =
      Function.update this.calls call (some { sending with point := point }))
    (hheap : next.heap = Function.update this.heap w writer) (hpool : next.pool = this.pool)
    (hmade : next.made = this.made) (hlog : next.log = this.log ++ writes)
    (hown : ∀ write ∈ writes, write.call = call)
    (hknows : SendCall.Knows { sending with point := point } next.heap)
    (hwrote : SendCall.Wrote { sending with point := point } call
      ((this.log.filter fun write => write.call = call) ++ writes)) : Orderly next := by
  have hnext : next.held = Function.update this.held call point.writer := by
    funext other
    rw [Writers.held, hcalls]
    by_cases hother : other = call
    · rw [hother, Function.update_self, Function.update_self]
      rfl
    · rw [Function.update_of_ne hother, Function.update_of_ne hother]
      rfl
  apply horderly.update hcalls ?_ hlog hown ?_ ?_ hknows hwrote
  · intro other hother kept hkept
    rw [hheap, Function.update_of_ne (horderly.other_ne hheld hother hkept)]
  · rw [hpool, hnext, hmade]
    rcases hpoint with hkept | hgone
    · rw [hkept, ← hheld, Function.update_eq_self]
      exact horderly.leased
    · obtain ⟨owner, hleased, hbound⟩ := horderly.leased
      rw [hgone]
      exact ⟨_, hleased.drop hheld, nobody_update hbound w⟩
  · rw [hpool, hheap]
    exact horderly.sized_update hheld writer

/-- A call that has nothing written and no writer yet. -/
theorem nothing_of_opening {call : ℕ} {sending : SendCall}
    (hcall : this.calls call = some sending) (hpoint : sending.point = .opening) :
    (this.log.filter fun write => write.call = call) = [] := by
  have hwrote := horderly.wrote call sending hcall
  rwa [SendCall.Wrote, hpoint] at hwrote

theorem filter_eq_nil {call : ℕ} (hcall : this.calls call = none) :
    (this.log.filter fun write => write.call = call) = [] :=
  List.filter_eq_nil_iff.mpr fun write hmem hsame =>
    horderly.silent call hcall write hmem (of_decide_eq_true hsame)

theorem send {call conn : ℕ} {packet : Bytes} (hcall : this.calls call = none) :
    Orderly (this.setCall call ⟨conn, packet, .opening⟩ .opening) := by
  have hheld : this.held call = none := by rw [Writers.held, hcall]; rfl
  refine horderly.update rfl (fun _ _ _ _ => rfl) (List.append_nil _).symm
    (List.forall_mem_nil _) ?_ horderly.sized trivial ?_
  · rw [Writers.held_setCall]
    have hsame : Function.update this.held call SendPoint.opening.writer = this.held :=
      (congrArg (Function.update this.held call) hheld.symm).trans (Function.update_eq_self _ _)
    rw [hsame]
    exact horderly.leased
  · rw [List.append_nil]
    exact horderly.filter_eq_nil hcall

theorem sized_erase (pool : WriterPool) (w : ℕ) :
    ∀ other, ∀ kept ∈ Function.update this.pool pool ((this.pool pool).erase w) other,
      bufioWriterPool (this.heap kept).size = some other := by
  intro other kept hkept
  by_cases hother : other = pool
  · subst hother
    rw [Function.update_self] at hkept
    exact horderly.sized other kept (List.mem_of_mem_erase hkept)
  · rw [Function.update_of_ne hother] at hkept
    exact horderly.sized other kept hkept

/-- A writer from the pool has the size that the call asks for. -/
theorem takePooled {call w : ℕ} {sending : SendCall} {pool : WriterPool}
    (hcall : this.calls call = some sending) (hpoint : sending.point = .opening)
    (hsize : bufioWriterPool (writerSize sending.packet.length) = some pool)
    (hmem : w ∈ this.pool pool) :
    Orderly ({ this with
      pool := Function.update this.pool pool ((this.pool pool).erase w) }.setCall call sending
        (.taken w)) := by
  obtain ⟨owner, hleased, hbound⟩ := horderly.leased
  have hsame : (this.heap w).size = writerSize sending.packet.length :=
    bufioWriterPool_injective (horderly.sized pool w hmem) hsize
  refine horderly.update rfl (fun _ _ _ _ => rfl) (List.append_nil _).symm
    (List.forall_mem_nil _) ?_ ?_ hsame ?_
  · rw [Writers.held_setCall]
    refine ⟨_, (hleased.erase hmem).hold (Function.update_self _ _ _) call, fun kept hkept => ?_⟩
    have hne : kept ≠ w := by
      intro heq
      have howner := hbound kept hkept
      rw [heq, hleased.free_owned pool w hmem] at howner
      cases howner
    rw [Function.update_of_ne hne, Function.update_of_ne hne]
    exact hbound kept hkept
  · exact horderly.sized_erase pool w
  · rw [List.append_nil]
    exact horderly.nothing_of_opening hcall hpoint

theorem makeWriter {call : ℕ} {sending : SendCall} (hcall : this.calls call = some sending)
    (hpoint : sending.point = .opening) :
    Orderly ({ this.setWriter this.made
        (.new sending.conn (writerSize sending.packet.length)) with
      made := this.made + 1 }.setCall call sending (.ready this.made)) := by
  obtain ⟨owner, hleased, hbound⟩ := horderly.leased
  have hfresh := hbound this.made le_rfl
  refine horderly.update rfl ?_ (List.append_nil _).symm (List.forall_mem_nil _) ?_ ?_ ?_ ?_
  · intro other _ w hw
    have hne : w ≠ this.made := by
      intro heq
      rw [← heq, hleased.held_owned other w hw] at hfresh
      cases hfresh
    exact Function.update_of_ne hne _ _
  · rw [Writers.held_setCall]
    refine ⟨_, hleased.hold hfresh call, fun kept hkept => ?_⟩
    have hlt : this.made < kept := hkept
    rw [Function.update_of_ne hlt.ne']
    exact hbound kept hlt.le
  · intro pool w hw
    have hne : w ≠ this.made := by
      intro heq
      rw [← heq, hleased.free_owned pool w hw] at hfresh
      cases hfresh
    change bufioWriterPool (Function.update this.heap this.made _ w).size = some pool
    rw [Function.update_of_ne hne]
    exact horderly.sized pool w hw
  · change Function.update this.heap this.made _ this.made = _
    rw [Function.update_self, Writer.new, if_neg (writerSize_ne_zero _)]
  · rw [List.append_nil]
    exact horderly.nothing_of_opening hcall hpoint

theorem collect {pool : WriterPool} {w : ℕ} (hmem : w ∈ this.pool pool) :
    Orderly { this with
      pool := Function.update this.pool pool ((this.pool pool).erase w) } where
  leased := by
    obtain ⟨owner, hleased, hbound⟩ := horderly.leased
    exact ⟨_, hleased.erase hmem, nobody_update hbound w⟩
  sized := horderly.sized_erase pool w
  knows := horderly.knows
  wrote := horderly.wrote
  silent := horderly.silent

/-- A writer is put back into the pool for its size. -/
theorem put {call w : ℕ} {sending : SendCall} {pool : WriterPool}
    (hheld : this.held call = some w)
    (hsize : bufioWriterPool (this.heap w).size = some pool)
    (hwrote : SendCall.Wrote { sending with point := .returned false } call
      (this.log.filter fun write => write.call = call)) :
    Orderly ({ this with
      pool := Function.update this.pool pool (w :: this.pool pool) }.setCall call sending
        (.returned false)) := by
  obtain ⟨owner, hleased, hbound⟩ := horderly.leased
  refine horderly.update rfl (fun _ _ _ _ => rfl) (List.append_nil _).symm
    (List.forall_mem_nil _) ?_ ?_ trivial (by rwa [List.append_nil])
  · rw [Writers.held_setCall]
    refine ⟨_, (hleased.drop hheld).put (Function.update_self _ _ _) pool, fun kept hkept => ?_⟩
    have hne : kept ≠ w := by
      intro heq
      have howner := hbound kept hkept
      rw [heq, hleased.held_owned call w hheld] at howner
      cases howner
    rw [Function.update_of_ne hne, Function.update_of_ne hne]
    exact hbound kept hkept
  · intro other kept hkept
    change kept ∈ Function.update this.pool pool (w :: this.pool pool) other at hkept
    by_cases hother : other = pool
    · subst hother
      rw [Function.update_self] at hkept
      rcases List.mem_cons.mp hkept with rfl | hbefore
      · exact hsize
      · exact horderly.sized other kept hbefore
    · rw [Function.update_of_ne hother] at hkept
      exact horderly.sized other kept hkept

theorem newBufioWriterSize {call : ℕ} {sending : SendCall} {pooled : Option ℕ}
    (hcall : this.calls call = some sending) (hpoint : sending.point = .opening)
    (hnext : this.newBufioWriterSize call sending pooled = some next) : Orderly next := by
  simp only [Writers.newBufioWriterSize] at hnext
  split at hnext
  · next pool w hsize =>
      split_ifs at hnext with hmem
      exact Option.some.inj hnext ▸ horderly.takePooled hcall hpoint hsize hmem
  · cases hnext
  · exact Option.some.inj hnext ▸ horderly.makeWriter hcall hpoint

/-- The writer has the packet, and nothing else, for the connection of the call. -/
theorem flush {call w : ℕ} {sending : SendCall} {fails : Option ℕ}
    (hcall : this.calls call = some sending) (hpoint : sending.point = .buffered w)
    (hnext : this.flush call sending w fails = some next) : Orderly next := by
  have hknows := horderly.knows call sending hcall
  have hwrote := horderly.wrote call sending hcall
  rw [SendCall.Knows, hpoint] at hknows
  rw [SendCall.Wrote, hpoint] at hwrote
  have hheld := held_of_point hcall hpoint rfl
  simp only [Writers.flush, hknows, Bool.false_eq_true, if_false] at hnext
  split_ifs at hnext with hempty
  · cases hnext
    refine horderly.goesOn hheld (Or.inl rfl) rfl (Function.update_eq_self w this.heap).symm
      rfl rfl (List.append_nil _).symm (List.forall_mem_nil _) ?_ ?_
    · exact ⟨congrArg Writer.size hknows, (congrArg Writer.buffered hknows).trans hempty⟩
    · change _ = SendCall.whole _ call
      rw [SendCall.whole, if_pos hempty, hwrote, List.append_nil]
  · cases fails with
    | none =>
        cases hnext
        refine horderly.goesOn hheld (Or.inl rfl) rfl rfl rfl rfl rfl
          (List.forall_mem_singleton.mpr rfl) ?_ ?_
        · change _ ∧ _
          simp [Writers.setCall, Writers.write, Writers.setWriter]
        · change _ = SendCall.whole _ call
          rw [SendCall.whole, if_neg hempty, hwrote, List.nil_append]
    | some n =>
        cases hnext
        refine horderly.goesOn hheld (Or.inr rfl) rfl rfl rfl rfl rfl
          (List.forall_mem_singleton.mpr rfl) trivial ⟨n, ?_⟩
        rw [hwrote, List.nil_append]

theorem clear {call w : ℕ} {sending : SendCall} (hcall : this.calls call = some sending)
    (hpoint : sending.point = .flushed w) : Orderly (this.clear call sending w) := by
  have hheld := held_of_point hcall hpoint rfl
  have hknows := horderly.knows call sending hcall
  have hwrote := horderly.wrote call sending hcall
  rw [SendCall.Knows, hpoint] at hknows
  rw [SendCall.Wrote, hpoint] at hwrote
  simp only [Writers.clear]
  split_ifs
  · refine horderly.goesOn hheld (Or.inl rfl) rfl rfl rfl rfl (List.append_nil _).symm
      (List.forall_mem_nil _) ?_ ?_
    · change (Function.update this.heap w _ w).size = _ ∧ (Function.update this.heap w _ w).2 = _
      rw [Function.update_self]
      exact ⟨hknows.1, rfl⟩
    · rw [List.append_nil]
      exact hwrote
  · refine horderly.goesOn hheld (Or.inr rfl) rfl rfl rfl rfl (List.append_nil _).symm
      (List.forall_mem_nil _) trivial ?_
    rw [List.append_nil]
    exact hwrote

theorem putBufioWriter {call w : ℕ} {sending : SendCall}
    (hcall : this.calls call = some sending) (hpoint : sending.point = .cleared w) :
    Orderly (this.putBufioWriter call sending w) := by
  have hheld := held_of_point hcall hpoint rfl
  have hknows := horderly.knows call sending hcall
  have hwrote := horderly.wrote call sending hcall
  rw [SendCall.Knows, hpoint] at hknows
  rw [SendCall.Wrote, hpoint] at hwrote
  have havailable : (this.heap w).available = (this.heap w).size := by
    rw [Writer.available, hknows.2]
    rfl
  rw [Writers.putBufioWriter, havailable]
  cases hsize : bufioWriterPool (this.heap w).size with
  | some pool => exact horderly.put hheld hsize hwrote
  | none =>
      refine horderly.goesOn hheld (Or.inr rfl) rfl (Function.update_eq_self w this.heap).symm
        rfl rfl (List.append_nil _).symm (List.forall_mem_nil _) trivial ?_
      rw [List.append_nil]
      exact hwrote

/-- The packet fits into the writer that the call has. -/
theorem fits {call w : ℕ} {sending : SendCall} (hcall : this.calls call = some sending)
    (hpoint : sending.point = .ready w) :
    (this.heap w).write sending.packet = some
      ⟨writerSize sending.packet.length, sending.packet, some sending.conn, false⟩ := by
  have hknows := horderly.knows call sending hcall
  rw [SendCall.Knows, hpoint] at hknows
  rw [hknows]
  exact if_pos (length_le_writerSize _)

theorem goOn {call : ℕ} {sending : SendCall} (hcall : this.calls call = some sending)
    (hnext : this.goOn call sending = some next) : Orderly next := by
  have hwrote := horderly.wrote call sending hcall
  have hknows := horderly.knows call sending hcall
  rw [SendCall.Wrote] at hwrote
  rw [SendCall.Knows] at hknows
  rw [Writers.goOn] at hnext
  cases hpoint : sending.point with
  | opening | buffered w | returned failed => rw [hpoint] at hnext; cases hnext
  | taken w =>
      simp only [hpoint] at hnext hwrote hknows
      have hheld := held_of_point hcall hpoint rfl
      cases hnext
      refine horderly.goesOn hheld (Or.inl rfl) rfl rfl rfl rfl (List.append_nil _).symm
        (List.forall_mem_nil _) ?_ ?_
      · change Function.update this.heap w _ w = _
        rw [Function.update_self, Writer.reset, hknows]
      · rw [List.append_nil]
        exact hwrote
  | ready w =>
      simp only [hpoint, horderly.fits hcall hpoint, Option.map_some] at hnext hwrote
      have hheld := held_of_point hcall hpoint rfl
      cases hnext
      refine horderly.goesOn hheld (Or.inl rfl) rfl rfl rfl rfl (List.append_nil _).symm
        (List.forall_mem_nil _) (Function.update_self _ _ _) ?_
      rw [List.append_nil]
      exact hwrote
  | flushed w =>
      simp only [hpoint] at hnext
      exact Option.some.inj hnext ▸ horderly.clear hcall hpoint
  | cleared w =>
      simp only [hpoint] at hnext
      exact Option.some.inj hnext ▸ horderly.putBufioWriter hcall hpoint

theorem step {label : WritersStep} (hnext : this.step label = some next) : Orderly next := by
  cases label with
  | send call conn packet =>
      rw [Writers.step] at hnext
      split_ifs at hnext with hcall
      exact Option.some.inj hnext ▸ horderly.send hcall
  | newWriter call pooled =>
      rw [Writers.step] at hnext
      split at hnext
      · next conn packet hcall => exact horderly.newBufioWriterSize hcall rfl hnext
      · cases hnext
  | flush call fails =>
      rw [Writers.step] at hnext
      split at hnext
      · next conn packet w hcall => exact horderly.flush hcall rfl hnext
      · cases hnext
  | goOn call =>
      obtain ⟨sending, hcall, hgoes⟩ := Option.bind_eq_some_iff.mp hnext
      exact horderly.goOn hcall hgoes
  | collect pool w =>
      rw [Writers.step] at hnext
      split_ifs at hnext with hmem
      exact Option.some.inj hnext ▸ horderly.collect hmem

end Orderly

theorem orderly_new : Orderly .new where
  leased := ⟨_, Leased.new, fun _ _ => rfl⟩
  sized := fun _ => List.forall_mem_nil _
  knows := fun _ _ hcall => absurd hcall (by simp [Writers.new])
  wrote := fun _ _ hcall => absurd hcall (by simp [Writers.new])
  silent := fun _ _ => List.forall_mem_nil _

theorem orderly_of_run {labels : List WritersStep} {last : Writers}
    (hrun : Core.run Writers.step .new labels = some last) : Orderly last :=
  Core.run_keeps (fun _ _ _ horderly hnext => horderly.step hnext) orderly_new hrun

/-- In every interleaving of calls of `sendData`, for any connections and with writers from
the shared pools: a call writes to its own connection, its whole packet in one write, and
nothing else; no writer is with two calls or with a call and in a pool; and a packet always
fits into its writer. -/
theorem sendData_writes_packet {labels : List WritersStep} {last : Writers}
    (hrun : Core.run Writers.step .new labels = some last) :
    (∀ call sending, last.calls call = some sending →
      sending.Wrote call (last.log.filter fun write => write.call = call)) ∧
    (∀ call other w, last.held call = some w → last.held other = some w → call = other) ∧
    (∀ call w pool, last.held call = some w → w ∉ last.pool pool) ∧
    (∀ call sending w, last.calls call = some sending → sending.point = .ready w →
      ((last.heap w).write sending.packet).isSome = true) := by
  have horderly := orderly_of_run hrun
  refine ⟨horderly.wrote, ?_, fun call w pool hheld => horderly.not_pooled hheld pool, ?_⟩
  · intro call other w hcall hother
    by_contra hne
    exact horderly.other_ne hcall (Ne.symm hne) hother rfl
  · intro call sending w hcall hpoint
    rw [horderly.fits hcall hpoint]
    rfl

/-- Two calls for different connections, one behind the other, with one writer. -/
def reusedWriter : List WritersStep :=
  [.send 0 7 [0xd0, 0x00], .newWriter 0 none, .goOn 0, .flush 0 none, .goOn 0, .goOn 0,
    .send 1 8 [0x40, 0x02, 0x00, 0x05], .newWriter 1 (some 0), .goOn 1, .goOn 1,
    .flush 1 none]

theorem sendData_writes_packet_reused :
    ∃ last, Core.run Writers.step .new reusedWriter = some last ∧
      last.calls 1 = some ⟨8, [0x40, 0x02, 0x00, 0x05], .flushed 0⟩ ∧
      (last.log.filter fun write => write.call = 1) = [⟨1, 8, [0x40, 0x02, 0x00, 0x05]⟩] := by
  have hfound : (Core.run Writers.step .new reusedWriter).map (fun last => last.calls 1) =
      some (some ⟨8, [0x40, 0x02, 0x00, 0x05], .flushed 0⟩) := by decide +kernel
  obtain ⟨last, hrun, hcall⟩ := Option.map_eq_some_iff.mp hfound
  exact ⟨last, hrun, hcall, (sendData_writes_packet hrun).1 1 _ hcall⟩

/-! ## What a connection carries -/

/-- The writes to a connection. -/
def Writers.writesTo (this : Writers) (conn : ℕ) : List ConnWrite :=
  this.log.filter fun write => write.conn = conn

/-- The bytes that were written to a connection. -/
def Writers.streamOf (this : Writers) (conn : ℕ) : Bytes :=
  ((this.writesTo conn).map ConnWrite.bytes).flatten

/-- `Flush` has worked. -/
def SendPoint.sent : SendPoint → Bool
  | flushed _ | cleared _ | returned false => true
  | opening | taken _ | ready _ | buffered _ | returned true => false

/-- Nothing, the whole packet, or what came through before the connection failed. -/
theorem SendCall.Wrote.cases {sending : SendCall} {call : ℕ} {writes : List ConnWrite}
    (hwrote : sending.Wrote call writes) :
    sending.point.sent = false ∧ writes = [] ∨
      sending.point.sent = true ∧ writes = sending.whole call ∨
      sending.point = .returned true ∧
        ∃ n, writes = [⟨call, sending.conn, sending.packet.take n⟩] := by
  obtain ⟨conn, packet, point⟩ := sending
  cases point with
  | opening | taken w | ready w | buffered w => exact Or.inl ⟨rfl, hwrote⟩
  | flushed w | cleared w => exact Or.inr (Or.inl ⟨rfl, hwrote⟩)
  | returned failed =>
      cases failed with
      | false => exact Or.inr (Or.inl ⟨rfl, hwrote⟩)
      | true => exact Or.inr (Or.inr ⟨rfl, hwrote⟩)

namespace Orderly

variable {this : Writers} (horderly : Orderly this)

include horderly

/-- A write is the one write of a call. -/
theorem write_of_mem {write : ConnWrite} (hmem : write ∈ this.log) :
    ∃ sending, this.calls write.call = some sending ∧ write.conn = sending.conn ∧
      (sending.point = .returned true ∨
        sending.point.sent = true ∧ write.bytes = sending.packet) := by
  cases hcall : this.calls write.call with
  | none => exact absurd rfl (horderly.silent write.call hcall write hmem)
  | some sending =>
      have hfilter : write ∈ this.log.filter fun other => other.call = write.call :=
        List.mem_filter.mpr ⟨hmem, decide_eq_true rfl⟩
      refine ⟨sending, rfl, ?_⟩
      obtain ⟨-, hnone⟩ | ⟨hsent, hwhole⟩ | ⟨hfailed, n, hpart⟩ :=
        (horderly.wrote write.call sending hcall).cases
      · rw [hnone] at hfilter
        cases hfilter
      · rw [hwhole, SendCall.whole] at hfilter
        split_ifs at hfilter
        · cases hfilter
        · rw [List.mem_singleton.mp hfilter]
          exact ⟨rfl, Or.inr ⟨hsent, rfl⟩⟩
      · rw [hpart] at hfilter
        rw [List.mem_singleton.mp hfilter]
        exact ⟨rfl, Or.inl hfailed⟩

/-- No call writes twice. -/
theorem nodup_calls : (this.log.map ConnWrite.call).Nodup := by
  rw [List.nodup_iff_count_le_one]
  intro call
  have hcount : (this.log.map ConnWrite.call).count call =
      (this.log.filter fun write => write.call = call).length := by
    rw [List.count_eq_countP, List.countP_map, List.countP_eq_length_filter]
    rfl
  rw [hcount]
  cases hcall : this.calls call with
  | none =>
      rw [horderly.filter_eq_nil hcall]
      exact Nat.zero_le 1
  | some sending =>
      obtain ⟨-, hnone⟩ | ⟨-, hwhole⟩ | ⟨-, n, hpart⟩ :=
        (horderly.wrote call sending hcall).cases
      · rw [hnone]
        exact Nat.zero_le 1
      · rw [hwhole, SendCall.whole]
        split_ifs <;> simp
      · rw [hpart]
        exact le_rfl

end Orderly

theorem Sent.ne_nil {packet : Bytes} (hsent : Sent packet)
    (hsize : packet.length ≤ maxBufferSize) : packet ≠ [] := by
  obtain ⟨frame, rfl⟩ := hsent.frame hsize
  exact List.cons_ne_nil _ _

/-- On a connection whose writes work, and for packets of at most `maxBufferSize` bytes that
`Encode` made of emittable messages, the bytes are those of whole packets: what the framing of
the receive loop cuts them into are the packets of the calls that have flushed, each call's
once, and nothing else. -/
theorem sendData_frames {labels : List WritersStep} {last : Writers}
    (hrun : Core.run Writers.step .new labels = some last) (conn : ℕ)
    (hpackets : ∀ call sending, last.calls call = some sending → sending.conn = conn →
      Sent sending.packet ∧ sending.packet.length ≤ maxBufferSize ∧
        sending.point ≠ .returned true) :
    ∃ order : List (ℕ × Bytes), (order.map Prod.fst).Nodup ∧
      (∀ call packet, (call, packet) ∈ order ↔ ∃ point, point.sent = true ∧
        last.calls call = some ⟨conn, packet, point⟩) ∧
      receive order.length (last.streamOf conn) =
        .ok (order.map fun sent => packetRound sent.2, []) ∧
      receive (order.length + 1) (last.streamOf conn) = .error .eof := by
  have horderly := orderly_of_run hrun
  have hwrite : ∀ write ∈ last.writesTo conn, ∃ point, point.sent = true ∧
      last.calls write.call = some ⟨conn, write.bytes, point⟩ := by
    intro write hmem
    obtain ⟨hlog, hconn⟩ := List.mem_filter.mp hmem
    obtain ⟨⟨other, packet, point⟩, hcall, hsame, hpoint⟩ := horderly.write_of_mem hlog
    have hother : other = conn := hsame.symm.trans (of_decide_eq_true hconn)
    subst hother
    obtain ⟨-, -, hworks⟩ := hpackets _ _ hcall rfl
    obtain ⟨hsent, hbytes⟩ := hpoint.resolve_left hworks
    exact ⟨point, hsent, by rw [hcall, hbytes]⟩
  refine ⟨(last.writesTo conn).map fun write => (write.call, write.bytes), ?_, ?_, ?_⟩
  · rw [List.map_map]
    exact horderly.nodup_calls.sublist (List.filter_sublist.map _)
  · intro call packet
    constructor
    · intro hmem
      obtain ⟨write, hlog, hpair⟩ := List.mem_map.mp hmem
      obtain ⟨rfl, rfl⟩ := Prod.mk.inj hpair
      exact hwrite write hlog
    · rintro ⟨point, hsent, hcall⟩
      obtain ⟨hpacket, hsize, hworks⟩ := hpackets call _ hcall rfl
      have hfilter : (⟨call, conn, packet⟩ : ConnWrite) ∈
          last.log.filter fun write => write.call = call := by
        obtain ⟨hnot, -⟩ | ⟨-, hwhole⟩ | ⟨hfailed, -⟩ := (horderly.wrote call _ hcall).cases
        · exact absurd (hsent.symm.trans hnot) (by decide)
        · rw [hwhole, SendCall.whole, if_neg (hpacket.ne_nil hsize)]
          exact List.mem_singleton_self _
        · exact absurd hfailed hworks
      have hlog := (List.mem_filter.mp hfilter).1
      exact List.mem_map.mpr
        ⟨_, List.mem_filter.mpr ⟨hlog, decide_eq_true rfl⟩, rfl⟩
  · have hframes : ∀ packet ∈ (last.writesTo conn).map ConnWrite.bytes,
        packet.length ≤ maxBufferSize ∧ ∃ frame : Frame, packet = frame.bytes := by
      intro packet hmem
      obtain ⟨write, hlog, rfl⟩ := List.mem_map.mp hmem
      obtain ⟨point, -, hcall⟩ := hwrite write hlog
      obtain ⟨hpacket, hsize, -⟩ := hpackets _ _ hcall rfl
      exact ⟨hsize, hpacket.frame hsize⟩
    have hcut := receive_append _ [] hframes
    rw [List.append_nil, List.flatten_nil, List.length_map, List.map_map] at hcut
    rw [List.length_map, List.map_map]
    exact ⟨hcut, receive_succ_of_nil hcut⟩

theorem sendData_frames_reused :
    ∃ last, Core.run Writers.step .new reusedWriter = some last ∧
      last.streamOf 8 = [0x40, 0x02, 0x00, 0x05] ∧
      ∃ order : List (ℕ × Bytes), (1, [0x40, 0x02, 0x00, 0x05]) ∈ order ∧
        receive order.length (last.streamOf 8) =
          .ok (order.map fun sent => packetRound sent.2, []) := by
  have hpuback : Sent [0x40, 0x02, 0x00, 0x05] :=
    ⟨.puback (newPubackMessage.setPacketId 5), [0, 0, 0, 0], 0,
      ⟨.puback ⟨(newPubackMessage.setPacketId 5).sized 2⟩, [0x40, 0x02, 0x00, 0x05], 0⟩, 4,
      emittable_of_dirty (by decide +kernel) rfl, by decide +kernel, by decide, rfl⟩
  have hothers : ∃ last, Core.run Writers.step .new reusedWriter = some last ∧
      ∀ call, call ≠ 0 → call ≠ 1 → last.calls call = none := by
    refine ⟨_, rfl, fun call hzero hone => ?_⟩
    repeat first
      | exact rfl
      | refine (Function.update_of_ne hzero _ _).trans ?_
      | refine (Function.update_of_ne hone _ _).trans ?_
  have hfound : (Core.run Writers.step .new reusedWriter).map
      (fun last => (last.calls 0, last.calls 1, last.streamOf 8)) =
      some (some ⟨7, [0xd0, 0x00], .returned false⟩,
        some ⟨8, [0x40, 0x02, 0x00, 0x05], .flushed 0⟩, [0x40, 0x02, 0x00, 0x05]) := by
    decide +kernel
  obtain ⟨last, hrun, hnone⟩ := hothers
  rw [hrun, Option.map_some] at hfound
  injection hfound with hfound
  obtain ⟨hzero, hrest⟩ := Prod.mk.inj hfound
  obtain ⟨hone, hstream⟩ := Prod.mk.inj hrest
  obtain ⟨order, -, hmem, hreceive, -⟩ := sendData_frames hrun 8 (by
    intro call sending hcall hconn
    by_cases hcallZero : call = 0
    · rw [hcallZero, hzero] at hcall
      rw [← Option.some.inj hcall] at hconn
      cases hconn
    · by_cases hcallOne : call = 1
      · rw [hcallOne, hone] at hcall
        rw [← Option.some.inj hcall]
        exact ⟨hpuback, by decide, by decide⟩
      · rw [hnone call hcallZero hcallOne] at hcall
        cases hcall)
  exact ⟨last, hrun, hstream, order, (hmem _ _).mpr ⟨.flushed 0, rfl, hone⟩, hreceive⟩

end Xmqtt.Service
