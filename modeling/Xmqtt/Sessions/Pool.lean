import Xmqtt.Sessions.Ackqueue

/-!
# Who owns a buffer

The buffers of a queue's pool are reused without being cleared.  What keeps two
messages apart is that a buffer that was handed out is not among those that were
put back, and that nobody else has it.
-/

namespace Xmqtt.Sessions

open Xmqtt.Go Xmqtt.Message

namespace BytesPool

variable {bp : BytesPool}

@[simp]
theorem length_heap_write (bs : BufferRef) (contents : Bytes) :
    (bp.write bs contents).heap.length = bp.heap.length := List.length_set

theorem bytes_write_of_ne {bs other : BufferRef} (hne : bs ≠ other) (contents : Bytes) :
    (bp.write bs contents).bytes other = bp.bytes other := by
  simp only [bytes, write, List.getD_eq_getElem?_getD, List.getElem?_set_ne hne]

theorem bytes_write_eq {bs : BufferRef} (hbs : bs < bp.heap.length) (contents : Bytes) :
    (bp.write bs contents).bytes bs =
      (contents ++ (bp.bytes bs).drop contents.length).take (bp.bytes bs).length := by
  conv_lhs => rw [bytes, List.getD_eq_getElem?_getD]
  rw [write, List.getElem?_set_self hbs, Option.getD_some]

/-- Contents of the length of the buffer are written as they are. -/
theorem bytes_write_self {bs : BufferRef} (hbs : bs < bp.heap.length) {contents : Bytes}
    (hlength : contents.length = (bp.bytes bs).length) :
    (bp.write bs contents).bytes bs = contents := by
  rw [bytes_write_eq hbs, hlength, List.drop_length, List.append_nil,
    List.take_of_length_le hlength.le]

theorem length_bytes_write {bs other : BufferRef} (hbs : bs < bp.heap.length)
    (contents : Bytes) :
    ((bp.write bs contents).bytes other).length = (bp.bytes other).length := by
  by_cases hne : bs = other
  · subst hne
    rw [bytes_write_eq hbs, List.length_take, List.length_append, List.length_drop]
    omega
  · rw [bytes_write_of_ne hne]

theorem bytes_make_of_lt {bs : BufferRef} (hbs : bs < bp.heap.length) (length : ℕ) :
    (bp.make length).1.bytes bs = bp.bytes bs := by
  rw [bytes, bytes, make, List.getD_eq_getElem?_getD, List.getElem?_append_left hbs,
    List.getD_eq_getElem?_getD]

theorem bytes_make_self (length : ℕ) :
    (bp.make length).1.bytes (bp.make length).2 = List.replicate length 0 := by
  simp [bytes, make]

/-- The buffers in `used` are all in use by different owners, and none of them is in
the pool.  Buffers in the pool have 8192 bytes. -/
structure Owns (used : List BufferRef) (bp : BytesPool) : Prop where
  width_eq : bp.width = 8192
  initialized : bp.initialized = true
  length_free : ∀ bs ∈ bp.free, (bp.bytes bs).length = 8192
  bound : ∀ bs ∈ used ++ bp.free, bs < bp.heap.length
  nodup : (used ++ bp.free).Nodup

namespace Owns

variable {used used' : List BufferRef} {bs : BufferRef}

theorem new : Owns [] ⟨8192, true, [], []⟩ := by
  constructor <;> simp

theorem bound_of_mem (howns : Owns used bp) (hbs : bs ∈ used) : bs < bp.heap.length :=
  howns.bound bs (List.mem_append_left _ hbs)

/-- The order in which the owners are listed does not matter. -/
theorem perm (howns : Owns used bp) (hperm : used.Perm used') : Owns used' bp where
  width_eq := howns.width_eq
  initialized := howns.initialized
  length_free := howns.length_free
  bound := fun bs hbs => howns.bound bs ((hperm.append_right _).mem_iff.mpr hbs)
  nodup := (hperm.append_right _).nodup_iff.mp howns.nodup

/-- A buffer may be left to the garbage collector. -/
theorem sublist (howns : Owns used bp) (hsub : used'.Sublist used) : Owns used' bp where
  width_eq := howns.width_eq
  initialized := howns.initialized
  length_free := howns.length_free
  bound := fun bs hbs => howns.bound bs ((hsub.append_right _).subset hbs)
  nodup := howns.nodup.sublist (hsub.append_right _)

theorem write (howns : Owns used bp) (hbs : bs < bp.heap.length) (contents : Bytes) :
    Owns used (bp.write bs contents) where
  width_eq := howns.width_eq
  initialized := howns.initialized
  length_free := fun other hother => by
    rw [length_bytes_write hbs]
    exact howns.length_free other hother
  bound := fun other hother => by
    rw [length_heap_write]
    exact howns.bound other hother
  nodup := howns.nodup

theorem put (howns : Owns (bs :: used) bp) : Owns used (bp.put (some bs)) := by
  rw [BytesPool.put]
  split_ifs with hwidth
  · have hperm : (used ++ (bp.free ++ [bs])).Perm (bs :: used ++ bp.free) := by
      rw [← List.append_assoc]
      exact List.perm_append_singleton bs (used ++ bp.free)
    constructor
    case width_eq => exact howns.width_eq
    case initialized => exact howns.initialized
    case length_free =>
      intro other hother
      rcases List.mem_append.mp hother with hfree | hlast
      · exact howns.length_free other hfree
      · rw [List.mem_singleton.mp hlast]
        exact hwidth.trans howns.width_eq
    case bound => exact fun other hother => howns.bound other (hperm.mem_iff.mp hother)
    case nodup => exact hperm.nodup_iff.mpr howns.nodup
  · exact howns.sublist (List.sublist_cons_self bs used)

theorem putOption {slice : Option BufferRef} (howns : Owns (slice.toList ++ used) bp) :
    Owns used (bp.put slice) := by
  cases slice with
  | none => exact howns
  | some bs => exact howns.put

theorem make (howns : Owns used bp) (length : ℕ) :
    Owns ((bp.make length).2 :: used) (bp.make length).1 := by
  have hfresh : (bp.make length).2 ∉ used ++ bp.free := fun hmem =>
    lt_irrefl _ (howns.bound _ hmem)
  have hheap : (bp.make length).1.heap.length = bp.heap.length + 1 := by
    simp [BytesPool.make]
  constructor
  case width_eq => exact howns.width_eq
  case initialized => exact howns.initialized
  case length_free =>
    intro other hother
    rw [bytes_make_of_lt (howns.bound other (List.mem_append_right _ hother))]
    exact howns.length_free other hother
  case bound =>
    intro other hother
    rw [hheap]
    rcases List.mem_cons.mp hother with rfl | hmem
    · exact Nat.lt_succ_self _
    · exact (howns.bound other hmem).trans (Nat.lt_succ_self _)
  case nodup => exact List.nodup_cons.mpr ⟨hfresh, howns.nodup⟩

/-- What `Get` does: the buffer is new to all owners and long enough, and no buffer
changes. -/
theorem get (howns : Owns used bp) (length choice : ℕ) :
    ∃ next bs, bp.get length choice = some (next, bs) ∧ Owns (bs :: used) next ∧
      length ≤ (next.bytes bs).length ∧
      ∀ other ∈ used, next.bytes other = bp.bytes other := by
  have hmade : ∀ size, length ≤ size → ∃ next bs,
      some (bp.make size) = some (next, bs) ∧ Owns (bs :: used) next ∧
        length ≤ (next.bytes bs).length ∧
        ∀ other ∈ used, next.bytes other = bp.bytes other := by
    intro size hsize
    refine ⟨(bp.make size).1, (bp.make size).2, rfl, howns.make size, ?_, ?_⟩
    · rwa [bytes_make_self, List.length_replicate]
    · intro other hother
      exact bytes_make_of_lt (howns.bound_of_mem hother) size
  rw [BytesPool.get]
  by_cases hshort : length < bp.width
  · rw [if_pos hshort]
    rw [howns.width_eq] at hshort
    cases hfree : bp.free[choice]? with
    | none =>
        rw [howns.initialized]
        exact hmade 8192 hshort.le
    | some bs =>
        have hmem := List.mem_of_getElem? hfree
        obtain ⟨hlt, hget⟩ := List.getElem?_eq_some_iff.mp hfree
        have hperm : (bs :: used ++ bp.free.eraseIdx choice).Perm (used ++ bp.free) := by
          have hcons := List.getElem_cons_eraseIdx_perm hlt
          rw [hget] at hcons
          exact List.perm_middle.symm.trans (hcons.append_left used)
        refine ⟨_, bs, rfl, ⟨howns.width_eq, howns.initialized, ?_, ?_, ?_⟩, ?_, ?_⟩
        · intro other hother
          exact howns.length_free other (List.mem_of_mem_eraseIdx hother)
        · exact fun other hother => howns.bound other (hperm.mem_iff.mp hother)
        · exact hperm.nodup_iff.mpr howns.nodup
        · exact hshort.le.trans_eq (howns.length_free bs hmem).symm
        · exact fun _ _ => rfl
  · rw [if_neg hshort]
    exact hmade length le_rfl

/-- What `Get` and `Encode` do together: the message is in a buffer that nobody else
has, and all other buffers are as they were. -/
theorem fill (howns : Owns used bp) (msg : Xmqtt.Message) (gPacketId : UInt64)
    (choice : ℕ) :
    ∃ bs old, (bp.fill msg gPacketId choice).buffer = some bs ∧
      Owns (bs :: used) (bp.fill msg gPacketId choice).bytesPool ∧
      (∀ other ∈ used,
        (bp.fill msg gPacketId choice).bytesPool.bytes other = bp.bytes other) ∧
      msg.len.2 ≤ old.length ∧
      ((bp.fill msg gPacketId choice).ending = .returned none ↔
        ∃ state n, msg.len.1.encode old gPacketId = .done state n) ∧
      ∀ state n, msg.len.1.encode old gPacketId = .done state n →
        state.dst.length = old.length →
        (bp.fill msg gPacketId choice).bytesPool.bytes bs = state.dst := by
  obtain ⟨next, bs, hget, hnext, hlength, hsame⟩ := howns.get msg.len.2 choice
  have hbs := hnext.bound_of_mem (List.mem_cons_self)
  have hne : ∀ other ∈ used, bs ≠ other := by
    intro other hother heq
    exact (List.nodup_cons.mp hnext.nodup).1 (List.mem_append_left _ (heq ▸ hother))
  have hother : ∀ contents, ∀ other ∈ used,
      (next.write bs contents).bytes other = bp.bytes other := by
    intro contents other hmem
    rw [bytes_write_of_ne (hne other hmem), hsame other hmem]
  refine ⟨bs, next.bytes bs, ?_⟩
  cases hencode : msg.len.1.encode (next.bytes bs) gPacketId with
  | panic =>
      have hfill : bp.fill msg gPacketId choice = ⟨next, some bs, .panicked⟩ := by
        simp only [BytesPool.fill, hget, hencode]
      rw [hfill]
      exact ⟨rfl, hnext, hsame, hlength, by simp, by simp⟩
  | fail state n err =>
      have hfill : bp.fill msg gPacketId choice =
          ⟨next.write bs state.dst, some bs, .returned (some err)⟩ := by
        simp only [BytesPool.fill, hget, hencode]
      rw [hfill]
      exact ⟨rfl, hnext.write hbs _, hother state.dst, hlength, by simp, by simp⟩
  | done state n =>
      have hfill : bp.fill msg gPacketId choice =
          ⟨next.write bs state.dst, some bs, .returned none⟩ := by
        simp only [BytesPool.fill, hget, hencode]
      rw [hfill]
      refine ⟨rfl, hnext.write hbs _, hother state.dst, hlength, by simp, ?_⟩
      intro state' n' hdone hdst
      injection hdone with hstate
      rw [← hstate] at hdst ⊢
      exact bytes_write_self hbs hdst

end Owns

end BytesPool

end Xmqtt.Sessions
