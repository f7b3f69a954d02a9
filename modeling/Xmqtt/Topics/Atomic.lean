import Xmqtt.Topics.Retained

/-!
# Calls that fail

`Subscribe` and `Retain` look at a topic level by level, and make the nodes of the
levels they have seen as they go.  A level that is refused further on ends the call
with an error, but the nodes in front of it stay.  `Retain` makes the nodes of a
message that `Encode` then refuses, too, and if the topic is what is refused the fixed
header is already in the buffer of the node, where the message that was retained
before lies.  So a call that fails leaves the trees as they were exactly if the nodes
were there before and no such header shows in a message.  `Unsubscribe` and the removal
of a retained message change nothing before they succeed.
-/

namespace Xmqtt.Topics

open Xmqtt.Core Xmqtt.Go Xmqtt.Message

/-! ## The node of a topic -/

namespace Kept

/-- The message of a node is a PUBLISH, and shows what is in the buffer that it lies in. -/
structure Coherent (here : Kept) : Prop where
  type : ∀ msg, here.msg = some msg → msg.type = .publish
  shown : here.shown here.buf.cells = here.msg

theorem coherent_nothing : Kept.nothing.Coherent where
  type := by simp [nothing]
  shown := rfl

theorem coherent_of_liesIn {msg : PublishMessage} {src : Slice} {pos : ℕ}
    (hlies : msg.LiesIn src pos) : Coherent ⟨some msg, src, some pos⟩ where
  type := by
    rintro _ ⟨⟩
    exact hlies.type
  shown := by
    have hfirst : src.cells.headD msg.mtypeflags = msg.mtypeflags := by
      rw [List.headD_eq_head?_getD, hlies.first, Option.getD_some]
    have hdbuf : Slice.mk (src.cells.take msg.dbuf.bytes.length)
        (src.cells.drop msg.dbuf.bytes.length) = msg.dbuf := by
      rw [hlies.dbuf, Slice.cells, List.take_left, List.drop_left]
    simp only [Kept.shown, Option.map_some, hfirst, hdbuf, hlies.topic]

/-- Different bytes show in the message. -/
theorem cells_of_shown {here : Kept} {cells cells' : Bytes} (hmsg : here.msg ≠ none)
    (hpos : here.topicAt ≠ none) (hshown : here.shown cells = here.shown cells') :
    cells = cells' := by
  obtain ⟨msg, hmsg⟩ := Option.ne_none_iff_exists'.mp hmsg
  obtain ⟨pos, hpos⟩ := Option.ne_none_iff_exists'.mp hpos
  simp only [shown, hpos, hmsg, Option.map_some, Option.some.injEq] at hshown
  have hdbuf := congrArg (fun msg : PublishMessage => msg.dbuf.cells) hshown
  simpa only [Slice.cells, List.take_append_drop] using hdbuf

theorem shown_shown (here : Kept) (buf : Slice) (cells : Bytes) :
    Kept.shown ⟨here.shown cells, buf, here.topicAt⟩ cells = here.shown cells := by
  have htake : ∀ (bytes : Bytes) (k : ℕ), bytes.take (bytes.take k).length = bytes.take k := by
    intro bytes k
    rw [List.length_take, ← List.take_eq_take_min]
  have hdrop : ∀ (bytes : Bytes) (k : ℕ), bytes.drop (bytes.take k).length = bytes.drop k := by
    intro bytes k
    rw [List.length_take, ← List.drop_eq_drop_min]
  cases hpos : here.topicAt with
  | none => rfl
  | some pos =>
      cases hmsg : here.msg with
      | none => simp [shown, hpos, hmsg]
      | some msg =>
          simp only [shown, hpos, hmsg, Option.map_some, htake, hdrop]
          cases cells <;> rfl

/-- A node bears a message that `Encode` refuses: what is written before does not show in the
message it has. -/
def Bears (here : Kept) (msg : PublishMessage) : Prop :=
  msg.RefusedLate → here.msg = none ∨ here.topicAt = none ∨ here.buf.cap < msg.len.2 ∨
    (msg.sized msg.msglen).wire <+: here.buf.cells

section Store

variable {here : Kept} {msg : PublishMessage} (hmade : msg.Made)
  (hpayload : msg.payload.length ≠ 0) (gPacketId : UInt64)

include hmade

theorem store_of_encodes (hcoherent : here.Coherent) (hencodes : msg.encodes = true) :
    (here.store msg gPacketId).2 = some .panicked ∨
      (here.store msg gPacketId).2 = none ∧ (here.store msg gPacketId).1.Coherent := by
  obtain ⟨state, counter, n, hencode, -⟩ :=
    PublishMessage.encode_len hencodes (here.length_room msg.len.2).ge gPacketId
  have hfresh : (here.msg.getD newPublishMessage).type = .publish := by
    cases hhere : here.msg with
    | none => rfl
    | some kept => exact hcoherent.type kept hhere
  rcases hmade.decode_stored_cases hfresh hencodes gPacketId
    ((here.room msg.len.2).bytes.drop (msg.stored gPacketId).length)
    (here.room msg.len.2).spare with
      hpanic | ⟨decoded, count, header, hn, hdone, hheader, hlies⟩
  · refine Or.inl ?_
    simp only [store, hencode, hpanic]
  · refine Or.inr ?_
    simp only [store, hencode, hdone, Topics.topicAt, hheader, true_and]
    exact coherent_of_liesIn hlies

include hpayload

theorem store_of_refused (hrefused : msg.Refused) :
    ∃ left err, here.store msg gPacketId =
        (if here.buf.cap < msg.len.2 then ⟨here.msg, left, none⟩
          else ⟨here.shown left.cells, left, here.topicAt⟩, some (.err err)) ∧
      (¬ here.buf.cap < msg.len.2 → msg.LeftBy here.buf.cells left.cells) := by
  obtain ⟨state, n, err, hfail, hleft⟩ := hrefused.encode_len hmade.type_valid hpayload
    (here.length_room msg.len.2).ge gPacketId
  refine ⟨⟨state.dst, (here.room msg.len.2).spare⟩, err, ?_, fun hcap => ?_⟩
  · simp only [store, hfail]
  · have hcells := hleft.append (here.room msg.len.2).spare
    rw [room, if_neg hcap] at hcells ⊢
    rwa [List.take_append_drop] at hcells

/-- A message that is refused leaves the one that is there exactly where the node bears it. -/
theorem msg_store_iff_bears (hcoherent : here.Coherent) (hrefused : msg.Refused) :
    (here.store msg gPacketId).1.msg = here.msg ↔ here.Bears msg := by
  obtain ⟨left, err, hstore, hleft⟩ := store_of_refused hmade hpayload gPacketId hrefused
  rw [hstore]
  by_cases hcap : here.buf.cap < msg.len.2
  · rw [if_pos hcap]
    exact iff_of_true rfl fun _ => Or.inr (Or.inr (Or.inl hcap))
  · rw [if_neg hcap]
    change here.shown left.cells = here.msg ↔ _
    by_cases hlate : msg.RefusedLate
    · obtain ⟨-, hcells⟩ := (hleft hcap).late hlate
      constructor
      · intro hsame _
        by_cases hmsg : here.msg = none
        · exact Or.inl hmsg
        · by_cases hpos : here.topicAt = none
          · exact Or.inr (Or.inl hpos)
          · have hback := cells_of_shown hmsg hpos (hsame.trans hcoherent.shown.symm)
            exact Or.inr (Or.inr (Or.inr ⟨_, hcells.symm.trans hback⟩))
      · intro hbears
        rcases hbears hlate with hnone | hnone | hlt | ⟨rest, hrest⟩
        · simp only [shown, hnone, Option.map_none]
          split <;> rfl
        · simp only [shown, hnone]
        · exact absurd hlt hcap
        · rw [hcells, ← hrest, List.drop_left, hrest]
          exact hcoherent.shown
    · rw [(hleft hcap).early hlate]
      exact iff_of_true hcoherent.shown fun hnot => absurd hnot hlate

theorem coherent_store_of_refused (hcoherent : here.Coherent) (hrefused : msg.Refused) :
    (here.store msg gPacketId).1.Coherent := by
  obtain ⟨left, err, hstore, hleft⟩ := store_of_refused hmade hpayload gPacketId hrefused
  rw [hstore]
  by_cases hcap : here.buf.cap < msg.len.2
  · rw [if_pos hcap]
    exact ⟨hcoherent.type, rfl⟩
  · rw [if_neg hcap]
    refine ⟨fun kept hkept => ?_, here.shown_shown left left.cells⟩
    by_cases hlate : msg.RefusedLate
    · obtain ⟨-, hcells⟩ := (hleft hcap).late hlate
      change here.shown left.cells = some kept at hkept
      cases hpos : here.topicAt with
      | none =>
          rw [shown, hpos] at hkept
          exact hcoherent.type kept hkept
      | some pos =>
          rw [shown, hpos] at hkept
          obtain ⟨old, -, rfl⟩ := Option.map_eq_some_iff.mp hkept
          rw [Header.type, hcells]
          exact hmade.type
    · refine hcoherent.type kept (hcoherent.shown.symm.trans ?_)
      rw [← (hleft hcap).early hlate]
      exact hkept

end Store

end Kept

/-! ## Trees that can be reached -/

/-- Every node keeps a message that shows what is in its buffer. -/
structure RNode.Coherent (rroot : RNode) : Prop where
  keyed : rroot.Keyed
  kept : ∀ path, (rroot.content .nothing path).Coherent

theorem coherent_newRNode : newRNode.Coherent where
  keyed := Trie.keyed_leaf _
  kept path := by
    rw [newRNode, Trie.content_leaf]
    exact Kept.coherent_nothing

theorem RNode.Coherent.retain {rroot : RNode} (hcoherent : rroot.Coherent)
    {msg : PublishMessage} (hmade : msg.Made) {gPacketId : UInt64}
    (hreturns : (retain rroot msg gPacketId).2 ≠ some .panicked) :
    RNode.Coherent (retain rroot msg gPacketId).1 := by
  refine ⟨keyed_retain hcoherent.keyed msg gPacketId, fun path => ?_⟩
  rw [Topics.retain] at hreturns ⊢
  split_ifs at hreturns ⊢ with hclear
  · cases hremove : rremove rroot msg.topic with
    | error err => exact hcoherent.kept path
    | ok next =>
        refine Trie.forall_content_shrink hcoherent.keyed hcoherent.kept Kept.coherent_nothing
          ?_ (shrink_of_rremove hremove) path
        rintro value value' ⟨⟩
        exact Kept.coherent_nothing
  · rw [rinsert, insertLoop_eq le_rfl] at hreturns ⊢
    cases hscan : (scan msg.topic).2 with
    | some err =>
        simp only [Trie.content_grow, id_eq]
        split_ifs
        · exact hcoherent.kept _
        · exact hcoherent.kept path
    | none =>
        simp only [hscan] at hreturns
        simp only [Trie.content_grow]
        split_ifs
        · by_cases hrefused : msg.Refused
          · exact Kept.coherent_store_of_refused hmade hclear gPacketId (hcoherent.kept _)
              hrefused
          · have hencodes := hmade.encodes_of_not_refused hclear hrefused
            exact ((Kept.store_of_encodes hmade gPacketId (hcoherent.kept _)
              hencodes).resolve_left hreturns).2
        · exact hcoherent.kept path

/-! ## What is left behind an error -/

/-- There is a node for every level of the topic in front of the first one that is refused. -/
def Paved {ν : Type} (root : Trie Level ν) (topic : Bytes) : Prop :=
  ∃ n, root.sub (scan topic).1 = some n

/-- What the recursion of `sinsert` and `rinsert` leaves behind an error, as far as `look`
shows: the nodes in front of a level that is refused, and in the last node what `here` has
made of it. -/
theorem insertLoop_atomic_iff {ν τ ε : Type} (look : ν → τ) (refused : Err → ε) (empty : ν)
    (here : ν → ν × Option ε) (this : Trie Level ν) (topic : Bytes) :
    (∀ err, (insertLoop refused empty here topic.length this topic).2 = some (refused err) →
        this.SameBy look (insertLoop refused empty here topic.length this topic).1) ↔
      ((scan topic).2 ≠ none → Paved this topic) ∧
        ((scan topic).2 = none → ∀ err,
          (here (this.content empty (scan topic).1)).2 = some (refused err) →
            ∃ n, this.sub (scan topic).1 = some n ∧ look (here n.value).1 = look n.value) := by
  rw [insertLoop_eq le_rfl]
  cases (scan topic).2 with
  | some err =>
      simp only [Trie.sameBy_grow_iff, id_eq, and_true]
      constructor
      · intro hpaved
        exact ⟨fun _ => hpaved err rfl, by simp⟩
      · intro hpaved _ _
        exact hpaved.1 (by simp)
  | none => simp [Trie.sameBy_grow_iff]

/-- The two trees of a `memTopics`. -/
structure MemTopics (S : Type) where
  sroot : SNode S
  rroot : RNode

/-- A call that may change one of the trees. -/
inductive Operation (S : Type) where
  | subscribe (topic : Bytes) (qos : Byte) (sub : Option S)
  | unsubscribe (topic : Bytes) (sub : Option S)
  | retain (msg : PublishMessage) (gPacketId : UInt64)
  deriving DecidableEq, Repr

/-- A message that is given to `Retain` is one that can be built. -/
def Operation.Built {S : Type} : Operation S → Prop
  | .retain msg _ => msg.Made
  | _ => True

namespace MemTopics

variable {S : Type} [DecidableEq S]

def new : MemTopics S := ⟨newSNode, newRNode⟩

def perform (this : MemTopics S) : Operation S → MemTopics S × Option Fault
  | .subscribe topic qos sub =>
      ({ this with sroot := (Topics.subscribe this.sroot topic qos sub).1 },
        (Topics.subscribe this.sroot topic qos sub).2.2.map .err)
  | .unsubscribe topic sub =>
      ({ this with sroot := (Topics.unsubscribe this.sroot topic sub).1 },
        (Topics.unsubscribe this.sroot topic sub).2.map .err)
  | .retain msg gPacketId =>
      ({ this with rroot := (Topics.retain this.rroot msg gPacketId).1 },
        (Topics.retain this.rroot msg gPacketId).2)

/-- A call that returns. -/
def step (this : MemTopics S) (operation : Operation S) : Option (MemTopics S) :=
  if (this.perform operation).2 = some .panicked then none else (this.perform operation).1

/-- The same nodes in both trees, with the same subscribers, QoS and groups in the one and the
same retained messages in the other. -/
def Same (this other : MemTopics S) : Prop :=
  this.sroot.SameBy id other.sroot ∧ this.rroot.SameBy Kept.msg other.rroot

/-- If the call returns an error, nothing has changed. -/
def Atomic (this : MemTopics S) (operation : Operation S) : Prop :=
  ∀ err, (this.perform operation).2 = some (.err err) → this.Same (this.perform operation).1

/-- Where a call that fails leaves nothing behind. -/
def Ready (this : MemTopics S) : Operation S → Prop
  | .subscribe topic qos sub => validQos qos = true → sub ≠ none →
      (scan (getGroupName topic).2).2 ≠ none → Paved this.sroot (getGroupName topic).2
  | .unsubscribe _ _ => True
  | .retain msg _ => msg.payload.length ≠ 0 →
      ((scan msg.topic).2 ≠ none → Paved this.rroot msg.topic) ∧
        ((scan msg.topic).2 = none → msg.Refused →
          ∃ n, this.rroot.sub (scan msg.topic).1 = some n ∧ n.value.Bears msg)

/-! ## Which calls leave nothing behind -/

def Coherent (this : MemTopics S) : Prop := this.rroot.Coherent

theorem coherent_step {this next : MemTopics S} {operation : Operation S}
    (hcoherent : this.Coherent) (hbuilt : operation.Built)
    (hstep : this.step operation = some next) : next.Coherent := by
  rw [step] at hstep
  split_ifs at hstep with hreturns
  cases hstep
  cases operation with
  | subscribe topic qos sub => exact hcoherent
  | unsubscribe topic sub => exact hcoherent
  | retain msg gPacketId => exact RNode.Coherent.retain hcoherent hbuilt hreturns

theorem atomic_iff_of_sroot {this : MemTopics S} {operation : Operation S} {sroot : SNode S}
    (hfirst : (this.perform operation).1 = { this with sroot := sroot }) :
    this.Atomic operation ↔
      ∀ err, (this.perform operation).2 = some (.err err) → this.sroot.SameBy id sroot := by
  rw [Atomic, hfirst]
  exact forall₂_congr fun err _ => and_iff_left (Trie.SameBy.refl _ _)

theorem atomic_iff_of_rroot {this : MemTopics S} {operation : Operation S} {rroot : RNode}
    (hfirst : (this.perform operation).1 = { this with rroot := rroot }) :
    this.Atomic operation ↔
      ∀ err, (this.perform operation).2 = some (.err err) →
        this.rroot.SameBy Kept.msg rroot := by
  rw [Atomic, hfirst]
  exact forall₂_congr fun err _ => and_iff_right (Trie.SameBy.refl _ _)

/-- With a valid QoS and a subscriber, `Subscribe` is `sinsert`. -/
theorem subscribe_some {sroot : SNode S} {topic : Bytes} {qos : Byte}
    (hqos : validQos qos = true) (sub : S) :
    ∃ granted, (Topics.subscribe sroot topic qos (some sub)).1 =
        (sinsert sroot (getGroupName topic).1 (getGroupName topic).2 granted sub).1 ∧
      (Topics.subscribe sroot topic qos (some sub)).2.2 =
        (sinsert sroot (getGroupName topic).1 (getGroupName topic).2 granted sub).2 := by
  refine ⟨if maxQosAllowed < qos then maxQosAllowed else qos, ?_⟩
  rw [Topics.subscribe, if_neg (by simp [hqos])]
  simp only
  rcases sinsert sroot (getGroupName topic).1 (getGroupName topic).2
    (if maxQosAllowed < qos then maxQosAllowed else qos) sub with ⟨next, _ | err⟩
  · exact ⟨rfl, rfl⟩
  · exact ⟨rfl, rfl⟩

theorem atomic_subscribe_iff (this : MemTopics S) (topic : Bytes) (qos : Byte)
    (sub : Option S) : this.Atomic (.subscribe topic qos sub) ↔
      this.Ready (.subscribe topic qos sub) := by
  rw [atomic_iff_of_sroot rfl]
  by_cases hqos : validQos qos = true
  · cases sub with
    | none =>
        have hsame : (Topics.subscribe this.sroot topic qos none).1 = this.sroot := by
          rw [Topics.subscribe, if_neg (by simp [hqos])]
        refine ⟨fun _ _ hsub => absurd rfl hsub, fun _ err _ => ?_⟩
        rw [hsame]
        exact Trie.SameBy.refl _ _
    | some sub =>
        obtain ⟨granted, hnext, herr⟩ : ∃ granted,
            (Topics.subscribe this.sroot topic qos (some sub)).1 = _ ∧ _ :=
          subscribe_some hqos sub
        have hmap : ∀ {result : Option Err} {err : Err},
            result.map Fault.err = some (.err err) ↔ result = some (id err) := by simp
        simp only [perform, hnext, herr, hmap, sinsert, insertLoop_atomic_iff]
        simp [Ready, hqos]
  · have hsame : (Topics.subscribe this.sroot topic qos sub).1 = this.sroot := by
      rw [Topics.subscribe.eq_def, if_pos (by simp [hqos])]
    refine ⟨fun _ hvalid => absurd hvalid hqos, fun _ err _ => ?_⟩
    rw [hsame]
    exact Trie.SameBy.refl _ _

theorem atomic_unsubscribe (this : MemTopics S) (topic : Bytes) (sub : Option S) :
    this.Atomic (.unsubscribe topic sub) := by
  apply (atomic_iff_of_sroot rfl).mpr
  intro err herr
  rw [perform, Topics.unsubscribe] at herr
  rw [Topics.unsubscribe]
  cases hremove : sremove this.sroot (getGroupName topic).1 (getGroupName topic).2 sub with
  | error _ => exact Trie.SameBy.refl _ _
  | ok next =>
      rw [hremove] at herr
      cases herr

/-- Storing a message returns an error exactly if `Encode` refuses the message. -/
theorem exists_err_store_iff {here : Kept} (hcoherent : here.Coherent) {msg : PublishMessage}
    (hmade : msg.Made) (hpayload : msg.payload.length ≠ 0) (gPacketId : UInt64) :
    (∃ err, (here.store msg gPacketId).2 = some (.err err)) ↔ msg.Refused := by
  by_cases hrefused : msg.Refused
  · obtain ⟨left, err, hstore, -⟩ :=
      Kept.store_of_refused hmade hpayload gPacketId hrefused
    exact iff_of_true ⟨err, congrArg Prod.snd hstore⟩ hrefused
  · refine iff_of_false ?_ hrefused
    rintro ⟨err, herr⟩
    rcases Kept.store_of_encodes hmade gPacketId hcoherent
      (hmade.encodes_of_not_refused hpayload hrefused) with hpanic | ⟨hnone, -⟩
    · rw [hpanic] at herr
      cases herr
    · rw [hnone] at herr
      cases herr

theorem atomic_retain_iff {this : MemTopics S} (hcoherent : this.rroot.Coherent)
    {msg : PublishMessage} (hmade : msg.Made) (gPacketId : UInt64) :
    this.Atomic (.retain msg gPacketId) ↔ this.Ready (.retain msg gPacketId) := by
  rw [atomic_iff_of_rroot rfl, perform, Topics.retain]
  by_cases hpayload : msg.payload.length = 0
  · rw [if_pos hpayload]
    refine iff_of_true ?_ fun hne => absurd hpayload hne
    intro err herr
    cases hremove : rremove this.rroot msg.topic with
    | error _ => exact Trie.SameBy.refl _ _
    | ok next =>
        rw [hremove] at herr
        cases herr
  · rw [if_neg hpayload, rinsert, insertLoop_atomic_iff, Ready, forall_prop_of_true hpayload]
    refine and_congr_right fun _ => imp_congr_right fun _ => ?_
    rw [← exists_imp, exists_err_store_iff (hcoherent.kept _) hmade hpayload]
    refine imp_congr_right fun hrefused => exists_congr fun n => and_congr_right fun hn => ?_
    have hkept := hcoherent.kept (scan msg.topic).1
    rw [Trie.content_of_sub hn] at hkept
    exact Kept.msg_store_iff_bears hmade hpayload gPacketId hkept hrefused

/-- After any calls that have returned, a call that fails leaves both trees as they were
exactly where everything it would leave behind is there already. -/
theorem atomic_iff {operations : List (Operation S)} {this : MemTopics S}
    (hbuilt : ∀ operation ∈ operations, operation.Built)
    (hrun : run step new operations = some this) {operation : Operation S}
    (hop : operation.Built) : this.Atomic operation ↔ this.Ready operation := by
  have hstart : (new : MemTopics S).Coherent := coherent_newRNode
  have hcoherent : this.Coherent := run_invariant (fun _ _ _ => coherent_step) hstart
    (along_of_forall (fun label hmem _ => hbuilt label hmem) new) hrun
  cases operation with
  | subscribe topic qos sub => exact this.atomic_subscribe_iff topic qos sub
  | unsubscribe topic sub => exact iff_of_true (this.atomic_unsubscribe topic sub) trivial
  | retain msg gPacketId => exact atomic_retain_iff hcoherent hop gPacketId

/-- A PUBLISH with a payload and without a topic. -/
def withoutTopic : PublishMessage := newPublishMessage.perform (.payload [0x78])

/-- Where `a` has a subscriber, `Subscribe` on `a/#b` leaves nothing behind, and so does
`Retain` of a message without a topic. -/
theorem atomic_iff_subscribed :
    ∃ last, run step (new : MemTopics ℕ) [.subscribe [0x61] 0 (some 1)] = some last ∧
      (last.perform (.subscribe [0x61, 0x2f, 0x23, 0x62] 0 (some 1))).2 ≠ none ∧
      last.Atomic (.subscribe [0x61, 0x2f, 0x23, 0x62] 0 (some 1)) ∧
      (last.perform (.retain withoutTopic 0)).2 ≠ none ∧
      last.Atomic (.retain withoutTopic 0) := by
  have hbuilt : ∀ operation ∈ [Operation.subscribe [0x61] 0 (some 1)], operation.Built := by
    intro operation hmem
    rw [List.mem_singleton.mp hmem]
    trivial
  have hsubscribe : (.subscribe [0x61, 0x2f, 0x23, 0x62] 0 (some 1) : Operation ℕ).Built :=
    trivial
  have hretain : (.retain withoutTopic 0 : Operation ℕ).Built := .perform .new (.payload [0x78])
  refine ⟨_, rfl, by decide +kernel, ?_, by decide +kernel, ?_⟩
  · exact (atomic_iff hbuilt rfl hsubscribe).mpr fun _ _ _ => ⟨_, rfl⟩
  · refine (atomic_iff hbuilt rfl hretain).mpr fun _ => ⟨fun hscan => absurd rfl hscan, ?_⟩
    exact fun _ _ => ⟨_, rfl, fun _ => Or.inl rfl⟩

/-- `Subscribe` on `a/#b` makes the node of `a` and then fails. -/
theorem failed_subscribe_leaves_node :
    ¬ (new : MemTopics ℕ).Atomic (.subscribe [0x61, 0x2f, 0x23, 0x62] 0 (some 1)) := by
  rw [atomic_subscribe_iff]
  intro hready
  obtain ⟨n, hn⟩ := hready rfl (by simp) (by decide)
  cases hn

end MemTopics

end Xmqtt.Topics
