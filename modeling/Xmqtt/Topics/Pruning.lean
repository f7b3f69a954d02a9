import Xmqtt.Topics.Table

/-!
# No dead branches

`sremove` takes away, one level at a time on its way back, the nodes that are not
needed any more.  As long as no `Subscribe` fails half way, every branch of the
tree leads to a subscriber.
-/

namespace Xmqtt.Topics

open Xmqtt.Core Xmqtt.Go Xmqtt.Message

variable {S : Type}

/-- Somebody is subscribed in the node, alone or in a group. -/
def Subs.Occupied (here : Subs S) : Prop :=
  here.subs ≠ [] ∨ ∃ group ∈ here.groupSubs.entries, group.2 ≠ []

theorem Subs.occupied_iff {here : Subs S} : here.Occupied ↔ here ≠ newSubs := by
  constructor
  · rintro (hsubs | ⟨group, hgroup, -⟩) rfl
    · exact hsubs rfl
    · cases hgroup
  · intro hne
    by_contra hnot
    obtain ⟨hsubs, hgroups⟩ := not_or.mp hnot
    have hsubs : here.subs = [] := not_not.mp hsubs
    apply hne
    refine Subs.ext hsubs ?_ (AList.ext (List.eq_nil_iff_forall_not_mem.mpr fun group hmem => ?_))
    · apply List.length_eq_zero_iff.mp
      rw [here.parallel, hsubs]
      rfl
    · exact hgroups ⟨group, hmem, here.populated group hmem⟩

theorem Subs.join_ne_newSubs (here : Subs S) (group : Bytes) (sub : S) :
    here.join group sub ≠ newSubs := by
  intro heq
  have hgroups := congrArg (fun here : Subs S => here.groupSubs.entries) heq
  cases hgroups

/-- The invariant of the tree. -/
structure Pruned (sroot : SNode S) : Prop where
  keyed : sroot.Keyed
  thrives : sroot.Thrives (· = newSubs)

theorem Pruned.new : Pruned (newSNode : SNode S) := ⟨Trie.keyed_leaf _, Trie.thrives_leaf _⟩

variable [DecidableEq S]

/-- No call of `Subscribe` returns an error. -/
def Succeed : SNode S → List (Call S) → Prop
  | _, [] => True
  | sroot, call :: calls =>
      (∀ topic qos sub, call = .subscribe topic qos sub →
        (subscribe sroot topic qos sub).2.2 = none) ∧ Succeed (step sroot call) calls

theorem Subs.add_ne_newSubs (here : Subs S) (qos : Byte) (sub : S) :
    here.add qos sub ≠ newSubs := by
  intro heq
  have hgranted := here.granted_add qos sub sub
  rw [heq, if_pos rfl] at hgranted
  cases hgranted

namespace Pruned

variable {sroot : SNode S}

theorem subscribe (hpruned : Pruned sroot) {topic : Bytes} {qos : Byte} {sub : Option S}
    (hnone : (Topics.subscribe sroot topic qos sub).2.2 = none) :
    Pruned (Topics.subscribe sroot topic qos sub).1 := by
  have hgrow : ∀ (levels : List Level) (f : Subs S → Subs S), (∀ here, f here ≠ newSubs) →
      Pruned (sroot.grow newSubs f levels) :=
    fun levels f hf => ⟨hpruned.keyed.grow, (hpruned.thrives.grow hf).1⟩
  cases sub with
  | none =>
      rw [Topics.subscribe] at hnone
      split_ifs at hnone
  | some sub =>
      rw [Topics.subscribe] at hnone ⊢
      by_cases hqos : validQos qos = true
      · rw [if_neg (by simp [hqos])] at hnone ⊢
        simp only [ite_maxQosAllowed hqos, sinsert, insertLoop_eq le_rfl] at hnone ⊢
        rcases hscan : scan (getGroupName topic).2 with ⟨levels, _ | err⟩
        · by_cases hgroup : (getGroupName topic).1 = []
          · simp only [if_pos hgroup]
            exact hgrow levels _ fun here => here.add_ne_newSubs qos sub
          · simp only [if_neg hgroup]
            exact hgrow levels _ fun here => here.join_ne_newSubs _ sub
        · rw [hscan] at hnone
          cases hnone
      · rw [if_pos (by simp [hqos])] at hnone
        cases hnone

theorem unsubscribe (hpruned : Pruned sroot) (topic : Bytes) (sub : Option S) :
    Pruned (Topics.unsubscribe sroot topic sub).1 := by
  have hremoved : (sremove sroot (getGroupName topic).1 (getGroupName topic).2 sub).toOption = _ :=
    removeLoop_toOption le_rfl
  rw [Topics.unsubscribe]
  cases hsremove : sremove sroot (getGroupName topic).1 (getGroupName topic).2 sub with
  | error err => exact hpruned
  | ok next =>
      rw [hsremove] at hremoved
      cases hscan : (scan (getGroupName topic).2).2 with
      | some err =>
          rw [hscan] at hremoved
          cases hremoved
      | none =>
          rw [hscan] at hremoved
          refine ⟨hpruned.keyed.shrink hremoved.symm,
            Trie.Thrives.shrink hpruned.keyed hpruned.thrives ?_ hremoved.symm⟩
          intro n halive hchildren hvalue
          rw [SNode.isDead_iff.mpr (Trie.eq_leaf hchildren hvalue)] at halive
          cases halive

theorem after {calls : List (Call S)} (hpruned : Pruned sroot) (hsucceed : Succeed sroot calls) :
    Pruned (calls.foldl step sroot) := by
  induction calls generalizing sroot with
  | nil => exact hpruned
  | cons call calls ih =>
      obtain ⟨hcall, hrest⟩ := hsucceed
      apply ih _ hrest
      cases call with
      | subscribe topic qos sub => exact hpruned.subscribe (hcall topic qos sub rfl)
      | unsubscribe topic sub => exact hpruned.unsubscribe topic sub

end Pruned

/-- Where the table has no row, the tree stores nothing. -/
theorem content_of_empty {sroot : SNode S} {table : Table S} (hrefines : Refines sroot table)
    (hsubs : table.subs.entries = []) (hgroups : table.groups.entries = [])
    (path : List Level) : sroot.content newSubs path = newSubs := by
  by_contra hne
  rcases Subs.occupied_iff.mpr hne with hsub | ⟨group, hgroup, -⟩
  · obtain ⟨sub, hmem⟩ := List.exists_mem_of_ne_nil _ hsub
    have hlt := List.idxOf_lt_length_of_mem hmem
    rw [← (sroot.content newSubs path).parallel] at hlt
    have hgranted : (sroot.content newSubs path).granted sub = some _ :=
      List.getElem?_eq_getElem hlt
    rw [hrefines.subs, ← Option.mem_def, AList.mem_lookup_iff, hsubs] at hgranted
    cases hgranted
  · have hlookup : (sroot.content newSubs path).groupSubs.lookup group.1 = some group.2 :=
      AList.mem_lookup_iff.mpr hgroup
    rw [hrefines.groups, ← Option.mem_def, AList.mem_lookup_iff, hgroups] at hlookup
    cases hlookup

/-- After every history in which no `Subscribe` fails, every node below the root has somebody
subscribed in it or below it, all nodes are in order, and the tree is its bare root once the
table of subscriptions is empty. -/
theorem no_dead_branches {calls : List (Call S)} (hsucceed : Succeed newSNode calls) :
    (∀ path n, path ≠ [] → (after calls).sub path = some n →
      ∃ below m, n.sub below = some m ∧ m.value.Occupied) ∧
    (∀ path n, (after calls).sub path = some n →
      n.value.subs.length = n.value.qos.length ∧
        ∀ group ∈ n.value.groupSubs.entries, group.2 ≠ []) ∧
    ((Table.after calls).subs.entries = [] → (Table.after calls).groups.entries = [] →
      after calls = newSNode) := by
  have hpruned : Pruned (after calls) := Pruned.new.after hsucceed
  have hoccupied : ∀ path n, path ≠ [] → (after calls).sub path = some n →
      ∃ below m, n.sub below = some m ∧ m.value.Occupied := by
    intro path n hne hsub
    obtain ⟨below, m, hm, hvalue⟩ := Trie.Thrives.exists_value n (hpruned.thrives.sub hsub)
      (hpruned.thrives path n hne hsub)
    exact ⟨below, m, hm, Subs.occupied_iff.mpr hvalue⟩
  refine ⟨hoccupied, fun path n _ => ⟨n.value.parallel.symm, n.value.populated⟩, ?_⟩
  intro hsubs hgroups
  have hempty := content_of_empty (Refines.after calls) hsubs hgroups
  refine Trie.eq_leaf ?_ (hempty [])
  -- A child would lead to somebody who is in no row of the table.
  by_contra hchildren
  obtain ⟨⟨key, n⟩, hmem⟩ := List.exists_mem_of_ne_nil _ hchildren
  have hchild : (after calls).child key = some n :=
    (List.mem_dlookup_iff hpruned.keyed.children).mpr hmem
  have hsub : (after calls).sub [key] = some n := by
    rw [Trie.sub_cons, hchild]
    rfl
  obtain ⟨below, m, hm, hvalue⟩ := hoccupied [key] n (List.cons_ne_nil _ _) hsub
  have hfull : (after calls).sub ([key] ++ below) = some m := by
    rw [Trie.sub_append, hsub]
    exact hm
  rw [← Trie.content_of_sub hfull, hempty] at hvalue
  exact Subs.occupied_iff.mp hvalue rfl

/-- Two subscriptions that share a level, removed one after the other. -/
def subscribedAndRemoved : List (Call ℕ) :=
  [.subscribe [0x61, 0x2f, 0x62] 1 (some 1), .subscribe [0x61] 0 (some 2),
    .unsubscribe [0x61, 0x2f, 0x62] none, .unsubscribe [0x61] (some 3),
    .unsubscribe [0x61] (some 2)]

theorem no_dead_branches_subscribedAndRemoved :
    Succeed newSNode subscribedAndRemoved ∧ after subscribedAndRemoved = newSNode := by
  have hsucceed : Succeed newSNode subscribedAndRemoved := by
    refine ⟨?_, ?_, ?_, ?_, ?_, trivial⟩
    all_goals
      intro topic qos sub hcall
      cases hcall
    · decide
    · decide
  exact ⟨hsucceed, (no_dead_branches hsucceed).2.2 (by decide) (by decide)⟩

end Xmqtt.Topics
