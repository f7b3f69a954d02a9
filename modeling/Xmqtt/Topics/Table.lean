import Xmqtt.Topics.Subscribers

/-!
# The subscriptions as a table

What the tree is for: a table of the subscriptions by their levels and their
subscriber, and one of the groups by their levels and their name.  The tree
refines it: after every history of calls a lookup in the tree gives what the
rows of the table that match the topic say.
-/

namespace Xmqtt.Topics

open Xmqtt.Core Xmqtt.Go Xmqtt.Message

/-! ## The table -/

/-- A group without one member, if there is a group and something is left of it. -/
def without {S : Type} [DecidableEq S] (sub : S) (members : Option (List S)) :
    Option (List S) :=
  (members.map (List.erase · sub)).filter (· ≠ [])

structure Table (S : Type) where
  subs : AList fun _ : List Level × S => Byte
  groups : AList fun _ : List Level × Bytes => List S

namespace Table

variable {S : Type}

def empty : Table S := ⟨∅, ∅⟩

variable [DecidableEq S]

def subscribe (this : Table S) (levels : List Level) (group : Bytes) (qos : Byte) (sub : S) :
    Table S :=
  if group = [] then { this with subs := this.subs.insert (levels, sub) qos }
  else
    { this with
      groups := this.groups.insert (levels, group)
        ((this.groups.lookup (levels, group)).getD [] ++ [sub]) }

/-- The rows of other levels. -/
def elsewhere {κ β : Type} (levels : List Level) (rows : AList fun _ : List Level × κ => β) :
    AList fun _ : List Level × κ => β :=
  ⟨rows.entries.filter fun row => row.1.1 ≠ levels,
    rows.nodupKeys.sublist List.filter_sublist⟩

def unsubscribe (this : Table S) (levels : List Level) (group : Bytes) : Option S → Table S
  | none => ⟨elsewhere levels this.subs, elsewhere levels this.groups⟩
  | some sub =>
      if group = [] then { this with subs := this.subs.erase (levels, sub) }
      else
        match without sub (this.groups.lookup (levels, group)) with
        | none => { this with groups := this.groups.erase (levels, group) }
        | some members => { this with groups := this.groups.insert (levels, group) members }

/-- A call counts if its arguments are valid and its topic has levels. -/
def step (this : Table S) : Call S → Table S
  | .subscribe topic qos (some sub) =>
      match scan (getGroupName topic).2 with
      | (levels, none) =>
          if validQos qos then this.subscribe levels (getGroupName topic).1 qos sub else this
      | (_, some _) => this
  | .subscribe _ _ none => this
  | .unsubscribe topic sub =>
      match scan (getGroupName topic).2 with
      | (levels, none) => this.unsubscribe levels (getGroupName topic).1 sub
      | (_, some _) => this

def after (calls : List (Call S)) : Table S := calls.foldl step empty

end Table

/-! ## One node -/

namespace Subs

variable {S : Type} [DecidableEq S]

/-- The QoS that was granted to a subscriber. -/
def granted (this : Subs S) (sub : S) : Option Byte := this.qos[this.subs.idxOf sub]?

theorem granted_of_not_mem {this : Subs S} {sub : S} (hnot : sub ∉ this.subs) :
    this.granted sub = none := by
  rw [granted, List.idxOf_eq_length hnot, ← this.parallel]
  exact List.getElem?_eq_none le_rfl

@[simp] theorem granted_newSubs (sub : S) : (newSubs : Subs S).granted sub = none := rfl

/-- Subscribers and their QoS, side by side. -/
theorem mem_zip_iff {this : Subs S} {sub : S} {qos : Byte} :
    (sub, qos) ∈ this.subs.zip this.qos ↔ this.granted sub = some qos := by
  rw [granted]
  constructor
  · intro hmem
    obtain ⟨i, hi⟩ := List.mem_iff_getElem?.mp hmem
    obtain ⟨hsub, hqos⟩ := List.getElem?_zip_eq_some.mp hi
    obtain ⟨hlt, hget⟩ := List.getElem?_eq_some_iff.mp hsub
    have hidx : this.subs.idxOf sub = i := by
      rw [← show this.subs[i] = sub from hget]
      exact this.distinct.idxOf_getElem i hlt
    rw [hidx]
    exact hqos
  · intro hqos
    have hlt : this.subs.idxOf sub < this.subs.length := by
      rw [← this.parallel]
      exact (List.getElem?_eq_some_iff.mp hqos).1
    rw [List.mem_iff_getElem?]
    refine ⟨this.subs.idxOf sub, List.getElem?_zip_eq_some.mpr ⟨?_, hqos⟩⟩
    exact List.getElem?_idxOf (List.idxOf_lt_length_iff.mp hlt)

theorem granted_add (this : Subs S) (qos : Byte) (sub other : S) :
    (this.add qos sub).granted other = if other = sub then some qos else this.granted other := by
  rw [add]
  split_ifs with hmem heq heq
  · have hlt := List.idxOf_lt_length_of_mem hmem
    rw [granted, heq]
    exact List.getElem?_set_self (this.parallel ▸ hlt)
  · have hne : this.subs.idxOf sub ≠ this.subs.idxOf other := fun hidx =>
      heq ((List.idxOf_inj hmem).mp hidx).symm
    exact List.getElem?_set_ne hne
  · have hidx : (this.subs ++ [sub]).idxOf other = this.qos.length := by
      rw [heq, List.idxOf_append_of_notMem hmem, List.idxOf_cons_self, this.parallel,
        Nat.add_zero]
    change (this.qos ++ [qos])[(this.subs ++ [sub]).idxOf other]? = _
    rw [hidx, List.getElem?_concat_length]
  · change (this.qos ++ [qos])[(this.subs ++ [sub]).idxOf other]? = _
    by_cases hother : other ∈ this.subs
    · have hlt := List.idxOf_lt_length_of_mem hother
      rw [List.idxOf_append_of_mem hother, List.getElem?_append_left (this.parallel ▸ hlt)]
      rfl
    · have hnot : other ∉ this.subs ++ [sub] := by simp [hother, heq]
      rw [granted_of_not_mem hother, List.idxOf_eq_length hnot]
      apply List.getElem?_eq_none
      rw [List.length_append, List.length_append, this.parallel]
      rfl

/-- The subscriber is taken out of both lists. -/
theorem zip_remove {this next : Subs S} {sub : S} (hnext : this.remove sub = some next) :
    ∃ front qos back, this.subs.zip this.qos = front ++ (sub, qos) :: back ∧
      next.subs.zip next.qos = front ++ back ∧ next.groupSubs = this.groupSubs := by
  rw [remove] at hnext
  split_ifs at hnext with hmem
  injection hnext with hnext
  have hlt := List.idxOf_lt_length_of_mem hmem
  have hlt' : this.subs.idxOf sub < this.qos.length := this.parallel ▸ hlt
  have hlength : (this.subs.take (this.subs.idxOf sub)).length =
      (this.qos.take (this.subs.idxOf sub)).length := by
    rw [List.length_take, List.length_take, this.parallel]
  refine ⟨(this.subs.take (this.subs.idxOf sub)).zip (this.qos.take (this.subs.idxOf sub)),
    this.qos[this.subs.idxOf sub],
    (this.subs.drop (this.subs.idxOf sub + 1)).zip (this.qos.drop (this.subs.idxOf sub + 1)),
    ?_, ?_, by rw [← hnext]⟩
  · have hsub : this.subs[this.subs.idxOf sub] = sub := List.getElem_idxOf hlt
    conv_lhs => rw [← List.take_append_drop (this.subs.idxOf sub) this.subs,
      ← List.take_append_drop (this.subs.idxOf sub) this.qos]
    rw [List.zip_append hlength, List.drop_eq_getElem_cons hlt, List.drop_eq_getElem_cons hlt',
      List.zip_cons_cons, hsub]
  · rw [← hnext]
    change (this.subs.eraseIdx _).zip (this.qos.eraseIdx _) = _
    rw [List.eraseIdx_eq_take_drop_succ, List.eraseIdx_eq_take_drop_succ,
      List.zip_append hlength]

theorem granted_remove {this next : Subs S} {sub : S} (hnext : this.remove sub = some next)
    (other : S) :
    next.granted other = if other = sub then none else this.granted other := by
  obtain ⟨front, qos, back, hzip, hnextZip, -⟩ := zip_remove hnext
  have hfst : (this.subs.zip this.qos).map Prod.fst = this.subs :=
    List.map_fst_zip this.parallel.ge
  have hdistinct := this.distinct
  rw [← hfst, hzip, List.map_append, List.map_cons] at hdistinct
  ext granted
  rw [← mem_zip_iff, hnextZip]
  split_ifs with heq
  · -- The subscriber was there only once.
    rw [heq]
    refine iff_of_false (fun hmem => ?_) (by simp)
    have hagain : sub ∈ front.map Prod.fst ++ back.map Prod.fst := by
      rw [← List.map_append]
      exact List.mem_map_of_mem hmem
    exact (List.nodup_middle.mp hdistinct).notMem hagain
  · rw [← mem_zip_iff, hzip]
    simp [heq]

theorem groupSubs_add (this : Subs S) (qos : Byte) (sub : S) :
    (this.add qos sub).groupSubs = this.groupSubs := by
  rw [add]
  split_ifs <;> rfl

end Subs

/-! ## What a removal does to lookups -/

section Removal

variable {S : Type} [DecidableEq S]

/-- The granted QoS after a removal. -/
def grantedAfter (group : Bytes) (sub : Option S) (granted : S → Option Byte) (other : S) :
    Option Byte :=
  match sub with
  | none => none
  | some sub => if group = [] ∧ other = sub then none else granted other

/-- The members of a group after a removal. -/
def membersAfter (group : Bytes) (sub : Option S) (members : Bytes → Option (List S))
    (name : Bytes) : Option (List S) :=
  match sub with
  | none => none
  | some sub => if group ≠ [] ∧ name = group then without sub (members name) else members name

theorem without_of_leave_eq_none {here : Subs S} {group : Bytes} {sub : S}
    (hnone : here.leave group sub = none) :
    without sub (here.groupSubs.lookup group) = here.groupSubs.lookup group := by
  rw [Subs.leave] at hnone
  cases hlookup : here.groupSubs.lookup group with
  | none => rfl
  | some gsubs =>
      have hmembers : gsubs ≠ [] := here.populated ⟨group, gsubs⟩ (AList.mem_lookup_iff.mp hlookup)
      rw [hlookup] at hnone
      simp only at hnone
      split_ifs at hnone with hmem
      rw [without, Option.map_some, List.erase_of_not_mem hmem, Option.filter_some,
        if_pos (decide_eq_true hmembers)]

theorem lookup_of_leave {here next : Subs S} {group : Bytes} {sub : S}
    (hnext : here.leave group sub = some next) (name : Bytes) :
    next.groupSubs.lookup name =
      if name = group then without sub (here.groupSubs.lookup group)
      else here.groupSubs.lookup name := by
  rw [Subs.leave] at hnext
  cases hlookup : here.groupSubs.lookup group with
  | none =>
      rw [hlookup] at hnext
      cases hnext
  | some gsubs =>
      have herase : gsubs.eraseIdx (gsubs.idxOf sub) = gsubs.erase sub :=
        List.eraseIdx_idxOf_eq_erase sub gsubs
      rw [hlookup] at hnext
      simp only [herase] at hnext
      split_ifs at hnext with hmem htemp
      · have hleft : gsubs.erase sub ≠ [] := List.ne_nil_of_length_pos htemp
        injection hnext with hnext
        rw [← hnext, without, Option.map_some, Option.filter_some, if_pos (decide_eq_true hleft)]
        split_ifs with hname
        · rw [hname]
          exact AList.lookup_insert here.groupSubs
        · exact AList.lookup_insert_ne hname
      · have hleft : gsubs.erase sub = [] := List.length_eq_zero_iff.mp (by omega)
        injection hnext with hnext
        rw [← hnext, without, Option.map_some, hleft]
        split_ifs with hname
        · rw [hname]
          exact AList.lookup_erase group here.groupSubs
        · exact AList.lookup_erase_ne hname

theorem granted_of_leave {here next : Subs S} {group : Bytes} {sub : S}
    (hnext : here.leave group sub = some next) (other : S) :
    next.granted other = here.granted other := by
  rw [Subs.leave] at hnext
  split at hnext
  · cases hnext
  · split_ifs at hnext with hmem
    · simp only at hnext
      split_ifs at hnext <;> injection hnext with hnext <;> rw [← hnext] <;> rfl

/-- What happens in the last node of a removal, whether it fails or not. -/
theorem sremoveHere_getD (group : Bytes) (sub : Option S) (here : Subs S) :
    (∀ other, ((sremoveHere group sub here).toOption.getD here).granted other =
        grantedAfter group sub here.granted other) ∧
      ∀ name, ((sremoveHere group sub here).toOption.getD here).groupSubs.lookup name =
        membersAfter group sub (fun name => here.groupSubs.lookup name) name := by
  cases sub with
  | none => exact ⟨fun _ => rfl, fun _ => rfl⟩
  | some sub =>
      by_cases hgroup : group = []
      · have hmembers : ∀ name, membersAfter group (some sub)
            (fun name => here.groupSubs.lookup name) name = here.groupSubs.lookup name :=
          fun name => if_neg fun hand => hand.1 hgroup
        have hgranted : ∀ other, grantedAfter group (some sub) here.granted other =
            if other = sub then none else here.granted other := by
          intro other
          simp only [grantedAfter, hgroup, true_and]
        simp only [hmembers, hgranted, sremoveHere, if_pos hgroup]
        cases hremove : here.remove sub with
        | none =>
            refine ⟨fun other => ?_, fun name => rfl⟩
            split_ifs with hother
            · rw [Subs.remove] at hremove
              split_ifs at hremove with hmem
              exact hother ▸ Subs.granted_of_not_mem hmem
            · rfl
        | some next =>
            obtain ⟨-, -, -, -, -, hgroups⟩ := Subs.zip_remove hremove
            exact ⟨Subs.granted_remove hremove, fun name => by
              simp only [Except.toOption, Option.getD_some, hgroups]⟩
      · have hmembers : ∀ name, membersAfter group (some sub)
            (fun name => here.groupSubs.lookup name) name =
              if name = group then without sub (here.groupSubs.lookup group)
              else here.groupSubs.lookup name := by
          intro name
          simp only [membersAfter, ne_eq, hgroup, not_false_eq_true, true_and]
          split_ifs with hname
          · rw [hname]
          · rfl
        have hgranted : ∀ other, grantedAfter group (some sub) here.granted other =
            here.granted other := fun other => if_neg fun hand => hgroup hand.1
        simp only [hmembers, hgranted, sremoveHere, if_neg hgroup]
        cases hleave : here.leave group sub with
        | none =>
            refine ⟨fun other => rfl, fun name => ?_⟩
            rw [without_of_leave_eq_none hleave]
            split_ifs with hname
            · rw [hname]
              rfl
            · rfl
        | some next => exact ⟨granted_of_leave hleave, lookup_of_leave hleave⟩

end Removal

namespace Table

variable {S : Type}

theorem lookup_elsewhere {κ β : Type} [DecidableEq κ] (levels : List Level)
    (rows : AList fun _ : List Level × κ => β) (key : List Level × κ) :
    (elsewhere levels rows).lookup key = if key.1 = levels then none else rows.lookup key := by
  ext value
  rw [← Option.mem_def, AList.mem_lookup_iff]
  change (⟨key, value⟩ : Sigma fun _ : List Level × κ => β) ∈ List.filter _ rows.entries ↔ _
  rw [List.mem_filter, ← AList.mem_lookup_iff]
  by_cases hlevels : key.1 = levels
  · simp [hlevels]
  · simp [hlevels]

variable [DecidableEq S]

theorem lookup_subs_subscribe (this : Table S) (levels : List Level) (group : Bytes)
    (qos : Byte) (sub : S) (key : List Level × S) :
    (this.subscribe levels group qos sub).subs.lookup key =
      if group = [] ∧ key = (levels, sub) then some qos else this.subs.lookup key := by
  rw [subscribe]
  split_ifs with hgroup hkey hkey
  · rw [hkey.2]
    exact AList.lookup_insert this.subs
  · exact AList.lookup_insert_ne fun heq => hkey ⟨hgroup, heq⟩
  · exact absurd hkey.1 hgroup
  · rfl

theorem lookup_groups_subscribe (this : Table S) (levels : List Level) (group : Bytes)
    (qos : Byte) (sub : S) (key : List Level × Bytes) :
    (this.subscribe levels group qos sub).groups.lookup key =
      if group ≠ [] ∧ key = (levels, group) then
        some ((this.groups.lookup (levels, group)).getD [] ++ [sub])
      else this.groups.lookup key := by
  rw [subscribe]
  split_ifs with hgroup hkey hkey
  · exact absurd hgroup hkey.1
  · rfl
  · rw [hkey.2]
    exact AList.lookup_insert this.groups
  · exact AList.lookup_insert_ne fun heq => hkey ⟨hgroup, heq⟩

theorem lookup_subs_unsubscribe (this : Table S) (levels : List Level) (group : Bytes)
    (sub : Option S) (levels' : List Level) (other : S) :
    (this.unsubscribe levels group sub).subs.lookup (levels', other) =
      if levels' = levels then
        grantedAfter group sub (fun other => this.subs.lookup (levels', other)) other
      else this.subs.lookup (levels', other) := by
  cases sub with
  | none => exact lookup_elsewhere levels this.subs (levels', other)
  | some sub =>
      rw [unsubscribe]
      by_cases hgroup : group = []
      · rw [if_pos hgroup]
        simp only [grantedAfter, hgroup, true_and]
        by_cases hkey : (levels', other) = (levels, sub)
        · obtain ⟨rfl, rfl⟩ := Prod.mk.inj hkey
          rw [if_pos rfl, if_pos rfl]
          exact AList.lookup_erase _ _
        · rw [AList.lookup_erase_ne hkey]
          split_ifs with hlevels hother
          · exact absurd (Prod.ext hlevels hother) hkey
          · rfl
          · rfl
      · rw [if_neg hgroup]
        have hsame : grantedAfter group (some sub)
            (fun other => this.subs.lookup (levels', other)) other =
              this.subs.lookup (levels', other) := if_neg fun hand => hgroup hand.1
        rw [hsame, ite_self]
        split <;> rfl

theorem lookup_groups_unsubscribe (this : Table S) (levels : List Level) (group : Bytes)
    (sub : Option S) (levels' : List Level) (name : Bytes) :
    (this.unsubscribe levels group sub).groups.lookup (levels', name) =
      if levels' = levels then
        membersAfter group sub (fun name => this.groups.lookup (levels', name)) name
      else this.groups.lookup (levels', name) := by
  cases sub with
  | none => exact lookup_elsewhere levels this.groups (levels', name)
  | some sub =>
      rw [unsubscribe]
      by_cases hgroup : group = []
      · rw [if_pos hgroup]
        have hsame : membersAfter group (some sub)
            (fun name => this.groups.lookup (levels', name)) name =
              this.groups.lookup (levels', name) := if_neg fun hand => hand.1 hgroup
        rw [hsame, ite_self]
      · rw [if_neg hgroup]
        simp only [membersAfter, ne_eq, hgroup, not_false_eq_true, true_and]
        by_cases hkey : (levels', name) = (levels, group)
        · obtain ⟨rfl, rfl⟩ := Prod.mk.inj hkey
          rw [if_pos rfl, if_pos rfl]
          cases without sub (this.groups.lookup (levels', name)) with
          | none => exact AList.lookup_erase _ _
          | some members => exact AList.lookup_insert _
        · have hrow : (if levels' = levels then
              if name = group then without sub (this.groups.lookup (levels', name))
              else this.groups.lookup (levels', name)
              else this.groups.lookup (levels', name)) =
                this.groups.lookup (levels', name) := by
            split_ifs with hlevels hname
            · exact absurd (Prod.ext hlevels hname) hkey
            · rfl
            · rfl
          rw [hrow]
          cases without sub (this.groups.lookup (levels, group)) with
          | none => exact AList.lookup_erase_ne hkey
          | some members => exact AList.lookup_insert_ne hkey

end Table

/-! ## The tree keeps step with the table -/

/-- A valid QoS is never more than is allowed. -/
theorem ite_maxQosAllowed {qos : Byte} (hqos : validQos qos = true) :
    (if maxQosAllowed < qos then maxQosAllowed else qos) = qos := by
  simp only [validQos, Bool.or_eq_true, beq_iff_eq] at hqos
  rcases hqos with (rfl | rfl) | rfl <;> rfl

theorem SNode.isDead_iff {S : Type} {n : SNode S} : n.isDead = true ↔ n = newSNode := by
  rw [SNode.isDead]
  constructor
  · intro hdead
    simp only [Bool.and_eq_true, decide_eq_true_eq, List.length_eq_zero_iff] at hdead
    obtain ⟨⟨hgroups, hsubs⟩, hchildren⟩ := hdead
    refine Trie.eq_leaf hchildren (Subs.ext hsubs ?_ (AList.ext hgroups))
    apply List.length_eq_zero_iff.mp
    rw [n.value.parallel, hsubs]
    rfl
  · rintro rfl
    rfl

section Refines

variable {S : Type} [DecidableEq S]

/-- At every path the tree stores the rows that the table has for these levels. -/
structure Refines (sroot : SNode S) (table : Table S) : Prop where
  keyed : sroot.Keyed
  subs : ∀ levels sub, (sroot.content newSubs levels).granted sub =
    table.subs.lookup (levels, sub)
  groups : ∀ levels name, (sroot.content newSubs levels).groupSubs.lookup name =
    table.groups.lookup (levels, name)

namespace Refines

variable {sroot : SNode S} {table : Table S}

theorem new : Refines (newSNode : SNode S) Table.empty where
  keyed := Trie.keyed_leaf _
  subs := by
    intro levels sub
    rw [newSNode, Trie.content_leaf]
    rfl
  groups := by
    intro levels name
    rw [newSNode, Trie.content_leaf]
    rfl

/-- Nodes that are made on the way to an error store nothing. -/
theorem grow_id (hrefines : Refines sroot table) (levels : List Level) :
    Refines (sroot.grow newSubs id levels) table := by
  have hcontent : ∀ other, (sroot.grow newSubs id levels).content newSubs other =
      sroot.content newSubs other := by
    intro other
    rw [Trie.content_grow]
    split_ifs with heq
    · rw [heq]
      rfl
    · rfl
  constructor
  case keyed => exact hrefines.keyed.grow
  case subs =>
    intro levels sub
    rw [hcontent]
    exact hrefines.subs levels sub
  case groups =>
    intro levels name
    rw [hcontent]
    exact hrefines.groups levels name

/-- A subscription outside of groups. -/
theorem add (hrefines : Refines sroot table) (levels : List Level) (qos : Byte) (sub : S) :
    Refines (sroot.grow newSubs (fun here => here.add qos sub) levels)
      (table.subscribe levels [] qos sub) := by
  constructor
  case keyed => exact hrefines.keyed.grow
  case subs =>
    intro levels' other
    rw [Trie.content_grow, Table.subscribe, if_pos rfl]
    by_cases hkey : (levels', other) = (levels, sub)
    · obtain ⟨rfl, rfl⟩ := Prod.mk.inj hkey
      rw [if_pos rfl, Subs.granted_add, if_pos rfl]
      exact (AList.lookup_insert table.subs).symm
    · rw [AList.lookup_insert_ne hkey, ← hrefines.subs]
      split_ifs with hlevels
      · rw [Subs.granted_add, if_neg fun hother => hkey (Prod.ext hlevels hother), hlevels]
      · rfl
  case groups =>
    intro levels' name
    rw [Trie.content_grow, Table.subscribe, if_pos rfl, ← hrefines.groups]
    split_ifs with hlevels
    · rw [Subs.groupSubs_add, hlevels]
    · rfl

/-- A subscription in a group. -/
theorem join (hrefines : Refines sroot table) (levels : List Level) {group : Bytes}
    (hgroup : group ≠ []) (qos : Byte) (sub : S) :
    Refines (sroot.grow newSubs (fun here => here.join group sub) levels)
      (table.subscribe levels group qos sub) := by
  constructor
  case keyed => exact hrefines.keyed.grow
  case subs =>
    intro levels' other
    rw [Trie.content_grow, Table.subscribe, if_neg hgroup, ← hrefines.subs]
    split_ifs with hlevels
    · rw [hlevels]
      rfl
    · rfl
  case groups =>
    intro levels' name
    rw [Trie.content_grow, Table.subscribe, if_neg hgroup]
    by_cases hkey : (levels', name) = (levels, group)
    · obtain ⟨rfl, rfl⟩ := Prod.mk.inj hkey
      rw [if_pos rfl, ← hrefines.groups, AList.lookup_insert]
      exact AList.lookup_insert _
    · rw [AList.lookup_insert_ne hkey, ← hrefines.groups]
      split_ifs with hlevels
      · rw [hlevels]
        exact AList.lookup_insert_ne fun hname => hkey (Prod.ext hlevels hname)
      · rfl

theorem subscribe (hrefines : Refines sroot table) (topic : Bytes) (qos : Byte)
    (sub : Option S) :
    Refines (Topics.subscribe sroot topic qos sub).1
      (table.step (.subscribe topic qos sub)) := by
  cases sub with
  | none =>
      rw [Topics.subscribe]
      split_ifs <;> exact hrefines
  | some sub =>
      rw [Topics.subscribe, Table.step]
      by_cases hqos : validQos qos = true
      · rw [if_neg (by simp [hqos])]
        simp only [ite_maxQosAllowed hqos]
        rw [sinsert, insertLoop_eq le_rfl]
        rcases hscan : scan (getGroupName topic).2 with ⟨levels, _ | err⟩
        · simp only [if_pos hqos]
          by_cases hgroup : (getGroupName topic).1 = []
          · simp only [hgroup, if_true]
            exact hrefines.add levels qos sub
          · simp only [if_neg hgroup]
            exact hrefines.join levels hgroup qos sub
        · exact hrefines.grow_id levels
      · rw [if_pos (by simp [hqos])]
        rcases scan (getGroupName topic).2 with ⟨levels, _ | err⟩
        · simp only [if_neg hqos]
          exact hrefines
        · exact hrefines

/-- A removal that succeeds in the tree. -/
theorem shrink (hrefines : Refines sroot table) {levels : List Level} {group : Bytes}
    {sub : Option S} {next : SNode S}
    (hnext : sroot.shrink SNode.isDead (fun here => (sremoveHere group sub here).toOption)
      levels = some next) : Refines next (table.unsubscribe levels group sub) := by
  obtain ⟨here, hhere, hcontent⟩ := Trie.content_shrink hrefines.keyed
    (fun _ _ m _ _ _ _ hdead => SNode.isDead_iff.mp hdead) hnext
  obtain ⟨hgranted, hmembers⟩ := sremoveHere_getD group sub (sroot.content newSubs levels)
  rw [hhere] at hgranted hmembers
  constructor
  case keyed => exact hrefines.keyed.shrink hnext
  case subs =>
    intro levels' other
    rw [hcontent, Table.lookup_subs_unsubscribe, ← hrefines.subs]
    split_ifs with hlevels
    · rw [hlevels]
      simp only [← hrefines.subs]
      exact hgranted other
    · rfl
  case groups =>
    intro levels' name
    rw [hcontent, Table.lookup_groups_unsubscribe, ← hrefines.groups]
    split_ifs with hlevels
    · rw [hlevels]
      simp only [← hrefines.groups]
      exact hmembers name
    · rfl

/-- A removal that fails in the tree has no row to remove. -/
theorem shrink_none (hrefines : Refines sroot table) {levels : List Level} {group : Bytes}
    {sub : Option S}
    (hnone : sroot.shrink SNode.isDead (fun here => (sremoveHere group sub here).toOption)
      levels = none) : Refines sroot (table.unsubscribe levels group sub) := by
  have hsame : (∀ other, (sroot.content newSubs levels).granted other =
        grantedAfter group sub (sroot.content newSubs levels).granted other) ∧
      ∀ name, (sroot.content newSubs levels).groupSubs.lookup name =
        membersAfter group sub
          (fun name => (sroot.content newSubs levels).groupSubs.lookup name) name := by
    have heffect := sremoveHere_getD group sub (sroot.content newSubs levels)
    rw [Trie.shrink_eq_none_iff] at hnone
    cases hsub : sroot.sub levels with
    | some n =>
        rw [Trie.content_of_sub hsub] at heffect ⊢
        rwa [hnone n hsub] at heffect
    | none =>
        -- There is nothing at these levels, and nothing can be taken from nothing.
        have hempty : sroot.content newSubs levels = newSubs := by
          rw [Trie.content, hsub]
          rfl
        rw [hempty]
        cases sub with
        | none => exact ⟨fun _ => rfl, fun _ => rfl⟩
        | some sub =>
            refine ⟨fun other => ?_, fun name => ?_⟩
            · simp only [grantedAfter, Subs.granted_newSubs, ite_self]
            · change none = ite _ (without sub none) none
              exact (ite_self _).symm
  obtain ⟨hgranted, hmembers⟩ := hsame
  constructor
  case keyed => exact hrefines.keyed
  case subs =>
    intro levels' other
    rw [Table.lookup_subs_unsubscribe]
    split_ifs with hlevels
    · rw [hlevels]
      simp only [← hrefines.subs]
      exact hgranted other
    · exact hrefines.subs levels' other
  case groups =>
    intro levels' name
    rw [Table.lookup_groups_unsubscribe]
    split_ifs with hlevels
    · rw [hlevels]
      simp only [← hrefines.groups]
      exact hmembers name
    · exact hrefines.groups levels' name

theorem unsubscribe (hrefines : Refines sroot table) (topic : Bytes) (sub : Option S) :
    Refines (Topics.unsubscribe sroot topic sub).1 (table.step (.unsubscribe topic sub)) := by
  have hremoved : (sremove sroot (getGroupName topic).1 (getGroupName topic).2 sub).toOption = _ :=
    removeLoop_toOption le_rfl
  rw [Topics.unsubscribe, Table.step]
  rcases hscan : scan (getGroupName topic).2 with ⟨levels, _ | err⟩
  · rw [hscan] at hremoved
    cases hsremove : sremove sroot (getGroupName topic).1 (getGroupName topic).2 sub with
    | error err =>
        rw [hsremove] at hremoved
        exact hrefines.shrink_none hremoved.symm
    | ok next =>
        rw [hsremove] at hremoved
        exact hrefines.shrink hremoved.symm
  · rw [hscan] at hremoved
    cases hsremove : sremove sroot (getGroupName topic).1 (getGroupName topic).2 sub with
    | error err => exact hrefines
    | ok next =>
        rw [hsremove] at hremoved
        cases hremoved

/-- The tree refines the table after every history of calls. -/
theorem after (calls : List (Call S)) : Refines (Topics.after calls) (Table.after calls) := by
  suffices hfrom : ∀ (sroot : SNode S) (table : Table S), Refines sroot table →
      Refines (calls.foldl Topics.step sroot) (calls.foldl Table.step table) from
    hfrom _ _ new
  induction calls with
  | nil => exact fun _ _ hrefines => hrefines
  | cons call calls ih =>
      intro sroot table hrefines
      apply ih
      cases call with
      | subscribe topic qos sub => exact hrefines.subscribe topic qos sub
      | unsubscribe topic sub => exact hrefines.unsubscribe topic sub

end Refines

end Refines

end Xmqtt.Topics
