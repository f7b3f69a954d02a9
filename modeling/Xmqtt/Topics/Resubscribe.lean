import Xmqtt.Topics.Filters

/-!
# Subscribing twice and unsubscribing once

A topic names a row: its levels and its group, which is empty for a plain topic.
`sinsert` keeps a subscriber once in a plain row and as often as it has
subscribed in the row of a group, and `sremove` takes it out once.  How often a
subscriber is in a row decides whether one `Unsubscribe` is enough.
-/

namespace Xmqtt.Topics

open Xmqtt.Core Xmqtt.Go Xmqtt.Message

/-- What a topic subscribes to. -/
@[ext]
structure Row where
  levels : List Level
  group : Bytes
  deriving DecidableEq, Repr

def rowOf (topic : Bytes) : Row := ⟨(scan (getGroupName topic).2).1, (getGroupName topic).1⟩

/-- No level of the topic is refused. -/
def Readable (topic : Bytes) : Prop := (scan (getGroupName topic).2).2 = none

instance (topic : Bytes) : Decidable (Readable topic) := inferInstanceAs (Decidable (_ = _))

section Statements

variable {S : Type} [DecidableEq S]

/-- How often a subscriber is in a row. -/
def SNode.times (sroot : SNode S) (row : Row) (sub : S) : ℕ :=
  if row.group = [] then (sroot.content newSubs row.levels).subs.count sub
  else (((sroot.content newSubs row.levels).groupSubs.lookup row.group).getD []).count sub

/-- `Subscribers` returns a subscriber on account of a row: the row matches, and the subscriber
is in it or is the member that is drawn. -/
def Returns (chance : Chance S) (sroot : SNode S) (row : Row) (sub : S) (published : Bytes) :
    Prop :=
  filterMatches row.levels (levelsOf published) = true ∧
    if row.group = [] then sub ∈ (sroot.content newSubs row.levels).subs
    else ((sroot.content newSubs row.levels).groupSubs.lookup row.group).bind
      (drawn chance row.levels row.group) = some sub

/-- The call subscribes the subscriber to the row. -/
def Call.Subscribes (row : Row) (sub : S) : Call S → Prop
  | .subscribe topic qos other =>
      validQos qos = true ∧ Readable topic ∧ rowOf topic = row ∧ other = some sub
  | .unsubscribe _ _ => False

/-- After an `Unsubscribe` that returns nil, the subscriber is not returned on account of the
row unless it subscribes to it again. -/
def Complete (history : List (Call S)) (topic : Bytes) (sub : S) : Prop :=
  (unsubscribe (after history) topic (some sub)).2 = none →
    ∀ later : List (Call S), (∀ call ∈ later, ¬ call.Subscribes (rowOf topic) sub) →
      ∀ chance published,
        ¬ Returns chance (after (history ++ .unsubscribe topic (some sub) :: later))
          (rowOf topic) sub published

end Statements

/-! ## How often a subscriber is in a row -/

section Times

variable {S : Type} [DecidableEq S]

def Table.times (table : Table S) (row : Row) (sub : S) : ℕ :=
  if row.group = [] then (table.subs.lookup (row.levels, sub)).toList.length
  else ((table.groups.lookup (row.levels, row.group)).getD []).count sub

theorem Subs.mem_iff_granted {this : Subs S} {sub : S} :
    sub ∈ this.subs ↔ ∃ qos, this.granted sub = some qos := by
  simp only [← mem_zip_iff]
  constructor
  · intro hmem
    rw [← List.map_fst_zip this.parallel.ge] at hmem
    obtain ⟨entry, hentry, rfl⟩ := List.mem_map.mp hmem
    exact ⟨entry.2, hentry⟩
  · rintro ⟨qos, hzip⟩
    exact (List.of_mem_zip hzip).1

theorem Refines.times_eq {sroot : SNode S} {table : Table S} (hrefines : Refines sroot table)
    (row : Row) (sub : S) : sroot.times row sub = table.times row sub := by
  rw [SNode.times, Table.times, ← hrefines.subs, ← hrefines.groups]
  split_ifs
  · rw [(sroot.content newSubs row.levels).distinct.count]
    cases hgranted : (sroot.content newSubs row.levels).granted sub with
    | none =>
        rw [if_neg]
        · rfl
        · intro hmem
          obtain ⟨qos, hqos⟩ := Subs.mem_iff_granted.mp hmem
          cases hgranted.symm.trans hqos
    | some qos =>
        rw [if_pos (Subs.mem_iff_granted.mpr ⟨qos, hgranted⟩)]
        rfl
  · rfl

theorem times_le_one {sroot : SNode S} {row : Row} (hgroup : row.group = []) (sub : S) :
    sroot.times row sub ≤ 1 := by
  rw [SNode.times, if_pos hgroup]
  exact List.nodup_iff_count_le_one.mp (sroot.content newSubs row.levels).distinct sub

/-- Who is returned on account of a row is in it. -/
theorem Returns.times_pos {chance : Chance S} {sroot : SNode S} {row : Row} {sub : S}
    {published : Bytes} (hreturns : Returns chance sroot row sub published) :
    0 < sroot.times row sub := by
  obtain ⟨-, hmem⟩ := hreturns
  rw [SNode.times]
  split_ifs at hmem ⊢ with hgroup
  · exact List.count_pos_iff.mpr hmem
  · obtain ⟨members, hmembers, hdrawn⟩ := Option.bind_eq_some_iff.mp hmem
    rw [hmembers, Option.getD_some]
    apply List.count_pos_iff.mpr
    rw [drawn] at hdrawn
    split_ifs at hdrawn
    · exact List.mem_of_getElem? hdrawn
    · exact List.mem_of_getElem? hdrawn

/-- A group has a name. -/
theorem Table.lookup_groups_nil (calls : List (Call S)) (levels : List Level) :
    (Table.after calls).groups.lookup (levels, []) = none := by
  suffices hfrom : ∀ table : Table S, table.groups.lookup (levels, []) = none →
      (calls.foldl Table.step table).groups.lookup (levels, []) = none from hfrom _ rfl
  induction calls with
  | nil => exact fun _ hnone => hnone
  | cons call calls ih =>
      intro table hnone
      apply ih
      cases call with
      | subscribe topic qos sub =>
          cases sub with
          | none => exact hnone
          | some sub =>
              rw [Table.step]
              rcases scan (getGroupName topic).2 with ⟨front, _ | err⟩
              · simp only
                split_ifs
                · rw [lookup_groups_subscribe, if_neg]
                  · exact hnone
                  · rintro ⟨hgroup, hkey⟩
                    exact hgroup (Prod.mk.inj hkey).2.symm
                · exact hnone
              · exact hnone
      | unsubscribe topic sub =>
          rw [Table.step]
          rcases scan (getGroupName topic).2 with ⟨front, _ | err⟩
          · simp only [lookup_groups_unsubscribe, hnone]
            cases sub with
            | none => exact ite_self _
            | some sub =>
                rw [membersAfter]
                split_ifs with hlevels hgroup
                · exact absurd hgroup.2.symm hgroup.1
                · exact hnone
                · rfl
          · exact hnone

/-- `Subscribers` returns who is returned on account of some row. -/
theorem mem_subscribers_iff_returns (calls : List (Call S)) (chance : Chance S)
    {published : Bytes} (hscan : (scan published).2 = none) {qos : Byte}
    (hqos : validQos qos = true) (before : Found S) (sub : S) :
    sub ∈ (subscribers chance (after calls) published qos before).1.subs ↔
      ∃ row, Returns chance (after calls) row sub published := by
  have hrefines := Refines.after calls
  obtain ⟨found, hfound, hlength, hperm⟩ :=
    hrefines.subscribers_draws chance hqos before (Or.inl hscan)
  have hsubs : found.subs = (found.subs.zip found.qoss).map Prod.fst :=
    (List.map_fst_zip hlength.le).symm
  rw [hfound, hsubs, (hperm.map Prod.fst).mem_iff, List.map_append, List.mem_append]
  constructor
  · rintro (hmatched | hgroups)
    · obtain ⟨entry, hentry, rfl⟩ := List.mem_map.mp hmatched
      obtain ⟨⟨⟨levels, sub⟩, granted⟩, hrow, rfl⟩ := List.mem_map.mp hentry
      obtain ⟨hmem, hmatches⟩ := List.mem_filter.mp hrow
      refine ⟨⟨levels, []⟩, hmatches, ?_⟩
      rw [if_pos rfl, Subs.mem_iff_granted]
      exact ⟨granted, (hrefines.subs levels sub).trans (AList.mem_lookup_iff.mpr hmem)⟩
    · obtain ⟨entry, hentry, rfl⟩ := List.mem_map.mp hgroups
      obtain ⟨sub, hdraws, rfl⟩ := List.mem_map.mp hentry
      obtain ⟨⟨⟨levels, name⟩, members⟩, hrow, hdrawn⟩ := List.mem_flatMap.mp hdraws
      obtain ⟨hmem, hmatches⟩ := List.mem_filter.mp hrow
      have hlookup : (Table.after calls).groups.lookup (levels, name) = some members :=
        AList.mem_lookup_iff.mpr hmem
      have hname : name ≠ [] := by
        rintro rfl
        cases (Table.lookup_groups_nil calls levels).symm.trans hlookup
      refine ⟨⟨levels, name⟩, hmatches, ?_⟩
      rw [if_neg hname, hrefines.groups, hlookup]
      exact Option.mem_toList.mp hdrawn
  · rintro ⟨⟨levels, name⟩, hmatches, hin⟩
    split_ifs at hin with hname
    · obtain ⟨granted, hgranted⟩ := Subs.mem_iff_granted.mp hin
      rw [hrefines.subs] at hgranted
      refine Or.inl (List.mem_map.mpr ⟨(sub, min qos granted), List.mem_map.mpr
        ⟨⟨(levels, sub), granted⟩, List.mem_filter.mpr ⟨?_, hmatches⟩, rfl⟩, rfl⟩)
      exact AList.mem_lookup_iff.mp hgranted
    · obtain ⟨members, hmembers, hdrawn⟩ := Option.bind_eq_some_iff.mp hin
      rw [hrefines.groups] at hmembers
      refine Or.inr (List.mem_map.mpr ⟨(sub, 1), List.mem_map_of_mem (List.mem_flatMap.mpr
        ⟨⟨(levels, name), members⟩, List.mem_filter.mpr ⟨?_, hmatches⟩, ?_⟩), rfl⟩)
      · exact AList.mem_lookup_iff.mp hmembers
      · exact Option.mem_toList.mpr hdrawn

theorem getD_without (sub : S) (members : Option (List S)) :
    (without sub members).getD [] = (members.getD []).erase sub := by
  cases members with
  | none => rfl
  | some members =>
      rw [without, Option.map_some, Option.filter_some]
      by_cases hleft : members.erase sub = []
      · simp [hleft]
      · simp [hleft]

namespace Table

variable (table : Table S) {topic : Bytes}

theorem step_subscribe (hreadable : Readable topic) {qos : Byte} (hqos : validQos qos = true)
    (sub : S) : table.step (.subscribe topic qos (some sub)) =
      table.subscribe (rowOf topic).levels (rowOf topic).group qos sub := by
  have hscan : scan (getGroupName topic).2 = ((rowOf topic).levels, none) :=
    Prod.ext rfl hreadable
  rw [step, hscan]
  exact if_pos hqos

theorem step_unsubscribe (hreadable : Readable topic) (sub : Option S) :
    table.step (.unsubscribe topic sub) =
      table.unsubscribe (rowOf topic).levels (rowOf topic).group sub := by
  have hscan : scan (getGroupName topic).2 = ((rowOf topic).levels, none) :=
    Prod.ext rfl hreadable
  rw [step, hscan]
  rfl

theorem times_subscribe {row other : Row} {sub newcomer : S}
    (hne : ¬ (other = row ∧ newcomer = sub)) (qos : Byte) :
    (table.subscribe other.levels other.group qos newcomer).times row sub =
      table.times row sub := by
  rw [times, times, lookup_subs_subscribe, lookup_groups_subscribe]
  by_cases hgroup : row.group = []
  · rw [if_pos hgroup, if_pos hgroup, if_neg]
    rintro ⟨hplain, hkey⟩
    obtain ⟨hlevels, rfl⟩ := Prod.mk.inj hkey
    exact hne ⟨Row.ext hlevels.symm (hplain.trans hgroup.symm), rfl⟩
  · rw [if_neg hgroup, if_neg hgroup]
    split_ifs with hkey
    · obtain ⟨hlevels, hname⟩ := Prod.mk.inj hkey.2
      have hother : newcomer ≠ sub := fun heq =>
        hne ⟨Row.ext hlevels.symm hname.symm, heq⟩
      rw [Option.getD_some, List.count_append, List.count_singleton,
        if_neg (by simpa using hother), hlevels, hname, Nat.add_zero]
    · rfl

/-- Taking anyone out of a row puts nobody in. -/
theorem times_unsubscribe_le (other row : Row) (leaving : Option S) (sub : S) :
    (table.unsubscribe other.levels other.group leaving).times row sub ≤
      table.times row sub := by
  rw [times, times, lookup_subs_unsubscribe, lookup_groups_unsubscribe]
  by_cases hgroup : row.group = []
  · rw [if_pos hgroup, if_pos hgroup]
    split_ifs with hlevels
    · cases leaving with
      | none => exact Nat.zero_le _
      | some leaving =>
          rw [grantedAfter]
          split_ifs
          · exact Nat.zero_le _
          · exact le_rfl
    · exact le_rfl
  · rw [if_neg hgroup, if_neg hgroup]
    split_ifs with hlevels
    · cases leaving with
      | none => exact Nat.zero_le _
      | some leaving =>
          rw [membersAfter]
          split_ifs
          · rw [getD_without]
            exact List.erase_sublist.count_le sub
          · exact le_rfl
    · exact le_rfl

/-- One time less for who leaves. -/
theorem times_unsubscribe_self (row : Row) (sub : S) :
    (table.unsubscribe row.levels row.group (some sub)).times row sub =
      table.times row sub - 1 := by
  rw [times, times, lookup_subs_unsubscribe, lookup_groups_unsubscribe, if_pos rfl, if_pos rfl,
    grantedAfter, membersAfter]
  by_cases hgroup : row.group = []
  · rw [if_pos hgroup, if_pos hgroup, if_pos ⟨hgroup, rfl⟩]
    cases table.subs.lookup (row.levels, sub) <;> rfl
  · rw [if_neg hgroup, if_neg hgroup, if_pos ⟨hgroup, rfl⟩, getD_without,
      List.count_erase_self]

/-- Only a call that subscribes can put a subscriber into a row. -/
theorem times_step_le {row : Row} {sub : S} {call : Call S}
    (hnot : ¬ call.Subscribes row sub) :
    (table.step call).times row sub ≤ table.times row sub := by
  cases call with
  | unsubscribe topic leaving =>
      by_cases hreadable : Readable topic
      · rw [step_unsubscribe table hreadable]
        exact times_unsubscribe_le table (rowOf topic) row leaving sub
      · rw [step]
        rcases hscan : scan (getGroupName topic).2 with ⟨levels, _ | err⟩
        · exact absurd (congrArg Prod.snd hscan) hreadable
        · exact le_rfl
  | subscribe topic qos newcomer =>
      cases newcomer with
      | none => exact le_rfl
      | some newcomer =>
          by_cases hvalid : validQos qos = true ∧ Readable topic
          · rw [step_subscribe table hvalid.2 hvalid.1, times_subscribe]
            rintro ⟨hrow, hsub⟩
            exact hnot ⟨hvalid.1, hvalid.2, hrow, congrArg some hsub⟩
          · rw [step]
            rcases hscan : scan (getGroupName topic).2 with ⟨levels, _ | err⟩
            · have hqos : ¬ validQos qos = true := fun hqos =>
                hvalid ⟨hqos, congrArg Prod.snd hscan⟩
              simp only [if_neg hqos, le_refl]
            · exact le_rfl

theorem times_foldl_le {row : Row} {sub : S} {later : List (Call S)}
    (hlater : ∀ call ∈ later, ¬ call.Subscribes row sub) :
    (later.foldl step table).times row sub ≤ table.times row sub := by
  induction later generalizing table with
  | nil => exact le_rfl
  | cons call later ih =>
      calc (later.foldl step (table.step call)).times row sub
          ≤ (table.step call).times row sub :=
            ih _ fun next hnext => hlater next (List.mem_cons_of_mem _ hnext)
        _ ≤ table.times row sub := times_step_le table (hlater call List.mem_cons_self)

end Table

end Times

/-! ## One `Unsubscribe` -/

section Complete

variable {S : Type} [DecidableEq S] {sroot : SNode S} {topic : Bytes} {sub : S}

/-- `Unsubscribe` succeeds where there is a node that can do without the subscriber. -/
theorem unsubscribe_eq_none_iff : (unsubscribe sroot topic (some sub)).2 = none ↔
    Readable topic ∧ ∃ n, sroot.sub (rowOf topic).levels = some n ∧
      (sremoveHere (rowOf topic).group (some sub) n.value).toOption ≠ none := by
  have hremoved : (sremove sroot (getGroupName topic).1 (getGroupName topic).2
      (some sub)).toOption = _ := removeLoop_toOption le_rfl
  have hcases : (unsubscribe sroot topic (some sub)).2 = none ↔
      (sremove sroot (getGroupName topic).1 (getGroupName topic).2 (some sub)).toOption ≠
        none := by
    rw [unsubscribe]
    cases sremove sroot (getGroupName topic).1 (getGroupName topic).2 (some sub) with
    | error err | ok next => simp [Except.toOption]
  rw [hcases, hremoved, Readable]
  cases hscan : (scan (getGroupName topic).2).2 with
  | some err => simp
  | none =>
      rw [ne_eq, Trie.shrink_eq_none_iff]
      simp only [not_forall, exists_prop, true_and]
      rfl

/-- A member of a group can leave. -/
theorem unsubscribe_of_times_pos (hreadable : Readable topic)
    (hgroup : (rowOf topic).group ≠ []) (hpos : 0 < sroot.times (rowOf topic) sub) :
    (unsubscribe sroot topic (some sub)).2 = none := by
  rw [SNode.times, if_neg hgroup] at hpos
  cases hmembers : (sroot.content newSubs (rowOf topic).levels).groupSubs.lookup
      (rowOf topic).group with
  | none =>
      rw [hmembers] at hpos
      cases hpos
  | some members =>
      have hmem : sub ∈ members := by
        rw [hmembers] at hpos
        exact List.count_pos_iff.mp hpos
      have hne : sroot.content newSubs (rowOf topic).levels ≠ newSubs := by
        intro hempty
        rw [hempty] at hmembers
        cases hmembers
      obtain ⟨n, hsub, hvalue⟩ := Trie.sub_of_content_ne hne
      refine unsubscribe_eq_none_iff.mpr ⟨hreadable, n, hsub, ?_⟩
      rw [hvalue, sremoveHere, if_neg hgroup, Subs.leave, hmembers]
      simp only [if_pos hmem]
      split_ifs <;> simp [Except.toOption]

theorem ite_index_lt {index n : ℕ} (hpos : 0 < n) : (if index < n then index else 0) < n := by
  split_ifs with hlt
  · exact hlt
  · exact hpos

/-- Draws the member with the given index wherever it can. -/
def drawing (index : ℕ) : Chance S :=
  { inOrder with
    intn := fun _ _ n => if index < n then index else 0
    intn_lt := fun _ _ _ hpos => ite_index_lt hpos }

/-- Every member can be drawn. -/
theorem drawn_drawing {members : List S} (hmem : sub ∈ members) (path : List Level)
    (group : Bytes) : drawn (drawing (members.idxOf sub)) path group members = some sub := by
  have hlt := List.idxOf_lt_length_of_mem hmem
  have hget : members[members.idxOf sub]? = some sub := List.getElem?_idxOf hmem
  rw [drawn]
  split_ifs with hone
  · rw [show 0 = members.idxOf sub by omega]
    exact hget
  · have hindex : (drawing (members.idxOf sub) : Chance S).intn path group members.length =
        members.idxOf sub := if_pos hlt
    rw [hindex]
    exact hget

theorem comparedMatch_self (levels : List Level) : comparedMatch levels levels = true := by
  induction levels with
  | nil => rfl
  | cons level levels ih =>
      have hpasses : Passes level level := Or.inr (Or.inr rfl)
      rw [comparedMatch, matchBy]
      split_ifs
      · rfl
      · rw [decide_eq_true hpasses, Bool.true_and]
        exact ih

/-- The levels of a topic match themselves. -/
theorem filterMatches_self (hreadable : Readable topic) :
    filterMatches (rowOf topic).levels (levelsOf (getGroupName topic).2) = true := by
  have hlevels : (rowOf topic).levels = levelsOf (getGroupName topic).2 :=
    Parses.eq_levelsOf (Prod.ext rfl hreadable)
  rw [hlevels, levelsOf,
    filterMatches_map_readLevel fun _ _ => eq_nil_of_trim_MWC hreadable]
  exact comparedMatch_self _

/-- A member of a group is returned on account of it by some lookup. -/
theorem exists_returns (hreadable : Readable topic) (hgroup : (rowOf topic).group ≠ [])
    (hpos : 0 < sroot.times (rowOf topic) sub) :
    ∃ chance published, Returns chance sroot (rowOf topic) sub published := by
  rw [SNode.times, if_neg hgroup] at hpos
  cases hmembers : (sroot.content newSubs (rowOf topic).levels).groupSubs.lookup
      (rowOf topic).group with
  | none =>
      rw [hmembers] at hpos
      cases hpos
  | some members =>
      rw [hmembers] at hpos
      have hdrawn := drawn_drawing (List.count_pos_iff.mp hpos) (rowOf topic).levels
        (rowOf topic).group
      refine ⟨drawing (members.idxOf sub), (getGroupName topic).2,
        filterMatches_self hreadable, ?_⟩
      rw [if_neg hgroup, hmembers]
      exact hdrawn

/-- How often the subscriber is in the row when it has left it once and others have called. -/
theorem times_after_unsubscribe (hreadable : Readable topic) (history : List (Call S)) :
    (after (history ++ [.unsubscribe topic (some sub)])).times (rowOf topic) sub =
      (after history).times (rowOf topic) sub - 1 := by
  rw [(Refines.after _).times_eq, (Refines.after history).times_eq,
    ← Table.times_unsubscribe_self, ← Table.step_unsubscribe _ hreadable, Table.after,
    List.foldl_append]
  rfl

theorem times_after_le {row : Row} (history : List (Call S)) {later : List (Call S)}
    (hlater : ∀ call ∈ later, ¬ call.Subscribes row sub) :
    (after (history ++ later)).times row sub ≤ (after history).times row sub := by
  rw [(Refines.after _).times_eq, (Refines.after history).times_eq, Table.after,
    List.foldl_append]
  exact Table.times_foldl_le (Table.after history) hlater

/-- One `Unsubscribe` is enough for who is in the row once. -/
theorem complete_iff (history : List (Call S)) :
    Complete history topic sub ↔
      (Readable topic → (after history).times (rowOf topic) sub ≤ 1) := by
  constructor
  · intro hcomplete hreadable
    by_contra htwice
    have hgroup : (rowOf topic).group ≠ [] := fun hplain => htwice (times_le_one hplain sub)
    have hleft : 0 < (after (history ++ [.unsubscribe topic (some sub)])).times
        (rowOf topic) sub := by
      rw [times_after_unsubscribe hreadable]
      omega
    obtain ⟨chance, published, hreturns⟩ := exists_returns hreadable hgroup hleft
    exact hcomplete (unsubscribe_of_times_pos hreadable hgroup (by omega)) []
      (by simp) chance published hreturns
  · intro honce hnone later hlater chance published hreturns
    have hreadable := (unsubscribe_eq_none_iff.mp hnone).1
    have hpos := hreturns.times_pos
    have hle := times_after_le (history ++ [.unsubscribe topic (some sub)]) hlater
    rw [List.append_assoc, List.singleton_append, times_after_unsubscribe hreadable] at hle
    have := honce hreadable
    omega

end Complete

/-! ## `Subscribe` twice -/

theorem Subs.add_add {S : Type} [DecidableEq S] (this : Subs S) (first second : Byte) (sub : S) :
    (this.add first sub).add second sub = this.add second sub := by
  by_cases hmem : sub ∈ this.subs
  · have hfirst : this.add first sub =
        { this with
          qos := this.qos.set (this.subs.idxOf sub) first
          parallel := by rw [List.length_set, this.parallel] } := by rw [add, dif_pos hmem]
    rw [hfirst, add, add, dif_pos hmem, dif_pos hmem]
    simp only [List.set_set]
  · have hsubs : (this.add first sub).subs = this.subs ++ [sub] := by rw [add, dif_neg hmem]
    have hqos : (this.add first sub).qos = this.qos ++ [first] := by rw [add, dif_neg hmem]
    have hidx : (this.subs ++ [sub]).idxOf sub = this.qos.length := by
      rw [List.idxOf_append_of_notMem hmem, List.idxOf_cons_self, this.parallel, Nat.add_zero]
    rw [add, dif_pos (by simp [hsubs])]
    apply Subs.ext
    · rw [hsubs, add, dif_neg hmem]
    · change (this.add first sub).qos.set ((this.add first sub).subs.idxOf sub) second = _
      rw [hsubs, hqos, hidx, add, dif_neg hmem]
      simp
    · exact (groupSubs_add this first sub).trans (groupSubs_add this second sub).symm

section Repeatable

variable {S : Type} [DecidableEq S] {topic : Bytes} {sub : S}

/-- The members of a row. -/
def Table.members (table : Table S) (row : Row) : List S :=
  (table.groups.lookup (row.levels, row.group)).getD []

/-- Two tables that differ at most in the members of one row. -/
structure SameBut (row : Row) (this other : Table S) : Prop where
  subs : ∀ key, other.subs.lookup key = this.subs.lookup key
  groups : ∀ key, key ≠ (row.levels, row.group) → other.groups.lookup key = this.groups.lookup key

namespace SameBut

variable {row : Row} {this other third : Table S}

theorem refl (row : Row) (this : Table S) : SameBut row this this := ⟨fun _ => rfl, fun _ _ => rfl⟩

theorem symm (hsame : SameBut row this other) : SameBut row other this :=
  ⟨fun key => (hsame.subs key).symm, fun key hkey => (hsame.groups key hkey).symm⟩

theorem trans (hsame : SameBut row this other) (hthird : SameBut row other third) :
    SameBut row this third :=
  ⟨fun key => (hthird.subs key).trans (hsame.subs key),
    fun key hkey => (hthird.groups key hkey).trans (hsame.groups key hkey)⟩

theorem subscribe (hgroup : row.group ≠ []) (this : Table S) (qos : Byte) (sub : S) :
    SameBut row this (this.subscribe row.levels row.group qos sub) := by
  constructor
  case subs =>
    intro key
    rw [Table.lookup_subs_subscribe, if_neg fun hand => hgroup hand.1]
  case groups =>
    intro key hkey
    rw [Table.lookup_groups_subscribe, if_neg fun hand => hkey hand.2]

theorem unsubscribe (hgroup : row.group ≠ []) (this : Table S) (sub : S) :
    SameBut row this (this.unsubscribe row.levels row.group (some sub)) := by
  constructor
  case subs =>
    rintro ⟨levels, other⟩
    rw [Table.lookup_subs_unsubscribe, grantedAfter]
    split_ifs with hlevels hplain
    · exact absurd hplain.1 hgroup
    · rfl
    · rfl
  case groups =>
    rintro ⟨levels, name⟩ hkey
    rw [Table.lookup_groups_unsubscribe, membersAfter]
    split_ifs with hlevels hname
    · exact absurd (Prod.ext hlevels hname.2) hkey
    · rfl
    · rfl

end SameBut

namespace Table

variable {row : Row} (table : Table S)

end Table

end Repeatable

end Xmqtt.Topics
