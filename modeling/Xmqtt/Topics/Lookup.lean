import Xmqtt.Topics.Table

/-!
# Lookups in the subscription tree

A walk of `smatch` comes to every node whose path matches the topic, once.  So it
finds the rows of the table that match, whatever order the maps are ranged over.
-/

namespace Xmqtt.Topics

open Xmqtt.Core Xmqtt.Go Xmqtt.Message

/-- A filter matches a topic: `+` stands for one level, `#` at the end for one level or more,
and any other level for itself. -/
def filterMatches : List Level → List Level → Bool
  | [], [] => true
  | [], _ :: _ => false
  | _ :: _, [] => false
  | f :: filter, level :: topic =>
      if f = MWC then filter.isEmpty
      else (f = SWC ∨ f = level) && filterMatches filter topic

/-! ## The nodes that a walk comes to -/

section Matching

variable {ν : Type}

/-- The nodes whose path matches the topic. -/
def matching : List Level → Trie Level ν → List (List Level × ν)
  | [], this => [([], this.value)]
  | level :: topic, this =>
      this.children.flatMap fun entry =>
        if entry.1 = MWC then [([entry.1], entry.2.value)]
        else if entry.1 = SWC ∨ entry.1 = level then
          (matching topic entry.2).map fun found => (entry.1 :: found.1, found.2)
        else []

theorem child_eq_some_iff {this : Trie Level ν} (hkeyed : this.Keyed) {key : Level}
    {n : Trie Level ν} : this.child key = some n ↔ ⟨key, n⟩ ∈ this.children :=
  List.mem_dlookup_iff hkeyed.children

theorem mem_matching {this : Trie Level ν} (hkeyed : this.Keyed) {topic path : List Level}
    {value : ν} : (path, value) ∈ matching topic this ↔
      (∃ n, this.sub path = some n ∧ n.value = value) ∧ filterMatches path topic = true := by
  induction topic generalizing this path with
  | nil =>
      cases path with
      | nil => simp [matching, filterMatches, eq_comm]
      | cons key path => simp [matching, filterMatches]
  | cons level topic ih =>
      rw [matching, List.mem_flatMap]
      cases path with
      | nil =>
          refine iff_of_false ?_ (by simp [filterMatches])
          rintro ⟨⟨key, n⟩, -, hmem⟩
          simp only at hmem
          split_ifs at hmem <;> simp at hmem
      | cons key path =>
          -- Only the child under the first key can contribute.
          have hone : ∀ n, (key :: path, value) ∈ (if key = MWC then [([key], n.value)]
              else if key = SWC ∨ key = level then
                (matching topic n).map fun found => (key :: found.1, found.2)
              else []) ∧ ⟨key, n⟩ ∈ this.children ↔
                this.child key = some n ∧ (∃ m, n.sub path = some m ∧ m.value = value) ∧
                  filterMatches (key :: path) (level :: topic) = true := by
            intro n
            rw [child_eq_some_iff hkeyed, and_comm, filterMatches]
            refine and_congr_right fun hmem => ?_
            have hn := hkeyed.child ((child_eq_some_iff hkeyed).mpr hmem)
            by_cases hmwc : key = MWC
            · rw [if_pos hmwc, if_pos hmwc]
              cases path with
              | nil => simp [eq_comm]
              | cons next path => simp
            · rw [if_neg hmwc, if_neg hmwc]
              by_cases hlevel : key = SWC ∨ key = level
              · have hmap : (key :: path, value) ∈ (matching topic n).map
                    (fun found => (key :: found.1, found.2)) ↔
                      (path, value) ∈ matching topic n := by simp
                rw [if_pos hlevel, hmap, ih hn, decide_eq_true hlevel, Bool.true_and]
              · simp [hlevel]
          constructor
          · rintro ⟨⟨key', n⟩, hmem, hfound⟩
            have hkey : key' = key := by
              simp only at hfound
              split_ifs at hfound
              · simp only [List.mem_singleton, Prod.mk.injEq, List.cons.injEq] at hfound
                exact hfound.1.1.symm
              · obtain ⟨found, -, heq⟩ := List.mem_map.mp hfound
                exact (List.cons.inj (Prod.mk.inj heq).1).1
              · cases hfound
            subst hkey
            obtain ⟨hchild, ⟨m, hsub, hvalue⟩, hmatches⟩ := (hone n).mp ⟨hfound, hmem⟩
            refine ⟨⟨m, ?_, hvalue⟩, hmatches⟩
            rw [Trie.sub_cons, hchild]
            exact hsub
          · rintro ⟨⟨m, hsub, hvalue⟩, hmatches⟩
            obtain ⟨n, hchild, hrest⟩ := Option.bind_eq_some_iff.mp hsub
            obtain ⟨hfound, hmem⟩ := (hone n).mpr ⟨hchild, ⟨m, hrest, hvalue⟩, hmatches⟩
            exact ⟨⟨key, n⟩, hmem, hfound⟩

theorem nodup_matching {this : Trie Level ν} (hkeyed : this.Keyed) (topic : List Level) :
    ((matching topic this).map Prod.fst).Nodup := by
  induction topic generalizing this with
  | nil => exact List.nodup_singleton _
  | cons level topic ih =>
      rw [matching, List.map_flatMap, List.nodup_flatMap]
      constructor
      · rintro ⟨key, n⟩ hmem
        have hn := ih (hkeyed.child ((child_eq_some_iff hkeyed).mpr hmem))
        simp only
        split_ifs
        · exact List.nodup_singleton _
        · rw [List.map_map]
          have hcomp : (Prod.fst ∘ fun found : List Level × ν => (key :: found.1, found.2)) =
              (key :: ·) ∘ Prod.fst := rfl
          rw [hcomp, ← List.map_map]
          exact hn.map fun _ _ heq => (List.cons.inj heq).2
        · exact List.nodup_nil
      · -- Paths that start with different keys are different.
        apply (List.nodupKeys_iff_pairwise.mp hkeyed.children).imp
        rintro ⟨key, n⟩ ⟨key', n'⟩ hne
        have hhead : ∀ (entry : Sigma fun _ : Level => Trie Level ν) path,
            path ∈ (if entry.1 = MWC then [([entry.1], entry.2.value)]
              else if entry.1 = SWC ∨ entry.1 = level then
                (matching topic entry.2).map fun found => (entry.1 :: found.1, found.2)
              else []).map Prod.fst → path.head? = some entry.1 := by
          intro entry path hmem
          obtain ⟨found, hfound, rfl⟩ := List.mem_map.mp hmem
          split_ifs at hfound
          · rw [List.mem_singleton.mp hfound]
            rfl
          · obtain ⟨below, -, rfl⟩ := List.mem_map.mp hfound
            rfl
          · cases hfound
        intro path hfirst hsecond
        exact hne (Option.some.inj ((hhead _ path hfirst).symm.trans (hhead _ path hsecond)))

/-- The rows that are stored in the nodes of the walk are the rows of the table that match. -/
theorem perm_rows {κ β : Type} [DecidableEq κ] {this : Trie Level ν} (hkeyed : this.Keyed)
    (empty : ν) (rows : ν → List (Sigma fun _ : κ => β)) (hempty : rows empty = [])
    (hnodup : ∀ value, (rows value).Nodup) {table : AList fun _ : List Level × κ => β}
    (htable : ∀ path key value, ⟨key, value⟩ ∈ rows (this.content empty path) ↔
      table.lookup (path, key) = some value) (topic : List Level) :
    ((matching topic this).flatMap fun node => (rows node.2).map fun row =>
        (⟨(node.1, row.1), row.2⟩ : Sigma fun _ : List Level × κ => β)).Perm
      (table.entries.filter fun row => filterMatches row.1.1 topic) := by
  rw [List.perm_ext_iff_of_nodup]
  · rintro ⟨⟨path, key⟩, value⟩
    rw [List.mem_filter, ← AList.mem_lookup_iff, Option.mem_def, ← htable, List.mem_flatMap]
    constructor
    · rintro ⟨⟨path', here⟩, hnode, hrow⟩
      obtain ⟨row, hmem, heq⟩ := List.mem_map.mp hrow
      obtain ⟨⟨n, hsub, hvalue⟩, hmatches⟩ := (mem_matching hkeyed).mp hnode
      obtain ⟨rfl, rfl, rfl⟩ : path' = path ∧ row.1 = key ∧ row.2 = value := by
        simpa [and_assoc] using heq
      rw [Trie.content_of_sub hsub, hvalue]
      exact ⟨hmem, hmatches⟩
    · rintro ⟨hrow, hmatches⟩
      have hne : this.content empty path ≠ empty := by
        intro hcontent
        rw [hcontent, hempty] at hrow
        cases hrow
      obtain ⟨n, hsub, hvalue⟩ := Trie.sub_of_content_ne hne
      refine ⟨(path, this.content empty path),
        (mem_matching hkeyed).mpr ⟨⟨n, hsub, hvalue⟩, hmatches⟩, ?_⟩
      exact List.mem_map.mpr ⟨⟨key, value⟩, hrow, rfl⟩
  · rw [List.nodup_flatMap]
    constructor
    · rintro ⟨path, here⟩ -
      refine (hnodup here).map fun row row' heq => ?_
      obtain ⟨hkey, hvalue⟩ : row.1 = row'.1 ∧ row.2 = row'.2 := by simpa using heq
      exact Sigma.ext hkey (heq_of_eq hvalue)
    · apply (List.pairwise_map.mp (nodup_matching hkeyed topic)).imp
      rintro ⟨path, here⟩ ⟨path', here'⟩ hne row hfirst hsecond
      obtain ⟨first, -, rfl⟩ := List.mem_map.mp hfirst
      obtain ⟨second, -, heq⟩ := List.mem_map.mp hsecond
      exact hne (by simpa using (congrArg (fun row => row.1.1) heq).symm)
  · exact (List.NodupKeys.nodup table.nodupKeys).filter _

end Matching

/-! ## What the walk finds -/

section Walk

variable {S : Type} (chance : Chance S)

/-- What a node adds: its subscribers, and one member of each of its groups. -/
def offers (path : List Level) (here : Subs S) (qos : Byte) : List (S × Byte) :=
  here.subs.zip (here.qos.map (min qos)) ++
    ((chance.groups path here.groupSubs.entries).flatMap fun group =>
      (drawn chance path group.1 group.2).toList).map fun sub => (sub, 1)

def Found.add (found : Found S) (offers : List (S × Byte)) : Found S :=
  ⟨found.subs ++ offers.map Prod.fst, found.qoss ++ offers.map Prod.snd⟩

theorem Found.add_add (found : Found S) (first second : List (S × Byte)) :
    (found.add first).add second = found.add (first ++ second) := by
  simp only [Found.add, List.map_append, List.append_assoc]

/-- One of the members is drawn. -/
theorem exists_drawn {gsubs : List S} (hgsubs : gsubs ≠ []) (path : List Level) (name : Bytes) :
    ∃ sub ∈ gsubs, drawn chance path name gsubs = some sub := by
  have hpos : 0 < gsubs.length := List.length_pos_iff.mpr hgsubs
  rw [drawn]
  split_ifs
  · exact ⟨gsubs[0], List.getElem_mem hpos, List.getElem?_eq_getElem hpos⟩
  · have hlt := chance.intn_lt path name gsubs.length hpos
    exact ⟨_, List.getElem_mem hlt, List.getElem?_eq_getElem hlt⟩

/-- Drawing from every group of a list gives one member of each. -/
theorem forall₂_drawn
    {groups : List (Sigma fun _ : List Level × Bytes => List S)}
    (hgroups : ∀ row ∈ groups, row.2 ≠ []) :
    List.Forall₂ (fun row sub => sub ∈ row.2) groups
      (groups.flatMap fun row => (drawn chance row.1.1 row.1.2 row.2).toList) := by
  induction groups with
  | nil => exact List.Forall₂.nil
  | cons row groups ih =>
      obtain ⟨sub, hmem, hdrawn⟩ :=
        exists_drawn chance (hgroups row List.mem_cons_self) row.1.1 row.1.2
      rw [List.flatMap_cons, hdrawn]
      exact List.Forall₂.cons hmem (ih fun row hrow => hgroups row (List.mem_cons_of_mem _ hrow))

theorem matchQos_eq (path : List Level) (here : Subs S) (qos : Byte) (found : Found S) :
    matchQos chance path here qos found = found.add (offers chance path here qos) := by
  have hgroups : ∀ (groups : List (Sigma fun _ : Bytes => List S)) (found : Found S),
      (∀ group ∈ groups, group.2 ≠ []) →
      groups.foldl (fun found group =>
        (⟨found.subs ++ (drawn chance path group.1 group.2).toList, found.qoss ++ [1]⟩ :
          Found S)) found = found.add ((groups.flatMap fun group =>
            (drawn chance path group.1 group.2).toList).map fun sub => (sub, 1)) := by
    intro groups
    induction groups with
    | nil =>
        intro found _
        simp [Found.add]
    | cons group groups ih =>
        intro found hmembers
        obtain ⟨sub, -, hdrawn⟩ :=
          exists_drawn chance (hmembers group List.mem_cons_self) path group.1
        rw [List.foldl_cons, ih _ fun group hmem => hmembers group (List.mem_cons_of_mem _ hmem),
          List.flatMap_cons, hdrawn]
        simp [Found.add]
  have hmin : (fun granted : Byte => if qos ≤ granted then qos else granted) = min qos := rfl
  have hlength : (here.qos.map (min qos)).length = here.subs.length := by
    rw [List.length_map, here.parallel]
  rw [matchQos, hgroups _ _ fun group hmem =>
    here.populated group ((chance.groups_perm path _).mem_iff.mp hmem), offers, ← Found.add_add,
    hmin]
  congr 1
  rw [Found.add, List.map_fst_zip hlength.ge, List.map_snd_zip hlength.le]

/-- A walk below `path` adds what these nodes offer, in some order. -/
def Visits (qos : Byte) (path : List Level) (walk : Found S → Found S × Option Err)
    (nodes : List (List Level × Subs S)) : Prop :=
  ∃ visited : List (List Level × Subs S), visited.Perm nodes ∧ ∀ found, walk found =
    (found.add (visited.flatMap fun node => offers chance (path ++ node.1) node.2 qos), none)

variable {chance} {qos : Byte} {path : List Level}

theorem Visits.here (path : List Level) (here : Subs S) (rest : List Level) :
    Visits chance qos path (fun found =>
      (matchQos chance (path ++ rest) here qos found, none)) [(rest, here)] := by
  refine ⟨_, List.Perm.refl _, fun found => ?_⟩
  simp only [matchQos_eq, List.flatMap_singleton]

theorem Visits.nothing : Visits chance qos path (fun found => (found, none)) [] :=
  ⟨[], List.Perm.refl _, fun found => by simp [Found.add]⟩

theorem Visits.below {key : Level} {walk : Found S → Found S × Option Err}
    {nodes : List (List Level × Subs S)}
    (hvisits : Visits chance qos (path ++ [key]) walk nodes) :
    Visits chance qos path walk (nodes.map fun node => (key :: node.1, node.2)) := by
  obtain ⟨visited, hperm, hwalk⟩ := hvisits
  refine ⟨_, hperm.map _, fun found => ?_⟩
  rw [hwalk, List.flatMap_map]
  simp only [List.append_assoc, List.singleton_append]

/-- A `range` visits what its body visits at each entry, in any order of the entries. -/
theorem Visits.range {α : Type} {body : α → Found S → Found S × Option Err}
    {part : α → List (List Level × Subs S)} {entries ordered : List α}
    (hordered : ordered.Perm entries)
    (hbody : ∀ entry ∈ entries, Visits chance qos path (body entry) (part entry)) :
    Visits chance qos path (rangeLoop body ordered) (entries.flatMap part) := by
  have hloop : ∀ ordered : List α,
      (∀ entry ∈ ordered, Visits chance qos path (body entry) (part entry)) →
        Visits chance qos path (rangeLoop body ordered) (ordered.flatMap part) := by
    intro ordered
    induction ordered with
    | nil => exact fun _ => Visits.nothing
    | cons entry ordered ih =>
        intro hbody
        obtain ⟨first, hfirst, hhead⟩ := hbody entry List.mem_cons_self
        obtain ⟨rest, hrest, htail⟩ :=
          ih fun entry hmem => hbody entry (List.mem_cons_of_mem _ hmem)
        refine ⟨first ++ rest, hfirst.append hrest, fun found => ?_⟩
        rw [rangeLoop, hhead]
        simp only
        rw [htail, Found.add_add, List.flatMap_append]
  obtain ⟨visited, hperm, hwalk⟩ := hloop ordered fun entry hmem =>
    hbody entry (hordered.mem_iff.mp hmem)
  exact ⟨visited, hperm.trans (hordered.flatMap_right part), hwalk⟩

/-- A `range` that ends without an error has come past every entry. -/
theorem exists_of_rangeLoop {α : Type} {body : α → Found S → Found S × Option Err}
    {ordered : List α} (hloop : ∃ found, (rangeLoop body ordered found).2 = none)
    {entry : α} (hmem : entry ∈ ordered) : ∃ found, (body entry found).2 = none := by
  obtain ⟨found, hnone⟩ := hloop
  induction ordered generalizing found with
  | nil => cases hmem
  | cons first ordered ih =>
      rw [rangeLoop] at hnone
      cases hfirst : body first found with
      | mk next err =>
          cases err with
          | some err =>
              rw [hfirst] at hnone
              cases hnone
          | none =>
              rw [hfirst] at hnone
              rcases List.mem_cons.mp hmem with rfl | hrest
              · exact ⟨found, by rw [hfirst]⟩
              · exact ih hrest next hnone

theorem visits_matchQos {this : SNode S} {topic : Bytes} (hnil : topic.length = 0) :
    Visits chance qos path (fun found => (matchQos chance path this.value qos found, none))
      (matching (levelsOf topic) this) := by
  have hhere : Visits chance qos path
      (fun found => (matchQos chance (path ++ []) this.value qos found, none))
        [([], this.value)] := Visits.here path this.value []
  rw [List.append_nil] at hhere
  rw [List.length_eq_zero_iff.mp hnil]
  exact hhere

/-- The walk of `smatch` comes to the nodes that match, if the topic has levels and also if
the walk is over before it comes to a level that has an error. -/
theorem visits_smatchLoop {rounds : ℕ} {this : SNode S} {topic : Bytes}
    (hgood : (scan topic).2 = none ∨
      ∃ found, (smatchLoop chance qos rounds path this topic found).2 = none)
    (hrounds : topic.length ≤ rounds) :
    Visits chance qos path (smatchLoop chance qos rounds path this topic)
      (matching (levelsOf topic) this) := by
  induction rounds generalizing path this topic with
  | zero => exact visits_matchQos (Nat.le_zero.mp hrounds)
  | succ rounds ih =>
      by_cases hnil : topic.length = 0
      · have hwalk : smatchLoop chance qos (rounds + 1) path this topic = fun found =>
            (matchQos chance path this.value qos found, none) := by
          funext found
          rw [smatchLoop, if_pos hnil]
        rw [hwalk]
        exact visits_matchQos hnil
      · have htopic : topic ≠ [] := List.ne_nil_of_length_pos (by omega)
        cases hnext : nextTopicLevel topic with
        | error err =>
            rcases hgood with hscan | ⟨found, hnone⟩
            · rw [scan_of_error htopic hnext] at hscan
              cases hscan
            · rw [smatchLoop, if_neg hnil, hnext] at hnone
              cases hnone
        | ok result =>
            obtain ⟨level, rem⟩ := result
            have hlt := length_lt_of_nextTopicLevel htopic hnext
            let body : (Sigma fun _ : Level => SNode S) → Found S → Found S × Option Err :=
              fun entry found =>
                if entry.1 = MWC then
                  (matchQos chance (path ++ [entry.1]) entry.2.value qos found, none)
                else if entry.1 = SWC ∨ entry.1 = level then
                  smatchLoop chance qos rounds (path ++ [entry.1]) entry.2 rem found
                else (found, none)
            have hwalk : smatchLoop chance qos (rounds + 1) path this topic =
                rangeLoop body (chance.snodes path this.children) := by
              funext found
              rw [smatchLoop, if_neg hnil, hnext]
            have hbody : ∀ entry ∈ this.children, (scan rem).2 = none ∨
                ∃ found, (body entry found).2 = none := by
              intro entry hmem
              rcases hgood with hscan | hloop
              · rw [scan_of_ok htopic hnext] at hscan
                exact Or.inl hscan
              · rw [hwalk] at hloop
                exact Or.inr (exists_of_rangeLoop hloop
                  ((chance.snodes_perm path this.children).mem_iff.mpr hmem))
            rw [hwalk, levelsOf_of_ok htopic hnext, matching]
            refine Visits.range (chance.snodes_perm path this.children) ?_
            rintro ⟨key, n⟩ hmem
            have hgood := hbody _ hmem
            simp only [body] at hgood ⊢
            split_ifs at hgood ⊢
            · exact Visits.here path n.value [key]
            · apply Visits.below
              exact ih hgood (by omega)
            · exact Visits.nothing

end Walk

/-! ## The lookup law -/

section Law

variable {S : Type} [DecidableEq S]

/-- The subscriptions that match, each with the smaller of the two QoS. -/
def Table.matched (table : Table S) (topic : List Level) (qos : Byte) : List (S × Byte) :=
  (table.subs.entries.filter fun row => filterMatches row.1.1 topic).map fun row =>
    (row.1.2, min qos row.2)

/-- The groups that match. -/
def Table.matchedGroups (table : Table S) (topic : List Level) :
    List (Sigma fun _ : List Level × Bytes => List S) :=
  table.groups.entries.filter fun row => filterMatches row.1.1 topic

variable {sroot : SNode S} {table : Table S}

/-- What the nodes of a walk offer outside of groups. -/
theorem Refines.perm_matched (hrefines : Refines sroot table) (topic : List Level)
    (qos : Byte) :
    ((matching topic sroot).flatMap fun node =>
      node.2.subs.zip (node.2.qos.map (min qos))).Perm (table.matched topic qos) := by
  let rows : Subs S → List (Sigma fun _ : S => Byte) := fun here =>
    (here.subs.zip here.qos).map fun entry => ⟨entry.1, entry.2⟩
  have hmem : ∀ (here : Subs S) sub granted, ⟨sub, granted⟩ ∈ rows here ↔
      here.granted sub = some granted := by
    intro here sub granted
    rw [← Subs.mem_zip_iff]
    simp [rows]
  have hnodup : ∀ here, (rows here).Nodup := by
    intro here
    have hzip : (here.subs.zip here.qos).Nodup := by
      apply List.Nodup.of_map Prod.fst
      rw [List.map_fst_zip here.parallel.ge]
      exact here.distinct
    refine hzip.map fun entry entry' heq => ?_
    simpa [Prod.ext_iff] using heq
  have hperm := perm_rows hrefines.keyed newSubs rows rfl hnodup
    (fun path sub granted => by rw [hmem, hrefines.subs]) topic
  have hmap := hperm.map fun row => (row.1.2, min qos row.2)
  rw [List.map_flatMap] at hmap
  refine List.Perm.trans (List.Perm.of_eq ?_) hmap
  refine List.flatMap_congr fun node _ => ?_
  rw [List.zip_map_right, List.map_map, List.map_map]
  rfl

/-- What the nodes of a walk offer in groups, in the order in which these are ranged over. -/
theorem Refines.perm_matchedGroups (hrefines : Refines sroot table) (chance : Chance S)
    (topic : List Level) :
    ((matching topic sroot).flatMap fun node =>
      (chance.groups node.1 node.2.groupSubs.entries).map fun group =>
        (⟨(node.1, group.1), group.2⟩ : Sigma fun _ : List Level × Bytes => List S)).Perm
      (table.matchedGroups topic) := by
  have hperm := perm_rows hrefines.keyed newSubs (fun here => here.groupSubs.entries) rfl
    (fun here => List.NodupKeys.nodup here.groupSubs.nodupKeys)
    (fun path name members => by rw [← AList.mem_lookup_iff, Option.mem_def, hrefines.groups])
    topic
  refine List.Perm.trans ?_ hperm
  apply List.Perm.flatMap_left
  intro node _
  exact (chance.groups_perm node.1 node.2.groupSubs.entries).map _

/-- The member of a row that is drawn. -/
def draws (chance : Chance S) (row : Sigma fun _ : List Level × Bytes => List S) : List S :=
  (drawn chance row.1.1 row.1.2 row.2).toList

/-- No group is empty. -/
theorem Refines.ne_nil_of_mem (hrefines : Refines sroot table)
    {row : Sigma fun _ : List Level × Bytes => List S} (hrow : row ∈ table.groups.entries) :
    row.2 ≠ [] := by
  have hlookup := hrefines.groups row.1.1 row.1.2
  have hmem : row.2 ∈ table.groups.lookup row.1 := AList.mem_lookup_iff.mpr hrow
  rw [Option.mem_def.mp hmem] at hlookup
  exact (sroot.content newSubs row.1.1).populated ⟨row.1.2, row.2⟩
    (AList.mem_lookup_iff.mp hlookup)

/-- What a lookup with a valid QoS returns, down to the members that are drawn. -/
theorem Refines.subscribers_draws (hrefines : Refines sroot table) (chance : Chance S)
    {topic : Bytes} {qos : Byte} (hqos : validQos qos = true) (before : Found S)
    (hgood : (scan topic).2 = none ∨ (subscribers chance sroot topic qos before).2 = none) :
    ∃ found, subscribers chance sroot topic qos before = (found, none) ∧
      found.subs.length = found.qoss.length ∧
      (found.subs.zip found.qoss).Perm (table.matched (levelsOf topic) qos ++
        ((table.matchedGroups (levelsOf topic)).flatMap (draws chance)).map
          fun sub => (sub, 1)) := by
  have hstart : subscribers chance sroot topic qos before =
      smatch chance sroot topic qos ⟨[], []⟩ := by
    rw [subscribers, if_neg (by simp [hqos])]
  have hvisits : Visits chance qos [] (smatch chance sroot topic qos)
      (matching (levelsOf topic) sroot) := by
    refine visits_smatchLoop (hgood.imp_right fun hnone => ⟨⟨[], []⟩, ?_⟩) le_rfl
    rw [hstart] at hnone
    exact hnone
  obtain ⟨visited, hvisited, hwalk⟩ := hvisits
  let offered := visited.flatMap fun node => offers chance node.1 node.2 qos
  have hgroups := hrefines.perm_matchedGroups chance (levelsOf topic)
  refine ⟨Found.add ⟨[], []⟩ offered, ?_, ?_, ?_⟩
  · rw [hstart]
    exact hwalk ⟨[], []⟩
  · simp [Found.add]
  · have hzip : (Found.add ⟨[], []⟩ offered).subs.zip (Found.add ⟨[], []⟩ offered).qoss =
        offered := (List.zip_of_prod rfl rfl).symm
    have hdraw : visited.flatMap (fun node =>
        ((chance.groups node.1 node.2.groupSubs.entries).flatMap fun group =>
          (drawn chance node.1 group.1 group.2).toList).map fun sub => (sub, (1 : Byte))) =
        ((visited.flatMap fun node =>
          (chance.groups node.1 node.2.groupSubs.entries).map fun group =>
            (⟨(node.1, group.1), group.2⟩ : Sigma fun _ : List Level × Bytes => List S)).flatMap
              (draws chance)).map fun sub => (sub, 1) := by
      rw [List.flatMap_assoc, List.map_flatMap]
      refine List.flatMap_congr fun node _ => ?_
      rw [List.flatMap_map]
      rfl
    rw [hzip]
    refine (List.flatMap_append_perm visited _ _).symm.trans ?_
    apply List.Perm.append
    · exact (hvisited.flatMap_right _).trans (hrefines.perm_matched (levelsOf topic) qos)
    · rw [hdraw]
      exact (((hvisited.flatMap_right _).trans hgroups).flatMap_right (draws chance)).map _

/-- A lookup with a valid QoS in a tree that refines the table. -/
theorem Refines.subscribers_eq (hrefines : Refines sroot table) (chance : Chance S)
    {topic : Bytes} {levels : List Level} (hlevels : levels = levelsOf topic) {qos : Byte}
    (hqos : validQos qos = true) (before : Found S)
    (hgood : (scan topic).2 = none ∨ (subscribers chance sroot topic qos before).2 = none) :
    ∃ found chosen, subscribers chance sroot topic qos before = (found, none) ∧
      found.subs.length = found.qoss.length ∧
      List.Forall₂ (fun row sub => sub ∈ row.2) (table.matchedGroups levels) chosen ∧
      (found.subs.zip found.qoss).Perm
        (table.matched levels qos ++ chosen.map fun sub => (sub, 1)) := by
  subst hlevels
  obtain ⟨found, hfound, hlength, hperm⟩ :=
    hrefines.subscribers_draws chance hqos before hgood
  have hgroups : ∀ row ∈ table.matchedGroups (levelsOf topic), row.2 ≠ [] := fun row hrow =>
    hrefines.ne_nil_of_mem (List.mem_filter.mp hrow).1
  exact ⟨found, _, hfound, hlength, forall₂_drawn chance hgroups, hperm⟩

/-- The subscription tree is the flat table: after every history of calls and for every topic
that has levels, `Subscribers` returns the subscriptions that match with the smaller QoS and
one member of each group that matches, and nothing else. -/
theorem subscribers_after (calls : List (Call S)) (chance : Chance S) {topic : Bytes}
    {levels : List Level} (hparses : Parses topic levels) {qos : Byte}
    (hqos : validQos qos = true) (before : Found S) :
    ∃ found chosen, subscribers chance (after calls) topic qos before = (found, none) ∧
      found.subs.length = found.qoss.length ∧
      List.Forall₂ (fun row sub => sub ∈ row.2)
        ((Table.after calls).matchedGroups levels) chosen ∧
      (found.subs.zip found.qoss).Perm
        ((Table.after calls).matched levels qos ++ chosen.map fun sub => (sub, 1)) :=
  (Refines.after calls).subscribers_eq chance hparses.eq_levelsOf hqos before
    (Or.inl (congrArg Prod.snd hparses))

/-- Ranges in the order in which the entries are stored, and draws the first member. -/
def inOrder : Chance S where
  snodes _ entries := entries
  groups _ entries := entries
  intn _ _ _ := 0
  snodes_perm _ _ := List.Perm.refl _
  groups_perm _ _ := List.Perm.refl _
  intn_lt _ _ _ hpos := hpos

end Law

/-- Subscriber 1 on `a/+`, subscriber 2 on `a/#` and then in the group `g` of `+/a/b`. -/
def threeCalls : List (Call ℕ) :=
  [.subscribe [0x61, 0x2f, 0x2b] 1 (some 1), .subscribe [0x61, 0x2f, 0x23] 2 (some 2),
    .subscribe (groupPrefix ++ [0x67, 0x2f, 0x61, 0x2f, 0x62]) 0 (some 2)]

theorem subscribers_after_threeCalls :
    Parses [0x61, 0x2f, 0x62] [[0x61], [0x62]] ∧ validQos 2 = true ∧
    ∃ found chosen, subscribers inOrder (after threeCalls) [0x61, 0x2f, 0x62] 2 ⟨[], []⟩ =
        (found, none) ∧ found.subs.length = found.qoss.length ∧
      List.Forall₂ (fun row sub => sub ∈ row.2)
        ((Table.after threeCalls).matchedGroups [[0x61], [0x62]]) chosen ∧
      (found.subs.zip found.qoss).Perm
        ((Table.after threeCalls).matched [[0x61], [0x62]] 2 ++
          chosen.map fun sub => (sub, 1)) :=
  ⟨by decide, by decide, subscribers_after threeCalls inOrder (by decide) (by decide) _⟩

end Xmqtt.Topics
