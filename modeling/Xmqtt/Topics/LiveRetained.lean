import Xmqtt.Topics.Filters
import Xmqtt.Topics.RetainedMap

/-!
# Live and retained messages

A filter is matched with topics twice: `smatch` walks along a topic through a tree of filters,
and `rmatch` walks along a filter through a tree of topics.  They agree but for "#", which
stands for its parent among the retained messages only.
-/

namespace Xmqtt.Topics

open Xmqtt.Core Xmqtt.Go Xmqtt.Message

/-! ## What a filter finds among the retained messages -/

section Retained

variable {range : RangeOrder}

/-- A path below a node leads to one of its children. -/
theorem content_cons_eq_some_iff {this : RNode} (hkeyed : this.Keyed) {key : Level}
    {below : List Level} {msg : PublishMessage} :
    (this.content .nothing (key :: below)).msg = some msg ↔
      ∃ n, ⟨key, n⟩ ∈ this.children ∧ (n.content .nothing below).msg = some msg := by
  simp only [← child_eq_some_iff hkeyed]
  rw [Trie.content_cons]
  cases hchild : this.child key with
  | none => simp [Kept.nothing]
  | some n => simp

mutual

/-- All messages that are kept at a node and below it. -/
theorem mem_allRetained : (this : RNode) → this.Keyed → (path : List Level) →
    (msg : PublishMessage) → (msg ∈ allRetained range path this ↔
      ∃ below, (this.content .nothing below).msg = some msg)
  | .node value children, hkeyed, path, msg => by
      have hbelow := mem_allBelow children (fun entry hmem =>
        hkeyed.child ((child_eq_some_iff hkeyed).mpr hmem)) path msg
      have hflatten : msg ∈ (range.order path (allBelow range path children)).flatten ↔
          msg ∈ (allBelow range path children).flatten :=
        (range.perm path (allBelow range path children)).flatten.mem_iff
      rw [allRetained, List.mem_append, Option.mem_toList, hflatten, hbelow]
      constructor
      · rintro (hhere | ⟨⟨key, n⟩, hmem, below, hkept⟩)
        · exact ⟨[], hhere⟩
        · exact ⟨key :: below, (content_cons_eq_some_iff hkeyed).mpr ⟨n, hmem, hkept⟩⟩
      · rintro ⟨below, hkept⟩
        cases below with
        | nil => exact Or.inl hkept
        | cons key below =>
            obtain ⟨n, hmem, hkept⟩ := (content_cons_eq_some_iff hkeyed).mp hkept
            exact Or.inr ⟨⟨key, n⟩, hmem, below, hkept⟩

theorem mem_allBelow : (children : List (Sigma fun _ : Level => RNode)) →
    (∀ entry ∈ children, entry.2.Keyed) → (path : List Level) → (msg : PublishMessage) →
      (msg ∈ (allBelow range path children).flatten ↔
        ∃ entry ∈ children, ∃ below, (entry.2.content .nothing below).msg = some msg)
  | [], _, _, _ => by simp [allBelow]
  | ⟨key, n⟩ :: rest, hkeyed, path, msg => by
      have hn := mem_allRetained n (hkeyed ⟨key, n⟩ List.mem_cons_self) (path ++ [key]) msg
      have hrest := mem_allBelow rest (fun entry hmem =>
        hkeyed entry (List.mem_cons_of_mem _ hmem)) path msg
      rw [allBelow, List.flatten_cons, List.mem_append, hn, hrest]
      simp

end

/-- "#" is the last level of a topic that the scanner accepts. -/
theorem rem_of_MWC {topic rem : Bytes} (hnext : nextTopicLevel topic = .ok (MWC, rem)) :
    rem = [] := by
  rcases nextTopicLevel_eq_ok hnext with ⟨-, hresult⟩ | ⟨level, rest, rfl, -, hresult⟩
  · exact (Prod.mk.inj hresult).2
  · have hlevel := (Prod.mk.inj hresult).1
    split_ifs at hlevel with hnil
    · cases hlevel
    · rw [← hlevel, nextTopicLevel_MWC] at hnext
      cases hnext

/-- The messages of a walk: those on topics that match. -/
def Finds (walk : List PublishMessage → List PublishMessage × Option Err)
    (wanted : PublishMessage → Prop) : Prop :=
  ∃ found, (∀ msgs, walk msgs = (msgs ++ found, none)) ∧ ∀ msg, msg ∈ found ↔ wanted msg

theorem Finds.loop {α : Type} {body : α → List PublishMessage → List PublishMessage × Option Err}
    {wanted : α → PublishMessage → Prop} {entries : List α}
    (hbody : ∀ entry ∈ entries, Finds (body entry) (wanted entry)) :
    Finds (rangeLoop body entries) fun msg => ∃ entry ∈ entries, wanted entry msg := by
  induction entries with
  | nil => exact ⟨[], fun msgs => by rw [List.append_nil]; rfl, by simp⟩
  | cons entry entries ih =>
      obtain ⟨first, hfirst, hwanted⟩ := hbody entry List.mem_cons_self
      obtain ⟨rest, hrest, hothers⟩ := ih fun entry hmem =>
        hbody entry (List.mem_cons_of_mem _ hmem)
      refine ⟨first ++ rest, fun msgs => ?_, fun msg => ?_⟩
      · rw [rangeLoop, hfirst]
        simp only
        rw [hrest, List.append_assoc]
      · rw [List.mem_append, hwanted, hothers]
        simp

theorem Finds.congr {walk : List PublishMessage → List PublishMessage × Option Err}
    {wanted wanted' : PublishMessage → Prop} (hfinds : Finds walk wanted)
    (hwanted : ∀ msg, wanted msg ↔ wanted' msg) : Finds walk wanted' := by
  obtain ⟨found, hwalk, hfound⟩ := hfinds
  exact ⟨found, hwalk, fun msg => (hfound msg).trans (hwanted msg)⟩

/-- The message is kept below a node, on a topic that matches the levels of a filter. -/
def KeptBelow (levels : List Level) (this : RNode) (msg : PublishMessage) : Prop :=
  ∃ below, matchBy Fits true levels below = true ∧
    (this.content .nothing below).msg = some msg

theorem finds_here (this : RNode) :
    Finds (fun msgs => (msgs ++ this.value.msg.toList, none)) (KeptBelow [] this) := by
  refine ⟨_, fun _ => rfl, fun msg => ?_⟩
  rw [Option.mem_toList]
  constructor
  · exact fun hhere => ⟨[], rfl, hhere⟩
  · rintro ⟨below, hnil, hhere⟩
    obtain rfl : below = [] := List.isEmpty_iff.mp hnil
    exact hhere

/-- A level of a filter is matched with the keys of the children. -/
theorem keptBelow_cons_iff {this : RNode} (hkeyed : this.Keyed) {level : Level}
    {levels : List Level} (hmwc : level ≠ MWC) {msg : PublishMessage} :
    KeptBelow (level :: levels) this msg ↔
      ∃ entry ∈ this.children, Fits level entry.1 ∧ KeptBelow levels entry.2 msg := by
  constructor
  · rintro ⟨below, hmatch, hkept⟩
    cases below with
    | nil => simp [matchBy, hmwc] at hmatch
    | cons key below =>
        rw [matchBy, if_neg fun h => hmwc h.1, Bool.and_eq_true, decide_eq_true_eq] at hmatch
        obtain ⟨n, hmem, hkept⟩ := (content_cons_eq_some_iff hkeyed).mp hkept
        exact ⟨⟨key, n⟩, hmem, hmatch.1, below, hmatch.2, hkept⟩
  · rintro ⟨⟨key, n⟩, hmem, hfits, below, hmatch, hkept⟩
    refine ⟨key :: below, ?_, (content_cons_eq_some_iff hkeyed).mpr ⟨n, hmem, hkept⟩⟩
    rw [matchBy, if_neg fun h => hmwc h.1, Bool.and_eq_true, decide_eq_true_eq]
    exact ⟨hfits, hmatch⟩

section Level

variable {rounds : ℕ} {path : List Level} {this : RNode} {filter rem : Bytes} {level : Level}

/-- The walk at a level of the filter. -/
theorem rmatchLoop_of_ok (hfilter : filter ≠ [])
    (hnext : nextTopicLevel filter = .ok (level, rem)) :
    rmatchLoop range (rounds + 1) path this filter =
      if level = MWC then fun msgs => (msgs ++ allRetained range path this, none)
      else if level = SWC then
        rangeLoop (fun entry => rmatchLoop range rounds (path ++ [entry.1]) entry.2 rem)
          (range.order path this.children)
      else
        match this.child level with
        | none => fun msgs => (msgs, none)
        | some n => rmatchLoop range rounds (path ++ [level]) n rem := by
  funext msgs
  rw [rmatchLoop, if_neg (mt List.length_eq_zero_iff.mp hfilter), hnext]
  dsimp only
  split_ifs
  · rfl
  · rfl
  · cases this.child level <;> rfl

variable {levels : List Level}

/-- "+" goes to every child. -/
theorem finds_order (hbelow : ∀ entry ∈ this.children,
      Finds (rmatchLoop range rounds (path ++ [entry.1]) entry.2 rem) (KeptBelow levels entry.2)) :
    Finds (rangeLoop (fun entry => rmatchLoop range rounds (path ++ [entry.1]) entry.2 rem)
      (range.order path this.children))
      fun msg => ∃ entry ∈ this.children, Fits SWC entry.1 ∧ KeptBelow levels entry.2 msg := by
  have horder : ∀ entry, entry ∈ range.order path this.children ↔ entry ∈ this.children :=
    fun _ => (range.perm path this.children).mem_iff
  refine (Finds.loop fun entry hmem => hbelow entry ((horder entry).mp hmem)).congr
    fun msg => exists_congr fun entry => ?_
  have hfits : Fits SWC entry.1 := Or.inl rfl
  rw [horder, and_iff_right hfits]

/-- A plain level goes to its own child. -/
theorem finds_child (hkeyed : this.Keyed) (hswc : level ≠ SWC)
    (hbelow : ∀ entry ∈ this.children,
      Finds (rmatchLoop range rounds (path ++ [entry.1]) entry.2 rem) (KeptBelow levels entry.2)) :
    Finds (match this.child level with
        | none => fun msgs => (msgs, none)
        | some n => rmatchLoop range rounds (path ++ [level]) n rem)
      fun msg => ∃ entry ∈ this.children, Fits level entry.1 ∧ KeptBelow levels entry.2 msg := by
  have hfits : ∀ key, Fits level key ↔ level = key := fun key => or_iff_right hswc
  cases hchild : this.child level with
  | none =>
      refine ⟨[], fun msgs => by rw [List.append_nil], fun msg => ?_⟩
      refine iff_of_false List.not_mem_nil ?_
      rintro ⟨⟨key, n⟩, hmem, hkey, -⟩
      rw [(hfits key).mp hkey, (child_eq_some_iff hkeyed).mpr hmem] at hchild
      cases hchild
  | some n =>
      have hmem := (child_eq_some_iff hkeyed).mp hchild
      refine (hbelow ⟨level, n⟩ hmem).congr fun msg => ?_
      constructor
      · exact fun hfound => ⟨⟨level, n⟩, hmem, Or.inr rfl, hfound⟩
      · rintro ⟨⟨key, m⟩, hmem, hkey, hfound⟩
        rw [(hfits key).mp hkey, (child_eq_some_iff hkeyed).mpr hmem] at hchild
        exact Option.some.inj hchild ▸ hfound

end Level

/-- The walk of `rmatch` finds the messages on the topics that match the filter, with "#" for
the parent too. -/
theorem finds_rmatchLoop {rounds : ℕ} {path : List Level} {this : RNode} {filter : Bytes}
    (hkeyed : this.Keyed) (hparses : (scan filter).2 = none) (hrounds : filter.length ≤ rounds) :
    Finds (rmatchLoop range rounds path this filter) (KeptBelow (levelsOf filter) this) := by
  induction rounds generalizing path this filter with
  | zero =>
      rw [List.length_eq_zero_iff.mp (Nat.le_zero.mp hrounds)]
      exact finds_here this
  | succ rounds ih =>
      by_cases hfilter : filter = []
      · rw [hfilter]
        exact finds_here this
      · cases hnext : nextTopicLevel filter with
        | error err =>
            rw [scan_of_error hfilter hnext] at hparses
            cases hparses
        | ok result =>
            obtain ⟨level, rem⟩ := result
            have hlt := length_lt_of_nextTopicLevel hfilter hnext
            rw [scan_of_ok hfilter hnext] at hparses
            have hbelow : ∀ entry ∈ this.children, Finds
                (rmatchLoop range rounds (path ++ [entry.1]) entry.2 rem)
                (KeptBelow (levelsOf rem) entry.2) := fun entry hmem =>
              ih (hkeyed.child ((child_eq_some_iff hkeyed).mpr hmem)) hparses (by omega)
            rw [levelsOf_of_ok hfilter hnext, rmatchLoop_of_ok hfilter hnext]
            split_ifs with hmwc hswc
            · subst hmwc
              obtain rfl := rem_of_MWC hnext
              refine ⟨allRetained range path this, fun _ => rfl, fun msg => ?_⟩
              rw [mem_allRetained this hkeyed]
              refine exists_congr fun below => (and_iff_right ?_).symm
              cases below <;> rfl
            · subst hswc
              exact (finds_order hbelow).congr fun _ => (keptBelow_cons_iff hkeyed hmwc).symm
            · exact (finds_child hkeyed hswc hbelow).congr
                fun _ => (keptBelow_cons_iff hkeyed hmwc).symm

end Retained

/-! ## Where they agree -/

theorem readLevel_eq_MWC_iff {level : Level} : readLevel level = MWC ↔ level = MWC := by
  rw [readLevel]
  split_ifs with hnil
  · simp [hnil, SWC, MWC]
  · rfl

theorem eq_nil_of_levelsOf_MWC {topic : Bytes} (hscan : (scan topic).2 = none)
    {before after : List Level} (hlevels : levelsOf topic = before ++ MWC :: after) :
    after = [] := by
  obtain ⟨front, rest, hsplit, -, hrest⟩ := List.map_eq_append_iff.mp hlevels
  obtain ⟨level, more, rfl, hlevel, rfl⟩ := List.map_eq_cons_iff.mp hrest
  rw [readLevel_eq_MWC_iff.mp hlevel] at hsplit
  rw [eq_nil_of_trim_MWC hscan hsplit]
  rfl

theorem filterMatches_eq_matchBy {levels names : List Level}
    (hlast : ∀ before after, levels = before ++ MWC :: after → after = []) :
    filterMatches levels names = matchBy Fits false levels names := by
  induction levels generalizing names with
  | nil => cases names <;> rfl
  | cons level levels ih =>
      cases names with
      | nil => rfl
      | cons name names =>
          rw [filterMatches, matchBy]
          by_cases hmwc : level = MWC
          · obtain rfl := hlast [] levels (by rw [hmwc]; rfl)
            rw [if_pos hmwc, if_pos ⟨hmwc, rfl⟩]
            rfl
          · rw [if_neg hmwc, if_neg fun h => hmwc h.1, ih fun before after heq =>
              hlast (level :: before) after (by rw [heq]; rfl)]
            rfl

/-- The two matches differ where "#" has to stand for its parent. -/
theorem filterMatches_iff_iff {levels names : List Level}
    (hlast : ∀ before after, levels = before ++ MWC :: after → after = []) :
    (filterMatches levels names = true ↔ matchBy Fits true levels names = true) ↔
      ¬ ∃ parents, levels = parents ++ [MWC] ∧ List.Forall₂ Fits parents names := by
  rw [filterMatches_eq_matchBy hlast]
  by_cases hmwc : levels.getLast? = some MWC
  · obtain ⟨parents, rfl⟩ := List.getLast?_eq_some_iff.mp hmwc
    have hparents := notMem_of_append hlast
    rw [matchBy_append_MWC hparents, matchBy_append_MWC hparents]
    constructor
    · rintro hiff ⟨parents', heq, hall⟩
      rw [← (List.append_inj' heq rfl).1] at hall
      obtain ⟨front, rest, hnames, hrest, hfront⟩ :=
        hiff.mpr ⟨names, [], by rw [List.append_nil], nofun, hall⟩
      have hlength := hall.length_eq
      rw [hnames, List.length_append, ← hfront.length_eq] at hlength
      exact hrest rfl (List.length_eq_zero_iff.mp (by omega))
    · intro hnot
      constructor
      · rintro ⟨front, rest, hnames, -, hall⟩
        exact ⟨front, rest, hnames, nofun, hall⟩
      · rintro ⟨front, rest, hnames, -, hall⟩
        refine ⟨front, rest, hnames, fun _ hnil => hnot ⟨parents, rfl, ?_⟩, hall⟩
        rw [hnames, hnil, List.append_nil]
        exact hall
  · have hmem := notMem_of_getLast hlast hmwc
    rw [matchBy_of_notMem hmem, matchBy_of_notMem hmem]
    refine iff_of_true Iff.rfl ?_
    rintro ⟨parents, rfl, -⟩
    exact hmwc List.getLast?_concat

/-- What a node keeps when it has stored a message. -/
theorem Kept.exists_of_store {msg : PublishMessage} {gPacketId : UInt64} {here : Kept}
    (hnone : (here.store msg gPacketId).2 = none) :
    ∃ kept, (here.store msg gPacketId).1.msg = some kept := by
  simp only [store] at hnone ⊢
  split at hnone
  · cases hnone
  · cases hnone
  · split at hnone
    · cases hnone
    · cases hnone
    · exact ⟨_, rfl⟩

section Agree

variable {S : Type} [DecidableEq S] {filter : Bytes} {granted qos : Byte} {sub : S}
  {msg : PublishMessage}

/-- For every filter that `Subscribe` accepts and every message with a payload that `Retain`
accepts, on a topic that `Subscribers` accepts: the tree keeps one message, a subscriber is
returned for the topic just when that message is returned for the filter, if and only if the
topic is not the parent of a filter with "#". -/
theorem live_iff_retained (hgroup : groupPrefix.isPrefixOf filter = false)
    (hsubscribe : (subscribe newSNode filter granted (some sub)).2.2 = none)
    (chance : Chance S) (before : Found S)
    (haccepts : (subscribers chance (subscribe newSNode filter granted (some sub)).1 msg.topic
      qos before).2 = none)
    (hpayload : msg.payload ≠ []) (gPacketId : UInt64)
    (hretain : (retain newRNode msg gPacketId).2 = none) (range : RangeOrder) :
    ∃ kept, ((retain newRNode msg gPacketId).1.content .nothing (levelsOf msg.topic)).msg =
        some kept ∧ (Storable msg → CopyOf msg kept) ∧
      ((sub ∈ (subscribers chance (subscribe newSNode filter granted (some sub)).1 msg.topic
          qos before).1.subs ↔
        kept ∈ (retained range (retain newRNode msg gPacketId).1 filter []).1) ↔
        ¬ ∃ parents, levelsOf filter = parents ++ [MWC] ∧
          List.Forall₂ Fits parents (levelsOf msg.topic)) := by
  have hscan := scan_of_subscribe hgroup hsubscribe
  have hinsert : retain newRNode msg gPacketId = rinsert newRNode msg.topic msg gPacketId := by
    rw [retain, if_neg (by simpa using hpayload)]
  have hparses : (scan msg.topic).2 = none := by
    rw [hinsert, rinsert, insertLoop_eq le_rfl] at hretain
    cases hscan : (scan msg.topic).2 with
    | none => rfl
    | some err =>
        rw [hscan] at hretain
        cases hretain
  have hstore : (Kept.nothing.store msg gPacketId).2 = none := by
    rw [hinsert, rinsert, insertLoop_eq le_rfl] at hretain
    simp only [hparses, newRNode, Trie.content_leaf] at hretain
    exact hretain
  have hcontent : ∀ path, (retain newRNode msg gPacketId).1.content .nothing path =
      if path = levelsOf msg.topic then (Kept.nothing.store msg gPacketId).1 else .nothing := by
    intro path
    rw [hinsert, content_rinsert hparses, newRNode, Trie.content_leaf, Trie.content_leaf]
  obtain ⟨kept, hkept⟩ := Kept.exists_of_store hstore
  refine ⟨kept, by rw [hcontent, if_pos rfl, hkept], fun hmsg => ?_, ?_⟩
  · obtain ⟨copy, buf, pos, hcopy, hsame⟩ : ∃ copy buf pos, Kept.nothing.store msg gPacketId =
        (⟨some copy, buf, pos⟩, none) ∧ CopyOf msg copy := by
      apply Kept.store_eq hmsg gPacketId
      rintro _ ⟨⟩
    rw [hcopy] at hkept
    exact Option.some.inj hkept ▸ hsame
  · have hkeyed : (retain newRNode msg gPacketId).1.Keyed :=
      keyed_retain (Trie.keyed_leaf _) msg gPacketId
    have hretained : kept ∈ (retained range (retain newRNode msg gPacketId).1 filter []).1 ↔
        matchBy Fits true (levelsOf filter) (levelsOf msg.topic) = true := by
      obtain ⟨found, hwalk, hfound⟩ : Finds (retained range (retain newRNode msg gPacketId).1
        filter) _ := finds_rmatchLoop hkeyed hscan le_rfl
      rw [hwalk, List.nil_append, hfound]
      constructor
      · rintro ⟨below, hmatch, hbelow⟩
        rw [hcontent] at hbelow
        split_ifs at hbelow with hlevels
        · exact hlevels ▸ hmatch
        · cases hbelow
      · intro hmatch
        exact ⟨levelsOf msg.topic, hmatch, by rw [hcontent, if_pos rfl, hkept]⟩
    rw [mem_subscribers_iff hgroup hsubscribe chance before haccepts, hretained]
    exact filterMatches_iff_iff fun _ _ => eq_nil_of_levelsOf_MWC hscan

end Agree

/-- A subscriber on "a/+" and a message on "a/b" find each other in both trees. -/
theorem live_iff_retained_plus : ∃ kept,
    ((retain newRNode (retaining [0x61, 0x2f, 0x62] [1]).msg 0).1.content .nothing
      [[0x61], [0x62]]).msg = some kept ∧ kept.payload = [1] ∧
    (1 ∈ (subscribers inOrder (subscribe newSNode [0x61, 0x2f, 0x2b] 1 (some 1)).1
        [0x61, 0x2f, 0x62] 1 ⟨[], []⟩).1.subs ↔
      kept ∈ (retained .stored (retain newRNode (retaining [0x61, 0x2f, 0x62] [1]).msg 0).1
        [0x61, 0x2f, 0x2b] []).1) := by
  have hsubscribe : (subscribe newSNode [0x61, 0x2f, 0x2b] 1 (some 1)).2.2 = none := by decide
  have haccepts : (subscribers inOrder (subscribe newSNode [0x61, 0x2f, 0x2b] 1 (some 1)).1
      (retaining [0x61, 0x2f, 0x62] [1]).msg.topic 1 ⟨[], []⟩).2 = none := by decide
  obtain ⟨kept, hkept, hcopy, hiff⟩ := live_iff_retained (by decide) hsubscribe inOrder _
    haccepts (by decide) 0 (by decide +kernel) .stored
  have hstorable : Storable (retaining [0x61, 0x2f, 0x62] [1]).msg :=
    RetainCall.storable_retaining (by decide +kernel) (by decide)
  refine ⟨kept, hkept, (hcopy hstorable).payload, hiff.mpr ?_⟩
  rintro ⟨parents, hparents, -⟩
  have hlast := congrArg List.getLast? hparents
  rw [List.getLast?_concat] at hlast
  exact absurd hlast (by decide)

/-- For "a" a subscriber on "a/#" is not found, and its message is retained for "a/#". -/
theorem parent_retained_not_live :
    (subscribe newSNode [0x61, 0x2f, 0x23] 1 (some 1)).2.2 = none ∧
    subscribers inOrder (subscribe newSNode [0x61, 0x2f, 0x23] 1 (some 1)).1 [0x61] 1 ⟨[], []⟩ =
      (⟨[], []⟩, none) ∧
    (retain newRNode (retaining [0x61] [1]).msg 0).2 = none ∧
    (retained .stored (retain newRNode (retaining [0x61] [1]).msg 0).1 [0x61, 0x2f, 0x23]
      []).1.map (fun kept => (kept.topic, kept.payload)) = [([0x61], [1])] := by
  decide +kernel

end Xmqtt.Topics
