import Xmqtt.Topics.Lookup

/-!
# What a filter matches

The package documentation says what a filter matches: "#" the parent and all children levels,
"+" all names in the current level.  The tree decides it on levels that the scanner has read,
where an empty level has become "+" and an empty level at the end is gone, and it looks for
"#" below the parent only.  The filters and topics on which the two differ are named here.
-/

namespace Xmqtt.Topics

open Xmqtt.Go Xmqtt.Message

/-! ## Two ways to match -/

/-- A filter and a topic level by level, with "#" at the end for any further levels; `parent`
says whether it stands for none of them too. -/
def matchBy (agree : Level → Level → Prop) [DecidableRel agree] (parent : Bool) :
    List Level → List Level → Bool
  | [], names => names.isEmpty
  | level :: levels, [] => parent && decide (level = MWC ∧ levels = [])
  | level :: levels, name :: names =>
      if level = MWC ∧ levels = [] then true
      else decide (agree level name) && matchBy agree parent levels names

/-- A level of a filter and a level of a topic, as documented. -/
def Fits (level name : Level) : Prop := level = SWC ∨ level = name

instance : DecidableRel Fits := fun _ _ => inferInstanceAs (Decidable (_ ∨ _))

/-- A filter and a topic as documented, both split at every "/". -/
def documentedMatch : List Level → List Level → Bool := matchBy Fits true

/-- A level as the tree compares it: an empty level of the filter is a "+". -/
def Passes (level name : Level) : Prop := level = [] ∨ Fits level name

instance : DecidableRel Passes := fun _ _ => inferInstanceAs (Decidable (_ ∨ _))

/-- A filter and a topic as the tree compares them, both without an empty level at the end. -/
def comparedMatch : List Level → List Level → Bool := matchBy Passes false

/-- Where the tree and the documentation differ on a filter and a topic. -/
inductive Differs (levels names : List Level) : Prop
  /-- "#" stands for the parent. -/
  | parent (parents : List Level) : levels = parents ++ [MWC] →
      List.Forall₂ Fits parents names → Differs levels names
  /-- "#" stands for an empty level at the end. -/
  | emptyBelow (parents front : List Level) : levels = parents ++ [MWC] →
      names = front ++ [[]] → List.Forall₂ Fits parents front → Differs levels names
  /-- "+" stands for an empty level at the end. -/
  | emptyLast (before front : List Level) : levels = before ++ [SWC] →
      names = front ++ [[]] → List.Forall₂ Fits before front → Differs levels names
  /-- An empty level of the filter stands for a name. -/
  | emptyLevel (i : ℕ) (name : Level) : comparedMatch (trim levels) (trim names) = true →
      levels[i]? = some [] → names[i]? = some name → name ≠ [] → Differs levels names
  /-- One of the two has an empty level at the end. -/
  | emptyEnd : comparedMatch (trim levels) (trim names) = true →
      levels.getLast? ≠ some MWC →
      ¬ (levels.getLast? = some [] ↔ names.getLast? = some []) → Differs levels names

section MatchBy

variable {agree : Level → Level → Prop} [DecidableRel agree] {parent : Bool}
  {levels parents names : List Level}

theorem matchBy_of_notMem (hlevels : MWC ∉ levels) :
    matchBy agree parent levels names = true ↔ List.Forall₂ agree levels names := by
  induction levels generalizing names with
  | nil => cases names <;> simp [matchBy]
  | cons level levels ih =>
      rw [List.mem_cons, not_or] at hlevels
      have hlevel : level ≠ MWC := Ne.symm hlevels.1
      cases names with
      | nil => simp [matchBy, hlevel]
      | cons name names => simp [matchBy, hlevel, ih hlevels.2]

theorem matchBy_append_MWC (hparents : MWC ∉ parents) :
    matchBy agree parent (parents ++ [MWC]) names = true ↔
      ∃ front rest, names = front ++ rest ∧ (parent = false → rest ≠ []) ∧
        List.Forall₂ agree parents front := by
  induction parents generalizing names with
  | nil => cases names <;> cases parent <;> simp [matchBy]
  | cons level parents ih =>
      rw [List.mem_cons, not_or] at hparents
      have hlevel : level ≠ MWC := Ne.symm hparents.1
      cases names with
      | nil => simp [matchBy, hlevel]
      | cons name names =>
          simp only [List.cons_append, matchBy, hlevel, false_and, if_false, Bool.and_eq_true,
            decide_eq_true_eq, ih hparents.2]
          constructor
          · rintro ⟨hagree, front, rest, rfl, hrest, hall⟩
            exact ⟨name :: front, rest, rfl, hrest, hall.cons hagree⟩
          · rintro ⟨front, rest, heq, hrest, hall⟩
            cases hall with
            | cons hagree hall =>
                obtain ⟨rfl, rfl⟩ := List.cons.inj heq
                exact ⟨hagree, _, rest, rfl, hrest, hall⟩

end MatchBy

/-! ## Where they differ -/

section Last

variable {α β : Type} {R : α → β → Prop}

theorem forall₂_concat_iff {as : List α} {bs : List β} {a : α} {b : β} :
    List.Forall₂ R (as ++ [a]) (bs ++ [b]) ↔ List.Forall₂ R as bs ∧ R a b := by
  rw [← List.forall₂_reverse_iff, List.reverse_concat, List.reverse_concat,
    List.forall₂_cons, List.forall₂_reverse_iff, and_comm]

theorem forall₂_concat_right {as : List α} {bs : List β} {b : β}
    (hall : List.Forall₂ R as (bs ++ [b])) :
    ∃ front a, as = front ++ [a] ∧ List.Forall₂ R front bs ∧ R a b := by
  rcases List.eq_nil_or_concat' as with rfl | ⟨front, a, rfl⟩
  · exact absurd (List.forall₂_nil_left_iff.mp hall) (by simp)
  · exact ⟨front, a, rfl, forall₂_concat_iff.mp hall⟩

theorem forall₂_concat_left {as : List α} {bs : List β} {a : α}
    (hall : List.Forall₂ R (as ++ [a]) bs) :
    ∃ front b, bs = front ++ [b] ∧ List.Forall₂ R as front ∧ R a b := by
  rcases List.eq_nil_or_concat' bs with rfl | ⟨front, b, rfl⟩
  · exact absurd (List.forall₂_nil_right_iff.mp hall) (by simp)
  · exact ⟨front, b, rfl, forall₂_concat_iff.mp hall⟩

end Last

section Compare

variable {levels parents front names : List Level}

theorem Fits.passes {level name : Level} (hfits : Fits level name) : Passes level name :=
  Or.inr hfits

theorem fits_nil_iff {name : Level} : Fits [] name ↔ name = [] := by
  simp [Fits, SWC, eq_comm]

/-- What passes and does not fit has an empty level opposite to a name. -/
theorem exists_empty_of_passes (hpasses : List.Forall₂ Passes parents front)
    (hnot : ¬ List.Forall₂ Fits parents front) :
    ∃ (i : ℕ) (name : Level), parents[i]? = some [] ∧ front[i]? = some name ∧ name ≠ [] := by
  induction hpasses with
  | nil => exact absurd List.Forall₂.nil hnot
  | @cons level name parents front hpass hall ih =>
      by_cases hfits : Fits level name
      · obtain ⟨i, other, hlevel, hname, hne⟩ := ih fun hrest => hnot (hrest.cons hfits)
        exact ⟨i + 1, other, hlevel, hname, hne⟩
      · obtain rfl : level = [] := hpass.resolve_right hfits
        exact ⟨0, name, rfl, rfl, fun hnil => hfits (fits_nil_iff.mpr hnil)⟩

theorem not_fits_of_empty {i : ℕ} {name : Level} (hlevel : parents[i]? = some [])
    (hname : front[i]? = some name) (hne : name ≠ []) : ¬ List.Forall₂ Fits parents front := by
  intro hall
  obtain ⟨hi, hlevel⟩ := List.getElem?_eq_some_iff.mp hlevel
  obtain ⟨hi', hname⟩ := List.getElem?_eq_some_iff.mp hname
  have hfits := (List.forall₂_iff_get.mp hall).2 i hi hi'
  rw [List.get_eq_getElem, List.get_eq_getElem, hlevel, hname] at hfits
  exact hne (fits_nil_iff.mp hfits)

theorem trim_append_nil : trim (front ++ [[]]) = front := by
  simp [trim]

theorem trim_eq_self (hlast : names.getLast? ≠ some []) : trim names = names :=
  if_neg hlast

theorem exists_append_nil (hlast : names.getLast? = some []) : ∃ front, names = front ++ [[]] :=
  List.getLast?_eq_some_iff.mp hlast

theorem trim_isPrefix (names : List Level) : trim names <+: names := by
  by_cases hlast : names.getLast? = some []
  · obtain ⟨front, rfl⟩ := exists_append_nil hlast
    rw [trim_append_nil]
    exact List.prefix_append front [[]]
  · rw [trim_eq_self hlast]

/-- Where just one of two lists has an empty level at the end, they cannot have the same
length with and without it. -/
theorem getLast?_iff_of_length (hlength : levels.length = names.length)
    (htrim : (trim levels).length = (trim names).length) :
    levels.getLast? = some [] ↔ names.getLast? = some [] := by
  have hlonger : ∀ {these those : List Level}, these.length = those.length →
      (trim these).length = (trim those).length → these.getLast? = some [] →
        those.getLast? = some [] := by
    intro these those hlength htrim hthese
    by_contra hthose
    obtain ⟨front, rfl⟩ := exists_append_nil hthese
    rw [trim_append_nil, trim_eq_self hthose, ← hlength, List.length_append,
      List.length_singleton] at htrim
    omega
  exact ⟨hlonger hlength htrim, hlonger hlength.symm htrim.symm⟩

theorem getElem?_append_of_eq_some {i : ℕ} {name : Level} (hname : front[i]? = some name)
    (rest : List Level) : (front ++ rest)[i]? = some name := by
  rw [List.getElem?_append_left (List.getElem?_eq_some_iff.mp hname).1, hname]

theorem notMem_of_getLast (hlast : ∀ before after, levels = before ++ MWC :: after → after = [])
    (hnot : levels.getLast? ≠ some MWC) : MWC ∉ levels := by
  intro hmem
  obtain ⟨before, after, heq⟩ := List.append_of_mem hmem
  rw [heq, hlast before after heq, List.getLast?_concat] at hnot
  exact hnot rfl

theorem notMem_of_append (hlast : ∀ before after, parents ++ [MWC] = before ++ MWC :: after →
    after = []) : MWC ∉ parents := by
  intro hmem
  obtain ⟨before, after, rfl⟩ := List.append_of_mem hmem
  have hnil := hlast before (after ++ [MWC]) (by simp)
  simp at hnil

/-- The topic is matched as documented and the tree does not match it. -/
theorem Differs.of_documented
    (hlast : ∀ before after, levels = before ++ MWC :: after → after = [])
    (hdocumented : documentedMatch levels names = true)
    (hcompared : ¬ comparedMatch (trim levels) (trim names) = true) : Differs levels names := by
  by_cases hmwc : levels.getLast? = some MWC
  · obtain ⟨parents, rfl⟩ := List.getLast?_eq_some_iff.mp hmwc
    have hparents := notMem_of_append hlast
    rw [trim_eq_self (by simp [MWC]), comparedMatch, matchBy_append_MWC hparents] at hcompared
    obtain ⟨front, rest, rfl, -, hall⟩ := (matchBy_append_MWC hparents).mp hdocumented
    have hpasses := hall.imp fun _ _ => Fits.passes
    rcases List.eq_nil_or_concat' rest with rfl | ⟨rest, name, rfl⟩
    · exact .parent parents rfl (by rwa [List.append_nil])
    · by_cases hname : name = []
      · subst hname
        rw [← List.append_assoc, trim_append_nil] at hcompared
        have hrest : rest = [] := by
          by_contra hne
          exact hcompared ⟨front, rest, rfl, fun _ => hne, hpasses⟩
        exact .emptyBelow parents front rfl (by rw [hrest]; rfl) hall
      · rw [trim_eq_self (by simp [hname])] at hcompared
        exact absurd ⟨front, _, rfl, fun _ => by simp, hpasses⟩ hcompared
  · have hmem := notMem_of_getLast hlast hmwc
    have hall := (matchBy_of_notMem hmem).mp hdocumented
    have hpasses := hall.imp fun _ _ => Fits.passes
    by_cases hnames : names.getLast? = some []
    · obtain ⟨front, rfl⟩ := exists_append_nil hnames
      obtain ⟨before, last, rfl, hbefore, hend⟩ := forall₂_concat_right hall
      rcases hend with rfl | rfl
      · exact .emptyLast before front rfl rfl hbefore
      · rw [trim_append_nil, trim_append_nil] at hcompared
        have hnot : MWC ∉ before := fun h => hmem (List.mem_append_left _ h)
        exact absurd ((matchBy_of_notMem hnot).mpr (hbefore.imp fun _ _ => Fits.passes))
          hcompared
    · have hlevels : levels.getLast? ≠ some [] := by
        intro hnil
        obtain ⟨before, rfl⟩ := exists_append_nil hnil
        obtain ⟨front, name, rfl, -, hend⟩ := forall₂_concat_left hall
        exact hnames (by rw [fits_nil_iff.mp hend, List.getLast?_concat])
      rw [trim_eq_self hlevels, trim_eq_self hnames] at hcompared
      exact absurd ((matchBy_of_notMem hmem).mpr hpasses) hcompared

/-- The tree matches the topic and it is not matched as documented. -/
theorem Differs.of_compared
    (hlast : ∀ before after, levels = before ++ MWC :: after → after = [])
    (hdocumented : ¬ documentedMatch levels names = true)
    (hcompared : comparedMatch (trim levels) (trim names) = true) : Differs levels names := by
  by_cases hmwc : levels.getLast? = some MWC
  · obtain ⟨parents, rfl⟩ := List.getLast?_eq_some_iff.mp hmwc
    have hparents := notMem_of_append hlast
    have hall := hcompared
    rw [trim_eq_self (by simp [MWC]), comparedMatch, matchBy_append_MWC hparents] at hall
    obtain ⟨front, rest, hnames, -, hall⟩ := hall
    obtain ⟨more, hmore⟩ : ∃ more, names = front ++ more := by
      by_cases hend : names.getLast? = some []
      · obtain ⟨before, rfl⟩ := exists_append_nil hend
        rw [trim_append_nil] at hnames
        exact ⟨rest ++ [[]], by rw [hnames, List.append_assoc]⟩
      · exact ⟨rest, by rwa [trim_eq_self hend] at hnames⟩
    have hnot : ¬ List.Forall₂ Fits parents front := fun hfits =>
      hdocumented ((matchBy_append_MWC hparents).mpr ⟨front, more, hmore, nofun, hfits⟩)
    obtain ⟨i, name, hlevel, hname, hne⟩ := exists_empty_of_passes hall hnot
    refine .emptyLevel i name hcompared ?_ ?_ hne
    · exact getElem?_append_of_eq_some hlevel _
    · rw [hmore]
      exact getElem?_append_of_eq_some hname _
  · have hmem := notMem_of_getLast hlast hmwc
    have hnot : ¬ List.Forall₂ Fits levels names := fun hfits =>
      hdocumented ((matchBy_of_notMem hmem).mpr hfits)
    by_cases hend : levels.getLast? = some [] ↔ names.getLast? = some []
    · by_cases hlevels : levels.getLast? = some []
      · obtain ⟨before, rfl⟩ := exists_append_nil hlevels
        obtain ⟨front, rfl⟩ := exists_append_nil (hend.mp hlevels)
        have hbefore : MWC ∉ before := fun h => hmem (List.mem_append_left _ h)
        have hall := hcompared
        rw [trim_append_nil, trim_append_nil, comparedMatch, matchBy_of_notMem hbefore] at hall
        obtain ⟨i, name, hlevel, hname, hne⟩ := exists_empty_of_passes hall fun hfits =>
          hnot (forall₂_concat_iff.mpr ⟨hfits, Or.inr rfl⟩)
        exact .emptyLevel i name hcompared (getElem?_append_of_eq_some hlevel _)
          (getElem?_append_of_eq_some hname _) hne
      · have hall := hcompared
        rw [trim_eq_self hlevels, trim_eq_self (mt hend.mpr hlevels), comparedMatch,
          matchBy_of_notMem hmem] at hall
        obtain ⟨i, name, hlevel, hname, hne⟩ := exists_empty_of_passes hall hnot
        exact .emptyLevel i name hcompared hlevel hname hne
    · exact .emptyEnd hcompared hmwc hend

/-- Where they differ, one of them matches and the other does not. -/
theorem Differs.not_iff (hdiffers : Differs levels names)
    (hlast : ∀ before after, levels = before ++ MWC :: after → after = []) :
    ¬ (comparedMatch (trim levels) (trim names) = true ↔
      documentedMatch levels names = true) := by
  cases hdiffers with
  | parent parents heq hall =>
      subst heq
      have hparents := notMem_of_append hlast
      intro hiff
      have hcompared := hiff.mpr ((matchBy_append_MWC hparents).mpr
        ⟨names, [], by simp, nofun, hall⟩)
      rw [trim_eq_self (by simp [MWC]), comparedMatch, matchBy_append_MWC hparents] at hcompared
      obtain ⟨front, rest, hnames, hrest, hpasses⟩ := hcompared
      have hle := (trim_isPrefix names).length_le
      have hpos := List.length_pos_iff.mpr (hrest rfl)
      rw [hnames, List.length_append, ← hpasses.length_eq, hall.length_eq] at hle
      omega
  | emptyBelow parents front heq hnames hall =>
      subst heq hnames
      have hparents := notMem_of_append hlast
      intro hiff
      have hcompared := hiff.mpr ((matchBy_append_MWC hparents).mpr
        ⟨front, [[]], rfl, nofun, hall⟩)
      rw [trim_eq_self (by simp [MWC]), trim_append_nil, comparedMatch,
        matchBy_append_MWC hparents] at hcompared
      obtain ⟨passed, rest, rfl, hrest, hpasses⟩ := hcompared
      have hpos := List.length_pos_iff.mpr (hrest rfl)
      have hlength := hall.length_eq
      rw [List.length_append, ← hpasses.length_eq] at hlength
      omega
  | emptyLast before front heq hnames hall =>
      subst heq hnames
      have hmem := notMem_of_getLast hlast (by simp [MWC, SWC])
      intro hiff
      have hcompared := hiff.mpr ((matchBy_of_notMem hmem).mpr
        (forall₂_concat_iff.mpr ⟨hall, Or.inl rfl⟩))
      rw [trim_eq_self (by simp [SWC]), trim_append_nil, comparedMatch,
        matchBy_of_notMem hmem] at hcompared
      have hlength := hcompared.length_eq
      rw [List.length_append, List.length_singleton, hall.length_eq] at hlength
      omega
  | emptyLevel i name hcompared hlevel hname hne =>
      intro hiff
      have hdocumented := hiff.mp hcompared
      by_cases hmwc : levels.getLast? = some MWC
      · obtain ⟨parents, rfl⟩ := List.getLast?_eq_some_iff.mp hmwc
        obtain ⟨front, rest, rfl, -, hall⟩ :=
          (matchBy_append_MWC (notMem_of_append hlast)).mp hdocumented
        have hi : i < parents.length := by
          by_contra hge
          rw [List.getElem?_append_right (by omega)] at hlevel
          have hmem := List.mem_of_getElem? hlevel
          simp [MWC] at hmem
        rw [List.getElem?_append_left hi] at hlevel
        rw [List.getElem?_append_left (hall.length_eq ▸ hi)] at hname
        exact not_fits_of_empty hlevel hname hne hall
      · exact not_fits_of_empty hlevel hname hne
          ((matchBy_of_notMem (notMem_of_getLast hlast hmwc)).mp hdocumented)
  | emptyEnd hcompared hmwc hend =>
      intro hiff
      have hmem := notMem_of_getLast hlast hmwc
      have htrim : MWC ∉ trim levels := fun h => hmem ((trim_isPrefix levels).subset h)
      exact hend (getLast?_iff_of_length
        ((matchBy_of_notMem hmem).mp (hiff.mp hcompared)).length_eq
        ((matchBy_of_notMem htrim).mp hcompared).length_eq)

/-- The tree agrees with the documentation on all other filters and topics. -/
theorem compared_iff_documented_iff
    (hlast : ∀ before after, levels = before ++ MWC :: after → after = []) :
    (comparedMatch (trim levels) (trim names) = true ↔ documentedMatch levels names = true) ↔
      ¬ Differs levels names := by
  constructor
  · exact fun hiff hdiffers => hdiffers.not_iff hlast hiff
  · intro hnot
    constructor
    · intro hcompared
      by_contra hdocumented
      exact hnot (.of_compared hlast hdocumented hcompared)
    · intro hdocumented
      by_contra hcompared
      exact hnot (.of_documented hlast hdocumented hcompared)

end Compare

/-! ## The levels of filters and topics -/

section Levels

theorem nextTopicLevel_MWC (rest : Bytes) :
    nextTopicLevel (MWC ++ 0x2f :: rest) = .error errNotLastLevel := rfl

theorem eq_nil_of_singleton {level : Level} {before after : List Level}
    (hsplit : [level] = before ++ MWC :: after) : after = [] := by
  cases before with
  | nil => exact (List.cons.inj hsplit).2.symm
  | cons first before => simp at hsplit

/-- The scanner lets "#" through at the end only. -/
theorem eq_nil_of_MWC {topic : Bytes} (hscan : (scan topic).2 = none) {before after : List Level}
    (hsplit : topic.splitOn 0x2f = before ++ MWC :: after) : after = [] := by
  obtain ⟨n, hn⟩ : ∃ n, topic.length ≤ n := ⟨_, le_rfl⟩
  induction n generalizing topic before with
  | zero =>
      rw [List.length_eq_zero_iff.mp (Nat.le_zero.mp hn)] at hsplit
      exact eq_nil_of_singleton hsplit
  | succ n ih =>
      by_cases htopic : topic = []
      · rw [htopic] at hsplit
        exact eq_nil_of_singleton hsplit
      · cases hnext : nextTopicLevel topic with
        | error err =>
            rw [scan_of_error htopic hnext] at hscan
            cases hscan
        | ok result =>
            rw [scan_of_ok htopic hnext] at hscan
            have hlt := length_lt_of_nextTopicLevel htopic hnext
            rcases nextTopicLevel_eq_ok hnext with ⟨hnot, -⟩ | ⟨level, rest, rfl, hnot, rfl⟩
            · rw [splitOn_of_notMem hnot] at hsplit
              exact eq_nil_of_singleton hsplit
            · rw [splitOn_append_cons hnot] at hsplit
              cases before with
              | nil =>
                  obtain ⟨rfl, -⟩ := List.cons.inj hsplit
                  rw [nextTopicLevel_MWC] at hnext
                  cases hnext
              | cons first before => exact ih hscan (List.cons.inj hsplit).2 (by omega)

theorem eq_nil_of_trim_MWC {topic : Bytes} (hscan : (scan topic).2 = none)
    {before after : List Level} (htrim : trim (topic.splitOn 0x2f) = before ++ MWC :: after) :
    after = [] := by
  obtain ⟨rest, hrest⟩ := trim_isPrefix (topic.splitOn 0x2f)
  rw [htrim, List.append_assoc, List.cons_append] at hrest
  exact (List.append_eq_nil_iff.mp (eq_nil_of_MWC hscan hrest.symm)).1

/-- The tree compares levels that the scanner has read. -/
theorem filterMatches_map_readLevel {levels names : List Level}
    (hlast : ∀ before after, levels = before ++ MWC :: after → after = []) :
    filterMatches (levels.map readLevel) (names.map readLevel) = comparedMatch levels names := by
  induction levels generalizing names with
  | nil => cases names <;> rfl
  | cons level levels ih =>
      cases names with
      | nil => rfl
      | cons name names =>
          rw [List.map_cons, List.map_cons, filterMatches, comparedMatch, matchBy]
          by_cases hmwc : level = MWC
          · obtain rfl := hlast [] levels (by rw [hmwc]; rfl)
            rw [hmwc]
            rfl
          · have hread : readLevel level ≠ MWC := by
              rw [readLevel]
              split_ifs
              · decide
              · exact hmwc
            have hpasses : (readLevel level = SWC ∨ readLevel level = readLevel name) ↔
                Passes level name := by
              rw [Passes, Fits, readLevel, readLevel]
              split_ifs with hempty hnil hnil
              · simp [hempty]
              · simp [hempty]
              · simp [hempty, hnil]
              · simp [hempty]
            have hrest : ∀ before after, levels = before ++ MWC :: after → after = [] :=
              fun before after heq => hlast (level :: before) after (by rw [heq]; rfl)
            rw [if_neg hread, if_neg (fun h => hmwc h.1), ih hrest, comparedMatch]
            simp only [hpasses]

end Levels

/-! ## One subscription -/

section One

variable {S : Type} [DecidableEq S] {filter topic : Bytes} {granted qos : Byte} {sub : S}

/-- What `Subscribe` has checked when it returns no error. -/
theorem valid_of_subscribe {sroot : SNode S}
    (hnone : (subscribe sroot filter granted (some sub)).2.2 = none) :
    validQos granted = true ∧ (scan (getGroupName filter).2).2 = none := by
  rw [subscribe] at hnone
  by_cases hqos : validQos granted = true
  · rw [if_neg (by simp [hqos])] at hnone
    simp only [sinsert, insertLoop_eq le_rfl] at hnone
    refine ⟨hqos, ?_⟩
    cases hscan : (scan (getGroupName filter).2).2 with
    | none => rfl
    | some err =>
        rw [hscan] at hnone
        cases hnone
  · rw [if_pos (by simp [hqos])] at hnone
    cases hnone

theorem getGroupName_of_not (hgroup : groupPrefix.isPrefixOf filter = false) :
    getGroupName filter = ([], filter) := by
  rw [getGroupName, hgroup]
  rfl

theorem scan_of_subscribe {sroot : SNode S} (hgroup : groupPrefix.isPrefixOf filter = false)
    (hnone : (subscribe sroot filter granted (some sub)).2.2 = none) :
    (scan filter).2 = none := by
  have hscan := (valid_of_subscribe hnone).2
  rwa [getGroupName_of_not hgroup] at hscan

/-- A single subscription is found where its levels match. -/
theorem mem_subscribers_iff (hgroup : groupPrefix.isPrefixOf filter = false)
    (hsubscribe : (subscribe newSNode filter granted (some sub)).2.2 = none)
    (chance : Chance S) (before : Found S)
    (haccepts : (subscribers chance (subscribe newSNode filter granted (some sub)).1 topic qos
      before).2 = none) :
    sub ∈ (subscribers chance (subscribe newSNode filter granted (some sub)).1 topic qos
      before).1.subs ↔ filterMatches (levelsOf filter) (levelsOf topic) = true := by
  have hgranted := (valid_of_subscribe hsubscribe).1
  have hscan := scan_of_subscribe hgroup hsubscribe
  have hlevels : (scan filter).1 = levelsOf filter :=
    Parses.eq_levelsOf (Prod.ext rfl hscan)
  have hrefines := Refines.subscribe Refines.new filter granted (some sub)
  have hqos : validQos qos = true := by
    rw [subscribers] at haccepts
    by_contra hnot
    rw [if_pos (by simp [hnot])] at haccepts
    cases haccepts
  have htable : Table.empty.step (.subscribe filter granted (some sub)) =
      ⟨AList.singleton (levelsOf filter, sub) granted, ∅⟩ := by
    rw [Table.step, getGroupName_of_not hgroup, show scan filter = (levelsOf filter, none) from
      Prod.ext hlevels hscan]
    simp only [if_pos hgranted, Table.subscribe, if_true, Table.empty, AList.insert_empty]
  obtain ⟨found, chosen, hfound, hlength, hchosen, hperm⟩ :=
    hrefines.subscribers_eq chance rfl hqos before (Or.inr haccepts)
  rw [htable] at hchosen hperm
  have hnobody : chosen = [] := by
    cases hchosen
    rfl
  have hsubs : found.subs = (found.subs.zip found.qoss).map Prod.fst :=
    (List.map_fst_zip hlength.le).symm
  rw [hfound, hsubs, (hperm.map Prod.fst).mem_iff, hnobody]
  by_cases hmatches : filterMatches (levelsOf filter) (levelsOf topic) = true
  · simp [Table.matched, AList.singleton, hmatches]
  · simp [Table.matched, AList.singleton, hmatches]

/-- For every filter that `Subscribe` accepts and every topic that `Subscribers` accepts, the
subscriber is returned just when the filter matches the topic as documented, if and only if
they are none of those on which the tree and the documentation differ. -/
theorem returned_iff_documented (hgroup : groupPrefix.isPrefixOf filter = false)
    (hsubscribe : (subscribe newSNode filter granted (some sub)).2.2 = none)
    (chance : Chance S) (before : Found S)
    (haccepts : (subscribers chance (subscribe newSNode filter granted (some sub)).1 topic qos
      before).2 = none) :
    (sub ∈ (subscribers chance (subscribe newSNode filter granted (some sub)).1 topic qos
        before).1.subs ↔
      documentedMatch (filter.splitOn 0x2f) (topic.splitOn 0x2f) = true) ↔
      ¬ Differs (filter.splitOn 0x2f) (topic.splitOn 0x2f) := by
  have hscan := scan_of_subscribe hgroup hsubscribe
  have hlast : ∀ before after, filter.splitOn 0x2f = before ++ MWC :: after → after = [] :=
    fun _ _ => eq_nil_of_MWC hscan
  rw [mem_subscribers_iff hgroup hsubscribe chance before haccepts, levelsOf, levelsOf,
    filterMatches_map_readLevel fun _ _ => eq_nil_of_trim_MWC hscan]
  exact compared_iff_documented_iff hlast

end One

/-- A subscriber on "a/+" is found for "a/b", as documented. -/
theorem returned_iff_documented_plus :
    1 ∈ (subscribers inOrder (subscribe newSNode [0x61, 0x2f, 0x2b] 1 (some 1)).1
      [0x61, 0x2f, 0x62] 1 ⟨[], []⟩).1.subs ∧
    ¬ Differs ([0x61, 0x2f, 0x2b].splitOn 0x2f) ([0x61, 0x2f, 0x62].splitOn 0x2f) := by
  have hsubscribe : (subscribe newSNode [0x61, 0x2f, 0x2b] 1 (some 1)).2.2 = none := by decide
  have haccepts : (subscribers inOrder (subscribe newSNode [0x61, 0x2f, 0x2b] 1 (some 1)).1
      [0x61, 0x2f, 0x62] 1 ⟨[], []⟩).2 = none := by decide
  exact ⟨by decide,
    (returned_iff_documented (by decide) hsubscribe inOrder _ haccepts).mp (by decide)⟩

/-- A subscriber on "a/#" is not found for "a". -/
theorem parent_not_returned :
    groupPrefix.isPrefixOf [0x61, 0x2f, 0x23] = false ∧
    (subscribe newSNode [0x61, 0x2f, 0x23] 1 (some 1)).2.2 = none ∧
    subscribers inOrder (subscribe newSNode [0x61, 0x2f, 0x23] 1 (some 1)).1 [0x61] 1 ⟨[], []⟩ =
      (⟨[], []⟩, none) ∧
    documentedMatch ([0x61, 0x2f, 0x23].splitOn 0x2f) ([0x61].splitOn 0x2f) = true := by
  decide

end Xmqtt.Topics
