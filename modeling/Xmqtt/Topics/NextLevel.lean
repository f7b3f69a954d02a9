import Xmqtt.Topics.Levels

/-!
# What `nextTopicLevel` refuses and how it splits

A level of a topic is refused for its wildcards, for a leading `$` and for a `#` with
more levels behind it.  The scanner of `nextTopicLevel` keeps one state for the whole
level, and a `$` replaces the state that a wildcard left.  So a level is refused exactly
if it is malformed and its wildcard is not masked in that way.
-/

namespace Xmqtt.Topics

open Xmqtt.Core Xmqtt.Go Xmqtt.Message

/-! ## Malformed and masked levels -/

/-- The characters `#` and `+`. -/
def Wildcard (c : Byte) : Prop := c = 0x23 ∨ c = 0x2b

instance : DecidablePred Wildcard := fun c => inferInstanceAs (Decidable (c = 0x23 ∨ c = 0x2b))

/-- The level starts with `$`, has a wildcard beside another character, or is a `#` with a
separator behind it. -/
def Malformed (level : Level) (followed : Prop) : Prop :=
  level.head? = some 0x24 ∨ ((∃ c ∈ level, Wildcard c) ∧ 1 < level.length) ∨
    (level = MWC ∧ followed)

instance (level : Level) (followed : Prop) [Decidable followed] :
    Decidable (Malformed level followed) :=
  inferInstanceAs (Decidable (_ ∨ _ ∨ _))

/-- The level is a wildcard with a `$` right behind it, and has no other wildcard. -/
def Masked (level : Level) : Prop :=
  (level.head? = some 0x23 ∨ level.head? = some 0x2b) ∧ level[1]? = some 0x24 ∧
    ∀ c ∈ level.drop 2, ¬ Wildcard c

instance : DecidablePred Masked := fun level =>
  inferInstanceAs (Decidable ((level.head? = some 0x23 ∨ level.head? = some 0x2b) ∧
    level[1]? = some 0x24 ∧ ∀ c ∈ level.drop 2, ¬ Wildcard c))

theorem masked_cons_cons {c d : Byte} {rest : Bytes} :
    Masked (c :: d :: rest) ↔ Wildcard c ∧ d = 0x24 ∧ ∀ c ∈ rest, ¬ Wildcard c := by
  simp [Masked, Wildcard]

theorem not_malformed_nil {followed : Prop} : ¬ Malformed [] followed := by
  simp [Malformed, MWC]

theorem not_masked_singleton {c : Byte} : ¬ Masked [c] := by
  simp [Masked]

theorem not_masked_cons {c : Byte} {rest : Bytes} (hc : ¬ Wildcard c) : ¬ Masked (c :: rest) := by
  intro hmasked
  apply hc
  exact hmasked.1.imp Option.some.inj Option.some.inj

theorem malformed_singleton_iff {c : Byte} {followed : Prop} (hc : Wildcard c) :
    Malformed [c] followed ↔ c = 0x23 ∧ followed := by
  rcases hc with rfl | rfl
  · simp [Malformed, MWC]
  · simp [Malformed, MWC]

theorem malformed_of_wildcard {c d : Byte} {rest : Bytes} {followed : Prop} (hc : Wildcard c) :
    Malformed (c :: d :: rest) followed :=
  Or.inr (Or.inl ⟨⟨c, List.mem_cons_self, hc⟩, by simp⟩)

theorem masked_malformed {level : Level} {followed : Prop} (hmasked : Masked level) :
    Malformed level followed := by
  cases level with
  | nil => exact absurd hmasked.2.1 (by simp)
  | cons c level =>
      cases level with
      | nil => exact absurd hmasked not_masked_singleton
      | cons d rest => exact malformed_of_wildcard (masked_cons_cons.mp hmasked).1

/-- Behind an ordinary character every wildcard is one too many. -/
theorem malformed_cons_iff {c : Byte} {rest : Bytes} {followed : Prop} (hc : ¬ Wildcard c)
    (hdollar : c ≠ 0x24) : Malformed (c :: rest) followed ↔ ∃ d ∈ rest, Wildcard d := by
  have hne : c ≠ 0x23 := fun heq => hc (Or.inl heq)
  constructor
  · rintro (hhead | ⟨⟨d, hmem, hd⟩, -⟩ | ⟨heq, -⟩)
    · exact absurd (Option.some.inj hhead) hdollar
    · rcases List.mem_cons.mp hmem with rfl | hrest
      · exact absurd hd hc
      · exact ⟨d, hrest, hd⟩
    · exact absurd (List.cons.inj heq).1 hne
  · rintro ⟨d, hmem, hd⟩
    refine Or.inr (Or.inl ⟨⟨d, List.mem_cons_of_mem _ hmem, hd⟩, ?_⟩)
    rw [List.length_cons]
    exact Nat.succ_lt_succ (List.length_pos_of_mem hmem)

/-! ## The scanner -/

section Scanner

variable {topic level tail : Bytes} {i : ℕ} {s : ScanState}

/-- A separator or the end of the topic. -/
def Ends (tail : Bytes) : Prop := tail = [] ∨ ∃ rest, tail = 0x2f :: rest

/-- At the end of a level only the state of `#` is an error. -/
theorem loop_ends_iff (htail : Ends tail) :
    (∃ err, nextTopicLevelLoop topic i s tail = .error err) ↔ s = .stateMWC ∧ tail ≠ [] := by
  rcases htail with rfl | ⟨rest, rfl⟩
  · simp [nextTopicLevelLoop]
  · by_cases hs : s = .stateMWC
    · simp [nextTopicLevelLoop, hs]
    · rw [nextTopicLevelLoop, if_pos rfl, if_neg hs]
      split_ifs <;> simp [hs]

/-- Behind the first character and without a wildcard in the state, a wildcard is the only
error. -/
theorem loop_plain_iff (hlevel : 0x2f ∉ level) (htail : Ends tail) (hi : i ≠ 0)
    (hs : s = .stateCHR ∨ s = .stateSYS) :
    (∃ err, nextTopicLevelLoop topic i s (level ++ tail) = .error err) ↔
      ∃ c ∈ level, Wildcard c := by
  induction level generalizing i s with
  | nil =>
      rw [List.nil_append, loop_ends_iff htail]
      rcases hs with rfl | rfl <;> simp
  | cons c level ih =>
      have hsep : c ≠ 0x2f := fun heq => hlevel (heq ▸ List.mem_cons_self)
      have hrest : 0x2f ∉ level := fun hmem => hlevel (List.mem_cons_of_mem _ hmem)
      have hplain : ¬ (s = .stateMWC ∨ s = .stateSWC) := by
        rcases hs with rfl | rfl <;> simp
      rw [List.cons_append, nextTopicLevelLoop, if_neg hsep]
      by_cases hc : Wildcard c
      · rcases hc with rfl | rfl
        · simp [hi, Wildcard]
        · simp [hi, Wildcard]
      · have hmwc : c ≠ 0x23 := fun heq => hc (Or.inl heq)
        have hswc : c ≠ 0x2b := fun heq => hc (Or.inr heq)
        have hiff : (∃ d ∈ c :: level, Wildcard d) ↔ ∃ d ∈ level, Wildcard d := by
          simp [hc]
        rw [if_neg hmwc, if_neg hswc, if_neg hi, if_neg hplain, hiff]
        split_ifs
        · exact ih hrest (Nat.succ_ne_zero i) (Or.inr rfl)
        · exact ih hrest (Nat.succ_ne_zero i) (Or.inl rfl)

/-- Right behind a wildcard everything but the end of the level and `$` is an error. -/
theorem loop_wild_iff {c : Byte} (hc : Wildcard c) (hlevel : 0x2f ∉ level) (htail : Ends tail)
    (hi : i ≠ 0) :
    (∃ err, nextTopicLevelLoop topic i (if c = 0x23 then .stateMWC else .stateSWC)
        (level ++ tail) = .error err) ↔
      Malformed (c :: level) (tail ≠ []) ∧ ¬ Masked (c :: level) := by
  cases level with
  | nil =>
      rw [List.nil_append, loop_ends_iff htail, malformed_singleton_iff hc]
      rcases hc with rfl | rfl
      · simp [not_masked_singleton]
      · simp
  | cons d level =>
      have hsep : d ≠ 0x2f := fun heq => hlevel (heq ▸ List.mem_cons_self)
      have hrest : 0x2f ∉ level := fun hmem => hlevel (List.mem_cons_of_mem _ hmem)
      have hmalformed : Malformed (c :: d :: level) (tail ≠ []) := malformed_of_wildcard hc
      rw [List.cons_append, nextTopicLevelLoop, if_neg hsep, masked_cons_cons]
      by_cases hdollar : d = 0x24
      · subst hdollar
        have hgo : (∃ err, nextTopicLevelLoop topic (i + 1) .stateSYS (level ++ tail) =
            .error err) ↔ ∃ d ∈ level, Wildcard d :=
          loop_plain_iff hrest htail (Nat.succ_ne_zero i) (Or.inr rfl)
        simp only [hi, if_false, if_true, ne_eq, not_false_eq_true]
        simpa [hmalformed, hc] using hgo
      · have hwild : (if c = 0x23 then ScanState.stateMWC else .stateSWC) = .stateMWC ∨
            (if c = 0x23 then ScanState.stateMWC else .stateSWC) = .stateSWC := by
          by_cases heq : c = 0x23
          · exact Or.inl (if_pos heq)
          · exact Or.inr (if_neg heq)
        rw [if_pos hi, if_pos hi, if_neg hdollar, if_pos hwild]
        have herr : ∃ err : Err, (if d = 0x23 then Except.error (errOccupies "#")
            else if d = 0x2b then Except.error (errOccupies "+")
            else Except.error errOccupy : Except Err (Level × Bytes)) = .error err := by
          split_ifs
          · exact ⟨_, rfl⟩
          · exact ⟨_, rfl⟩
          · exact ⟨_, rfl⟩
        simp [herr, hmalformed, hdollar]

end Scanner

/-- A level is refused exactly if it is malformed and its wildcard is not masked. -/
theorem nextTopicLevel_error_iff {level tail : Bytes} (hlevel : 0x2f ∉ level)
    (htail : Ends tail) :
    (∃ err, nextTopicLevel (level ++ tail) = .error err) ↔
      Malformed level (tail ≠ []) ∧ ¬ Masked level := by
  cases level with
  | nil =>
      rw [List.nil_append, nextTopicLevel, loop_ends_iff htail]
      simp [not_malformed_nil]
  | cons c level =>
      have hsep : c ≠ 0x2f := fun heq => hlevel (heq ▸ List.mem_cons_self)
      have hrest : 0x2f ∉ level := fun hmem => hlevel (List.mem_cons_of_mem _ hmem)
      rw [nextTopicLevel, List.cons_append, nextTopicLevelLoop, if_neg hsep]
      by_cases hc : Wildcard c
      · have hgo : (∃ err, nextTopicLevelLoop (c :: (level ++ tail)) 1
            (if c = 0x23 then .stateMWC else .stateSWC) (level ++ tail) = .error err) ↔
            Malformed (c :: level) (tail ≠ []) ∧ ¬ Masked (c :: level) :=
          loop_wild_iff hc hrest htail one_ne_zero
        rw [← hgo]
        rcases hc with rfl | rfl
        · rfl
        · rfl
      · have hmwc : c ≠ 0x23 := fun heq => hc (Or.inl heq)
        have hswc : c ≠ 0x2b := fun heq => hc (Or.inr heq)
        rw [if_neg hmwc, if_neg hswc]
        by_cases hdollar : c = 0x24
        · have hmalformed : Malformed (c :: level) (tail ≠ []) := Or.inl (congrArg some hdollar)
          rw [if_pos hdollar, if_pos rfl]
          exact ⟨fun _ => ⟨hmalformed, not_masked_cons hc⟩, fun _ => ⟨_, rfl⟩⟩
        · have hplain : ¬ (ScanState.stateCHR = .stateMWC ∨ ScanState.stateCHR = .stateSWC) := by
            simp
          rw [if_neg hdollar, if_neg hplain, malformed_cons_iff hc hdollar,
            and_iff_left (not_masked_cons hc)]
          exact loop_plain_iff hrest htail (Nat.succ_ne_zero 0) (Or.inl rfl)

/-! ## The first level -/

/-- The text before the first separator. -/
def firstLevel (topic : Bytes) : Level := topic.takeWhile (· ≠ 0x2f)

/-- The text behind the first separator. -/
def afterLevel (topic : Bytes) : Bytes := (topic.dropWhile (· ≠ 0x2f)).tail

theorem firstLevel_of_notMem {level : Bytes} (hlevel : 0x2f ∉ level) :
    firstLevel level = level := by
  apply List.takeWhile_eq_self_iff.mpr
  intro c hmem
  exact decide_eq_true fun heq => hlevel (heq ▸ hmem)

theorem afterLevel_of_notMem {level : Bytes} (hlevel : 0x2f ∉ level) : afterLevel level = [] := by
  have hdrop : level.dropWhile (· ≠ 0x2f) = [] := by
    apply List.dropWhile_eq_nil_iff.mpr
    intro c hmem
    exact decide_eq_true fun heq => hlevel (heq ▸ hmem)
  rw [afterLevel, hdrop, List.tail_nil]

theorem firstLevel_append {level rest : Bytes} (hlevel : 0x2f ∉ level) :
    firstLevel (level ++ 0x2f :: rest) = level := by
  have hall : ∀ c ∈ level, decide (c ≠ 0x2f) = true := fun c hmem =>
    decide_eq_true fun heq => hlevel (heq ▸ hmem)
  rw [firstLevel, List.takeWhile_append_of_pos hall, List.takeWhile_cons_of_neg (by simp),
    List.append_nil]

theorem afterLevel_append {level rest : Bytes} (hlevel : 0x2f ∉ level) :
    afterLevel (level ++ 0x2f :: rest) = rest := by
  have hall : ∀ c ∈ level, decide (c ≠ 0x2f) = true := fun c hmem =>
    decide_eq_true fun heq => hlevel (heq ▸ hmem)
  rw [afterLevel, List.dropWhile_append_of_pos hall, List.dropWhile_cons_of_neg (by simp),
    List.tail_cons]

/-- A topic is one level, or a level, a separator and the rest. -/
theorem topic_cases (topic : Bytes) :
    0x2f ∉ topic ∨ ∃ level rest, topic = level ++ 0x2f :: rest ∧ 0x2f ∉ level := by
  by_cases hmem : 0x2f ∈ topic
  · obtain ⟨level, rest, htopic, hlevel⟩ := List.eq_append_cons_of_mem hmem
    exact Or.inr ⟨level, rest, htopic, hlevel⟩
  · exact Or.inl hmem

theorem nextTopicLevel_refuses_iff (topic : Bytes) :
    (∃ err, nextTopicLevel topic = .error err) ↔
      Malformed (firstLevel topic) (0x2f ∈ topic) ∧ ¬ Masked (firstLevel topic) := by
  rcases topic_cases topic with hnot | ⟨level, rest, rfl, hlevel⟩
  · have hiff := nextTopicLevel_error_iff hnot (Or.inl rfl)
    rw [List.append_nil] at hiff
    rw [hiff, firstLevel_of_notMem hnot]
    simp [hnot]
  · rw [nextTopicLevel_error_iff hlevel (Or.inr ⟨rest, rfl⟩), firstLevel_append hlevel]
    simp

/-- The level that is returned is the first one, but for an empty one. -/
theorem nextTopicLevel_ok_iff {topic : Bytes} (htopic : topic ≠ []) {result : Level × Bytes} :
    nextTopicLevel topic = .ok result ↔ (¬ ∃ err, nextTopicLevel topic = .error err) ∧
      result = (readLevel (firstLevel topic), afterLevel topic) := by
  have hshape : ∀ {result}, nextTopicLevel topic = .ok result →
      result = (readLevel (firstLevel topic), afterLevel topic) := by
    intro result hok
    rcases nextTopicLevel_eq_ok hok with ⟨hnot, hresult⟩ | ⟨level, rest, rfl, hlevel, hresult⟩
    · rw [hresult, firstLevel_of_notMem hnot, afterLevel_of_notMem hnot, readLevel, if_neg htopic]
    · rw [hresult, firstLevel_append hlevel, afterLevel_append hlevel, readLevel]
  cases hnext : nextTopicLevel topic with
  | error err => simp
  | ok actual =>
      rw [hshape hnext]
      simp [eq_comm]

/-! ## All levels -/

/-- Some level of the topic is refused. -/
def Stops (levels : List Level) : Prop :=
  ∃ front level back, levels = front ++ level :: back ∧ Malformed level (back ≠ []) ∧
    ¬ Masked level

theorem not_stops_nil : ¬ Stops [] := by
  rintro ⟨front, level, back, heq, -⟩
  exact absurd heq.symm (by simp)

theorem stops_cons_iff {level : Level} {levels : List Level} :
    Stops (level :: levels) ↔ (Malformed level (levels ≠ []) ∧ ¬ Masked level) ∨ Stops levels := by
  constructor
  · rintro ⟨front, stop, back, heq, hstop⟩
    cases front with
    | nil =>
        obtain ⟨rfl, rfl⟩ := List.cons.inj heq
        exact Or.inl hstop
    | cons _ front =>
        exact Or.inr ⟨front, stop, back, (List.cons.inj heq).2, hstop⟩
  · rintro (hstop | ⟨front, stop, back, rfl, hstop⟩)
    · exact ⟨[], level, levels, rfl, hstop⟩
    · exact ⟨level :: front, stop, back, rfl, hstop⟩

/-- The levels of the empty topic. -/
theorem not_stops_empty : ¬ Stops [[]] := by
  rw [stops_cons_iff]
  simp [not_malformed_nil, not_stops_nil]

/-- The first level is refused, or a level behind it. -/
theorem stops_splitOn_iff (topic : Bytes) :
    Stops (topic.splitOn 0x2f) ↔ (∃ err, nextTopicLevel topic = .error err) ∨
      Stops ((afterLevel topic).splitOn 0x2f) := by
  rw [nextTopicLevel_refuses_iff]
  rcases topic_cases topic with hnot | ⟨level, rest, rfl, hlevel⟩
  · rw [splitOn_of_notMem hnot, stops_cons_iff, firstLevel_of_notMem hnot,
      afterLevel_of_notMem hnot]
    simp [hnot, not_stops_empty, not_stops_nil]
  · have hne : rest.splitOn 0x2f ≠ [] := List.splitOnP_ne_nil _ _
    rw [splitOn_append_cons hlevel, stops_cons_iff, firstLevel_append hlevel,
      afterLevel_append hlevel]
    simp [hne]

/-- Iterating `nextTopicLevel` fails exactly if some level is refused. -/
theorem scan_error_iff (topic : Bytes) :
    (scan topic).2 ≠ none ↔ Stops (topic.splitOn 0x2f) := by
  induction hlength : topic.length using Nat.strong_induction_on generalizing topic with
  | _ length ih =>
      by_cases htopic : topic = []
      · subst htopic
        simp [not_stops_empty]
      · rw [stops_splitOn_iff]
        cases hnext : nextTopicLevel topic with
        | error err =>
            rw [scan_of_error htopic hnext]
            simp
        | ok result =>
            obtain ⟨level, rem⟩ := result
            have hlt := length_lt_of_nextTopicLevel htopic hnext
            have hrem : rem = afterLevel topic :=
              (Prod.mk.inj ((nextTopicLevel_ok_iff htopic).mp hnext).2).2
            rw [scan_of_ok htopic hnext, ih rem.length (hlength ▸ hlt) rem rfl, hrem]
            simp

/-! ## Splitting and joining -/

/-- The levels with a separator between any two. -/
def joined (levels : List Level) : Bytes := [0x2f].intercalate levels

theorem readLevel_ne_nil (level : Level) : readLevel level ≠ [] := by
  rw [readLevel]
  split_ifs with hnil
  · exact List.cons_ne_nil _ _
  · exact hnil

theorem notMem_readLevel {level : Level} (hlevel : 0x2f ∉ level) : 0x2f ∉ readLevel level := by
  rw [readLevel]
  split_ifs
  · decide
  · exact hlevel

theorem mem_of_mem_trim {levels : List Level} {level : Level} (hmem : level ∈ trim levels) :
    level ∈ levels := by
  rw [trim] at hmem
  split_ifs at hmem
  · exact List.mem_of_mem_dropLast hmem
  · exact hmem

/-- The levels that are read join to the topic exactly if none of its levels is empty. -/
theorem joined_levelsOf_iff {topic : Bytes} (htopic : topic ≠ []) :
    joined (levelsOf topic) = topic ↔ [] ∉ topic.splitOn 0x2f := by
  constructor
  · intro hjoined
    have hlevels : ∀ level ∈ levelsOf topic, 0x2f ∉ level := by
      intro level hmem
      obtain ⟨part, hpart, rfl⟩ := List.mem_map.mp hmem
      exact notMem_readLevel (notMem_of_mem_splitOn (mem_of_mem_trim hpart))
    have hne : levelsOf topic ≠ [] := by
      intro hnil
      rw [hnil] at hjoined
      exact htopic hjoined.symm
    have hsplit : topic.splitOn 0x2f = levelsOf topic := by
      have hback := List.splitOn_intercalate 0x2f hlevels hne
      rwa [← joined, hjoined] at hback
    rw [hsplit]
    intro hmem
    obtain ⟨part, -, hpart⟩ := List.mem_map.mp hmem
    exact readLevel_ne_nil part hpart
  · intro hempty
    rw [levelsOf_eq_splitOn hempty]
    exact List.intercalate_splitOn _

/-- `nextTopicLevel` refuses the malformed levels and no others, returns the first level and
what is behind it, and its levels join to the topic. -/
structure SplitsExactly (topic : Bytes) : Prop where
  refuses : (∃ err, nextTopicLevel topic = .error err) ↔
    Malformed (firstLevel topic) (0x2f ∈ topic)
  reads : ¬ Malformed (firstLevel topic) (0x2f ∈ topic) →
    nextTopicLevel topic = .ok (firstLevel topic, afterLevel topic)
  joins : ∀ levels, scan topic = (levels, none) → joined levels = topic

/-- The first level is neither empty nor masked, and a topic with an empty level further on is
refused at some level. -/
theorem splitsExactly_iff {topic : Bytes} (htopic : topic ≠ []) :
    SplitsExactly topic ↔ firstLevel topic ≠ [] ∧ ¬ Masked (firstLevel topic) ∧
      ([] ∈ topic.splitOn 0x2f → Stops (topic.splitOn 0x2f)) := by
  constructor
  · intro hsplits
    refine ⟨?_, ?_, ?_⟩
    · intro hnil
      have hfine : ¬ Malformed (firstLevel topic) (0x2f ∈ topic) := by
        rw [hnil]
        exact not_malformed_nil
      have hread := ((nextTopicLevel_ok_iff htopic).mp (hsplits.reads hfine)).2
      exact readLevel_ne_nil (firstLevel topic) ((Prod.mk.inj hread).1.symm.trans hnil)
    · intro hmasked
      have hmalformed : Malformed (firstLevel topic) (0x2f ∈ topic) := masked_malformed hmasked
      exact ((nextTopicLevel_refuses_iff topic).mp (hsplits.refuses.mpr hmalformed)).2 hmasked
    · intro hempty
      by_contra hgo
      have hnone : (scan topic).2 = none := not_not.mp (mt (scan_error_iff topic).mp hgo)
      have hparses : Parses topic (scan topic).1 := Prod.ext rfl hnone
      have hjoined := hsplits.joins (scan topic).1 hparses
      rw [hparses.eq_levelsOf] at hjoined
      exact (joined_levelsOf_iff htopic).mp hjoined hempty
  · rintro ⟨hfirst, hmasked, hempty⟩
    have hrefuses : (∃ err, nextTopicLevel topic = .error err) ↔
        Malformed (firstLevel topic) (0x2f ∈ topic) := by
      rw [nextTopicLevel_refuses_iff, and_iff_left hmasked]
    refine ⟨hrefuses, ?_, ?_⟩
    · intro hfine
      apply (nextTopicLevel_ok_iff htopic).mpr
      exact ⟨fun herr => hfine (hrefuses.mp herr), by rw [readLevel, if_neg hfirst]⟩
    · intro levels hparses
      have hnone : (scan topic).2 = none := by rw [hparses]
      rw [Parses.eq_levelsOf hparses]
      apply (joined_levelsOf_iff htopic).mpr
      exact fun hmem => (scan_error_iff topic).mpr (hempty hmem) hnone

/-- The topic `a/+/#`. -/
theorem splitsExactly_filter : SplitsExactly [0x61, 0x2f, 0x2b, 0x2f, 0x23] :=
  (splitsExactly_iff (by decide)).mpr ⟨by decide, by decide, fun hempty => absurd hempty (by decide)⟩

/-- The level `#$` has a wildcard beside another character, and is read all the same. -/
theorem masked_not_refused : ¬ SplitsExactly [0x23, 0x24] := by
  intro hsplits
  obtain ⟨err, herr⟩ := hsplits.refuses.mpr (by decide)
  cases herr

end Xmqtt.Topics
