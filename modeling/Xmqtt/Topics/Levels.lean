import Xmqtt.Core.Trie
import Xmqtt.Go.Split
import Xmqtt.Message.Header

/-!
# Topic levels

Both trees of `memtopics.go` are walked level by level: every step reads the next
level off the topic with `nextTopicLevel` and goes on with the rest.  The walks
that insert and remove are the same for subscriptions and for retained messages.
Here they are related to the list of levels that a topic has as a whole.
-/

namespace Xmqtt.Topics

open Xmqtt.Core Xmqtt.Go Xmqtt.Message

abbrev Level := Bytes

/-- The multi-level wildcard `#`. -/
def MWC : Level := [0x23]

/-- The single-level wildcard `+`. -/
def SWC : Level := [0x2b]

/-! ## `nextTopicLevel` -/

inductive ScanState where
  | stateCHR
  | stateMWC
  | stateSWC
  | stateSYS
  deriving DecidableEq, Repr

def errNotLastLevel : Err := .errorf ("memtopics/nextTopicLevel: Multi-level wildcard found " ++
  "in topic and it's not at the last level") []

def errOccupies (wildcard : String) : Err := .errorf ("memtopics/nextTopicLevel: Wildcard " ++
  "character '" ++ wildcard ++ "' must occupy entire topic level") []

def errDollar : Err := .errorf "memtopics/nextTopicLevel: Cannot publish to $ topics" []

def errOccupy : Err := .errorf ("memtopics/nextTopicLevel: Wildcard characters '#' and '+' " ++
  "must occupy entire topic level") []

/-- The loop over the characters of the topic from index `i` on. -/
def nextTopicLevelLoop (topic : Bytes) : ℕ → ScanState → Bytes → Except Err (Level × Bytes)
  | _, _, [] => .ok (topic, [])
  | i, s, c :: rest =>
      if c = 0x2f then
        if s = .stateMWC then .error errNotLastLevel
        -- An empty level is read as the wildcard.
        else if i = 0 then .ok (SWC, topic.drop (i + 1))
        else .ok (topic.take i, topic.drop (i + 1))
      else if c = 0x23 then
        if i ≠ 0 then .error (errOccupies "#")
        else nextTopicLevelLoop topic (i + 1) .stateMWC rest
      else if c = 0x2b then
        if i ≠ 0 then .error (errOccupies "+")
        else nextTopicLevelLoop topic (i + 1) .stateSWC rest
      else if c = 0x24 then
        if i = 0 then .error errDollar
        else nextTopicLevelLoop topic (i + 1) .stateSYS rest
      else if s = .stateMWC ∨ s = .stateSWC then .error errOccupy
      else nextTopicLevelLoop topic (i + 1) .stateCHR rest

/-- The first level of a topic and what is behind it. -/
def nextTopicLevel (topic : Bytes) : Except Err (Level × Bytes) :=
  nextTopicLevelLoop topic 0 .stateCHR topic

/-- What the loop returns: the characters up to the next separator, or to the end. -/
theorem nextTopicLevelLoop_eq_ok {topic chars : Bytes} {i : ℕ} {s : ScanState}
    {result : Level × Bytes} (hchars : topic.drop i = chars) (hi : i ≤ topic.length)
    (hok : nextTopicLevelLoop topic i s chars = .ok result) :
    (0x2f ∉ chars ∧ result = (topic, [])) ∨
      ∃ level rest, chars = level ++ 0x2f :: rest ∧ 0x2f ∉ level ∧
        result = (if i + level.length = 0 then SWC else topic.take (i + level.length), rest) := by
  induction chars generalizing i s with
  | nil =>
      injection hok with hresult
      exact Or.inl ⟨List.not_mem_nil, hresult.symm⟩
  | cons c chars ih =>
      have hnext : topic.drop (i + 1) = chars := by
        rw [← List.drop_drop, hchars]
        rfl
      have hlt : i + 1 ≤ topic.length := by
        by_contra hge
        have hnil : topic.drop i = [] := List.drop_eq_nil_of_le (by omega)
        rw [hnil] at hchars
        cases hchars
      rw [nextTopicLevelLoop] at hok
      by_cases hsep : c = 0x2f
      · refine Or.inr ⟨[], chars, by rw [hsep]; rfl, List.not_mem_nil, ?_⟩
        rw [if_pos hsep, hnext] at hok
        split_ifs at hok with hmwc hzero
        · injection hok with hresult
          rw [← hresult, List.length_nil, Nat.add_zero, if_pos hzero]
        · injection hok with hresult
          rw [← hresult, List.length_nil, Nat.add_zero, if_neg hzero]
      · -- Whatever the character is, the loop goes on behind it or fails.
        have hgo : ∃ s, nextTopicLevelLoop topic (i + 1) s chars = .ok result := by
          rw [if_neg hsep] at hok
          split_ifs at hok
          · exact ⟨_, hok⟩
          · exact ⟨_, hok⟩
          · exact ⟨_, hok⟩
          · exact ⟨_, hok⟩
        obtain ⟨s', hok⟩ := hgo
        rcases ih hnext hlt hok with ⟨hnot, hresult⟩ | ⟨level, rest, rfl, hnot, hresult⟩
        · exact Or.inl ⟨fun hmem => (List.mem_cons.mp hmem).elim (hsep ·.symm) hnot, hresult⟩
        · refine Or.inr ⟨c :: level, rest, rfl,
            fun hmem => (List.mem_cons.mp hmem).elim (hsep ·.symm) hnot, ?_⟩
          rw [hresult, List.length_cons, Nat.add_assoc, Nat.add_comm 1]

theorem nextTopicLevel_eq_ok {topic : Bytes} {result : Level × Bytes}
    (hok : nextTopicLevel topic = .ok result) :
    (0x2f ∉ topic ∧ result = (topic, [])) ∨
      ∃ level rest, topic = level ++ 0x2f :: rest ∧ 0x2f ∉ level ∧
        result = (if level = [] then SWC else level, rest) := by
  rcases nextTopicLevelLoop_eq_ok (List.drop_zero) (Nat.zero_le _) hok with
    hlast | ⟨level, rest, htopic, hnot, hresult⟩
  · exact Or.inl hlast
  · refine Or.inr ⟨level, rest, htopic, hnot, ?_⟩
    rw [hresult]
    simp only [Nat.zero_add, List.length_eq_zero_iff]
    rw [htopic, List.take_left]

/-- What is behind a level is shorter than the topic. -/
theorem length_lt_of_nextTopicLevel {topic : Bytes} {level : Level} {rem : Bytes}
    (htopic : topic ≠ []) (hok : nextTopicLevel topic = .ok (level, rem)) :
    rem.length < topic.length := by
  rcases nextTopicLevel_eq_ok hok with ⟨-, hresult⟩ | ⟨front, rest, rfl, -, hresult⟩
  · rw [(Prod.mk.inj hresult).2]
    exact List.length_pos_iff.mpr htopic
  · rw [(Prod.mk.inj hresult).2, List.length_append, List.length_cons]
    omega

/-! ## All levels -/

/-- The levels in front of the first error, and the error. -/
def scanLoop : ℕ → Bytes → List Level × Option Err
  | 0, _ => ([], none)
  | rounds + 1, topic =>
      if topic.length = 0 then ([], none)
      else
        match nextTopicLevel topic with
        | .error err => ([], some err)
        | .ok (level, rem) => (level :: (scanLoop rounds rem).1, (scanLoop rounds rem).2)

/-- What iterating `nextTopicLevel` makes of a topic.  Every level takes a byte at least. -/
def scan (topic : Bytes) : List Level × Option Err := scanLoop topic.length topic

/-- The topic has these levels. -/
def Parses (topic : Bytes) (levels : List Level) : Prop := scan topic = (levels, none)

instance (topic : Bytes) (levels : List Level) : Decidable (Parses topic levels) :=
  inferInstanceAs (Decidable (scan topic = (levels, none)))

theorem scanLoop_eq_scan {rounds : ℕ} {topic : Bytes} (hrounds : topic.length ≤ rounds) :
    scanLoop rounds topic = scan topic := by
  suffices hsame : ∀ rounds rounds' topic, topic.length ≤ rounds → topic.length ≤ rounds' →
      scanLoop rounds topic = scanLoop rounds' topic from hsame _ _ _ hrounds le_rfl
  intro rounds
  induction rounds with
  | zero =>
      intro rounds' topic hle _
      have hnil : topic.length = 0 := Nat.le_zero.mp hle
      cases rounds' with
      | zero => rfl
      | succ rounds' => rw [scanLoop, scanLoop, if_pos hnil]
  | succ rounds ih =>
      intro rounds' topic hle hle'
      by_cases hnil : topic.length = 0
      · cases rounds' with
        | zero => rw [scanLoop, scanLoop, if_pos hnil]
        | succ rounds' => rw [scanLoop, scanLoop, if_pos hnil, if_pos hnil]
      · obtain ⟨rounds', rfl⟩ : ∃ n, rounds' = n + 1 := ⟨rounds' - 1, by omega⟩
        rw [scanLoop, scanLoop, if_neg hnil, if_neg hnil]
        cases hnext : nextTopicLevel topic with
        | error err => rfl
        | ok result =>
            obtain ⟨level, rem⟩ := result
            have hlt := length_lt_of_nextTopicLevel (List.ne_nil_of_length_pos (by omega)) hnext
            simp only
            rw [ih rounds' rem (by omega) (by omega)]

@[simp] theorem scan_nil : scan [] = ([], none) := rfl

theorem scan_of_error {topic : Bytes} {err : Err} (htopic : topic ≠ [])
    (hnext : nextTopicLevel topic = .error err) : scan topic = ([], some err) := by
  obtain ⟨rounds, hrounds⟩ := Nat.exists_eq_succ_of_ne_zero (List.length_pos_iff.mpr htopic).ne'
  rw [scan, hrounds, scanLoop, if_neg (List.length_pos_iff.mpr htopic).ne', hnext]

theorem scan_of_ok {topic : Bytes} {level : Level} {rem : Bytes} (htopic : topic ≠ [])
    (hnext : nextTopicLevel topic = .ok (level, rem)) :
    scan topic = (level :: (scan rem).1, (scan rem).2) := by
  have hlt := length_lt_of_nextTopicLevel htopic hnext
  obtain ⟨rounds, hrounds⟩ := Nat.exists_eq_succ_of_ne_zero (List.length_pos_iff.mpr htopic).ne'
  rw [scan, hrounds, scanLoop, if_neg (List.length_pos_iff.mpr htopic).ne', hnext]
  simp only
  rw [scanLoop_eq_scan (by omega)]

/-! ## Levels and separators -/

/-- How `nextTopicLevel` reads a level. -/
def readLevel (level : Level) : Level := if level = [] then SWC else level

/-- An empty level at the end is not read at all. -/
def trim (levels : List Level) : List Level :=
  if levels.getLast? = some [] then levels.dropLast else levels

/-- The levels of a topic as far as separators go. -/
def levelsOf (topic : Bytes) : List Level := (trim (topic.splitOn 0x2f)).map readLevel

theorem trim_cons {level : Level} {levels : List Level} (hlevels : levels ≠ []) :
    trim (level :: levels) = level :: trim levels := by
  obtain ⟨next, rest, rfl⟩ := List.exists_cons_of_ne_nil hlevels
  rw [trim, trim, List.getLast?_cons_cons, List.dropLast_cons_cons]
  split_ifs <;> rfl

@[simp] theorem levelsOf_nil : levelsOf [] = [] := rfl

theorem levelsOf_of_ok {topic : Bytes} {level : Level} {rem : Bytes} (htopic : topic ≠ [])
    (hnext : nextTopicLevel topic = .ok (level, rem)) :
    levelsOf topic = level :: levelsOf rem := by
  rcases nextTopicLevel_eq_ok hnext with ⟨hnot, hresult⟩ | ⟨front, rest, rfl, hnot, hresult⟩
  · obtain ⟨rfl, rfl⟩ := Prod.mk.inj hresult
    rw [levelsOf, splitOn_of_notMem hnot, trim, List.getLast?_singleton,
      if_neg (fun heq => htopic (Option.some.inj heq)), List.map_singleton, readLevel,
      if_neg htopic, levelsOf_nil]
  · obtain ⟨rfl, rfl⟩ := Prod.mk.inj hresult
    have hne : rem.splitOn 0x2f ≠ [] := List.splitOnP_ne_nil _ _
    rw [levelsOf, splitOn_append_cons hnot, trim_cons hne]
    rfl

/-- Without an empty level the separators are all there is to it. -/
theorem levelsOf_eq_splitOn {topic : Bytes} (hempty : [] ∉ topic.splitOn 0x2f) :
    levelsOf topic = topic.splitOn 0x2f := by
  have htrim : trim (topic.splitOn 0x2f) = topic.splitOn 0x2f :=
    if_neg fun hlast => hempty (List.mem_of_getLast? hlast)
  have hread : ∀ level ∈ topic.splitOn 0x2f, readLevel level = id level := by
    intro level hlevel
    refine if_neg ?_
    rintro rfl
    exact hempty hlevel
  rw [levelsOf, htrim, List.map_congr_left hread, List.map_id]

/-- A topic that has levels has these. -/
theorem Parses.eq_levelsOf {topic : Bytes} {levels : List Level}
    (hparses : Parses topic levels) : levels = levelsOf topic := by
  obtain ⟨n, hn⟩ : ∃ n, topic.length ≤ n := ⟨_, le_rfl⟩
  induction n generalizing topic levels with
  | zero =>
      rw [List.length_eq_zero_iff.mp (Nat.le_zero.mp hn)] at hparses ⊢
      exact (Prod.mk.inj hparses).1.symm
  | succ n ih =>
      by_cases htopic : topic = []
      · rw [htopic] at hparses ⊢
        exact (Prod.mk.inj hparses).1.symm
      · cases hnext : nextTopicLevel topic with
        | error err =>
            rw [Parses, scan_of_error htopic hnext] at hparses
            cases hparses
        | ok result =>
            obtain ⟨level, rem⟩ := result
            have hlt := length_lt_of_nextTopicLevel htopic hnext
            rw [Parses, scan_of_ok htopic hnext] at hparses
            obtain ⟨rfl, hnone⟩ := Prod.mk.inj hparses
            have hrem : Parses rem (scan rem).1 := Prod.ext rfl hnone
            rw [levelsOf_of_ok htopic hnext, ← ih hrem (by omega)]

/-! ## The walks -/

section Walks

variable {ν : Type}

/-- The recursion of `sinsert` and `rinsert`: `here` is what is done in the last node, and
`refused` makes an error of `nextTopicLevel` one of the faults that `here` can have. -/
def insertLoop {ε : Type} (refused : Err → ε) (empty : ν) (here : ν → ν × Option ε) :
    ℕ → Trie Level ν → Bytes → Trie Level ν × Option ε
  | 0, this, _ => (this.setValue (here this.value).1, (here this.value).2)
  | rounds + 1, this, topic =>
      if topic.length = 0 then (this.setValue (here this.value).1, (here this.value).2)
      else
        match nextTopicLevel topic with
        | .error err => (this, some (refused err))
        | .ok (level, rem) =>
            let inserted :=
              insertLoop refused empty here rounds ((this.child level).getD (.leaf empty)) rem
            (this.setChild level inserted.1, inserted.2)

/-- The recursion of `sremove` and `rremove`, which changes nothing if it fails. -/
def removeLoop (prunable : Trie Level ν → Bool) (missing : Err) (here : ν → Except Err ν) :
    ℕ → Trie Level ν → Bytes → Except Err (Trie Level ν)
  | 0, this, _ => (here this.value).map this.setValue
  | rounds + 1, this, topic =>
      if topic.length = 0 then (here this.value).map this.setValue
      else
        match nextTopicLevel topic with
        | .error err => .error err
        | .ok (level, rem) =>
            match this.child level with
            | none => .error missing
            | some n => (removeLoop prunable missing here rounds n rem).map fun n =>
                if prunable n then this.eraseChild level else this.setChild level n

/-- An insertion grows the tree along the levels of the topic.  The nodes in front of an
error are made all the same. -/
theorem insertLoop_eq {ε : Type} {refused : Err → ε} {empty : ν} {here : ν → ν × Option ε}
    {rounds : ℕ} {this : Trie Level ν} {topic : Bytes} (hrounds : topic.length ≤ rounds) :
    insertLoop refused empty here rounds this topic =
      match (scan topic).2 with
      | some err => (this.grow empty id (scan topic).1, some (refused err))
      | none => (this.grow empty (fun value => (here value).1) (scan topic).1,
          (here (this.content empty (scan topic).1)).2) := by
  induction rounds generalizing this topic with
  | zero =>
      rw [List.length_eq_zero_iff.mp (Nat.le_zero.mp hrounds)]
      rfl
  | succ rounds ih =>
      by_cases htopic : topic = []
      · rw [htopic]
        rfl
      · rw [insertLoop, if_neg (mt List.length_eq_zero_iff.mp htopic)]
        cases hnext : nextTopicLevel topic with
        | error err =>
            rw [scan_of_error htopic hnext]
            exact congrArg (·, some (refused err)) this.setValue_value.symm
        | ok result =>
            obtain ⟨level, rem⟩ := result
            have hlt := length_lt_of_nextTopicLevel htopic hnext
            rw [scan_of_ok htopic hnext]
            simp only
            rw [ih (by omega)]
            cases (scan rem).2 with
            | some err => rfl
            | none =>
                simp only [Trie.content_cons_getD]
                rfl

theorem map_toOption {ε α β : Type} (result : Except ε α) (f : α → β) :
    (result.map f).toOption = result.toOption.map f := by
  cases result <;> rfl

/-- A removal shrinks the tree along the levels of the topic. -/
theorem removeLoop_toOption {prunable : Trie Level ν → Bool} {missing : Err}
    {here : ν → Except Err ν} {rounds : ℕ} {this : Trie Level ν} {topic : Bytes}
    (hrounds : topic.length ≤ rounds) :
    (removeLoop prunable missing here rounds this topic).toOption =
      match (scan topic).2 with
      | some _ => none
      | none => this.shrink prunable (fun value => (here value).toOption) (scan topic).1 := by
  induction rounds generalizing this topic with
  | zero =>
      rw [List.length_eq_zero_iff.mp (Nat.le_zero.mp hrounds)]
      exact map_toOption _ _
  | succ rounds ih =>
      by_cases htopic : topic = []
      · rw [htopic]
        exact map_toOption _ _
      · rw [removeLoop, if_neg (mt List.length_eq_zero_iff.mp htopic)]
        cases hnext : nextTopicLevel topic with
        | error err => rw [scan_of_error htopic hnext]; rfl
        | ok result =>
            obtain ⟨level, rem⟩ := result
            have hlt := length_lt_of_nextTopicLevel htopic hnext
            rw [scan_of_ok htopic hnext]
            simp only [Trie.shrink]
            cases this.child level with
            | none => cases (scan rem).2 <;> rfl
            | some n =>
                simp only [map_toOption]
                rw [ih (by omega)]
                cases (scan rem).2 <;> rfl

end Walks

/-! ## Groups -/

/-- The prefix `$group/`. -/
def groupPrefix : Bytes := [0x24, 0x67, 0x72, 0x6f, 0x75, 0x70, 0x2f]

/-- The group of a topic `$group/name/topic`, and the topic in the group, which starts with
the separator.  Other topics have no group. -/
def getGroupName (topic : Bytes) : Bytes × Bytes :=
  if groupPrefix.isPrefixOf topic then
    let subTopic := topic.drop groupPrefix.length
    match subTopic.findIdx? (· == 0x2f) with
    | none => ([], topic)
    | some idx => (subTopic.take idx, subTopic.drop idx)
  else ([], topic)

end Xmqtt.Topics
