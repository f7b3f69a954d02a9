import Xmqtt.Topics.Retained

/-!
# The retained messages as a map

What the tree of retained messages is for: the last message that was retained on a topic
stands there until an empty one clears it.  Clearing a topic takes away the nodes above it
that lead nowhere else, with the messages in them, so the tree is that map as long as no such
message is there.
-/

namespace Xmqtt.Topics

open Xmqtt.Core Xmqtt.Go Xmqtt.Message

/-! ## Topics and messages -/

/-- A topic that parses, without wildcards and without an empty level. -/
structure Plain (topic : Bytes) : Prop where
  parses : (scan topic).2 = none
  noMWC : 0x23 ∉ topic
  noSWC : 0x2b ∉ topic
  noEmpty : [] ∉ topic.splitOn 0x2f

theorem parts_iff_plain (topic : Bytes) :
    ((scan topic).2 = none ∧ 0x23 ∉ topic ∧ 0x2b ∉ topic ∧
      ∀ level ∈ topic.splitOn 0x2f, level ≠ []) ↔ Plain topic := by
  constructor
  · rintro ⟨hparses, hMWC, hSWC, hlevels⟩
    exact ⟨hparses, hMWC, hSWC, fun hempty => hlevels [] hempty rfl⟩
  · intro hplain
    refine ⟨hplain.parses, hplain.noMWC, hplain.noSWC, ?_⟩
    rintro level hlevel rfl
    exact hplain.noEmpty hlevel

instance (topic : Bytes) : Decidable (Plain topic) :=
  decidable_of_iff ((scan topic).2 = none ∧ 0x23 ∉ topic ∧ 0x2b ∉ topic ∧
    ∀ level ∈ topic.splitOn 0x2f, level ≠ []) (parts_iff_plain topic)

namespace Plain

variable {topic other : Bytes}

theorem levelsOf_eq (hplain : Plain topic) : levelsOf topic = topic.splitOn 0x2f :=
  levelsOf_eq_splitOn hplain.noEmpty

theorem levels_injective (hplain : Plain topic) (hother : Plain other)
    (hlevels : levelsOf topic = levelsOf other) : topic = other := by
  rw [hplain.levelsOf_eq, hother.levelsOf_eq] at hlevels
  have hjoined := congrArg (List.intercalate [0x2f]) hlevels
  rwa [List.intercalate_splitOn, List.intercalate_splitOn] at hjoined

theorem ne_wildcard (hplain : Plain topic) {level : Level} (hlevel : level ∈ levelsOf topic) :
    level ≠ MWC ∧ level ≠ SWC := by
  rw [hplain.levelsOf_eq] at hlevel
  constructor
  · rintro rfl
    exact hplain.noMWC (mem_of_mem_splitOn hlevel (List.mem_singleton.mpr rfl))
  · rintro rfl
    exact hplain.noSWC (mem_of_mem_splitOn hlevel (List.mem_singleton.mpr rfl))

theorem levels_ne_nil (hplain : Plain topic) : levelsOf topic ≠ [] := by
  rw [hplain.levelsOf_eq]
  exact List.splitOnP_ne_nil _ _

end Plain

/-- A PUBLISH that can be stored: `Encode` accepts it, and unless it has changed since it was
decoded it has a packet id just when its QoS asks for one. -/
structure Storable (msg : PublishMessage) : Prop where
  made : msg.Made
  encodes : msg.encodes = true
  packetId : msg.dirty = false → msg.packetId.length = if msg.qos ≠ 0 then 2 else 0
  size : msg.msglen < 4294967296

/-- A copy of a message, as far as it is said what is retained. -/
structure CopyOf (msg kept : PublishMessage) : Prop where
  payload : kept.payload = msg.payload
  qos : kept.qos = msg.qos
  topic : kept.topic = msg.topic
  type : kept.type = .publish

/-- A message that can be stored is, in whatever node. -/
theorem Kept.store_eq {msg : PublishMessage} (hmsg : Storable msg) (gPacketId : UInt64)
    {here : Kept} (htype : ∀ kept, here.msg = some kept → kept.type = .publish) :
    ∃ kept buf pos, here.store msg gPacketId = (⟨some kept, buf, pos⟩, none) ∧
      CopyOf msg kept := by
  have hroom : msg.len.2 ≤ (here.room msg.len.2).bytes.length := (here.length_room _).ge
  obtain ⟨state, counter, n, hencode, -⟩ :=
    PublishMessage.encode_len hmsg.encodes hroom gPacketId
  have hfresh : (here.msg.getD newPublishMessage).type = .publish := by
    cases hhere : here.msg with
    | none => rfl
    | some kept => exact htype kept hhere
  obtain ⟨kept, count, hdecode, htopic, hpayload, hflags, -⟩ :=
    hmsg.made.decode_stored_into hfresh hmsg.encodes hmsg.packetId hmsg.size gPacketId
      ((here.room msg.len.2).bytes.drop (msg.stored gPacketId).length)
      (here.room msg.len.2).spare
  have hqos : kept.qos = msg.qos := by
    rw [PublishMessage.qos, Header.flags, hflags]
    rfl
  have hpublish : kept.type = .publish := by
    rw [Header.type, hflags]
    exact hmsg.made.type
  simp only [store, hencode, hdecode]
  exact ⟨kept, _, _, rfl, hpayload, hqos, htopic, hpublish⟩

/-- Whatever was in a node, afterwards it keeps a message. -/
theorem Kept.store_ne_nothing {msg : PublishMessage} (hmsg : Storable msg) (gPacketId : UInt64)
    (here : Kept) : (here.store msg gPacketId).1 ≠ .nothing := by
  have hroom : msg.len.2 ≤ (here.room msg.len.2).bytes.length := (here.length_room _).ge
  obtain ⟨state, counter, n, hencode, -⟩ :=
    PublishMessage.encode_len hmsg.encodes hroom gPacketId
  simp only [store, hencode]
  split <;> rintro ⟨⟩

/-! ## One call -/

section Call

variable {rroot : RNode} {msg : PublishMessage}

/-- A message is stored at the levels of its topic. -/
theorem content_rinsert (hparses : (scan msg.topic).2 = none) (gPacketId : UInt64)
    (path : List Level) :
    (rinsert rroot msg.topic msg gPacketId).1.content .nothing path =
      if path = levelsOf msg.topic then
        ((rroot.content .nothing (levelsOf msg.topic)).store msg gPacketId).1
      else rroot.content .nothing path := by
  have hlevels : (scan msg.topic).1 = levelsOf msg.topic :=
    Parses.eq_levelsOf (Prod.ext rfl hparses)
  rw [rinsert, insertLoop_eq le_rfl]
  simp only [hparses]
  rw [Trie.content_grow, hlevels]

/-- A topic is cleared, and no other one if every message above it has another one below. -/
theorem content_rremove (hkeyed : rroot.Keyed) {topic : Bytes} (hparses : (scan topic).2 = none)
    (hother : rroot.sub (levelsOf topic) ≠ none → ∀ front, front <+: levelsOf topic →
      front ≠ levelsOf topic → rroot.content .nothing front ≠ .nothing →
        ∃ other, front <+: other ∧ other ≠ front ∧ other ≠ levelsOf topic ∧
          rroot.content .nothing other ≠ .nothing)
    (path : List Level) :
    ((rremove rroot topic).toOption.getD rroot).content .nothing path =
      if path = levelsOf topic then .nothing else rroot.content .nothing path := by
  have hlevels : (scan topic).1 = levelsOf topic := Parses.eq_levelsOf (Prod.ext rfl hparses)
  have hremoved : (rremove rroot topic).toOption = _ := removeLoop_toOption le_rfl
  simp only [hparses, hlevels] at hremoved
  rw [hremoved]
  cases hnext : rroot.shrink RNode.isBare (fun _ => (Except.ok Kept.nothing : Except Err _).toOption)
      (levelsOf topic) with
  | none =>
      -- There is no node, and nothing to be cleared.
      rw [Trie.shrink_eq_none_iff] at hnext
      have hnode : rroot.sub (levelsOf topic) = none := by
        by_contra hsome
        obtain ⟨n, hn⟩ := Option.ne_none_iff_exists'.mp hsome
        cases hnext n hn
      have hempty : rroot.content .nothing (levelsOf topic) = .nothing := by
        rw [Trie.content, hnode]
        rfl
      rw [Option.getD_none]
      split_ifs with hpath
      · rw [hpath, hempty]
      · rfl
  | some next =>
      have hnode : rroot.sub (levelsOf topic) ≠ none := by
        intro hnone
        rw [Trie.shrink_eq_none_iff.mpr fun n hn => by rw [hnone] at hn; cases hn] at hnext
        cases hnext
      have hbare : ∀ n : RNode, n.isBare = true → n.children = [] := by
        intro n hn
        simpa [RNode.isBare] using hn
      obtain ⟨value, hvalue, hcontent⟩ := Trie.content_shrink hkeyed
        (fun front n m hne hfront => Trie.blank_of_other hkeyed
          (fun _ _ hsome => (Option.some.inj hsome).symm) hbare
          (fun front _ => hother hnode front) hne hfront) hnext
      rw [Option.getD_some, hcontent, ← Option.some.inj hvalue]

/-- A topic without wildcards is looked up. -/
theorem rmatchLoop_of_plain (range : RangeOrder) {rounds : ℕ} {path : List Level}
    {this : RNode} {topic : Bytes} (hparses : (scan topic).2 = none)
    (hlevels : ∀ level ∈ levelsOf topic, level ≠ MWC ∧ level ≠ SWC)
    (hrounds : topic.length ≤ rounds) (msgs : List PublishMessage) :
    rmatchLoop range rounds path this topic msgs =
      (msgs ++ (this.content .nothing (levelsOf topic)).msg.toList, none) := by
  induction rounds generalizing path this topic with
  | zero =>
      rw [List.length_eq_zero_iff.mp (Nat.le_zero.mp hrounds)]
      rfl
  | succ rounds ih =>
      rw [rmatchLoop]
      split_ifs with hnil
      · rw [List.length_eq_zero_iff.mp hnil]
        rfl
      · have htopic : topic ≠ [] := List.ne_nil_of_length_pos (by omega)
        cases hnext : nextTopicLevel topic with
        | error err =>
            rw [scan_of_error htopic hnext] at hparses
            cases hparses
        | ok result =>
            obtain ⟨level, rem⟩ := result
            have hlt := length_lt_of_nextTopicLevel htopic hnext
            rw [scan_of_ok htopic hnext] at hparses
            rw [levelsOf_of_ok htopic hnext] at hlevels ⊢
            obtain ⟨hmwc, hswc⟩ := hlevels level List.mem_cons_self
            simp only [if_neg hmwc, if_neg hswc]
            rw [Trie.content_cons]
            cases this.child level with
            | none => simp [Kept.nothing]
            | some n =>
                exact ih hparses (fun l hl => hlevels l (List.mem_cons_of_mem _ hl)) (by omega)

end Call

/-! ## Every history -/

/-- A call of `Retain`, and the counter of packet ids it finds. -/
structure RetainCall where
  msg : PublishMessage
  gPacketId : UInt64

namespace RetainCall

/-- The tree after a history of calls. -/
def after (calls : List RetainCall) : RNode :=
  calls.foldl (fun rroot call => (retain rroot call.msg call.gPacketId).1) newRNode

/-- The message that stands on a topic: that of the last call on it, unless it was empty. -/
def standing (calls : List RetainCall) (topic : Bytes) : Option PublishMessage :=
  calls.foldl (fun last call =>
    if call.msg.topic = topic then
      if call.msg.payload = [] then none else some call.msg
    else last) none

/-- A call after others: the topic is plain, a message with a payload can be stored, and
where one clears a topic that has a message, every message on a topic above has another one
below. -/
structure Spares (before : List RetainCall) (call : RetainCall) : Prop where
  plain : Plain call.msg.topic
  storable : call.msg.payload ≠ [] → Storable call.msg
  clears : call.msg.payload = [] → standing before call.msg.topic ≠ none →
    ∀ above, Plain above → standing before above ≠ none → above ≠ call.msg.topic →
      levelsOf above <+: levelsOf call.msg.topic →
        ∃ other, Plain other ∧ standing before other ≠ none ∧ other ≠ above ∧
          other ≠ call.msg.topic ∧ levelsOf above <+: levelsOf other

/-- Every call of a history spares the other topics. -/
def AllSpare (calls : List RetainCall) : Prop :=
  ∀ before call rest, calls = before ++ call :: rest → Spares before call

theorem AllSpare.front {calls more : List RetainCall} (hspare : AllSpare (calls ++ more)) :
    AllSpare calls := by
  rintro before call rest rfl
  exact hspare before call (rest ++ more) (by simp)

theorem AllSpare.last {calls : List RetainCall} {call : RetainCall}
    (hspare : AllSpare (calls ++ [call])) : Spares calls call :=
  hspare calls call [] rfl

theorem allSpare_nil : AllSpare [] := by
  intro before call rest hnil
  simp at hnil

theorem AllSpare.concat {calls : List RetainCall} {call : RetainCall} (hspare : AllSpare calls)
    (hspares : Spares calls call) : AllSpare (calls ++ [call]) := by
  intro before other rest heq
  rcases List.eq_nil_or_concat' rest with rfl | ⟨rest, last, rfl⟩
  · obtain ⟨rfl, hlast⟩ := List.append_inj' heq rfl
    exact (List.cons.inj hlast).1 ▸ hspares
  · rw [← List.cons_append, ← List.append_assoc] at heq
    obtain ⟨rfl, -⟩ := List.append_inj' heq rfl
    exact hspare before other rest rfl

variable {calls : List RetainCall} {call : RetainCall}

theorem after_concat : after (calls ++ [call]) =
    (retain (after calls) call.msg call.gPacketId).1 := by
  rw [after, List.foldl_concat]
  rfl

theorem standing_concat (topic : Bytes) : standing (calls ++ [call]) topic =
    if call.msg.topic = topic then
      if call.msg.payload = [] then none else some call.msg
    else standing calls topic := by
  rw [standing, List.foldl_concat]
  rfl

/-- A node that keeps a copy of what stands on its topic. -/
def KeepsCopy (here : Kept) : Option PublishMessage → Prop
  | none => here = .nothing
  | some msg => ∃ kept buf pos, here = ⟨some kept, buf, pos⟩ ∧ CopyOf msg kept

theorem type_of_keepsCopy {here : Kept} {msg : Option PublishMessage}
    (hcopy : KeepsCopy here msg) (kept : PublishMessage) (hkept : here.msg = some kept) :
    kept.type = .publish := by
  cases msg with
  | none =>
      rw [show here = .nothing from hcopy] at hkept
      cases hkept
  | some msg =>
      obtain ⟨copy, buf, pos, rfl, hcopy⟩ := hcopy
      exact Option.some.inj hkept ▸ hcopy.type

/-- The tree keeps what stands, and nothing else. -/
structure Keeps (rroot : RNode) (calls : List RetainCall) : Prop where
  keyed : rroot.Keyed
  thrives : rroot.Thrives (· = .nothing)
  copies : ∀ topic, Plain topic →
    KeepsCopy (rroot.content .nothing (levelsOf topic)) (standing calls topic)
  topics : ∀ path, rroot.content .nothing path ≠ .nothing → ∃ topic, Plain topic ∧
    levelsOf topic = path

theorem Keeps.new : Keeps newRNode [] where
  keyed := Trie.keyed_leaf _
  thrives := Trie.thrives_leaf _
  copies topic _ := by
    rw [newRNode, Trie.content_leaf]
    rfl
  topics path hpath := by
    rw [newRNode, Trie.content_leaf] at hpath
    exact absurd rfl hpath

variable {rroot : RNode}

theorem Keeps.standing_of_content (hkeeps : Keeps rroot calls) {path : List Level}
    (hpath : rroot.content .nothing path ≠ .nothing) :
    ∃ topic, Plain topic ∧ levelsOf topic = path ∧ standing calls topic ≠ none := by
  obtain ⟨topic, hplain, rfl⟩ := hkeeps.topics path hpath
  refine ⟨topic, hplain, rfl, fun hnone => hpath ?_⟩
  have hcopy := hkeeps.copies topic hplain
  rw [hnone] at hcopy
  exact hcopy

theorem Keeps.content_of_standing (hkeeps : Keeps rroot calls) {topic : Bytes}
    (hplain : Plain topic) (hstands : standing calls topic ≠ none) :
    rroot.content .nothing (levelsOf topic) ≠ .nothing := by
  obtain ⟨msg, hmsg⟩ := Option.ne_none_iff_exists'.mp hstands
  have hcopy := hkeeps.copies topic hplain
  rw [hmsg] at hcopy
  obtain ⟨kept, buf, pos, hkept, -⟩ := hcopy
  rw [hkept]
  rintro ⟨⟩

/-- Where a node keeps no message, there is one below. -/
theorem Keeps.exists_below (hkeeps : Keeps rroot calls) {path : List Level} (hne : path ≠ [])
    (hnode : rroot.sub path ≠ none) (hnothing : rroot.content .nothing path = .nothing) :
    ∃ below, below ≠ [] ∧ rroot.content .nothing (path ++ below) ≠ .nothing := by
  obtain ⟨n, hn⟩ := Option.ne_none_iff_exists'.mp hnode
  obtain ⟨below, m, hm, hvalue⟩ := Trie.Thrives.exists_value n (hkeeps.thrives.sub hn)
    (hkeeps.thrives path n hne hn)
  have hsub : rroot.sub (path ++ below) = some m := by
    rw [Trie.sub_append, hn]
    exact hm
  refine ⟨below, ?_, ?_⟩
  · rintro rfl
    injection hm with hsame
    rw [Trie.content_of_sub hn, hsame] at hnothing
    exact hvalue hnothing
  · rw [Trie.content_of_sub hsub]
    exact hvalue

/-- Every message above a topic that is cleared has another one below. -/
theorem Keeps.exists_other (hkeeps : Keeps rroot calls) (hspares : Spares calls call)
    (hclear : call.msg.payload = []) (hnode : rroot.sub (levelsOf call.msg.topic) ≠ none)
    {front : List Level} (hfront : front <+: levelsOf call.msg.topic)
    (hne : front ≠ levelsOf call.msg.topic) (hfilled : rroot.content .nothing front ≠ .nothing) :
    ∃ other, front <+: other ∧ other ≠ front ∧ other ≠ levelsOf call.msg.topic ∧
      rroot.content .nothing other ≠ .nothing := by
  by_cases hstands : standing calls call.msg.topic = none
  · have hcopy := hkeeps.copies _ hspares.plain
    rw [hstands] at hcopy
    obtain ⟨below, hbelow, hother⟩ :=
      hkeeps.exists_below hspares.plain.levels_ne_nil hnode hcopy
    refine ⟨_, hfront.trans (List.prefix_append _ below), ?_, ?_, hother⟩
    · rintro rfl
      have hlength := hfront.length_le
      rw [List.length_append] at hlength
      exact hbelow (List.length_eq_zero_iff.mp (by omega))
    · exact fun heq => hbelow (List.append_right_eq_self.mp heq)
  · obtain ⟨above, habove, rfl, hkept⟩ := hkeeps.standing_of_content hfilled
    obtain ⟨other, hother, hstanding, hdifferent, hnot, hprefix⟩ := hspares.clears hclear hstands
      above habove hkept (fun heq => hne (congrArg levelsOf heq)) hfront
    refine ⟨levelsOf other, hprefix, ?_, ?_, hkeeps.content_of_standing hother hstanding⟩
    · exact fun heq => hdifferent (hother.levels_injective habove heq)
    · exact fun heq => hnot (hother.levels_injective hspares.plain heq)

/-- A call changes what is kept on its own topic and on no other. -/
theorem Keeps.content_retain (hkeeps : Keeps rroot calls) (hspares : Spares calls call)
    (path : List Level) :
    (retain rroot call.msg call.gPacketId).1.content .nothing path =
      if path = levelsOf call.msg.topic then
        if call.msg.payload = [] then .nothing
        else ((rroot.content .nothing path).store call.msg call.gPacketId).1
      else rroot.content .nothing path := by
  rw [retain]
  by_cases hclear : call.msg.payload = []
  · have hremoved := content_rremove hkeeps.keyed hspares.plain.parses
      (fun hnode front => hkeeps.exists_other hspares hclear hnode) path
    rw [if_pos (by rw [hclear]; rfl), if_pos hclear, ← hremoved]
    cases rremove rroot call.msg.topic with
    | error err => rfl
    | ok next => rfl
  · rw [if_neg (by simpa using hclear), content_rinsert hspares.plain.parses, if_neg hclear]
    split_ifs with hpath
    · rw [hpath]
    · rfl

theorem Keeps.thrives_retain (hkeeps : Keeps rroot calls) (hspares : Spares calls call) :
    (retain rroot call.msg call.gPacketId).1.Thrives (· = .nothing) := by
  rw [retain]
  split_ifs with hclear
  · have hremoved : (rremove rroot call.msg.topic).toOption = _ := removeLoop_toOption le_rfl
    simp only [hspares.plain.parses] at hremoved
    cases hrremove : rremove rroot call.msg.topic with
    | error err => exact hkeeps.thrives
    | ok next =>
        rw [hrremove] at hremoved
        refine Trie.Thrives.shrink hkeeps.keyed hkeeps.thrives ?_ hremoved.symm
        intro n hfilled hchildren
        simp [RNode.isBare, hchildren] at hfilled
  · have hstorable := hspares.storable (by simpa using hclear)
    rw [rinsert, insertLoop_eq le_rfl]
    simp only [hspares.plain.parses]
    exact (hkeeps.thrives.grow fun here => Kept.store_ne_nothing hstorable _ here).1

theorem Keeps.retain (hkeeps : Keeps rroot calls) (hspares : Spares calls call) :
    Keeps (Topics.retain rroot call.msg call.gPacketId).1 (calls ++ [call]) where
  keyed := keyed_retain hkeeps.keyed _ _
  thrives := hkeeps.thrives_retain hspares
  copies topic hplain := by
    rw [hkeeps.content_retain hspares, standing_concat]
    have hcopy := hkeeps.copies topic hplain
    by_cases htopic : call.msg.topic = topic
    · rw [if_pos (congrArg levelsOf htopic.symm), if_pos htopic]
      split_ifs with hclear
      · rfl
      · obtain ⟨kept, buf, pos, hstore, hkept⟩ := Kept.store_eq (hspares.storable hclear)
          call.gPacketId (type_of_keepsCopy hcopy)
        exact ⟨kept, buf, pos, congrArg Prod.fst hstore, hkept⟩
    · rw [if_neg fun heq => htopic (hspares.plain.levels_injective hplain heq.symm),
        if_neg htopic]
      exact hcopy
  topics path hpath := by
    rw [hkeeps.content_retain hspares] at hpath
    split_ifs at hpath with heq hclear
    · exact absurd rfl hpath
    · exact ⟨_, hspares.plain, heq.symm⟩
    · exact hkeeps.topics path hpath

/-- Whatever the history, the tree keeps what stands. -/
theorem keeps_after (hspare : AllSpare calls) : Keeps (after calls) calls := by
  induction calls using List.reverseRecOn with
  | nil => exact Keeps.new
  | append_singleton calls call ih =>
      rw [after_concat]
      exact (ih hspare.front).retain hspare.last

/-- The tree is a map from topics: after every history in which every call spares the other
topics, one message is retained on a topic if the last call on it had a payload, with its
payload, its QoS and its topic, and none otherwise, and no further such call changes what is
retained on another topic. -/
theorem retained_after (hspare : AllSpare calls) {topic : Bytes} (hplain : Plain topic)
    (range : RangeOrder) :
    (match standing calls topic with
      | none => retained range (after calls) topic [] = ([], none)
      | some msg => ∃ kept, retained range (after calls) topic [] = ([kept], none) ∧
          kept.payload = msg.payload ∧ kept.qos = msg.qos ∧ kept.topic = msg.topic) ∧
    ∀ call, Spares calls call → call.msg.topic ≠ topic →
      retained range (after (calls ++ [call])) topic [] =
        retained range (after calls) topic [] := by
  have hlookup : ∀ rroot, retained range rroot topic [] =
      ((rroot.content .nothing (levelsOf topic)).msg.toList, none) := fun rroot =>
    rmatchLoop_of_plain range hplain.parses (fun _ => hplain.ne_wildcard) le_rfl []
  have hkeeps := keeps_after hspare
  constructor
  · have hcopy := hkeeps.copies topic hplain
    rw [hlookup]
    cases hstanding : standing calls topic with
    | none =>
        rw [hstanding] at hcopy
        rw [show (after calls).content .nothing (levelsOf topic) = .nothing from hcopy]
        rfl
    | some msg =>
        rw [hstanding] at hcopy
        obtain ⟨kept, buf, pos, hkept, hcopy⟩ := hcopy
        rw [hkept]
        exact ⟨kept, rfl, hcopy.payload, hcopy.qos, hcopy.topic⟩
  · intro call hspares hother
    rw [hlookup, hlookup, after_concat, hkeeps.content_retain hspares,
      if_neg fun heq => hother (hspares.plain.levels_injective hplain heq.symm)]

end RetainCall

/-- Ranges in the order in which the nodes are stored. -/
def RangeOrder.stored : RangeOrder := ⟨fun _ l => l, fun _ _ => List.Perm.refl _⟩

/-- A call that retains a payload on a topic with QoS 1. -/
def retaining (topic payload : Bytes) : RetainCall where
  msg := [.topic topic, .payload payload, .qos 1].foldl PublishMessage.perform newPublishMessage
  gPacketId := 0

namespace RetainCall

theorem storable_retaining {topic payload : Bytes}
    (hencodes : (retaining topic payload).msg.encodes = true)
    (hsize : (retaining topic payload).msg.msglen < 4294967296) :
    Storable (retaining topic payload).msg := by
  have hmade := ((PublishMessage.Made.new.perform (.topic topic)).perform
    (.payload payload)).perform (.qos 1)
  have hchanged := ((PublishMessage.changed_newPublishMessage.perform (.topic topic)).perform
    (.payload payload)).perform (.qos 1)
  refine ⟨hmade, hencodes, fun hclean => ?_, hsize⟩
  rw [show (retaining topic payload).msg.dirty = true from hchanged.dirty] at hclean
  cases hclean

/-- "a/b" is retained, then "a", and "a" is cleared. -/
def clearedAbove : List RetainCall :=
  [retaining [0x61, 0x2f, 0x62] [1], retaining [0x61] [2], retaining [0x61] []]

theorem retained_after_clearedAbove : AllSpare clearedAbove ∧
    retained .stored (after clearedAbove) [0x61] [] = ([], none) ∧
    ∃ kept, retained .stored (after clearedAbove) [0x61, 0x2f, 0x62] [] = ([kept], none) ∧
      kept.payload = [1] ∧ kept.qos = 1 ∧ kept.topic = [0x61, 0x2f, 0x62] := by
  have hfirst : Spares [] (retaining [0x61, 0x2f, 0x62] [1]) :=
    ⟨by decide, fun _ => storable_retaining (by decide +kernel) (by decide), nofun⟩
  have hsecond : Spares [retaining [0x61, 0x2f, 0x62] [1]] (retaining [0x61] [2]) :=
    ⟨by decide, fun _ => storable_retaining (by decide +kernel) (by decide), nofun⟩
  have hplain : Plain [0x61] := by decide
  have hthird : Spares [retaining [0x61, 0x2f, 0x62] [1], retaining [0x61] [2]]
      (retaining [0x61] []) := by
    refine ⟨hplain, fun hpayload => absurd rfl hpayload, ?_⟩
    -- Nothing is above a topic of one level.
    intro _ _ above habove _ hne hbelow
    refine absurd (habove.levels_injective hplain (hbelow.eq_of_length_le ?_)) hne
    exact List.length_pos_iff.mpr habove.levels_ne_nil
  have hspare : AllSpare clearedAbove :=
    ((allSpare_nil.concat hfirst).concat hsecond).concat hthird
  exact ⟨hspare, (retained_after hspare hplain .stored).1,
    (retained_after hspare (by decide : Plain [0x61, 0x2f, 0x62]) .stored).1⟩

/-- "a" is retained, then "a/b", and "a/b" is cleared. -/
def clearedBelow : List RetainCall :=
  [retaining [0x61] [1], retaining [0x61, 0x2f, 0x62] [2], retaining [0x61, 0x2f, 0x62] []]

/-- The message on "a" is lost. -/
theorem clearedBelow_loses_parent : (∀ call ∈ clearedBelow, Plain call.msg.topic) ∧
    standing clearedBelow [0x61] ≠ none ∧
    retained .stored (after clearedBelow) [0x61] [] = ([], none) := by
  decide +kernel

end RetainCall

end Xmqtt.Topics
