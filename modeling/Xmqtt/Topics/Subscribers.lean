import Mathlib.Data.List.AList
import Xmqtt.Topics.Levels

/-!
# The subscription tree

`snode` and the methods `Subscribe`, `Unsubscribe` and `Subscribers` of
`memtopics.go`.  The order in which Go ranges over a map, and the numbers that
`rand.Intn` returns, are parameters.
-/

namespace Xmqtt.Topics

open Xmqtt.Core Xmqtt.Go Xmqtt.Message

/-- The subscribers of an `snode`, which are compared as pointers.  `subs` and `qos` are read
in step, nobody is in `subs` twice, and no group is empty. -/
@[ext]
structure Subs (S : Type) where
  subs : List S
  qos : Bytes
  groupSubs : AList fun _ : Bytes => List S
  parallel : qos.length = subs.length
  distinct : subs.Nodup
  populated : ∀ group ∈ groupSubs.entries, group.2 ≠ []

/-- An `snode`: its subscribers, and `snodes` below it. -/
abbrev SNode (S : Type) := Trie Level (Subs S)

def newSubs {S : Type} : Subs S where
  subs := []
  qos := []
  groupSubs := ∅
  parallel := rfl
  distinct := List.nodup_nil
  populated := fun _ hmem => absurd hmem List.not_mem_nil

def newSNode {S : Type} : SNode S := .leaf newSubs

namespace Subs

variable {S : Type}

theorem populated_insert {groups : AList fun _ : Bytes => List S}
    (hgroups : ∀ group ∈ groups.entries, group.2 ≠ []) {name : Bytes} {members : List S}
    (hmembers : members ≠ []) :
    ∀ group ∈ (groups.insert name members).entries, group.2 ≠ [] := by
  intro group hmem
  rcases List.mem_cons.mp hmem with rfl | hrest
  · exact hmembers
  · exact hgroups group ((List.kerase_sublist name groups.entries).subset hrest)

variable [DecidableEq S]

/-- A subscriber that is there gets the new QoS, another is added. -/
def add (this : Subs S) (qos : Byte) (sub : S) : Subs S :=
  if hmem : sub ∈ this.subs then
    { this with
      qos := this.qos.set (this.subs.idxOf sub) qos
      parallel := by rw [List.length_set, this.parallel] }
  else
    { this with
      subs := this.subs ++ [sub]
      qos := this.qos ++ [qos]
      parallel := by rw [List.length_append, List.length_append, this.parallel]; rfl
      distinct := by
        refine this.distinct.append (List.nodup_singleton _) ?_
        rwa [List.disjoint_singleton] }

/-- A subscriber joins a group, as often as asked to. -/
def join (this : Subs S) (group : Bytes) (sub : S) : Subs S where
  subs := this.subs
  qos := this.qos
  groupSubs := this.groupSubs.insert group ((this.groupSubs.lookup group).getD [] ++ [sub])
  parallel := this.parallel
  distinct := this.distinct
  populated := populated_insert this.populated (List.append_ne_nil_of_right_ne_nil _ (by simp))

def remove (this : Subs S) (sub : S) : Option (Subs S) :=
  if hmem : sub ∈ this.subs then
    some
      { this with
        subs := this.subs.eraseIdx (this.subs.idxOf sub)
        qos := this.qos.eraseIdx (this.subs.idxOf sub)
        parallel := by
          have hlt := List.idxOf_lt_length_of_mem hmem
          rw [List.length_eraseIdx_of_lt hlt, List.length_eraseIdx_of_lt (this.parallel ▸ hlt),
            this.parallel]
        distinct := this.distinct.sublist (List.eraseIdx_sublist _ _) }
  else none

/-- A group goes with its last member. -/
def leave (this : Subs S) (group : Bytes) (sub : S) : Option (Subs S) :=
  match this.groupSubs.lookup group with
  | none => none
  | some gsubs =>
      if sub ∈ gsubs then
        let temp := gsubs.eraseIdx (gsubs.idxOf sub)
        if htemp : 0 < temp.length then
          some
            { this with
              groupSubs := this.groupSubs.insert group temp
              populated := populated_insert this.populated (List.ne_nil_of_length_pos htemp) }
        else
          some
            { this with
              groupSubs := this.groupSubs.erase group
              populated := fun other hmem => this.populated other
                ((List.kerase_sublist group this.groupSubs.entries).subset hmem) }
      else none

end Subs

section Methods

variable {S : Type} [DecidableEq S]

def sinsert (this : SNode S) (group topic : Bytes) (qos : Byte) (sub : S) :
    SNode S × Option Err :=
  insertLoop id newSubs (fun here =>
    (if group = [] then here.add qos sub else here.join group sub, none)) topic.length this topic

/-- No subscribers, no groups and no `snodes`. -/
def SNode.isDead (n : SNode S) : Bool :=
  n.value.groupSubs.entries.length = 0 && n.value.subs.length = 0 && n.children.length = 0

/-- Without a subscriber all subscribers and groups go. -/
def sremoveHere (group : Bytes) (sub : Option S) (here : Subs S) : Except Err (Subs S) :=
  match sub with
  | none => .ok newSubs
  | some sub =>
      match if group = [] then here.remove sub else here.leave group sub with
      | some here => .ok here
      | none => .error (.errorf "memtopics/remove: No topic found for subscriber" [])

def sremove (this : SNode S) (group topic : Bytes) (sub : Option S) : Except Err (SNode S) :=
  removeLoop SNode.isDead (.errorf "memtopics/remove: No topic found" []) (sremoveHere group sub)
    topic.length this topic

def maxQosAllowed : Byte := qosExactlyOnce

/-- `Subscribe`, which leaves the nodes that it has made before an error. -/
def subscribe (sroot : SNode S) (topic : Bytes) (qos : Byte) (sub : Option S) :
    SNode S × Byte × Option Err :=
  if !validQos qos then
    (sroot, qosFailure, some (.errorf "Invalid QoS %d" [.int qos.toNat]))
  else
    match sub with
    | none => (sroot, qosFailure, some (.errorf "Subscriber cannot be nil" []))
    | some sub =>
        let qos := if maxQosAllowed < qos then maxQosAllowed else qos
        match sinsert sroot (getGroupName topic).1 (getGroupName topic).2 qos sub with
        | (sroot, some err) => (sroot, qosFailure, some err)
        | (sroot, none) => (sroot, qos, none)

def unsubscribe (sroot : SNode S) (topic : Bytes) (sub : Option S) : SNode S × Option Err :=
  match sremove sroot (getGroupName topic).1 (getGroupName topic).2 sub with
  | .error err => (sroot, some err)
  | .ok sroot => (sroot, none)

/-- A call that changes the tree. -/
inductive Call (S : Type) where
  | subscribe (topic : Bytes) (qos : Byte) (sub : Option S)
  | unsubscribe (topic : Bytes) (sub : Option S)
  deriving DecidableEq, Repr

def step (sroot : SNode S) : Call S → SNode S
  | .subscribe topic qos sub => (subscribe sroot topic qos sub).1
  | .unsubscribe topic sub => (unsubscribe sroot topic sub).1

/-- The tree after a history of calls. -/
def after (calls : List (Call S)) : SNode S := calls.foldl step newSNode

end Methods

/-! ## `Subscribers` -/

/-- What one call of `Subscribers` leaves to chance, at each node by its path: the order of its
`snodes` and of its groups, and the member of a group that is drawn. -/
structure Chance (S : Type) where
  snodes : List Level → List (Sigma fun _ : Level => SNode S) →
    List (Sigma fun _ : Level => SNode S)
  groups : List Level → List (Sigma fun _ : Bytes => List S) →
    List (Sigma fun _ : Bytes => List S)
  intn : List Level → Bytes → ℕ → ℕ
  snodes_perm : ∀ path l, (snodes path l).Perm l
  groups_perm : ∀ path l, (groups path l).Perm l
  intn_lt : ∀ path group n, 0 < n → intn path group n < n

/-- The slices that `Subscribers` fills. -/
structure Found (S : Type) where
  subs : List S
  qoss : Bytes
  deriving DecidableEq, Repr

section Subscribers

variable {S : Type} (chance : Chance S)

/-- The member that a group is represented by. -/
def drawn (path : List Level) (name : Bytes) (gsubs : List S) : Option S :=
  if gsubs.length = 1 then gsubs[0]? else gsubs[chance.intn path name gsubs.length]?

/-- All subscribers with the smaller QoS, and one of each group with QoS 1. -/
def matchQos (path : List Level) (this : Subs S) (qos : Byte) (found : Found S) : Found S :=
  (chance.groups path this.groupSubs.entries).foldl
    (fun found group =>
      ⟨found.subs ++ (drawn chance path group.1 group.2).toList, found.qoss ++ [1]⟩)
    ⟨found.subs ++ this.subs,
      found.qoss ++ this.qos.map fun granted => if qos ≤ granted then qos else granted⟩

/-- A `range` over a map whose body may return with an error. -/
def rangeLoop {α β : Type} (body : α → β → β × Option Err) : List α → β → β × Option Err
  | [], acc => (acc, none)
  | entry :: rest, acc =>
      match body entry acc with
      | (acc, some err) => (acc, some err)
      | (acc, none) => rangeLoop body rest acc

def smatchLoop (qos : Byte) :
    ℕ → List Level → SNode S → Bytes → Found S → Found S × Option Err
  | 0, path, this, _, found => (matchQos chance path this.value qos found, none)
  | rounds + 1, path, this, topic, found =>
      if topic.length = 0 then (matchQos chance path this.value qos found, none)
      else
        match nextTopicLevel topic with
        | .error err => (found, some err)
        | .ok (level, rem) =>
            rangeLoop (fun entry found =>
              if entry.1 = MWC then
                (matchQos chance (path ++ [entry.1]) entry.2.value qos found, none)
              else if entry.1 = SWC ∨ entry.1 = level then
                smatchLoop qos rounds (path ++ [entry.1]) entry.2 rem found
              else (found, none)) (chance.snodes path this.children) found

def smatch (this : SNode S) (topic : Bytes) (qos : Byte) (found : Found S) :
    Found S × Option Err :=
  smatchLoop chance qos topic.length [] this topic found

def subscribers (sroot : SNode S) (topic : Bytes) (qos : Byte) (found : Found S) :
    Found S × Option Err :=
  if !validQos qos then (found, some (.errorf "Invalid QoS %d" [.int qos.toNat]))
  else smatch chance sroot topic qos ⟨[], []⟩

end Subscribers

end Xmqtt.Topics
