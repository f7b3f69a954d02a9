import Xmqtt.Message.Stored
import Xmqtt.Topics.Subscribers

/-!
# The retained messages

The second tree of `memtopics.go`, with a message at the end of every topic that one is
retained on.  A node reuses its buffer and its message for the next message on its topic.
-/

namespace Xmqtt.Topics

open Xmqtt.Core Xmqtt.Go Xmqtt.Message

/-- What a node keeps: its message, the buffer for the next one, and the place of the topic in
that buffer as long as the message lies in it. -/
structure Kept where
  msg : Option PublishMessage
  buf : Slice
  topicAt : Option ℕ
  deriving DecidableEq, Repr

abbrev RNode := Trie Level Kept

/-- How `Retain` can go wrong.  A panic is no error that it returns, and what the tree holds
behind one is not said. -/
inductive Fault where
  | err (err : Err)
  | panicked
  deriving DecidableEq, Repr

/-- Where the topic stands in the bytes of a PUBLISH. -/
def topicAt (buf : Slice) : Option ℕ :=
  match (newHeader .publish).decode buf with
  | .done _ hn => some (hn + 2)
  | _ => none

namespace Kept

def nothing : Kept := ⟨none, Slice.full [], none⟩

/-- A message that lies in the buffer shows what is written there.  What is written before
`Encode` fails are at most five bytes, which end before the packet id and the payload. -/
def shown (here : Kept) (cells : Bytes) : Option PublishMessage :=
  match here.topicAt with
  | none => here.msg
  | some pos => here.msg.map fun msg =>
      { msg with
        mtypeflags := cells.headD msg.mtypeflags
        dbuf := ⟨cells.take msg.dbuf.bytes.length, cells.drop msg.dbuf.bytes.length⟩
        topic := (cells.drop pos).take msg.topic.length }

/-- The buffer for `l` bytes, the old one if there is enough space in it. -/
def room (here : Kept) (l : ℕ) : Slice :=
  if here.buf.cap < l then Slice.full (List.replicate l 0)
  else ⟨here.buf.cells.take l, here.buf.cells.drop l⟩

theorem length_room (here : Kept) (l : ℕ) : (here.room l).bytes.length = l := by
  rw [room]
  split_ifs with hcap
  · exact List.length_replicate
  · exact List.length_take_of_le (not_lt.mp hcap)

/-- Encode a message into the buffer of the node, and decode it from there again. -/
def store (msg : PublishMessage) (gPacketId : UInt64) (here : Kept) : Kept × Option Fault :=
  let buf := here.room msg.len.2
  match msg.len.1.encode buf.bytes gPacketId with
  | .panic => ({ here with buf := buf }, some .panicked)
  | .fail state _ err =>
      let buf : Slice := ⟨state.dst, buf.spare⟩
      -- The old message is not in the buffer if that is a new one.
      (if here.buf.cap < msg.len.2 then ⟨here.msg, buf, none⟩
        else ⟨here.shown buf.cells, buf, here.topicAt⟩, some (.err err))
  | .done state _ =>
      let buf : Slice := ⟨state.dst, buf.spare⟩
      match (here.msg.getD newPublishMessage).decode buf with
      | .panic => (⟨some (here.msg.getD newPublishMessage), buf, none⟩, some .panicked)
      | .fail decoded _ err => (⟨some decoded, buf, Topics.topicAt buf⟩, some (.err err))
      | .done decoded _ => (⟨some decoded, buf, Topics.topicAt buf⟩, none)

end Kept

def newRNode : RNode := .leaf .nothing

def rinsert (this : RNode) (topic : Bytes) (msg : PublishMessage) (gPacketId : UInt64) :
    RNode × Option Fault :=
  insertLoop .err .nothing (Kept.store msg gPacketId) topic.length this topic

/-- Whether a node is taken away depends on its `rnodes` only. -/
def RNode.isBare (n : RNode) : Bool := n.children.length = 0

def rremove (this : RNode) (topic : Bytes) : Except Err RNode :=
  removeLoop RNode.isBare (.errorf "memtopics/rremove: No topic found" [])
    (fun _ => .ok .nothing) topic.length this topic

/-- `Retain`, with the counter of packet ids as the call finds it. -/
def retain (rroot : RNode) (msg : PublishMessage) (gPacketId : UInt64) : RNode × Option Fault :=
  if msg.payload.length = 0 then
    match rremove rroot msg.topic with
    | .error err => (rroot, some (.err err))
    | .ok rroot => (rroot, none)
  else rinsert rroot msg.topic msg gPacketId

theorem shrink_of_rremove {rroot next : RNode} {topic : Bytes}
    (hremove : rremove rroot topic = .ok next) :
    rroot.shrink RNode.isBare (fun _ => some .nothing) (scan topic).1 = some next := by
  have hremoved : (rremove rroot topic).toOption = _ := removeLoop_toOption le_rfl
  rw [hremove] at hremoved
  cases hscan : (scan topic).2 with
  | some err =>
      rw [hscan] at hremoved
      cases hremoved
  | none =>
      rw [hscan] at hremoved
      exact hremoved.symm

theorem keyed_retain {rroot : RNode} (hkeyed : rroot.Keyed) (msg : PublishMessage)
    (gPacketId : UInt64) : (retain rroot msg gPacketId).1.Keyed := by
  rw [retain]
  split_ifs with hclear
  · cases hremove : rremove rroot msg.topic with
    | error err => exact hkeyed
    | ok next => exact hkeyed.shrink (shrink_of_rremove hremove)
  · rw [rinsert, insertLoop_eq le_rfl]
    cases (scan msg.topic).2 with
    | some err | none => exact hkeyed.grow

/-- The order in which the `rnodes` of the node at a path are ranged over. -/
structure RangeOrder where
  order : ∀ {α : Type}, List Level → List α → List α
  perm : ∀ {α : Type} (path : List Level) (l : List α), (order path l).Perm l

section Retained

variable (range : RangeOrder)

mutual

/-- All messages of a node and of those below it. -/
def allRetained (path : List Level) : RNode → List PublishMessage
  | .node value children =>
      value.msg.toList ++ (range.order path (allBelow path children)).flatten

def allBelow (path : List Level) : List (Sigma fun _ : Level => RNode) →
    List (List PublishMessage)
  | [] => []
  | ⟨key, n⟩ :: rest => allRetained (path ++ [key]) n :: allBelow path rest

end

def rmatchLoop : ℕ → List Level → RNode → Bytes → List PublishMessage →
    List PublishMessage × Option Err
  | 0, _, this, _, msgs => (msgs ++ this.value.msg.toList, none)
  | rounds + 1, path, this, topic, msgs =>
      if topic.length = 0 then (msgs ++ this.value.msg.toList, none)
      else
        match nextTopicLevel topic with
        | .error err => (msgs, some err)
        | .ok (level, rem) =>
            if level = MWC then (msgs ++ allRetained range path this, none)
            else if level = SWC then
              rangeLoop (fun entry msgs =>
                rmatchLoop rounds (path ++ [entry.1]) entry.2 rem msgs)
                (range.order path this.children) msgs
            else
              match this.child level with
              | none => (msgs, none)
              | some n => rmatchLoop rounds (path ++ [level]) n rem msgs

def rmatch (this : RNode) (topic : Bytes) (msgs : List PublishMessage) :
    List PublishMessage × Option Err :=
  rmatchLoop range topic.length [] this topic msgs

/-- `Retained` appends to the messages it is given. -/
def retained (rroot : RNode) (topic : Bytes) (msgs : List PublishMessage) :
    List PublishMessage × Option Err :=
  rmatch range rroot topic msgs

end Retained

end Xmqtt.Topics
