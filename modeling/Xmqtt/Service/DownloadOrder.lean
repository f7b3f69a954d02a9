import Xmqtt.Service.Dispatch

/-!
# Downloads in the order of the uploads

Many receivers offer messages to `MsgChan` and one goroutine takes them out.  A message may
be dropped, when the channel is full or its device is not registered; but what is
delivered comes in the order in which its sender has uploaded it, and once.
-/

namespace Xmqtt.Service

open Xmqtt.Core Xmqtt.Go Xmqtt.Message

/-- A message with the service that it came in on. -/
abbrev Upload := ServiceRef × PublishMessage

/-- The uploads of one service. -/
def uploadsOf (this : ServiceRef) (uploads : List Upload) : List Upload :=
  uploads.filter fun upload => upload.1 == this

theorem uploadsOf_append (this : ServiceRef) (first second : List Upload) :
    uploadsOf this (first ++ second) = uploadsOf this first ++ uploadsOf this second :=
  List.filter_append _ _

theorem uploadsOf_singleton_self (upload : Upload) : uploadsOf upload.1 [upload] = [upload] := by
  simp [uploadsOf]

theorem uploadsOf_singleton_of_ne {this : ServiceRef} {upload : Upload} (hne : upload.1 ≠ this) :
    uploadsOf this [upload] = [] := by
  simp [uploadsOf, hne]

/-- A service has one message in hand. -/
theorem uploadsOf_inHand {inHand : List Upload} {entry : Upload}
    (hnodup : (inHand.map Prod.fst).Nodup) (hmem : entry ∈ inHand) :
    uploadsOf entry.1 inHand = [entry] ∧ uploadsOf entry.1 (inHand.erase entry) = [] := by
  have hperm : inHand.Perm (entry :: inHand.erase entry) := List.perm_cons_erase hmem
  have hnot : entry.1 ∉ (inHand.erase entry).map Prod.fst :=
    (List.nodup_cons.mp ((hperm.map Prod.fst).nodup_iff.mp hnodup)).1
  have hnone : uploadsOf entry.1 (inHand.erase entry) = [] := by
    rw [uploadsOf, List.filter_eq_nil_iff]
    intro other hother hsame
    exact hnot (List.mem_map.mpr ⟨other, hother, beq_iff_eq.mp hsame⟩)
  refine ⟨List.perm_singleton.mp ?_, hnone⟩
  have hfilter : (uploadsOf entry.1 inHand).Perm
      (uploadsOf entry.1 ([entry] ++ inHand.erase entry)) := hperm.filter _
  rwa [uploadsOf_append, uploadsOf_singleton_self, hnone, List.append_nil] at hfilter

/-- The download that a message leads to, if its device is registered. -/
def target (msg : PublishMessage) : Option Download :=
  (route msg.topic).map fun names => downloadOf names.1 names.2 msg.payload

theorem download_eq (svcMap : List Bytes) (msg : PublishMessage) :
    download svcMap msg = target msg ∨ download svcMap msg = none := by
  rw [download, target]
  cases route msg.topic with
  | none => exact .inl rfl
  | some names =>
      dsimp only [Option.map_some]
      split_ifs
      · exact .inl rfl
      · exact .inr rfl

/-- The uploads that the steps of a run bring: messages that `processPublish` offers to
`MsgChan`, behind a PUBACK without an error. -/
def DispatchStep.upload : DispatchStep → Option Upload
  | .publish this msg reply =>
      if processPublish this msg = .acknowledge ∧ reply ≠ .failed then some (this, msg) else none
  | .enqueue _ | .take | .handle | .register _ | .unregister _ => none

namespace Dispatch

/-- The messages that the loop of `PushMsg` is through with, in order. -/
def handledMessages (state : Dispatch) : List PublishMessage :=
  match state.consumer with
  | .waiting => state.taken.reverse
  | .holding _ | .exited => state.taken.tail.reverse

/-- What holds in every interleaving, when `uploads` have come in and `entered` has gone
through the channel or is in it. -/
structure InOrder (state : Dispatch) (uploads entered : List Upload) : Prop where
  channel : entered.map Prod.snd = state.taken.reverse ++ state.msgChan
  inHand : (state.acknowledged.map Prod.fst).Nodup
  each : ∀ this, (uploadsOf this entered ++ uploadsOf this state.acknowledged).Sublist
    (uploadsOf this uploads)
  downloads : state.published.Sublist (state.handledMessages.filterMap target)
  holding : ∀ msg, state.consumer = .holding msg → state.taken.head? = some msg

theorem inOrder_start : InOrder dispatchStart [] [] where
  channel := rfl
  inHand := List.nodup_nil
  each := fun _ => List.Sublist.refl _
  downloads := List.Sublist.refl _
  holding := nofun

namespace InOrder

variable {state next : Dispatch} {uploads entered : List Upload}

theorem of_upload (hin : InOrder state uploads entered) {this : ServiceRef}
    {msg : PublishMessage} (hidle : this ∉ state.acknowledged.map Prod.fst)
    (acked : List PublishMessage) :
    InOrder { state with acknowledged := (this, msg) :: state.acknowledged, acked := acked }
      (uploads ++ [(this, msg)]) entered where
  channel := hin.channel
  inHand := List.nodup_cons.mpr ⟨hidle, hin.inHand⟩
  each := by
    intro other
    have hsublist := hin.each other
    by_cases hother : this = other
    · subst hother
      -- nothing of this service is in hand
      have hnone : uploadsOf this state.acknowledged = [] := by
        rw [uploadsOf, List.filter_eq_nil_iff]
        intro entry hentry hsame
        exact hidle (List.mem_map.mpr ⟨entry, hentry, beq_iff_eq.mp hsame⟩)
      rw [hnone, List.append_nil] at hsublist
      rw [uploadsOf_append, ← List.singleton_append, uploadsOf_append, hnone, List.append_nil]
      exact hsublist.append (List.Sublist.refl _)
    · rw [uploadsOf_append, ← List.singleton_append, uploadsOf_append,
        uploadsOf_singleton_of_ne hother, List.append_nil, List.nil_append]
      exact hsublist
  downloads := hin.downloads
  holding := hin.holding

theorem publish (hin : InOrder state uploads entered) {this : ServiceRef}
    {msg : PublishMessage} {reply : Puback}
    (hstep : state.publish this msg reply = some next) :
    InOrder next (uploads ++ (DispatchStep.publish this msg reply).upload.toList) entered := by
  rw [Dispatch.publish] at hstep
  split_ifs at hstep with hidle hack
  · cases hstep
    cases reply with
    | sent | unsent =>
        rw [DispatchStep.upload, if_pos ⟨hack, by simp⟩]
        exact hin.of_upload hidle _
    | failed =>
        rw [DispatchStep.upload, if_neg (fun hboth => hboth.2 rfl), Option.toList_none,
          List.append_nil]
        exact hin
  · cases hstep
    rw [DispatchStep.upload, if_neg (fun hboth => hack hboth.1), Option.toList_none,
      List.append_nil]
    exact hin

/-- The message in hand goes into the channel or is dropped. -/
theorem enqueue (hin : InOrder state uploads entered) {this : ServiceRef}
    (hstep : state.enqueue this = some next) : ∃ entered, InOrder next uploads entered := by
  rw [Dispatch.enqueue] at hstep
  split at hstep
  · cases hstep
  · next entry hfound =>
      have hmem : entry ∈ state.acknowledged := List.mem_of_find?_eq_some hfound
      have hnodup : ((state.acknowledged.erase entry).map Prod.fst).Nodup :=
        hin.inHand.sublist ((List.erase_sublist).map Prod.fst)
      have hleft : ∀ other, (uploadsOf other (state.acknowledged.erase entry)).Sublist
          (uploadsOf other state.acknowledged) :=
        fun other => (List.erase_sublist).filter _
      split_ifs at hstep
      · cases hstep
        refine ⟨entered ++ [entry], ?_, hnodup, fun other => ?_, hin.downloads, hin.holding⟩
        · rw [List.map_append, hin.channel, List.append_assoc]
          rfl
        · have hsublist := hin.each other
          rw [uploadsOf_append]
          by_cases hother : entry.1 = other
          · subst hother
            obtain ⟨hone, hnone⟩ := uploadsOf_inHand hin.inHand hmem
            rw [hone] at hsublist
            rw [uploadsOf_singleton_self]
            exact (congrArg _ hnone).trans (List.append_nil _) ▸ hsublist
          · rw [uploadsOf_singleton_of_ne hother, List.append_nil]
            exact ((List.Sublist.refl _).append (hleft other)).trans hsublist
      · cases hstep
        refine ⟨entered, hin.channel, hnodup, fun other => ?_, hin.downloads, hin.holding⟩
        exact ((List.Sublist.refl _).append (hleft other)).trans (hin.each other)

theorem take (hin : InOrder state uploads entered) (hstep : state.take = some next) :
    InOrder next uploads entered := by
  rw [Dispatch.take] at hstep
  split at hstep <;> cases hstep
  rename_i msg msgChan hwaiting hchan
  refine ⟨?_, hin.inHand, hin.each, ?_, ?_⟩
  · rw [hin.channel, hchan, List.reverse_cons, List.append_assoc]
    rfl
  · have hdownloads := hin.downloads
    simp only [handledMessages, hwaiting] at hdownloads
    exact hdownloads
  · intro other hholding
    cases hholding
    rfl

theorem handle (hin : InOrder state uploads entered) (hstep : state.handle = some next) :
    InOrder next uploads entered := by
  rw [Dispatch.handle] at hstep
  split at hstep
  · next msg hholding =>
      have hdownloads := hin.downloads
      simp only [handledMessages, hholding] at hdownloads
      have htaken : state.taken = msg :: state.taken.tail :=
        List.eq_cons_of_mem_head? (hin.holding msg hholding)
      split_ifs at hstep
      · cases hstep
        exact ⟨hin.channel, hin.inHand, hin.each, hdownloads, by rintro _ ⟨⟩⟩
      · cases hstep
        refine ⟨hin.channel, hin.inHand, hin.each, ?_, by rintro _ ⟨⟩⟩
        simp only [handledMessages]
        rw [htaken, List.reverse_cons, List.filterMap_append]
        refine hdownloads.append ?_
        rcases download_eq state.svcMap msg with hdownload | hnone
        · rw [hdownload]
          cases htarget : target msg <;> simp [htarget]
        · rw [hnone]
          exact List.nil_sublist _
  · cases hstep

theorem step {label : DispatchStep} (hin : InOrder state uploads entered)
    (hstep : state.step label = some next) :
    ∃ entered, InOrder next (uploads ++ label.upload.toList) entered := by
  have hkept : ∀ {entered : List Upload}, InOrder next uploads entered →
      ∃ entered, InOrder next (uploads ++ []) entered :=
    fun hnext => ⟨_, (List.append_nil uploads).symm ▸ hnext⟩
  cases label with
  | publish this msg reply => exact ⟨entered, hin.publish hstep⟩
  | enqueue this =>
      obtain ⟨entered, hnext⟩ := hin.enqueue hstep
      exact hkept hnext
  | take => exact hkept (hin.take hstep)
  | handle => exact hkept (hin.handle hstep)
  | register key | unregister key =>
      cases hstep
      exact hkept ⟨hin.channel, hin.inHand, hin.each, hin.downloads, hin.holding⟩

theorem run {labels : List DispatchStep} {last : Dispatch} (hin : InOrder state uploads entered)
    (hrun : Core.run Dispatch.step state labels = some last) :
    ∃ entered, InOrder last (uploads ++ labels.filterMap DispatchStep.upload) entered := by
  induction labels generalizing state uploads entered with
  | nil =>
      cases hrun
      exact ⟨entered, (List.append_nil uploads).symm ▸ hin⟩
  | cons label labels ih =>
      obtain ⟨next, hnext, hrest⟩ := run_cons_eq_some_iff.mp hrun
      obtain ⟨entered, hin⟩ := hin.step hnext
      obtain ⟨entered, hlast⟩ := ih hin hrest
      refine ⟨entered, ?_⟩
      rw [List.append_assoc] at hlast
      cases hupload : label.upload with
      | none =>
          rw [List.filterMap_cons_none hupload]
          rwa [hupload] at hlast
      | some upload =>
          rw [List.filterMap_cons_some hupload]
          rwa [hupload] at hlast

end InOrder

/-- In every interleaving the downloads come from the uploads: they are what some of them
lead to, one for one and in their order, and in that order the uploads of each service stand
as it has sent them. -/
theorem downloads_in_order {labels : List DispatchStep} {last : Dispatch}
    (hrun : Core.run step dispatchStart labels = some last) :
    ∃ entered : List Upload,
      last.published.Sublist (entered.filterMap fun upload => target upload.2) ∧
      ∀ this, (uploadsOf this entered).Sublist
        (uploadsOf this (labels.filterMap DispatchStep.upload)) := by
  obtain ⟨entered, hin⟩ := inOrder_start.run hrun
  refine ⟨entered, ?_, fun this => ?_⟩
  · have hall : last.handledMessages.Sublist (entered.map Prod.snd) := by
      rw [hin.channel]
      have htaken : last.handledMessages.Sublist last.taken.reverse := by
        rw [handledMessages]
        split
        · exact List.Sublist.refl _
        · exact (List.tail_sublist _).reverse
        · exact (List.tail_sublist _).reverse
      exact htaken.trans (List.sublist_append_left _ _)
    have hdownloads := hin.downloads.trans (hall.filterMap target)
    rwa [List.filterMap_map] at hdownloads
  · exact (List.sublist_append_left _ _).trans (hin.each this)

/-- A device sends two messages to itself. -/
def twoUploads : List DispatchStep :=
  [.register (textBytes "p:d"), .publish deviceD toDeviceD .sent, .enqueue deviceD,
    .publish deviceD { toDeviceD with payload := textBytes "y" } .unsent, .take,
    .enqueue deviceD, .handle, .take, .handle]

theorem downloads_in_order_two :
    ∃ last, Core.run step dispatchStart twoUploads = some last ∧
      last.published.map Download.payload = [textBytes "x", textBytes "y"] ∧
      ∃ entered : List Upload,
        last.published.Sublist (entered.filterMap fun upload => target upload.2) ∧
        ∀ this, (uploadsOf this entered).Sublist
          (uploadsOf this (twoUploads.filterMap DispatchStep.upload)) := by
  have hends : (Core.run step dispatchStart twoUploads).map
      (fun last => last.published.map Download.payload) =
        some [textBytes "x", textBytes "y"] := by decide +kernel
  obtain ⟨last, hrun, hpayloads⟩ := Option.map_eq_some_iff.mp hends
  exact ⟨last, hrun, hpayloads, downloads_in_order hrun⟩

end Dispatch

end Xmqtt.Service
