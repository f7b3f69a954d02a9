import Mathlib.Data.List.Sigma

/-!
# Tries

A tree with a value in every node whose children are kept under keys.  Two ways
of changing it at the end of a path are studied: one makes the nodes that are
missing on the way, the other takes away, on the way back, the nodes that are
not needed any more.  What they do is told by the contents at every path.
-/

namespace Xmqtt.Core

inductive Trie (κ ν : Type) where
  | node (value : ν) (children : List (Sigma fun _ : κ => Trie κ ν))

namespace Trie

variable {κ ν : Type}

def value : Trie κ ν → ν
  | .node value _ => value

def children : Trie κ ν → List (Sigma fun _ : κ => Trie κ ν)
  | .node _ children => children

/-- A node without children. -/
def leaf (value : ν) : Trie κ ν := .node value []

def setValue (this : Trie κ ν) (value : ν) : Trie κ ν := .node value this.children

@[simp] theorem value_setValue (this : Trie κ ν) (value : ν) :
    (this.setValue value).value = value := rfl

@[simp] theorem setValue_value (this : Trie κ ν) : this.setValue this.value = this := by
  cases this
  rfl

@[simp] theorem children_setValue (this : Trie κ ν) (value : ν) :
    (this.setValue value).children = this.children := rfl

theorem eq_leaf {this : Trie κ ν} {empty : ν} (hchildren : this.children = [])
    (hvalue : this.value = empty) : this = leaf empty := by
  cases this
  rw [leaf, ← hvalue, ← hchildren]
  rfl

variable [DecidableEq κ]

def child (this : Trie κ ν) (key : κ) : Option (Trie κ ν) := this.children.dlookup key

def setChild (this : Trie κ ν) (key : κ) (n : Trie κ ν) : Trie κ ν :=
  .node this.value (this.children.kinsert key n)

def eraseChild (this : Trie κ ν) (key : κ) : Trie κ ν :=
  .node this.value (this.children.kerase key)

/-- The node at the end of a path. -/
def sub : List κ → Trie κ ν → Option (Trie κ ν)
  | [], this => some this
  | key :: path, this => (this.child key).bind (sub path)

/-- The value at the end of a path; where there is no node, nothing is stored. -/
def content (empty : ν) (path : List κ) (this : Trie κ ν) : ν :=
  ((this.sub path).map value).getD empty

/-- No node has two children under one key. -/
def Keyed (this : Trie κ ν) : Prop :=
  ∀ path n, this.sub path = some n → n.children.NodupKeys

/-! ## Looking up -/

section Lookup

variable (this n : Trie κ ν) (key : κ)

@[simp] theorem value_setChild : (this.setChild key n).value = this.value := rfl

@[simp] theorem value_eraseChild : (this.eraseChild key).value = this.value := rfl

@[simp] theorem child_setValue (value : ν) (other : κ) :
    (this.setValue value).child other = this.child other := rfl

@[simp] theorem child_leaf (value : ν) : (leaf value : Trie κ ν).child key = none := rfl

theorem child_setChild (other : κ) :
    (this.setChild key n).child other = if other = key then some n else this.child other := by
  split_ifs with heq
  · rw [heq]
    exact List.dlookup_kinsert this.children
  · exact List.dlookup_kinsert_ne heq

theorem child_eraseChild (hkeys : this.children.NodupKeys) (other : κ) :
    (this.eraseChild key).child other = if other = key then none else this.child other := by
  split_ifs with heq
  · rw [heq]
    exact List.dlookup_kerase key hkeys
  · exact List.dlookup_kerase_ne heq

@[simp] theorem sub_nil : this.sub [] = some this := rfl

theorem sub_cons (path : List κ) : this.sub (key :: path) = (this.child key).bind (sub path) :=
  rfl

theorem sub_append (front back : List κ) :
    this.sub (front ++ back) = (this.sub front).bind (sub back) := by
  induction front generalizing this with
  | nil => rfl
  | cons key front ih =>
      rw [List.cons_append, sub_cons, sub_cons]
      cases this.child key with
      | none => rfl
      | some n => exact ih n

theorem sub_setChild_cons (other : κ) (path : List κ) :
    (this.setChild key n).sub (other :: path) =
      if other = key then n.sub path else this.sub (other :: path) := by
  rw [sub_cons, child_setChild]
  split_ifs <;> rfl

theorem sub_setValue_cons (value : ν) (other : κ) (path : List κ) :
    (this.setValue value).sub (other :: path) = this.sub (other :: path) := rfl

end Lookup

section Content

variable {this n : Trie κ ν} {key : κ} {empty : ν}

@[simp] theorem content_nil : this.content empty [] = this.value := rfl

theorem content_cons (path : List κ) :
    this.content empty (key :: path) =
      ((this.child key).map (content empty path)).getD empty := by
  rw [content, sub_cons]
  cases this.child key <;> rfl

theorem content_of_sub {path : List κ} (hsub : this.sub path = some n) :
    this.content empty path = n.value := by
  rw [content, hsub]
  rfl

/-- What is stored somewhere is stored in a node. -/
theorem sub_of_content_ne {path : List κ} (hne : this.content empty path ≠ empty) :
    ∃ n, this.sub path = some n ∧ n.value = this.content empty path := by
  rw [content] at hne ⊢
  cases hsub : this.sub path with
  | none =>
      rw [hsub] at hne
      exact absurd rfl hne
  | some n => exact ⟨n, rfl, rfl⟩

@[simp] theorem content_leaf (path : List κ) :
    (leaf empty : Trie κ ν).content empty path = empty := by
  cases path <;> rfl

/-- The content below a key, whether there is a child or not. -/
theorem content_cons_getD (path : List κ) :
    this.content empty (key :: path) =
      ((this.child key).getD (leaf empty)).content empty path := by
  rw [content_cons]
  cases this.child key with
  | none => exact (content_leaf path).symm
  | some n => rfl

end Content

section Keyed

variable {this n : Trie κ ν} {key : κ}

theorem Keyed.children (hkeyed : this.Keyed) : this.children.NodupKeys :=
  hkeyed [] this rfl

theorem Keyed.child (hkeyed : this.Keyed) (hchild : this.child key = some n) : n.Keyed := by
  intro path m hsub
  apply hkeyed (key :: path) m
  rw [sub_cons, hchild]
  exact hsub

theorem keyed_iff : this.Keyed ↔ this.children.NodupKeys ∧
    ∀ key n, this.child key = some n → n.Keyed := by
  constructor
  · intro hkeyed
    exact ⟨hkeyed.children, fun key n hchild => hkeyed.child hchild⟩
  · rintro ⟨hkeys, hbelow⟩ path m hsub
    cases path with
    | nil =>
        injection hsub with hsame
        exact hsame ▸ hkeys
    | cons key path =>
        obtain ⟨n, hchild, hrest⟩ := Option.bind_eq_some_iff.mp hsub
        exact hbelow key n hchild path m hrest

theorem keyed_leaf (value : ν) : (leaf value : Trie κ ν).Keyed :=
  keyed_iff.mpr ⟨List.nodupKeys_nil, fun key n hchild => by cases hchild⟩

theorem Keyed.setValue (hkeyed : this.Keyed) (value : ν) : (this.setValue value).Keyed :=
  keyed_iff.mpr ⟨hkeyed.children, fun _ _ hchild => hkeyed.child hchild⟩

theorem Keyed.setChild (hkeyed : this.Keyed) (hn : n.Keyed) : (this.setChild key n).Keyed := by
  refine keyed_iff.mpr ⟨List.kinsert_nodupKeys key n hkeyed.children, fun other m hchild => ?_⟩
  rw [child_setChild] at hchild
  split_ifs at hchild
  · injection hchild with hsame
    exact hsame ▸ hn
  · exact hkeyed.child hchild

theorem Keyed.eraseChild (hkeyed : this.Keyed) : (this.eraseChild key).Keyed := by
  refine keyed_iff.mpr ⟨hkeyed.children.kerase key, fun other m hchild => ?_⟩
  rw [child_eraseChild _ _ hkeyed.children] at hchild
  split_ifs at hchild
  exact hkeyed.child hchild

end Keyed

/-! ## Changing the end of a path -/

/-- Change the value at the end of a path, and make the nodes that are missing. -/
def grow (empty : ν) (f : ν → ν) : List κ → Trie κ ν → Trie κ ν
  | [], this => this.setValue (f this.value)
  | key :: path, this =>
      this.setChild key (grow empty f path ((this.child key).getD (leaf empty)))

/-- Change the value at the end of a path, if there is a node and `f` can, and take away the
nodes on the path that are `prunable` then. -/
def shrink (prunable : Trie κ ν → Bool) (f : ν → Option ν) :
    List κ → Trie κ ν → Option (Trie κ ν)
  | [], this => (f this.value).map this.setValue
  | key :: path, this =>
      (this.child key).bind fun n => (shrink prunable f path n).map fun n =>
        if prunable n then this.eraseChild key else this.setChild key n

section Grow

variable {empty : ν} {f : ν → ν} {path : List κ} {this : Trie κ ν}

theorem content_grow (other : List κ) :
    (grow empty f path this).content empty other =
      if other = path then f (this.content empty path) else this.content empty other := by
  induction path generalizing this other with
  | nil =>
      cases other with
      | nil => rfl
      | cons key rest => rfl
  | cons key path ih =>
      cases other with
      | nil => rfl
      | cons key' rest =>
          rw [content_cons_getD, grow, child_setChild]
          by_cases hkey : key' = key
          · rw [if_pos hkey, Option.getD_some, ih, content_cons_getD, content_cons_getD, hkey]
            simp only [List.cons.injEq, true_and]
          · rw [if_neg hkey, if_neg (fun heq => hkey (List.cons.inj heq).1),
              content_cons_getD]

theorem Keyed.getD_child (hkeyed : this.Keyed) (key : κ) :
    ((this.child key).getD (leaf empty)).Keyed := by
  cases hchild : this.child key with
  | none => exact keyed_leaf empty
  | some n => exact hkeyed.child hchild

theorem Keyed.grow (hkeyed : this.Keyed) : (grow empty f path this).Keyed := by
  induction path generalizing this with
  | nil => exact hkeyed.setValue _
  | cons key path ih => exact hkeyed.setChild (ih (hkeyed.getD_child key))

end Grow

/-! ## Tries with the same nodes -/

/-- The same nodes, with values that look the same through `f`. -/
def SameBy {τ : Type} (f : ν → τ) (this other : Trie κ ν) : Prop :=
  ∀ path, (this.sub path).map (f ∘ value) = (other.sub path).map (f ∘ value)

section SameBy

variable {τ : Type} {look : ν → τ} {this : Trie κ ν} {empty : ν} {f : ν → ν} {path : List κ}

theorem SameBy.refl (look : ν → τ) (this : Trie κ ν) : this.SameBy look this := fun _ => rfl

/-- All nodes on the way to a node are there. -/
theorem exists_sub_of_isPrefix {front : List κ} {n : Trie κ ν} (hsub : this.sub path = some n)
    (hfront : front <+: path) : ∃ m, this.sub front = some m := by
  obtain ⟨back, rfl⟩ := hfront
  rw [sub_append] at hsub
  obtain ⟨m, hm, -⟩ := Option.bind_eq_some_iff.mp hsub
  exact ⟨m, hm⟩

/-- Along the path every node is there afterwards, and nowhere else does a node change. -/
theorem map_value_sub_grow (other : List κ) :
    ((grow empty f path this).sub other).map value =
      if other = path then some (f (this.content empty path))
      else if other <+: path then some (this.content empty other)
      else (this.sub other).map value := by
  induction path generalizing this other with
  | nil =>
      cases other with
      | nil => rfl
      | cons key rest => simp [grow, sub_setValue_cons]
  | cons key path ih =>
      cases other with
      | nil => simp [grow, content]
      | cons key' rest =>
          rw [grow, sub_setChild_cons]
          by_cases hkey : key' = key
          · subst hkey
            rw [if_pos rfl, ih, content_cons_getD, content_cons_getD]
            simp only [List.cons.injEq, true_and, List.cons_prefix_cons]
            cases hchild : this.child key' with
            | some n =>
                rw [sub_cons, hchild]
                rfl
            | none =>
                split_ifs with hend hfront
                · rfl
                · rfl
                · cases rest with
                  | nil => exact absurd List.nil_prefix hfront
                  | cons next rest =>
                      rw [this.sub_cons key' (next :: rest), hchild]
                      rfl
          · rw [if_neg hkey, if_neg (fun heq => hkey (List.cons.inj heq).1),
              if_neg (fun hfront => hkey (List.cons_prefix_cons.mp hfront).1)]

/-- Nothing changes exactly if the node is there and looks the same afterwards. -/
theorem sameBy_grow_iff :
    this.SameBy look (grow empty f path this) ↔
      ∃ n, this.sub path = some n ∧ look (f n.value) = look n.value := by
  have hgrown : ∀ other, ((grow empty f path this).sub other).map (look ∘ value) =
      (if other = path then some (f (this.content empty path))
        else if other <+: path then some (this.content empty other)
        else (this.sub other).map value).map look := by
    intro other
    rw [← map_value_sub_grow, Option.map_map]
  constructor
  · intro hsame
    have hend := hsame path
    rw [hgrown, if_pos rfl, Option.map_some] at hend
    obtain ⟨n, hn, hlook⟩ := Option.map_eq_some_iff.mp hend
    rw [content_of_sub hn] at hlook
    exact ⟨n, hn, hlook.symm⟩
  · rintro ⟨n, hn, hlook⟩ other
    rw [hgrown]
    split_ifs with hend hfront
    · rw [hend, hn, content_of_sub hn]
      exact congrArg some hlook.symm
    · obtain ⟨m, hm⟩ := exists_sub_of_isPrefix hn hfront
      rw [hm, content_of_sub hm]
      rfl
    · rw [Option.map_map]

end SameBy

section Shrink

variable {prunable : Trie κ ν → Bool} {f : ν → Option ν} {path : List κ}
  {this next : Trie κ ν} {empty : ν}

theorem shrink_cons_eq_some_iff {key : κ} :
    shrink prunable f (key :: path) this = some next ↔
      ∃ n m, this.child key = some n ∧ shrink prunable f path n = some m ∧
        next = if prunable m then this.eraseChild key else this.setChild key m := by
  rw [shrink]
  constructor
  · intro hnext
    obtain ⟨n, hchild, hrest⟩ := Option.bind_eq_some_iff.mp hnext
    obtain ⟨m, hm, heq⟩ := Option.map_eq_some_iff.mp hrest
    exact ⟨n, m, hchild, hm, heq.symm⟩
  · rintro ⟨n, m, hchild, hm, rfl⟩
    rw [hchild, Option.bind_some, hm, Option.map_some]

/-- It fails where there is no node, or where `f` fails on its value. -/
theorem shrink_eq_none_iff :
    shrink prunable f path this = none ↔ ∀ n, this.sub path = some n → f n.value = none := by
  induction path generalizing this with
  | nil =>
      rw [shrink, Option.map_eq_none_iff]
      constructor
      · intro hnone n hsub
        injection hsub with hsame
        exact hsame ▸ hnone
      · exact fun hnone => hnone this rfl
  | cons key path ih =>
      rw [shrink, sub_cons]
      cases this.child key with
      | none => simp
      | some n =>
          rw [Option.bind_some, Option.map_eq_none_iff, ih]
          rfl

/-- Where only empty nodes are taken away, one value changes and no other. -/
theorem content_shrink (hkeyed : this.Keyed)
    (hblank : ∀ front n m, front ≠ [] → front <+: path → this.sub front = some n →
      shrink prunable f (path.drop front.length) n = some m → prunable m = true →
        m = leaf empty)
    (hnext : shrink prunable f path this = some next) :
    ∃ value, f (this.content empty path) = some value ∧ ∀ other,
      next.content empty other = if other = path then value
        else this.content empty other := by
  induction path generalizing this next with
  | nil =>
      obtain ⟨value, hvalue, rfl⟩ := Option.map_eq_some_iff.mp hnext
      refine ⟨value, hvalue, fun other => ?_⟩
      cases other with
      | nil => rfl
      | cons key rest => rfl
  | cons key path ih =>
      obtain ⟨n, m, hchild, hm, rfl⟩ := shrink_cons_eq_some_iff.mp hnext
      obtain ⟨value, hvalue, hother⟩ := ih (hkeyed.child hchild) (by
        intro front n' m' hne hfront hsub hshrink
        apply hblank (key :: front) n' m' (List.cons_ne_nil _ _)
          (List.cons_prefix_cons.mpr ⟨rfl, hfront⟩) _ hshrink
        rw [sub_cons, hchild]
        exact hsub) hm
      have hhere : this.content empty (key :: path) = n.content empty path := by
        rw [content_cons, hchild]
        rfl
      have hnode : prunable m = true → m = leaf empty := by
        refine hblank [key] n m (List.cons_ne_nil _ _)
          (List.cons_prefix_cons.mpr ⟨rfl, List.nil_prefix⟩) ?_ hm
        rw [sub_cons, hchild]
        rfl
      -- Whether the child stays or goes, the content below it is that of `m`.
      have hbelow : ∀ key' rest, (if prunable m then this.eraseChild key
          else this.setChild key m).content empty (key' :: rest) =
            if key' = key then m.content empty rest
            else this.content empty (key' :: rest) := by
        intro key' rest
        rw [content_cons_getD]
        by_cases hprune : prunable m = true
        · rw [if_pos hprune, child_eraseChild _ _ hkeyed.children, hnode hprune]
          split_ifs
          · rfl
          · exact (content_cons_getD rest).symm
        · rw [if_neg hprune, child_setChild]
          split_ifs
          · rfl
          · exact (content_cons_getD rest).symm
      refine ⟨value, hhere ▸ hvalue, fun other => ?_⟩
      cases other with
      | nil =>
          rw [if_neg (List.cons_ne_nil key path).symm]
          split_ifs <;> rfl
      | cons key' rest =>
          rw [hbelow]
          by_cases hkey : key' = key
          · rw [if_pos hkey, hother, hkey, content_cons, hchild]
            simp only [List.cons.injEq, true_and]
            rfl
          · rw [if_neg hkey, if_neg (fun heq => hkey (List.cons.inj heq).1)]

theorem Keyed.sub (hkeyed : this.Keyed) {front : List κ} {n : Trie κ ν}
    (hsub : this.sub front = some n) : n.Keyed := by
  intro path m hm
  apply hkeyed (front ++ path)
  rw [sub_append, hsub]
  exact hm

theorem content_of_bare (hbare : this.children = []) {other : List κ} (hother : other ≠ []) :
    this.content empty other = empty := by
  obtain ⟨key, rest, rfl⟩ := List.exists_cons_of_ne_nil hother
  have hchild : this.child key = none := by
    rw [child, hbare]
    rfl
  rw [content_cons, hchild]
  rfl

/-- Where `f` empties a node and those without children are taken away, only empty ones are if
every node on the path that is not empty has something else below it. -/
theorem blank_of_other (hkeyed : this.Keyed)
    (hempty : ∀ value next, f value = some next → next = empty)
    (hbare : ∀ n, prunable n = true → n.children = [])
    (hother : ∀ front, front ≠ [] → front <+: path → front ≠ path →
      this.content empty front ≠ empty → ∃ other, front <+: other ∧ other ≠ front ∧
        other ≠ path ∧ this.content empty other ≠ empty)
    {front : List κ} {n m : Trie κ ν} (hne : front ≠ []) (hfront : front <+: path)
    (hsub : this.sub front = some n)
    (hshrink : shrink prunable f (path.drop front.length) n = some m)
    (hprunable : prunable m = true) : m = leaf empty := by
  obtain ⟨rest, hpath⟩ := hfront
  -- From the end of the path backwards: what is below is known when a node is looked at.
  induction hlength : rest.length using Nat.strong_induction_on generalizing front n m rest with
  | _ length ih =>
      have hdrop : path.drop front.length = rest := by
        rw [← hpath, List.drop_left]
      rw [hdrop] at hshrink
      have hsubs : ∀ below n', n.sub below = some n' →
          this.sub (front ++ below) = some n' := by
        intro below n' hbelow
        rw [sub_append, hsub]
        exact hbelow
      have hcontent : ∀ below, this.content empty (front ++ below) = n.content empty below := by
        intro below
        rw [content, content, sub_append, hsub]
        rfl
      obtain ⟨value, hvalue, hm⟩ := content_shrink (hkeyed.sub hsub) (by
        rintro below n' m' hbelow ⟨more, hmore⟩ hsub' hshrink' hprunable'
        have hshorter : more.length < length := by
          rw [← hlength, ← hmore, List.length_append]
          exact Nat.lt_add_of_pos_left (List.length_pos_iff.mpr hbelow)
        refine ih more.length hshorter (List.append_ne_nil_of_left_ne_nil hne below)
          (hsubs below n' hsub') ?_ hprunable' more ?_ rfl
        · rw [← hpath, ← hmore, ← List.append_assoc, List.drop_left]
          rw [← hmore, List.drop_left] at hshrink'
          exact hshrink'
        · rw [List.append_assoc, hmore, hpath]) hshrink
      have hchildren := hbare m hprunable
      refine eq_leaf hchildren ?_
      have hhere : m.value = if [] = rest then value else this.content empty front := by
        rw [← List.append_nil front, hcontent, ← hm]
        rfl
      rw [hhere]
      split_ifs with hnil
      · exact hempty _ _ hvalue
      · by_contra hfilled
        have hproper : front ≠ path := by
          intro heq
          rw [← hpath] at heq
          exact hnil (List.append_right_eq_self.mp heq.symm).symm
        obtain ⟨other, ⟨below, rfl⟩, hbelow, hnot, hkept⟩ :=
          hother front hne ⟨rest, hpath⟩ hproper hfilled
        have hbelow : below ≠ [] := fun h => hbelow (by rw [h, List.append_nil])
        have hrest : below ≠ rest := fun h => hnot (by rw [h, hpath])
        have hlost := hm below
        rw [content_of_bare hchildren hbelow, if_neg hrest, ← hcontent] at hlost
        exact hkept hlost.symm

theorem Keyed.shrink (hkeyed : this.Keyed) (hnext : shrink prunable f path this = some next) :
    next.Keyed := by
  induction path generalizing this next with
  | nil =>
      obtain ⟨value, -, rfl⟩ := Option.map_eq_some_iff.mp hnext
      exact hkeyed.setValue value
  | cons key path ih =>
      obtain ⟨n, m, hchild, hm, rfl⟩ := shrink_cons_eq_some_iff.mp hnext
      split_ifs
      · exact hkeyed.eraseChild
      · exact hkeyed.setChild (ih (hkeyed.child hchild) hm)

/-- What holds of all values holds of them afterwards, if it holds of the new one. -/
theorem forall_content_shrink {P : ν → Prop} (hkeyed : this.Keyed)
    (hthis : ∀ other, P (this.content empty other)) (hempty : P empty)
    (hf : ∀ value value', f value = some value' → P value')
    (hnext : shrink prunable f path this = some next) (other : List κ) :
    P (next.content empty other) := by
  induction path generalizing this next other with
  | nil =>
      obtain ⟨value, hvalue, rfl⟩ := Option.map_eq_some_iff.mp hnext
      cases other with
      | nil => exact hf _ value hvalue
      | cons key rest => exact hthis (key :: rest)
  | cons key path ih =>
      obtain ⟨n, m, hchild, hm, rfl⟩ := shrink_cons_eq_some_iff.mp hnext
      cases other with
      | nil => split_ifs <;> exact hthis []
      | cons key' rest =>
          have hold := hthis (key' :: rest)
          rw [content_cons_getD] at hold ⊢
          split_ifs
          · rw [child_eraseChild _ _ hkeyed.children]
            split_ifs
            · rw [Option.getD_none, content_leaf]
              exact hempty
            · exact hold
          · rw [child_setChild]
            split_ifs
            · refine ih (hkeyed.child hchild) (fun below => ?_) hm rest
              have hbelow := hthis (key :: below)
              rwa [content_cons_getD, hchild] at hbelow
            · exact hold

end Shrink

/-! ## Nodes that are there for something -/

/-- Below the root every node without children stores something. -/
def Thrives (blank : ν → Prop) (this : Trie κ ν) : Prop :=
  ∀ path n, path ≠ [] → this.sub path = some n → n.children = [] → ¬ blank n.value

section Thrives

variable {blank : ν → Prop} {this next n : Trie κ ν} {key : κ} {path : List κ}

theorem thrives_iff : this.Thrives blank ↔ ∀ key n, this.child key = some n →
    (n.children = [] → ¬ blank n.value) ∧ n.Thrives blank := by
  constructor
  · intro hthrives key n hchild
    have hsub : ∀ rest, this.sub (key :: rest) = n.sub rest := by
      intro rest
      rw [sub_cons, hchild]
      rfl
    refine ⟨hthrives [key] n (List.cons_ne_nil _ _) (hsub []), fun rest m _ hm => ?_⟩
    exact hthrives (key :: rest) m (List.cons_ne_nil _ _) ((hsub rest).trans hm)
  · intro hbelow path m hne hsub
    cases path with
    | nil => exact absurd rfl hne
    | cons key rest =>
        obtain ⟨n, hchild, hrest⟩ := Option.bind_eq_some_iff.mp hsub
        obtain ⟨hnode, hthrives⟩ := hbelow key n hchild
        cases rest with
        | nil =>
            injection hrest with hsame
            exact hsame ▸ hnode
        | cons key' rest => exact hthrives _ m (List.cons_ne_nil _ _) hrest

theorem thrives_leaf (value : ν) : (leaf value : Trie κ ν).Thrives blank :=
  thrives_iff.mpr fun key n hchild => by cases hchild

theorem Thrives.setValue (hthrives : this.Thrives blank) (value : ν) :
    (this.setValue value).Thrives blank :=
  thrives_iff.mpr fun key n hchild => thrives_iff.mp hthrives key n hchild

theorem Thrives.setChild (hthrives : this.Thrives blank)
    (hnode : n.children = [] → ¬ blank n.value) (hn : n.Thrives blank) :
    (this.setChild key n).Thrives blank := by
  rw [thrives_iff] at hthrives ⊢
  intro other m hchild
  rw [child_setChild] at hchild
  split_ifs at hchild
  · injection hchild with hsame
    exact hsame ▸ ⟨hnode, hn⟩
  · exact hthrives other m hchild

theorem Thrives.eraseChild (hkeyed : this.Keyed) (hthrives : this.Thrives blank) :
    (this.eraseChild key).Thrives blank := by
  rw [thrives_iff] at hthrives ⊢
  intro other m hchild
  rw [child_eraseChild _ _ hkeyed.children] at hchild
  split_ifs at hchild
  exact hthrives other m hchild

theorem Thrives.grow {empty : ν} {f : ν → ν} (hthrives : this.Thrives blank)
    (hf : ∀ value, ¬ blank (f value)) : (grow empty f path this).Thrives blank ∧
      ((grow empty f path this).children = [] → ¬ blank (grow empty f path this).value) := by
  induction path generalizing this with
  | nil => exact ⟨hthrives.setValue _, fun _ => hf _⟩
  | cons key path ih =>
      have hchild : ((this.child key).getD (leaf empty)).Thrives blank := by
        cases hlookup : this.child key with
        | none => exact thrives_leaf empty
        | some n => exact (thrives_iff.mp hthrives key n hlookup).2
      obtain ⟨hbelow, hnode⟩ := ih hchild
      exact ⟨hthrives.setChild hnode hbelow, fun hnone => absurd hnone (List.cons_ne_nil _ _)⟩

theorem Thrives.shrink {prunable : Trie κ ν → Bool} {f : ν → Option ν} (hkeyed : this.Keyed)
    (hthrives : this.Thrives blank)
    (hprunable : ∀ n, prunable n = false → n.children = [] → ¬ blank n.value)
    (hnext : shrink prunable f path this = some next) : next.Thrives blank := by
  induction path generalizing this next with
  | nil =>
      obtain ⟨value, -, rfl⟩ := Option.map_eq_some_iff.mp hnext
      exact hthrives.setValue value
  | cons key path ih =>
      obtain ⟨n, m, hchild, hm, rfl⟩ := shrink_cons_eq_some_iff.mp hnext
      have hbelow := ih (hkeyed.child hchild) (thrives_iff.mp hthrives key n hchild).2 hm
      split_ifs with hprune
      · exact Thrives.eraseChild hkeyed hthrives
      · exact hthrives.setChild (hprunable m (eq_false_of_ne_true hprune)) hbelow

theorem Thrives.sub (hthrives : this.Thrives blank) (hsub : this.sub path = some n) :
    n.Thrives blank := by
  intro below m hne hm
  apply hthrives (path ++ below) m (List.append_ne_nil_of_right_ne_nil _ hne)
  rw [sub_append, hsub]
  exact hm

/-- A node that is there for something has something stored in it or below it. -/
theorem Thrives.exists_value : (this : Trie κ ν) → this.Thrives blank →
    (this.children = [] → ¬ blank this.value) →
      ∃ path n, this.sub path = some n ∧ ¬ blank n.value
  | .node value [], _, hnode => ⟨[], _, rfl, hnode rfl⟩
  | .node value (⟨key, n⟩ :: rest), hthrives, _ => by
      have hchild : (Trie.node value (⟨key, n⟩ :: rest)).child key = some n :=
        List.dlookup_cons_eq rest key n
      obtain ⟨hnode, hbelow⟩ := thrives_iff.mp hthrives key n hchild
      obtain ⟨path, m, hm, hvalue⟩ := Thrives.exists_value n hbelow hnode
      refine ⟨key :: path, m, ?_, hvalue⟩
      rw [sub_cons, hchild]
      exact hm

end Thrives

end Trie

end Xmqtt.Core
