import Mathlib

/-!
# Leases

Clients take objects out of pools and put them back.  Nothing in the objects says who
has them; what keeps two clients apart is that every object has at most one owner,
which may be a pool, a client or nobody.
-/

namespace Xmqtt.Core

inductive Owner (Pool Client : Type*) where
  | nobody
  | pool (pool : Pool)
  | client (client : Client)

variable {Pool Client Ref : Type*}

/-- The owners are those that the pools and the clients know of. -/
structure Leased (free : Pool → List Ref) (held : Client → Option Ref)
    (owner : Ref → Owner Pool Client) : Prop where
  free_owned : ∀ pool, ∀ ref ∈ free pool, owner ref = .pool pool
  held_owned : ∀ client ref, held client = some ref → owner ref = .client client
  nodup : ∀ pool, (free pool).Nodup

namespace Leased

variable {free : Pool → List Ref} {held : Client → Option Ref}
variable {owner : Ref → Owner Pool Client} {pool : Pool} {client : Client} {ref : Ref}

/-- Nobody has anything. -/
theorem new : Leased (fun _ : Pool => ([] : List Ref)) (fun _ : Client => none)
    fun _ => .nobody where
  free_owned := fun _ => List.forall_mem_nil _
  held_owned := fun _ _ hheld => absurd hheld (by simp)
  nodup := fun _ => List.nodup_nil

/-- An object has at most one client. -/
theorem client_eq (hleased : Leased free held owner) {other : Client}
    (hclient : held client = some ref) (hother : held other = some ref) : client = other := by
  have hsame := (hleased.held_owned _ _ hclient).symm.trans (hleased.held_owned _ _ hother)
  injection hsame

/-- An object that a client has is in no pool. -/
theorem not_mem (hleased : Leased free held owner) (hheld : held client = some ref)
    (pool : Pool) : ref ∉ free pool := by
  intro hmem
  have hsame := (hleased.free_owned _ _ hmem).symm.trans (hleased.held_owned _ _ hheld)
  cases hsame

section Clients

variable [DecidableEq Client] [DecidableEq Ref]

/-- A client begins to hold what nobody has. -/
theorem hold (hleased : Leased free held owner) (hnobody : owner ref = .nobody)
    (client : Client) :
    Leased free (Function.update held client (some ref))
      (Function.update owner ref (.client client)) where
  free_owned := by
    intro pool other hmem
    have hother := hleased.free_owned pool other hmem
    by_cases hsame : other = ref
    · rw [hsame, hnobody] at hother
      cases hother
    · rwa [Function.update_of_ne hsame]
  held_owned := by
    intro other kept hheld
    by_cases hclient : other = client
    · subst hclient
      rw [Function.update_self] at hheld
      injection hheld with hheld
      rw [← hheld, Function.update_self]
    · rw [Function.update_of_ne hclient] at hheld
      have hkept := hleased.held_owned other kept hheld
      by_cases hsame : kept = ref
      · rw [hsame, hnobody] at hkept
        cases hkept
      · rwa [Function.update_of_ne hsame]
  nodup := hleased.nodup

/-- A client that has an object lets it go. -/
theorem drop (hleased : Leased free held owner) (hheld : held client = some ref) :
    Leased free (Function.update held client none) (Function.update owner ref .nobody) where
  free_owned := by
    intro pool other hmem
    have hne : other ≠ ref := fun hsame => hleased.not_mem hheld pool (hsame ▸ hmem)
    rw [Function.update_of_ne hne]
    exact hleased.free_owned pool other hmem
  held_owned := by
    intro other kept hother
    by_cases hclient : other = client
    · rw [hclient, Function.update_self] at hother
      cases hother
    · rw [Function.update_of_ne hclient] at hother
      have hne : kept ≠ ref :=
        fun hsame => hclient (hleased.client_eq (hsame ▸ hother) hheld)
      rw [Function.update_of_ne hne]
      exact hleased.held_owned other kept hother
  nodup := hleased.nodup

end Clients

section Pools

variable [DecidableEq Pool] [DecidableEq Ref]

/-- An object is taken out of its pool. -/
theorem erase (hleased : Leased free held owner) (hmem : ref ∈ free pool) :
    Leased (Function.update free pool ((free pool).erase ref)) held
      (Function.update owner ref .nobody) where
  free_owned := by
    intro other kept hkept
    by_cases hpool : other = pool
    · subst hpool
      rw [Function.update_self] at hkept
      obtain ⟨hne, hfree⟩ := (hleased.nodup other).mem_erase_iff.mp hkept
      rw [Function.update_of_ne hne]
      exact hleased.free_owned other kept hfree
    · rw [Function.update_of_ne hpool] at hkept
      have howner := hleased.free_owned other kept hkept
      have hne : kept ≠ ref := by
        intro hsame
        rw [hsame, hleased.free_owned pool ref hmem] at howner
        injection howner with howner
        exact hpool howner.symm
      rwa [Function.update_of_ne hne]
  held_owned := by
    intro client kept hheld
    have hne : kept ≠ ref := fun hsame => hleased.not_mem hheld pool (hsame ▸ hmem)
    rw [Function.update_of_ne hne]
    exact hleased.held_owned client kept hheld
  nodup := by
    intro other
    by_cases hpool : other = pool
    · subst hpool
      rw [Function.update_self]
      exact (hleased.nodup other).erase ref
    · rw [Function.update_of_ne hpool]
      exact hleased.nodup other

/-- What nobody has is put into a pool. -/
theorem put (hleased : Leased free held owner) (hnobody : owner ref = .nobody) (pool : Pool) :
    Leased (Function.update free pool (ref :: free pool)) held
      (Function.update owner ref (.pool pool)) where
  free_owned := by
    intro other kept hkept
    by_cases hsame : kept = ref
    · subst hsame
      by_cases hpool : other = pool
      · rw [hpool, Function.update_self]
      · rw [Function.update_of_ne hpool] at hkept
        rw [hleased.free_owned other kept hkept] at hnobody
        cases hnobody
    · have hfree : kept ∈ free other := by
        by_cases hpool : other = pool
        · subst hpool
          rw [Function.update_self] at hkept
          exact (List.mem_cons.mp hkept).resolve_left hsame
        · rwa [Function.update_of_ne hpool] at hkept
      rw [Function.update_of_ne hsame]
      exact hleased.free_owned other kept hfree
  held_owned := by
    intro client kept hheld
    have hkept := hleased.held_owned client kept hheld
    have hne : kept ≠ ref := by
      intro hsame
      rw [hsame, hnobody] at hkept
      cases hkept
    rwa [Function.update_of_ne hne]
  nodup := by
    intro other
    by_cases hpool : other = pool
    · subst hpool
      rw [Function.update_self, List.nodup_cons]
      refine ⟨fun hmem => ?_, hleased.nodup other⟩
      rw [hleased.free_owned other ref hmem] at hnobody
      cases hnobody
    · rw [Function.update_of_ne hpool]
      exact hleased.nodup other

end Pools

end Leased

end Xmqtt.Core
