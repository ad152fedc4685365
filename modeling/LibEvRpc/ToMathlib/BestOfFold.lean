import Mathlib.Order.Defs.Unbundled
import Mathlib.Data.List.Basic
import Mathlib.Tactic.Common

/-! # The best member of a list, kept while it is read

A fold that replaces what it keeps by whatever comes before it ends with the one member that comes
before all others, whatever the order of the list.
-/

variable {α : Type*} {r : α → α → Prop}

/-- A member comes before every other one. -/
def IsBest (r : α → α → Prop) (members : List α) (best : α) : Prop :=
  best ∈ members ∧ ∀ other ∈ members, other ≠ best → r best other

instance [DecidableEq α] [DecidableRel r] (members : List α) (best : α) :
    Decidable (IsBest r members best) := inferInstanceAs (Decidable (_ ∧ _))

/-- Keep what is there, or the candidate if it comes before it. -/
def keepBest (r : α → α → Prop) [DecidableRel r] (best candidate : α) : α :=
  if r candidate best then candidate else best

namespace IsBest

/-- There is one best member at most. -/
theorem unique [Std.Asymm r] {members : List α} {first second : α} (best : IsBest r members first)
    (other : IsBest r members second) : first = second := by
  by_contra differ
  have forward : r first second := best.2 second other.1 fun same => differ same.symm
  have backward : r second first := other.2 first best.1 differ
  exact Std.Asymm.asymm _ _ forward backward

/-- The order of the members does not matter. -/
theorem congr {members others : List α} {best : α} (same : ∀ member, member ∈ members ↔ member ∈ others) :
    IsBest r members best ↔ IsBest r others best := by
  simp only [IsBest, same]

end IsBest

variable [DecidableRel r] [IsStrictTotalOrder α r]

/-- What is kept is the best of what was there and the candidate. -/
theorem keepBest_spec (best candidate : α) :
    (keepBest r best candidate = best ∨ r (keepBest r best candidate) best) ∧
      (keepBest r best candidate = candidate ∨ r (keepBest r best candidate) candidate) := by
  rw [keepBest]
  split
  · next better => exact ⟨.inr better, .inl rfl⟩
  · next notBetter =>
    refine ⟨.inl rfl, ?_⟩
    by_cases behind : r best candidate
    · exact .inr behind
    · exact .inl (Std.Trichotomous.trichotomous (r := r) best candidate behind notBetter)

/-- The fold ends with the best of its start and its list. -/
theorem isBest_foldl_keepBest (candidates : List α) (start : α) :
    IsBest r (start :: candidates) (candidates.foldl (keepBest r) start) := by
  induction candidates generalizing start with
  | nil => exact ⟨List.mem_singleton.mpr rfl, fun other member differ =>
      absurd (List.mem_singleton.mp member) differ⟩
  | cons candidate rest ih =>
    obtain ⟨member, before⟩ := ih (keepBest r start candidate)
    obtain ⟨overStart, overCandidate⟩ := keepBest_spec (r := r) start candidate
    rw [List.foldl_cons]
    set final := rest.foldl (keepBest r) (keepBest r start candidate)
    -- what the rest improves on is the start or the candidate, and before both of them
    have reaches {other : α} (kept : keepBest r start candidate = other ∨
        r (keepBest r start candidate) other) (differ : other ≠ final) : r final other := by
      by_cases improved : keepBest r start candidate = final
      · rw [improved] at kept
        exact kept.resolve_left fun same => differ same.symm
      · have step := before _ List.mem_cons_self improved
        rcases kept with rfl | later
        · exact step
        · exact IsTrans.trans _ _ _ step later
    constructor
    · rcases List.mem_cons.mp member with same | listed
      · rw [same, keepBest]
        split
        · exact List.mem_cons_of_mem _ List.mem_cons_self
        · exact List.mem_cons_self
      · exact List.mem_cons_of_mem _ (List.mem_cons_of_mem _ listed)
    · intro other listed differ
      rcases List.mem_cons.mp listed with rfl | listed
      · exact reaches overStart differ
      · rcases List.mem_cons.mp listed with rfl | listed
        · exact reaches overCandidate differ
        · exact before other (List.mem_cons_of_mem _ listed) differ

/-- The fold ends with the same member for every order of the list. -/
theorem foldl_keepBest_perm {candidates order : List α} (perm : order.Perm candidates) (start : α) :
    order.foldl (keepBest r) start = candidates.foldl (keepBest r) start := by
  have ordered := isBest_foldl_keepBest (r := r) order start
  rw [IsBest.congr fun member => (perm.cons start).mem_iff] at ordered
  exact ordered.unique (isBest_foldl_keepBest candidates start)
