import Mathlib.Data.List.Nodup
import Mathlib.Data.List.Perm.Basic
import Mathlib.Tactic.Common

/-! # Tables of slots

A table is a list of slots, each of them free or taken by an entry with a key. Where an entry stands
does not matter for a look up, so what an operation on a slot does to the entries is stated up to
their order. `firstFree` looks for a free slot from some position on and goes on at the beginning.
-/

namespace SlotTable

variable {α K : Type*}

def entries (slots : List (Option α)) : List α := slots.filterMap id

@[simp] theorem mem_entries {slots : List (Option α)} {entry : α} :
    entry ∈ entries slots ↔ some entry ∈ slots := by
  simp [entries]

theorem entries_append (first second : List (Option α)) :
    entries (first ++ second) = entries first ++ entries second := List.filterMap_append

@[simp] theorem entries_replicate_none (count : ℕ) :
    entries (List.replicate count (none : Option α)) = [] := by
  rw [entries, List.filterMap_eq_nil_iff]
  intro slot member
  exact List.eq_of_mem_replicate member

theorem length_entries_le (slots : List (Option α)) : (entries slots).length ≤ slots.length :=
  List.length_filterMap_le _ _

/-! ## Replacing a slot -/

/-- A slot that holds something, with the slots around it. -/
private theorem exists_around {slots : List (Option α)} {index : ℕ} {slot : Option α}
    (found : slots[index]? = some slot) :
    ∃ before after, slots = before ++ slot :: after ∧ before.length = index := by
  obtain ⟨bound, rfl⟩ := List.getElem?_eq_some_iff.mp found
  refine ⟨slots.take index, slots.drop (index + 1), ?_, ?_⟩
  · rw [List.getElem_cons_drop, List.take_append_drop]
  · rw [List.length_take]
    omega

/-- Taking a free slot adds its entry. -/
theorem entries_set_free {slots : List (Option α)} {index : ℕ} (free : slots[index]? = some none)
    (entry : α) : (entries (slots.set index (some entry))).Perm (entry :: entries slots) := by
  obtain ⟨before, after, rfl, rfl⟩ := exists_around free
  rw [List.set_append_right _ _ (Nat.le_refl _), Nat.sub_self, List.set_cons_zero, entries_append,
    entries_append]
  exact List.perm_middle

/-- Freeing a slot removes its entry. -/
theorem entries_set_none {slots : List (Option α)} {index : ℕ} {entry : α}
    (taken : slots[index]? = some (some entry)) :
    (entries slots).Perm (entry :: entries (slots.set index none)) := by
  obtain ⟨before, after, rfl, rfl⟩ := exists_around taken
  rw [List.set_append_right _ _ (Nat.le_refl _), Nat.sub_self, List.set_cons_zero, entries_append,
    entries_append]
  exact List.perm_middle

/-! ## Keys -/

section Keys

variable [DecidableEq K] (key : α → K)

/-- No two entries have the same key. -/
def Distinct (slots : List (Option α)) : Prop := ((entries slots).map key).Nodup

def lookup (slots : List (Option α)) (wanted : K) : Option α :=
  (entries slots).find? fun entry => key entry = wanted

variable {key}

theorem lookup_eq_none_iff {slots : List (Option α)} {wanted : K} :
    lookup key slots wanted = none ↔ ∀ entry ∈ entries slots, key entry ≠ wanted := by
  simp [lookup, List.find?_eq_none]

/-- Among distinct keys, the entry that is found is the one with the key. -/
theorem lookup_eq_some_iff {slots : List (Option α)} (distinct : Distinct key slots) {wanted : K}
    {entry : α} :
    lookup key slots wanted = some entry ↔ entry ∈ entries slots ∧ key entry = wanted := by
  constructor
  · intro found
    exact ⟨List.mem_of_find?_eq_some found, by simpa using List.find?_some found⟩
  · rintro ⟨member, rfl⟩
    cases found : lookup key slots (key entry) with
    | none => exact absurd rfl (lookup_eq_none_iff.mp found entry member)
    | some other =>
      have same : key other = key entry := by simpa using List.find?_some found
      rw [List.inj_on_of_nodup_map distinct (List.mem_of_find?_eq_some found) member same]

/-- The entries decide what is found, up to their order. -/
theorem lookup_congr {slots others : List (Option α)} (distinct : Distinct key slots)
    (same : (entries slots).Perm (entries others)) (wanted : K) :
    lookup key others wanted = lookup key slots wanted := by
  have otherDistinct : Distinct key others := (same.map key).nodup_iff.mp distinct
  cases found : lookup key slots wanted with
  | none =>
    rw [lookup_eq_none_iff] at found ⊢
    exact fun entry member => found entry (same.mem_iff.mpr member)
  | some entry =>
    rw [lookup_eq_some_iff distinct] at found
    rw [lookup_eq_some_iff otherDistinct]
    exact ⟨same.mem_iff.mp found.1, found.2⟩

/-- A new entry is found under its key, and every other one as before. -/
theorem lookup_of_perm_cons {slots others : List (Option α)} {entry : α}
    (distinct : Distinct key others) (same : (entries others).Perm (entry :: entries slots))
    (wanted : K) :
    lookup key others wanted = if key entry = wanted then some entry else lookup key slots wanted := by
  have cons : lookup key (some entry :: slots) wanted =
      if key entry = wanted then some entry else lookup key slots wanted := by
    simp only [lookup, entries, List.filterMap_cons_some (f := id) (b := entry) rfl, List.find?_cons]
    split <;> simp_all
  rw [← cons]
  refine lookup_congr ?_ ?_ wanted
  · exact (same.map key).nodup_iff.mp distinct
  · exact same.symm

end Keys

/-! ## The first free slot -/

/-- The position behind another one, in a circle. -/
def following (size index : ℕ) : ℕ := if index + 1 = size then 0 else index + 1

/-- The first free slot from a position on, going on at the beginning. Every step uses up one of a
number of tries. -/
def firstFree (slots : List (Option α)) : ℕ → ℕ → Option ℕ
  | 0, _ => none
  | tries + 1, index =>
      match slots[index]? with
      | none => none
      | some none => some index
      | some (some _) => firstFree slots tries (following slots.length index)

/-- What is found is a free slot. -/
theorem firstFree_eq_some {slots : List (Option α)} {tries index found : ℕ}
    (success : firstFree slots tries index = some found) : slots[found]? = some none := by
  induction tries generalizing index with
  | zero => contradiction
  | succ tries ih =>
    rw [firstFree] at success
    split at success
    · contradiction
    · next free =>
      cases success
      exact free
    · exact ih success

/-- The number of steps from a position to another one, in a circle. -/
def distance (size index target : ℕ) : ℕ :=
  if index ≤ target then target - index else target + size - index

private theorem distance_following {size index target : ℕ} (inside : index < size)
    (targetInside : target < size) (different : index ≠ target) :
    distance size (following size index) target + 1 = distance size index target := by
  unfold distance following
  split_ifs <;> omega

private theorem firstFree_of_distance {slots : List (Option α)} {tries index target : ℕ}
    (free : slots[target]? = some none) (inside : index < slots.length)
    (near : distance slots.length index target < tries) :
    ∃ found, firstFree slots tries index = some found := by
  induction tries generalizing index with
  | zero => exact absurd near (Nat.not_lt_zero _)
  | succ tries ih =>
    rw [firstFree]
    obtain ⟨targetInside, _⟩ := List.getElem?_eq_some_iff.mp free
    split
    · next outside => exact absurd (List.getElem?_eq_none_iff.mp outside) (Nat.not_le.mpr inside)
    · exact ⟨index, rfl⟩
    · next entry taken =>
      have different : index ≠ target := by
        rintro rfl
        cases free.symm.trans taken
      have nearer := distance_following inside targetInside different
      apply ih
      · unfold following
        split_ifs <;> omega
      · omega

/-- A free slot is found within one round, if there is one. -/
theorem firstFree_isSome {slots : List (Option α)} {index : ℕ} (inside : index < slots.length)
    (room : (entries slots).length < slots.length) :
    ∃ found, firstFree slots slots.length index = some found := by
  have free : none ∈ slots := by
    by_contra full
    have fewer := List.length_filterMap_lt_length_iff_exists.mp room
    obtain ⟨slot, member, same⟩ := fewer
    exact full (same ▸ member)
  obtain ⟨target, bound, same⟩ := List.getElem_of_mem free
  apply firstFree_of_distance (List.getElem?_eq_some_iff.mpr ⟨bound, same⟩) inside
  unfold distance
  split_ifs <;> omega

end SlotTable
