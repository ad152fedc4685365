import Mathlib.Data.List.AList
import Mathlib.Tactic.Common

/-! # Insert-if-absent and update-in-place on association lists

Mathlib's `AList.insert` overwrites. Hash-map libraries also offer an insertion that keeps an
existing binding and an update through an iterator; both are added here for non-dependent values,
with their effect on lookups, keys and size. Iteration order is the order of the entries.
-/

namespace AList

variable {α β : Type} [DecidableEq α]

/-- Bind a key only when it is absent. -/
def insertNew (key : α) (value : β) (map : AList fun _ : α => β) : AList fun _ : α => β :=
  if key ∈ map then map else map.insert key value

private def modifyEntry (key : α) (update : β → β) (entry : Sigma fun _ : α => β) :
    Sigma fun _ : α => β :=
  if entry.1 = key then ⟨entry.1, update entry.2⟩ else entry

private theorem keys_map_modifyEntry (key : α) (update : β → β)
    (entries : List (Sigma fun _ : α => β)) :
    (entries.map (modifyEntry key update)).keys = entries.keys := by
  simp only [List.keys, List.map_map]
  apply List.map_congr_left
  intro entry _
  simp only [Function.comp_apply, modifyEntry]
  split <;> rfl

/-- Update the value of a present key where it stands. -/
def modify (key : α) (update : β → β) (map : AList fun _ : α => β) : AList fun _ : α => β where
  entries := map.entries.map (modifyEntry key update)
  nodupKeys := by
    rw [List.NodupKeys, keys_map_modifyEntry]
    exact map.nodupKeys

variable {key other : α} {value : β} {update : β → β} {map : AList fun _ : α => β}

theorem insertNew_of_mem (present : key ∈ map) : map.insertNew key value = map := if_pos present

theorem mem_insertNew : other ∈ map.insertNew key value ↔ other = key ∨ other ∈ map := by
  unfold insertNew
  split
  · next present =>
    constructor
    · exact Or.inr
    · rintro (rfl | member)
      · exact present
      · exact member
  · exact mem_insert _

theorem lookup_insertNew_self :
    (map.insertNew key value).lookup key = some ((map.lookup key).getD value) := by
  unfold insertNew
  split
  · next present =>
    obtain ⟨old, found⟩ := Option.isSome_iff_exists.mp (lookup_isSome.mpr present)
    simp [found]
  · next absent => rw [lookup_insert, lookup_eq_none.mpr absent, Option.getD_none]

theorem lookup_insertNew_ne (different : other ≠ key) :
    (map.insertNew key value).lookup other = map.lookup other := by
  unfold insertNew
  split
  · rfl
  · exact lookup_insert_ne different

theorem keys_insertNew_of_notMem (absent : key ∉ map) :
    (map.insertNew key value).keys = key :: map.keys := by
  rw [insertNew, if_neg absent, insert_of_notMem absent]
  rfl

private theorem dlookup_map_modifyEntry (entries : List (Sigma fun _ : α => β)) :
    (entries.map (modifyEntry key update)).dlookup other =
      if other = key then (entries.dlookup other).map update else entries.dlookup other := by
  induction entries with
  | nil => simp
  | cons entry rest ih =>
    obtain ⟨first, current⟩ := entry
    by_cases hit : other = first
    · subst hit
      by_cases same : other = key
      · subst same
        simp [modifyEntry]
      · simp [modifyEntry, same]
    · have skip (value : β) (tail : List (Sigma fun _ : α => β)) :
          List.dlookup other (⟨first, value⟩ :: tail) = tail.dlookup other :=
        List.dlookup_cons_ne tail ⟨first, value⟩ hit
      have head : modifyEntry key update ⟨first, current⟩ =
          ⟨first, if first = key then update current else current⟩ := by
        unfold modifyEntry
        split <;> rfl
      rw [List.map_cons, head, skip, skip, ih]

@[simp] theorem lookup_modify_self :
    (map.modify key update).lookup key = (map.lookup key).map update :=
  (dlookup_map_modifyEntry map.entries).trans (if_pos rfl)

theorem lookup_modify_ne (different : other ≠ key) :
    (map.modify key update).lookup other = map.lookup other :=
  (dlookup_map_modifyEntry map.entries).trans (if_neg different)

@[simp] theorem keys_modify : (map.modify key update).keys = map.keys :=
  keys_map_modifyEntry key update map.entries

@[simp] theorem mem_modify : other ∈ map.modify key update ↔ other ∈ map := by
  rw [mem_keys, keys_modify, mem_keys]

/-! ## Filling a table with one value -/

theorem lookup_foldl_insertNew (value : β) (keys : List α) (map : AList fun _ : α => β) :
    (keys.foldl (fun map key => map.insertNew key value) map).lookup other =
      (map.lookup other).or (if other ∈ keys then some value else none) := by
  induction keys generalizing map with
  | nil => simp
  | cons key keys ih =>
    rw [List.foldl_cons, ih]
    by_cases same : other = key
    · rw [same, lookup_insertNew_self]
      cases map.lookup key <;> simp
    · rw [lookup_insertNew_ne same]
      simp [same]

/-- New distinct keys stand in front of the old ones, the last one first. -/
theorem keys_foldl_insertNew (value : β) {keys : List α} {map : AList fun _ : α => β}
    (nodup : keys.Nodup) (fresh : ∀ key ∈ keys, key ∉ map) :
    (keys.foldl (fun map key => map.insertNew key value) map).keys = keys.reverse ++ map.keys := by
  induction keys generalizing map with
  | nil => rfl
  | cons key keys ih =>
    obtain ⟨absent, nodup⟩ := List.nodup_cons.mp nodup
    have later (other : α) (member : other ∈ keys) : other ∉ map.insertNew key value := by
      rw [mem_insertNew]
      rintro (rfl | present)
      · exact absent member
      · exact fresh other (List.mem_cons_of_mem key member) present
    rw [List.foldl_cons, ih nodup later, keys_insertNew_of_notMem (fresh key List.mem_cons_self),
      List.reverse_cons, List.append_assoc, List.singleton_append]

/-! ## Last writer wins -/

/-- After a run of steps that each bind the key of an item, a lookup finds the last item with that
key, or else what was there before. -/
theorem lookup_foldl_of_step {ε : Type} {step : (AList fun _ : α => β) → ε → AList fun _ : α => β}
    {keyOf : ε → α} {valueOf : ε → β}
    (law : ∀ map item, (step map item).lookup other =
      if keyOf item = other then some (valueOf item) else map.lookup other)
    (items : List ε) (map : AList fun _ : α => β) :
    (items.foldl step map).lookup other =
      ((items.reverse.find? fun item => keyOf item = other).map valueOf).or (map.lookup other) := by
  induction items generalizing map with
  | nil => rfl
  | cons item items ih =>
    rw [List.foldl_cons, ih, law, List.reverse_cons, List.find?_append]
    cases found : items.reverse.find? fun item => keyOf item = other with
    | some later => rfl
    | none =>
      by_cases same : keyOf item = other
      · simp [same]
      · simp [same]

end AList
