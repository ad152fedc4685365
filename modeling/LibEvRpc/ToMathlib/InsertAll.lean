import Mathlib.Data.Finset.Card
import Mathlib.Data.Finset.Range
import Mathlib.Data.List.Perm.Basic
import Mathlib.Tactic.Linarith

/-! # Entries inserted where they are absent

`insertAll` inserts a list of entries into an ordered map and keeps what is there. The map only
grows, the first entry of a key is the one that stays, and the order of the entries matters only
where two of them bind one key differently. An empty map becomes as large as there are keys among the
entries. Along a chain of growing maps the insertion of a whole map is the larger of the two.
-/

/-- A sequence that repeats itself, and only so, takes as many values as its period allows. -/
theorem Finset.card_image_range_of_period {α : Type} [DecidableEq α] {f : ℕ → α} {period : ℕ}
    (positive : 0 < period) (repeats : ∀ i j, f i = f j ↔ i % period = j % period) (n : ℕ) :
    ((Finset.range n).image f).card = min n period := by
  have values : (Finset.range n).image f = (Finset.range (min n period)).image f := by
    ext value
    simp only [Finset.mem_image, Finset.mem_range]
    constructor
    · rintro ⟨i, bound, rfl⟩
      have below := Nat.mod_lt i positive
      have smaller := Nat.mod_le i period
      exact ⟨i % period, by omega, (repeats _ _).mpr (Nat.mod_mod i period)⟩
    · rintro ⟨i, bound, rfl⟩
      exact ⟨i, by omega, rfl⟩
  rw [values, Finset.card_image_of_injOn, Finset.card_range]
  intro i first j second same
  rw [Finset.mem_coe, Finset.mem_range] at first second
  have remainders := (repeats i j).mp same
  rwa [Nat.mod_eq_of_lt (by omega), Nat.mod_eq_of_lt (by omega)] at remainders

namespace Std.ExtTreeMap

variable {κ β : Type} {cmp : κ → κ → Ordering} [TransCmp cmp]

/-- Every entry of a map is one of a larger map. -/
def Extends (larger map : ExtTreeMap κ β cmp) : Prop :=
  ∀ (key : κ) (value : β), map[key]? = some value → larger[key]? = some value

theorem Extends.refl (map : ExtTreeMap κ β cmp) : Extends map map := fun _ _ => id

theorem Extends.trans {first second third : ExtTreeMap κ β cmp} (upper : Extends first second)
    (lower : Extends second third) : Extends first third :=
  fun key value found => upper key value (lower key value found)

theorem extends_empty (map : ExtTreeMap κ β cmp) : Extends map ∅ := by
  intro key value found
  rw [getElem?_empty] at found
  contradiction

/-- Insert entries one after the other, each where its key is absent. -/
def insertAll (entries : List (κ × β)) (map : ExtTreeMap κ β cmp) : ExtTreeMap κ β cmp :=
  entries.foldl (fun map entry => map.insertIfNew entry.1 entry.2) map

@[simp] theorem insertAll_nil (map : ExtTreeMap κ β cmp) : insertAll [] map = map := rfl

theorem insertAll_cons (entry : κ × β) (entries : List (κ × β)) (map : ExtTreeMap κ β cmp) :
    insertAll (entry :: entries) map = insertAll entries (map.insertIfNew entry.1 entry.2) := rfl

theorem insertAll_append (first second : List (κ × β)) (map : ExtTreeMap κ β cmp) :
    insertAll (first ++ second) map = insertAll second (insertAll first map) := List.foldl_append

variable [LawfulEqCmp cmp] [DecidableEq κ]

theorem getElem?_insertIfNew_eq (map : ExtTreeMap κ β cmp) (entry : κ × β) (key : κ) :
    (map.insertIfNew entry.1 entry.2)[key]? =
      map[key]?.or (if entry.1 = key then some entry.2 else none) := by
  rw [getElem?_insertIfNew]
  simp only [LawfulEqCmp.compare_eq_iff_eq]
  by_cases same : entry.1 = key
  · subst same
    cases found : map[entry.1]? with
    | none => simp [mem_iff_isSome_getElem?, found]
    | some old => simp [mem_iff_isSome_getElem?, found]
  · simp [same]

/-- What is found: the old entry, or else the first new one of the key. -/
theorem getElem?_insertAll (entries : List (κ × β)) (map : ExtTreeMap κ β cmp) (key : κ) :
    (insertAll entries map)[key]? =
      map[key]?.or ((entries.find? fun entry => entry.1 = key).map Prod.snd) := by
  induction entries generalizing map with
  | nil => simp
  | cons entry entries ih =>
    rw [insertAll_cons, ih, getElem?_insertIfNew_eq, Option.or_assoc]
    by_cases same : entry.1 = key
    · simp [same]
    · simp [same]

theorem insertAll_extends (entries : List (κ × β)) (map : ExtTreeMap κ β cmp) :
    Extends (insertAll entries map) map := by
  intro key value found
  rw [getElem?_insertAll, found, Option.some_or]

/-- A key the map did not have is bound to the value of one of the entries. -/
theorem mem_of_getElem?_insertAll {entries : List (κ × β)} {map : ExtTreeMap κ β cmp} {key : κ}
    {value : β} (absent : key ∉ map) (found : (insertAll entries map)[key]? = some value) :
    (key, value) ∈ entries := by
  rw [getElem?_insertAll, getElem?_eq_none absent, Option.none_or] at found
  obtain ⟨⟨other, stored⟩, first, same⟩ := Option.map_eq_some_iff.mp found
  have key_eq : other = key := by simpa using List.find?_some first
  have value_eq : stored = value := same
  rw [← key_eq, ← value_eq]
  exact List.mem_of_find?_eq_some first

theorem mem_insertAll {entries : List (κ × β)} {map : ExtTreeMap κ β cmp} {key : κ} :
    key ∈ insertAll entries map ↔ key ∈ map ∨ ∃ entry ∈ entries, entry.1 = key := by
  rw [mem_iff_isSome_getElem?, getElem?_insertAll, Option.isSome_or, Option.isSome_map, Bool.or_eq_true,
    ← mem_iff_isSome_getElem?, List.find?_isSome]
  simp only [decide_eq_true_eq]

/-- A map made of some entries has one for each key among them. -/
theorem size_insertAll_empty (entries : List (κ × β)) :
    (insertAll entries (∅ : ExtTreeMap κ β cmp)).size = (entries.map Prod.fst).toFinset.card := by
  rw [← length_keys, ← List.toFinset_card_of_nodup nodup_keys]
  congr 1
  ext key
  rw [List.mem_toFinset, List.mem_toFinset, mem_keys, mem_insertAll, List.mem_map]
  exact or_iff_right not_mem_empty

/-- A map stays as it is exactly when it has the keys of all entries. -/
theorem insertAll_eq_self_iff {entries : List (κ × β)} {map : ExtTreeMap κ β cmp} :
    insertAll entries map = map ↔ ∀ entry ∈ entries, entry.1 ∈ map := by
  constructor
  · intro same entry member
    rw [← same, mem_insertAll]
    exact .inr ⟨entry, member, rfl⟩
  · intro present
    apply ext_getElem?
    intro key
    rw [getElem?_insertAll]
    cases found : map[key]? with
    | some value => rfl
    | none =>
      have none : (entries.find? fun entry => entry.1 = key) = none := by
        apply List.find?_eq_none.mpr
        intro entry member same
        have old := present entry member
        rw [of_decide_eq_true same, mem_iff_isSome_getElem?, found] at old
        contradiction
      rw [none]
      rfl

/-- Two entries of a list bind a key differently. -/
def Conflicting (entries : List (κ × β)) : Prop :=
  ∃ first ∈ entries, ∃ second ∈ entries, first.1 = second.1 ∧ first.2 ≠ second.2

omit [TransCmp cmp] [LawfulEqCmp cmp] in
private theorem find?_eq_of_mem {entries : List (κ × β)} {entry : κ × β}
    (consistent : ¬ Conflicting entries) (member : entry ∈ entries) :
    (entries.find? fun other => other.1 = entry.1).map Prod.snd = some entry.2 := by
  cases found : entries.find? fun other => other.1 = entry.1 with
  | none => exact absurd (decide_eq_true rfl) (List.find?_eq_none.mp found entry member)
  | some other =>
    rw [Option.map_some, Option.some.injEq]
    by_contra different
    have key_eq : other.1 = entry.1 := by simpa using List.find?_some found
    exact consistent ⟨other, List.mem_of_find?_eq_some found, entry, member, key_eq, different⟩

/-- Entries that agree on their keys can be inserted in any order, and any number of times. -/
theorem insertAll_eq_of_mem_iff {first second : List (κ × β)} (map : ExtTreeMap κ β cmp)
    (consistent : ¬ Conflicting first) (same : ∀ entry, entry ∈ first ↔ entry ∈ second) :
    insertAll first map = insertAll second map := by
  have other : ¬ Conflicting second := by
    rintro ⟨one, oneMem, two, twoMem, conflict⟩
    exact consistent ⟨one, (same one).mpr oneMem, two, (same two).mpr twoMem, conflict⟩
  apply ext_getElem?
  intro key
  rw [getElem?_insertAll, getElem?_insertAll]
  congr 1
  cases found : first.find? fun entry => entry.1 = key with
  | none =>
    have none : (second.find? fun entry => entry.1 = key) = none := by
      apply List.find?_eq_none.mpr
      exact fun entry member => List.find?_eq_none.mp found entry ((same entry).mpr member)
    rw [none]
  | some entry =>
    have key_eq : entry.1 = key := by simpa using List.find?_some found
    have member := (same entry).mp (List.mem_of_find?_eq_some found)
    rw [← key_eq, find?_eq_of_mem other member]
    rfl

/-! ## Chains -/

/-- Inserting a map into one that extends it changes nothing. -/
theorem insertAll_toList_of_extends {larger map : ExtTreeMap κ β cmp} (above : Extends larger map) :
    insertAll map.toList larger = larger := by
  apply insertAll_eq_self_iff.mpr
  rintro ⟨key, value⟩ member
  rw [mem_iff_isSome_getElem?, above key value (mem_toList_iff_getElem?_eq_some.mp member)]
  rfl

/-- The entry of a key among the entries of a map. -/
theorem find?_toList (map : ExtTreeMap κ β cmp) (key : κ) :
    (map.toList.find? fun entry => entry.1 = key).map Prod.snd = map[key]? := by
  cases found : map[key]? with
  | some value =>
    have consistent : ¬ Conflicting map.toList := by
      rintro ⟨⟨_, one⟩, oneMem, ⟨_, two⟩, twoMem, rfl, different⟩
      have first := mem_toList_iff_getElem?_eq_some.mp oneMem
      rw [mem_toList_iff_getElem?_eq_some.mp twoMem] at first
      exact different (Option.some.inj first).symm
    exact @find?_eq_of_mem κ β _ map.toList (key, value) consistent
      (mem_toList_iff_getElem?_eq_some.mpr found)
  | none =>
    have absent : (map.toList.find? fun entry => entry.1 = key) = none := by
      apply List.find?_eq_none.mpr
      rintro ⟨other, value⟩ member same
      have present := mem_toList_iff_getElem?_eq_some.mp member
      rw [show other = key from of_decide_eq_true same, found] at present
      contradiction
    rw [absent]
    rfl

/-- What is found behind the insertion of a whole map. -/
theorem getElem?_insertAll_toList (other map : ExtTreeMap κ β cmp) (key : κ) :
    (insertAll other.toList map)[key]? = map[key]?.or other[key]? := by
  rw [getElem?_insertAll, find?_toList]

/-- Inserting a map that extends another one makes it that map. -/
theorem insertAll_toList_of_extended {larger map : ExtTreeMap κ β cmp} (above : Extends larger map) :
    insertAll larger.toList map = larger := by
  apply ext_getElem?
  intro key
  rw [getElem?_insertAll_toList]
  cases found : map[key]? with
  | some value => rw [above key value found, Option.some_or]
  | none => rw [Option.none_or]

/-- Maps of a growing chain, inserted in any order, add up to the last one of them. -/
theorem foldl_insertAll_chain {ι : Type} [LinearOrder ι] {chain : ι → ExtTreeMap κ β cmp}
    (grows : ∀ first second, first ≤ second → Extends (chain second) (chain first))
    {picks : List ι} {start last : ι} (applied : last ∈ start :: picks)
    (recent : ∀ pick ∈ start :: picks, pick ≤ last) :
    picks.foldl (fun map pick => insertAll (chain pick).toList map) (chain start) = chain last := by
  induction picks generalizing start with
  | nil => rw [List.mem_singleton.mp applied, List.foldl_nil]
  | cons pick picks ih =>
    obtain ⟨startBound, rest⟩ := List.forall_mem_cons.mp recent
    obtain ⟨pickBound, rest⟩ := List.forall_mem_cons.mp rest
    rw [List.foldl_cons]
    rcases LinearOrder.le_total pick start with below | above
    · rw [insertAll_toList_of_extends (grows pick start below)]
      refine ih ?_ (List.forall_mem_cons.mpr ⟨startBound, rest⟩)
      rcases List.mem_cons.mp applied with rfl | later
      · exact List.mem_cons_self
      · rcases List.mem_cons.mp later with rfl | later
        · rw [below.antisymm startBound]
          exact List.mem_cons_self
        · exact List.mem_cons_of_mem start later
    · rw [insertAll_toList_of_extended (grows start pick above)]
      refine ih ?_ (List.forall_mem_cons.mpr ⟨pickBound, rest⟩)
      rcases List.mem_cons.mp applied with rfl | later
      · rw [above.antisymm pickBound]
        exact List.mem_cons_self
      · exact later

end Std.ExtTreeMap
