import Mathlib.Data.List.Nodup
import Mathlib.Logic.Function.Basic

/-! # Linked lists in a memory of `next` fields

A chain is the list of the addresses that are met from a pointer along the `next` fields up to null.
It is determined by the pointer and meets no address twice; a write outside it leaves it as it is.
-/

namespace LinkedList

variable {α : Type*} {next other : α → Option α} {head : Option α} {items : List α} {item : α}

/-- The addresses from a pointer on are the given ones, and then comes null. -/
def Chain (next : α → Option α) : Option α → List α → Prop
  | head, [] => head = none
  | head, item :: rest => head = some item ∧ Chain next (next item) rest

@[simp] theorem chain_none : Chain next none items ↔ items = [] := by
  cases items with
  | nil => exact iff_of_true rfl rfl
  | cons item rest => exact iff_of_false (fun chain => nomatch chain.1) (List.cons_ne_nil _ _)

theorem chain_some {item : α} :
    Chain next (some item) items ↔ ∃ rest, items = item :: rest ∧ Chain next (next item) rest := by
  cases items with
  | nil =>
    refine iff_of_false (Option.some_ne_none item) ?_
    rintro ⟨_, shape, _⟩
    contradiction
  | cons first rest =>
    constructor
    · rintro ⟨same, chain⟩
      cases same
      exact ⟨rest, rfl, chain⟩
    · rintro ⟨_, shape, chain⟩
      cases shape
      exact ⟨rfl, chain⟩

/-- A pointer has one chain. -/
theorem Chain.unique {others : List α} (chain : Chain next head items)
    (again : Chain next head others) : items = others := by
  induction items generalizing head others with
  | nil =>
    rw [show head = none from chain, chain_none] at again
    exact again.symm
  | cons item rest ih =>
    rw [chain.1, chain_some] at again
    obtain ⟨more, rfl, behind⟩ := again
    rw [ih chain.2 behind]

/-- A chain goes on behind each of its addresses. -/
theorem Chain.from_mem (chain : Chain next head items) (member : item ∈ items) :
    ∃ before after, items = before ++ item :: after ∧ Chain next (next item) after := by
  induction items generalizing head with
  | nil => exact absurd member List.not_mem_nil
  | cons first rest ih =>
    rcases List.mem_cons.mp member with rfl | later
    · exact ⟨[], rest, rfl, chain.2⟩
    · obtain ⟨before, after, rfl, behind⟩ := ih chain.2 later
      exact ⟨first :: before, after, rfl, behind⟩

/-- A chain meets no address twice: behind both of them it would be the same. -/
theorem Chain.nodup (chain : Chain next head items) : items.Nodup := by
  induction items generalizing head with
  | nil => exact List.nodup_nil
  | cons item rest ih =>
    refine List.nodup_cons.mpr ⟨fun again => ?_, ih chain.2⟩
    obtain ⟨before, after, shape, behind⟩ := chain.2.from_mem again
    have lengths := congrArg List.length ((chain.2.unique behind).symm.trans shape)
    rw [List.length_append, List.length_cons] at lengths
    omega

/-- The chain depends on the fields of its own addresses only. -/
theorem Chain.congr (chain : Chain next head items) (agree : ∀ item ∈ items, other item = next item) :
    Chain other head items := by
  induction items generalizing head with
  | nil => exact chain
  | cons item rest ih =>
    refine ⟨chain.1, ?_⟩
    rw [agree item List.mem_cons_self]
    exact ih chain.2 fun later member => agree later (List.mem_cons_of_mem _ member)

/-- Places that are linked one to the next come in front of a chain. -/
theorem chain_map_range {place : ℕ → α} {count : ℕ}
    (links : ∀ i < count, next (place i) = some (place (i + 1)))
    (chain : Chain next (next (place count)) items) :
    Chain next (some (place 0)) ((List.range (count + 1)).map place ++ items) := by
  induction count generalizing place with
  | zero => exact ⟨rfl, chain⟩
  | succ count ih =>
    rw [List.range_succ_eq_map, List.map_cons, List.map_map, List.cons_append]
    refine ⟨rfl, ?_⟩
    rw [links 0 (by omega)]
    exact @ih (place ∘ Nat.succ) (fun i bound => links (i + 1) (by omega)) chain

/-- Consecutive addresses are linked in front of a chain. -/
theorem chain_range' {next : ℕ → Option ℕ} {start count : ℕ} {items : List ℕ}
    (links : ∀ item, start ≤ item → item < start + count → next item = some (item + 1))
    (chain : Chain next (next (start + count)) items) :
    Chain next (some start) (List.range' start (count + 1) ++ items) := by
  rw [List.range'_eq_map_range]
  exact @chain_map_range ℕ next items (start + ·) count
    (fun i bound => links (start + i) (by omega) (by omega)) chain

/-! ## Addresses met from a pointer -/

/-- An address is met from a pointer along the `next` fields. -/
inductive Met (next : α → Option α) : Option α → α → Prop
  | here {item : α} : Met next (some item) item
  | later {first item : α} (met : Met next (next first) item) : Met next (some first) item

theorem Chain.met_iff (chain : Chain next head items) : Met next head item ↔ item ∈ items := by
  constructor
  · intro met
    induction met generalizing items with
    | here =>
      obtain ⟨rest, rfl, _⟩ := chain_some.mp chain
      exact List.mem_cons_self
    | later _ ih =>
      obtain ⟨rest, rfl, behind⟩ := chain_some.mp chain
      exact List.mem_cons_of_mem _ (ih behind)
  · intro member
    induction items generalizing head with
    | nil => exact absurd member List.not_mem_nil
    | cons first rest ih =>
      rw [chain.1]
      rcases List.mem_cons.mp member with rfl | member
      · exact .here
      · exact .later (ih chain.2 member)

/-! ## Writes -/

variable [DecidableEq α]

theorem Chain.update_of_notMem {value : Option α} (chain : Chain next head items)
    (outside : item ∉ items) : Chain (Function.update next item value) head items := by
  apply chain.congr
  rintro other member
  apply Function.update_of_ne
  rintro rfl
  exact outside member

/-- An address is put in front of a chain. -/
theorem Chain.push (chain : Chain next head items) (outside : item ∉ items) :
    Chain (Function.update next item head) (some item) (item :: items) := by
  refine ⟨rfl, ?_⟩
  rw [Function.update_self]
  exact chain.update_of_notMem outside

/-- An address is linked behind the last one of a chain. -/
theorem Chain.concat {last : α} (chain : Chain next head (items ++ [last]))
    (outside : item ∉ items ++ [last]) (ending : next item = none) :
    Chain (Function.update next last (some item)) head (items ++ [last, item]) := by
  induction items generalizing head with
  | nil =>
    have differ : item ≠ last := fun same => outside (by simp [same])
    refine ⟨chain.1, ?_⟩
    rw [Function.update_self]
    refine ⟨rfl, ?_⟩
    rw [Function.update_of_ne differ]
    exact ending
  | cons first rest ih =>
    have differ : first ≠ last := by
      rintro rfl
      exact (List.nodup_cons.mp chain.nodup).1 (List.mem_append_right _ (List.mem_singleton_self _))
    refine ⟨chain.1, ?_⟩
    rw [Function.update_of_ne differ]
    exact ih chain.2 fun member => outside (List.mem_cons_of_mem _ member)

end LinkedList
