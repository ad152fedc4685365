import LibEvRpc.Config.Dictionary

/-! # A dictionary is a map

As long as its keys are distinct, its hashes belong to its keys and it counts its entries, what a
dictionary gives depends on its entries alone. Every operation keeps this, and changes the contents at
one key. So any run of operations computes the map they describe, and a free slot is always found.
-/

namespace LibEvRpc

namespace Dictionary

open SlotTable

/-- What holds of a dictionary between two operations. -/
structure Valid (d : Dictionary) : Prop where
  count : d.n = (entries d.slots).length
  distinct : Distinct DictionaryEntry.key d.slots
  hashed : ∀ entry ∈ entries d.slots, entry.hash = dictionaryHash entry.key
  positive : 0 < d.size

theorem valid_new (size : ℕ) : (new size).Valid := by
  have none : entries (new size).slots = [] := entries_replicate_none _
  refine ⟨?_, ?_, ?_, ?_⟩
  · rw [none]
    rfl
  · rw [Distinct, none]
    exact List.nodup_nil
  · rw [none]
    exact fun _ member => absurd member List.not_mem_nil
  · rw [Dictionary.size, new, List.length_replicate, dictMinSz]
    split <;> omega

variable {d : Dictionary}

/-! ## Looking up -/

/-- A key that is found stands in the slot. -/
theorem find_eq_some {key : Bytes} {i : ℕ} (found : d.find key = some i) :
    ∃ entry, d.slots[i]? = some (some entry) ∧ entry.key = key := by
  obtain ⟨bound, matched, _⟩ := List.findIdx?_eq_some_iff_getElem.mp found
  obtain ⟨entry, taken, same⟩ := (Option.any_eq_true _ _).mp matched
  rw [Bool.and_eq_true, decide_eq_true_eq, decide_eq_true_eq] at same
  exact ⟨entry, by rw [List.getElem?_eq_getElem bound, taken], same.2.symm⟩

/-- A key that is not found is not there. -/
theorem Valid.find_eq_none (valid : d.Valid) {key : Bytes} (missing : d.find key = none) :
    ∀ entry ∈ entries d.slots, entry.key ≠ key := by
  rintro entry member rfl
  have unmatched := List.findIdx?_eq_none_iff.mp missing (some entry) (mem_entries.mp member)
  rw [Option.any_some, valid.hashed entry member] at unmatched
  simp at unmatched

theorem get_of_find {key : Bytes} {i : ℕ} {entry : DictionaryEntry} (found : d.find key = some i)
    (taken : d.slots[i]? = some (some entry)) : d.get key = some entry.val := by
  rw [get, found, Option.bind_some, taken]
  rfl

/-- What a dictionary gives is what its table gives. -/
theorem Valid.get_eq_lookup (valid : d.Valid) (key : Bytes) :
    d.get key = (lookup DictionaryEntry.key d.slots key).map DictionaryEntry.val := by
  cases found : d.find key with
  | none =>
    rw [lookup_eq_none_iff.mpr (valid.find_eq_none found), get, found]
    rfl
  | some i =>
    obtain ⟨entry, taken, same⟩ := find_eq_some found
    have member : entry ∈ entries d.slots := mem_entries.mpr (List.mem_of_getElem? taken)
    rw [get_of_find found taken, (lookup_eq_some_iff valid.distinct).mpr ⟨member, same⟩]
    rfl

/-- A key is there exactly when it has a value or the null pointer. -/
theorem Valid.mem_keys (valid : d.Valid) (key : Bytes) : key ∈ d.keys ↔ (d.get key).isSome := by
  rw [valid.get_eq_lookup, Option.isSome_map, keys, List.mem_map]
  constructor
  · rintro ⟨entry, member, same⟩
    rw [(lookup_eq_some_iff valid.distinct).mpr ⟨member, same⟩]
    rfl
  · intro found
    obtain ⟨entry, found⟩ := Option.isSome_iff_exists.mp found
    exact ⟨entry, (lookup_eq_some_iff valid.distinct).mp found⟩

/-! ## Operations -/

/-- A dictionary whose entries are those of another one and a new one. -/
theorem Valid.cons (valid : d.Valid) {key : Bytes} {val : Option Bytes} {other : Dictionary}
    (missing : ∀ entry ∈ entries d.slots, entry.key ≠ key) (count : other.n = d.n + 1)
    (positive : 0 < other.size)
    (same : (entries other.slots).Perm (⟨key, val, dictionaryHash key⟩ :: entries d.slots)) :
    other.Valid ∧ other.get = Function.update d.get key (some val) := by
  have otherValid : other.Valid := by
    refine ⟨?_, ?_, fun entry member => ?_, positive⟩
    · rw [count, valid.count, same.length_eq]
      rfl
    · refine (same.map _).nodup_iff.mpr (List.nodup_cons.mpr ⟨?_, valid.distinct⟩)
      rw [List.mem_map]
      rintro ⟨entry, member, equal⟩
      exact missing entry member equal
    · rcases List.mem_cons.mp (same.mem_iff.mp member) with rfl | old
      · rfl
      · exact valid.hashed entry old
  refine ⟨otherValid, funext fun wanted => ?_⟩
  rw [otherValid.get_eq_lookup, lookup_of_perm_cons otherValid.distinct same, Function.update_apply]
  by_cases equal : wanted = key
  · rw [if_pos equal.symm, if_pos equal]
    rfl
  · rw [if_neg fun other => equal other.symm, if_neg equal, valid.get_eq_lookup]

/-- Doubling adds free slots. -/
theorem Valid.memDouble (valid : d.Valid) : d.memDouble.Valid ∧
    entries d.memDouble.slots = entries d.slots ∧ d.memDouble.size = d.size + d.size := by
  have same : entries d.memDouble.slots = entries d.slots := by
    rw [Dictionary.memDouble, entries_append, entries_replicate_none, List.append_nil]
  have size : d.memDouble.size = d.size + d.size := by
    rw [Dictionary.size, Dictionary.memDouble, List.length_append, List.length_replicate]
    rfl
  refine ⟨⟨?_, ?_, ?_, ?_⟩, same, size⟩
  · rw [same]
    exact valid.count
  · rw [Distinct, same]
    exact valid.distinct
  · rw [same]
    exact valid.hashed
  · rw [size]
    exact Nat.add_pos_left valid.positive _

/-- A dictionary with room takes a new key. -/
private theorem Valid.add_of_room (valid : d.Valid) {key : Bytes} (val : Option Bytes)
    (missing : ∀ entry ∈ entries d.slots, entry.key ≠ key) (room : d.n < d.size) :
    ∃ other, ((firstFree d.slots d.size d.n).map fun i => (Dictionary.mk (d.n + 1)
        (d.slots.set i (some ⟨key, val, dictionaryHash key⟩)))) = some other ∧
      other.Valid ∧ other.get = Function.update d.get key (some val) := by
  obtain ⟨i, found⟩ := firstFree_isSome room (valid.count ▸ room)
  refine ⟨_, congrArg (Option.map _) found, valid.cons missing rfl ?_ ?_⟩
  · rw [Dictionary.size, List.length_set]
    exact valid.positive
  · exact entries_set_free (firstFree_eq_some found) _

theorem Valid.add (valid : d.Valid) {key : Bytes} (val : Option Bytes)
    (missing : ∀ entry ∈ entries d.slots, entry.key ≠ key) :
    ∃ other, d.add key val = some other ∧ other.Valid ∧
      other.get = Function.update d.get key (some val) := by
  rw [Dictionary.add]
  by_cases full : d.n = d.size
  · obtain ⟨doubled, same, size⟩ := valid.memDouble
    have room : d.memDouble.n < d.memDouble.size := by
      have positive := valid.positive
      change d.n < _
      omega
    have get : d.memDouble.get = d.get := by
      funext wanted
      rw [doubled.get_eq_lookup, valid.get_eq_lookup, lookup, same, ← lookup]
    rw [if_pos full, ← get]
    exact doubled.add_of_room val (same ▸ missing) room
  · rw [if_neg full]
    apply valid.add_of_room val missing
    have bound := length_entries_le d.slots
    rw [← valid.count] at bound
    exact lt_of_le_of_ne bound full

/-- Freeing the slot of a key removes the key. -/
theorem Valid.free (valid : d.Valid) {i : ℕ} {entry : DictionaryEntry}
    (taken : d.slots[i]? = some (some entry)) :
    (Dictionary.mk (d.n - 1) (d.slots.set i none)).Valid ∧
      (Dictionary.mk (d.n - 1) (d.slots.set i none)).get = Function.update d.get entry.key none ∧
      d.n = d.n - 1 + 1 ∧
      ∀ other ∈ entries (d.slots.set i none), other.key ≠ entry.key := by
  have same := entries_set_none taken
  have length := same.length_eq
  rw [List.length_cons, ← valid.count] at length
  have nodup := (same.map DictionaryEntry.key).nodup_iff.mp valid.distinct
  rw [List.map_cons, List.nodup_cons] at nodup
  have missing : ∀ other ∈ entries (d.slots.set i none), other.key ≠ entry.key :=
    fun other member equal => nodup.1 (List.mem_map.mpr ⟨other, member, equal⟩)
  have freed : (Dictionary.mk (d.n - 1) (d.slots.set i none)).Valid := by
    refine ⟨?_, nodup.2, fun other member => ?_, ?_⟩
    · dsimp only
      omega
    · exact valid.hashed other (same.mem_iff.mpr (List.mem_cons_of_mem _ member))
    · rw [Dictionary.size, List.length_set]
      exact valid.positive
  refine ⟨freed, funext fun wanted => ?_, by omega, missing⟩
  rw [freed.get_eq_lookup, Function.update_apply]
  split
  · next equal =>
    rw [equal, lookup_eq_none_iff.mpr missing]
    rfl
  · next different =>
    rw [valid.get_eq_lookup, lookup_of_perm_cons valid.distinct same, if_neg (Ne.symm different)]

/-- Unsetting a key removes it. -/
theorem Valid.unset (valid : d.Valid) (key : Bytes) :
    (d.unset key).Valid ∧ (d.unset key).get = Function.update d.get key none := by
  rw [Dictionary.unset]
  cases found : d.find key with
  | none =>
    refine ⟨valid, (Function.update_eq_self_iff.mpr ?_).symm⟩
    rw [Dictionary.get, found, Option.bind_none]
  | some i =>
    obtain ⟨entry, taken, rfl⟩ := find_eq_some found
    obtain ⟨freed, get, _⟩ := valid.free taken
    exact ⟨freed, get⟩

/-- Setting a key changes the contents there. -/
theorem Valid.set (valid : d.Valid) (key : Bytes) (val : Option Bytes) :
    ∃ other, d.set key val = some other ∧ other.Valid ∧
      other.get = Function.update d.get key (some val) := by
  rw [Dictionary.set]
  cases searched : if d.n > 0 then d.find key else none with
  | none =>
    apply valid.add val
    split at searched
    · exact valid.find_eq_none searched
    · next empty =>
      have none : entries d.slots = [] := by
        rw [← List.length_eq_zero_iff, ← valid.count]
        omega
      rw [none]
      exact fun _ member => absurd member List.not_mem_nil
  | some i =>
    obtain ⟨_, found⟩ := Option.ite_none_right_eq_some.mp searched
    obtain ⟨entry, taken, rfl⟩ := find_eq_some found
    -- a value that is replaced stands where its key would stand if it were removed and added again
    obtain ⟨freed, get, count, missing⟩ := valid.free taken
    have bound : i < d.slots.length := (List.getElem?_eq_some_iff.mp taken).1
    have hashed := valid.hashed entry (mem_entries.mpr (List.mem_of_getElem? taken))
    have replaced : d.slots.modify i (Option.map fun entry => { entry with val }) =
        (d.slots.set i none).set i (some ⟨entry.key, val, dictionaryHash entry.key⟩) := by
      rw [List.set_set, List.modify_eq_set_getElem?, taken, ← hashed]
      rfl
    have free : (d.slots.set i none)[i]? = some none := List.getElem?_set_self bound
    refine ⟨_, rfl, ?_⟩
    have idem := @Function.update_idem Bytes _ (fun _ => Option (Option Bytes)) entry.key none
      (some val) d.get
    rw [← idem, ← get]
    refine @Valid.cons _ freed entry.key val ⟨d.n, _⟩ missing count ?_ ?_
    · rw [Dictionary.size, List.length_modify]
      exact valid.positive
    · rw [replaced]
      exact entries_set_free free _

/-! ## Runs -/

theorem Valid.step (valid : d.Valid) (operation : Operation) :
    ∃ other, d.step operation = some other ∧ other.Valid ∧
      other.get = operation.apply d.get := by
  cases operation with
  | set key val => exact valid.set key val
  | unset key => exact ⟨_, rfl, valid.unset key⟩

theorem Valid.run (valid : d.Valid) (operations : List Operation) :
    ∃ other, operations.foldlM Dictionary.step d = some other ∧ other.Valid ∧
      other.get = operations.foldl Operation.apply d.get := by
  induction operations generalizing d with
  | nil => exact ⟨d, rfl, valid, rfl⟩
  | cons operation operations ih =>
    obtain ⟨next, stepped, nextValid, get⟩ := valid.step operation
    obtain ⟨last, run, lastValid, same⟩ := ih nextValid
    refine ⟨last, ?_, lastValid, ?_⟩
    · rw [List.foldlM_cons, stepped]
      exact run
    · rw [same, get, List.foldl_cons]

theorem get_new (size : ℕ) (key : Bytes) : (new size).get key = none := by
  rw [(valid_new size).get_eq_lookup]
  exact congrArg (Option.map _) (lookup_eq_none_iff.mpr fun entry member => by
    rw [new, entries_replicate_none] at member
    contradiction)

/-- Every run of operations on a new dictionary ends. Every key then has the value it was last set to,
unless it was unset since; every key that is there stands in one slot, and they are counted. -/
theorem run_new (size : ℕ) (operations : List Operation) :
    ∃ d, operations.foldlM Dictionary.step (new size) = some d ∧
      d.get = operations.foldl Operation.apply (fun _ => none) ∧
      d.keys.Nodup ∧ d.keys.length = d.n ∧ d.n ≤ d.size ∧
      ∀ key, key ∈ d.keys ↔ (operations.foldl Operation.apply (fun _ => none) key).isSome := by
  obtain ⟨d, run, valid, get⟩ := (valid_new size).run operations
  rw [funext (get_new size)] at get
  refine ⟨d, run, get, valid.distinct, ?_, ?_, ?_⟩
  · rw [keys, List.length_map, valid.count]
  · rw [valid.count]
    exact length_entries_le d.slots
  · intro key
    rw [valid.mem_keys, get]

end Dictionary

end LibEvRpc
