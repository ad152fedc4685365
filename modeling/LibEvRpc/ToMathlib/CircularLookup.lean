import LibEvRpc.ToMathlib.InsertAll

/-! # Lookup on a circle of keys

The keys of an ordered map, read from a given key upwards and on from the smallest one, form a
circle. `successor?` finds the first entry on it. It is the one entry that no key of the map
precedes, so a larger map moves it only to an entry the smaller map does not have.
-/

namespace Std.ExtTreeMap

variable {κ β : Type} {cmp : κ → κ → Ordering} [TransCmp cmp]

/-- The entries in order decide which one is the first at or above a key. -/
theorem getEntryGE?_eq_find? (map : ExtTreeMap κ β cmp) (key : κ) :
    map.getEntryGE? key = map.toList.find? fun entry => (cmp key entry.1).isLE := by
  obtain ⟨inner⟩ := map
  induction inner using ExtDTreeMap.inductionOn with
  | mk tree =>
    let _ : Ord κ := ⟨cmp⟩
    change DTreeMap.Internal.Impl.Const.getEntryGE? key tree.inner =
      (DTreeMap.Internal.Impl.Const.toList tree.inner).find? _
    rw [DTreeMap.Internal.Impl.Const.getEntryGE?_eq_map,
      DTreeMap.Internal.Impl.getEntryGE?_eq_find? tree.wf.ordered,
      DTreeMap.Internal.Impl.Const.toList_eq_toListModel_map, List.find?_map]
    congr 2
    funext entry
    exact @OrientedCmp.isGE_eq_isLE κ cmp _ entry.1 key

/-- The smallest entry is the first in order. -/
theorem minEntry?_eq_head? (map : ExtTreeMap κ β cmp) : map.minEntry? = map.toList.head? := by
  obtain ⟨inner⟩ := map
  induction inner using ExtDTreeMap.inductionOn with
  | mk tree =>
    let _ : Ord κ := ⟨cmp⟩
    change DTreeMap.Internal.Impl.Const.minEntry? tree.inner =
      (DTreeMap.Internal.Impl.Const.toList tree.inner).head?
    rw [DTreeMap.Internal.Impl.Const.minEntry?_eq_minEntry?,
      DTreeMap.Internal.Impl.minEntry?_eq_minEntry? tree.wf.ordered,
      Std.Internal.List.minEntry?_eq_head? tree.wf.ordered,
      DTreeMap.Internal.Impl.Const.toList_eq_toListModel_map, List.head?_map]

/-! ## The first entry from a key on -/

/-- The first entry at or above a key, or else the smallest one. -/
def successor? (map : ExtTreeMap κ β cmp) (key : κ) : Option (κ × β) :=
  (map.getEntryGE? key).or map.minEntry?

/-- On the circle that starts at a key, one key is not behind another. -/
def Precedes (cmp : κ → κ → Ordering) (key first second : κ) : Prop :=
  if (cmp key first).isLE = (cmp key second).isLE then (cmp first second).isLE
  else (cmp key first).isLE

omit [TransCmp cmp] in
theorem Precedes.antisymm [OrientedCmp cmp] [LawfulEqCmp cmp] {key first second : κ}
    (forward : Precedes cmp key first second) (backward : Precedes cmp key second first) :
    first = second := by
  rw [Precedes] at forward backward
  split at forward
  · next same =>
    rw [if_pos same.symm] at backward
    rw [← @OrientedCmp.isGE_eq_isLE κ cmp] at backward
    exact LawfulEqCmp.eq_of_compare (Ordering.eq_eq_of_isLE_of_isGE forward backward)
  · next differ =>
    rw [if_neg fun same => differ same.symm] at backward
    exact absurd (forward.trans backward.symm) differ

omit [TransCmp cmp] in
theorem Precedes.refl [ReflCmp cmp] (key : κ) (other : κ) : Precedes cmp key key other := by
  have self : (cmp key key).isLE := ReflCmp.isLE_rfl
  rw [Precedes, self]
  split
  · next same => exact same.symm
  · rfl

/-- What is first behind a key that is not behind two others is first of these two from further off. -/
theorem Precedes.of_later {key later first second : κ} (near : Precedes cmp key later first)
    (far : Precedes cmp key later second) (ahead : Precedes cmp later first second) :
    Precedes cmp key first second := by
  have reaches {other : κ} (above : (cmp key later).isLE) (behind : (cmp later other).isLE) :
      (cmp key other).isLE := TransCmp.isLE_trans above behind
  rw [Precedes] at *
  split
  · next same =>
    have alike : (cmp later first).isLE = (cmp later second).isLE := by
      rw [← same] at far
      split at near
      · next together =>
        rw [if_pos together] at far
        rw [near, far]
      · next apart =>
        have wrapped : ¬ (cmp key first).isLE := fun above => apart (near.trans above.symm)
        rw [Bool.eq_false_iff.mpr fun behind => wrapped (reaches near behind),
          Bool.eq_false_iff.mpr fun behind => wrapped (same ▸ reaches near behind)]
    rwa [if_pos alike] at ahead
  · next differ =>
    by_contra below
    have above : (cmp key second).isLE := by
      rw [Bool.not_eq_true] at below
      rw [below] at differ
      exact (Bool.eq_true_of_not_eq_false fun same => differ same.symm)
    rw [above] at far
    split at far
    · next start =>
      have before : ¬ (cmp later first).isLE := fun behind => below (reaches start behind)
      rw [if_neg fun same => before (same.trans far)] at ahead
      exact before ahead
    · next start => exact start far

private theorem precedes_of_first {entries : List (κ × β)} {key : κ} {entry : κ × β}
    (ordered : entries.Pairwise fun a b => cmp a.1 b.1 = .lt)
    (first : (entries.find? fun entry => (cmp key entry.1).isLE).or entries.head? = some entry) :
    entry ∈ entries ∧ ∀ other ∈ entries, Precedes cmp key entry.1 other.1 := by
  have atOrBehind (before : List (κ × β)) {after : List (κ × β)} {other : κ × β}
      (shape : entries = before ++ entry :: after) (member : other ∈ entry :: after) :
      (cmp entry.1 other.1).isLE := by
    rw [shape] at ordered
    have tail := (List.pairwise_append.mp ordered).2.1
    rcases List.mem_cons.mp member with rfl | behind
    · rw [@ReflCmp.compare_self κ cmp _ _]
      rfl
    · rw [(List.pairwise_cons.mp tail).1 other behind]
      rfl
  cases found : entries.find? fun entry => (cmp key entry.1).isLE with
  | some other =>
    rw [found, Option.some_or, Option.some.injEq] at first
    subst first
    obtain ⟨above, before, after, shape, below⟩ := List.find?_eq_some_iff_append.mp found
    refine ⟨List.mem_of_find?_eq_some found, fun next member => ?_⟩
    rw [Precedes]
    split
    · next same =>
      rw [shape] at member
      rcases List.mem_append.mp member with earlier | later
      · have notAbove := below next earlier
        rw [← same, above] at notAbove
        contradiction
      · exact atOrBehind before shape later
    · exact above
  | none =>
    rw [found, Option.none_or] at first
    obtain ⟨after, shape⟩ := List.head?_eq_some_iff.mp first
    have below := List.find?_eq_none.mp found
    have present : entry ∈ entries := List.mem_of_head? first
    refine ⟨present, fun next member => ?_⟩
    have same : (cmp key entry.1).isLE = (cmp key next.1).isLE := by
      rw [Bool.eq_false_iff.mpr (below entry present), Bool.eq_false_iff.mpr (below next member)]
    rw [Precedes, if_pos same]
    exact atOrBehind [] shape (shape ▸ member)

theorem successor?_eq_none_iff {map : ExtTreeMap κ β cmp} {key : κ} :
    map.successor? key = none ↔ map = ∅ := by
  rw [successor?, Option.or_eq_none_iff, minEntry?_eq_head?, List.head?_eq_none_iff, toList_eq_nil_iff,
    getEntryGE?_eq_find?]
  constructor
  · exact And.right
  · rintro rfl
    exact ⟨by rw [toList_eq_nil_iff.mpr rfl]; rfl, rfl⟩

variable [LawfulEqCmp cmp]

/-- The successor is the one entry that no key of the map precedes. -/
theorem successor?_eq_some_iff {map : ExtTreeMap κ β cmp} {key : κ} {entry : κ × β} :
    map.successor? key = some entry ↔
      map[entry.1]? = some entry.2 ∧ ∀ other ∈ map, Precedes cmp key entry.1 other := by
  have spec {found : κ × β} (success : map.successor? key = some found) :
      map[found.1]? = some found.2 ∧ ∀ other ∈ map, Precedes cmp key found.1 other := by
    rw [successor?, getEntryGE?_eq_find?, minEntry?_eq_head?] at success
    obtain ⟨present, first⟩ := precedes_of_first map.ordered_keys_toList success
    refine ⟨mem_toList_iff_getElem?_eq_some.mp present, fun other member => ?_⟩
    exact first (other, map[other]) (mem_toList_iff_getElem?_eq_some.mpr (getElem?_eq_some_getElem member))
  constructor
  · exact spec
  · rintro ⟨present, first⟩
    have member : entry.1 ∈ map := mem_iff_isSome_getElem?.mpr (present ▸ rfl)
    cases success : map.successor? key with
    | none =>
      rw [successor?_eq_none_iff.mp success] at member
      exact absurd member not_mem_empty
    | some other =>
      obtain ⟨otherPresent, otherFirst⟩ := spec success
      have otherMember : other.1 ∈ map := mem_iff_isSome_getElem?.mpr (otherPresent ▸ rfl)
      have same : other.1 = entry.1 := (otherFirst entry.1 member).antisymm (first other.1 otherMember)
      rw [same, present, Option.some.injEq] at otherPresent
      rw [Option.some.injEq]
      exact Prod.ext same otherPresent.symm

/-- In a larger map the successor is the old one or an entry the smaller map does not have. -/
theorem successor?_of_extension {map larger : ExtTreeMap κ β cmp} {key : κ} {entry : κ × β}
    (above : Extends larger map)
    (success : larger.successor? key = some entry) :
    entry.1 ∉ map ∨ map.successor? key = some entry := by
  obtain ⟨present, first⟩ := successor?_eq_some_iff.mp success
  have kept {other : κ} (member : other ∈ map) : larger[other]? = map[other]? := by
    rw [above other map[other] (getElem?_eq_some_getElem member), getElem?_eq_some_getElem member]
  by_cases member : entry.1 ∈ map
  · refine .inr (successor?_eq_some_iff.mpr ⟨(kept member).symm.trans present, fun other old => ?_⟩)
    apply first
    rw [mem_iff_isSome_getElem?, kept old]
    exact mem_iff_isSome_getElem?.mp old
  · exact .inl member

/-! ## Lookups behind an insertion -/

/-- Where one map is inserted into another, every lookup finds the value it finds in the first map
exactly when each entry of the second map has the value that the first map has behind its key. -/
theorem successor?_insertAll_agree_iff [DecidableEq κ] {first second : ExtTreeMap κ β cmp} :
    (∀ key, ((insertAll first.toList second).successor? key).map Prod.snd =
        (first.successor? key).map Prod.snd) ↔
      ∀ key value, second[key]? = some value → (first.successor? key).map Prod.snd = some value := by
  set merged := insertAll first.toList second with mergedEq
  have lookup (key : κ) : merged[key]? = second[key]?.or first[key]? := getElem?_insertAll_toList ..
  have ofFirst {key : κ} (member : key ∈ first) : key ∈ merged := by
    rw [mem_iff_isSome_getElem?] at *
    rw [lookup, Option.isSome_or, member, Bool.or_true]
  constructor
  · intro agree key value found
    have present : merged[key]? = some value := by rw [lookup, found, Option.some_or]
    have successor : merged.successor? key = some (key, value) :=
      successor?_eq_some_iff.mpr ⟨present, fun other _ => Precedes.refl key other⟩
    rw [← agree, successor]
    rfl
  · intro behind key
    cases ahead : first.successor? key with
    | none =>
      have empty := successor?_eq_none_iff.mp ahead
      have alsoEmpty : merged = ∅ := by
        apply ext_getElem?
        intro other
        cases found : second[other]? with
        | none => rw [lookup, found, empty, Option.none_or]
        | some value =>
          have served := behind other value found
          rw [empty, successor?_eq_none_iff.mpr rfl] at served
          contradiction
      rw [successor?_eq_none_iff.mpr alsoEmpty]
    | some entry =>
      obtain ⟨present, least⟩ := successor?_eq_some_iff.mp ahead
      have member : entry.1 ∈ first := mem_iff_isSome_getElem?.mpr (present ▸ rfl)
      cases nearest : merged.successor? key with
      | none =>
        rw [successor?_eq_none_iff.mp nearest] at ofFirst
        exact absurd (ofFirst member) not_mem_empty
      | some near =>
        obtain ⟨stored, nearLeast⟩ := successor?_eq_some_iff.mp nearest
        rw [lookup] at stored
        cases found : second[near.1]? with
        | none =>
          rw [found, Option.none_or] at stored
          have same : near = entry := by
            have both : first.successor? key = some near := successor?_eq_some_iff.mpr
              ⟨stored, fun other listed => nearLeast other (ofFirst listed)⟩
            exact Option.some.inj (both.symm.trans ahead)
          rw [same]
        | some value =>
          rw [found, Option.some_or, Option.some.injEq] at stored
          obtain ⟨target, success, server⟩ := Option.map_eq_some_iff.mp (behind near.1 value found)
          obtain ⟨targetPresent, targetLeast⟩ := successor?_eq_some_iff.mp success
          have targetMember : target.1 ∈ first := mem_iff_isSome_getElem?.mpr (targetPresent ▸ rfl)
          have order : Precedes cmp key target.1 entry.1 := Precedes.of_later
            (nearLeast _ (ofFirst targetMember)) (nearLeast _ (ofFirst member)) (targetLeast _ member)
          have same : target.1 = entry.1 := order.antisymm (least _ targetMember)
          rw [same, present, Option.some.injEq] at targetPresent
          rw [Option.map_some, Option.map_some, ← stored, ← server, targetPresent]

end Std.ExtTreeMap

/-! ## A circle of words -/

/-- The way from a word up to another one, where zero follows the greatest word. -/
def UInt32.distance (start point : UInt32) : ℕ := (point.toNat + 2 ^ 32 - start.toNat) % 2 ^ 32

theorem UInt32.distance_eq (start point : UInt32) :
    start.distance point = if start.toNat ≤ point.toNat then point.toNat - start.toNat
      else point.toNat + 2 ^ 32 - start.toNat := by
  have startBound := start.toNat_lt
  have pointBound := point.toNat_lt
  rw [distance]
  split
  · omega
  · omega

namespace Std.ExtTreeMap

/-- On the circle of words, what is not behind a word is not further away. -/
theorem precedes_iff_distance_le {key first second : UInt32} :
    Precedes compare key first second ↔ key.distance first ≤ key.distance second := by
  have keyBound := key.toNat_lt
  have firstBound := first.toNat_lt
  have secondBound := second.toNat_lt
  have le (low high : UInt32) : (compare low high).isLE = decide (low.toNat ≤ high.toNat) :=
    Bool.eq_iff_iff.mpr ((isLE_compare.trans UInt32.le_iff_toNat_le).trans decide_eq_true_iff.symm)
  rw [Precedes, UInt32.distance_eq, UInt32.distance_eq, le, le, le]
  -- the way to a smaller word leads past zero
  by_cases firstAbove : key.toNat ≤ first.toNat
  · by_cases secondAbove : key.toNat ≤ second.toNat
    · simp only [firstAbove, secondAbove, ↓reduceIte, decide_eq_true_eq]
      omega
    · simp only [firstAbove, secondAbove, ↓reduceIte, decide_true, decide_false, Bool.true_eq_false,
        true_iff]
      omega
  · by_cases secondAbove : key.toNat ≤ second.toNat
    · simp only [firstAbove, secondAbove, ↓reduceIte, decide_true, decide_false, Bool.false_eq_true,
        false_iff]
      omega
    · simp only [firstAbove, secondAbove, ↓reduceIte, decide_eq_true_eq]
      omega

/-- The successor of a word is the nearest entry on the circle. -/
theorem successor?_eq_some_iff_distance {β : Type} {map : ExtTreeMap UInt32 β compare} {key : UInt32}
    {entry : UInt32 × β} :
    map.successor? key = some entry ↔
      map[entry.1]? = some entry.2 ∧ ∀ other ∈ map, key.distance entry.1 ≤ key.distance other := by
  rw [successor?_eq_some_iff]
  simp only [precedes_iff_distance_le]

end Std.ExtTreeMap
