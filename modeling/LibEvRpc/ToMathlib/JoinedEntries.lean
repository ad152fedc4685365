import LibEvRpc.ToMathlib.InsertAll
import Mathlib.Data.List.Nodup
import Mathlib.Data.List.TakeWhile

/-! # Two rings over the same entries

A ring holds the entries of some others and foreign ones, in the order of their keys. A reader takes
a number of entries behind the first one at or above a key. Two rings over the same others give a
reader the same values exactly when the foreign entries of each lie behind what is read, and the
readers start behind the same entry of the others or behind entries of one value.
-/

namespace Entries

variable {κ β : Type} {foreign : β → Prop} {ring others : List (κ × β)} {entry other : κ × β}
  {count : ℕ}

/-- The entries stand in the order of their keys. -/
def Ascending [LT κ] (entries : List (κ × β)) : Prop := entries.Pairwise fun first second =>
  first.1 < second.1

/-- A ring holds the others and foreign entries. A foreign entry can take the key of another one. -/
structure Joins [LT κ] (foreign : β → Prop) (ring others : List (κ × β)) : Prop where
  ascending : Ascending ring
  othersAscending : Ascending others
  ofOthers : ∀ entry ∈ ring, ¬ foreign entry.2 → entry ∈ others
  present : ∀ other ∈ others, ∃ entry ∈ ring, entry.1 = other.1

/-- The foreign entries of a ring lie behind the first ones of the others. -/
def Clear [LT κ] (foreign : β → Prop) (count : ℕ) (ring others : List (κ × β)) : Prop :=
  count ≤ others.length ∧
    ∀ entry ∈ ring, foreign entry.2 → ∀ other ∈ others.take count, other.1 < entry.1

def OneValue (entries : List (κ × β)) : Prop :=
  ∀ first ∈ entries, ∀ second ∈ entries, first.2 = second.2

/-! ## One value -/

/-- The values behind an entry are those from it on exactly when it all is one value. -/
theorem take_values_eq_iff {first : κ × β} {rest : List (κ × β)}
    (enough : count ≤ rest.length) :
    (rest.take count).map Prod.snd = ((first :: rest).take count).map Prod.snd ↔
      ∀ entry ∈ (first :: rest).take (count + 1), entry.2 = first.2 := by
  induction count generalizing first rest with
  | zero => simp
  | succ count ih =>
    cases rest with
    | nil => exact absurd enough (by simp)
    | cons second rest =>
      rw [List.take_succ_cons, List.take_succ_cons, List.take_succ_cons, List.map_cons, List.map_cons,
        List.cons_eq_cons, ih (Nat.le_of_succ_le_succ enough), List.forall_mem_cons]
      constructor
      · rintro ⟨same, rest⟩
        exact ⟨rfl, fun entry member => (rest entry member).trans same⟩
      · rintro ⟨_, rest⟩
        have same := rest second List.mem_cons_self
        exact ⟨same, fun entry member => (rest entry member).trans same.symm⟩

theorem oneValue_cons_iff {first : κ × β} {rest : List (κ × β)} :
    OneValue ((first :: rest).take (count + 1)) ↔
      ∀ entry ∈ (first :: rest).take (count + 1), entry.2 = first.2 := by
  constructor
  · intro same entry member
    exact same entry member first List.mem_cons_self
  · intro same entry member other listed
    exact (same entry member).trans (same other listed).symm

/-! ## Readers -/

/-- The entries of some keys join those of the others. -/
theorem Joins.filter [LT κ] (joins : Joins foreign ring others) (keys : κ → Bool) :
    Joins foreign (ring.filter fun entry => keys entry.1) (others.filter fun other => keys other.1) where
  ascending := joins.ascending.sublist List.filter_sublist
  othersAscending := joins.othersAscending.sublist List.filter_sublist
  ofOthers entry member own := by
    obtain ⟨listed, chosen⟩ := List.mem_filter.mp member
    exact List.mem_filter.mpr ⟨joins.ofOthers entry listed own, chosen⟩
  present other member := by
    obtain ⟨listed, chosen⟩ := List.mem_filter.mp member
    obtain ⟨entry, found, key⟩ := joins.present other listed
    exact ⟨entry, List.mem_filter.mpr ⟨found, key ▸ chosen⟩, key⟩

section Reading

variable [LE κ] [LT κ] [DecidableLE κ] [DecidableLT κ]

/-- The points that are read for a key on a ring: those above the first entry at or above the key, or
all if there is none. -/
def readPoints (key : κ) (ring points : List (κ × β)) : List (κ × β) :=
  match ring.find? fun entry => key ≤ entry.1 with
  | none => points
  | some skipped => points.filter fun point => skipped.1 < point.1

/-- The entry that a reader skips on a ring has a key of the others. -/
def Skips [DecidableEq κ] (key : κ) (ring others : List (κ × β)) : Prop :=
  (ring.find? fun entry => key ≤ entry.1).any fun skipped => skipped.1 ∈ others.map Prod.fst

theorem mem_of_mem_read {key : κ} {points : List (κ × β)} (member : entry ∈ readPoints key ring points) :
    entry ∈ points := by
  rw [readPoints] at member
  split at member
  · exact member
  · exact (List.mem_filter.mp member).1

/-- What is read on a ring joins what is read of the others. -/
theorem Joins.read (joins : Joins foreign ring others) (key : κ) :
    Joins foreign (readPoints key ring ring) (readPoints key ring others) := by
  rw [readPoints, readPoints]
  split
  · exact joins
  · next skipped _ => exact joins.filter fun key => skipped.1 < key

end Reading

namespace Joins

section Order

variable [LE κ] [LT κ] [Std.LawfulOrderLT κ]

/-- In the order of their keys every entry has a key of its own. -/
private theorem eq_of_key_eq {entries : List (κ × β)} (ascending : Ascending entries)
    (first : entry ∈ entries) (second : other ∈ entries) (same : entry.1 = other.1) :
    entry = other := by
  have nodup : (entries.map Prod.fst).Nodup :=
    List.pairwise_map.mpr (ascending.imp fun below => Std.ne_of_lt below)
  exact List.inj_on_of_nodup_map nodup first second same

private theorem mem_tail {entries : List (κ × β)} (member : other ∈ entry :: entries)
    (above : entry.1 < other.1) : other ∈ entries := by
  rcases List.mem_cons.mp member with rfl | later
  · exact absurd above Std.lt_irrefl
  · exact later

variable [Std.IsLinearOrder κ]

private theorem first_le {entries : List (κ × β)} (ascending : Ascending (entry :: entries))
    (member : other ∈ entry :: entries) : entry.1 ≤ other.1 := by
  rcases List.mem_cons.mp member with rfl | later
  · exact Std.le_refl _
  · exact Std.le_of_lt ((List.pairwise_cons.mp ascending).1 other later)

/-- An entry that is not foreign and comes first is the first of the others, and the rest joins the
rest of them. -/
theorem of_cons (joins : Joins foreign (entry :: ring) (other :: others))
    (own : ¬ foreign entry.2) : entry = other ∧ Joins foreign ring others := by
  have listed := joins.ofOthers entry List.mem_cons_self own
  obtain ⟨found, member, key⟩ := joins.present other List.mem_cons_self
  have same : entry.1 = other.1 := by
    apply Std.le_antisymm
    · exact key ▸ first_le joins.ascending member
    · exact first_le joins.othersAscending listed
  obtain rfl := eq_of_key_eq joins.othersAscending listed List.mem_cons_self same
  have rest := List.pairwise_cons.mp joins.ascending
  have restOthers := List.pairwise_cons.mp joins.othersAscending
  refine ⟨rfl, rest.2, restOthers.2, ?_, ?_⟩
  · intro next later notForeign
    exact mem_tail (joins.ofOthers next (List.mem_cons_of_mem _ later) notForeign) (rest.1 next later)
  · intro next later
    obtain ⟨found, member, key⟩ := joins.present next (List.mem_cons_of_mem _ later)
    exact ⟨found, mem_tail member (key ▸ restOthers.1 next later), key⟩

/-- In front of the first of the others there is nothing when no foreign entry precedes it. -/
private theorem own_first (joins : Joins foreign (entry :: ring) (other :: others))
    (behind : foreign entry.2 → other.1 < entry.1) : ¬ foreign entry.2 := by
  intro isForeign
  obtain ⟨found, member, key⟩ := joins.present other List.mem_cons_self
  exact Std.not_lt_of_ge (key ▸ first_le joins.ascending member) (behind isForeign)

/-- A ring whose first entries are not foreign has its first entry in common with the others. -/
private theorem of_own (joins : Joins foreign ring others) (long : count + 1 ≤ ring.length)
    (own : ∀ entry ∈ ring.take (count + 1), ¬ foreign entry.2) :
    ∃ entry rest restOthers, ring = entry :: rest ∧ others = entry :: restOthers ∧
      ¬ foreign entry.2 ∧ Joins foreign rest restOthers := by
  cases ring with
  | nil => exact absurd long (by simp)
  | cons entry ring =>
    have first : ¬ foreign entry.2 := own entry List.mem_cons_self
    cases others with
    | nil => exact absurd (joins.ofOthers entry List.mem_cons_self first) List.not_mem_nil
    | cons other others =>
      obtain ⟨rfl, rest⟩ := joins.of_cons first
      exact ⟨entry, ring, others, rfl, rfl, first, rest⟩

/-- The first entries of a ring are not foreign exactly when the foreign ones are behind the first
of the others. -/
theorem own_iff_clear (joins : Joins foreign ring others) :
    (count ≤ ring.length ∧ ∀ entry ∈ ring.take count, ¬ foreign entry.2) ↔
      Clear foreign count ring others := by
  induction count generalizing ring others with
  | zero => simp [Clear]
  | succ count ih =>
    constructor
    · rintro ⟨long, own⟩
      obtain ⟨entry, ring, others, rfl, rfl, first, rest⟩ := joins.of_own long own
      obtain ⟨enough, clear⟩ := (ih rest).mp
        ⟨Nat.le_of_succ_le_succ long, fun next later => own next (List.mem_cons_of_mem _ later)⟩
      refine ⟨Nat.succ_le_succ enough, fun next member isForeign => ?_⟩
      have later : next ∈ ring := by
        rcases List.mem_cons.mp member with rfl | later
        · exact absurd isForeign first
        · exact later
      intro read taken
      rcases List.mem_cons.mp taken with rfl | taken
      · exact (List.pairwise_cons.mp joins.ascending).1 next later
      · exact clear next later isForeign read taken
    · rintro ⟨enough, clear⟩
      cases others with
      | nil => exact absurd enough (by simp)
      | cons other others =>
        cases ring with
        | nil =>
          obtain ⟨_, absent, _⟩ := joins.present other List.mem_cons_self
          exact absurd absent List.not_mem_nil
        | cons entry ring =>
          have first := joins.own_first fun isForeign =>
            clear entry List.mem_cons_self isForeign other List.mem_cons_self
          obtain ⟨rfl, rest⟩ := joins.of_cons first
          obtain ⟨long, own⟩ := (ih rest).mpr ⟨Nat.le_of_succ_le_succ enough,
            fun next later isForeign read taken =>
              clear next (List.mem_cons_of_mem _ later) isForeign read (List.mem_cons_of_mem _ taken)⟩
          refine ⟨Nat.succ_le_succ long, fun next taken => ?_⟩
          rcases List.mem_cons.mp taken with rfl | taken
          · exact first
          · exact own next taken

/-- Where the foreign entries are behind, the first entries are those of the others. -/
theorem take_eq_of_clear (joins : Joins foreign ring others) (clear : Clear foreign count ring others) :
    ring.take count = others.take count := by
  obtain ⟨long, own⟩ := joins.own_iff_clear.mpr clear
  induction count generalizing ring others with
  | zero => rfl
  | succ count ih =>
    obtain ⟨entry, ring, others, rfl, rfl, first, rest⟩ := joins.of_own long own
    have shorter := Nat.le_of_succ_le_succ long
    have later : ∀ next ∈ ring.take count, ¬ foreign next.2 :=
      fun next taken => own next (List.mem_cons_of_mem _ taken)
    rw [List.take_succ_cons, List.take_succ_cons,
      ih rest (rest.own_iff_clear.mp ⟨shorter, later⟩) shorter later]

/-! ## What a reader finds -/

variable [DecidableLE κ] {key : κ}

/-- The first entry at or above a key is the least one there. -/
private theorem first_least (ascending : Ascending ring) {skipped : κ × β}
    (found : (ring.find? fun entry => key ≤ entry.1) = some skipped) (member : entry ∈ ring)
    (above : key ≤ entry.1) : skipped.1 ≤ entry.1 := by
  obtain ⟨_, before, after, rfl, below⟩ := List.find?_eq_some_iff_append.mp found
  rcases List.mem_append.mp member with earlier | later
  · have absent := below entry earlier
    simp [above] at absent
  · exact first_le (List.pairwise_append.mp ascending).2.1 later

/-- The others at or above a key are those from the entry that is skipped on. -/
private theorem from_skipped (joins : Joins foreign ring others) {skipped : κ × β}
    (found : (ring.find? fun entry => key ≤ entry.1) = some skipped) :
    (others.filter fun other => key ≤ other.1) = others.filter fun other => skipped.1 ≤ other.1 := by
  apply List.filter_congr
  intro other listed
  rw [decide_eq_decide]
  constructor
  · intro above
    obtain ⟨entry, member, same⟩ := joins.present other listed
    exact same ▸ first_least joins.ascending found member (same ▸ above)
  · intro behind
    have above : key ≤ skipped.1 := by simpa using List.find?_some found
    exact Std.le_trans above behind

variable [DecidableLT κ]

/-- From an entry on there is the entry and what is above it. -/
private theorem filter_le_eq_cons {entries : List (κ × β)} (ascending : Ascending entries)
    (listed : other ∈ entries) :
    (entries.filter fun entry => other.1 ≤ entry.1) =
      other :: entries.filter fun entry => other.1 < entry.1 := by
  induction entries with
  | nil => contradiction
  | cons entry entries ih =>
    obtain ⟨first, rest⟩ := List.pairwise_cons.mp ascending
    rcases List.mem_cons.mp listed with rfl | later
    · rw [List.filter_cons, List.filter_cons, if_pos (decide_eq_true (Std.le_refl _)),
        if_neg (by simpa using Std.lt_irrefl)]
      congr 1
      apply List.filter_congr
      intro next member
      rw [decide_eq_true (first next member), decide_eq_true (Std.le_of_lt (first next member))]
    · have below := first other later
      rw [List.filter_cons, List.filter_cons, if_neg (by simpa using Std.not_le_of_gt below),
        if_neg (by simpa using Std.not_gt_of_lt below)]
      exact ih rest later

variable [DecidableEq κ]

/-- What is read of the others: all of them where nothing is at or above the key, or those from the
key on, without the first if that is the one that is skipped. -/
theorem read_others (joins : Joins foreign ring others) (key : κ) :
    ¬ Skips key ring others ∧ readPoints key ring others = others ∧
        (others.filter fun other => key ≤ other.1) = [] ∨
      Skips key ring others ∧ (∃ first,
        (others.filter fun other => key ≤ other.1) = first :: readPoints key ring others) ∨
      ¬ Skips key ring others ∧
        (others.filter fun other => key ≤ other.1) = readPoints key ring others := by
  cases found : ring.find? fun entry => key ≤ entry.1 with
  | none =>
    refine .inl ⟨by simp [Skips, found], by rw [readPoints, found], ?_⟩
    apply List.filter_eq_nil_iff.mpr
    intro other listed above
    obtain ⟨entry, member, same⟩ := joins.present other listed
    exact List.find?_eq_none.mp found entry member (same ▸ above)
  | some skipped =>
    rw [readPoints, found, joins.from_skipped found]
    by_cases known : skipped.1 ∈ others.map Prod.fst
    · obtain ⟨other, listed, same⟩ := List.mem_map.mp known
      refine .inr (.inl ⟨by simpa [Skips, found] using known, other, ?_⟩)
      dsimp only
      rw [← same]
      exact filter_le_eq_cons joins.othersAscending listed
    · refine .inr (.inr ⟨by simpa [Skips, found] using known, ?_⟩)
      apply List.filter_congr
      intro other listed
      rw [decide_eq_decide, Std.le_iff_lt_or_eq]
      constructor
      · rintro (above | same)
        · exact above
        · exact absurd (List.mem_map.mpr ⟨other, listed, same.symm⟩) known
      · exact .inl

/-! ## Two rings -/

variable {otherForeign : β → Prop} {second : List (κ × β)}

/-- Readers of two rings start with the same others, or one of them an entry later. -/
theorem read_others_values_eq_iff (joins : Joins foreign ring others)
    (otherJoins : Joins otherForeign second others)
    (enough : count ≤ (readPoints key ring others).length)
    (otherEnough : count ≤ (readPoints key second others).length) :
    ((readPoints key ring others).take count).map Prod.snd =
        ((readPoints key second others).take count).map Prod.snd ↔
      (Skips key ring others ↔ Skips key second others) ∨
        OneValue ((others.filter fun other => key ≤ other.1).take (count + 1)) := by
  have later {first : κ × β} {rest : List (κ × β)} (long : count ≤ rest.length) :=
    (@take_values_eq_iff κ β count first rest long).trans oneValue_cons_iff.symm
  obtain ⟨skips, all, none⟩ | ⟨skips, first, shape⟩ | ⟨skips, shape⟩ := joins.read_others key
  · obtain ⟨otherSkips, otherAll, _⟩ | ⟨_, first, shape⟩ | ⟨otherSkips, shape⟩ :=
      otherJoins.read_others key
    · rw [all, otherAll]
      exact iff_of_true rfl (.inl (iff_of_false skips otherSkips))
    · rw [none] at shape
      contradiction
    · rw [← shape, none, List.length_nil, Nat.le_zero] at otherEnough
      rw [otherEnough]
      exact iff_of_true rfl (.inl (iff_of_false skips otherSkips))
  · obtain ⟨_, _, none⟩ | ⟨otherSkips, other, otherShape⟩ | ⟨otherSkips, otherShape⟩ :=
      otherJoins.read_others key
    · rw [none] at shape
      contradiction
    · rw [(List.cons.inj (shape.symm.trans otherShape)).2]
      exact iff_of_true rfl (.inl (iff_of_true skips otherSkips))
    · rw [← otherShape, shape, later enough]
      exact (or_iff_right fun same => otherSkips (same.mp skips)).symm
  · obtain ⟨otherSkips, _, none⟩ | ⟨otherSkips, first, otherShape⟩ | ⟨otherSkips, otherShape⟩ :=
      otherJoins.read_others key
    · rw [← shape, none, List.length_nil, Nat.le_zero] at enough
      rw [enough]
      exact iff_of_true rfl (.inl (iff_of_false skips otherSkips))
    · rw [← shape, otherShape, eq_comm, later otherEnough]
      exact (or_iff_right fun same => skips (same.mpr otherSkips)).symm
    · rw [← shape, ← otherShape]
      exact iff_of_true rfl (.inl (iff_of_false skips otherSkips))

omit [DecidableEq κ] in
/-- A reader that finds the values of a ring without foreign entries finds others only. -/
private theorem clear_of_values_eq (joins : Joins foreign ring others)
    (otherApart : ∀ entry ∈ second, ¬ foreign entry.2)
    (enough : count ≤ (readPoints key ring ring).length)
    (same : ((readPoints key ring ring).take count).map Prod.snd =
      ((readPoints key second second).take count).map Prod.snd) :
    Clear foreign count (readPoints key ring ring) (readPoints key ring others) := by
  apply (joins.read key).own_iff_clear.mp
  refine ⟨enough, fun entry taken isForeign => ?_⟩
  have value : entry.2 ∈ ((readPoints key second second).take count).map Prod.snd :=
    same ▸ List.mem_map_of_mem taken
  obtain ⟨other, found, equal⟩ := List.mem_map.mp value
  exact otherApart other (mem_of_mem_read (List.mem_of_mem_take found)) (equal ▸ isForeign)

/-- Readers of two rings, none of which has the entries that are foreign on the other, find the same
values exactly when both find others only and their places agree. -/
theorem read_values_eq_iff (joins : Joins foreign ring others)
    (otherJoins : Joins otherForeign second others)
    (apart : ∀ entry ∈ ring, ¬ otherForeign entry.2) (otherApart : ∀ entry ∈ second, ¬ foreign entry.2)
    (enough : count ≤ (readPoints key ring ring).length)
    (otherEnough : count ≤ (readPoints key second second).length) :
    ((readPoints key ring ring).take count).map Prod.snd =
        ((readPoints key second second).take count).map Prod.snd ↔
      Clear foreign count (readPoints key ring ring) (readPoints key ring others) ∧
        Clear otherForeign count (readPoints key second second) (readPoints key second others) ∧
          ((Skips key ring others ↔ Skips key second others) ∨
            OneValue ((others.filter fun other => key ≤ other.1).take (count + 1))) := by
  have read := joins.read key
  have otherRead := otherJoins.read key
  have alike (clear : Clear foreign count (readPoints key ring ring) (readPoints key ring others))
      (otherClear : Clear otherForeign count (readPoints key second second)
        (readPoints key second others)) :=
    joins.read_others_values_eq_iff otherJoins clear.1 otherClear.1
  constructor
  · intro same
    have clear := joins.clear_of_values_eq otherApart enough same
    have otherClear := otherJoins.clear_of_values_eq apart otherEnough same.symm
    rw [read.take_eq_of_clear clear, otherRead.take_eq_of_clear otherClear] at same
    exact ⟨clear, otherClear, (alike clear otherClear).mp same⟩
  · rintro ⟨clear, otherClear, places⟩
    rw [read.take_eq_of_clear clear, otherRead.take_eq_of_clear otherClear]
    exact (alike clear otherClear).mpr places

end Order

end Joins

/-! ## A reader as an iterator -/

section Iterator

variable [LE κ] [LT κ] [Std.IsLinearOrder κ] [Std.LawfulOrderLT κ] [DecidableLE κ] [DecidableLT κ]

/-- What is read on a ring is behind the lower bound of the key. -/
theorem readPoints_eq {ring : List (κ × β)} (ascending : Ascending ring) (key : κ) :
    readPoints key ring ring =
      match ring.dropWhile fun entry => entry.1 < key with
      | [] => ring
      | _ :: behind => behind := by
  have shape := @List.takeWhile_append_dropWhile _ (fun entry : κ × β => entry.1 < key) ring
  have below (entry : κ × β) (earlier : entry ∈ ring.takeWhile fun entry => entry.1 < key) :
      entry.1 < key := by
    simpa using List.mem_takeWhile_imp earlier
  have start := List.head?_dropWhile_not (fun entry : κ × β => entry.1 < key) ring
  split
  · next nothing =>
    rw [nothing, List.append_nil] at shape
    have absent : (ring.find? fun entry => key ≤ entry.1) = none := by
      apply List.find?_eq_none.mpr
      intro entry member above
      rw [← shape] at member
      exact Std.not_le_of_gt (below entry member) (of_decide_eq_true above)
    rw [readPoints, absent]
  · next skipped behind found =>
    rw [found] at shape start
    have above : key ≤ skipped.1 := Std.not_lt.mp (of_decide_eq_false start)
    have first : (ring.find? fun entry => key ≤ entry.1) = some skipped := by
      refine List.find?_eq_some_iff_append.mpr ⟨decide_eq_true above, _, behind, shape.symm, ?_⟩
      intro entry earlier
      simpa using Std.not_le_of_gt (below entry earlier)
    rw [← shape] at ascending
    have later := (List.pairwise_cons.mp (List.pairwise_append.mp ascending).2.1).1
    have low : ((ring.takeWhile fun entry => entry.1 < key).filter fun point =>
        skipped.1 < point.1) = [] := by
      apply List.filter_eq_nil_iff.mpr
      intro entry earlier past
      exact Std.not_gt_of_lt (Std.lt_of_lt_of_le (below entry earlier) above) (of_decide_eq_true past)
    rw [readPoints, first]
    dsimp only
    rw [← shape, List.filter_append, low, List.filter_cons, if_neg (by simpa using Std.lt_irrefl),
      List.nil_append]
    exact List.filter_eq_self.mpr fun entry member => decide_eq_true (later entry member)

/-- What is left behind the entries below a key are the entries from it on. -/
theorem dropWhile_eq_filter {ring : List (κ × β)} (ascending : Ascending ring) (key : κ) :
    (ring.dropWhile fun entry => entry.1 < key) = ring.filter fun entry => key ≤ entry.1 := by
  induction ring with
  | nil => rfl
  | cons entry rest ih =>
    obtain ⟨later, tail⟩ := List.pairwise_cons.mp ascending
    rw [List.dropWhile_cons, List.filter_cons]
    by_cases below : entry.1 < key
    · have notAbove : ¬ key ≤ entry.1 := Std.not_le_of_gt below
      rw [if_pos (decide_eq_true below), if_neg (by simpa using notAbove), ih tail]
    · have above : key ≤ entry.1 := Std.not_lt.mp below
      rw [if_neg (by simpa using below), if_pos (decide_eq_true above)]
      congr 1
      apply Eq.symm
      apply List.filter_eq_self.mpr
      intro other member
      exact decide_eq_true (Std.le_of_lt (Std.lt_of_le_of_lt above (later other member)))

/-! ## Going round a ring -/

/-- The entries of a ring from a key on, and behind the greatest one those below it. -/
def fromKey (key : κ) (ring : List (κ × β)) : List (κ × β) :=
  (ring.filter fun entry => key ≤ entry.1) ++ ring.filter fun entry => entry.1 < key

/-- Consecutive entries of a ring from a key on, round and round. -/
def consecutive (key : κ) (ring : List (κ × β)) (count : ℕ) : List (κ × β) :=
  (List.range count).filterMap fun i => (fromKey key ring)[i % (fromKey key ring).length]?

omit [Std.IsLinearOrder κ] [Std.LawfulOrderLT κ] in
/-- On a ring that is long enough they are different ones. -/
theorem consecutive_eq_take {key : κ} {ring : List (κ × β)} {count : ℕ}
    (enough : count ≤ (fromKey key ring).length) :
    consecutive key ring count = (fromKey key ring).take count := by
  rw [consecutive]
  induction count with
  | zero => rfl
  | succ count ih =>
    have inside : count < (fromKey key ring).length := enough
    rw [List.range_succ, List.filterMap_append, ih (Nat.le_of_succ_le enough), List.take_add_one,
      List.filterMap_cons, Nat.mod_eq_of_lt inside, List.getElem?_eq_getElem inside]
    rfl

end Iterator

end Entries

/-! ## Rings of inserted entries -/

namespace Std.ExtTreeMap

open Entries

variable {κ β : Type} [Ord κ] [LE κ] [LT κ] [IsLinearOrder κ] [LawfulOrderLT κ] [LawfulOrderOrd κ]

theorem ascending_toList (map : ExtTreeMap κ β compare) : Ascending map.toList :=
  map.ordered_keys_toList.imp compare_eq_lt.mp

/-- A ring of inserted entries joins the ring of those that are not foreign. -/
theorem joins_insertAll [DecidableEq κ] (entries : List (κ × β)) (foreign : β → Prop)
    [DecidablePred foreign] :
    Joins foreign (insertAll entries (∅ : ExtTreeMap κ β compare)).toList
      (insertAll (entries.filter fun entry => ¬ foreign entry.2)
        (∅ : ExtTreeMap κ β compare)).toList where
  ascending := ascending_toList _
  othersAscending := ascending_toList _
  ofOthers entry member own := by
    rw [mem_toList_iff_getElem?_eq_some, getElem?_insertAll, getElem?_empty, Option.none_or] at *
    obtain ⟨found, first, same⟩ := Option.map_eq_some_iff.mp member
    obtain ⟨hit, before, after, shape, miss⟩ := List.find?_eq_some_iff_append.mp first
    refine Option.map_eq_some_iff.mpr ⟨found, ?_, same⟩
    rw [List.find?_filter]
    refine List.find?_eq_some_iff_append.mpr ⟨?_, before, after, shape, fun other earlier => ?_⟩
    · simpa [same, own] using hit
    · have missed := miss other earlier
      simp only [Bool.not_eq_eq_eq_not, Bool.not_true, decide_eq_false_iff_not] at missed
      simp [missed]
  present other member := by
    have listed := mem_toList_iff_getElem?_eq_some.mp member
    have kept := mem_of_getElem?_insertAll not_mem_empty listed
    have key : other.1 ∈ insertAll entries (∅ : ExtTreeMap κ β compare) :=
      mem_insertAll.mpr (.inr ⟨other, List.mem_of_mem_filter kept, rfl⟩)
    exact ⟨(other.1, _), mem_toList_iff_getElem?_eq_some.mpr (getElem?_eq_some_getElem key), rfl⟩

end Std.ExtTreeMap
