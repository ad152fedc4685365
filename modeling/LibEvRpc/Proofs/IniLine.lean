import LibEvRpc.Config.IniParser

/-! # What a line of a configuration says

The conversions of `iniparser_line` read a simple grammar: a line is empty, a comment, a section, or a
key in front of its first equals sign with a value behind it, which may be quoted and ends at a comment
otherwise. The buffers are long enough for every line but a section with an equals sign inside its
name, of which the buffer holds the part in front of that sign.
-/

namespace LibEvRpc

open Scanf

/-! ## The grammar -/

/-- The value in the text behind an equals sign. -/
def valueText (text : Bytes) : Bytes :=
  match text.dropWhile isSpace with
  | [] => []
  | mark :: rest =>
      if mark = Ascii.semicolon ∨ mark = Ascii.hash then []
      else if (mark = Ascii.quote ∨ mark = Ascii.apostrophe) ∧ rest.head?.any (· ≠ mark) then
        emptyQuotes (strstrip (rest.takeWhile (· ≠ mark)))
      else
        emptyQuotes (strstrip ((mark :: rest).takeWhile fun char =>
          char ≠ Ascii.semicolon ∧ char ≠ Ascii.hash))

/-- What a line without blanks at its ends says. -/
def lineMeaning (line : Bytes) : LineStatus :=
  match line with
  | [] => .lineEmpty
  | first :: rest =>
      if first = Ascii.hash ∨ first = Ascii.semicolon then .lineComment
      else if first = Ascii.openBracket ∧ line.getLast? = some Ascii.closeBracket then
        .lineSection (strlwc (strstrip (rest.takeWhile (· ≠ Ascii.closeBracket))))
      else if first = Ascii.equals ∨ Ascii.equals ∉ line then .lineError
      else .lineValue (strlwc (strstrip (line.takeWhile (· ≠ Ascii.equals))))
        (valueText (line.dropWhile (· ≠ Ascii.equals)).tail)

/-- The line is a section whose name has an equals sign in front of its last character. -/
def Overflows (line : Bytes) : Prop :=
  line.head? = some Ascii.openBracket ∧ line.getLast? = some Ascii.closeBracket ∧
    Ascii.equals ∈ (line.tail.takeWhile (· ≠ Ascii.closeBracket)).dropLast

instance (line : Bytes) : Decidable (Overflows line) := inferInstanceAs (Decidable (_ ∧ _ ∧ _))

/-! ## Scanning a key and a value -/

variable {left right : Bytes} {keySize valueSize : ℕ}

/-- A key is read up to the equals sign, which is skipped with the blanks behind it. -/
theorem scan_key (clean : Ascii.equals ∉ left) (nonempty : left ≠ []) (fits : left.length < keySize)
    (format : List Directive) :
    scan (keySet keySize :: .space :: .literal Ascii.equals :: .space :: format)
        (left ++ Ascii.equals :: right) =
      (scan format (right.dropWhile isSpace)).map (left :: ·) := by
  have accepted : ∀ char ∈ left, decide (char ≠ Ascii.equals) = true := fun char member =>
    decide_eq_true (ne_of_mem_of_not_mem member clean)
  have ends : ∀ next ∈ (Ascii.equals :: right).head?, decide (next ≠ Ascii.equals) = false := by
    rintro next ⟨⟩
    rfl
  rw [keySet, scan_scanset accepted nonempty ends, if_pos fits, scan_space,
    List.dropWhile_cons_of_neg (by decide), scan_literal_self, scan_space]

theorem scan_keySet_equals (format : List Directive) :
    scan (keySet keySize :: format) (Ascii.equals :: right) = some [] :=
  scan_scanset_refused rfl keySize right

/-- A scan set at the end of a format stores a field that is not longer than the text. -/
theorem scan_last {accepts : UInt8 → Bool} {next : UInt8} (accepted : accepts next) {text : Bytes}
    (room : text.length + 1 < valueSize) :
    scan [.scanset accepts valueSize] (next :: text) =
      some [(next :: text).takeWhile accepts] := by
  have short := (List.takeWhile_prefix (l := next :: text) accepts).length_le
  rw [List.length_cons] at short
  rw [scan_scanset_cons accepted, if_pos (by omega), scan_nil]
  rfl

/-- The bare format matches whatever is behind the equals sign. -/
theorem scan_bareFormat (clean : Ascii.equals ∉ left) (nonempty : left ≠ [])
    (fits : left.length < keySize) (room : right.length + 1 < valueSize) :
    ∃ value, scan (bareFormat keySize valueSize) (left ++ Ascii.equals :: right) =
      some [left, value] := by
  have accepted : ∀ char ∈ left, decide (char ≠ Ascii.equals) = true := fun char member =>
    decide_eq_true (ne_of_mem_of_not_mem member clean)
  have ends : ∀ next ∈ (Ascii.equals :: right).head?, decide (next ≠ Ascii.equals) = false := by
    rintro next ⟨⟩
    rfl
  rw [bareFormat, keySet, scan_scanset accepted nonempty ends, if_pos fits, scan_space,
    List.dropWhile_cons_of_neg (by decide), scan_last (by decide) room]
  exact ⟨_, rfl⟩

theorem scan_commentFormat (clean : Ascii.equals ∉ left) (nonempty : left ≠ [])
    (fits : left.length < keySize) (room : right.length + 1 < valueSize) :
    ∃ fields, scan (commentFormat keySize valueSize) (left ++ Ascii.equals :: right) =
      some (left :: fields) ∧ fields.length ≤ 1 := by
  rw [commentFormat, scan_key clean nonempty fits]
  have shorter := (List.dropWhile_suffix isSpace (l := right)).length_le
  cases text : right.dropWhile isSpace with
  | nil => exact ⟨[], rfl, Nat.zero_le 1⟩
  | cons next rest =>
    rw [text, List.length_cons] at shorter
    by_cases accepted : next = Ascii.semicolon ∨ next = Ascii.hash
    · rw [scan_last (decide_eq_true accepted) (by omega)]
      exact ⟨_, rfl, le_rfl⟩
    · rw [scan_scanset_refused (decide_eq_false accepted)]
      exact ⟨[], rfl, Nat.zero_le 1⟩

/-- What is behind a field does not change how many are stored. -/
theorem scan_literal_last (char : UInt8) (input : Bytes) : scan [.literal char] input = some [] := by
  cases input with
  | nil => exact scan_literal_nil char
  | cons next input =>
    rw [scan]
    split <;> rfl

theorem scan_quotedFormat {mark next : UInt8} {rest : Bytes} (clean : Ascii.equals ∉ left)
    (nonempty : left ≠ []) (fits : left.length < keySize) (room : right.length + 1 < valueSize)
    (text : right.dropWhile isSpace = mark :: next :: rest) (different : next ≠ mark) :
    scan (quotedFormat mark keySize valueSize) (left ++ Ascii.equals :: right) =
      some [left, (next :: rest).takeWhile (· ≠ mark)] := by
  have shorter := (List.dropWhile_suffix isSpace (l := right)).length_le
  have short := (List.takeWhile_prefix (l := next :: rest) fun char => decide (char ≠ mark)).length_le
  rw [text] at shorter
  simp only [List.length_cons] at shorter short
  rw [quotedFormat, scan_key clean nonempty fits, text, scan_literal_self,
    scan_scanset_cons (decide_eq_true different), if_pos (by omega), scan_literal_last]
  rfl

theorem scan_quotedFormat_refused {mark : UInt8} (clean : Ascii.equals ∉ left) (nonempty : left ≠ [])
    (fits : left.length < keySize)
    (refused : ∀ next rest, right.dropWhile isSpace = mark :: next :: rest → next = mark) :
    scan (quotedFormat mark keySize valueSize) (left ++ Ascii.equals :: right) = some [left] := by
  rw [quotedFormat, scan_key clean nonempty fits]
  cases text : right.dropWhile isSpace with
  | nil => rfl
  | cons first rest =>
    by_cases same : first = mark
    · rw [same, scan_literal_self]
      cases rest with
      | nil => rfl
      | cons next rest =>
        rw [same] at text
        rw [scan_scanset_refused (decide_eq_false (not_not.mpr (refused next rest text)))]
        rfl
    · rw [scan_literal_ne same]
      rfl

theorem scan_plainFormat {first : UInt8} {rest : Bytes} (clean : Ascii.equals ∉ left)
    (nonempty : left ≠ []) (fits : left.length < keySize) (room : right.length + 1 < valueSize)
    (text : right.dropWhile isSpace = first :: rest)
    (accepted : first ≠ Ascii.semicolon ∧ first ≠ Ascii.hash) :
    scan (plainFormat keySize valueSize) (left ++ Ascii.equals :: right) =
      some [left, (first :: rest).takeWhile fun char =>
        char ≠ Ascii.semicolon ∧ char ≠ Ascii.hash] := by
  have shorter := (List.dropWhile_suffix isSpace (l := right)).length_le
  rw [text, List.length_cons] at shorter
  rw [plainFormat, scan_key clean nonempty fits, text, scan_last (decide_eq_true accepted) (by omega)]
  rfl

theorem scan_plainFormat_refused (clean : Ascii.equals ∉ left) (nonempty : left ≠ [])
    (fits : left.length < keySize)
    (refused : ∀ first rest, right.dropWhile isSpace = first :: rest →
      first = Ascii.semicolon ∨ first = Ascii.hash) :
    scan (plainFormat keySize valueSize) (left ++ Ascii.equals :: right) = some [left] := by
  rw [plainFormat, scan_key clean nonempty fits]
  cases text : right.dropWhile isSpace with
  | nil => rfl
  | cons first rest =>
    rw [scan_scanset_refused (decide_eq_false (by grind))]
    rfl

theorem firstPair_of_scan {line key value : Bytes} {format : List Directive}
    (scanned : scan format line = some [key, value]) (formats : List (List Directive)) :
    firstPair line (format :: formats) = some (some (key, value)) := by
  rw [firstPair, scanned]
  rfl

theorem firstPair_skip {line : Bytes} {format : List Directive} {fields : List Bytes}
    (scanned : scan format line = some fields) (few : fields.length ≤ 1)
    (formats : List (List Directive)) :
    firstPair line (format :: formats) = firstPair line formats := by
  rw [firstPair, scanned, Option.bind_some]
  match fields with
  | [] => rfl
  | [field] => rfl
  | first :: second :: fields => simp at few

/-! ## Lines -/

/-- Behind a quoted format that does not match, the others are tried. -/
theorem firstPair_quoted_refused {mark : UInt8} (clean : Ascii.equals ∉ left) (nonempty : left ≠ [])
    (fits : left.length < keySize)
    (refused : ∀ next rest, right.dropWhile isSpace = mark :: next :: rest → next = mark)
    (formats : List (List Directive)) :
    firstPair (left ++ Ascii.equals :: right) (quotedFormat mark keySize valueSize :: formats) =
      firstPair (left ++ Ascii.equals :: right) formats :=
  firstPair_skip (scan_quotedFormat_refused clean nonempty fits refused) (Nat.le_refl 1) formats

/-- A line without a value behind its equals sign has the empty one. -/
theorem valueLine_of_empty (clean : Ascii.equals ∉ left) (nonempty : left ≠ [])
    (fits : left.length < keySize) (room : right.length + 1 < valueSize)
    (empty : ∀ first rest, right.dropWhile isSpace = first :: rest →
      first = Ascii.semicolon ∨ first = Ascii.hash) :
    valueLine (left ++ Ascii.equals :: right) keySize valueSize =
      some (.lineValue (strlwc (strstrip left)) []) := by
  have refused (mark : UInt8) (other : mark ≠ Ascii.semicolon ∧ mark ≠ Ascii.hash) :
      ∀ next rest, right.dropWhile isSpace = mark :: next :: rest → next = mark :=
    fun next rest text => absurd (empty mark _ text) (not_or.mpr other)
  obtain ⟨bareValue, bare⟩ := @scan_bareFormat left right _ _ clean nonempty fits room
  obtain ⟨comment, commented, few⟩ := @scan_commentFormat left right _ _ clean nonempty fits room
  rw [valueLine, firstPair_quoted_refused clean nonempty fits (refused _ (by decide)),
    firstPair_quoted_refused clean nonempty fits (refused _ (by decide)),
    firstPair_skip (scan_plainFormat_refused clean nonempty fits empty) (Nat.le_refl 1), firstPair,
    Option.bind_some]
  match comment, few with
  | [], _ =>
    rw [firstPair_skip commented (Nat.le_refl 1), firstPair_of_scan bare]
    rfl
  | [value], _ =>
    rw [firstPair_of_scan commented]
    rfl

/-- A line with text in front of its first equals sign is a key with a value. -/
theorem valueLine_eq (clean : Ascii.equals ∉ left) (nonempty : left ≠ []) (fits : left.length < keySize)
    (room : right.length + 1 < valueSize) :
    valueLine (left ++ Ascii.equals :: right) keySize valueSize =
      some (.lineValue (strlwc (strstrip left)) (valueText right)) := by
  rw [valueText]
  cases text : right.dropWhile isSpace with
  | nil =>
    exact valueLine_of_empty clean nonempty fits room fun _ _ other => by
      rw [text] at other
      contradiction
  | cons mark rest =>
    dsimp only
    split
    · next comment =>
      apply valueLine_of_empty clean nonempty fits room
      intro first others same
      cases text.symm.trans same
      exact comment
    · next value =>
      split
      · next quoted =>
        obtain ⟨marked, head⟩ := quoted
        obtain ⟨next, found, different⟩ := (Option.any_eq_true _ _).mp head
        obtain ⟨others, rfl⟩ := List.head?_eq_some_iff.mp found
        rw [decide_eq_true_eq] at different
        have scanned := @scan_quotedFormat left right keySize valueSize _ _ _ clean nonempty fits room text
          different
        rcases marked with rfl | rfl
        · rw [valueLine, firstPair_of_scan scanned]
          rfl
        · have refused : ∀ other rest, right.dropWhile isSpace = Ascii.quote :: other :: rest →
              other = Ascii.quote := fun _ _ same => by
            cases text.symm.trans same
          rw [valueLine, firstPair_quoted_refused clean nonempty fits refused, firstPair_of_scan scanned]
          rfl
      · next unquoted =>
        have refused (other : UInt8) (marks : other = Ascii.quote ∨ other = Ascii.apostrophe) :
            ∀ next others, right.dropWhile isSpace = other :: next :: others → next = other := by
          intro next others same
          cases text.symm.trans same
          by_contra different
          exact unquoted ⟨marks, decide_eq_true different⟩
        have scanned := @scan_plainFormat left right keySize valueSize _ _ clean nonempty fits room text
          (not_or.mp value)
        rw [valueLine, firstPair_quoted_refused clean nonempty fits (refused _ (.inl rfl)),
          firstPair_quoted_refused clean nonempty fits (refused _ (.inr rfl)), firstPair_of_scan scanned]
        rfl

/-- A line that starts with an equals sign is an error. -/
theorem valueLine_equals : valueLine (Ascii.equals :: right) keySize valueSize = some .lineError := by
  have refused (format : List Directive) : scan (keySet keySize :: format) (Ascii.equals :: right) =
      some [] := scan_keySet_equals format
  have none (format : List Directive) (formats : List (List Directive)) :
      firstPair (Ascii.equals :: right) ((keySet keySize :: format) :: formats) =
        firstPair (Ascii.equals :: right) formats :=
    firstPair_skip (refused format) (Nat.zero_le 1) formats
  rw [valueLine, quotedFormat, quotedFormat, plainFormat, commentFormat, bareFormat, none, none, none,
    none, none]
  rfl

/-- The name of a section is read up to the first bracket, if it fits. -/
theorem sectionLine_eq (rest : Bytes) :
    sectionLine (Ascii.openBracket :: rest) keySize =
      if (rest.takeWhile (· ≠ Ascii.closeBracket)).length < max keySize 1 then
        some (.lineSection (strlwc (strstrip (rest.takeWhile (· ≠ Ascii.closeBracket)))))
      else none := by
  rw [sectionLine, scan_literal_self, scan]
  generalize rest.takeWhile (fun char => decide (char ≠ Ascii.closeBracket)) = name
  split
  · next empty =>
    have fits : ([] : Bytes).length < max keySize 1 := Nat.le_max_right _ _
    rw [empty, if_pos fits]
    rfl
  · next nonempty =>
    have positive : 0 < name.length := List.length_pos_of_ne_nil nonempty
    by_cases fits : name.length < keySize
    · rw [if_pos fits, if_pos (by omega), scan_nil]
      rfl
    · rw [if_neg fits, if_neg (by omega)]
      rfl

/-- A byte is in the front of a text exactly when the front reaches behind its first position. -/
theorem mem_take_iff {text : Bytes} {char : UInt8} {position : ℕ}
    (found : text.findIdx? (fun other => decide (other = char)) = some position) (count : ℕ) :
    char ∈ text.take count ↔ position < count := by
  obtain ⟨bound, same, first⟩ := List.findIdx?_eq_some_iff_getElem.mp found
  constructor
  · intro member
    obtain ⟨index, inside, equal⟩ := List.getElem_of_mem member
    rw [List.length_take] at inside
    rw [List.getElem_take] at equal
    by_contra behind
    exact first index (by omega) (decide_eq_true equal)
  · intro inside
    rw [← of_decide_eq_true same]
    exact List.mem_take_iff_getElem.mpr ⟨position, by omega, rfl⟩

/-- A text is what is in front of the first equals sign, the sign, and what is behind it. -/
theorem split_equals {text : Bytes} (member : Ascii.equals ∈ text) :
    text = text.takeWhile (· ≠ Ascii.equals) ++
        Ascii.equals :: (text.dropWhile (· ≠ Ascii.equals)).tail ∧
      text.findIdx? (· = Ascii.equals) = some (text.takeWhile (· ≠ Ascii.equals)).length := by
  induction text with
  | nil => contradiction
  | cons char text ih =>
    by_cases same : char = Ascii.equals
    · rw [same, List.takeWhile_cons_of_neg (by decide), List.dropWhile_cons_of_neg (by decide),
        List.findIdx?_cons, if_pos (by decide)]
      exact ⟨rfl, rfl⟩
    · obtain ⟨whole, found⟩ := ih ((List.mem_cons.mp member).resolve_left (Ne.symm same))
      have accepted : decide (char ≠ Ascii.equals) = true := decide_eq_true same
      rw [List.takeWhile_cons, if_pos accepted, List.dropWhile_cons, if_pos accepted,
        List.findIdx?_cons, if_neg (by simp [same]), found]
      exact ⟨congrArg (char :: ·) whole, rfl⟩

theorem equals_notMem_takeWhile (text : Bytes) :
    Ascii.equals ∉ text.takeWhile (· ≠ Ascii.equals) := fun member => by
  simpa using List.mem_takeWhile_imp member

/-- Removing blanks makes no text longer. -/
theorem length_strstrip_le (s : Bytes) : (strstrip s).length ≤ s.length :=
  (List.rdropWhile_prefix isSpace _).length_le.trans (List.dropWhile_suffix isSpace).length_le

/-- The name of a section may overflow its buffer; every other line has the meaning of the grammar. -/
theorem iniparserLine_of_fits {lineSize : ℕ} {inputLine : Bytes} (fits : inputLine.length < lineSize) :
    iniparserLine lineSize inputLine =
      if Overflows (strstrip inputLine) then none else some (lineMeaning (strstrip inputLine)) := by
  have shorter := length_strstrip_le inputLine
  rw [iniparserLine, if_pos fits]
  generalize strstrip inputLine = line at *
  cases line with
  | nil => rfl
  | cons first rest =>
    dsimp only
    rw [lineMeaning, if_neg (by simp)]
    simp only [List.head?_cons, Option.some.injEq]
    by_cases comment : first = Ascii.hash ∨ first = Ascii.semicolon
    · have sound : ¬ Overflows (first :: rest) := by
        rintro ⟨head, _⟩
        rw [List.head?_cons, Option.some.injEq] at head
        rw [head] at comment
        revert comment
        decide
      rw [if_pos comment, if_pos comment, if_neg sound]
    rw [if_neg comment, if_neg comment]
    by_cases bracketed : first = Ascii.openBracket ∧
        (first :: rest).getLast? = some Ascii.closeBracket
    · rw [if_pos bracketed, if_pos bracketed]
      obtain ⟨rfl, last⟩ := bracketed
      have overflows : Overflows (Ascii.openBracket :: rest) ↔
          Ascii.equals ∈ (rest.takeWhile (· ≠ Ascii.closeBracket)).dropLast :=
        ⟨fun inside => inside.2.2, fun inside => ⟨rfl, last, inside⟩⟩
      rw [sectionLine_eq, if_congr overflows rfl rfl]
      have front : rest.takeWhile (· ≠ Ascii.closeBracket) <+: rest := List.takeWhile_prefix _
      generalize rest.takeWhile (· ≠ Ascii.closeBracket) = name at *
      have cut : name.dropLast = rest.take (name.length - 1) := by
        have whole := List.prefix_iff_eq_take.mp front
        rw [List.dropLast_eq_take]
        nth_rewrite 2 [whole]
        rw [List.take_take, Nat.min_eq_left (Nat.sub_le _ _)]
      have other : ¬ decide (Ascii.openBracket = Ascii.equals) = true := by decide
      rw [List.findIdx?_cons, if_neg other]
      cases found : rest.findIdx? (fun char => decide (char = Ascii.equals)) with
      | none =>
        have missing : Ascii.equals ∉ name.dropLast := fun inside => by
          have absent := List.findIdx?_eq_none_iff.mp found Ascii.equals
            (front.subset (List.dropLast_subset _ inside))
          contradiction
        have length := front.length_le
        rw [List.length_cons] at shorter
        have fits : name.length < max (lineSize + 1) 1 := by omega
        rw [if_neg missing]
        exact if_pos fits
      | some position =>
        rw [cut, if_congr (mem_take_iff found _) rfl rfl, Option.map_some]
        by_cases inside : position < name.length - 1
        · rw [if_pos inside]
          exact if_neg (by simp only; omega)
        · rw [if_neg inside]
          exact if_pos (by simp only; omega)
    rw [if_neg bracketed, if_neg bracketed]
    have sound : ¬ Overflows (first :: rest) := fun ⟨head, last, _⟩ =>
      bracketed ⟨Option.some.inj head, last⟩
    rw [if_neg sound]
    by_cases member : Ascii.equals ∈ first :: rest
    · obtain ⟨whole, found⟩ := split_equals member
      rw [found]
      by_cases front : first = Ascii.equals
      · rw [if_pos (.inl front), front]
        exact valueLine_equals
      · rw [if_neg (by simp [front, member])]
        have nonempty : (first :: rest).takeWhile (· ≠ Ascii.equals) ≠ [] := by
          have accepted : decide (first ≠ Ascii.equals) = true := decide_eq_true front
          rw [List.takeWhile_cons, if_pos accepted]
          exact List.cons_ne_nil _ _
        have clean := equals_notMem_takeWhile (first :: rest)
        have length := congrArg List.length whole
        rw [List.length_append, List.length_cons] at length
        generalize (first :: rest).takeWhile (· ≠ Ascii.equals) = left at *
        generalize ((first :: rest).dropWhile (· ≠ Ascii.equals)).tail = right at *
        rw [whole]
        apply valueLine_eq clean nonempty (Nat.lt_succ_self _)
        rw [List.length_append, List.length_cons]
        omega
    · rw [if_pos (.inr member)]
      have missing : (first :: rest).findIdx? (· = Ascii.equals) = none := by
        rw [List.findIdx?_eq_none_iff]
        exact fun char present => decide_eq_false fun same => member (same ▸ present)
      rw [missing]

/-! ## The texts of a line -/

theorem isSpace_tolower (char : UInt8) : isSpace (tolower char) = isSpace char := by
  unfold isSpace tolower
  split
  · simp only [UInt8.le_iff_toNat_le, ← UInt8.toNat_inj, UInt8.toNat_add, decide_eq_decide] at *
    simp only [UInt8.reduceToNat] at *
    omega
  · rfl

theorem tolower_tolower (char : UInt8) : tolower (tolower char) = tolower char := by
  unfold tolower
  simp only [UInt8.le_iff_toNat_le, ← UInt8.toNat_inj, apply_ite UInt8.toNat, UInt8.toNat_add,
    UInt8.reduceToNat]
  split_ifs <;> omega

theorem strlwc_strlwc (s : Bytes) : strlwc (strlwc s) = strlwc s := by
  rw [strlwc, strlwc, List.map_map]
  exact List.map_congr_left fun char _ => tolower_tolower char

/-- Blanks stay blanks in lower case. -/
theorem strstrip_strlwc (s : Bytes) : strstrip (strlwc s) = strlwc (strstrip s) := by
  have same : isSpace ∘ tolower = isSpace := funext isSpace_tolower
  rw [strstrip, strlwc, strlwc, strstrip, List.dropWhile_map, same, List.rdropWhile, List.rdropWhile,
    ← List.map_reverse, List.dropWhile_map, same, List.map_reverse]

theorem last_rdropWhile (s : Bytes) : ∀ char ∈ (s.rdropWhile isSpace).getLast?, isSpace char = false := by
  intro char last
  obtain ⟨nonempty, rfl⟩ := List.mem_getLast?_eq_getLast last
  exact Bool.eq_false_iff.mpr (List.rdropWhile_last_not isSpace s nonempty)

theorem strstrip_eq_self {s : Bytes} (front : ∀ char ∈ s.head?, isSpace char = false)
    (back : ∀ char ∈ s.getLast?, isSpace char = false) : strstrip s = s := by
  have kept : s.dropWhile isSpace = s := by
    cases s with
    | nil => rfl
    | cons char s => exact List.dropWhile_cons_of_neg (Bool.eq_false_iff.mp (front char rfl))
  rw [strstrip, kept, List.rdropWhile_eq_self_iff]
  exact fun nonempty => Bool.eq_false_iff.mp (back _ (List.getLast?_eq_some_getLast nonempty))

theorem head_strstrip (s : Bytes) : ∀ char ∈ (strstrip s).head?, isSpace char = false := by
  intro char head
  obtain ⟨rest, stripped⟩ := List.head?_eq_some_iff.mp head
  obtain ⟨behind, whole⟩ := List.rdropWhile_prefix isSpace (s.dropWhile isSpace)
  have first := List.head?_dropWhile_not isSpace s
  rw [← whole, ← strstrip, stripped] at first
  exact first

theorem strstrip_strstrip (s : Bytes) : strstrip (strstrip s) = strstrip s :=
  strstrip_eq_self (head_strstrip s) (last_rdropWhile _)

theorem strstrip_ne_nil {char : UInt8} (solid : isSpace char = false) (s : Bytes) :
    strstrip (char :: s) ≠ [] := by
  rw [strstrip, List.dropWhile_cons_of_neg (Bool.eq_false_iff.mp solid), ne_eq,
    List.rdropWhile_eq_nil_iff]
  exact fun blank => Bool.eq_false_iff.mp solid (blank char List.mem_cons_self)

/-- The texts of a line: keys and sections are in lower case, and nothing has blanks at its ends. -/
def LineStatus.Normal : LineStatus → Prop
  | .lineSection name => strlwc name = name ∧ strstrip name = name
  | .lineValue key value => (strlwc key = key ∧ strstrip key = key ∧ key ≠ []) ∧ strstrip value = value
  | _ => True

/-- Lower case without blanks stays as it is. -/
theorem normal_name (s : Bytes) :
    strlwc (strlwc (strstrip s)) = strlwc (strstrip s) ∧
      strstrip (strlwc (strstrip s)) = strlwc (strstrip s) := by
  refine ⟨strlwc_strlwc _, ?_⟩
  rw [strstrip_strlwc, strstrip_strstrip]

theorem strstrip_valueText (text : Bytes) : strstrip (valueText text) = valueText text := by
  have quotes (value : Bytes) :
      strstrip (emptyQuotes (strstrip value)) = emptyQuotes (strstrip value) := by
    rw [emptyQuotes]
    split
    · rfl
    · exact strstrip_strstrip value
  rw [valueText]
  split
  · rfl
  · split_ifs
    · rfl
    · exact quotes _
    · exact quotes _

theorem normal_lineMeaning {line : Bytes} (front : ∀ char ∈ line.head?, isSpace char = false) :
    (lineMeaning line).Normal := by
  cases line with
  | nil => trivial
  | cons first rest =>
    have solid : isSpace first = false := front first rfl
    rw [lineMeaning]
    split_ifs with comment bracketed malformed
    · trivial
    · exact normal_name _
    · trivial
    · obtain ⟨other, _⟩ := not_or.mp malformed
      refine ⟨⟨(normal_name _).1, (normal_name _).2, ?_⟩, strstrip_valueText _⟩
      rw [List.takeWhile_cons, if_pos (decide_eq_true other), strlwc, ne_eq, List.map_eq_nil_iff]
      exact strstrip_ne_nil solid _

/-- `iniparser_line` on a line that fits the buffer it is copied to: only the name of a section can
overflow its buffer, every other line has the meaning of the grammar, and its texts are normal. -/
theorem iniparserLine_eq {lineSize : ℕ} {inputLine : Bytes} (fits : inputLine.length < lineSize) :
    (iniparserLine lineSize inputLine = none ↔ Overflows (strstrip inputLine)) ∧
      ∀ status, iniparserLine lineSize inputLine = some status →
        status = lineMeaning (strstrip inputLine) ∧ status.Normal := by
  rw [iniparserLine_of_fits fits]
  split
  · next overflows => exact ⟨iff_of_true rfl overflows, fun _ absurd => nomatch absurd⟩
  · next sound =>
    refine ⟨iff_of_false (Option.some_ne_none _) sound, ?_⟩
    rintro status ⟨⟩
    exact ⟨rfl, normal_lineMeaning (head_strstrip inputLine)⟩

/-- The line `[a=b]` overflows its buffer, and `[a=]` does not. -/
theorem iniparserLine_eq_section :
    iniparserLine 6 [91, 97, 61, 98, 93] = none ∧
      ∀ status, iniparserLine 5 [91, 97, 61, 93] = some status →
        status = .lineSection [97, 61] ∧ status.Normal :=
  ⟨(iniparserLine_eq (by decide)).1.mpr (by decide), (iniparserLine_eq (by decide)).2⟩

end LibEvRpc
