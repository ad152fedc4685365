import LibEvRpc.Proofs.IniLoad

/-! # A configuration that is written is read back

`iniparser_dump_ini` writes the sections of a dictionary one after another, each with its keys. What it
writes is loaded again with the same contents, as long as no text holds what has a meaning of its own
in a file: a bracket or an equals sign in the name of a section, an equals sign in a key, a comment
or a quote in a value, or a line break anywhere.
-/

namespace LibEvRpc

open Scanf SlotTable

/-! ## Texts -/

/-- The name of a section that is read as it is written. -/
structure SectionText (s : Bytes) : Prop where
  lower : strlwc s = s
  stripped : strstrip s = s
  plain : ∀ char ∈ s, char ≠ 0 ∧ char ≠ Ascii.newline ∧ char ≠ Ascii.closeBracket ∧ char ≠ Ascii.equals
  short : s.length + 2 < asciiLineSz - 1

/-- A key that is read as it is written. -/
structure KeyText (key : Bytes) : Prop where
  nonempty : key ≠ []
  lower : strlwc key = key
  stripped : strstrip key = key
  plain : ∀ char ∈ key, char ≠ 0 ∧ char ≠ Ascii.newline ∧ char ≠ Ascii.equals
  front : ∀ char ∈ key.head?, char ≠ Ascii.hash ∧ char ≠ Ascii.semicolon ∧ char ≠ Ascii.openBracket

/-- A value that is read as it is written. -/
structure ValueText (value : Bytes) : Prop where
  stripped : strstrip value = value
  plain : ∀ char ∈ value, char ≠ 0 ∧ char ≠ Ascii.newline ∧ char ≠ Ascii.hash ∧ char ≠ Ascii.semicolon
  front : ∀ char ∈ value.head?, char ≠ Ascii.quote ∧ char ≠ Ascii.apostrophe
  back : value.getLast? ≠ some Ascii.backslash

/-- The part of a key in front of its first colon names a section, and the rest is a key there. -/
structure Writable (d : Dictionary) : Prop where
  sections : ∀ entry ∈ entries d.slots, Dictionary.isSection entry.key →
    SectionText entry.key ∧ entry.val = none
  keys : ∀ entry ∈ entries d.slots, ¬ Dictionary.isSection entry.key →
    ∃ s key value, entry.key = s ++ Ascii.colon :: key ∧ Ascii.colon ∉ s ∧ s ∈ d.keys ∧ KeyText key ∧
      entry.val = some value ∧ ValueText value ∧ max key.length 30 + value.length + 3 < asciiLineSz - 1

/-! ## Lines of a file -/

def unlines (lines : List Bytes) : Bytes := lines.flatMap fun line => line ++ [Ascii.newline]

/-- A line that is read as it is, but for the blanks at its end. -/
structure PlainLine (line : Bytes) : Prop where
  plain : ∀ char ∈ line, char ≠ 0 ∧ char ≠ Ascii.newline
  short : line.length < asciiLineSz - 1
  back : (line.rdropWhile isSpace).getLast? ≠ some Ascii.backslash

theorem plainLine_nil : PlainLine [] := ⟨by simp, by decide, by decide⟩

theorem fgets_line {line : Bytes} (clean : ∀ char ∈ line, char ≠ Ascii.newline) {size : ℕ}
    (fits : line.length < size) (rest : Bytes) :
    fgets size (line ++ Ascii.newline :: rest) = (line ++ [Ascii.newline], rest, false) := by
  induction line generalizing size with
  | nil =>
    obtain ⟨size, rfl⟩ := Nat.exists_eq_add_one.mpr fits
    rfl
  | cons char line ih =>
    obtain ⟨size, rfl⟩ := Nat.exists_eq_add_one.mpr (Nat.zero_lt_of_lt fits)
    obtain ⟨first, clean⟩ := List.forall_mem_cons.mp clean
    rw [List.cons_append, fgets, if_neg first, ih clean (Nat.succ_lt_succ_iff.mp fits)]
    rfl

/-- The lines that are written are those that are read. -/
theorem fileLines_unlines {lines : List Bytes} (plain : ∀ line ∈ lines, PlainLine line) {fuel : ℕ}
    (enough : lines.length ≤ fuel) :
    fileLines fuel (unlines lines) = lines.map fun line => (line ++ [Ascii.newline], false) := by
  induction lines generalizing fuel with
  | nil => cases fuel <;> rfl
  | cons line lines ih =>
    obtain ⟨fuel, rfl⟩ := Nat.exists_eq_add_one.mpr (Nat.zero_lt_of_lt enough)
    obtain ⟨first, plain⟩ := List.forall_mem_cons.mp plain
    have front := fgets_line (fun char member => (first.plain char member).2) first.short (unlines lines)
    have whole : unlines (line :: lines) = line ++ Ascii.newline :: unlines lines := by
      rw [unlines, List.flatMap_cons, List.append_assoc]
      rfl
    rw [whole, fileLines, front, List.map_cons, ← ih plain (Nat.succ_le_succ_iff.mp enough)]
    cases line <;> rfl

theorem length_le_unlines (lines : List Bytes) : lines.length ≤ (unlines lines).length := by
  induction lines with
  | nil => exact Nat.zero_le 0
  | cons line lines ih =>
    rw [unlines, List.flatMap_cons, List.length_append, List.length_append, ← unlines, List.length_cons,
      List.length_singleton]
    omega

/-- Nothing is joined: the logical lines are the lines that are not empty. -/
theorem logicalLines_of_plain {lines : List Bytes} (plain : ∀ line ∈ lines, PlainLine line) :
    logicalLines [] (lines.map fun line => (line ++ [Ascii.newline], false)) =
      ((lines.filter (· ≠ [])).map (List.rdropWhile isSpace), .whole) := by
  induction lines with
  | nil => rfl
  | cons line lines ih =>
    obtain ⟨first, plain⟩ := List.forall_mem_cons.mp plain
    have string : CString.ofBuffer (line ++ [Ascii.newline]) = line ++ [Ascii.newline] := by
      rw [CString.ofBuffer_eq_self_iff, List.mem_append, List.mem_singleton]
      rintro (member | zero)
      · exact (first.plain 0 member).1 rfl
      · contradiction
    have crop : cropped (line ++ [Ascii.newline]) = line.rdropWhile isSpace := by
      rw [cropped, string, List.rdropWhile_concat_pos _ _ _ (by decide)]
    rw [List.map_cons, logicalLines, string, crop, ih plain]
    dsimp only
    cases line with
    | nil => rfl
    | cons char line =>
      have complete : (char :: line ++ [Ascii.newline]).getLast? = some Ascii.newline :=
        List.getLast?_concat
      rw [if_neg (by simp), if_neg (by simp), if_neg fun long => long.1 complete, if_neg first.back]
      rfl

theorem linesOf_unlines {lines : List Bytes} (plain : ∀ line ∈ lines, PlainLine line) :
    linesOf (unlines lines) = ((lines.filter (· ≠ [])).map (List.rdropWhile isSpace), .whole) := by
  rw [linesOf, fileLines_unlines plain (length_le_unlines lines), logicalLines_of_plain plain]

/-! ## The lines of a dump -/

/-- `[%s]` -/
def sectionHeader (s : Bytes) : Bytes := Ascii.openBracket :: s ++ [Ascii.closeBracket]

/-- `%-30s = %s` -/
def keyLine (key value : Bytes) : Bytes := Dictionary.padded key ++ [32, Ascii.equals, 32] ++ value

theorem sectionHeader_plainLine {s : Bytes} (text : SectionText s) :
    PlainLine (sectionHeader s) ∧ (sectionHeader s).rdropWhile isSpace = sectionHeader s := by
  have kept : (sectionHeader s).rdropWhile isSpace = sectionHeader s :=
    List.rdropWhile_concat_neg _ _ _ (by decide)
  refine ⟨⟨?_, ?_, ?_⟩, kept⟩
  · simp only [sectionHeader, List.mem_append, List.mem_cons, List.not_mem_nil]
    rintro char ((rfl | member) | rfl | ⟨⟨⟩⟩)
    · decide
    · exact ⟨(text.plain char member).1, (text.plain char member).2.1⟩
    · decide
  · have short := text.short
    rw [sectionHeader, List.length_append, List.length_cons, List.length_singleton]
    omega
  · rw [kept, sectionHeader, List.getLast?_concat]
    decide

/-- The header of a section names the section, and does not overflow. -/
theorem sectionHeader_meaning {s : Bytes} (text : SectionText s) :
    ¬ Overflows (strstrip (sectionHeader s)) ∧
      lineMeaning (strstrip (sectionHeader s)) = .lineSection s := by
  have stripped : strstrip (sectionHeader s) = sectionHeader s := by
    apply strstrip_eq_self
    · rintro char ⟨⟩
      decide
    · rw [sectionHeader, List.getLast?_concat]
      rintro char ⟨⟩
      decide
  have last : (sectionHeader s).getLast? = some Ascii.closeBracket := List.getLast?_concat
  have name : (s ++ [Ascii.closeBracket]).takeWhile (· ≠ Ascii.closeBracket) = s := by
    rw [List.takeWhile_append_of_pos fun char member => decide_eq_true (text.plain char member).2.2.1,
      List.takeWhile_cons, if_neg (by decide), List.append_nil]
  rw [stripped]
  constructor
  · rintro ⟨_, _, member⟩
    rw [sectionHeader, List.cons_append, List.tail_cons, name] at member
    exact (text.plain _ (List.dropLast_subset s member)).2.2.2 rfl
  · rw [sectionHeader, List.cons_append] at last ⊢
    rw [lineMeaning, if_neg (by decide), if_pos ⟨rfl, last⟩, name, text.stripped, text.lower]

/-- Blanks at the end of a text are dropped. -/
theorem rdropWhile_append_blanks (text : Bytes) {blanks : Bytes}
    (blank : ∀ char ∈ blanks, isSpace char) :
    (text ++ blanks).rdropWhile isSpace = text.rdropWhile isSpace := by
  rw [List.rdropWhile, List.reverse_append,
    List.dropWhile_append_of_pos fun char member => blank char (List.mem_reverse.mp member)]
  rfl

theorem rdropWhile_of_last {text : Bytes} (solid : ∀ char ∈ text.getLast?, isSpace char = false) :
    text.rdropWhile isSpace = text := by
  rw [List.rdropWhile_eq_self_iff]
  exact fun nonempty => Bool.eq_false_iff.mp (solid _ (List.getLast?_eq_some_getLast nonempty))

def keyBlanks (key : Bytes) : Bytes := List.replicate (30 - key.length + 1) 32

theorem isSpace_of_mem_keyBlanks {key : Bytes} : ∀ char ∈ keyBlanks key, char = 32 :=
  fun _ => List.eq_of_mem_replicate

/-- A value behind its equals sign, without a blank if there is none. -/
def valueTail (value : Bytes) : Bytes := if value = [] then [] else 32 :: value

variable {key value : Bytes}

theorem keyLine_eq : keyLine key value = key ++ keyBlanks key ++ Ascii.equals :: 32 :: value := by
  rw [keyLine, Dictionary.padded, keyBlanks, List.replicate_succ']
  simp

/-- A value that is read as it is written. -/
theorem valueText_valueTail (text : ValueText value) : valueText (valueTail value) = value := by
  have front := head_strstrip value
  rw [text.stripped] at front
  cases value with
  | nil => rfl
  | cons first rest =>
    have plain := text.plain first List.mem_cons_self
    have whole : (first :: rest).takeWhile (fun char =>
        char ≠ Ascii.semicolon ∧ char ≠ Ascii.hash) = first :: rest := by
      rw [List.takeWhile_eq_self_iff]
      exact fun char member =>
        decide_eq_true ⟨(text.plain char member).2.2.2, (text.plain char member).2.2.1⟩
    have quoted := text.front first rfl
    rw [valueTail, if_neg (List.cons_ne_nil _ _), valueText, List.dropWhile_cons_of_pos rfl,
      List.dropWhile_cons_of_neg (Bool.eq_false_iff.mp (front first rfl))]
    dsimp only
    rw [if_neg (not_or.mpr ⟨plain.2.2.2, plain.2.2.1⟩),
      if_neg fun marked => (not_or.mpr quoted) marked.1, whole, text.stripped, emptyQuotes, if_neg]
    rintro (same | same)
    · exact quoted.1 (List.cons.inj same).1
    · exact quoted.2 (List.cons.inj same).1

/-- Only the blank in front of an empty value is cropped. -/
theorem rdropWhile_keyLine (text : ValueText value) :
    (keyLine key value).rdropWhile isSpace = key ++ keyBlanks key ++ Ascii.equals :: valueTail value := by
  rw [keyLine_eq, valueTail]
  split
  · next empty =>
    have solid : ∀ char ∈ (key ++ keyBlanks key ++ [Ascii.equals]).getLast?, isSpace char = false := by
      rw [List.getLast?_concat]
      rintro char ⟨⟩
      rfl
    have blank : ∀ char ∈ ([32] : Bytes), isSpace char := by
      rintro char member
      rw [List.mem_singleton.mp member]
      rfl
    rw [empty, List.append_cons, rdropWhile_append_blanks _ blank, rdropWhile_of_last solid]
  · next nonempty =>
    apply rdropWhile_of_last
    intro char last
    have back := last_rdropWhile (value.dropWhile isSpace)
    rw [← strstrip, text.stripped] at back
    apply back char
    rw [List.append_cons, List.append_cons, List.getLast?_append_of_ne_nil _ nonempty] at last
    exact last

theorem KeyText.exists_cons (text : KeyText key) :
    ∃ first rest, key = first :: rest ∧ isSpace first = false := by
  have front := head_strstrip key
  rw [text.stripped] at front
  cases key with
  | nil => exact absurd rfl text.nonempty
  | cons first rest => exact ⟨first, rest, rfl, front first rfl⟩

theorem keyLine_plainLine (keyText : KeyText key) (valueText : ValueText value)
    (short : max key.length 30 + value.length + 3 < asciiLineSz - 1) : PlainLine (keyLine key value) := by
  refine ⟨?_, ?_, ?_⟩
  · rw [keyLine_eq]
    simp only [List.mem_append, List.mem_cons]
    rintro char ((member | member) | rfl | rfl | member)
    · exact ⟨(keyText.plain char member).1, (keyText.plain char member).2.1⟩
    · rw [isSpace_of_mem_keyBlanks char member]
      decide
    · decide
    · decide
    · exact ⟨(valueText.plain char member).1, (valueText.plain char member).2.1⟩
  · rw [keyLine_eq, keyBlanks, List.length_append, List.length_append, List.length_replicate,
      List.length_cons, List.length_cons]
    omega
  · rw [rdropWhile_keyLine valueText, List.getLast?_append_of_ne_nil _ (List.cons_ne_nil _ _), valueTail]
    split
    · decide
    · next nonempty =>
      have cut : Ascii.equals :: 32 :: value = [Ascii.equals, 32] ++ value := rfl
      rw [cut, List.getLast?_append_of_ne_nil _ nonempty]
      exact valueText.back

/-- The line of a key gives the key its value. -/
theorem keyLine_meaning (keyText : KeyText key) (valueText : ValueText value) :
    ¬ Overflows (strstrip ((keyLine key value).rdropWhile isSpace)) ∧
      lineMeaning (strstrip ((keyLine key value).rdropWhile isSpace)) = .lineValue key value := by
  obtain ⟨first, rest, rfl, solid⟩ := keyText.exists_cons
  have cropped := @rdropWhile_keyLine (first :: rest) value valueText
  have stripped : strstrip ((keyLine (first :: rest) value).rdropWhile isSpace) =
      (keyLine (first :: rest) value).rdropWhile isSpace := by
    apply strstrip_eq_self
    · rw [cropped]
      rintro char ⟨⟩
      exact solid
    · exact last_rdropWhile _
  rw [stripped, cropped]
  have front := keyText.front first rfl
  have clean : ∀ char ∈ first :: rest ++ keyBlanks (first :: rest), decide (char ≠ Ascii.equals) = true := by
    intro char member
    rcases List.mem_append.mp member with inKey | blank
    · exact decide_eq_true (keyText.plain char inKey).2.2
    · rw [isSpace_of_mem_keyBlanks char blank]
      rfl
  have blanks : ∀ char ∈ keyBlanks (first :: rest), isSpace char := fun char member => by
    rw [isSpace_of_mem_keyBlanks char member]
    rfl
  have key : strstrip (first :: rest ++ keyBlanks (first :: rest)) = first :: rest := by
    rw [strstrip, List.cons_append, List.dropWhile_cons_of_neg (Bool.eq_false_iff.mp solid),
      ← List.cons_append, rdropWhile_append_blanks _ blanks]
    have kept := keyText.stripped
    rwa [strstrip, List.dropWhile_cons_of_neg (Bool.eq_false_iff.mp solid)] at kept
  have keyPart : ((first :: rest ++ keyBlanks (first :: rest)) ++ Ascii.equals :: valueTail value).takeWhile
      (· ≠ Ascii.equals) = first :: rest ++ keyBlanks (first :: rest) := by
    rw [List.takeWhile_append_of_pos clean, List.takeWhile_cons, if_neg (by decide), List.append_nil]
  have valuePart : ((first :: rest ++ keyBlanks (first :: rest)) ++ Ascii.equals :: valueTail value).dropWhile
      (· ≠ Ascii.equals) = Ascii.equals :: valueTail value := by
    rw [List.dropWhile_append_of_pos clean, List.dropWhile_cons, if_neg (by decide)]
  constructor
  · rintro ⟨head, _⟩
    exact front.2.2 (Option.some.inj head)
  · have member : Ascii.equals ∈ first :: rest ++ keyBlanks (first :: rest) ++
        Ascii.equals :: valueTail value := List.mem_append_right _ List.mem_cons_self
    have other : first ≠ Ascii.equals := (keyText.plain first List.mem_cons_self).2.2
    rw [List.cons_append, List.cons_append] at member keyPart valuePart ⊢
    rw [lineMeaning, if_neg (not_or.mpr ⟨front.1, front.2.1⟩), if_neg fun bracketed => front.2.2 bracketed.1,
      if_neg (not_or.mpr ⟨other, not_not.mpr member⟩), keyPart, valuePart, List.tail_cons,
      valueText_valueTail valueText, ← List.cons_append, key, keyText.lower]

/-! ## The lines of a dictionary -/

theorem unlines_append (first second : List Bytes) :
    unlines (first ++ second) = unlines first ++ unlines second := List.flatMap_append

namespace Dictionary

variable {d : Dictionary}

def sectionLines (d : Dictionary) (s : Bytes) : List Bytes :=
  [] :: sectionHeader s :: (d.sectionEntries s).map (fun entry =>
    keyLine (entry.key.drop (s.length + 1)) (entry.val.getD [])) ++ [[]]

/-- What the lines of a section say. -/
def sectionStatuses (d : Dictionary) (s : Bytes) : List LineStatus :=
  .lineSection s :: (d.sectionEntries s).map fun entry =>
    .lineValue (entry.key.drop (s.length + 1)) (entry.val.getD [])

def sectionSettings (d : Dictionary) (s : Bytes) : List (Bytes × Option Bytes) :=
  (s, none) :: (d.sectionEntries s).map fun entry => (entry.key, entry.val)

theorem dumpSectionIni_eq {s : Bytes} (found : d.findEntry s) :
    d.dumpSectionIni s = unlines (d.sectionLines s) := by
  have entries (list : List DictionaryEntry) : list.flatMap (dumpEntry s) = unlines (list.map fun entry =>
      keyLine (entry.key.drop (s.length + 1)) (entry.val.getD [])) := by
    rw [unlines, List.flatMap_map]
    rfl
  rw [dumpSectionIni, if_pos found, entries, sectionLines, unlines_append, unlines, unlines,
    List.flatMap_cons, List.flatMap_cons, ← unlines]
  simp [sectionHeader, unlines]

theorem Valid.get_of_mem (valid : d.Valid) {entry : DictionaryEntry} (member : entry ∈ entries d.slots) :
    d.get entry.key = some entry.val := by
  rw [valid.get_eq_lookup, (lookup_eq_some_iff valid.distinct).mpr ⟨member, rfl⟩]
  rfl

/-- The sections are found under their names. -/
theorem Valid.section_found (valid : d.Valid) (writable : Writable d) {s : Bytes}
    (member : s ∈ d.keys.filter isSection) : SectionText s ∧ d.findEntry s ∧ d.get s = some none := by
  obtain ⟨present, isSection⟩ := List.mem_filter.mp member
  obtain ⟨entry, stored, rfl⟩ := List.mem_map.mp present
  obtain ⟨text, null⟩ := writable.sections entry stored isSection
  have found := valid.get_of_mem stored
  refine ⟨text, ?_, null ▸ found⟩
  rw [findEntry, getString, text.lower, found]
  rfl

/-- The first colon ends the name of a section. -/
theorem section_of_prefix {s other key : Bytes} (clean : Ascii.colon ∉ s) (otherClean : Ascii.colon ∉ other)
    (front : s ++ [Ascii.colon] <+: other ++ Ascii.colon :: key) : s = other := by
  have name {name rest : Bytes} (clean : Ascii.colon ∉ name) :
      (name ++ Ascii.colon :: rest).takeWhile (· ≠ Ascii.colon) = name := by
    rw [List.takeWhile_append_of_pos fun char member =>
        decide_eq_true (ne_of_mem_of_not_mem member clean),
      List.takeWhile_cons, if_neg (by decide), List.append_nil]
  obtain ⟨rest, whole⟩ := front
  rw [List.append_assoc, List.singleton_append] at whole
  rw [← @name s rest clean, whole, name otherClean]

/-- The entries of a section have its name, and a text for their lines. -/
theorem section_entry (writable : Writable d) {s : Bytes} (clean : isSection s) {entry : DictionaryEntry}
    (member : entry ∈ d.sectionEntries s) :
    ∃ key value, entry.key = s ++ Ascii.colon :: key ∧ entry.key.drop (s.length + 1) = key ∧
      entry.val = some value ∧ KeyText key ∧ ValueText value ∧
      max key.length 30 + value.length + 3 < asciiLineSz - 1 := by
  obtain ⟨stored, front⟩ := List.mem_filter.mp member
  rw [List.isPrefixOf_iff_prefix] at front
  have keyed : ¬ isSection entry.key := by
    have colon := front.subset (List.mem_append_right _ List.mem_cons_self)
    simpa [isSection] using colon
  obtain ⟨other, key, value, same, otherClean, _, keyText, val, valueText, short⟩ :=
    writable.keys entry stored keyed
  rw [same] at front
  obtain rfl := section_of_prefix (by simpa [isSection] using clean) otherClean front
  refine ⟨key, value, same, ?_, val, keyText, valueText, short⟩
  rw [same, List.append_cons, List.drop_left' (by simp)]

theorem sectionLines_plain (valid : d.Valid) (writable : Writable d) {s : Bytes}
    (member : s ∈ d.keys.filter isSection) : ∀ line ∈ d.sectionLines s, PlainLine line := by
  have text := (valid.section_found writable member).1
  simp only [sectionLines, List.mem_append, List.mem_cons, List.mem_map, List.not_mem_nil, or_false]
  rintro line ((rfl | rfl | ⟨entry, inside, rfl⟩) | rfl)
  · exact plainLine_nil
  · exact (sectionHeader_plainLine text).1
  · obtain ⟨key, value, _, cut, val, keyText, valueText, short⟩ :=
      section_entry writable (List.mem_filter.mp member).2 inside
    rw [cut, val]
    exact keyLine_plainLine keyText valueText short
  · exact plainLine_nil

theorem filter_sectionLines (d : Dictionary) (s : Bytes) :
    (d.sectionLines s).filter (· ≠ []) = sectionHeader s :: (d.sectionEntries s).map fun entry =>
      keyLine (entry.key.drop (s.length + 1)) (entry.val.getD []) := by
  have full : ∀ line ∈ (d.sectionEntries s).map (fun entry =>
      keyLine (entry.key.drop (s.length + 1)) (entry.val.getD [])), decide (line ≠ []) = true := by
    intro line member
    obtain ⟨entry, _, rfl⟩ := List.mem_map.mp member
    simp [keyLine]
  rw [sectionLines, List.cons_append, List.cons_append, List.filter_cons_of_neg (by decide),
    List.filter_cons_of_pos (by simp [sectionHeader]), List.filter_append, List.filter_eq_self.mpr full]
  simp

/-- The lines of a section say what the section holds. -/
theorem statuses_sectionLines (valid : d.Valid) (writable : Writable d) {s : Bytes}
    (member : s ∈ d.keys.filter isSection) :
    statuses (((d.sectionLines s).filter (· ≠ [])).map (List.rdropWhile isSpace)) = d.sectionStatuses s ∧
      ∀ line ∈ ((d.sectionLines s).filter (· ≠ [])).map (List.rdropWhile isSpace),
        ¬ Overflows (strstrip line) := by
  have text := (valid.section_found writable member).1
  obtain ⟨sound, meaning⟩ := sectionHeader_meaning text
  have header := (sectionHeader_plainLine text).2
  rw [filter_sectionLines, List.map_cons, header, List.map_map]
  constructor
  · rw [statuses, List.map_cons, meaning, List.map_map, sectionStatuses]
    refine congrArg (LineStatus.lineSection s :: ·) (List.map_congr_left fun entry inside => ?_)
    obtain ⟨key, value, _, cut, val, keyText, valueText, _⟩ :=
      section_entry writable (List.mem_filter.mp member).2 inside
    rw [Function.comp_apply, Function.comp_apply, cut, val]
    exact (keyLine_meaning keyText valueText).2
  · refine List.forall_mem_cons.mpr ⟨sound, fun line inside => ?_⟩
    obtain ⟨entry, stored, rfl⟩ := List.mem_map.mp inside
    obtain ⟨key, value, _, cut, val, keyText, valueText, _⟩ :=
      section_entry writable (List.mem_filter.mp member).2 stored
    rw [Function.comp_apply, cut, val]
    exact (keyLine_meaning keyText valueText).1

/-- The lines of a section set its keys, and what is behind them is set as it would be. -/
theorem assignments_sectionStatuses (writable : Writable d) {s : Bytes} (clean : isSection s)
    (currentSection : Bytes) (rest : List LineStatus) :
    assignments currentSection (d.sectionStatuses s ++ rest) =
      d.sectionSettings s ++ assignments s rest := by
  have keys (list : List DictionaryEntry) (inside : ∀ entry ∈ list, entry ∈ d.sectionEntries s) :
      assignments s (list.map (fun entry =>
        LineStatus.lineValue (entry.key.drop (s.length + 1)) (entry.val.getD [])) ++ rest) =
      list.map (fun entry => (entry.key, entry.val)) ++ assignments s rest := by
    induction list with
    | nil => rfl
    | cons entry list ih =>
      obtain ⟨first, inside⟩ := List.forall_mem_cons.mp inside
      obtain ⟨key, value, same, cut, val, _⟩ := section_entry writable clean first
      rw [List.map_cons, List.cons_append, assignments, ih inside, cut, val, ← same, List.map_cons,
        List.cons_append, val]
      rfl
  rw [sectionStatuses, List.cons_append, assignments, keys _ fun _ member => member]
  rfl

def dumpLines (d : Dictionary) : List Bytes :=
  if d.getNSec < 1 then [] else (d.keys.filter isSection).flatMap d.sectionLines ++ [[]]

/-- A dictionary without sections has no keys either. -/
theorem entries_of_getNSec (writable : Writable d) (none : d.getNSec < 1) : entries d.slots = [] := by
  have noSection : ∀ key ∈ d.keys, ¬ isSection key = true := by
    rw [getNSec, Nat.lt_one_iff, List.countP_eq_zero] at none
    exact none
  rw [List.eq_nil_iff_forall_not_mem]
  intro entry member
  have keyed := noSection entry.key (List.mem_map.mpr ⟨entry, member, rfl⟩)
  obtain ⟨s, _, _, _, clean, present, _⟩ := writable.keys entry member keyed
  exact noSection s present (by simpa [isSection] using clean)

theorem dumpIni_eq (valid : d.Valid) (writable : Writable d) : d.dumpIni = unlines d.dumpLines := by
  rw [dumpIni, dumpLines]
  split
  · next none =>
    rw [entries_of_getNSec writable none]
    rfl
  · have sections : (d.keys.filter isSection).flatMap d.dumpSectionIni =
        unlines ((d.keys.filter isSection).flatMap d.sectionLines) := by
      rw [unlines, List.flatMap_assoc]
      apply List.flatMap_congr
      exact fun s member => dumpSectionIni_eq (valid.section_found writable member).2.1
    rw [sections, unlines_append]
    rfl

theorem dumpLines_plain (valid : d.Valid) (writable : Writable d) :
    ∀ line ∈ d.dumpLines, PlainLine line := by
  rw [dumpLines]
  split
  · exact fun _ inside => absurd inside List.not_mem_nil
  · intro line member
    rcases List.mem_append.mp member with inside | last
    · obtain ⟨s, present, inside⟩ := List.mem_flatMap.mp inside
      exact sectionLines_plain valid writable present line inside
    · rw [List.mem_singleton.mp last]
      exact plainLine_nil

/-- The lines of a dictionary say what its sections hold. -/
theorem statuses_dumpLines (valid : d.Valid) (writable : Writable d) :
    statuses ((d.dumpLines.filter (· ≠ [])).map (List.rdropWhile isSpace)) =
        (d.keys.filter isSection).flatMap d.sectionStatuses ∧
      ∀ line ∈ (d.dumpLines.filter (· ≠ [])).map (List.rdropWhile isSpace),
        ¬ Overflows (strstrip line) := by
  rw [dumpLines]
  split
  · next none =>
    rw [keys, entries_of_getNSec writable none]
    exact ⟨rfl, fun _ inside => absurd inside List.not_mem_nil⟩
  · have last : ([[]] : List Bytes).filter (· ≠ []) = [] := rfl
    rw [List.filter_append, last, List.append_nil, List.filter_flatMap, List.map_flatMap, statuses,
      List.map_flatMap]
    constructor
    · apply List.flatMap_congr
      exact fun s member => (statuses_sectionLines valid writable member).1
    · intro line inside
      obtain ⟨s, member, inside⟩ := List.mem_flatMap.mp inside
      exact (statuses_sectionLines valid writable member).2 line inside

/-- What a dictionary that is written sets. -/
def dumpSettings (d : Dictionary) : List (Bytes × Option Bytes) :=
  (d.keys.filter isSection).flatMap d.sectionSettings

theorem assignments_dump (writable : Writable d) {sections : List Bytes}
    (clean : ∀ s ∈ sections, isSection s) (currentSection : Bytes) :
    assignments currentSection (sections.flatMap d.sectionStatuses) =
      sections.flatMap d.sectionSettings := by
  induction sections generalizing currentSection with
  | nil => rfl
  | cons s sections ih =>
    obtain ⟨first, clean⟩ := List.forall_mem_cons.mp clean
    rw [List.flatMap_cons, assignments_sectionStatuses writable first, ih clean, List.flatMap_cons]

/-- Every entry of the dictionary is set once, to its value. -/
theorem lastValue_dumpSettings (valid : d.Valid) (writable : Writable d) :
    lastValue d.dumpSettings = d.get := by
  have sound : ∀ setting ∈ d.dumpSettings, d.get setting.1 = some setting.2 := by
    intro setting member
    obtain ⟨s, present, member⟩ := List.mem_flatMap.mp member
    rcases List.mem_cons.mp member with rfl | member
    · exact (valid.section_found writable present).2.2
    · obtain ⟨entry, inside, rfl⟩ := List.mem_map.mp member
      exact valid.get_of_mem (List.mem_filter.mp inside).1
  have complete : ∀ key ∈ d.keys, key ∈ d.dumpSettings.map Prod.fst := by
    intro key member
    obtain ⟨entry, stored, rfl⟩ := List.mem_map.mp member
    rw [dumpSettings, List.map_flatMap, List.mem_flatMap]
    by_cases named : isSection entry.key
    · exact ⟨entry.key, List.mem_filter.mpr ⟨member, named⟩, List.mem_cons_self⟩
    · obtain ⟨s, key, _, same, clean, present, _⟩ := writable.keys entry stored named
      refine ⟨s, List.mem_filter.mpr ⟨present, by simpa [isSection] using clean⟩, ?_⟩
      refine List.mem_cons_of_mem _ (List.mem_map.mpr ⟨(entry.key, entry.val), ?_, rfl⟩)
      refine List.mem_map.mpr ⟨entry, List.mem_filter.mpr ⟨stored, ?_⟩, rfl⟩
      rw [same, List.isPrefixOf_iff_prefix]
      exact ⟨key, List.append_assoc _ _ _⟩
  funext key
  cases found : lastValue d.dumpSettings key with
  | none =>
    rw [eq_comm, ← Option.not_isSome_iff_eq_none, ← valid.mem_keys]
    intro member
    have set := (isSome_lastValue _ _).mpr (complete key member)
    rw [found] at set
    contradiction
  | some value =>
    obtain ⟨setting, last, rfl⟩ := Option.map_eq_some_iff.mp found
    have same : setting.1 = key := by simpa using List.find?_some last
    rw [← same]
    exact (sound setting (List.mem_reverse.mp (List.mem_of_find?_eq_some last))).symm

/-- The section `a` with the key `b` and the value `1` is writable. -/
theorem writable_of_entries (stored : entries d.slots =
    [⟨[97], none, dictionaryHash [97]⟩, ⟨[97, 58, 98], some [49], dictionaryHash [97, 58, 98]⟩]) :
    Writable d := by
  have sectionText : SectionText [97] :=
    ⟨by decide, by decide, List.forall_mem_singleton.mpr (by decide), by decide⟩
  have keyText : KeyText [98] := by
    refine ⟨by decide, by decide, by decide, List.forall_mem_singleton.mpr (by decide), ?_⟩
    rintro char ⟨⟩
    decide
  have valueText : ValueText [49] := by
    refine ⟨by decide, List.forall_mem_singleton.mpr (by decide), ?_, by decide⟩
    rintro char ⟨⟩
    decide
  constructor
  · rw [stored]
    intro entry member named
    simp only [List.mem_cons, List.not_mem_nil, or_false] at member
    rcases member with rfl | rfl
    · exact ⟨sectionText, rfl⟩
    · exact absurd named (by decide)
  · rw [keys, stored]
    intro entry member keyed
    simp only [List.mem_cons, List.not_mem_nil, or_false] at member
    rcases member with rfl | rfl
    · exact absurd (by decide) keyed
    · exact ⟨[97], [98], [49], rfl, by decide, List.mem_cons_self, keyText, rfl, valueText, by decide⟩

end Dictionary

end LibEvRpc
