import LibEvRpc.ToMathlib.CodedStream
import LibEvRpc.ToMathlib.CString
import LibEvRpc.ToMathlib.LittleEndian
import Mathlib.Data.List.Nodup

/-! # Messages as sequences of tagged fields

A field is a tag, whose higher bits are the number of the field, and a payload: an integer, a string
behind its length, a message behind its length, or four bytes. A parser is a table of cases, one for
each number. `CaseTable.parse` reads a tag and takes its case, over and over; `CaseTable.run` looks
behind each field whether one of the tags follows that usually do, and then jumps to the case of it.
Both accept the same inputs with the same result. `Absorbs` says what bytes do to a message that is
being parsed, and that they are refused when they are cut off at their first zero byte; it composes.
-/

namespace TaggedFields

variable {M N : Type*} (stream : CodedStream)

/-- The number of a field, without the three bits for the kind of its payload. -/
def fieldNumber (tag : UInt32) : UInt32 := tag >>> 3

/-- One case of a parser: its tag, what it reads behind the tag, the tags it expects to follow, and
whether it looks for the end of the input. -/
structure FieldCase (M : Type*) where
  tag : UInt32
  body : M → List UInt8 → Option (M × List UInt8)
  expect : List UInt32
  atEnd : Bool
  length_body : ∀ {message input next rest},
    body message input = some (next, rest) → rest.length ≤ input.length

/-- Cases of different fields, each with a tag of one byte, that expect tags of one another. -/
structure CaseTable (M : Type*) where
  cases : List (FieldCase M)
  numbers : (cases.map fun field => fieldNumber field.tag).Nodup
  bounds : ∀ field ∈ cases, field.tag < 128
  positive : ∀ field ∈ cases, field.tag ≠ 0
  expected : ∀ field ∈ cases, ∀ tag ∈ field.expect, ∃ next ∈ cases, next.tag = tag

/-! ## Parsing -/

def readTag (input : List UInt8) : Option (UInt32 × List UInt8) :=
  (stream.read input).map fun (value, rest) => (value.toUInt32, rest)

/-- A field without a case. A zero tag and the end of a group end the parsing in front of the end of
the input. -/
def unusual (tag : UInt32) (rest : List UInt8) : Option (List UInt8) :=
  if tag = 0 ∨ tag &&& 7 = 4 then none else stream.skip tag rest

namespace CaseTable

/-- The case of a tag: that of its number, unless the tag is not the one of the case. -/
def switch (table : CaseTable M) (tag : UInt32) : Option (FieldCase M) :=
  if tag < 128 then
    (table.cases.find? fun field => fieldNumber field.tag = fieldNumber tag).filter fun field => field.tag = tag
  else none

/-- The case whose tag was expected and is there. -/
def jump (table : CaseTable M) (field : FieldCase M) :
    List UInt8 → Option (FieldCase M × List UInt8)
  | [] => none
  | byte :: rest =>
      (field.expect.find? fun tag => byte.toUInt32 = tag).bind fun tag =>
        (table.cases.find? fun next => next.tag = tag).map fun next => (next, rest)

/-- The parser with jumps, at the top of its loop or at the label of a case. -/
def run (table : CaseTable M) : ℕ → Option (FieldCase M) → M → List UInt8 → Option M
  | 0, _, _, _ => none
  | _ + 1, none, message, [] => some message
  | fuel + 1, none, message, byte :: input =>
      (readTag stream (byte :: input)).bind fun (tag, rest) =>
        match table.switch tag with
        | some field => run table fuel (some field) message rest
        | none => (unusual stream tag rest).bind fun rest => run table fuel none message rest
  | fuel + 1, some field, message, input =>
      (field.body message input).bind fun (message, rest) =>
        match table.jump field rest with
        | some (next, rest) => run table fuel (some next) message rest
        | none =>
            if field.atEnd ∧ rest = [] then some message else run table fuel none message rest

/-- The parser with jumps on an input. Every field takes two of its steps at most. -/
def mergeFromCodedStream (table : CaseTable M) (message : M) (input : List UInt8) : Option M :=
  table.run stream (2 * input.length + 1) none message input

/-- The loop of the parser without jumps. -/
def loop (table : CaseTable M) : ℕ → M → List UInt8 → Option M
  | _, message, [] => some message
  | 0, _, _ :: _ => none
  | fuel + 1, message, byte :: input =>
      (readTag stream (byte :: input)).bind fun (tag, rest) =>
        match table.switch tag with
        | some field =>
            (field.body message rest).bind fun (message, rest) => loop table fuel message rest
        | none => (unusual stream tag rest).bind fun rest => loop table fuel message rest

/-- The parser without jumps. -/
def parse (table : CaseTable M) (message : M) (input : List UInt8) : Option M :=
  table.loop stream input.length message input

end CaseTable

/-! ## The cases -/

namespace FieldCase

def uint (tag : UInt32) (set : M → UInt64 → M) (expect : List UInt32) (atEnd : Bool) :
    FieldCase M where
  tag
  body message input := (stream.read input).map fun (value, rest) => (set message value, rest)
  expect
  atEnd
  length_body := by
    intro message input next rest success
    obtain ⟨⟨value, left⟩, read, same⟩ := Option.map_eq_some_iff.mp success
    cases same
    exact Nat.le_of_lt (stream.length_read read)

/-- A string, whose bytes must all be there. -/
def bytes (tag : UInt32) (set : M → List UInt8 → M) (expect : List UInt32) (atEnd : Bool) :
    FieldCase M where
  tag
  body message input :=
    (stream.read input).bind fun (value, rest) =>
      let length := value.toUInt32.toNat
      if length < 2 ^ 31 ∧ length ≤ rest.length then
        some (set message (rest.take length), rest.drop length)
      else none
  expect
  atEnd
  length_body := by
    intro message input next rest success
    obtain ⟨⟨value, left⟩, read, checked⟩ := Option.bind_eq_some_iff.mp success
    obtain ⟨_, same⟩ := Option.ite_none_right_eq_some.mp checked
    cases same
    rw [List.length_drop]
    exact Nat.le_trans (Nat.sub_le _ _) (Nat.le_of_lt (stream.length_read read))

/-- A message, on the part of the input that its length gives. -/
def nested (tag : UInt32) (parse : List UInt8 → Option N) (add : M → N → M) (expect : List UInt32)
    (atEnd : Bool) : FieldCase M where
  tag
  body message input :=
    (stream.read input).bind fun (value, rest) =>
      let length := value.toUInt32.toNat
      (parse (rest.take length)).map fun inner => (add message inner, rest.drop length)
  expect
  atEnd
  length_body := by
    intro message input next rest success
    obtain ⟨⟨value, left⟩, read, parsed⟩ := Option.bind_eq_some_iff.mp success
    obtain ⟨inner, _, same⟩ := Option.map_eq_some_iff.mp parsed
    cases same
    rw [List.length_drop]
    exact Nat.le_trans (Nat.sub_le _ _) (Nat.le_of_lt (stream.length_read read))

def fixed32 (tag : UInt32) (set : M → Int32 → M) (expect : List UInt32) (atEnd : Bool) :
    FieldCase M where
  tag
  body message input :=
    if 4 ≤ input.length then some (set message (LittleEndian.decode input), input.drop 4) else none
  expect
  atEnd
  length_body := by
    intro message input next rest success
    obtain ⟨_, same⟩ := Option.ite_none_right_eq_some.mp success
    cases same
    rw [List.length_drop]
    exact Nat.sub_le _ _

end FieldCase

/-! ## The fields -/

def writeUint (tag : UInt32) (value : UInt64) : List UInt8 :=
  stream.write tag.toUInt64 ++ stream.write value

def writeBytes (tag : UInt32) (length : ℕ) (content : List UInt8) : List UInt8 :=
  stream.write tag.toUInt64 ++ stream.write (UInt64.ofNat length) ++ content

def writeFixed32 (tag : UInt32) (value : Int32) : List UInt8 :=
  stream.write tag.toUInt64 ++ LittleEndian.encode value

/-! ## Reading a tag -/

variable {stream}

theorem readTag_shorter {input rest : List UInt8} {tag : UInt32}
    (success : readTag stream input = some (tag, rest)) : rest.length < input.length := by
  obtain ⟨⟨value, left⟩, read, same⟩ := Option.map_eq_some_iff.mp success
  cases same
  exact stream.length_read read

theorem unusual_shorter {tag : UInt32} {rest left : List UInt8}
    (success : unusual stream tag rest = some left) : left.length ≤ rest.length :=
  stream.length_skip (Option.ite_none_left_eq_some.mp success).2

theorem toUInt32_lt {tag : UInt32} (small : tag < 128) : tag.toUInt64 < 128 := by
  rw [UInt64.lt_iff_toNat_lt, UInt32.toNat_toUInt64]
  exact UInt32.lt_iff_toNat_lt.mp small

/-- A small tag takes one byte. -/
theorem write_tag {tag : UInt32} (small : tag < 128) : stream.write tag.toUInt64 = [tag.toUInt8] := by
  rw [stream.write_of_lt _ (toUInt32_lt small)]
  rfl

theorem readTag_write {tag : UInt32} (rest : List UInt8) :
    readTag stream (stream.write tag.toUInt64 ++ rest) = some (tag, rest) := by
  rw [readTag, stream.read_write, Option.map_some]
  simp

theorem readTag_cons {tag : UInt32} (small : tag < 128) (rest : List UInt8) :
    readTag stream (tag.toUInt8 :: rest) = some (tag, rest) := by
  rw [← @readTag_write stream _ rest, write_tag small]
  rfl

namespace CaseTable

variable {table : CaseTable M}

/-! ## The case of a tag -/

/-- A case is found by a test that only it meets. -/
private theorem find?_eq_of_unique {α : Type*} {test : α → Bool} {items : List α} {item : α}
    (member : item ∈ items) (meets : test item) (unique : ∀ other ∈ items, test other → other = item) :
    items.find? test = some item := by
  cases found : items.find? test with
  | none => exact absurd meets (List.find?_eq_none.mp found item member)
  | some other =>
    rw [unique other (List.mem_of_find?_eq_some found) (List.find?_some found)]

theorem switch_of_mem {field : FieldCase M} (member : field ∈ table.cases) :
    table.switch field.tag = some field := by
  have found : table.cases.find? (fun other => fieldNumber other.tag = fieldNumber field.tag) =
      some field := by
    apply find?_eq_of_unique member (decide_eq_true rfl)
    intro other present same
    exact List.inj_on_of_nodup_map table.numbers present member (of_decide_eq_true same)
  rw [switch, if_pos (table.bounds field member), found]
  exact Option.filter_some_pos (decide_eq_true rfl)

theorem mem_of_switch {tag : UInt32} {field : FieldCase M} (found : table.switch tag = some field) :
    field ∈ table.cases := by
  obtain ⟨_, found⟩ := Option.ite_none_right_eq_some.mp found
  obtain ⟨found, _⟩ := Option.filter_eq_some_iff.mp found
  exact List.mem_of_find?_eq_some found

/-- A jump is to the case of the tag in front of the input. -/
theorem jump_eq_some {field next : FieldCase M} {input rest : List UInt8}
    (found : table.jump field input = some (next, rest)) :
    next ∈ table.cases ∧ input = next.tag.toUInt8 :: rest := by
  cases input with
  | nil => contradiction
  | cons byte input =>
    obtain ⟨tag, expected, found⟩ := Option.bind_eq_some_iff.mp found
    obtain ⟨other, labelled, same⟩ := Option.map_eq_some_iff.mp found
    cases same
    have byteTag : byte.toUInt32 = tag := by simpa using List.find?_some expected
    have nextTag : next.tag = tag := by simpa using List.find?_some labelled
    refine ⟨List.mem_of_find?_eq_some labelled, ?_⟩
    rw [nextTag, ← byteTag]
    simp

/-! ## Parsing without a bound -/

private theorem loop_eq_loop {fuel more : ℕ} {message : M} {input : List UInt8}
    (enough : input.length ≤ fuel) (other : input.length ≤ more) :
    table.loop stream fuel message input = table.loop stream more message input := by
  induction fuel generalizing more message input with
  | zero =>
    obtain rfl : input = [] := List.length_eq_zero_iff.mp (Nat.le_zero.mp enough)
    rw [loop, loop]
  | succ fuel ih =>
    cases input with
    | nil => rw [loop, loop]
    | cons byte input =>
      cases more with
      | zero => exact absurd other (Nat.not_succ_le_zero _)
      | succ more =>
        rw [loop, loop]
        apply Option.bind_congr
        rintro ⟨tag, rest⟩ read
        have shorter := readTag_shorter read
        rw [List.length_cons] at shorter enough other
        dsimp only
        split
        · next field _ =>
          apply Option.bind_congr
          rintro ⟨next, left⟩ success
          have smaller := field.length_body success
          dsimp only
          exact ih (by omega) (by omega)
        · apply Option.bind_congr
          intro left success
          have smaller := unusual_shorter success
          exact ih (by omega) (by omega)

@[simp] theorem parse_nil (message : M) : table.parse stream message [] = some message := by
  rw [parse, loop]

/-- Parsing takes one field after the other. -/
theorem parse_of_ne_nil {input : List UInt8} (more : input ≠ []) (message : M) :
    table.parse stream message input =
      (readTag stream input).bind fun (tag, rest) =>
        match table.switch tag with
        | some field => (field.body message rest).bind fun (message, rest) =>
            table.parse stream message rest
        | none => (unusual stream tag rest).bind fun rest => table.parse stream message rest := by
  obtain ⟨byte, input, rfl⟩ := List.exists_cons_of_ne_nil more
  rw [parse, List.length_cons, loop]
  apply Option.bind_congr
  rintro ⟨tag, rest⟩ read
  have shorter := readTag_shorter read
  rw [List.length_cons] at shorter
  dsimp only
  split
  · next field _ =>
    apply Option.bind_congr
    rintro ⟨next, left⟩ success
    have smaller := field.length_body success
    dsimp only
    exact loop_eq_loop (by omega) (by omega)
  · apply Option.bind_congr
    intro left success
    have smaller := unusual_shorter success
    exact loop_eq_loop (by omega) (by omega)

/-- The field of a case is read by its body. -/
theorem parse_tag {field : FieldCase M} (member : field ∈ table.cases) (message : M)
    (rest : List UInt8) :
    table.parse stream message (field.tag.toUInt8 :: rest) =
      (field.body message rest).bind fun (message, rest) => table.parse stream message rest := by
  rw [parse_of_ne_nil (List.cons_ne_nil _ _), readTag_cons (table.bounds field member)]
  simp only [Option.bind_some, switch_of_mem member]

/-! ## Jumps -/

/-- With enough steps the parser with jumps does what the one without them does. -/
private theorem run_eq (fuel : ℕ) :
    (∀ message input, 2 * input.length + 1 ≤ fuel →
      table.run stream fuel none message input = table.parse stream message input) ∧
    ∀ field ∈ table.cases, ∀ message input, 2 * input.length + 2 ≤ fuel →
      table.run stream fuel (some field) message input =
        (field.body message input).bind fun (message, rest) => table.parse stream message rest := by
  induction fuel with
  | zero => exact ⟨fun _ _ enough => absurd enough (by omega), fun _ _ _ _ enough => absurd enough (by omega)⟩
  | succ fuel ih =>
    obtain ⟨top, label⟩ := ih
    constructor
    · intro message input enough
      cases input with
      | nil => rw [run, parse_nil]
      | cons byte input =>
        rw [run, parse_of_ne_nil (List.cons_ne_nil _ _)]
        apply Option.bind_congr
        rintro ⟨tag, rest⟩ read
        have shorter := readTag_shorter read
        rw [List.length_cons] at shorter enough
        dsimp only
        split
        · next field found => exact label field (mem_of_switch found) message rest (by omega)
        · apply Option.bind_congr
          intro left success
          have smaller := unusual_shorter success
          exact top message left (by omega)
    · intro field member message input enough
      rw [run]
      apply Option.bind_congr
      rintro ⟨after, rest⟩ success
      have smaller := field.length_body success
      dsimp only
      split
      · next next left found =>
        -- the tag that was expected is the one the loop would read
        obtain ⟨listed, rfl⟩ := jump_eq_some found
        rw [List.length_cons] at smaller
        rw [parse_tag listed]
        exact label next listed after left (by omega)
      · split
        · next ending => rw [ending.2, parse_nil]
        · exact top after rest (by omega)

/-- The parser with jumps accepts what the one without them accepts, with the same result. -/
theorem mergeFromCodedStream_eq_parse (message : M) (input : List UInt8) :
    table.mergeFromCodedStream stream message input = table.parse stream message input :=
  (run_eq _).1 message input le_rfl

end CaseTable

private theorem zero_notMem_tag {tag : UInt32} (positive : tag ≠ 0) :
    0 ∉ stream.write tag.toUInt64 := by
  apply stream.zero_notMem_write
  intro zero
  apply positive
  apply UInt32.toNat_inj.mp
  rw [← UInt32.toNat_toUInt64, zero]
  rfl

/-! ## What bytes do to a message -/

/-- Some bytes change the message that is parsed in a way that does not depend on what follows, and
are refused if they end at their first zero byte. -/
structure Absorbs (stream : CodedStream) (table : CaseTable M) (bytes : List UInt8)
    (effect : M → M) : Prop where
  parse_append : ∀ message rest,
    table.parse stream message (bytes ++ rest) = table.parse stream (effect message) rest
  refused : 0 ∈ bytes → ∀ message, table.parse stream message (CString.ofBuffer bytes) = none

variable {table : CaseTable M}

theorem Absorbs.parse {bytes : List UInt8} {effect : M → M}
    (absorbs : Absorbs stream table bytes effect) (message : M) :
    table.parse stream message bytes = some (effect message) := by
  have all := absorbs.parse_append message []
  rwa [List.append_nil, CaseTable.parse_nil] at all

theorem absorbs_nil : Absorbs stream table [] id :=
  ⟨fun _ _ => rfl, fun member => absurd member List.not_mem_nil⟩

theorem Absorbs.congr {bytes : List UInt8} {effect other : M → M}
    (absorbs : Absorbs stream table bytes effect) (same : ∀ message, effect message = other message) :
    Absorbs stream table bytes other := by
  rwa [← funext same]

theorem Absorbs.append {first second : List UInt8} {change next : M → M}
    (one : Absorbs stream table first change) (other : Absorbs stream table second next) :
    Absorbs stream table (first ++ second) (next ∘ change) := by
  constructor
  · intro message rest
    rw [List.append_assoc, one.parse_append, other.parse_append]
    rfl
  · intro member message
    by_cases cut : 0 ∈ first
    · obtain ⟨before, after, rfl⟩ := List.append_of_mem cut
      rw [List.append_assoc, List.cons_append, CString.ofBuffer_append_zero,
        ← CString.ofBuffer_append_zero before after]
      exact one.refused cut message
    · rw [CString.ofBuffer_append cut, one.parse_append]
      exact other.refused ((List.mem_append.mp member).resolve_left cut) _

/-- A field that may be absent. -/
theorem absorbs_option {α : Type*} {write : α → List UInt8} {set : M → α → M} (value : Option α)
    (absorbs : ∀ present, value = some present →
      Absorbs stream table (write present) fun message => set message present) :
    Absorbs stream table (value.elim [] write) fun message => value.elim message (set message) := by
  cases value with
  | none => exact absorbs_nil
  | some present => exact absorbs present rfl

/-- A repeated field. -/
theorem absorbs_list {α : Type*} {write : α → List UInt8} {add : M → α → M} {values : List α}
    (absorbs : ∀ value ∈ values,
      Absorbs stream table (write value) fun message => add message value) :
    Absorbs stream table (values.flatMap write) fun message => values.foldl add message := by
  induction values with
  | nil => exact absorbs_nil
  | cons value values ih =>
    rw [List.flatMap_cons]
    exact (absorbs value List.mem_cons_self).append
      (ih fun later member => absorbs later (List.mem_cons_of_mem _ member))

/-- A field is absorbed when the body of its case takes it, and takes no part of it that ends at a
zero byte. -/
theorem absorbs_field {field : FieldCase M} (member : field ∈ table.cases) {payload : List UInt8}
    {effect : M → M}
    (read : ∀ message rest, field.body message (payload ++ rest) = some (effect message, rest))
    (refused : 0 ∈ payload → ∀ message, field.body message (CString.ofBuffer payload) = none) :
    Absorbs stream table (stream.write field.tag.toUInt64 ++ payload) effect := by
  have small := table.bounds field member
  have clean := @zero_notMem_tag stream _ (table.positive field member)
  constructor
  · intro message rest
    rw [write_tag small, List.singleton_append, List.cons_append, CaseTable.parse_tag member, read]
    rfl
  · intro cut message
    rw [CString.ofBuffer_append clean, write_tag small, List.singleton_append,
      CaseTable.parse_tag member,
      refused ((List.mem_append.mp cut).resolve_left clean) message, Option.bind_none]

theorem absorbs_uint {tag : UInt32} {set : M → UInt64 → M} {expect : List UInt32} {atEnd : Bool}
    (member : FieldCase.uint stream tag set expect atEnd ∈ table.cases) (value : UInt64) :
    Absorbs stream table (writeUint stream tag value) fun message => set message value := by
  apply absorbs_field member
  · intro message rest
    simp only [FieldCase.uint, stream.read_write, Option.map_some]
  · intro cut message
    obtain rfl := (stream.zero_mem_write_iff value).mp cut
    rw [stream.write_zero]
    simp only [FieldCase.uint, CString.ofBuffer, List.takeWhile, bne_self_eq_false, stream.read_nil,
      Option.map_none]

private theorem toUInt32_toNat {length : ℕ} (bound : length < 2 ^ 31) :
    (UInt64.ofNat length).toUInt32.toNat = length := by
  rw [UInt64.toNat_toUInt32, UInt64.toNat_ofNat']
  omega

private theorem ofNat_eq_zero_iff {length : ℕ} (bound : length < 2 ^ 31) :
    UInt64.ofNat length = 0 ↔ length = 0 := by
  rw [← UInt64.toNat_inj, UInt64.toNat_ofNat', UInt64.toNat_zero]
  omega

/-- A length and a content end at a zero byte without a content or inside it. -/
private theorem ofBuffer_length_content {content : List UInt8} (bound : content.length < 2 ^ 31)
    (cut : 0 ∈ stream.write (UInt64.ofNat content.length) ++ content) :
    CString.ofBuffer (stream.write (UInt64.ofNat content.length) ++ content) = [] ∨
      0 ∈ content ∧ CString.ofBuffer (stream.write (UInt64.ofNat content.length) ++ content) =
        stream.write (UInt64.ofNat content.length) ++ CString.ofBuffer content := by
  by_cases empty : content.length = 0
  · left
    rw [empty]
    change CString.ofBuffer (stream.write 0 ++ content) = []
    rw [stream.write_zero]
    rfl
  · right
    have clean := stream.zero_notMem_write _ ((ofNat_eq_zero_iff bound).not.mpr empty)
    exact ⟨(List.mem_append.mp cut).resolve_left clean, CString.ofBuffer_append clean _⟩

theorem absorbs_bytes {tag : UInt32} {set : M → List UInt8 → M} {expect : List UInt32} {atEnd : Bool}
    (member : FieldCase.bytes stream tag set expect atEnd ∈ table.cases) {content : List UInt8}
    (bound : content.length < 2 ^ 31) :
    Absorbs stream table (writeBytes stream tag content.length content)
      fun message => set message content := by
  rw [writeBytes, List.append_assoc]
  apply absorbs_field member
  · intro message rest
    rw [List.append_assoc]
    simp only [FieldCase.bytes, stream.read_write, Option.bind_some, toUInt32_toNat bound,
      List.length_append, Nat.le_add_right, bound, and_self, ↓reduceIte, List.take_left,
      List.drop_left]
  · intro cut message
    rcases ofBuffer_length_content bound cut with empty | ⟨inside, shorter⟩
    · simp only [empty, FieldCase.bytes, stream.read_nil, Option.bind_none]
    · have missing := CString.ofBuffer_length_lt inside
      simp only [shorter, FieldCase.bytes, stream.read_write, Option.bind_some,
        toUInt32_toNat bound, not_le.mpr missing, and_false, ↓reduceIte]

theorem absorbs_nested {tag : UInt32} {parse : List UInt8 → Option N} {add : M → N → M}
    {expect : List UInt32} {atEnd : Bool}
    (member : FieldCase.nested stream tag parse add expect atEnd ∈ table.cases)
    {content : List UInt8} {inner : N} (bound : content.length < 2 ^ 31)
    (parsed : parse content = some inner)
    (refused : 0 ∈ content → parse (CString.ofBuffer content) = none) :
    Absorbs stream table (writeBytes stream tag content.length content)
      fun message => add message inner := by
  rw [writeBytes, List.append_assoc]
  apply absorbs_field member
  · intro message rest
    rw [List.append_assoc]
    simp only [FieldCase.nested, stream.read_write, Option.bind_some, toUInt32_toNat bound,
      List.take_left, parsed, Option.map_some, List.drop_left]
  · intro cut message
    rcases ofBuffer_length_content bound cut with empty | ⟨inside, shorter⟩
    · simp only [empty, FieldCase.nested, stream.read_nil, Option.bind_none]
    · have missing := CString.ofBuffer_length_lt inside
      simp only [shorter, FieldCase.nested, stream.read_write, Option.bind_some,
        toUInt32_toNat bound, List.take_of_length_le missing.le, refused inside, Option.map_none]

theorem absorbs_fixed32 {tag : UInt32} {set : M → Int32 → M} {expect : List UInt32} {atEnd : Bool}
    (member : FieldCase.fixed32 tag set expect atEnd ∈ table.cases) (value : Int32) :
    Absorbs stream table (writeFixed32 stream tag value) fun message => set message value := by
  apply absorbs_field member
  · intro message rest
    simp only [FieldCase.fixed32, List.length_append, LittleEndian.encode_length, Nat.le_add_right,
      ↓reduceIte, LittleEndian.decode_encode_append, List.drop_left' (LittleEndian.encode_length _)]
  · intro cut message
    have missing := CString.ofBuffer_length_lt cut
    rw [LittleEndian.encode_length] at missing
    simp only [FieldCase.fixed32, not_le.mpr missing, ↓reduceIte]

/-! ## Sizes and zero bytes of fields -/

theorem length_writeUint {tag : UInt32} (small : tag < 128) (value : UInt64) :
    (writeUint stream tag value).length = 1 + stream.size value := by
  rw [writeUint, write_tag small, List.length_append, stream.length_write, List.length_singleton]

theorem length_writeBytes {tag : UInt32} (small : tag < 128) (length : ℕ) (content : List UInt8) :
    (writeBytes stream tag length content).length =
      1 + (stream.size (UInt64.ofNat length) + content.length) := by
  rw [writeBytes, write_tag small, List.length_append, List.length_append, stream.length_write,
    List.length_singleton, Nat.add_assoc]

theorem length_writeFixed32 {tag : UInt32} (small : tag < 128) (value : Int32) :
    (writeFixed32 stream tag value).length = 1 + 4 := by
  rw [writeFixed32, write_tag small, List.length_append, List.length_singleton,
    LittleEndian.encode_length]

/-- Only zero is written with a zero byte. -/
theorem zero_mem_writeUint {tag : UInt32} (positive : tag ≠ 0) (value : UInt64) :
    0 ∈ writeUint stream tag value ↔ value = 0 := by
  rw [writeUint, List.mem_append, or_iff_right (zero_notMem_tag positive), stream.zero_mem_write_iff]

/-- Of a content the empty one is written with a zero byte, and one that has a zero byte. -/
theorem zero_mem_writeBytes {tag : UInt32} (positive : tag ≠ 0) {content : List UInt8}
    (bound : content.length < 2 ^ 31) :
    0 ∈ writeBytes stream tag content.length content ↔ content = [] ∨ 0 ∈ content := by
  rw [writeBytes, List.append_assoc, List.mem_append, or_iff_right (zero_notMem_tag positive),
    List.mem_append, stream.zero_mem_write_iff, ofNat_eq_zero_iff bound, List.length_eq_zero_iff]

theorem zero_mem_writeFixed32 {tag : UInt32} (positive : tag ≠ 0) (value : Int32) :
    0 ∈ writeFixed32 stream tag value ↔ 0 ∈ LittleEndian.encode value := by
  rw [writeFixed32, List.mem_append, or_iff_right (zero_notMem_tag positive)]

end TaggedFields
