import LibEvRpc.Config.Dictionary
import LibEvRpc.ToMathlib.Scanf
import Mathlib.Data.List.DropRight

/-! # Configuration files

`iniparser_load` reads a file line by line, joins a line that ends with a backslash with the next one,
and puts the sections and the keys of what it has read into a dictionary. A section is a key with the
null pointer as its value. A line is copied to the heap and scanned into buffers of the heap that are
as long as the text in front of its first equals sign, or behind it; what does not fit into its buffer
has no result, and neither has a read in front of a line. Allocations succeed.
-/

namespace LibEvRpc

open Scanf (isSpace Directive scan)

/-! ## Characters -/

namespace Ascii

abbrev newline : UInt8 := 10
abbrev quote : UInt8 := 34
abbrev hash : UInt8 := 35
abbrev apostrophe : UInt8 := 39
abbrev zero : UInt8 := 48
abbrev colon : UInt8 := 58
abbrev semicolon : UInt8 := 59
abbrev equals : UInt8 := 61
abbrev openBracket : UInt8 := 91
abbrev backslash : UInt8 := 92
abbrev closeBracket : UInt8 := 93

end Ascii

abbrev asciiLineSz : ℕ := 1024

/-- `tolower` in the C locale. -/
def tolower (char : UInt8) : UInt8 := if 65 ≤ char ∧ char ≤ 90 then char + 32 else char

def strlwc (s : Bytes) : Bytes := s.map tolower

def strstrip (s : Bytes) : Bytes := (s.dropWhile isSpace).rdropWhile isSpace

/-! ## A line -/

/-- `line_status`, with what is put out. -/
inductive LineStatus where
  | lineError
  | lineEmpty
  | lineComment
  | lineSection (name : Bytes)
  | lineValue (key value : Bytes)
deriving DecidableEq

/-- The text in front of the first equals sign, as a conversion. -/
def keySet (keySize : ℕ) : Directive := .scanset (· ≠ Ascii.equals) keySize

/-- `"%[^=] = \"%[^\"]\""` and `"%[^=] = '%[^\']'"` -/
def quotedFormat (mark : UInt8) (keySize valueSize : ℕ) : List Directive :=
  [keySet keySize, .space, .literal Ascii.equals, .space, .literal mark,
    .scanset (· ≠ mark) valueSize, .literal mark]

/-- `"%[^=] = %[^;#]"` -/
def plainFormat (keySize valueSize : ℕ) : List Directive :=
  [keySet keySize, .space, .literal Ascii.equals, .space,
    .scanset (fun char => char ≠ Ascii.semicolon ∧ char ≠ Ascii.hash) valueSize]

/-- `"%[^=] = %[;#]"` -/
def commentFormat (keySize valueSize : ℕ) : List Directive :=
  [keySet keySize, .space, .literal Ascii.equals, .space,
    .scanset (fun char => char = Ascii.semicolon ∨ char = Ascii.hash) valueSize]

/-- `"%[^=] %[=]"` -/
def bareFormat (keySize valueSize : ℕ) : List Directive :=
  [keySet keySize, .space, .scanset (· = Ascii.equals) valueSize]

/-- The key and the value of the first format for which `sscanf` returns 2. -/
def firstPair (line : Bytes) : List (List Directive) → Option (Option (Bytes × Bytes))
  | [] => some none
  | format :: formats =>
      (scan format line).bind fun fields =>
        match fields with
        | [key, value] => some (some (key, value))
        | _ => firstPair line formats

def emptyQuotes (value : Bytes) : Bytes :=
  if value = [Ascii.quote, Ascii.quote] ∨ value = [Ascii.apostrophe, Ascii.apostrophe] then []
  else value

/-- The part of `iniparser_line` for a line with an equals sign. -/
def valueLine (line : Bytes) (keySize valueSize : ℕ) : Option LineStatus :=
  (firstPair line [quotedFormat Ascii.quote keySize valueSize,
      quotedFormat Ascii.apostrophe keySize valueSize, plainFormat keySize valueSize]).bind fun
    | some (key, value) =>
        some (.lineValue (strlwc (strstrip key)) (emptyQuotes (strstrip value)))
    | none =>
        (firstPair line [commentFormat keySize valueSize, bareFormat keySize valueSize]).map fun
          | some (key, _) => .lineValue (strlwc (strstrip key)) []
          | none => .lineError

/-- The part of `iniparser_line` for a section. -/
def sectionLine (line : Bytes) (keySize : ℕ) : Option LineStatus :=
  (scan [.literal Ascii.openBracket, .scanset (· ≠ Ascii.closeBracket) keySize] line).map fun fields =>
    .lineSection (strlwc (strstrip (fields.headD [])))

def iniparserLine (lineSize : ℕ) (inputLine : Bytes) : Option LineStatus :=
  if inputLine.length < lineSize then
    let line := strstrip inputLine
    let len := line.length
    let equals := line.findIdx? (· = Ascii.equals)
    let keySize := match equals with
      | some position => position + 1
      | none => lineSize + 1
    if len < 1 then some .lineEmpty
    else if line.head? = some Ascii.hash ∨ line.head? = some Ascii.semicolon then some .lineComment
    else if line.head? = some Ascii.openBracket ∧ line.getLast? = some Ascii.closeBracket then
      sectionLine line keySize
    else
      match equals with
      | some position => valueLine line keySize (len - position + 1)
      | none => some .lineError
  else none

/-! ## A file -/

/-- `fgets` into an array of a size that is one larger: the line, the rest of the file, and whether the
end of the file was met. -/
def fgets : ℕ → Bytes → Bytes × Bytes × Bool
  | 0, file => ([], file, false)
  | _ + 1, [] => ([], [], true)
  | size + 1, char :: file =>
      if char = Ascii.newline then ([char], file, false)
      else
        let (line, rest, feof) := fgets size file
        (char :: line, rest, feof)

/-- The lines `fgets` reads until it returns null, with the mark for the end of the file. -/
def fileLines : ℕ → Bytes → List (Bytes × Bool)
  | 0, _ => []
  | fuel + 1, file =>
      match fgets (asciiLineSz - 1) file with
      | ([], _, _) => []
      | (line, rest, feof) => (line, feof) :: fileLines fuel rest

/-- The variables of `iniparser_load` behind a line. -/
structure Loading where
  dict : Dictionary
  currentSection : Bytes
  fullLine : Option Bytes
  errs : ℕ
deriving DecidableEq

namespace Loading

/-- What is done with a line that was read to its end. A key that is set forgets earlier errors. -/
def process (state : Loading) : LineStatus → Option Loading
  | .lineEmpty | .lineComment => some state
  | .lineSection name =>
      (state.dict.set name none).map fun dict =>
        { state with dict, currentSection := name, errs := 0 }
  | .lineValue key value =>
      (state.dict.set (state.currentSection ++ Ascii.colon :: key) (some value)).map fun dict =>
        { state with dict, errs := 0 }
  | .lineError => some { state with errs := state.errs + 1 }

/-- One turn of the loop of `iniparser_load`, with whether there is a next one. -/
def turn (state : Loading) (line : Bytes) (feof : Bool) : Option (Loading × Bool) :=
  let line := CString.ofBuffer line
  match line.length with
  | 0 => none
  | 1 => some (state, true)
  | _ =>
      if line.getLast? ≠ some Ascii.newline ∧ !feof then
        some ({ state with errs := state.errs + 1 }, false)
      else
        let line := line.rdropWhile isSpace
        let multiLine := line.getLast? = some Ascii.backslash
        let totalSize := (if line = [] then 1 else if multiLine then line.length - 1 else line.length) +
          (state.fullLine.getD []).length + 1
        let line := if multiLine then line.dropLast else line
        let fullLine := state.fullLine.getD [] ++ line
        if fullLine.length < totalSize then
          if multiLine then some ({ state with fullLine := some fullLine }, true)
          else
            (iniparserLine totalSize fullLine).bind fun status =>
              (state.process status).map fun state => ({ state with fullLine := none }, true)
        else none

def loop (state : Loading) : List (Bytes × Bool) → Option Loading
  | [] => some state
  | (line, feof) :: lines =>
      (state.turn line feof).bind fun (state, goesOn) =>
        if goesOn then loop state lines else some state

end Loading

/-- `iniparser_load` on the content of the file, if it can be opened. -/
def iniparserLoad : Option Bytes → Option (Option Dictionary)
  | none => some none
  | some file =>
      (Loading.loop ⟨.new 0, [], none, 0⟩ (fileLines file.length file)).map fun state =>
        if state.errs ≠ 0 then none else some state.dict

end LibEvRpc
