import LibEvRpc.Config.IniParser

/-! # Reading a configuration

The functions that look into a dictionary with keys of any case, those that list and write its
sections, and `ConfigParser` over them. A read through a null value has no result. Numbers are read by
`strtol` with the base of their prefix.
-/

namespace LibEvRpc

open Scanf (isSpace)

/-! ## Numbers -/

/-- A digit of a base up to 16. -/
def digitValue (char : UInt8) : ℕ :=
  if 48 ≤ char ∧ char ≤ 57 then char.toNat - 48
  else if 97 ≤ char ∧ char ≤ 102 then char.toNat - 87
  else if 65 ≤ char ∧ char ≤ 70 then char.toNat - 55
  else 16

/-- The base `strtol` finds, and the digits behind its prefix. -/
def numberBase : Bytes → ℕ × Bytes
  | zero :: x :: digit :: rest =>
      if zero = Ascii.zero ∧ (x = 120 ∨ x = 88) ∧ digitValue digit < 16 then (16, digit :: rest)
      else if zero = Ascii.zero then (8, zero :: x :: digit :: rest)
      else (10, zero :: x :: digit :: rest)
  | zero :: rest => if zero = Ascii.zero then (8, zero :: rest) else (10, zero :: rest)
  | [] => (10, [])

/-- The number of the digits in front of the first other byte. -/
def readDigits (base : ℕ) (digits : Bytes) : ℕ :=
  (digits.takeWhile fun char => digitValue char < base).foldl
    (fun number char => number * base + digitValue char) 0

/-- `strtol` with base 0: a number outside the range of a `long` is its nearest one. -/
def strtol (str : Bytes) : Int64 :=
  let magnitude (str : Bytes) : ℕ := readDigits (numberBase str).1 (numberBase str).2
  match str.dropWhile isSpace with
  | [] => 0
  | sign :: rest =>
      if sign = 45 then Int64.ofInt (-(min (magnitude rest) (2 ^ 63) : ℕ))
      else if sign = 43 then Int64.ofInt (min (magnitude rest) (2 ^ 63 - 1) : ℕ)
      else Int64.ofInt (min (magnitude (sign :: rest)) (2 ^ 63 - 1) : ℕ)

namespace Dictionary

/-! ## Looking up -/

/-- `iniparser_getstring`, without the default for a key that is not found. -/
def getString (d : Dictionary) (key : Bytes) : Option (Option Bytes) := d.get (strlwc key)

def getInt (d : Dictionary) (key : Bytes) (notFound : Int32) : Option Int32 :=
  match d.getString key with
  | none => some notFound
  | some none => none
  | some (some str) => some (strtol str).toInt32

/-- The characters that say yes: `y`, `Y`, `1`, `t` and `T`. -/
def saysYes (char : UInt8) : Bool := char ∈ ([121, 89, 49, 116, 84] : List UInt8)

/-- The characters that say no: `n`, `N`, `0`, `f` and `F`. -/
def saysNo (char : UInt8) : Bool := char ∈ ([110, 78, 48, 102, 70] : List UInt8)

/-- `iniparser_getboolean`, whose default need not be a boolean. -/
def getBoolean (d : Dictionary) (key : Bytes) (notFound : Int32) : Option Int32 :=
  match d.getString key with
  | none => some notFound
  | some none => none
  | some (some str) =>
      let char := str.headD 0
      some (if saysYes char then 1 else if saysNo char then 0 else notFound)

def findEntry (d : Dictionary) (entry : Bytes) : Bool := (d.getString entry).isSome

/-! ## Sections -/

/-- A key without a colon is the name of a section. -/
def isSection (key : Bytes) : Bool := Ascii.colon ∉ key

def getNSec (d : Dictionary) : ℕ := d.keys.countP isSection

/-- The entries whose keys start with the name of a section and a colon. -/
def sectionEntries (d : Dictionary) (s : Bytes) : List DictionaryEntry :=
  (SlotTable.entries d.slots).filter fun entry => (s ++ [Ascii.colon]).isPrefixOf entry.key

def getSecNKeys (d : Dictionary) (s : Bytes) : ℕ :=
  if d.findEntry s then (d.sectionEntries s).length else 0

/-! ## Writing -/

/-- `%-30s` -/
def padded (text : Bytes) : Bytes := text ++ List.replicate (30 - text.length) 32

/-- `"%-30s = %s\n"`, with the part of a key behind the name of its section and the colon. -/
def dumpEntry (s : Bytes) (entry : DictionaryEntry) : Bytes :=
  padded (entry.key.drop (s.length + 1)) ++ [32, Ascii.equals, 32] ++ entry.val.getD [] ++
    [Ascii.newline]

def dumpSectionIni (d : Dictionary) (s : Bytes) : Bytes :=
  if d.findEntry s then
    [Ascii.newline, Ascii.openBracket] ++ s ++ [Ascii.closeBracket, Ascii.newline] ++
      (d.sectionEntries s).flatMap (dumpEntry s) ++ [Ascii.newline]
  else []

/-- `"%s = %s\n"`; the null pointer is written as `(null)`. -/
def dumpLine (entry : DictionaryEntry) : Bytes :=
  entry.key ++ [32, Ascii.equals, 32] ++ entry.val.getD [40, 110, 117, 108, 108, 41] ++
    [Ascii.newline]

def dumpIni (d : Dictionary) : Bytes :=
  if d.getNSec < 1 then (SlotTable.entries d.slots).flatMap dumpLine
  else (d.keys.filter isSection).flatMap d.dumpSectionIni ++ [Ascii.newline]

end Dictionary

/-! ## The parser of the program -/

/-- `ConfigParser`, whose dictionary is null if the file could not be loaded. -/
structure ConfigParser where
  dictIni : Option Dictionary
deriving DecidableEq

namespace ConfigParser

/-- `InitConfigParser` on the content of the file, if there is one. -/
def initConfigParser (iniFile : Option Bytes) : Option ConfigParser :=
  (iniparserLoad iniFile).map ConfigParser.mk

def getSecKeysNum (parser : ConfigParser) (secKey : Bytes) (defaultVal : Int32) : Int32 :=
  match parser.dictIni with
  | none => defaultVal
  | some d => Int32.ofNat (d.getSecNKeys secKey)

def iniGetInt (parser : ConfigParser) (secKey : Bytes) (defaultVal : Int32) : Option Int32 :=
  match parser.dictIni with
  | none => some defaultVal
  | some d => d.getInt secKey defaultVal

/-- `IniGetString`. Without a dictionary `iniparser_getstring` gives the default. -/
def iniGetString (parser : ConfigParser) (secKey : Bytes) (defaultVal : Option Bytes) : Option Bytes :=
  match parser.dictIni with
  | none => defaultVal
  | some d => (d.getString secKey).getD defaultVal

/-- `IniGetBool`. Without a dictionary `iniparser_getboolean` gives the default. -/
def iniGetBool (parser : ConfigParser) (secKey : Bytes) (defaultVal : Bool) : Option Bool :=
  match parser.dictIni with
  | none => some defaultVal
  | some d => (d.getBoolean secKey (if defaultVal then 1 else 0)).map fun value => value ≠ 0

end ConfigParser

end LibEvRpc
