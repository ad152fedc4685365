import LibEvRpc.ToMathlib.SlotTable
import LibEvRpc.Util.Communication

/-! # The dictionary of a configuration

A dictionary is an array of slots for keys, values and hashes, searched from its front; a slot is free
when its key is the null pointer. It is doubled when it is full. A key of the dictionary can have the
null pointer as its value. Strings are C strings without their terminator, and allocations succeed.
-/

namespace LibEvRpc

abbrev dictMinSz : ℕ := 128

/-- A slot that is taken: `key[i]`, `val[i]` and `hash[i]`. -/
structure DictionaryEntry where
  key : Bytes
  val : Option Bytes
  hash : UInt32
deriving DecidableEq

/-- `dictionary`, with `size` as the number of its slots. -/
structure Dictionary where
  n : ℕ
  slots : List (Option DictionaryEntry)
deriving DecidableEq

/-- One character of the loop of `dictionary_hash`. -/
def dictionaryHashStep (hash : UInt32) (char : UInt8) : UInt32 :=
  let hash := hash + char.toInt8.toInt32.toUInt32
  let hash := hash + hash <<< 10
  hash ^^^ hash >>> 6

def dictionaryHash (key : Bytes) : UInt32 :=
  let hash := key.foldl dictionaryHashStep 0
  let hash := hash + hash <<< 3
  let hash := hash ^^^ hash >>> 11
  hash + hash <<< 15

namespace Dictionary

def new (size : ℕ) : Dictionary where
  n := 0
  slots := List.replicate (if size < dictMinSz then dictMinSz else size) none

def size (d : Dictionary) : ℕ := d.slots.length

/-- The search for a key in all slots: the hashes are compared first. -/
def find (d : Dictionary) (key : Bytes) : Option ℕ :=
  let hash := dictionaryHash key
  d.slots.findIdx? fun slot => slot.any fun entry => hash = entry.hash && key = entry.key

/-- `dictionary_get`, without the default for a key that is not found. -/
def get (d : Dictionary) (key : Bytes) : Option (Option Bytes) :=
  (d.find key).bind fun i => d.slots[i]?.join.map DictionaryEntry.val

/-- `mem_double` of the three arrays. -/
def memDouble (d : Dictionary) : Dictionary :=
  { d with slots := d.slots ++ List.replicate d.size none }

/-- The part of `dictionary_set` that adds a key. It has no result when the loop finds no free slot. -/
def add (d : Dictionary) (key : Bytes) (val : Option Bytes) : Option Dictionary :=
  let d := if d.n = d.size then d.memDouble else d
  (SlotTable.firstFree d.slots d.size d.n).map fun i =>
    { n := d.n + 1, slots := d.slots.set i (some ⟨key, val, dictionaryHash key⟩) }

def set (d : Dictionary) (key : Bytes) (val : Option Bytes) : Option Dictionary :=
  match if d.n > 0 then d.find key else none with
  | some i => some { d with slots := d.slots.modify i (Option.map fun entry => { entry with val }) }
  | none => d.add key val

def unset (d : Dictionary) (key : Bytes) : Dictionary :=
  match d.find key with
  | none => d
  | some i => { n := d.n - 1, slots := d.slots.set i none }

/-- The keys in the order of their slots. -/
def keys (d : Dictionary) : List Bytes := (SlotTable.entries d.slots).map DictionaryEntry.key

inductive Operation where
  | set (key : Bytes) (val : Option Bytes)
  | unset (key : Bytes)

def step (d : Dictionary) : Operation → Option Dictionary
  | .set key val => d.set key val
  | .unset key => some (d.unset key)

/-! ## What a dictionary is for -/

/-- The value of every key that is there, which may be null. -/
abbrev Contents := Bytes → Option (Option Bytes)

def Operation.apply (contents : Contents) : Operation → Contents
  | .set key val => Function.update contents key (some val)
  | .unset key => Function.update contents key none

end Dictionary

end LibEvRpc
