import EndstoneExchange.SelfDelimitingReaders
import Mathlib.Data.List.Lex

/-!
# The NBT codec

Complete item NBT is stored as bytes: a header, then a tag as its type and payload,
with little-endian integers and counted strings, arrays, lists and compounds.
-/
namespace EndstoneExchange.NbtCodec
open SelfDelimitingReaders

abbrev Bytes := List UInt8

inductive TagType where
  | empty | byte | short | int | long | float | double | string | byteArray | intArray | list
  | compound
  deriving DecidableEq, Repr

def TagType.all : List TagType :=
  [empty, byte, short, int, long, float, double, string, byteArray, intArray, list, compound]

theorem TagType.mem_all (type : TagType) : type ∈ TagType.all := by
  cases type <;> decide

/-- The server's NBT header numbers the tag types. The codec writes and switches on the numbers. -/
structure TypeCodes where
  code : TagType → UInt8
  injective : Function.Injective code

def TypeCodes.typeOf (types : TypeCodes) (raw : UInt8) : Option TagType :=
  TagType.all.find? (types.code · = raw)

@[simp]
theorem TypeCodes.typeOf_code (types : TypeCodes) (type : TagType) :
    types.typeOf (types.code type) = some type := by
  cases h : types.typeOf (types.code type) with
  | none =>
    have := List.find?_eq_none.mp h type type.mem_all
    simp at this
  | some type' =>
    have := List.find?_some h
    rw [types.injective (of_decide_eq_true this)]

/-- Floating values are their bits. A compound lists its entries in the order of its keys. -/
inductive Tag where
  | empty
  | byte (value : UInt8)
  | short (value : Int16)
  | int (value : Int32)
  | long (value : Int64)
  | float (bits : UInt32)
  | double (bits : UInt64)
  | string (value : Bytes)
  | byteArray (value : Bytes)
  | intArray (value : List Int32)
  | list (value : List Tag)
  | compound (value : List (Bytes × Tag))

abbrev Entries := List (Bytes × Tag)

def Tag.type : Tag → TagType
  | empty => .empty
  | byte _ => .byte
  | short _ => .short
  | int _ => .int
  | long _ => .long
  | float _ => .float
  | double _ => .double
  | string _ => .string
  | byteArray _ => .byteArray
  | intArray _ => .intArray
  | list _ => .list
  | compound _ => .compound

section Everywhere
variable (p : Tag → Prop)

mutual

/-- A property of a tag and of every tag nested in it. -/
def Tag.Everywhere : Tag → Prop
  | .list value => p (.list value) ∧ EverywhereList value
  | .compound value => p (.compound value) ∧ EverywhereEntries value
  | tag => p tag

def EverywhereList : List Tag → Prop
  | [] => True
  | item :: items => item.Everywhere ∧ EverywhereList items

def EverywhereEntries : List (Bytes × Tag) → Prop
  | [] => True
  | entry :: entries => entry.2.Everywhere ∧ EverywhereEntries entries

end
end Everywhere

def Sorted (entries : Entries) : Prop := entries.Pairwise fun e e' => e.1 < e'.1

def Tag.Keyed : Tag → Prop
  | .compound value => Sorted value
  | _ => True

def limit : ℕ := 16 * 1024 * 1024

def Tag.Within : Tag → Prop
  | .string value => value.length ≤ limit
  | .byteArray value => value.length ≤ limit
  | .intArray value => value.length ≤ limit
  | .list value => value.length ≤ limit
  | .compound value => value.length ≤ limit ∧ ∀ e ∈ value, e.1.length ≤ limit
  | _ => True

@[ext]
structure CompoundTag where
  entries : Entries
  keyed : (Tag.compound entries).Everywhere Tag.Keyed

def CompoundTag.Within (tag : CompoundTag) : Prop :=
  (Tag.compound tag.entries).Everywhere Tag.Within

inductive CodecError where
  | runtime (what : String)
  | outOfFuel
  deriving DecidableEq, Repr

def tooLargeString : CodecError := .runtime "NBT string is too large"
def truncated : CodecError := .runtime "truncated encoded NBT"
def unknownType : CodecError := .runtime "unknown encoded NBT type"
def tooLarge : CodecError := .runtime "encoded NBT container is too large"
def invalidHeader : CodecError := .runtime "invalid encoded NBT header"
def invalidRoot : CodecError := .runtime "invalid encoded NBT root"

namespace Writer

/-- The low `size` bytes of `raw`, the lowest first. -/
def integral : ℕ → ℕ → Bytes
  | 0, _ => []
  | size + 1, raw => UInt8.ofNat raw :: integral size (raw / 256)

def string (value : Bytes) : Except CodecError Bytes :=
  if value.length > 2 ^ 32 - 1 then throw tooLargeString
  else return integral 4 value.length ++ value

variable (types : TypeCodes)

def typed (tag : Tag) (payload : Bytes) : Bytes :=
  integral 1 (types.code tag.type).toNat ++ payload

mutual

def payload : Tag → Except CodecError Bytes
  | .empty => return []
  | .byte value => return integral 1 value.toNat
  | .short value => return integral 2 value.toUInt16.toNat
  | .int value => return integral 4 value.toUInt32.toNat
  | .long value => return integral 8 value.toUInt64.toNat
  | .float bits => return integral 4 bits.toNat
  | .double bits => return integral 8 bits.toNat
  | .string value => string value
  | .byteArray value => return integral 4 value.length ++ value
  | .intArray value =>
    return integral 4 value.length ++ value.flatMap fun item => integral 4 item.toUInt32.toNat
  | .list value => do
    let written ← items value
    return integral 4 value.length ++ written
  | .compound value => do
    let written ← entries value
    return integral 4 value.length ++ written

def items : List Tag → Except CodecError Bytes
  | [] => return []
  | item :: rest => do
    let first ← payload item
    let others ← items rest
    return typed types item first ++ others

def entries : List (Bytes × Tag) → Except CodecError Bytes
  | [] => return []
  | (key, item) :: rest => do
    let name ← string key
    let first ← payload item
    let others ← entries rest
    return (name ++ typed types item first) ++ others

end

def tag (value : Tag) : Except CodecError Bytes := do
  let written ← payload types value
  return typed types value written

end Writer

namespace Reader

abbrev Reading := SelfDelimitingReaders.Reader UInt8 CodecError

def ofBytes : Bytes → ℕ
  | [] => 0
  | byte :: bytes => byte.toNat + 256 * ofBytes bytes

def integral (size : ℕ) : Reading ℕ := do
  let bytes ← take truncated size
  return ofBytes bytes

def length : Reading ℕ := do
  let value ← integral 4
  if value > limit then throw tooLarge else return value

def string : Reading Bytes := do
  let size ← length
  take truncated size

def byteArray : Reading Bytes := do
  let size ← length
  take truncated size

def insertOrAssign (key : Bytes) (item : Tag) : Entries → Entries
  | [] => [(key, item)]
  | (key', item') :: entries =>
    if key' < key then (key', item') :: insertOrAssign key item entries
    else if key' = key then (key, item) :: entries
    else (key, item) :: (key', item') :: entries

def ofEntries (entries : Entries) : Entries :=
  entries.foldl (fun value e => insertOrAssign e.1 e.2 value) []

/-- Clang evaluates the key before the tag. -/
def entry (tag : Reading Tag) : Reading (Bytes × Tag) := do
  let key ← string
  let item ← tag
  return (key, item)

def payload (tag : Reading Tag) : TagType → Reading Tag
  | .empty => return .empty
  | .byte => do
    let raw ← integral 1
    return .byte (UInt8.ofNat raw)
  | .short => do
    let raw ← integral 2
    return .short (UInt16.ofNat raw).toInt16
  | .int => do
    let raw ← integral 4
    return .int (UInt32.ofNat raw).toInt32
  | .long => do
    let raw ← integral 8
    return .long (UInt64.ofNat raw).toInt64
  | .float => do
    let raw ← integral 4
    return .float (UInt32.ofNat raw)
  | .double => do
    let raw ← integral 8
    return .double (UInt64.ofNat raw)
  | .string => do
    let value ← string
    return .string value
  | .byteArray => do
    let value ← byteArray
    return .byteArray value
  | .intArray => do
    let size ← length
    let value ← times size do
      let raw ← integral 4
      return (UInt32.ofNat raw).toInt32
    return .intArray value
  | .list => do
    let size ← length
    let value ← times size tag
    return .list value
  | .compound => do
    let size ← length
    let value ← times size (entry tag)
    return .compound (ofEntries value)

/-- Every nested tag takes a byte of its own, so the fuel of `decode` is never used up. -/
def tag (types : TypeCodes) : ℕ → Reading Tag
  | 0 => throw .outOfFuel
  | fuel + 1 => do
    let raw ← integral 1
    match types.typeOf (UInt8.ofNat raw) with
    | some type => payload (tag types fuel) type
    | none => throw unknownType

def expect : Bytes → Reading PUnit
  | [] => return ⟨⟩
  | byte :: bytes => do
    let raw ← integral 1
    if raw ≠ byte.toNat then throw invalidHeader else expect bytes

end Reader

/-- 'E', 'X', 'N', 'B' and the version. -/
def header : Bytes := [69, 88, 78, 66, 1]

def encode (types : TypeCodes) (tag : CompoundTag) : Except CodecError Bytes := do
  let written ← Writer.tag types (.compound tag.entries)
  return header.flatMap (fun byte => Writer.integral 1 byte.toNat) ++ written

/-- The header, then the root tag. -/
def Reader.root (types : TypeCodes) (fuel : ℕ) : Reader.Reading Tag := do
  Reader.expect header
  Reader.tag types fuel

def decode (types : TypeCodes) (bytes : Bytes) : Except CodecError Entries :=
  if bytes = [] then return []
  else do
    let (value, rest) ← (Reader.root types (bytes.length + 1)).run bytes
    match value with
    | .compound entries => if rest = [] then return entries else throw invalidRoot
    | _ => throw invalidRoot

end EndstoneExchange.NbtCodec
