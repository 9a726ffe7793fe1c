import EndstoneExchange.NbtRoundTrip
import Mathlib.Data.List.Sort

/-!
# The NBT of saved structures

Bedrock writes a structure as a named compound in little-endian NBT. The elements of a list
carry no type of their own, a compound ends with a zero byte, and long arrays, for which
the server has no tag, are read as lists of longs.
-/
namespace EndstoneExchange.StructureNbt
open SelfDelimitingReaders NbtCodec NbtRoundTrip

section Format

/-- A tag tree of the format. A list names the type of its elements, also when it is empty; only
lists have elements of the end type. -/
inductive Nbt where
  | end
  | byte (value : UInt8)
  | short (value : Int16)
  | int (value : Int32)
  | long (value : Int64)
  | float (bits : UInt32)
  | double (bits : UInt64)
  | byteArray (value : Bytes)
  | string (value : Bytes)
  | list (elementType : UInt8) (items : List Nbt)
  | compound (entries : List (Bytes × Nbt))
  | intArray (value : List Int32)
  | longArray (value : List Int64)

def Nbt.type : Nbt → UInt8
  | .end => 0
  | byte _ => 1
  | short _ => 2
  | int _ => 3
  | long _ => 4
  | float _ => 5
  | double _ => 6
  | byteArray _ => 7
  | string _ => 8
  | list .. => 9
  | compound _ => 10
  | intArray _ => 11
  | longArray _ => 12

mutual

/-- Lengths within bounds, homogeneous lists and compounds with distinct keys. -/
def Nbt.WellFormed : Nbt → Prop
  | .string value => value.length ≤ 65535
  | .byteArray value => value.length ≤ limit
  | .intArray value => value.length ≤ limit
  | .longArray value => value.length ≤ limit
  | .list elementType items => items.length ≤ limit ∧ ItemsWellFormed elementType items
  | .compound entries => (entries.map Prod.fst).Nodup ∧ EntriesWellFormed entries
  | _ => True

def ItemsWellFormed (elementType : UInt8) : List Nbt → Prop
  | [] => True
  | item :: items => (item.type = elementType ∧ item.WellFormed) ∧ ItemsWellFormed elementType items

def EntriesWellFormed : List (Bytes × Nbt) → Prop
  | [] => True
  | entry :: entries =>
    (entry.1.length ≤ 65535 ∧ entry.2.type ≠ 0 ∧ entry.2.WellFormed) ∧ EntriesWellFormed entries

end

def byKey (entries : Entries) : Entries := entries.mergeSort fun e e' => decide (e.1 ≤ e'.1)

mutual

/-- The tag of the server: each long array is a list of longs, and a compound is iterated in the order
of its keys. -/
def Nbt.toTag : Nbt → Tag
  | .end => .empty
  | .byte value => .byte value
  | .short value => .short value
  | .int value => .int value
  | .long value => .long value
  | .float bits => .float bits
  | .double bits => .double bits
  | .byteArray value => .byteArray value
  | .string value => .string value
  | .list _ items => .list (itemTags items)
  | .compound entries => .compound (byKey (entryTags entries))
  | .intArray value => .intArray value
  | .longArray value => .list (value.map .long)

def itemTags : List Nbt → List Tag
  | [] => []
  | item :: items => item.toTag :: itemTags items

def entryTags : List (Bytes × Nbt) → Entries
  | [] => []
  | entry :: entries => (entry.1, entry.2.toTag) :: entryTags entries

end

def writeString (value : Bytes) : Bytes := Writer.integral 2 value.length ++ value

mutual

def writePayload : Nbt → Bytes
  | .end => []
  | .byte value => Writer.integral 1 value.toNat
  | .short value => Writer.integral 2 value.toUInt16.toNat
  | .int value => Writer.integral 4 value.toUInt32.toNat
  | .long value => Writer.integral 8 value.toUInt64.toNat
  | .float bits => Writer.integral 4 bits.toNat
  | .double bits => Writer.integral 8 bits.toNat
  | .byteArray value => Writer.integral 4 value.length ++ value
  | .string value => writeString value
  | .list elementType items =>
    Writer.integral 1 elementType.toNat ++ (Writer.integral 4 items.length ++ writeItems items)
  | .compound entries => writeEntries entries
  | .intArray value =>
    Writer.integral 4 value.length ++ value.flatMap fun item => Writer.integral 4 item.toUInt32.toNat
  | .longArray value =>
    Writer.integral 4 value.length ++ value.flatMap fun item => Writer.integral 8 item.toUInt64.toNat

def writeItems : List Nbt → Bytes
  | [] => []
  | item :: items => writePayload item ++ writeItems items

/-- The entries of a compound, and the byte that ends it. -/
def writeEntries : List (Bytes × Nbt) → Bytes
  | [] => Writer.integral 1 0
  | entry :: entries =>
    Writer.integral 1 entry.2.type.toNat ++
      (writeString entry.1 ++ (writePayload entry.2 ++ writeEntries entries))

end

/-- A compound under a name. -/
def writeRoot (name : Bytes) (entries : List (Bytes × Nbt)) : Bytes :=
  Writer.integral 1 10 ++ (writeString name ++ writeEntries entries)

end Format

namespace BedrockNbtReader
open Reader (Reading ofBytes insertOrAssign)

def truncated : CodecError := .runtime "truncated mcstructure NBT"
def invalidLength : CodecError := .runtime "invalid mcstructure NBT container length"

def integer (size : ℕ) : Reading ℕ := do
  let bytes ← take truncated size
  return ofBytes bytes

def byte : Reading UInt8 := do
  let raw ← integer 1
  return UInt8.ofNat raw

def string : Reading Bytes := do
  let size ← integer 2
  take truncated size

def containerLength : Reading ℕ := do
  let raw ← integer 4
  let signedSize : ℤ := if raw < 2 ^ 31 then raw else raw - 2 ^ 32
  if signedSize < 0 ∨ signedSize > 16 * 1024 * 1024 then throw invalidLength
  return signedSize.toNat

def int32 : Reading Int32 := do
  let raw ← integer 4
  return (UInt32.ofNat raw).toInt32

def int64 : Reading Int64 := do
  let raw ← integer 8
  return (UInt64.ofNat raw).toInt64

def byteArray : Reading Tag := do
  let size ← containerLength
  let value ← take truncated size
  return .byteArray value

def intArray : Reading Tag := do
  let size ← containerLength
  let value ← times size int32
  return .intArray value

def longArrayAsList : Reading Tag := do
  let size ← containerLength
  let value ← times size int64
  return .list (value.map .long)

section Nested
variable (payload : UInt8 → Reading Tag)

def list : Reading Tag := do
  let elementType ← byte
  let size ← containerLength
  let value ← times size (payload elementType)
  return .list value

/-- Every round reads a byte. -/
def compoundLoop : ℕ → Entries → Reading Entries
  | 0, _ => throw .outOfFuel
  | fuel + 1, result => do
    let type ← byte
    if type = 0 then return result
    let name ← string
    let value ← payload type
    compoundLoop fuel (insertOrAssign name value result)

end Nested

/-- Lists and compounds read a byte before they come to what is nested in them. -/
def payload : ℕ → UInt8 → Reading Tag
  | 0, _ => throw .outOfFuel
  | fuel + 1, type =>
    match type.toNat with
    | 0 => return .empty
    | 1 => do
      let value ← byte
      return .byte value
    | 2 => do
      let raw ← integer 2
      return .short (UInt16.ofNat raw).toInt16
    | 3 => do
      let value ← int32
      return .int value
    | 4 => do
      let value ← int64
      return .long value
    | 5 => do
      let raw ← integer 4
      return .float (UInt32.ofNat raw)
    | 6 => do
      let raw ← integer 8
      return .double (UInt64.ofNat raw)
    | 7 => byteArray
    | 8 => do
      let value ← string
      return .string value
    | 9 => list (payload fuel)
    | 10 => do
      let entries ← compoundLoop (payload fuel) (fuel + 1) []
      return .compound entries
    | 11 => intArray
    | 12 => longArrayAsList
    | unsupported => throw (.runtime ("unsupported mcstructure NBT type " ++ toString unsupported))

def asCompound : Tag → Reading Entries
  | .compound entries => return entries
  | _ => throw (.runtime "mcstructure has an invalid NBT root")

def rootWith (fuel : ℕ) : Reading Entries := do
  let type ← byte
  if type ≠ 10 then throw (.runtime "mcstructure root is not an NBT compound")
  let _ ← string
  let result ← payload fuel type
  asCompound result

/-- Nothing is checked beyond the root. -/
def root (bytes : Bytes) : Except CodecError Entries := do
  let (entries, _) ← (rootWith (bytes.length + 1)).run bytes
  return entries

section Errors

/-- What the reader throws. -/
inductive NbtError : CodecError → Prop where
  | truncated : NbtError truncated
  | invalidLength : NbtError invalidLength
  | unsupported (type : ℕ) : NbtError (.runtime ("unsupported mcstructure NBT type " ++ toString type))
  | invalidRoot : NbtError (.runtime "mcstructure has an invalid NBT root")
  | notCompound : NbtError (.runtime "mcstructure root is not an NBT compound")
  | outOfFuel : NbtError .outOfFuel

theorem integer_raises (size : ℕ) : RaisesOnly NbtError (integer size) :=
  .bind (.take .truncated size) fun _ => .pure

theorem byte_raises : RaisesOnly NbtError byte := .bind (integer_raises 1) fun _ => .pure

theorem string_raises : RaisesOnly NbtError string := .bind (integer_raises 2) fun size => .take .truncated size

theorem containerLength_raises : RaisesOnly NbtError containerLength :=
  .bind (integer_raises 4) fun _ => .ite (.bind (.throw .invalidLength) fun _ => .pure) .pure

theorem int32_raises : RaisesOnly NbtError int32 := .bind (integer_raises 4) fun _ => .pure

theorem int64_raises : RaisesOnly NbtError int64 := .bind (integer_raises 8) fun _ => .pure

private theorem list_raises {payload : UInt8 → Reading Tag} (h : ∀ type, RaisesOnly NbtError (payload type)) :
    RaisesOnly NbtError (list payload) :=
  .bind byte_raises fun type => .bind containerLength_raises fun size => .bind (.times (h type) size) fun _ => .pure

private theorem compoundLoop_raises {payload : UInt8 → Reading Tag} (h : ∀ type, RaisesOnly NbtError (payload type))
    (fuel : ℕ) (result : Entries) : RaisesOnly NbtError (compoundLoop payload fuel result) := by
  induction fuel generalizing result with
  | zero => exact .throw .outOfFuel
  | succ fuel ih =>
    refine .bind byte_raises fun type => .ite .pure ?_
    exact .bind string_raises fun name => .bind (h type) fun value => ih _

private theorem payload_raises (fuel : ℕ) (type : UInt8) : RaisesOnly NbtError (payload fuel type) := by
  induction fuel generalizing type with
  | zero => exact .throw .outOfFuel
  | succ fuel ih =>
    rw [payload]
    split
    · exact .pure
    · exact .bind byte_raises fun _ => .pure
    · exact .bind (integer_raises 2) fun _ => .pure
    · exact .bind int32_raises fun _ => .pure
    · exact .bind int64_raises fun _ => .pure
    · exact .bind (integer_raises 4) fun _ => .pure
    · exact .bind (integer_raises 8) fun _ => .pure
    · exact .bind containerLength_raises fun size => .bind (.take .truncated size) fun _ => .pure
    · exact .bind string_raises fun _ => .pure
    · exact list_raises ih
    · exact .bind (compoundLoop_raises ih _ _) fun _ => .pure
    · exact .bind containerLength_raises fun size => .bind (.times int32_raises size) fun _ => .pure
    · exact .bind containerLength_raises fun size => .bind (.times int64_raises size) fun _ => .pure
    · exact .throw (.unsupported _)

theorem root_raises {bytes : Bytes} {e : CodecError} (h : root bytes = .error e) : NbtError e := by
  have hroot : RaisesOnly NbtError (rootWith (bytes.length + 1)) := by
    refine .bind byte_raises fun type => .ite (.bind (.throw .notCompound) fun _ => ?_) ?_
    all_goals
      refine .bind string_raises fun _ => .bind (payload_raises _ type) fun result => ?_
      cases result with
      | compound entries => exact .pure
      | _ => exact .throw .invalidRoot
  cases hrun : (rootWith (bytes.length + 1)).run bytes with
  | error e' =>
    rw [root, hrun] at h
    exact Except.error.inj h ▸ hroot bytes e' hrun
  | ok result =>
    rw [root, hrun] at h
    cases h

end Errors
end BedrockNbtReader

section RoundTrip
open BedrockNbtReader (integer byte string containerLength int32 int64 payload compoundLoop rootWith root)

variable {room : ℕ}

theorem integer_frames {size raw : ℕ} (h : raw < 256 ^ size) :
    Frames room BedrockNbtReader.truncated (integer size) (Writer.integral size raw) raw := by
  have htake : Frames room BedrockNbtReader.truncated (take BedrockNbtReader.truncated size)
      (Writer.integral size raw) (Writer.integral size raw) := by
    have := (@take_frames _ _ room BedrockNbtReader.truncated) (Writer.integral size raw)
    rwa [integral_length] at this
  have hread := htake.map Reader.ofBytes
  rwa [ofBytes_integral h] at hread

theorem byte_frames (value : UInt8) :
    Frames room BedrockNbtReader.truncated byte (Writer.integral 1 value.toNat) value := by
  have h := ((@integer_frames room 1) value.toNat_lt).map UInt8.ofNat
  rwa [UInt8.ofNat_toNat] at h

theorem string_frames {value : Bytes} (h : value.length ≤ 65535) :
    Frames room BedrockNbtReader.truncated string (writeString value) value :=
  (integer_frames (lt_of_le_of_lt h (by decide))).bind (take_frames value)

theorem containerLength_frames {size : ℕ} (h : size ≤ limit) :
    Frames room BedrockNbtReader.truncated containerLength (Writer.integral 4 size) size := by
  have hlimit : limit = 16777216 := rfl
  have hread : Frames room BedrockNbtReader.truncated containerLength (Writer.integral 4 size ++ []) size := by
    refine (integer_frames (by rw [hlimit] at h; omega)).bind ?_
    have hsigned : (if size < 2 ^ 31 then (size : ℤ) else size - 2 ^ 32) = size := if_pos (by omega)
    dsimp only
    rw [hsigned, if_neg (by omega), Int.toNat_natCast]
    exact frames_pure size
  rwa [List.append_nil] at hread

theorem int32_frames (value : Int32) :
    Frames room BedrockNbtReader.truncated int32 (Writer.integral 4 value.toUInt32.toNat) value := by
  have h := ((@integer_frames room 4) value.toUInt32.toNat_lt).map fun raw => (UInt32.ofNat raw).toInt32
  rwa [UInt32.ofNat_toNat, Int32.toInt32_toUInt32] at h

theorem int64_frames (value : Int64) :
    Frames room BedrockNbtReader.truncated int64 (Writer.integral 8 value.toUInt64.toNat) value := by
  have h := ((@integer_frames room 8) value.toUInt64.toNat_lt).map fun raw => (UInt64.ofNat raw).toInt64
  rwa [UInt64.ofNat_toNat, Int64.toInt64_toUInt64] at h

theorem times_frames {α : Type} {short : CodecError} {r : Reader.Reading α} {write : α → Bytes}
    (h : ∀ value, Frames room short r (write value) value) (values : List α) :
    Frames room short (times values.length r) (values.flatMap write) values := by
  induction values with
  | nil => exact frames_pure []
  | cons value values ih => exact (h value).cons ih

private theorem entryTags_keys (entries : List (Bytes × Nbt)) :
    (entryTags entries).map Prod.fst = entries.map Prod.fst := by
  induction entries with
  | nil => rfl
  | cons entry entries ih => rw [entryTags, List.map_cons, List.map_cons, ih]

theorem insertOrAssign_perm {key : Bytes} {item : Tag} {entries : Entries} (h : key ∉ entries.map Prod.fst) :
    (Reader.insertOrAssign key item entries).Perm ((key, item) :: entries) := by
  induction entries with
  | nil => exact .refl _
  | cons entry entries ih =>
    rw [List.map_cons, List.mem_cons, not_or] at h
    rw [Reader.insertOrAssign]
    split_ifs with hlt heq
    · exact ((ih h.2).cons entry).trans (.swap _ _ _)
    · exact absurd heq.symm h.1
    · exact .refl _

private theorem insertOrAssign_sorted {key : Bytes} {item : Tag} {entries : Entries} (hs : Sorted entries)
    (h : key ∉ entries.map Prod.fst) : Sorted (Reader.insertOrAssign key item entries) := by
  induction entries with
  | nil => exact List.pairwise_singleton _ _
  | cons entry entries ih =>
    obtain ⟨hfirst, hrest⟩ := List.pairwise_cons.mp hs
    rw [List.map_cons, List.mem_cons, not_or] at h
    rw [Reader.insertOrAssign]
    split_ifs with hlt heq
    · refine List.pairwise_cons.mpr ⟨fun e he => ?_, ih hrest h.2⟩
      rcases List.mem_cons.mp ((insertOrAssign_perm h.2).mem_iff.mp he) with rfl | he
      · exact hlt
      · exact hfirst e he
    · exact absurd heq.symm h.1
    · have hkey : key < entry.1 := by
        rcases List.le_iff_lt_or_eq.mp (List.not_lt.mp hlt) with hkey | hkey
        · exact hkey
        · exact absurd hkey h.1
      refine List.pairwise_cons.mpr ⟨fun e he => ?_, hs⟩
      rcases List.mem_cons.mp he with rfl | he
      · exact hkey
      · exact List.lt_trans hkey (hfirst e he)

def insertAll (result entries : Entries) : Entries :=
  entries.foldl (fun value e => Reader.insertOrAssign e.1 e.2 value) result

private theorem insertAll_spec {result entries : Entries} (hs : Sorted result)
    (h : ((result ++ entries).map Prod.fst).Nodup) :
    Sorted (insertAll result entries) ∧ (insertAll result entries).Perm (result ++ entries) := by
  induction entries generalizing result with
  | nil => exact ⟨hs, by rw [List.append_nil]; exact .refl _⟩
  | cons entry entries ih =>
    have hkey : entry.1 ∉ result.map Prod.fst := by
      rw [List.map_append, List.map_cons, List.nodup_middle, List.nodup_cons] at h
      exact fun hmem => h.1 (List.mem_append_left _ hmem)
    have hperm : (Reader.insertOrAssign entry.1 entry.2 result ++ entries).Perm (result ++ entry :: entries) :=
      ((insertOrAssign_perm hkey).append_right entries).trans List.perm_middle.symm
    obtain ⟨hsorted, hall⟩ := ih (insertOrAssign_sorted hs hkey) ((hperm.map Prod.fst).nodup_iff.mpr h)
    exact ⟨hsorted, hall.trans hperm⟩

/-- Entries with distinct keys are sorted by inserting one after the other. -/
theorem insertAll_nil {entries : Entries} (h : (entries.map Prod.fst).Nodup) :
    insertAll [] entries = byKey entries := by
  obtain ⟨hsorted, hperm⟩ := @insertAll_spec [] entries List.Pairwise.nil h
  have hbyKey := @List.pairwise_mergeSort _ (fun e e' : Bytes × Tag => decide (e.1 ≤ e'.1))
    (fun a b c hab hbc => by
      simp only [decide_eq_true_eq] at hab hbc ⊢
      exact List.le_trans hab hbc)
    (fun a b => by
      simp only [Bool.or_eq_true, decide_eq_true_eq]
      exact List.le_total a.1 b.1) entries
  refine (hperm.trans (List.mergeSort_perm entries _).symm).eq_of_pairwise ?_
    (hsorted.imp fun hlt => decide_eq_true (List.le_of_lt hlt)) hbyKey
  intro e e' he he' hle hle'
  have hkey : e.1 = e'.1 := List.le_antisymm (of_decide_eq_true hle) (of_decide_eq_true hle')
  have hmem := hperm.mem_iff.mp he
  have hmem' := (List.mergeSort_perm entries _).mem_iff.mp he'
  exact List.inj_on_of_nodup_map h hmem hmem' hkey

theorem frames_nothing {α : Type} {short : CodecError} {r : Reader.Reading α} {code : Bytes} {value : α} :
    Frames 0 short r code value where
  whole _ hlt := absurd hlt (Nat.not_lt_zero _)
  cut _ _ _ hlt := absurd hlt (Nat.not_lt_zero _)

mutual

/-- With as many rounds as bytes each payload is read back. -/
theorem payload_frames (tag : Nbt) (h : tag.WellFormed) (fuel : ℕ) :
    Frames fuel BedrockNbtReader.truncated (payload fuel tag.type) (writePayload tag) tag.toTag := by
  cases fuel with
  | zero => exact frames_nothing
  | succ fuel =>
    cases tag with
    | «end» => exact frames_pure Tag.empty
    | byte value => exact (byte_frames value).map Tag.byte
    | short value =>
      have h := ((@integer_frames (fuel + 1) 2) value.toUInt16.toNat_lt).map fun raw =>
        Tag.short (UInt16.ofNat raw).toInt16
      rwa [UInt16.ofNat_toNat, Int16.toInt16_toUInt16] at h
    | int value => exact (int32_frames value).map Tag.int
    | long value => exact (int64_frames value).map Tag.long
    | float bits =>
      have h := ((@integer_frames (fuel + 1) 4) bits.toNat_lt).map fun raw => Tag.float (UInt32.ofNat raw)
      rwa [UInt32.ofNat_toNat] at h
    | double bits =>
      have h := ((@integer_frames (fuel + 1) 8) bits.toNat_lt).map fun raw => Tag.double (UInt64.ofNat raw)
      rwa [UInt64.ofNat_toNat] at h
    | byteArray value => exact (containerLength_frames h).bind ((take_frames value).map Tag.byteArray)
    | string value => exact (string_frames h).map Tag.string
    | list elementType items =>
      have hitems := (items_frames elementType items h.2 fuel).map Tag.list
      refine (byte_frames elementType).bind_left ?_
      refine (containerLength_frames h.1).bind (hitems.mono ?_)
      rw [integral_length]
      exact (Nat.add_sub_cancel fuel 1).le
    | compound entries =>
      have hentries := entries_frames entries h.2 fuel (fuel + 1) (fuel + 1) [] le_rfl le_rfl
      rw [insertAll_nil (by rw [entryTags_keys]; exact h.1)] at hentries
      exact hentries.map Tag.compound
    | intArray value =>
      exact (containerLength_frames h).bind ((times_frames int32_frames value).map Tag.intArray)
    | longArray value =>
      exact (containerLength_frames h).bind ((times_frames int64_frames value).map fun value =>
        Tag.list (value.map .long))

theorem items_frames (elementType : UInt8) (items : List Nbt) (h : ItemsWellFormed elementType items)
    (fuel : ℕ) : Frames fuel BedrockNbtReader.truncated (times items.length (payload fuel elementType))
      (writeItems items) (itemTags items) := by
  cases items with
  | nil => exact frames_pure []
  | cons item items =>
    have hitem := payload_frames item h.1.2 fuel
    rw [h.1.1] at hitem
    exact hitem.cons (items_frames elementType items h.2 fuel)

theorem entries_frames (entries : List (Bytes × Nbt)) (h : EntriesWellFormed entries)
    (fuel rounds room : ℕ) (result : Entries) (hrounds : room ≤ rounds) (hfuel : room ≤ fuel + 1) :
    Frames room BedrockNbtReader.truncated (compoundLoop (payload fuel) rounds result) (writeEntries entries)
      (insertAll result (entryTags entries)) := by
  cases rounds with
  | zero =>
    obtain rfl := Nat.le_zero.mp hrounds
    exact frames_nothing
  | succ rounds =>
    cases entries with
    | nil =>
      have hend := (@byte_frames room 0).bind (k := fun type => do
        if type = 0 then return result
        let name ← string
        let value ← payload fuel type
        compoundLoop (payload fuel) rounds (Reader.insertOrAssign name value result)) (frames_pure result)
      rwa [List.append_nil] at hend
    | cons entry entries =>
      refine (byte_frames entry.2.type).bind_left ?_
      rw [integral_length, if_neg h.1.2.1]
      refine (string_frames h.1.1).bind ?_
      refine ((payload_frames entry.2 h.1.2.2 fuel).mono (by omega)).bind ?_
      exact entries_frames entries h.2 fuel rounds (room - 1) _ (by omega) (by omega)

end

private theorem root_frames {name : Bytes} {entries : List (Bytes × Nbt)} (hname : name.length ≤ 65535)
    (h : (Nbt.compound entries).WellFormed) (fuel : ℕ) :
    Frames fuel BedrockNbtReader.truncated (rootWith fuel) (writeRoot name entries)
      (byKey (entryTags entries)) := by
  have hroot := payload_frames (.compound entries) h fuel
  refine (byte_frames 10).bind ((string_frames hname).bind ?_)
  have hresult := hroot.bind (k := BedrockNbtReader.asCompound) (frames_pure (byKey (entryTags entries)))
  rwa [List.append_nil] at hresult

/-- A written structure is read back, whatever follows it. -/
theorem root_written {name : Bytes} {entries : List (Bytes × Nbt)} (hname : name.length ≤ 65535)
    (h : (Nbt.compound entries).WellFormed) (rest : Bytes) :
    root (writeRoot name entries ++ rest) = .ok (byKey (entryTags entries)) := by
  rw [root, (root_frames hname h _).whole rest (Nat.lt_succ_self _)]
  rfl

end RoundTrip

end EndstoneExchange.StructureNbt
