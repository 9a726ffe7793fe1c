import EndstoneExchange.FrameItemSearch
import EndstoneExchange.LevelDbLogFormat
import Mathlib.Data.List.Sort
import Mathlib.Data.Char

/-!
# Structures in the world's LevelDB logs

The value of a structure is looked up in the log files of the world. Every record of
every log is inspected, the files in the order of their paths.
-/
namespace EndstoneExchange.StructureReader
open NbtCodec LevelDbLogFormat FrameItemSearch

def maxCaptureBytes : ℕ := 64 * 1024 * 1024

/-- The value of the wanted key so far, and whether an operation on it was seen. -/
structure Found where
  value : Option Bytes := none
  seen : Bool := false
  deriving DecidableEq, Repr

section Batches

/-- One byte of the number at a time; the fifth holds four bits. -/
def varUint32Bytes : ℕ → ℕ → ℕ → Bytes → Option (ℕ × Bytes)
  | 0, _, _, _ => none
  | _ + 1, _, _, [] => none
  | rounds + 1, shift, result, byte :: rest =>
    if shift = 28 ∧ 16 ≤ byte.toNat then none
    else if byte.toNat < 128 then some (result + byte.toNat % 128 * 2 ^ shift, rest)
    else varUint32Bytes rounds (shift + 7) (result + byte.toNat % 128 * 2 ^ shift) rest

def readVarUint32 (bytes : Bytes) : Option (ℕ × Bytes) := varUint32Bytes 5 0 0 bytes

def littleUint32 (bytes : Bytes) (position : ℕ) : Except String ℕ :=
  if position > bytes.length ∨ bytes.length - position < 4 then throw "truncated LevelDB write batch"
  else return Reader.ofBytes ((bytes.drop position).take 4)

/-- A counted string and what follows it. -/
def readCounted (bytes : Bytes) : Option (Bytes × Bytes) :=
  match readVarUint32 bytes with
  | none => none
  | some (size, rest) => if size > rest.length then none else some (rest.take size, rest.drop size)

/-- The operations of a batch, as many as it counts. Anything malformed ends it. -/
def inspectOperations (wantedKey : Bytes) : ℕ → Bytes → Found → Found
  | 0, _, found => found
  | _ + 1, [], found => found
  | count + 1, tag :: rest, found =>
    match readCounted rest with
    | none => found
    | some (key, rest) =>
      if tag = 0 then
        inspectOperations wantedKey count rest (if key = wantedKey then ⟨none, true⟩ else found)
      else if tag ≠ 1 then found
      else
        match readCounted rest with
        | none => found
        | some (value, rest) =>
          inspectOperations wantedKey count rest (if key = wantedKey then ⟨some value, true⟩ else found)

def inspectWriteBatch (record wantedKey : Bytes) (found : Found) : Except String Found := do
  if record.length < 12 then return found
  else
    let count ← littleUint32 record 8
    return inspectOperations wantedKey count (record.drop 12) found

end Batches

section Logs

/-- The fragments collected so far and the findings. -/
structure Scan where
  fragmented : Bytes := []
  collecting : Bool := false
  found : Found := {}

/-- No record is being collected. -/
def Scan.idle (scan : Scan) : Scan := { scan with fragmented := [], collecting := false }

/-- `switch (record_type)`. -/
def Scan.fragment (wantedKey : Bytes) (type : UInt8) (data : Bytes) (scan : Scan) : Except String Scan :=
  if type = 1 then do
    let found ← inspectWriteBatch data wantedKey scan.found
    return { scan.idle with found }
  else if type = 2 then
    return { scan with fragmented := data, collecting := true }
  else if type = 3 then
    if scan.collecting = true ∧ scan.fragmented.length + data.length ≤ maxCaptureBytes then
      return { scan with fragmented := scan.fragmented ++ data }
    else return scan.idle
  else if type = 4 then
    if scan.collecting = true ∧ scan.fragmented.length + data.length ≤ maxCaptureBytes then do
      let found ← inspectWriteBatch (scan.fragmented ++ data) wantedKey scan.found
      return { scan.idle with found }
    else return scan.idle
  else return scan.idle

/-- Data length and type in a fragment's header. -/
def headerLength (header : Bytes) : ℕ := Reader.ofBytes ((header.drop 4).take 2)
def headerType (header : Bytes) : UInt8 := header.getD 6 0

/-- The log from `position` on. -/
def scanLog (wantedKey : Bytes) (position : ℕ) (rest : Bytes) (scan : Scan) : Except String Scan :=
  if rest.length < headerBytes then return scan
  else if remaining position < headerBytes then
    scanLog wantedKey (position + remaining position) (rest.drop (remaining position)) scan
  else if headerLength rest = 0 ∧ headerType rest = 0 then
    scanLog wantedKey (position + remaining position) (rest.drop (remaining position)) scan.idle
  else if headerLength rest > remaining position - headerBytes ∨
      headerLength rest > rest.length - headerBytes then return scan
  else do
    let scan ← scan.fragment wantedKey (headerType rest) ((rest.drop headerBytes).take (headerLength rest))
    scanLog wantedKey (position + headerBytes + headerLength rest)
      (rest.drop (headerBytes + headerLength rest)) scan
termination_by rest.length
decreasing_by
  all_goals
    have := remaining_pos position
    simp only [List.length_drop, headerBytes] at *
    omega

structure LogFile where
  path : String
  bytes : Bytes

def readFile (file : LogFile) : Except String Bytes :=
  if file.bytes.length = 0 ∨ file.bytes.length > maxCaptureBytes then
    throw ("invalid structure data size: " ++ file.path)
  else return file.bytes

def inspectLevelDbLog (file : LogFile) (wantedKey : Bytes) (found : Found) : Except String Found := do
  if file.bytes.length = 0 then return found
  else
    let bytes ← readFile file
    let scan ← scanLog wantedKey 0 bytes { found }
    return scan.found

end Logs

section Directories

structure DirectoryEntry where
  name : String
  regular : Bool
  bytes : Bytes

/-- From the last period on, unless the name starts there. -/
def extension (name : List Char) : List Char :=
  let suffix := (name.reverse.takeWhile (· ≠ '.')).reverse
  if suffix.length + 1 < name.length then '.' :: suffix else []

/-- Paths of one directory are ordered by their names, character by character. -/
def pathLe (a b : DirectoryEntry) : Prop := a.name.toList ≤ b.name.toList

instance : DecidableRel pathLe := fun a b => inferInstanceAs (Decidable (a.name.toList ≤ b.name.toList))

def logFiles (entries : List DirectoryEntry) : List DirectoryEntry :=
  (entries.filter fun entry => entry.regular = true ∧ extension entry.name.toList = ".log".toList).insertionSort pathLe

def structureKey (structureName : String) : Bytes := ("structuretemplate_" ++ structureName).toUTF8.toList

def inspectLogs (databasePath : String) (wantedKey : Bytes) :
    List DirectoryEntry → Found → Except String Found
  | [], found => return found
  | log :: logs, found => do
    let found ← inspectLevelDbLog ⟨databasePath ++ "/" ++ log.name, log.bytes⟩ wantedKey found
    inspectLogs databasePath wantedKey logs found

def notFound : String := "saved structure was not found in the world LevelDB log"

/-- The value left by the last operation seen. -/
def structureValue (databasePath : String) (entries : Except String (List DirectoryEntry))
    (structureName : String) : Except String Bytes := do
  match entries with
  | .error message => throw ("cannot enumerate world LevelDB logs: " ++ message)
  | .ok entries =>
    let found ← inspectLogs databasePath (structureKey structureName) (logFiles entries) {}
    match found.seen, found.value with
    | true, some value => return value
    | _, _ => throw notFound

def decodeFrameItem (value : Bytes) : Except CodecError (Option CapturedFrameItem) := do
  let entries ← StructureNbt.BedrockNbtReader.root value
  findItem 0 (.compound entries)

def readItemFrameFromLevelDbLogs (databasePath : String) (entries : Except String (List DirectoryEntry))
    (structureName : String) : Except CodecError (Option CapturedFrameItem) := do
  let value ← (structureValue databasePath entries structureName).mapError CodecError.runtime
  decodeFrameItem value

end Directories

end EndstoneExchange.StructureReader
