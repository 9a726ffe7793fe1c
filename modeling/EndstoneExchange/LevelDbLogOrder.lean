import EndstoneExchange.DelimitedText
import EndstoneExchange.LevelDbRecovery

/-!
# The order of the log files

The files are inspected in the order of their names and the last operation on the
wanted key prevails. LevelDB numbers its logs; from a million on the names no longer
follow the numbers.
-/
namespace EndstoneExchange.LevelDbLogOrder
open NbtCodec StructureNbt FrameItemSearch LevelDbLogFormat StructureReader LevelDbRecovery DelimitedText

section Effects
variable {wantedKey : Bytes}

/-- Findings on top of earlier ones. -/
def onTop (base found : Found) : Found := if found.seen then found else base

def Scan.onTop (base : Found) (scan : Scan) : Scan := { scan with found := LevelDbLogOrder.onTop base scan.found }

private theorem inspectOperations_over (base : Found) (count : ℕ) (bytes : Bytes) (found : Found) :
    inspectOperations wantedKey count bytes (onTop base found) =
      onTop base (inspectOperations wantedKey count bytes found) := by
  have hset : ∀ (c : Prop) [Decidable c] (value : Option Bytes) (found : Found),
      (if c then ⟨value, true⟩ else onTop base found) = onTop base (if c then ⟨value, true⟩ else found) := by
    intro c _ value found
    split_ifs
    · rfl
    · rfl
  induction count generalizing bytes found with
  | zero => rfl
  | succ count ih =>
    cases bytes with
    | nil => rfl
    | cons tag rest =>
      rw [inspectOperations, inspectOperations]
      cases readCounted rest with
      | none => rfl
      | some keyed =>
        obtain ⟨key, rest⟩ := keyed
        dsimp only
        by_cases htag : tag = 0
        · rw [if_pos htag, if_pos htag, hset, ih]
        · rw [if_neg htag, if_neg htag]
          by_cases hput : tag ≠ 1
          · rw [if_pos hput, if_pos hput]
          · rw [if_neg hput, if_neg hput]
            cases readCounted rest with
            | none => rfl
            | some valued =>
              obtain ⟨value, rest⟩ := valued
              simp only [hset, ih]

/-- A batch with a header is never truncated. -/
theorem inspectWriteBatch_eq (record : Bytes) (found : Found) : inspectWriteBatch record wantedKey found =
    .ok (if record.length < 12 then found
      else inspectOperations wantedKey (Reader.ofBytes ((record.drop 8).take 4)) (record.drop 12) found) := by
  rw [inspectWriteBatch]
  split_ifs with h
  · rfl
  · rw [littleUint32, if_neg (by omega)]
    rfl

private theorem inspectWriteBatch_over (base : Found) (record : Bytes) (found : Found) :
    inspectWriteBatch record wantedKey (onTop base found) =
      (inspectWriteBatch record wantedKey found).map (onTop base) := by
  rw [inspectWriteBatch_eq, inspectWriteBatch_eq]
  split_ifs
  · rfl
  · rw [inspectOperations_over]
    rfl

private theorem fragment_over (base : Found) (type : UInt8) (data : Bytes) (scan : Scan) :
    (Scan.onTop base scan).fragment wantedKey type data =
      (scan.fragment wantedKey type data).map (Scan.onTop base) := by
  have hbatch : ∀ record : Bytes, inspectWriteBatch record wantedKey (Scan.onTop base scan).found =
      (inspectWriteBatch record wantedKey scan.found).map (onTop base) :=
    fun record => inspectWriteBatch_over base record scan.found
  have hcollecting : (Scan.onTop base scan).collecting = scan.collecting := rfl
  have hfragmented : (Scan.onTop base scan).fragmented = scan.fragmented := rfl
  rw [Scan.fragment, Scan.fragment, hcollecting, hfragmented, hbatch, hbatch]
  simp only [inspectWriteBatch_eq]
  split_ifs <;> rfl

section Headers
variable {position : ℕ} {rest : Bytes} {scan : Scan} (h : ¬ rest.length < headerBytes)
  (hroom : ¬ remaining position < headerBytes)
include h hroom

theorem scanLog_zero (hzero : headerLength rest = 0 ∧ headerType rest = 0) :
    scanLog wantedKey position rest scan =
      scanLog wantedKey (position + remaining position) (rest.drop (remaining position)) scan.idle := by
  rw [scanLog, if_neg h, if_neg hroom, if_pos hzero]

variable (hzero : ¬ (headerLength rest = 0 ∧ headerType rest = 0))
include hzero

theorem scanLog_torn (hlong : headerLength rest > remaining position - headerBytes ∨
    headerLength rest > rest.length - headerBytes) : scanLog wantedKey position rest scan = .ok scan := by
  rw [scanLog, if_neg h, if_neg hroom, if_neg hzero, if_pos hlong]
  rfl

theorem scanLog_next (hfit : ¬ (headerLength rest > remaining position - headerBytes ∨
    headerLength rest > rest.length - headerBytes)) : scanLog wantedKey position rest scan = (do
      let scan ← scan.fragment wantedKey (headerType rest) ((rest.drop headerBytes).take (headerLength rest))
      scanLog wantedKey (position + headerBytes + headerLength rest)
        (rest.drop (headerBytes + headerLength rest)) scan) := by
  rw [scanLog, if_neg h, if_neg hroom, if_neg hzero, if_neg hfit]

end Headers

private theorem scanLog_over (base : Found) (position : ℕ) (rest : Bytes) (scan : Scan) :
    scanLog wantedKey position rest (Scan.onTop base scan) =
      (scanLog wantedKey position rest scan).map (Scan.onTop base) := by
  induction position, rest, scan using scanLog.induct with
  | case1 position rest scan h =>
    rw [scanLog_end h, scanLog_end h]
    rfl
  | case2 position rest scan h hshort ih => rw [scanLog_trailer hshort, ih, ← scanLog_trailer hshort]
  | case3 position rest scan h hroom hzero ih =>
    rw [scanLog_zero h hroom hzero, scanLog_zero h hroom hzero]
    exact ih
  | case4 position rest scan h hroom hzero hlong =>
    rw [scanLog_torn h hroom hzero hlong, scanLog_torn h hroom hzero hlong]
    rfl
  | case5 position rest scan h hroom hzero hfit ih =>
    rw [scanLog_next h hroom hzero hfit, scanLog_next h hroom hzero hfit, fragment_over]
    cases scan.fragment wantedKey (headerType rest) ((rest.drop headerBytes).take (headerLength rest)) with
    | error e => rfl
    | ok scan' => exact ih scan'

/-- The last operation of a log on the wanted key: what it leaves there, if there is one. -/
def effect (wantedKey log : Bytes) : Option (Option Bytes) :=
  match scanLog wantedKey 0 log {} with
  | .ok scan => if scan.found.seen then some scan.found.value else none
  | .error _ => none

/-- Findings after the last operation. -/
def overwrite (found : Found) : Option (Option Bytes) → Found
  | none => found
  | some value => ⟨value, true⟩

private theorem fragment_ok (type : UInt8) (data : Bytes) (scan : Scan) :
    ∃ scan', scan.fragment wantedKey type data = .ok scan' := by
  rw [Scan.fragment]
  simp only [inspectWriteBatch_eq]
  split_ifs <;> exact ⟨_, rfl⟩

private theorem scanLog_ok (position : ℕ) (rest : Bytes) (scan : Scan) :
    ∃ scan', scanLog wantedKey position rest scan = .ok scan' := by
  induction position, rest, scan using scanLog.induct with
  | case1 position rest scan h => exact ⟨scan, scanLog_end h⟩
  | case2 position rest scan h hshort ih =>
    rw [scanLog_trailer hshort]
    exact ih
  | case3 position rest scan h hroom hzero ih =>
    rw [scanLog_zero h hroom hzero]
    exact ih
  | case4 position rest scan h hroom hzero hlong => exact ⟨scan, scanLog_torn h hroom hzero hlong⟩
  | case5 position rest scan h hroom hzero hfit ih =>
    obtain ⟨scan', hfragment⟩ := @fragment_ok wantedKey (headerType rest)
      ((rest.drop headerBytes).take (headerLength rest)) scan
    rw [scanLog_next h hroom hzero hfit, hfragment]
    exact ih scan'

private theorem scanLog_effect (log : Bytes) (found : Found) : ∃ scan,
    scanLog wantedKey 0 log { found } = .ok scan ∧ scan.found = overwrite found (effect wantedKey log) := by
  obtain ⟨scan, hscan⟩ := @scanLog_ok wantedKey 0 log {}
  have hover := @scanLog_over wantedKey found 0 log {}
  rw [hscan] at hover
  refine ⟨Scan.onTop found scan, hover, ?_⟩
  rw [effect, hscan]
  change onTop found scan.found = overwrite found (if scan.found.seen then some scan.found.value else none)
  rw [onTop]
  split_ifs with hseen
  · rw [overwrite, ← hseen]
  · rfl

/-- A log is inspected unless it is too large. -/
theorem inspectLevelDbLog_effect {path : String} {log : Bytes} {found : Found} (h : log.length ≤ maxCaptureBytes) :
    inspectLevelDbLog ⟨path, log⟩ wantedKey found = .ok (overwrite found (effect wantedKey log)) := by
  obtain ⟨scan, hscan, hfound⟩ := @scanLog_effect wantedKey log found
  rw [← hfound, inspectLevelDbLog]
  split_ifs with hempty
  · rw [scanLog_end (by change log.length = 0 at hempty; rw [hempty]; decide)] at hscan
    obtain rfl := Except.ok.inj hscan
    rfl
  · have hread : readFile ⟨path, log⟩ = .ok log := by
      rw [readFile, if_neg]
      · rfl
      · exact fun hc => hc.elim hempty (not_lt.mpr h)
    rw [hread]
    change (do let scan ← scanLog wantedKey 0 log { found }; return scan.found : Except String Found) = _
    rw [hscan]
    rfl

private theorem inspectLevelDbLog_large {path : String} {log : Bytes} {found : Found}
    (h : maxCaptureBytes < log.length) :
    inspectLevelDbLog ⟨path, log⟩ wantedKey found = .error ("invalid structure data size: " ++ path) := by
  have hne : ¬ log.length = 0 := by omega
  rw [inspectLevelDbLog, if_neg hne, readFile, if_pos (.inr h)]
  rfl

end Effects

section Files

/-- A log of LevelDB with its number. -/
structure Log where
  number : ℕ
  bytes : Bytes

/-- At least six digits. -/
def digits (number : ℕ) : List Char :=
  List.replicate (6 - (Nat.toDigits 10 number).length) '0' ++ Nat.toDigits 10 number

def fileName (number : ℕ) : List Char := digits number ++ ".log".toList

def Log.entry (log : Log) : DirectoryEntry := ⟨String.ofList (fileName log.number), true, log.bytes⟩

private theorem digits_inj {m n : ℕ} (h : digits m = digits n) : m = n := by
  have hvalue : ∀ n : ℕ, Nat.ofDigitChars 10 (digits n) 0 = n := by
    intro n
    rw [digits, Nat.ofDigitChars_append, Nat.ofDigitChars_replicate_zero, Nat.mul_zero, Nat.ofDigitChars_ten_toDigits]
  rw [← hvalue m, h, hvalue]

private theorem fileName_inj {m n : ℕ} (h : fileName m = fileName n) : m = n := digits_inj (List.append_cancel_right h)

private theorem extension_fileName (number : ℕ) : extension (fileName number) = ".log".toList := by
  have hsuffix : ((fileName number).reverse.takeWhile (· ≠ '.')).reverse = ['l', 'o', 'g'] := by
    rw [fileName, List.reverse_append]
    rfl
  have hlength : (fileName number).length = (digits number).length + 4 := List.length_append
  have hdigits : 0 < (digits number).length := by
    rw [digits, List.length_append]
    have := Nat.length_toDigits_pos (b := 10) (n := number)
    omega
  rw [extension]
  simp only [hsuffix]
  rw [if_pos (by rw [hlength]; simp only [List.length_cons, List.length_nil]; omega)]
  rfl

/-- The logs of one directory have different names. -/
structure LogDirectory where
  logs : List Log
  distinct : (logs.map Log.number).Nodup

variable {directory : LogDirectory}

theorem LogDirectory.log_eq {log log' : Log} (h : log ∈ directory.logs) (h' : log' ∈ directory.logs)
    (hnumber : log.number = log'.number) : log = log' :=
  List.inj_on_of_nodup_map directory.distinct h h' hnumber

def numberLe (log log' : Log) : Prop := log.number ≤ log'.number
def nameLe (log log' : Log) : Prop := fileName log.number ≤ fileName log'.number

instance : DecidableRel numberLe := fun log log' => inferInstanceAs (Decidable (log.number ≤ log'.number))
instance : DecidableRel nameLe := fun log log' =>
  inferInstanceAs (Decidable (fileName log.number ≤ fileName log'.number))

instance : Std.Total numberLe := ⟨fun log log' => Nat.le_total log.number log'.number⟩
instance : IsTrans Log numberLe := ⟨fun _ _ _ h h' => Nat.le_trans h h'⟩
instance : Std.Total nameLe := ⟨fun log log' => le_total (fileName log.number) (fileName log'.number)⟩
instance : IsTrans Log nameLe := ⟨fun _ _ _ h h' => le_trans (α := List Char) h h'⟩

theorem logFiles_entries (logs : List Log) :
    logFiles (logs.map Log.entry) = (logs.insertionSort nameLe).map Log.entry := by
  have hall : (logs.map Log.entry).filter (fun entry => entry.regular = true ∧
      extension entry.name.toList = ".log".toList) = logs.map Log.entry := by
    rw [List.filter_eq_self]
    intro entry hentry
    obtain ⟨log, -, rfl⟩ := List.mem_map.mp hentry
    simp only [Log.entry, String.toList_ofList, extension_fileName, and_self, decide_true]
  rw [logFiles, hall]
  refine (List.map_insertionSort nameLe pathLe Log.entry logs fun a _ b _ => ?_).symm
  simp only [nameLe, pathLe, Log.entry, String.toList_ofList]

end Files

section Order
variable {wantedKey : Bytes} {directory : LogDirectory}

/-- The effects of the logs that have one, in order. -/
def effects (wantedKey : Bytes) (logs : List Log) : List (Option Bytes) :=
  logs.filterMap fun log => effect wantedKey log.bytes

private theorem inspectLogs_effects {databasePath : String} {logs : List Log} (found : Found)
    (hsize : ∀ log ∈ logs, log.bytes.length ≤ maxCaptureBytes) :
    inspectLogs databasePath wantedKey (logs.map Log.entry) found =
      .ok (overwrite found (effects wantedKey logs).getLast?) := by
  induction logs generalizing found with
  | nil => rfl
  | cons log logs ih =>
    have hlog : inspectLevelDbLog ⟨databasePath ++ "/" ++ log.entry.name, log.entry.bytes⟩ wantedKey found =
        .ok (overwrite found (effect wantedKey log.bytes)) :=
      inspectLevelDbLog_effect (hsize log List.mem_cons_self)
    rw [List.map_cons, inspectLogs, hlog]
    refine (ih _ fun log' h => hsize log' (List.mem_cons_of_mem _ h)).trans ?_
    rw [effects, effects, List.filterMap_cons]
    cases effect wantedKey log.bytes with
    | none => rfl
    | some value =>
      rw [List.getLast?_cons]
      cases (logs.filterMap fun log => effect wantedKey log.bytes).getLast? <;> rfl

private theorem inspectLogs_large {databasePath : String} {logs : List Log} {log : Log} (found : Found)
    (hlog : log ∈ logs)
    (hsize : maxCaptureBytes < log.bytes.length) :
    ∃ path, inspectLogs databasePath wantedKey (logs.map Log.entry) found =
      .error ("invalid structure data size: " ++ path) := by
  induction logs generalizing found with
  | nil => cases hlog
  | cons log' logs ih =>
    rw [List.map_cons, inspectLogs]
    by_cases hlarge : maxCaptureBytes < log'.bytes.length
    · refine ⟨databasePath ++ "/" ++ log'.entry.name, ?_⟩
      change (do
        let found ← inspectLevelDbLog ⟨databasePath ++ "/" ++ log'.entry.name, log'.bytes⟩ wantedKey found
        inspectLogs databasePath wantedKey (logs.map Log.entry) found) = _
      rw [inspectLevelDbLog_large hlarge]
      rfl
    · have hrest : log ∈ logs := by
        rcases List.mem_cons.mp hlog with rfl | h
        · exact absurd hsize hlarge
        · exact h
      obtain ⟨path, hpath⟩ := ih (overwrite found (effect wantedKey log'.bytes)) hrest
      refine ⟨path, ?_⟩
      change (do
        let found ← inspectLevelDbLog ⟨databasePath ++ "/" ++ log'.entry.name, log'.bytes⟩ wantedKey found
        inspectLogs databasePath wantedKey (logs.map Log.entry) found) = _
      rw [inspectLevelDbLog_effect (not_lt.mp hlarge)]
      exact hpath

/-- The last log with an operation on the key, in an order of the logs. -/
structure IsLast (wantedKey : Bytes) (le : Log → Log → Prop) (directory : LogDirectory) (log : Log) : Prop where
  mem : log ∈ directory.logs
  operates : (effect wantedKey log.bytes).isSome = true
  after : ∀ log' ∈ directory.logs, (effect wantedKey log'.bytes).isSome = true → le log' log

private theorem getLast?_effects {le : Log → Log → Prop} {logs : List Log} (hsorted : logs.Pairwise le)
    (hrefl : ∀ log, le log log) {value : Option Bytes} (h : (effects wantedKey logs).getLast? = some value) :
    ∃ log ∈ logs, effect wantedKey log.bytes = some value ∧
      ∀ log' ∈ logs, (effect wantedKey log'.bytes).isSome = true → le log' log := by
  induction logs using List.reverseRecOn with
  | nil => cases h
  | append_singleton logs log ih =>
    obtain ⟨hfront, -, hlast⟩ := List.pairwise_append.mp hsorted
    rw [effects, List.filterMap_append, List.filterMap_cons, List.filterMap_nil] at h
    cases heffect : effect wantedKey log.bytes with
    | none =>
      rw [heffect, List.append_nil] at h
      obtain ⟨last, hmem, hvalue, hafter⟩ := ih hfront h
      refine ⟨last, List.mem_append_left _ hmem, hvalue, fun log' hlog' hsome => ?_⟩
      rcases List.mem_append.mp hlog' with h' | h'
      · exact hafter log' h' hsome
      · rw [List.mem_singleton.mp h', heffect] at hsome
        cases hsome
    | some value' =>
      rw [heffect, List.getLast?_append_of_ne_nil _ (List.cons_ne_nil _ _)] at h
      obtain rfl : value' = value := Option.some.inj h
      refine ⟨log, List.mem_append_right _ (List.mem_singleton_self log), heffect, fun log' hlog' _ => ?_⟩
      rcases List.mem_append.mp hlog' with h' | h'
      · exact hlast log' h' log (List.mem_singleton_self log)
      · rw [List.mem_singleton.mp h']
        exact hrefl log

section Sorted
variable {le : Log → Log → Prop} [DecidableRel le] [Std.Total le] [IsTrans Log le]

theorem isLast_of_getLast? {value : Option Bytes}
    (h : (effects wantedKey (directory.logs.insertionSort le)).getLast? = some value) :
    ∃ log, IsLast wantedKey le directory log ∧ effect wantedKey log.bytes = some value := by
  have hrefl : ∀ log, le log log := fun log => (Std.Total.total (r := le) log log).elim id id
  obtain ⟨log, hmem, hvalue, hafter⟩ := getLast?_effects (List.pairwise_insertionSort le _) hrefl h
  refine ⟨log, ⟨(List.mem_insertionSort le).mp hmem, hvalue ▸ rfl, fun log' h' => ?_⟩, hvalue⟩
  exact hafter log' ((List.mem_insertionSort le).mpr h')

omit [Std.Total le] [IsTrans Log le] in
/-- Where a log has an operation on the key, there is a last one. -/
theorem exists_getLast? {log : Log} (hlog : log ∈ directory.logs)
    (hsome : (effect wantedKey log.bytes).isSome = true) :
    ∃ value, (effects wantedKey (directory.logs.insertionSort le)).getLast? = some value := by
  obtain ⟨value, hvalue⟩ := Option.isSome_iff_exists.mp hsome
  have hne : effects wantedKey (directory.logs.insertionSort le) ≠ [] := by
    refine List.ne_nil_of_mem (a := value) (List.mem_filterMap.mpr ⟨log, ?_, hvalue⟩)
    exact (List.mem_insertionSort le).mpr hlog
  exact ⟨_, List.getLast?_eq_some_getLast hne⟩

theorem getLast?_sorted (hanti : ∀ log log', le log log' → le log' log → log.number = log'.number)
    (directory : LogDirectory) (value : Option Bytes) :
    (effects wantedKey (directory.logs.insertionSort le)).getLast? = some value ↔
      ∃ log, IsLast wantedKey le directory log ∧ effect wantedKey log.bytes = some value := by
  refine ⟨isLast_of_getLast?, ?_⟩
  rintro ⟨log, hlog, hvalue⟩
  obtain ⟨value', hsome⟩ := @exists_getLast? wantedKey directory le _ log hlog.mem hlog.operates
  obtain ⟨log', hlog', hvalue'⟩ := isLast_of_getLast? hsome
  have hsame : log' = log := directory.log_eq hlog'.mem hlog.mem
    (hanti log' log (hlog.after log' hlog'.mem hlog'.operates) (hlog'.after log hlog.mem hlog.operates))
  rw [hsame, hvalue] at hvalue'
  rw [hsome, hvalue']

end Sorted

/-- What is to be decoded once the last operation is known. -/
def outcome : Option (Option Bytes) → Except String Bytes
  | some (some value) => .ok value
  | _ => .error notFound

/-- The last operation on the structure's key, in the order of the log numbers. -/
def newestOperation (directory : LogDirectory) (structureName : String) : Option (Option Bytes) :=
  (effects (structureKey structureName) (directory.logs.insertionSort numberLe)).getLast?

/-- The newest operation decides what is decoded, and whether anything is found. -/
structure ReadsNewest (directory : LogDirectory) (structureName : String) : Prop where
  value : ∀ databasePath, structureValue databasePath (.ok (directory.logs.map Log.entry)) structureName =
    outcome (newestOperation directory structureName)
  decoded : ∀ databasePath value, newestOperation directory structureName = some (some value) →
    readItemFrameFromLevelDbLogs databasePath (.ok (directory.logs.map Log.entry)) structureName =
      decodeFrameItem value
  missing : ∀ databasePath,
    readItemFrameFromLevelDbLogs databasePath (.ok (directory.logs.map Log.entry)) structureName =
      .error (.runtime notFound) ↔
    newestOperation directory structureName = none ∨ newestOperation directory structureName = some none

/-- No log is too large, and the log that is named last ends like the newest one. -/
structure NewestNamedLast (wantedKey : Bytes) (directory : LogDirectory) : Prop where
  size : ∀ log ∈ directory.logs, log.bytes.length ≤ maxCaptureBytes
  ends : ∀ newest last, IsLast wantedKey numberLe directory newest → IsLast wantedKey nameLe directory last →
    effect wantedKey last.bytes = effect wantedKey newest.bytes

variable {structureName : String}

theorem structureValue_outcome (databasePath : String)
    (hsize : ∀ log ∈ directory.logs, log.bytes.length ≤ maxCaptureBytes) :
    structureValue databasePath (.ok (directory.logs.map Log.entry)) structureName =
      outcome (effects (structureKey structureName) (directory.logs.insertionSort nameLe)).getLast? := by
  have hsorted : ∀ log ∈ directory.logs.insertionSort nameLe, log.bytes.length ≤ maxCaptureBytes :=
    fun log hlog => hsize log ((List.mem_insertionSort nameLe).mp hlog)
  simp only [structureValue, logFiles_entries, inspectLogs_effects {} hsorted]
  rcases (effects (structureKey structureName) (directory.logs.insertionSort nameLe)).getLast? with _ | _ | value
  · rfl
  · rfl
  · rfl

private theorem structureValue_large (databasePath : String) {log : Log} (hlog : log ∈ directory.logs)
    (hsize : maxCaptureBytes < log.bytes.length) : ∃ path,
    structureValue databasePath (.ok (directory.logs.map Log.entry)) structureName =
      .error ("invalid structure data size: " ++ path) := by
  obtain ⟨path, hpath⟩ := @inspectLogs_large (structureKey structureName) databasePath _ log {}
    ((List.mem_insertionSort nameLe).mpr hlog) hsize
  refine ⟨path, ?_⟩
  simp only [structureValue, logFiles_entries, hpath]
  rfl

/-- No value makes the reader report that there is none. -/
theorem decodeFrameItem_ne_notFound (value : Bytes) : decodeFrameItem value ≠ .error (.runtime notFound) := by
  intro h
  rw [decodeFrameItem] at h
  cases hroot : BedrockNbtReader.root value with
  | error e =>
    rw [hroot] at h
    obtain rfl : e = .runtime notFound := Except.error.inj h
    have hfirst : ∀ type : ℕ, "unsupported mcstructure NBT type " ++ toString type ≠ notFound := by
      intro type heq
      have hhead := congrArg (fun s : String => s.toList.head?) heq
      rw [String.toList_append] at hhead
      cases hhead
    generalize hwhat : CodecError.runtime notFound = e at hroot
    cases BedrockNbtReader.root_raises hroot with
    | unsupported type => exact hfirst type (CodecError.runtime.inj hwhat).symm
    | _ => revert hwhat; decide
  | ok entries =>
    rw [hroot] at h
    have hdeep := findItem_error _ h
    revert hdeep
    decide

theorem ReadsNewest.of_value (h : ∀ databasePath,
    structureValue databasePath (.ok (directory.logs.map Log.entry)) structureName =
      outcome (newestOperation directory structureName)) : ReadsNewest directory structureName := by
  refine ⟨h, fun databasePath value hnewest => ?_, fun databasePath => ?_⟩
  · rw [readItemFrameFromLevelDbLogs, h, hnewest]
    rfl
  · rw [readItemFrameFromLevelDbLogs, h]
    rcases newestOperation directory structureName with _ | _ | value
    · exact iff_of_true rfl (.inl rfl)
    · exact iff_of_true rfl (.inr rfl)
    · exact iff_of_false (decodeFrameItem_ne_notFound value) (by simp)

theorem invalidSize_ne (path : String) : "invalid structure data size: " ++ path ≠ notFound := by
  intro h
  have hfirst := congrArg (fun s : String => s.toList.head?) h
  rw [String.toList_append] at hfirst
  cases hfirst

private theorem numberLe_antisymm (log log' : Log) (h : numberLe log log') (h' : numberLe log' log) :
    log.number = log'.number := Nat.le_antisymm h h'

theorem nameLe_antisymm (log log' : Log) (h : nameLe log log') (h' : nameLe log' log) :
    log.number = log'.number := fileName_inj (le_antisymm (α := List Char) h h')

/-- Exactly then the newest log wins. -/
theorem newest_log_wins (directory : LogDirectory) (structureName : String) :
    ReadsNewest directory structureName ↔ NewestNamedLast (structureKey structureName) directory := by
  have hname := @getLast?_sorted (structureKey structureName) nameLe _ _ _ nameLe_antisymm directory
  have hnumber := @getLast?_sorted (structureKey structureName) numberLe _ _ _ numberLe_antisymm directory
  refine ⟨fun h => ?_, fun h => .of_value fun databasePath => ?_⟩
  · have hread := h.value ""
    have hsize : ∀ log ∈ directory.logs, log.bytes.length ≤ maxCaptureBytes := by
      intro log hlog
      by_contra hlarge
      obtain ⟨path, hpath⟩ := @structureValue_large directory structureName "" log hlog (not_le.mp hlarge)
      rw [hpath] at hread
      rcases hlast : newestOperation directory structureName with _ | _ | value
      · rw [hlast] at hread
        exact invalidSize_ne path (Except.error.inj hread)
      · rw [hlast] at hread
        exact invalidSize_ne path (Except.error.inj hread)
      · rw [hlast] at hread
        cases hread
    refine ⟨hsize, fun newest last hnewest hlast => ?_⟩
    obtain ⟨value, hvalue⟩ := Option.isSome_iff_exists.mp hnewest.operates
    obtain ⟨value', hvalue'⟩ := Option.isSome_iff_exists.mp hlast.operates
    rw [structureValue_outcome "" hsize, newestOperation, (hnumber value).mpr ⟨newest, hnewest, hvalue⟩,
      (hname value').mpr ⟨last, hlast, hvalue'⟩] at hread
    rw [hvalue, hvalue']
    cases value <;> cases value' <;> cases hread <;> rfl
  · rw [structureValue_outcome databasePath h.size, newestOperation]
    congr 1
    refine Option.ext fun value => ?_
    rw [hname, hnumber]
    refine ⟨?_, ?_⟩
    · rintro ⟨last, hlast, hvalue⟩
      obtain ⟨value', hsome⟩ := @exists_getLast? _ _ numberLe _ last hlast.mem hlast.operates
      obtain ⟨newest, hnewest, -⟩ := isLast_of_getLast? hsome
      exact ⟨newest, hnewest, (h.ends newest last hnewest hlast) ▸ hvalue⟩
    · rintro ⟨newest, hnewest, hvalue⟩
      obtain ⟨value', hsome⟩ := @exists_getLast? _ _ nameLe _ newest hnewest.mem hnewest.operates
      obtain ⟨last, hlast, -⟩ := isLast_of_getLast? hsome
      exact ⟨last, hlast, (h.ends newest last hnewest hlast).trans hvalue⟩

/-- Names in the order of the numbers. -/
theorem NewestNamedLast.of_names (hsize : ∀ log ∈ directory.logs, log.bytes.length ≤ maxCaptureBytes)
    (hnames : ∀ log ∈ directory.logs, ∀ log' ∈ directory.logs, numberLe log log' → nameLe log log') :
    NewestNamedLast wantedKey directory := by
  refine ⟨hsize, fun newest last hnewest hlast => ?_⟩
  have hle : nameLe last newest := hnames last hlast.mem newest hnewest.mem
    (hnewest.after last hlast.mem hlast.operates)
  have hge : nameLe newest last := hlast.after newest hnewest.mem hnewest.operates
  rw [directory.log_eq hlast.mem hnewest.mem (nameLe_antisymm last newest hle hge)]

end Order

section Written
variable {wantedKey : Bytes} {checksum : UInt8 → Bytes → ℕ}

/-- The effect of a log that LevelDB wrote is that of its last operation on the key. -/
theorem effect_writeLog {batches : List Batch} (hsize : (writeLog checksum 0 batches).length ≤ maxCaptureBytes) :
    effect wantedKey (writeLog checksum 0 batches) =
      (lastOn wantedKey (operationsOf batches)).map Operation.value := by
  have hall : ∀ batch ∈ batches, batch.bytes.length ≤ maxCaptureBytes :=
    fun batch hb => (length_le_writeLog checksum hb).trans hsize
  obtain ⟨scan, hscan, hfound⟩ := @scanLog_writeLog wantedKey checksum 0 batches
    (writeLog checksum 0 batches).length {} hall
  rw [List.take_length] at hscan
  rw [Nat.zero_add, batchesInside_all checksum (Nat.zero_add _).le, foldl_apply] at hfound
  rw [effect, hscan]
  simp only [hfound]
  cases lastOn wantedKey (operationsOf batches) <;> rfl

/-- A log with one batch that puts a value. -/
def putLog (number : ℕ) (key value : Bytes) : Log :=
  ⟨number, writeLog (fun _ _ => 0) 0 [⟨1, [.put key value]⟩]⟩

private theorem putLog_effect {number : ℕ} {key value : Bytes} (hkey : key.length < 128) (hvalue : value.length < 128) :
    (putLog number key value).bytes.length ≤ maxCaptureBytes ∧
      effect key (putLog number key value).bytes = some (some value) := by
  have hbatch : (Batch.bytes ⟨1, [.put key value]⟩).length ≤ 300 := by
    rw [Batch.bytes_length]
    simp only [operationsBytes, List.flatMap_cons, List.flatMap_nil, List.append_nil, Operation.bytes, counted,
      varint32_small hkey, varint32_small hvalue, List.length_cons, List.length_append, List.length_nil]
    omega
  have hfit : (Batch.bytes ⟨1, [.put key value]⟩).length ≤ remaining 0 - headerBytes := hbatch.trans (by decide)
  have hsize : (putLog number key value).bytes.length ≤ maxCaptureBytes := by
    rw [putLog, writeLog_cons, emit_whole _ true (by decide) hfit, writeLog, List.append_nil, physicalRecord_length]
    have : headerBytes + 300 ≤ maxCaptureBytes := by decide
    omega
  refine ⟨hsize, ?_⟩
  rw [putLog, effect_writeLog hsize]
  simp [operationsOf, lastOn, Operation.key, Operation.value]

def blockEntityDataKey : Bytes := "block_entity_data".toUTF8.toList

/-- The NBT of a saved frame that holds one item. -/
def frameEntries (type : Bytes) : List (Bytes × Nbt) :=
  [(blockEntityDataKey, .compound [(itemKey, .compound [(countKey, .byte 1), (nameKey, .string type)])])]

def savedFrame (type : Bytes) : Bytes := writeRoot [] (frameEntries type)

private theorem keys_ne : (nameKey == countKey) = false ∧ (damageKey == countKey) = false ∧
    (damageKey == nameKey) = false ∧ (tagKey == countKey) = false ∧ (tagKey == nameKey) = false ∧
    (itemKey == blockEntityDataKey) = false := by
  decide +kernel

private theorem frameEntries_wellFormed {type : Bytes} (hlength : type.length ≤ 65535) :
    (Nbt.compound (frameEntries type)).WellFormed := by
  simp only [frameEntries, Nbt.WellFormed, EntriesWellFormed, Nbt.type, List.map_cons, List.map_nil]
  refine ⟨by decide +kernel, ⟨by decide +kernel, by decide, by decide +kernel, ⟨by decide +kernel, by decide,
    by decide +kernel, ?_⟩, trivial⟩, trivial⟩
  exact ⟨⟨by decide +kernel, by decide, trivial⟩, ⟨by decide +kernel, by decide, hlength⟩, trivial⟩

private theorem root_savedFrame {type : Bytes} (hlength : type.length ≤ 65535) :
    BedrockNbtReader.root (savedFrame type) = .ok [(blockEntityDataKey, .compound
      [(itemKey, .compound [(countKey, .byte 1), (nameKey, .string type)])])] := by
  have hsorted : ∀ {entries : Entries}, entries.Pairwise (fun e e' => e.1 ≤ e'.1) → byKey entries = entries :=
    fun h => List.mergeSort_of_pairwise (h.imp fun h => decide_eq_true h)
  have hkeys : countKey ≤ nameKey := by decide +kernel
  have hname : ([] : Bytes).length ≤ 65535 := Nat.zero_le _
  have hread := root_written hname (frameEntries_wellFormed hlength) []
  rw [List.append_nil] at hread
  rw [savedFrame, hread]
  simp only [frameEntries, entryTags, Nbt.toTag]
  rw [hsorted (List.pairwise_pair.mpr hkeys), hsorted (List.pairwise_singleton _ _),
    hsorted (List.pairwise_singleton _ _)]

theorem decode_savedFrame {type : Bytes} (hlength : type.length ≤ 65535) (hnonempty : type ≠ []) (hair : type ≠ air) :
    decodeFrameItem (savedFrame type) = .ok (some ⟨type, 0, []⟩) := by
  obtain ⟨hcount, hdamage, hdamage', htag, htag', houter⟩ := keys_ne
  have hitem : itemFromCompound [(itemKey, .compound [(countKey, .byte 1), (nameKey, .string type)])] =
      some ⟨type, 0, []⟩ := by
    simp [itemFromCompound, List.lookup_cons, List.lookup_nil, hcount, numberAt, numeric, hdamage, hdamage', nbtOf, htag, htag',
      hnonempty, hair, toInt32]
  have hnone : ∀ tag, itemFromCompound [(blockEntityDataKey, tag)] = none := fun tag => by
    simp [itemFromCompound, List.lookup_cons, List.lookup_nil, houter]
  rw [decodeFrameItem, root_savedFrame hlength]
  change findItem 0 _ = _
  rw [findItem_eq 0 _ (by simp [depth, depthOfEntries])]
  simp only [compounds, compoundsOfEntries, List.findSome?_cons, hnone, List.cons_append, hitem]

def stone : Bytes := "minecraft:stone".toUTF8.toList
def dirt : Bytes := "minecraft:dirt".toUTF8.toList

/-- The structure saved with `stone`, and with `dirt` five logs later. -/
def twelfth : LogDirectory where
  logs := [putLog 7 (structureKey "frame") (savedFrame stone), putLog 12 (structureKey "frame") (savedFrame dirt)]
  distinct := by decide

theorem savedLog_effect {number : ℕ} {type : Bytes} (h : (savedFrame type).length < 128) :
    (putLog number (structureKey "frame") (savedFrame type)).bytes.length ≤ maxCaptureBytes ∧
      effect (structureKey "frame") (putLog number (structureKey "frame") (savedFrame type)).bytes =
        some (some (savedFrame type)) := by
  refine putLog_effect ?_ h
  rw [structureKey, toUTF8_toList]
  decide

theorem twelfth_reads_new : ReadsNewest twelfth "frame" := by
  refine (newest_log_wins twelfth "frame").mpr (.of_names ?_ ?_)
  · intro log hlog
    rcases List.mem_cons.mp hlog with rfl | hlog
    · exact (savedLog_effect (by decide +kernel)).1
    · rw [List.mem_singleton.mp hlog]
      exact (savedLog_effect (by decide +kernel)).1
  · intro log hlog log' hlog'
    have hnumbers : ∀ n ∈ [7, 12], ∀ m ∈ [7, 12], n ≤ m → fileName n ≤ fileName m := by decide
    exact hnumbers _ (List.mem_map_of_mem (f := Log.number) hlog) _ (List.mem_map_of_mem (f := Log.number) hlog')

/-- The structure saved with `stone` in the log before the millionth, and with `dirt` in the millionth. -/
def millionth : LogDirectory where
  logs := [putLog 999999 (structureKey "frame") (savedFrame stone),
    putLog 1000000 (structureKey "frame") (savedFrame dirt)]
  distinct := by decide

/-- The item of the older log is read. -/
theorem millionth_reads_old : newestOperation millionth "frame" = some (some (savedFrame dirt)) ∧
    decodeFrameItem (savedFrame dirt) = .ok (some ⟨dirt, 0, []⟩) ∧
    readItemFrameFromLevelDbLogs "" (.ok (millionth.logs.map Log.entry)) "frame" = .ok (some ⟨stone, 0, []⟩) ∧
    ¬ ReadsNewest millionth "frame" := by
  obtain ⟨hold, heffect⟩ := @savedLog_effect 999999 stone (by decide +kernel)
  obtain ⟨hnew, heffect'⟩ := @savedLog_effect 1000000 dirt (by decide +kernel)
  have hsize : ∀ log ∈ millionth.logs, log.bytes.length ≤ maxCaptureBytes := by
    intro log hlog
    rcases List.mem_cons.mp hlog with rfl | hlog
    · exact hold
    · rw [List.mem_singleton.mp hlog]
      exact hnew
  have hnames : millionth.logs.insertionSort nameLe =
      [putLog 1000000 (structureKey "frame") (savedFrame dirt),
        putLog 999999 (structureKey "frame") (savedFrame stone)] := by
    rw [millionth, List.insertionSort_cons, List.insertionSort_cons, List.insertionSort_nil, List.orderedInsert_nil,
      List.orderedInsert_cons, if_neg (by decide), List.orderedInsert_nil]
  have hnumbers : millionth.logs.insertionSort numberLe =
      [putLog 999999 (structureKey "frame") (savedFrame stone),
        putLog 1000000 (structureKey "frame") (savedFrame dirt)] := by
    rw [millionth, List.insertionSort_cons, List.insertionSort_cons, List.insertionSort_nil, List.orderedInsert_nil,
      List.orderedInsert_cons, if_pos (by decide)]
  have hnewest : newestOperation millionth "frame" = some (some (savedFrame dirt)) := by
    rw [newestOperation, hnumbers, effects]
    simp only [List.filterMap_cons, List.filterMap_nil, heffect, heffect']
    rfl
  have hvalue : structureValue "" (.ok (millionth.logs.map Log.entry)) "frame" = .ok (savedFrame stone) := by
    rw [structureValue_outcome "" hsize, hnames, effects]
    simp only [List.filterMap_cons, List.filterMap_nil, heffect, heffect']
    rfl
  have hdirt := @decode_savedFrame dirt (by decide +kernel) (by decide +kernel) (by decide +kernel)
  have hread : readItemFrameFromLevelDbLogs "" (.ok (millionth.logs.map Log.entry)) "frame" =
      .ok (some ⟨stone, 0, []⟩) := by
    rw [readItemFrameFromLevelDbLogs, hvalue]
    exact decode_savedFrame (by decide +kernel) (by decide +kernel) (by decide +kernel)
  refine ⟨hnewest, hdirt, hread, fun h => ?_⟩
  have hsame := hread.symm.trans ((h.decoded "" _ hnewest).trans hdirt)
  have htype : stone = dirt := congrArg CapturedFrameItem.type (Option.some.inj (Except.ok.inj hsame))
  revert htype
  decide +kernel

end Written

end EndstoneExchange.LevelDbLogOrder
