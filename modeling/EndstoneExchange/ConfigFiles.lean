import EndstoneExchange.MoneyText
import Mathlib.Data.Fintype.Basic

/-!
# Configuration files

A file is cut into lines, comments and blanks are taken off, and what is left assigns texts
to keys of a section. The texts are read by the types of the fields, and the values checked.
-/
namespace EndstoneExchange.ConfigFiles
open CheckedIntegers AsciiNumerals MoneyText

section Scanning

def text (s : String) : Bytes := s.toList.map ascii

def newline : UInt8 := ascii '\n'

/-- What `std::getline` reads until the file is at its end. -/
def lines : Bytes → List Bytes
  | [] => []
  | c :: rest =>
    if c = newline then [] :: lines rest
    else
      match lines rest with
      | [] => [[c]]
      | line :: rest => (c :: line) :: rest

/-- A comment begins outside of quotes. -/
def stripComment (quoted escaped : Bool) : Bytes → Bytes
  | [] => []
  | c :: rest =>
    if escaped = true then c :: stripComment quoted false rest
    else if c = backslash ∧ quoted = true then c :: stripComment quoted true rest
    else if c = quote then c :: stripComment (!quoted) false rest
    else if c = ascii '#' ∧ quoted = false then []
    else c :: stripComment quoted false rest

/-- The section the next lines belong to, and the assignments so far, the last one first. -/
structure Scan where
  heading : Bytes := []
  values : List (Bytes × Bytes) := []
  deriving DecidableEq, Repr

def qualified (heading key : Bytes) : Bytes :=
  (if heading = [] then [] else heading ++ [ascii '.']) ++ key

def readLine (number : ℕ) (scan : Scan) (raw : Bytes) : Checked String Scan :=
  let line := trim (stripComment false false raw)
  if line = [] then .ok scan
  else if line.head? = some (ascii '[') ∧ line.getLast? = some (ascii ']') then
    .ok { scan with heading := trim ((line.drop 1).take (line.length - 2)) }
  else if ascii '=' ∉ line then raise ("invalid configuration line " ++ toString number)
  else
    let key := trim (line.takeWhile (· != ascii '='))
    let value := trim (line.dropWhile (· != ascii '=')).tail
    .ok { scan with values := (qualified scan.heading key, value) :: scan.values }

def readLines : ℕ → Scan → List Bytes → Checked String Scan
  | _, scan, [] => .ok scan
  | number, scan, line :: lines => do readLines (number + 1) (← readLine (number + 1) scan line) lines

end Scanning

section Values

def unescape (c : UInt8) : UInt8 :=
  if c = ascii 'n' then newline else if c = ascii 'r' then ascii '\r' else if c = ascii 't' then ascii '\t' else c

def decode (escaped : Bool) : Bytes → Checked String Bytes
  | [] => if escaped = true then raise "unterminated escape in quoted configuration value" else .ok []
  | c :: rest =>
    if escaped = true then (decode false rest).map (unescape c :: ·)
    else if c = backslash then decode true rest
    else (decode false rest).map (c :: ·)

def unquote (raw : Bytes) : Checked String Bytes :=
  let value := trim raw
  if value.length ≥ 2 ∧ value.head? = some quote ∧ value.getLast? = some quote then
    decode false ((value.drop 1).take (value.length - 2))
  else .ok value

/-- The integer types of the fields. -/
structure IntegerType where
  min : ℤ
  max : ℤ
  deriving DecidableEq, Repr

def IntegerType.Holds (type : IntegerType) (n : ℤ) : Prop := type.min ≤ n ∧ n ≤ type.max

instance (type : IntegerType) (n : ℤ) : Decidable (type.Holds n) := inferInstanceAs (Decidable (_ ∧ _))

def int32 : IntegerType := ⟨-2147483648, 2147483647⟩

def uint32 : IntegerType := ⟨0, 4294967295⟩

def uint64 : IntegerType := ⟨0, 18446744073709551615⟩

/-- `std::from_chars` takes no minus sign for an unsigned type. -/
def fromCharsOf (type : IntegerType) (chars : Bytes) : Bytes × Except Errc ℤ :=
  let negative := type.min < 0 ∧ chars.head? = some (ascii '-')
  let body := if negative then chars.tail else chars
  let digits := body.takeWhile isDigit
  let value : ℤ := if negative then -(numeral digits) else numeral digits
  if digits = [] then (chars, .error .invalidArgument)
  else (body.dropWhile isDigit, if type.Holds value then .ok value else .error .resultOutOfRange)

def parseIntegerOf (type : IntegerType) (value : Bytes) (key : String) : Checked String ℤ :=
  match fromCharsOf type (trim value) with
  | ([], .ok result) => .ok result
  | _ => raise ("invalid integer for " ++ key)

def isUpper (b : UInt8) : Bool := ascii 'A' ≤ b && b ≤ ascii 'Z'

def isLower (b : UInt8) : Bool := ascii 'a' ≤ b && b ≤ ascii 'z'

def toLower (b : UInt8) : UInt8 := if isUpper b then b + 32 else b

def parseBool (raw : Bytes) (key : String) : Checked String Bool :=
  let value := (trim raw).map toLower
  if value = text "true" then .ok true
  else if value = text "false" then .ok false
  else raise ("invalid boolean for " ++ key)

end Values

section Loading

structure DatabaseConfig where
  host : Bytes := text "127.0.0.1"
  port : ℤ := 3306
  user : Bytes := text "exchange"
  password : Bytes := []
  name : Bytes := text "endstone_exchange"
  connectTimeoutSeconds : ℤ := 5
  deriving DecidableEq, Repr

structure MarketConfig where
  initialBalanceCents : ℤ := 1000000
  maxOrderQuantity : ℤ := 640
  priceMinCents : ℤ := 100
  priceMaxCents : ℤ := 500000
  priceStepCents : ℤ := 100
  orderBookDepth : ℤ := 5
  hologramRefreshTicks : ℤ := 20
  frameCaptureDelayTicks : ℤ := 80
  cleanupStructureCaptures : Bool := true
  deriving DecidableEq, Repr

structure EconomyConfig where
  provider : Bytes := text "internal"
  umoneyPlugin : Bytes := text "umoney"
  recoveryIntervalTicks : ℤ := 100
  deriving DecidableEq, Repr

structure Config where
  database : DatabaseConfig := {}
  market : MarketConfig := {}
  economy : EconomyConfig := {}
  deriving DecidableEq, Repr

def EconomyConfig.usesUmoney (economy : EconomyConfig) : Prop := economy.provider = text "umoney"

instance (economy : EconomyConfig) : Decidable economy.usesUmoney := inferInstanceAs (Decidable (_ = _))

def isNameByte (b : UInt8) : Bool := isDigit b || isUpper b || isLower b || b == ascii '_'

def check (bad : Prop) [Decidable bad] (what : String) : Checked String PUnit :=
  if bad then raise what else .ok ⟨⟩

def validateUmoney (config : Config) : Checked String PUnit := do
  check (config.economy.umoneyPlugin = [] ∨ newline ∈ config.economy.umoneyPlugin ∨
    ascii '\r' ∈ config.economy.umoneyPlugin) "economy.umoney_plugin must name a loaded plugin"
  check (config.market.initialBalanceCents ≠ 0) "UMoney mode requires market.initial_balance = 0"

def validate (config : Config) : Checked String PUnit := do
  let database := config.database
  let market := config.market
  let economy := config.economy
  check (database.host = [] ∨ database.user = [] ∨ database.name = [])
    "database host, user, and name must not be empty"
  check (database.port = 0 ∨ database.port > 65535 ∨ database.connectTimeoutSeconds = 0)
    "database port or timeout is invalid"
  check (database.name.all isNameByte = false)
    "database name may contain only letters, digits, and underscores"
  check (market.initialBalanceCents < 0 ∨ market.maxOrderQuantity ≤ 0 ∨ market.priceMinCents ≤ 0 ∨
    market.priceMaxCents < market.priceMinCents ∨ market.priceStepCents ≤ 0 ∨ market.orderBookDepth ≤ 0 ∨
    market.orderBookDepth > 50 ∨ market.hologramRefreshTicks = 0 ∨ market.frameCaptureDelayTicks = 0)
    "market limits are invalid"
  check (market.priceMaxCents > int64Max.tdiv market.maxOrderQuantity) "maximum order value is too large"
  check (market.priceMinCents.tmod 100 ≠ 0 ∨ market.priceMaxCents.tmod 100 ≠ 0 ∨
    market.priceStepCents.tmod 100 ≠ 0) "prices must use whole u units"
  check (economy.provider ≠ text "internal" ∧ economy.provider ≠ text "umoney")
    "economy.provider must be internal or umoney"
  check (economy.recoveryIntervalTicks = 0 ∨ economy.recoveryIntervalTicks > 72000)
    "economy recovery interval is invalid"
  if economy.usesUmoney then validateUmoney config else return ⟨⟩

variable (values : List (Bytes × Bytes))

/-- The last assignment to a key, or the default. -/
def valueOf {α : Type} (parse : Bytes → String → Checked String α) (key : String) (fallback : α) :
    Checked String α :=
  match values.lookup (text key) with
  | none => .ok fallback
  | some value => parse value key

def stringValue := valueOf values fun value _ => unquote value

def integerValue (type : IntegerType) := valueOf values (parseIntegerOf type)

def boolValue := valueOf values parseBool

def centsValue := valueOf values parseCents

def readDatabase (default : DatabaseConfig) : Checked String DatabaseConfig := do
  let host ← stringValue values "database.host" default.host
  let port ← integerValue values uint32 "database.port" default.port
  let user ← stringValue values "database.user" default.user
  let password ← stringValue values "database.password" default.password
  let name ← stringValue values "database.name" default.name
  let connectTimeoutSeconds ←
    integerValue values uint32 "database.connect_timeout_seconds" default.connectTimeoutSeconds
  return { host, port, user, password, name, connectTimeoutSeconds }

def readMarket (default : MarketConfig) : Checked String MarketConfig := do
  let initialBalanceCents ← centsValue values "market.initial_balance" default.initialBalanceCents
  let maxOrderQuantity ← integerValue values int32 "market.max_order_quantity" default.maxOrderQuantity
  let priceMinCents ← centsValue values "market.price_min" default.priceMinCents
  let priceMaxCents ← centsValue values "market.price_max" default.priceMaxCents
  let priceStepCents ← centsValue values "market.price_step" default.priceStepCents
  let orderBookDepth ← integerValue values int32 "market.order_book_depth" default.orderBookDepth
  let hologramRefreshTicks ←
    integerValue values uint64 "market.hologram_refresh_ticks" default.hologramRefreshTicks
  let frameCaptureDelayTicks ←
    integerValue values uint64 "market.frame_capture_delay_ticks" default.frameCaptureDelayTicks
  let cleanupStructureCaptures ←
    boolValue values "market.cleanup_structure_captures" default.cleanupStructureCaptures
  return { initialBalanceCents, maxOrderQuantity, priceMinCents, priceMaxCents, priceStepCents, orderBookDepth,
           hologramRefreshTicks, frameCaptureDelayTicks, cleanupStructureCaptures }

def readEconomy (default : EconomyConfig) : Checked String EconomyConfig := do
  let provider ← stringValue values "economy.provider" default.provider
  let umoneyPlugin ← stringValue values "economy.umoney_plugin" default.umoneyPlugin
  let recoveryIntervalTicks ←
    integerValue values uint64 "economy.recovery_interval_ticks" default.recoveryIntervalTicks
  return { provider := provider.map toLower, umoneyPlugin, recoveryIntervalTicks }

/-- `Config::load`; without a file there is nothing to read. -/
def load (file : Option Bytes) (path : String) : Checked String Config := do
  match file with
  | none => raise ("configuration file does not exist: " ++ path)
  | some content =>
    let scan ← readLines 0 {} (lines content)
    let database ← readDatabase scan.values {}
    let market ← readMarket scan.values {}
    let economy ← readEconomy scan.values {}
    validate { database, market, economy }
    return { database, market, economy }

end Loading

section Grammar

/-- A comment, or nothing. -/
inductive IsRemark : Bytes → Prop where
  | none : IsRemark []
  | comment (rest : Bytes) : IsRemark (ascii '#' :: rest)

/-- The bytes of keys and headings. -/
def IsWord (word : Bytes) : Prop := word ≠ [] ∧ ∀ b ∈ word, isLower b ∨ b = ascii '_'

instance (word : Bytes) : Decidable (IsWord word) := inferInstanceAs (Decidable (_ ∧ _))

/-- A value that no comment cuts off and trimming leaves as it is. -/
structure IsValue (value : Bytes) : Prop where
  ne_nil : value ≠ []
  line : newline ∉ value
  whole : ∀ rest, stripComment false false (value ++ rest) = value ++ stripComment false false rest
  first : ∀ b ∈ value.head?, isSpace b = false
  last : ∀ b ∈ value.getLast?, isSpace b = false

/-- The lines of a file, and what they do to the scan. -/
inductive Writes : Bytes → (Scan → Scan) → Prop where
  | blank {before remark : Bytes} (hbefore : Blank before) (hremark : IsRemark remark) :
      Writes (before ++ remark) id
  | heading {before name after remark : Bytes} (hbefore : Blank before) (hname : IsWord name) (hafter : Blank after)
      (hremark : IsRemark remark) :
      Writes (before ++ (ascii '[' :: name ++ [ascii ']']) ++ after ++ remark) fun scan => { scan with heading := name }
  | entry {before key left right value after remark : Bytes} (hbefore : Blank before) (hkey : IsWord key)
      (hleft : Blank left) (hright : Blank right) (hvalue : IsValue value) (hafter : Blank after)
      (hremark : IsRemark remark) :
      Writes (before ++ (key ++ left ++ ascii '=' :: (right ++ value)) ++ after ++ remark) fun scan =>
        { scan with values := (qualified scan.heading key, value) :: scan.values }

end Grammar

section Lines
variable {xs before after word value remark line : Bytes} {f : Scan → Scan}

theorem forall_byte {p : UInt8 → Prop} (h : ∀ n : Fin 256, p (UInt8.ofFin n)) (b : UInt8) : p b := by
  simpa using h b.toFin

theorem word_byte : ∀ b : UInt8, isLower b ∨ b = ascii '_' → isSpace b = false ∧ b ≠ quote ∧ b ≠ ascii '#' ∧
    b ≠ ascii '=' ∧ b ≠ ascii '[' ∧ b ≠ ascii ']' ∧ b ≠ newline := by
  refine forall_byte ?_
  decide +kernel

theorem blank_byte : ∀ b : UInt8, isSpace b → b ≠ quote ∧ b ≠ ascii '#' ∧ b ≠ ascii '=' := by
  refine forall_byte ?_
  decide +kernel

/-- Outside of quotes, only a quote or a comment matters. -/
theorem stripComment_plain (h : ∀ b ∈ xs, b ≠ quote ∧ b ≠ ascii '#') (rest : Bytes) :
    stripComment false false (xs ++ rest) = xs ++ stripComment false false rest := by
  induction xs with
  | nil => rfl
  | cons b xs ih =>
    obtain ⟨hquote, hhash⟩ := h b List.mem_cons_self
    rw [List.cons_append, stripComment]
    simp only [Bool.false_eq_true, if_false, and_false, hquote, hhash, false_and]
    rw [ih fun c hc => h c (List.mem_cons_of_mem _ hc), List.cons_append]

private theorem stripComment_remark (h : IsRemark remark) : stripComment false false remark = [] := by
  cases h with
  | none => rfl
  | comment rest => rfl

private theorem stripComment_word (h : IsWord word) (rest : Bytes) :
    stripComment false false (word ++ rest) = word ++ stripComment false false rest :=
  stripComment_plain (fun b hb => ⟨(word_byte b (h.2 b hb)).2.1, (word_byte b (h.2 b hb)).2.2.1⟩) rest

theorem stripComment_blank (h : Blank before) (rest : Bytes) :
    stripComment false false (before ++ rest) = before ++ stripComment false false rest :=
  stripComment_plain (fun b hb => ⟨(blank_byte b (h b hb)).1, (blank_byte b (h b hb)).2.1⟩) rest

theorem word_ends (h : IsWord word) :
    (∀ b ∈ word.head?, isSpace b = false) ∧ ∀ b ∈ word.getLast?, isSpace b = false :=
  ⟨fun b hb => (word_byte b (h.2 b (List.mem_of_mem_head? hb))).1,
    fun b hb => (word_byte b (h.2 b (List.mem_of_mem_getLast? hb))).1⟩

private theorem trim_word (h : IsWord word) : trim word = word := by
  simpa using trim_between blank_nil blank_nil (word_ends h).1 (word_ends h).2

private theorem blank_split (h : Blank before) : ∀ b ∈ before, (b != ascii '=') = true := fun b hb =>
  bne_iff_ne.mpr (blank_byte b (h b hb)).2.2

private theorem word_split (h : IsWord word) : ∀ b ∈ word, (b != ascii '=') = true := fun b hb =>
  bne_iff_ne.mpr (word_byte b (h.2 b hb)).2.2.2.1

/-- The rest of a line once its comment and the blanks around it are gone. -/
theorem bare_line (hbefore : Blank before) (hafter : Blank after) (hremark : IsRemark remark)
    (hwhole : ∀ rest, stripComment false false (xs ++ rest) = xs ++ stripComment false false rest)
    (hfirst : ∀ b ∈ xs.head?, isSpace b = false) (hlast : ∀ b ∈ xs.getLast?, isSpace b = false) :
    trim (stripComment false false (before ++ xs ++ after ++ remark)) = xs := by
  rw [List.append_assoc, List.append_assoc, stripComment_blank hbefore, hwhole, stripComment_blank hafter,
    stripComment_remark hremark, List.append_nil, ← List.append_assoc]
  exact trim_between hbefore hafter hfirst hlast

private theorem readLine_blank (hbefore : Blank before) (hremark : IsRemark remark) (number : ℕ) (scan : Scan) :
    readLine number scan (before ++ remark) = .ok scan := by
  have hbare : trim (stripComment false false (before ++ remark)) = [] := by
    simpa using @bare_line [] before [] remark hbefore blank_nil hremark (fun rest => rfl) (by simp) (by simp)
  simp only [readLine, hbare, if_true]

private theorem readLine_heading {name : Bytes} (hbefore : Blank before) (hname : IsWord name) (hafter : Blank after)
    (hremark : IsRemark remark) (number : ℕ) (scan : Scan) :
    readLine number scan (before ++ (ascii '[' :: name ++ [ascii ']']) ++ after ++ remark) =
      .ok { scan with heading := name } := by
  have hwhole : ∀ rest, stripComment false false ((ascii '[' :: name ++ [ascii ']']) ++ rest) =
      (ascii '[' :: name ++ [ascii ']']) ++ stripComment false false rest := by
    intro rest
    refine stripComment_plain (fun b hb => ?_) rest
    rcases List.mem_append.mp hb with hb | hb
    · rcases List.mem_cons.mp hb with rfl | hb
      · exact ⟨by decide, by decide⟩
      · exact ⟨(word_byte b (hname.2 b hb)).2.1, (word_byte b (hname.2 b hb)).2.2.1⟩
    · rw [List.mem_singleton.mp hb]
      exact ⟨by decide, by decide⟩
  have hlast : (ascii '[' :: name ++ [ascii ']']).getLast? = some (ascii ']') := List.getLast?_concat
  have hbare := bare_line hbefore hafter hremark hwhole (fun b hb => by cases hb; rfl)
    (fun b hb => by rw [hlast] at hb; cases hb; rfl)
  have hinner : ((ascii '[' :: name ++ [ascii ']']).drop 1).take
      ((ascii '[' :: name ++ [ascii ']']).length - 2) = name := by simp
  simp only [readLine, hbare]
  rw [if_neg (by simp), if_pos ⟨rfl, hlast⟩, hinner, trim_word hname]

private theorem readLine_entry {key left right : Bytes} (hbefore : Blank before) (hkey : IsWord key)
    (hleft : Blank left)
    (hright : Blank right) (hvalue : IsValue value) (hafter : Blank after) (hremark : IsRemark remark) (number : ℕ)
    (scan : Scan) :
    readLine number scan (before ++ (key ++ left ++ ascii '=' :: (right ++ value)) ++ after ++ remark) =
      .ok { scan with values := (qualified scan.heading key, value) :: scan.values } := by
  obtain ⟨first, key', rfl⟩ := List.exists_cons_of_ne_nil hkey.1
  have hfirst := word_byte first (hkey.2 first List.mem_cons_self)
  have hwhole : ∀ rest, stripComment false false ((first :: key' ++ left ++ ascii '=' :: (right ++ value)) ++ rest) =
      (first :: key' ++ left ++ ascii '=' :: (right ++ value)) ++ stripComment false false rest := by
    intro rest
    have hequals : stripComment false false (ascii '=' :: (right ++ (value ++ rest))) =
        ascii '=' :: stripComment false false (right ++ (value ++ rest)) := rfl
    have hassoc : first :: key' ++ left ++ ascii '=' :: (right ++ value) ++ rest =
        first :: key' ++ (left ++ ascii '=' :: (right ++ (value ++ rest))) := by simp
    rw [hassoc, stripComment_word hkey, stripComment_blank hleft, hequals, stripComment_blank hright, hvalue.whole]
    simp
  have hlast : ∀ b ∈ (first :: key' ++ left ++ ascii '=' :: (right ++ value)).getLast?, isSpace b = false := by
    intro b hb
    refine hvalue.last b ?_
    rw [List.getLast?_append_of_ne_nil _ (List.cons_ne_nil _ _), ← List.singleton_append,
      ← List.append_assoc, List.getLast?_append_of_ne_nil _ hvalue.ne_nil] at hb
    exact hb
  have hbare := bare_line hbefore hafter hremark hwhole (fun b hb => by cases hb; exact hfirst.1) hlast
  have hsplit : ∀ b ∈ first :: key' ++ left, (b != ascii '=') = true :=
    List.forall_mem_append.mpr ⟨word_split hkey, blank_split hleft⟩
  have htake : (first :: key' ++ left ++ ascii '=' :: (right ++ value)).takeWhile (· != ascii '=') =
      first :: key' ++ left := by
    rw [List.takeWhile_append_of_pos hsplit]
    simp
  have hdrop : (first :: key' ++ left ++ ascii '=' :: (right ++ value)).dropWhile (· != ascii '=') =
      ascii '=' :: (right ++ value) := by
    rw [List.dropWhile_append_of_pos hsplit]
    simp
  have htrim : trim (first :: key' ++ left) = first :: key' := by
    simpa using trim_between blank_nil hleft (word_ends hkey).1 (word_ends hkey).2
  have htrim' : trim (right ++ value) = value := by
    simpa using trim_between hright blank_nil hvalue.first hvalue.last
  simp only [readLine, hbare, htake, hdrop, htrim, List.tail_cons, htrim']
  rw [if_neg (by simp), if_neg (by simp [hfirst.2.2.2.2.1]), if_neg (by simp)]

private theorem readLine_writes (h : Writes line f) (number : ℕ) (scan : Scan) :
    readLine number scan line = .ok (f scan) := by
  cases h with
  | blank hbefore hremark => exact readLine_blank hbefore hremark number scan
  | heading hbefore hname hafter hremark => exact readLine_heading hbefore hname hafter hremark number scan
  | entry hbefore hkey hleft hright hvalue hafter hremark =>
    exact readLine_entry hbefore hkey hleft hright hvalue hafter hremark number scan

/-- Well-formed lines are read one after the other. -/
theorem readLines_writes {ls : List Bytes} {fs : List (Scan → Scan)} (h : List.Forall₂ Writes ls fs) (number : ℕ)
    (scan : Scan) : readLines number scan ls = .ok (fs.foldl (fun scan f => f scan) scan) := by
  induction h generalizing number scan with
  | nil => rfl
  | cons hline _ ih =>
    rw [readLines, readLine_writes hline, ok_bind, ih]
    rfl

private theorem lines_cons (h : newline ∉ line) (rest : Bytes) :
    lines (line ++ newline :: rest) = line :: lines rest := by
  induction line with
  | nil => rw [List.nil_append, lines, if_pos rfl]
  | cons c line ih =>
    rw [List.mem_cons, not_or] at h
    rw [List.cons_append, lines, if_neg (Ne.symm h.1), ih h.2]

/-- The text of some lines. -/
def unlines (ls : List Bytes) : Bytes := ls.flatMap (· ++ [newline])

theorem lines_unlines {ls : List Bytes} (h : ∀ line ∈ ls, newline ∉ line) : lines (unlines ls) = ls := by
  induction ls with
  | nil => rfl
  | cons line ls ih =>
    have hrest := ih fun l hl => h l (List.mem_cons_of_mem _ hl)
    rw [unlines, List.flatMap_cons, List.append_assoc, List.singleton_append,
      lines_cons (h line List.mem_cons_self), ← unlines, hrest]

end Lines

section Checks
variable {config : Config}

/-- The integers fit the types of their fields. -/
structure Config.Typed (config : Config) : Prop where
  port : uint32.Holds config.database.port
  timeout : uint32.Holds config.database.connectTimeoutSeconds
  initialBalance : Fits config.market.initialBalanceCents
  maxOrderQuantity : int32.Holds config.market.maxOrderQuantity
  priceMin : Fits config.market.priceMinCents
  priceMax : Fits config.market.priceMaxCents
  priceStep : Fits config.market.priceStepCents
  depth : int32.Holds config.market.orderBookDepth
  refresh : uint64.Holds config.market.hologramRefreshTicks
  delay : uint64.Holds config.market.frameCaptureDelayTicks
  interval : uint64.Holds config.economy.recoveryIntervalTicks

/-- What the checks of a configuration ask for. -/
structure Config.Sound (config : Config) : Prop where
  names : config.database.host ≠ [] ∧ config.database.user ≠ [] ∧ config.database.name ≠ []
  port : config.database.port ≠ 0 ∧ config.database.port ≤ 65535
  timeout : config.database.connectTimeoutSeconds ≠ 0
  nameBytes : config.database.name.all isNameByte
  initialBalance : 0 ≤ config.market.initialBalanceCents
  maxOrderQuantity : 0 < config.market.maxOrderQuantity
  prices : 0 < config.market.priceMinCents ∧ config.market.priceMinCents ≤ config.market.priceMaxCents ∧
    0 < config.market.priceStepCents
  depth : 0 < config.market.orderBookDepth ∧ config.market.orderBookDepth ≤ 50
  ticks : config.market.hologramRefreshTicks ≠ 0 ∧ config.market.frameCaptureDelayTicks ≠ 0
  value : config.market.priceMaxCents ≤ int64Max.tdiv config.market.maxOrderQuantity
  units : config.market.priceMinCents.tmod 100 = 0 ∧ config.market.priceMaxCents.tmod 100 = 0 ∧
    config.market.priceStepCents.tmod 100 = 0
  provider : config.economy.provider = text "internal" ∨ config.economy.provider = text "umoney"
  interval : config.economy.recoveryIntervalTicks ≠ 0 ∧ config.economy.recoveryIntervalTicks ≤ 72000
  umoney : config.economy.usesUmoney → config.economy.umoneyPlugin ≠ [] ∧ newline ∉ config.economy.umoneyPlugin ∧
    ascii '\r' ∉ config.economy.umoneyPlugin ∧ config.market.initialBalanceCents = 0

theorem check_ok {bad : Prop} [Decidable bad] {what : String} {u : PUnit} : check bad what = .ok u ↔ ¬ bad := by
  rw [check]
  split_ifs with h
  · exact iff_of_false (fun heq => nomatch heq) (not_not.mpr h)
  · exact iff_of_true rfl h

theorem check_bind {bad : Prop} [Decidable bad] {what : String} {α : Type} {x : Checked String α} {a : α} :
    (check bad what >>= fun _ => x) = .ok a ↔ ¬ bad ∧ x = .ok a := by
  rw [check]
  split_ifs with h
  · exact iff_of_false (fun heq => nomatch heq) fun hand => hand.1 h
  · exact (and_iff_right h).symm

theorem validate_ok : validate config = .ok ⟨⟩ ↔ config.Sound := by
  simp only [validate, validateUmoney, check_bind]
  constructor
  · rintro ⟨hnames, hport, hbytes, hlimits, hvalue, hunits, hprovider, hinterval, hrest⟩
    simp only [not_or, not_and_or, not_not, not_lt, not_le] at hnames hport hlimits hvalue hunits hprovider hinterval
    obtain ⟨hbalance, hquantity, hmin, hmax, hstep, hdepth, hdepth', hrefresh, hdelay⟩ := hlimits
    refine ⟨hnames, ⟨hport.1, hport.2.1⟩, hport.2.2, Bool.eq_true_of_not_eq_false hbytes, hbalance, hquantity,
      ⟨hmin, hmax, hstep⟩, ⟨hdepth, hdepth'⟩, ⟨hrefresh, hdelay⟩, hvalue, hunits, hprovider, hinterval,
      fun huses => ?_⟩
    rw [if_pos huses, check_bind, check_ok] at hrest
    simp only [not_or, not_not] at hrest
    exact ⟨hrest.1.1, hrest.1.2.1, hrest.1.2.2, hrest.2⟩
  · intro h
    refine ⟨?_, ?_, ?_, ?_, ?_, ?_, ?_, ?_, ?_⟩
    · simpa only [not_or] using h.names
    · simp only [not_or, not_lt]
      exact ⟨h.port.1, h.port.2, h.timeout⟩
    · simp [h.nameBytes]
    · simp only [not_or, not_lt, not_le]
      exact ⟨h.initialBalance, h.maxOrderQuantity, h.prices.1, h.prices.2.1, h.prices.2.2, h.depth.1, h.depth.2,
        h.ticks.1, h.ticks.2⟩
    · exact not_lt.mpr h.value
    · simpa only [not_or, not_not] using h.units
    · simpa only [not_and_or, not_not] using h.provider
    · simpa only [not_or, not_lt] using h.interval
    · split_ifs with huses
      · obtain ⟨hplugin, hnewline, hreturn, hbalance⟩ := h.umoney huses
        rw [check_bind, check_ok]
        simp only [not_or, not_not]
        exact ⟨⟨hplugin, hnewline, hreturn⟩, hbalance⟩
      · rfl

end Checks

section Loaded
variable {config : Config} {type : IntegerType} {values : List (Bytes × Bytes)} {n : ℤ}

theorem bind_ok {α β : Type} {x : Checked String α} {f : α → Checked String β} {b : β} :
    x >>= f = .ok b ↔ ∃ a, x = .ok a ∧ f a = .ok b := by
  cases x with
  | error e => exact iff_of_false (fun h => nomatch h) fun ⟨_, h, _⟩ => nomatch h
  | ok a =>
    constructor
    · exact fun h => ⟨a, rfl, h⟩
    · rintro ⟨_, ⟨⟩, h⟩
      exact h

private theorem parseIntegerOf_holds {value : Bytes} {key : String} (h : parseIntegerOf type value key = .ok n) :
    type.Holds n := by
  unfold parseIntegerOf at h
  split at h
  case h_1 result heq =>
    cases h
    unfold fromCharsOf at heq
    dsimp only at heq
    split_ifs at heq
    all_goals cases (Prod.mk.inj heq).2
    all_goals assumption
  case h_2 => cases h

theorem fits_of_checked {m : ℤ} (h : (checked m : Checked String ℤ) = .ok n) : Fits n := by
  unfold checked at h
  split_ifs at h with hfits
  cases h
  exact hfits

private theorem centsOf_fits {negative : Bool} {whole minor : ℤ} {key : String}
    (h : centsOf negative whole minor key = .ok n) : Fits n := by
  simp only [centsOf, bind_ok] at h
  obtain ⟨_, -, bound, -, h⟩ := h
  by_cases hlarge : whole > bound
  · rw [if_pos hlarge] at h
    cases h
  · rw [if_neg hlarge] at h
    obtain ⟨product, -, h⟩ := bind_ok.mp h
    obtain ⟨cents, hcents, h⟩ := bind_ok.mp h
    split_ifs at h
    · exact fits_of_checked h
    · cases h
      exact fits_of_checked hcents

private theorem parseCents_fits {value : Bytes} {key : String} (h : parseCents value key = .ok n) : Fits n := by
  unfold parseCents at h
  dsimp only at h
  by_cases hempty : trim value = []
  · rw [if_pos hempty] at h
    cases h
  · rw [if_neg hempty] at h
    split_ifs at h
    · cases h
    all_goals
      obtain ⟨whole, -, h⟩ := bind_ok.mp h
      obtain ⟨minor, -, h⟩ := bind_ok.mp h
      exact centsOf_fits h

/-- A field is what its parser returns, or the default. -/
theorem valueOf_ok {α : Type} {p : α → Prop} {parse : Bytes → String → Checked String α} {key : String} {a fallback : α}
    (h : valueOf values parse key fallback = .ok a) (hfallback : p fallback)
    (hparse : ∀ value a, parse value key = .ok a → p a) : p a := by
  unfold valueOf at h
  split at h
  · cases h
    exact hfallback
  · exact hparse _ a h

theorem integerValue_holds {key : String} {fallback : ℤ} (h : integerValue values type key fallback = .ok n)
    (hfallback : type.Holds fallback) : type.Holds n :=
  valueOf_ok h hfallback fun _ _ => parseIntegerOf_holds

theorem centsValue_fits {key : String} {fallback : ℤ} (h : centsValue values key fallback = .ok n)
    (hfallback : Fits fallback) : Fits n :=
  valueOf_ok h hfallback fun _ _ => parseCents_fits

/-- What is loaded fits its types and has passed the checks. -/
theorem load_sound {file : Option Bytes} {path : String} (h : load file path = .ok config) :
    config.Typed ∧ config.Sound := by
  cases file with
  | none => cases h
  | some content =>
    simp only [load, readDatabase, readMarket, readEconomy, bind_ok] at h
    obtain ⟨scan, -, database, ⟨_, -, port, hport, _, -, _, -, _, -, timeout, htimeout, hdatabase⟩, market,
      ⟨balance, hbalance, quantity, hquantity, priceMin, hmin, priceMax, hmax, priceStep, hstep, depth, hdepth, refresh,
        hrefresh, delay, hdelay, _, -, hmarket⟩, economy, ⟨_, -, _, -, interval, hinterval, heconomy⟩, ⟨⟩, hvalid,
      hconfig⟩ := h
    cases hdatabase
    cases hmarket
    cases heconomy
    cases hconfig
    refine ⟨⟨?_, ?_, ?_, ?_, ?_, ?_, ?_, ?_, ?_, ?_, ?_⟩, validate_ok.mp hvalid⟩
    · exact integerValue_holds hport (by decide)
    · exact integerValue_holds htimeout (by decide)
    · exact centsValue_fits hbalance (by decide)
    · exact integerValue_holds hquantity (by decide)
    · exact centsValue_fits hmin (by decide)
    · exact centsValue_fits hmax (by decide)
    · exact centsValue_fits hstep (by decide)
    · exact integerValue_holds hdepth (by decide)
    · exact integerValue_holds hrefresh (by decide)
    · exact integerValue_holds hdelay (by decide)
    · exact integerValue_holds hinterval (by decide)

end Loaded

end EndstoneExchange.ConfigFiles
