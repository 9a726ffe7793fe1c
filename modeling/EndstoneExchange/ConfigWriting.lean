import EndstoneExchange.ConfigFiles
import Mathlib.Tactic.TFAE

/-!
# Writing configuration files

A configuration that passes the checks is written out in the layout of the template, with
its texts quoted, and read back as it was.
-/
namespace EndstoneExchange.ConfigWriting
open CheckedIntegers AsciiNumerals MoneyText ConfigFiles

section Writing

def escape (c : UInt8) : Bytes :=
  if c = quote ∨ c = backslash then [backslash, c] else if c = newline then [backslash, ascii 'n'] else [c]

def writeString (value : Bytes) : Bytes := quote :: value.flatMap escape ++ [quote]

def writeInteger (n : ℤ) : Bytes := decimal n.toNat

def writeCents (cents : ℤ) : Bytes :=
  decimal (cents.toNat / 100) ++ ascii '.' ::
    [ascii (cents.toNat % 100 / 10).digitChar, ascii (cents.toNat % 10).digitChar]

def writeBool (value : Bool) : Bytes := if value then text "true" else text "false"

def databaseEntries (database : DatabaseConfig) : List (String × Bytes) :=
  [("host", writeString database.host), ("port", writeInteger database.port), ("user", writeString database.user),
    ("password", writeString database.password), ("name", writeString database.name),
    ("connect_timeout_seconds", writeInteger database.connectTimeoutSeconds)]

def marketEntries (market : MarketConfig) : List (String × Bytes) :=
  [("initial_balance", writeCents market.initialBalanceCents),
    ("max_order_quantity", writeInteger market.maxOrderQuantity), ("price_min", writeCents market.priceMinCents),
    ("price_max", writeCents market.priceMaxCents), ("price_step", writeCents market.priceStepCents),
    ("order_book_depth", writeInteger market.orderBookDepth),
    ("hologram_refresh_ticks", writeInteger market.hologramRefreshTicks),
    ("frame_capture_delay_ticks", writeInteger market.frameCaptureDelayTicks),
    ("cleanup_structure_captures", writeBool market.cleanupStructureCaptures)]

def economyEntries (economy : EconomyConfig) : List (String × Bytes) :=
  [("provider", writeString economy.provider), ("umoney_plugin", writeString economy.umoneyPlugin),
    ("recovery_interval_ticks", writeInteger economy.recoveryIntervalTicks)]

def writeEntry (entry : String × Bytes) : Bytes := text entry.1 ++ text " = " ++ entry.2

def writeSection (name : String) (entries : List (String × Bytes)) : List Bytes :=
  (ascii '[' :: text name ++ [ascii ']']) :: entries.map writeEntry

/-- A file in the layout of the template, which spells every field out. -/
def write (config : Config) : Bytes :=
  unlines (writeSection "database" (databaseEntries config.database) ++
    writeSection "market" (marketEntries config.market) ++ writeSection "economy" (economyEntries config.economy))

end Writing

section Values
variable {value : Bytes} {n : ℤ}

theorem escape_cases (c : UInt8) : (∃ d, escape c = [backslash, d] ∧ unescape d = c ∧ d ≠ newline) ∨
    escape c = [c] ∧ c ≠ quote ∧ c ≠ backslash ∧ c ≠ newline := by
  by_cases hspecial : c = quote ∨ c = backslash
  · refine .inl ⟨c, if_pos hspecial, ?_⟩
    rcases hspecial with rfl | rfl <;> decide
  · by_cases hnewline : c = newline
    · exact .inl ⟨ascii 'n', by rw [escape, if_neg hspecial, if_pos hnewline], hnewline.symm, by decide⟩
    · rw [not_or] at hspecial
      exact .inr ⟨by rw [escape, if_neg (by tauto), if_neg hnewline], hspecial.1, hspecial.2, hnewline⟩

private theorem stripComment_content (value rest : Bytes) : stripComment true false (value.flatMap escape ++ rest) =
    value.flatMap escape ++ stripComment true false rest := by
  induction value with
  | nil => rfl
  | cons c value ih =>
    rw [List.flatMap_cons, List.append_assoc, List.append_assoc, ← ih]
    rcases escape_cases c with ⟨d, hescape, -, -⟩ | ⟨hescape, hquote, hbackslash, -⟩
    · rw [hescape]
      rfl
    · rw [hescape, List.singleton_append, stripComment]
      simp [hquote, hbackslash]

private theorem decode_content (value : Bytes) : decode false (value.flatMap escape) = .ok value := by
  induction value with
  | nil => rfl
  | cons c value ih =>
    rw [List.flatMap_cons]
    rcases escape_cases c with ⟨d, hescape, hd, -⟩ | ⟨hescape, -, hbackslash, -⟩
    · have hstep : decode false ([backslash, d] ++ value.flatMap escape) =
          (decode false (value.flatMap escape)).map (unescape d :: ·) := rfl
      rw [hescape, hstep, ih, hd]
      rfl
    · rw [hescape, List.singleton_append, decode, if_neg Bool.false_ne_true, if_neg hbackslash, ih]
      rfl

theorem writeString_last (value : Bytes) : (writeString value).getLast? = some quote := List.getLast?_concat

private theorem newline_not_mem_content (value : Bytes) : newline ∉ value.flatMap escape := by
  rw [List.mem_flatMap]
  rintro ⟨c, -, hc⟩
  rcases escape_cases c with ⟨d, hescape, -, hd⟩ | ⟨hescape, -, -, hne⟩
  · rw [hescape, List.mem_cons, List.mem_singleton] at hc
    exact hc.elim (by decide) fun h => hd h.symm
  · rw [hescape, List.mem_singleton] at hc
    exact hne hc.symm

theorem isValue_string (value : Bytes) : IsValue (writeString value) where
  ne_nil := List.cons_ne_nil _ _
  line hmem := by
    rcases List.mem_cons.mp hmem with hquote | hmem
    · exact absurd hquote (by decide)
    · rcases List.mem_append.mp hmem with hmem | hmem
      · exact newline_not_mem_content value hmem
      · exact absurd (List.mem_singleton.mp hmem) (by decide)
  whole rest := by
    have hopen : stripComment false false (quote :: (value.flatMap escape ++ quote :: rest)) =
        quote :: stripComment true false (value.flatMap escape ++ quote :: rest) := rfl
    have hclose : stripComment true false (quote :: rest) = quote :: stripComment false false rest := rfl
    have hassoc : writeString value ++ rest = quote :: (value.flatMap escape ++ quote :: rest) := by simp [writeString]
    rw [hassoc, hopen, stripComment_content, hclose]
    simp [writeString]
  first b hb := by cases hb; rfl
  last b hb := by
    rw [writeString_last] at hb
    cases hb
    rfl

private theorem unquote_string (value : Bytes) : unquote (writeString value) = .ok value := by
  have htrim : trim (writeString value) = writeString value := by
    have h := isValue_string value
    simpa using trim_between blank_nil blank_nil h.first h.last
  have hinner : ((writeString value).drop 1).take ((writeString value).length - 2) = value.flatMap escape := by
    simp [writeString]
  rw [unquote]
  simp only [htrim]
  rw [if_pos ⟨by simp [writeString], rfl, writeString_last value⟩, hinner, decode_content]

/-- A value without quotes, comments and blanks. -/
theorem isValue_plain (hne : value ≠ []) (h : ∀ b ∈ value, b ≠ quote ∧ b ≠ ascii '#' ∧ isSpace b = false) :
    IsValue value where
  ne_nil := hne
  line hmem := absurd (h newline hmem).2.2 (by decide)
  whole := stripComment_plain fun b hb => ⟨(h b hb).1, (h b hb).2.1⟩
  first b hb := (h b (List.mem_of_mem_head? hb)).2.2
  last b hb := (h b (List.mem_of_mem_getLast? hb)).2.2

theorem digit_plain {b : UInt8} (h : isDigit b) : b ≠ quote ∧ b ≠ ascii '#' ∧ isSpace b = false :=
  ⟨ne_of_isDigit h rfl, ne_of_isDigit h rfl, isSpace_of_isDigit h⟩

theorem isValue_integer (n : ℤ) : IsValue (writeInteger n) :=
  isValue_plain (decimal_ne_nil _) fun _ hb => digit_plain (isDigit_of_mem_decimal _ hb)

private theorem parseIntegerOf_written {type : IntegerType} (h : 0 ≤ n) (htype : type.Holds n) (key : String) :
    parseIntegerOf type (writeInteger n) key = .ok n := by
  have hdigits : AllDigits (writeInteger n) := isDigit_of_mem_decimal
  have hminus : ¬ (type.min < 0 ∧ (writeInteger n).head? = some (ascii '-')) := fun hminus =>
    absurd (hdigits _ (List.mem_of_mem_head? hminus.2)) (by decide)
  have hnum : (numeral (writeInteger n) : ℤ) = n := by
    rw [writeInteger, numeral_decimal, Int.toNat_of_nonneg h]
  have hread : fromCharsOf type (trim (writeInteger n)) = ([], .ok n) := by
    rw [hdigits.trim_eq]
    simp only [fromCharsOf, hminus, if_false, List.takeWhile_eq_self_iff.mpr hdigits,
      List.dropWhile_eq_nil_iff.mpr hdigits, hnum, if_pos htype]
    exact if_neg (decimal_ne_nil _)
  rw [parseIntegerOf, hread]

theorem pair_digits (m : ℕ) : AllDigits [ascii (m % 100 / 10).digitChar, ascii (m % 10).digitChar] ∧
    numeral [ascii (m % 100 / 10).digitChar, ascii (m % 10).digitChar] = m % 100 := by
  obtain ⟨htens, htens'⟩ := @digitValue_digitChar (m % 100 / 10) (by omega)
  obtain ⟨hones, hones'⟩ := @digitValue_digitChar (m % 10) (by omega)
  refine ⟨fun b hb => ?_, ?_⟩
  · rcases List.mem_cons.mp hb with rfl | hb
    · exact htens
    · exact List.mem_singleton.mp hb ▸ hones
  · rw [numeral, List.foldl_cons, List.foldl_cons, List.foldl_nil, htens', hones']
    omega

theorem isValue_cents (n : ℤ) : IsValue (writeCents n) := by
  refine isValue_plain (by simp [writeCents]) fun b hb => ?_
  rcases List.mem_append.mp hb with hb | hb
  · exact digit_plain (isDigit_of_mem_decimal _ hb)
  · rcases List.mem_cons.mp hb with rfl | hb
    · decide
    · exact digit_plain ((pair_digits n.toNat).1 b hb)

private theorem parseCents_written (h : 0 ≤ n) (hfits : Fits n) (key : String) :
    parseCents (writeCents n) key = .ok n := by
  have hvalue := isValue_cents n
  have htrim : trim (writeCents n) = writeCents n := by
    simpa using trim_between blank_nil blank_nil hvalue.first hvalue.last
  obtain ⟨hdigits, hnum⟩ := pair_digits n.toNat
  have hamount : IsAmount (writeCents n) (1 * (numeral (decimal (n.toNat / 100)) +
      numeral [ascii (n.toNat % 100 / 10).digitChar, ascii (n.toNat % 10).digitChar] / 10 ^ 2)) :=
    .point .none (decimal_ne_nil _) isDigit_of_mem_decimal (by simp) hdigits
  have hcents : (1 * ((numeral (decimal (n.toNat / 100)) : ℚ) +
      numeral [ascii (n.toNat % 100 / 10).digitChar, ascii (n.toNat % 10).digitChar] / 10 ^ 2)) * 100 = n := by
    have hsplit : ((n.toNat / 100 : ℕ) : ℤ) * 100 + (n.toNat % 100 : ℕ) = n := by omega
    have hcast : ∀ a b : ℕ, (a : ℤ) * 100 + b = n → (1 * ((a : ℚ) + b / 10 ^ 2)) * 100 = n := by
      rintro a b rfl
      push_cast
      ring
    rw [numeral_decimal, hnum]
    exact hcast _ _ hsplit
  obtain ⟨hne, hlen, hwhole, hfraction, -⟩ := isAmount_iff.mp hamount
  have hexact := @parsedExactly_of_digits _ key (htrim.symm ▸ hne) (htrim.symm ▸ hlen) (htrim.symm ▸ hwhole)
    (htrim.symm ▸ hfraction)
  refine (hexact.2 n).mpr ⟨_, htrim.symm ▸ hamount, ?_, hcents.symm⟩
  rw [hcents]
  have hle : (n : ℚ) ≤ int64Max := by exact_mod_cast hfits.2
  rwa [abs_of_nonneg (by exact_mod_cast h)]

private theorem isValue_bool (value : Bool) : IsValue (writeBool value) := by
  refine isValue_plain ?_ ?_ <;> cases value <;> decide +kernel

private theorem parseBool_written (value : Bool) (key : String) : parseBool (writeBool value) key = .ok value := by
  cases value with
  | true =>
    have hread : (trim (writeBool true)).map toLower = text "true" := by decide +kernel
    simp only [parseBool, hread, if_true]
  | false =>
    have hread : (trim (writeBool false)).map toLower = text "false" := by decide +kernel
    have hne : text "false" ≠ text "true" := by decide +kernel
    simp only [parseBool, hread, hne, if_false, if_true]

end Values

section RoundTrips
variable {config : Config} {entries : List (String × Bytes)} {values : List (Bytes × Bytes)} {name : String}

/-- The entries of a section, which can be written and read. -/
structure Writable (name : String) (entries : List (String × Bytes)) : Prop where
  heading : IsWord (text name)
  keys : ∀ key ∈ entries.map Prod.fst, IsWord (text key)
  values : ∀ value ∈ entries.map Prod.snd, IsValue value

/-- What the entries of a section add to the scan. -/
def entered (name : String) (entries : List (String × Bytes)) : List (Bytes × Bytes) :=
  entries.reverse.map fun entry => (qualified (text name) (text entry.1), entry.2)

private theorem text_equals : text " = " = [ascii ' '] ++ ascii '=' :: [ascii ' '] := by decide +kernel

private theorem writes_entry {entry : String × Bytes} (hkey : IsWord (text entry.1)) (hvalue : IsValue entry.2) :
    Writes (writeEntry entry) fun scan =>
      { scan with values := (qualified scan.heading (text entry.1), entry.2) :: scan.values } := by
  have hspace : Blank [ascii ' '] := by decide +kernel
  have hline := Writes.entry blank_nil hkey hspace hspace hvalue blank_nil .none
  rw [List.nil_append, List.append_nil, List.append_nil] at hline
  rw [writeEntry, text_equals]
  simpa using hline

/-- What the lines of a section do to the scan, one after the other. -/
def effects (name : String) (entries : List (String × Bytes)) : List (Scan → Scan) :=
  (fun scan => { scan with heading := text name }) :: entries.map fun entry scan =>
    { scan with values := (qualified scan.heading (text entry.1), entry.2) :: scan.values }

theorem writes_section (h : Writable name entries) :
    List.Forall₂ Writes (writeSection name entries) (effects name entries) := by
  refine .cons ?_ (List.forall₂_map_left_iff.mpr (List.forall₂_map_right_iff.mpr (List.forall₂_same.mpr fun e he => ?_)))
  · have hline := Writes.heading blank_nil h.heading blank_nil .none
    rwa [List.nil_append, List.append_nil, List.append_nil] at hline
  · exact writes_entry (h.keys _ (List.mem_map_of_mem he)) (h.values _ (List.mem_map_of_mem he))

theorem foldl_effects (scan : Scan) : (effects name entries).foldl (fun scan f => f scan) scan =
    ⟨text name, entered name entries ++ scan.values⟩ := by
  rw [effects, List.foldl_cons]
  induction entries generalizing scan with
  | nil => rfl
  | cons entry entries ih =>
    rw [List.map_cons, List.foldl_cons]
    exact (ih ⟨text name, (qualified (text name) (text entry.1), entry.2) :: scan.values⟩).trans (by simp [entered])

theorem newline_not_mem_section (h : Writable name entries) :
    ∀ line ∈ writeSection name entries, newline ∉ line := by
  have hword : ∀ word, IsWord word → newline ∉ word := fun word hw hmem =>
    (word_byte newline (hw.2 _ hmem)).2.2.2.2.2.2 rfl
  intro line hline
  rcases List.mem_cons.mp hline with rfl | hline
  · intro hmem
    rcases List.mem_append.mp hmem with hmem | hmem
    · rcases List.mem_cons.mp hmem with hbracket | hmem
      · exact absurd hbracket (by decide)
      · exact hword _ h.heading hmem
    · exact absurd (List.mem_singleton.mp hmem) (by decide)
  · obtain ⟨entry, hentry, rfl⟩ := List.mem_map.mp hline
    intro hmem
    rcases List.mem_append.mp hmem with hmem | hmem
    · rcases List.mem_append.mp hmem with hmem | hmem
      · exact hword _ (h.keys _ (List.mem_map_of_mem hentry)) hmem
      · exact absurd hmem (by decide +kernel)
    · exact (h.values _ (List.mem_map_of_mem hentry)).line hmem

private theorem writable_database (database : DatabaseConfig) : Writable "database" (databaseEntries database) where
  heading := by decide +kernel
  keys := by simp only [databaseEntries, List.map_cons, List.map_nil]; decide +kernel
  values value hvalue := by
    simp only [databaseEntries, List.map_cons, List.map_nil, List.mem_cons, List.not_mem_nil, or_false] at hvalue
    rcases hvalue with rfl | rfl | rfl | rfl | rfl | rfl
    all_goals first | exact isValue_string _ | exact isValue_integer _

private theorem writable_market (market : MarketConfig) : Writable "market" (marketEntries market) where
  heading := by decide +kernel
  keys := by simp only [marketEntries, List.map_cons, List.map_nil]; decide +kernel
  values value hvalue := by
    simp only [marketEntries, List.map_cons, List.map_nil, List.mem_cons, List.not_mem_nil, or_false] at hvalue
    rcases hvalue with rfl | rfl | rfl | rfl | rfl | rfl | rfl | rfl | rfl
    all_goals first | exact isValue_cents _ | exact isValue_integer _ | exact isValue_bool _

private theorem writable_economy (economy : EconomyConfig) : Writable "economy" (economyEntries economy) where
  heading := by decide +kernel
  keys := by simp only [economyEntries, List.map_cons, List.map_nil]; decide +kernel
  values value hvalue := by
    simp only [economyEntries, List.map_cons, List.map_nil, List.mem_cons, List.not_mem_nil, or_false] at hvalue
    rcases hvalue with rfl | rfl | rfl
    all_goals first | exact isValue_string _ | exact isValue_integer _

/-- What a written file assigns. -/
def written (config : Config) : List (Bytes × Bytes) :=
  entered "economy" (economyEntries config.economy) ++ (entered "market" (marketEntries config.market) ++
    (entered "database" (databaseEntries config.database) ++ []))

private theorem readLines_write (config : Config) :
    readLines 0 {} (lines (write config)) = .ok ⟨text "economy", written config⟩ := by
  have hdatabase := writable_database config.database
  have hmarket := writable_market config.market
  have heconomy := writable_economy config.economy
  have hwrites := List.rel_append (List.rel_append (writes_section hdatabase) (writes_section hmarket))
    (writes_section heconomy)
  rw [write, lines_unlines, readLines_writes hwrites, List.foldl_append, List.foldl_append, foldl_effects,
    foldl_effects, foldl_effects]
  · rfl
  · simp only [List.mem_append]
    rintro line ((hline | hline) | hline)
    · exact newline_not_mem_section hdatabase line hline
    · exact newline_not_mem_section hmarket line hline
    · exact newline_not_mem_section heconomy line hline

private theorem lookup_of_mem {key value : Bytes} (hnodup : (values.map Prod.fst).Nodup) (h : (key, value) ∈ values) :
    values.lookup key = some value := by
  induction values with
  | nil => cases h
  | cons e values ih =>
    rw [List.map_cons, List.nodup_cons] at hnodup
    rcases List.mem_cons.mp h with rfl | h
    · exact List.lookup_cons_self
    · have hne : (key == e.1) = false := by
        refine beq_false_of_ne ?_
        rintro rfl
        exact hnodup.1 (List.mem_map.mpr ⟨_, h, rfl⟩)
      rw [List.lookup_cons, hne]
      exact ih hnodup.2 h

private theorem written_keys (config : Config) : ((written config).map Prod.fst).Nodup := by
  simp only [written, entered, databaseEntries, marketEntries, economyEntries, List.reverse_cons, List.reverse_nil,
    List.nil_append, List.append_nil, List.cons_append, List.map_cons, List.map_nil]
  decide +kernel

theorem valueOf_written {α : Type} {parse : Bytes → String → Checked String α} {key full : String} {value : Bytes}
    {a fallback : α} (hmem : (key, value) ∈ entries)
    (hentered : ∀ e ∈ entered name entries, e ∈ written config) (hfull : text full = qualified (text name) (text key))
    (hparse : parse value full = .ok a) : valueOf (written config) parse full fallback = .ok a := by
  have hlookup : (written config).lookup (text full) = some value := by
    rw [hfull]
    exact lookup_of_mem (written_keys config) (hentered _ (List.mem_map.mpr ⟨_, List.mem_reverse.mpr hmem, rfl⟩))
  rw [valueOf, hlookup]
  exact hparse

theorem mem_written (config : Config) :
    (∀ e ∈ entered "database" (databaseEntries config.database), e ∈ written config) ∧
      (∀ e ∈ entered "market" (marketEntries config.market), e ∈ written config) ∧
        ∀ e ∈ entered "economy" (economyEntries config.economy), e ∈ written config :=
  ⟨fun _ he => List.mem_append_right _ (List.mem_append_right _ (List.mem_append_left _ he)),
    fun _ he => List.mem_append_right _ (List.mem_append_left _ he), fun _ he => List.mem_append_left _ he⟩

section Fields
variable (hentered : ∀ e ∈ entered name entries, e ∈ written config) {key full : String}
  (hfull : text full = qualified (text name) (text key))
include hentered hfull

theorem stringValue_written {value fallback : Bytes} (h : (key, writeString value) ∈ entries) :
    stringValue (written config) full fallback = .ok value :=
  valueOf_written h hentered hfull (unquote_string value)

theorem integerValue_written {type : IntegerType} {n fallback : ℤ} (h : (key, writeInteger n) ∈ entries)
    (hn : 0 ≤ n) (htype : type.Holds n) : integerValue (written config) type full fallback = .ok n :=
  valueOf_written h hentered hfull (parseIntegerOf_written hn htype full)

theorem centsValue_written {cents fallback : ℤ} (h : (key, writeCents cents) ∈ entries) (hcents : 0 ≤ cents)
    (hfits : Fits cents) : centsValue (written config) full fallback = .ok cents :=
  valueOf_written h hentered hfull (parseCents_written hcents hfits full)

private theorem boolValue_written {value fallback : Bool} (h : (key, writeBool value) ∈ entries) :
    boolValue (written config) full fallback = .ok value :=
  valueOf_written h hentered hfull (parseBool_written value full)

end Fields

private theorem readDatabase_written (htyped : config.Typed) (default : DatabaseConfig) :
    readDatabase (written config) default = .ok config.database := by
  have hmem := (mem_written config).1
  have host := @stringValue_written _ _ _ hmem "host" "database.host" (by decide +kernel) config.database.host
    default.host (by simp [databaseEntries])
  have port := @integerValue_written _ _ _ hmem "port" "database.port" (by decide +kernel) _ config.database.port
    default.port (by simp [databaseEntries]) htyped.port.1 htyped.port
  have user := @stringValue_written _ _ _ hmem "user" "database.user" (by decide +kernel) config.database.user
    default.user (by simp [databaseEntries])
  have password := @stringValue_written _ _ _ hmem "password" "database.password" (by decide +kernel)
    config.database.password default.password (by simp [databaseEntries])
  have databaseName := @stringValue_written _ _ _ hmem "name" "database.name" (by decide +kernel)
    config.database.name default.name (by simp [databaseEntries])
  have timeout := @integerValue_written _ _ _ hmem "connect_timeout_seconds" "database.connect_timeout_seconds"
    (by decide +kernel) _ config.database.connectTimeoutSeconds default.connectTimeoutSeconds
    (by simp [databaseEntries]) htyped.timeout.1 htyped.timeout
  rw [readDatabase, host, ok_bind, port, ok_bind, user, ok_bind, password, ok_bind, databaseName, ok_bind, timeout,
    ok_bind]
  rfl

private theorem readMarket_written (htyped : config.Typed) (hsound : config.Sound) (default : MarketConfig) :
    readMarket (written config) default = .ok config.market := by
  have hmem := (mem_written config).2.1
  obtain ⟨hmin, hmax, hstep⟩ := hsound.prices
  have balance := @centsValue_written _ _ _ hmem "initial_balance" "market.initial_balance" (by decide +kernel)
    config.market.initialBalanceCents default.initialBalanceCents (by simp [marketEntries]) hsound.initialBalance
    htyped.initialBalance
  have quantity := @integerValue_written _ _ _ hmem "max_order_quantity" "market.max_order_quantity"
    (by decide +kernel) _ config.market.maxOrderQuantity default.maxOrderQuantity (by simp [marketEntries])
    hsound.maxOrderQuantity.le htyped.maxOrderQuantity
  have priceMin := @centsValue_written _ _ _ hmem "price_min" "market.price_min" (by decide +kernel)
    config.market.priceMinCents default.priceMinCents (by simp [marketEntries]) hmin.le htyped.priceMin
  have priceMax := @centsValue_written _ _ _ hmem "price_max" "market.price_max" (by decide +kernel)
    config.market.priceMaxCents default.priceMaxCents (by simp [marketEntries]) (hmin.le.trans hmax) htyped.priceMax
  have priceStep := @centsValue_written _ _ _ hmem "price_step" "market.price_step" (by decide +kernel)
    config.market.priceStepCents default.priceStepCents (by simp [marketEntries]) hstep.le htyped.priceStep
  have depth := @integerValue_written _ _ _ hmem "order_book_depth" "market.order_book_depth" (by decide +kernel) _
    config.market.orderBookDepth default.orderBookDepth (by simp [marketEntries]) hsound.depth.1.le htyped.depth
  have refresh := @integerValue_written _ _ _ hmem "hologram_refresh_ticks" "market.hologram_refresh_ticks"
    (by decide +kernel) _ config.market.hologramRefreshTicks default.hologramRefreshTicks (by simp [marketEntries])
    htyped.refresh.1 htyped.refresh
  have delay := @integerValue_written _ _ _ hmem "frame_capture_delay_ticks" "market.frame_capture_delay_ticks"
    (by decide +kernel) _ config.market.frameCaptureDelayTicks default.frameCaptureDelayTicks
    (by simp [marketEntries]) htyped.delay.1 htyped.delay
  have cleanup := @boolValue_written _ _ _ hmem "cleanup_structure_captures" "market.cleanup_structure_captures"
    (by decide +kernel) config.market.cleanupStructureCaptures default.cleanupStructureCaptures
    (by simp [marketEntries])
  rw [readMarket, balance, ok_bind, quantity, ok_bind, priceMin, ok_bind, priceMax, ok_bind, priceStep, ok_bind, depth,
    ok_bind, refresh, ok_bind, delay, ok_bind, cleanup, ok_bind]
  rfl

private theorem readEconomy_written (htyped : config.Typed) (hsound : config.Sound) (default : EconomyConfig) :
    readEconomy (written config) default = .ok config.economy := by
  have hmem := (mem_written config).2.2
  have provider := @stringValue_written _ _ _ hmem "provider" "economy.provider" (by decide +kernel)
    config.economy.provider default.provider (by simp [economyEntries])
  have plugin := @stringValue_written _ _ _ hmem "umoney_plugin" "economy.umoney_plugin" (by decide +kernel)
    config.economy.umoneyPlugin default.umoneyPlugin (by simp [economyEntries])
  have interval := @integerValue_written _ _ _ hmem "recovery_interval_ticks" "economy.recovery_interval_ticks"
    (by decide +kernel) _ config.economy.recoveryIntervalTicks default.recoveryIntervalTicks
    (by simp [economyEntries]) htyped.interval.1 htyped.interval
  have hlower : config.economy.provider.map toLower = config.economy.provider := by
    rcases hsound.provider with h | h <;> rw [h] <;> decide +kernel
  rw [readEconomy, provider, ok_bind, plugin, ok_bind, interval, ok_bind, hlower]
  rfl

/-- Every configuration that passes the checks can be written to a file, whatever bytes its
texts are made of, and is read back as it is. -/
theorem load_write (htyped : config.Typed) (hvalid : validate config = .ok ⟨⟩) (path : String) :
    load (some (write config)) path = .ok config := by
  have hsound := validate_ok.mp hvalid
  rw [load, readLines_write, ok_bind, readDatabase_written htyped, ok_bind, readMarket_written htyped hsound, ok_bind,
    readEconomy_written htyped hsound, ok_bind, hvalid]
  rfl

/-- A configuration can be loaded exactly when it fits its types and passes the checks, and
then also from the file it is written to. -/
theorem loadable_tfae (config : Config) : [config.Typed ∧ config.Sound,
    ∃ file path, load file path = .ok config,
    ∀ path, load (some (write config)) path = .ok config].TFAE := by
  tfae_have 1 → 3 := fun ⟨htyped, hsound⟩ => load_write htyped (validate_ok.mpr hsound)
  tfae_have 3 → 2 := fun h => ⟨_, "", h ""⟩
  tfae_have 2 → 1 := fun ⟨_, _, h⟩ => load_sound h
  tfae_finish

/-- The file written where there is none. -/
def writeTemplate : Bytes := unlines ([
  "# Endstone Exchange configuration",
  "# Fill in the password locally. Do not commit this file.",
  "",
  "[database]",
  "host = \"127.0.0.1\"",
  "port = 3306",
  "user = \"exchange\"",
  "password = \"\"",
  "name = \"endstone_exchange\"",
  "connect_timeout_seconds = 5",
  "",
  "[market]",
  "initial_balance = 10000.00",
  "max_order_quantity = 640",
  "price_min = 1",
  "price_max = 5000",
  "price_step = 1",
  "order_book_depth = 5",
  "hologram_refresh_ticks = 20",
  "frame_capture_delay_ticks = 80",
  "cleanup_structure_captures = true",
  "",
  "[economy]",
  "# UMoney mode calls the loaded UMoney plugin directly and requires initial_balance = 0.",
  "provider = \"internal\"",
  "umoney_plugin = \"umoney\"",
  "recovery_interval_ticks = 100"].map text)

/-- The template spells the defaults out, and they pass the checks. -/
theorem load_writeTemplate (path : String) : load (some writeTemplate) path = .ok {} :=
  (by decide +kernel : load (some writeTemplate) "" = .ok {})

example : load (some (text "[database]\npassword = \"a#\\\"b\" # not \"this\"\n")) "config.toml" =
    .ok { database := { password := text "a#\"b" } } := by decide +kernel

end RoundTrips

end EndstoneExchange.ConfigWriting
