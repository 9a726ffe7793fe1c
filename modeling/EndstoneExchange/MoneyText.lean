import EndstoneExchange.AsciiNumerals
import Mathlib.Data.Rat.Defs
import Mathlib.Algebra.Order.Field.Rat
import Mathlib.Algebra.Order.Ring.Abs
import Mathlib.Tactic.FieldSimp
import Mathlib.Tactic.NormNum
import Mathlib.Tactic.Ring

/-!
# Money in the configuration

An amount is written in decimal notation and stored in cents. Its whole part and its
fraction are cut out of the text and read by the parser of integers, which takes a minus
sign and surrounding blanks of its own.
-/
namespace EndstoneExchange.MoneyText
open CheckedIntegers AsciiNumerals

section Parser

def parseInteger (value : Bytes) (key : String) : Checked String ℤ :=
  match fromChars (trim value) with
  | ([], .ok result) => .ok result
  | _ => raise ("invalid integer for " ++ key)

def negative (value : Bytes) : Bool := value.head? = some (ascii '-')

/-- The text behind a leading sign. -/
def unsigned (value : Bytes) : Bytes :=
  if value.head? = some (ascii '+') ∨ value.head? = some (ascii '-') then value.tail else value

def wholeText (value : Bytes) : Bytes := (unsigned value).takeWhile (· != ascii '.')

def fractionText (value : Bytes) : Bytes := ((unsigned value).dropWhile (· != ascii '.')).tail

def padded (fraction : Bytes) : Bytes := fraction ++ List.replicate (2 - fraction.length) (ascii '0')

def centsOf (negative : Bool) (whole minor : ℤ) (key : String) : Checked String ℤ := do
  let bound ← div (← sub int64Max minor) 100
  if whole > bound then raise ("money value is too large for " ++ key)
  else do
    let cents ← add (← mul whole 100) minor
    if negative then neg cents else pure cents

def parseCents (value : Bytes) (key : String) : Checked String ℤ :=
  let value := trim value
  if value = [] then raise ("empty money value for " ++ key)
  else
    let fraction := fractionText value
    if wholeText value = [] ∨ fraction.length > 2 ∨ ascii '.' ∈ fraction then
      raise ("invalid money value for " ++ key)
    else do
      let whole ← parseInteger (wholeText value) key
      let minor ← if padded fraction = [] then pure 0 else parseInteger (padded fraction) key
      centsOf (negative value) whole minor key

end Parser

section Grammar

inductive IsSign : Bytes → ℚ → Prop where
  | none : IsSign [] 1
  | plus : IsSign [ascii '+'] 1
  | minus : IsSign [ascii '-'] (-1)

/-- At most one sign, digits, and possibly a point with at most two digits behind it. -/
inductive IsAmount : Bytes → ℚ → Prop where
  | whole {sign digits : Bytes} {factor : ℚ} (hsign : IsSign sign factor) (hne : digits ≠ [])
      (hdigits : AllDigits digits) : IsAmount (sign ++ digits) (factor * numeral digits)
  | point {sign digits fraction : Bytes} {factor : ℚ} (hsign : IsSign sign factor) (hne : digits ≠ [])
      (hdigits : AllDigits digits) (hlen : fraction.length ≤ 2) (hfraction : AllDigits fraction) :
      IsAmount (sign ++ digits ++ ascii '.' :: fraction)
        (factor * (numeral digits + numeral fraction / 10 ^ fraction.length))

/-- The parser takes exactly the amounts of at most 2^63 - 1 cents, returns their cents, and
no operation overflows. -/
def ParsedExactly (value : Bytes) (key : String) : Prop :=
  NoOverflow (parseCents value key) ∧ ∀ cents : ℤ, parseCents value key = .ok cents ↔
    ∃ amount, IsAmount (trim value) amount ∧ |amount * 100| ≤ int64Max ∧ (cents : ℚ) = amount * 100

/-- A part of the text that is not all digits is nevertheless the text of an integer, and
so is the other part; unless the fraction is negative, they do not exceed the bound. -/
def ReadLoosely (value : Bytes) : Prop :=
  let whole := wholeText (trim value)
  let fraction := fractionText (trim value)
  fraction.length ≤ 2 ∧ ascii '.' ∉ fraction ∧ ¬ (AllDigits whole ∧ AllDigits fraction) ∧
    ∃ w m, (IsInteger (trim whole) w ∧ Fits w) ∧ (IsInteger (trim (padded fraction)) m ∧ Fits m) ∧
      (m < 0 ∨ w * 100 + m ≤ int64Max)

end Grammar

section Parts

theorem parseInteger_eq_ok {value : Bytes} {key : String} {n : ℤ} :
    parseInteger value key = .ok n ↔ IsInteger (trim value) n ∧ Fits n := by
  rw [← fromChars_eq_ok]
  unfold parseInteger
  split
  case h_1 result heq => simp [heq]
  case h_2 hno =>
    refine iff_of_false (by simp [raise]) fun heq => hno n heq

theorem parseInteger_cases (value : Bytes) (key : String) :
    (∃ n, (IsInteger (trim value) n ∧ Fits n) ∧ parseInteger value key = .ok n) ∨
      (∀ n, ¬ (IsInteger (trim value) n ∧ Fits n)) ∧
        parseInteger value key = raise ("invalid integer for " ++ key) := by
  by_cases h : ∃ n, parseInteger value key = .ok n
  · obtain ⟨n, hn⟩ := h
    exact .inl ⟨n, parseInteger_eq_ok.mp hn, hn⟩
  · refine .inr ⟨fun n hn => h ⟨n, parseInteger_eq_ok.mpr hn⟩, ?_⟩
    unfold parseInteger at h ⊢
    split
    case h_1 result heq => exact absurd ⟨result, by rw [heq]⟩ h
    case h_2 => rfl

theorem padded_ne_nil (fraction : Bytes) : padded fraction ≠ [] := by
  intro h
  have hlen := congrArg List.length h
  simp only [padded, List.length_append, List.length_replicate, List.length_nil] at hlen
  omega

theorem allDigits_padded {fraction : Bytes} : AllDigits (padded fraction) ↔ AllDigits fraction := by
  refine allDigits_append.trans (and_iff_left fun b hb => ?_)
  rw [List.eq_of_mem_replicate hb]
  decide

private theorem numeral_padded {fraction : Bytes} (hlen : fraction.length ≤ 2) :
    (numeral (padded fraction) : ℚ) = numeral fraction / 10 ^ fraction.length * 100 := by
  have hpow : (10 : ℚ) ^ fraction.length * 10 ^ (2 - fraction.length) = 100 := by
    rw [← pow_add, Nat.add_sub_cancel' hlen]; norm_num
  rw [padded, numeral_append_zeros, Nat.cast_mul, Nat.cast_pow, ← hpow]
  field_simp
  push_cast
  ring

private theorem numeral_padded_le {fraction : Bytes} (hlen : fraction.length ≤ 2) (h : AllDigits fraction) :
    numeral (padded fraction) ≤ 99 := by
  have hlt := numeral_lt (allDigits_padded.mpr h)
  have htwo : (padded fraction).length = 2 := by
    simp only [padded, List.length_append, List.length_replicate]; omega
  rw [htwo] at hlt
  omega

end Parts

section Cents
variable {sign : Bool} {w m : ℤ} {key : String}

theorem centsOf_of_nonneg (hm : 0 ≤ m) (hfits : Fits m) :
    centsOf sign w m key = if (int64Max - m) / 100 < w then raise ("money value is too large for " ++ key)
      else mul w 100 >>= fun cents => add cents m >>= fun cents =>
        if sign then neg cents else pure cents := by
  have hle : 0 ≤ int64Max - m := by linarith [hfits.2]
  have hsub : Fits (int64Max - m) := fits_sub (by decide) hfits (by decide) hm
  rw [centsOf, sub_of_fits hsub, ok_bind, div_of_nonneg hsub hle (by decide), ok_bind]

theorem centsOf_too_large (hm : 0 ≤ m) (hfits : Fits m) (hgt : int64Max < w * 100 + m) :
    centsOf sign w m key = raise ("money value is too large for " ++ key) := by
  rw [centsOf_of_nonneg hm hfits, if_pos (by omega)]

private theorem centsOf_digits (hw : 0 ≤ w) (hm : 0 ≤ m) (hle : w * 100 + m ≤ int64Max) :
    centsOf sign w m key = .ok (if sign then -(w * 100 + m) else w * 100 + m) := by
  have hmax : Fits int64Max := by decide
  have hsum : Fits (w * 100 + m) := hmax.of_nonneg (by linarith) hle
  have hneg : Fits (-(w * 100 + m)) := by simpa using fits_sub fits_zero hsum le_rfl (by linarith)
  rw [centsOf_of_nonneg hm (hmax.of_nonneg hm (by linarith)), if_neg (by omega),
    mul_of_fits (hmax.of_nonneg (by linarith) (by linarith)), ok_bind, add_of_fits hsum, ok_bind]
  cases sign
  · rfl
  · exact neg_of_fits hneg

/-- A value within the bound is never rejected: it is returned, or an operation overflows. -/
theorem centsOf_not_raised (hfits : Fits m) (h : m < 0 ∨ w * 100 + m ≤ int64Max) (what : String) :
    centsOf sign w m key ≠ raise what := by
  rcases lt_or_ge m 0 with hneg | hm
  · have hsub : ¬ Fits (int64Max - m) := fun hfits => absurd hfits.2 (by linarith)
    rw [centsOf, sub, checked_of_not_fits hsub]
    exact fun heq => nomatch heq
  · rw [centsOf_of_nonneg hm hfits, if_neg (by omega)]
    refine bind_ne_raise (checked_ne_raise _ _) fun cents => bind_ne_raise (checked_ne_raise _ _) fun cents => ?_
    split_ifs
    · exact checked_ne_raise _ _
    · exact fun heq => nomatch heq

end Cents

section Cutting
variable {text sign body digits fraction : Bytes} {factor amount : ℚ}

def signFactor (text : Bytes) : ℚ := if negative text then -1 else 1

theorem ne_of_isDigit {b c : UInt8} (hb : isDigit b) (hc : isDigit c = false) : b ≠ c := by
  rintro rfl
  exact Bool.false_ne_true (hc.symm.trans hb)

private theorem exists_sign (text : Bytes) : ∃ sign, IsSign sign (signFactor text) ∧ text = sign ++ unsigned text := by
  by_cases hplus : text.head? = some (ascii '+')
  · obtain ⟨body, rfl⟩ := List.head?_eq_some_iff.mp hplus
    exact ⟨[ascii '+'], .plus, rfl⟩
  · by_cases hminus : text.head? = some (ascii '-')
    · obtain ⟨body, rfl⟩ := List.head?_eq_some_iff.mp hminus
      exact ⟨[ascii '-'], .minus, rfl⟩
    · refine ⟨[], ?_, ?_⟩
      · rw [signFactor, negative, decide_eq_false hminus]
        exact .none
      · rw [unsigned, if_neg (by tauto), List.nil_append]

/-- A sign in front of a digit is cut off as it is. -/
theorem unsigned_append (body : Bytes) (hsign : IsSign sign factor) (hdigits : AllDigits digits)
    (hne : digits ≠ []) :
    unsigned (sign ++ (digits ++ body)) = digits ++ body ∧ signFactor (sign ++ (digits ++ body)) = factor := by
  obtain ⟨b, digits, rfl⟩ := List.exists_cons_of_ne_nil hne
  have hb : isDigit b := hdigits b List.mem_cons_self
  have hplus : b ≠ ascii '+' := ne_of_isDigit hb rfl
  have hminus : b ≠ ascii '-' := ne_of_isDigit hb rfl
  cases hsign with
  | none => simp [unsigned, signFactor, negative, hplus, hminus]
  | plus => exact ⟨rfl, rfl⟩
  | minus => exact ⟨rfl, rfl⟩

theorem not_point (hdigits : AllDigits digits) : ∀ b ∈ digits, (b != ascii '.') = true :=
  fun b hb => bne_iff_ne.mpr (ne_of_isDigit (hdigits b hb) rfl)

private theorem unsigned_eq (text : Bytes) :
    unsigned text = wholeText text ∧ fractionText text = [] ∨
      unsigned text = wholeText text ++ ascii '.' :: fractionText text := by
  have hcut := List.takeWhile_append_dropWhile (p := (· != ascii '.')) (l := unsigned text)
  unfold wholeText fractionText
  cases hrest : (unsigned text).dropWhile (· != ascii '.') with
  | nil =>
    rw [hrest, List.append_nil] at hcut
    exact .inl ⟨hcut.symm, rfl⟩
  | cons b rest =>
    have hb : b = ascii '.' := by
      have hne : (unsigned text).dropWhile (· != ascii '.') ≠ [] := by simp [hrest]
      simpa [hrest] using List.head_dropWhile_not _ hne
    rw [hrest, hb] at hcut
    exact .inr hcut.symm

/-- The text is an amount exactly if the parts cut out of it are all digits. -/
theorem isAmount_iff : IsAmount text amount ↔
    wholeText text ≠ [] ∧ (fractionText text).length ≤ 2 ∧ AllDigits (wholeText text) ∧
      AllDigits (fractionText text) ∧ amount = signFactor text *
        (numeral (wholeText text) + numeral (fractionText text) / 10 ^ (fractionText text).length) := by
  constructor
  · intro h
    cases h with
    | @whole sign digits factor hsign hne hdigits =>
      obtain ⟨hcut, hfactor⟩ := unsigned_append [] hsign hdigits hne
      rw [List.append_nil] at hcut hfactor
      have hwhole : wholeText (sign ++ digits) = digits := by
        rw [wholeText, hcut, List.takeWhile_eq_self_iff.mpr (not_point hdigits)]
      have hfraction : fractionText (sign ++ digits) = [] := by
        rw [fractionText, hcut, List.dropWhile_eq_nil_iff.mpr (not_point hdigits), List.tail_nil]
      rw [hwhole, hfraction, hfactor]
      exact ⟨hne, by simp, hdigits, fun b hb => absurd hb List.not_mem_nil, by simp⟩
    | @point sign digits fraction factor hsign hne hdigits hlen hall =>
      obtain ⟨hcut, hfactor⟩ := unsigned_append (ascii '.' :: fraction) hsign hdigits hne
      rw [List.append_assoc]
      have hwhole : wholeText (sign ++ (digits ++ ascii '.' :: fraction)) = digits := by
        rw [wholeText, hcut, List.takeWhile_append_of_pos (not_point hdigits)]
        simp
      have hfraction : fractionText (sign ++ (digits ++ ascii '.' :: fraction)) = fraction := by
        rw [fractionText, hcut, List.dropWhile_append_of_pos (not_point hdigits)]
        simp
      rw [hwhole, hfraction, hfactor]
      exact ⟨hne, hlen, hdigits, hall, rfl⟩
  · rintro ⟨hne, hlen, hdigits, hall, rfl⟩
    obtain ⟨sign, hsign, htext⟩ := exists_sign text
    rcases unsigned_eq text with ⟨hcut, hnone⟩ | hcut
    · have hamount := IsAmount.whole hsign hne hdigits
      rw [← hcut, ← htext] at hamount
      simpa [hnone, hcut] using hamount
    · have hamount := IsAmount.point hsign hne hdigits hlen hall
      rwa [List.append_assoc, ← hcut, ← htext] at hamount

end Cutting

section Exactness
variable {value : Bytes} {key : String}

/-- The cents of an amount whose parts are all digits. -/
theorem amount_cents (hlen : (fractionText value).length ≤ 2) :
    signFactor value *
        (numeral (wholeText value) + numeral (fractionText value) / 10 ^ (fractionText value).length) * 100 =
      signFactor value * ((numeral (wholeText value) * 100 + numeral (padded (fractionText value)) : ℤ) : ℚ) := by
  push_cast
  rw [numeral_padded hlen]
  ring

private theorem parseCents_ill_formed (key : String) (h : trim value = [] ∨ wholeText (trim value) = [] ∨
    2 < (fractionText (trim value)).length ∨ ascii '.' ∈ fractionText (trim value)) :
    ∃ what, parseCents value key = raise what := by
  unfold parseCents
  dsimp only
  by_cases hempty : trim value = []
  · exact ⟨_, if_pos hempty⟩
  · rw [if_neg hempty, if_pos (h.resolve_left hempty)]
    exact ⟨_, rfl⟩

theorem parseCents_well_formed (key : String) (hne : wholeText (trim value) ≠ [])
    (hlen : (fractionText (trim value)).length ≤ 2) (hpoint : ascii '.' ∉ fractionText (trim value)) :
    parseCents value key = parseInteger (wholeText (trim value)) key >>= fun whole =>
      parseInteger (padded (fractionText (trim value))) key >>= fun minor =>
        centsOf (negative (trim value)) whole minor key := by
  have hempty : trim value ≠ [] := fun h => hne (by rw [h]; rfl)
  unfold parseCents
  dsimp only
  rw [if_neg hempty, if_neg (by simp [hne, hlen, hpoint])]
  simp only [if_neg (padded_ne_nil _)]

theorem parsedExactly_of_raise {what : String} (h : parseCents value key = raise what)
    (hno : ∀ amount, IsAmount (trim value) amount → (int64Max : ℚ) < |amount * 100|) :
    ParsedExactly value key := by
  refine ⟨noOverflow_of_raise h, fun cents => ?_⟩
  rw [h]
  refine iff_of_false (fun heq => nomatch heq) ?_
  rintro ⟨amount, hamount, hle, -⟩
  exact absurd hle (not_le.mpr (hno amount hamount))

private theorem abs_signFactor (text : Bytes) : |signFactor text| = 1 := by
  unfold signFactor
  split_ifs <;> simp

theorem signed_cast (text : Bytes) (cents : ℤ) :
    ((if negative text then -cents else cents : ℤ) : ℚ) = signFactor text * cents := by
  unfold signFactor
  split_ifs <;> simp

/-- Digits are read exactly, up to the bound on their cents. -/
theorem parsedExactly_of_digits (hne : wholeText (trim value) ≠ [])
    (hlen : (fractionText (trim value)).length ≤ 2) (hwhole : AllDigits (wholeText (trim value)))
    (hfraction : AllDigits (fractionText (trim value))) : ParsedExactly value key := by
  set text := trim value with htext
  have hpoint : ascii '.' ∉ fractionText text := fun h => absurd (hfraction _ h) (by decide)
  have hparse := parseCents_well_formed key hne hlen hpoint
  rw [← htext] at hparse
  set n := numeral (wholeText text)
  set k := numeral (padded (fractionText text)) with hk
  have hk99 : k ≤ 99 := numeral_padded_le hlen hfraction
  have hamount : ∀ amount, IsAmount text amount →
      amount * 100 = signFactor text * ((n * 100 + k : ℤ) : ℚ) := by
    intro amount h
    obtain ⟨-, -, -, -, rfl⟩ := isAmount_iff.mp h
    exact amount_cents hlen
  have habs : ∀ amount, IsAmount text amount → |amount * 100| = ((n * 100 + k : ℤ) : ℚ) := by
    intro amount h
    rw [hamount amount h, abs_mul, abs_signFactor, one_mul, abs_of_nonneg (by positivity)]
  have hfits : Fits k := (show Fits 99 by decide).of_nonneg (by positivity) (by exact_mod_cast hk99)
  have hminor : parseInteger (padded (fractionText text)) key = .ok (k : ℤ) :=
    parseInteger_eq_ok.mpr ⟨(allDigits_padded.mpr hfraction).isInteger (padded_ne_nil _), hfits⟩
  by_cases hmax : (n * 100 + k : ℤ) ≤ int64Max
  · have hread : parseInteger (wholeText text) key = .ok (n : ℤ) :=
      parseInteger_eq_ok.mpr ⟨hwhole.isInteger hne, (show Fits int64Max by decide).of_nonneg (by positivity)
        (by linarith [Int.natCast_nonneg n, Int.natCast_nonneg k])⟩
    have hvalue : parseCents value key =
        .ok (if negative text then -(n * 100 + k : ℤ) else (n * 100 + k : ℤ)) := by
      rw [hparse, hread, ok_bind, hminor, ok_bind]
      exact centsOf_digits (by positivity) (by positivity) hmax
    refine ⟨noOverflow_of_ok hvalue, fun cents => ?_⟩
    rw [hvalue]
    refine ⟨fun heq => ?_, ?_⟩
    · have hform := isAmount_iff.mpr ⟨hne, hlen, hwhole, hfraction, rfl⟩
      refine ⟨_, hform, ?_, ?_⟩
      · rw [habs _ hform]
        exact_mod_cast hmax
      · rw [hamount _ hform, ← Except.ok.inj heq]
        exact signed_cast text _
    · rintro ⟨amount, hform, -, hcents⟩
      rw [hamount amount hform, ← signed_cast] at hcents
      rw [Int.cast_injective hcents]
  · have hraise : ∃ what, parseCents value key = raise what := by
      rcases parseInteger_cases (wholeText text) key with ⟨w, ⟨hint, -⟩, hread⟩ | ⟨-, hread⟩
      · rw [hparse, hread, ok_bind, hminor, ok_bind, hwhole.eq_numeral hint]
        exact ⟨_, centsOf_too_large (by positivity) hfits (not_le.mp hmax)⟩
      · rw [hparse, hread]
        exact ⟨_, rfl⟩
    obtain ⟨what, hwhat⟩ := hraise
    refine parsedExactly_of_raise hwhat fun amount h => ?_
    rw [habs amount h]
    exact_mod_cast not_le.mp hmax

/-- Where a part is not all digits, no number may come out of the text. -/
theorem parsedExactly_iff_of_not_digits (hne : wholeText (trim value) ≠ [])
    (hlen : (fractionText (trim value)).length ≤ 2) (hpoint : ascii '.' ∉ fractionText (trim value))
    (hdigits : ¬ (AllDigits (wholeText (trim value)) ∧ AllDigits (fractionText (trim value)))) :
    ParsedExactly value key ↔ ¬ ReadLoosely value := by
  have hnone : ∀ amount, ¬ IsAmount (trim value) amount := fun amount h => by
    obtain ⟨-, -, hwhole, hfraction, -⟩ := isAmount_iff.mp h
    exact hdigits ⟨hwhole, hfraction⟩
  have hraised : ∀ what, parseCents value key = raise what → ParsedExactly value key :=
    fun what h => parsedExactly_of_raise h fun amount hform => absurd hform (hnone amount)
  have hexact : ParsedExactly value key → ∃ what, parseCents value key = raise what := by
    rintro ⟨hno, hiff⟩
    cases hresult : parseCents value key with
    | ok cents =>
      obtain ⟨amount, hform, -⟩ := (hiff cents).mp hresult
      exact absurd hform (hnone amount)
    | error reason =>
      cases reason with
      | overflow => exact absurd hresult hno
      | raised what => exact ⟨what, rfl⟩
  have hparse := parseCents_well_formed key hne hlen hpoint
  rcases parseInteger_cases (wholeText (trim value)) key with ⟨w, hw, hread⟩ | ⟨hno, hread⟩
  case inr =>
    refine iff_of_true (hraised _ (by rw [hparse, hread, raise_bind])) ?_
    rintro ⟨-, -, -, w, m, hw, -⟩
    exact hno w hw
  rcases parseInteger_cases (padded (fractionText (trim value))) key with ⟨m, hm, hread'⟩ | ⟨hno, hread'⟩
  case inr =>
    refine iff_of_true (hraised _ (by rw [hparse, hread, ok_bind, hread', raise_bind])) ?_
    rintro ⟨-, -, -, w, m, -, hm, -⟩
    exact hno m hm
  have hunique : ∀ {text : Bytes} {a b : ℤ}, IsInteger text a ∧ Fits a → IsInteger text b ∧ Fits b →
      a = b := by
    intro text a b ha hb
    have := (fromChars_eq_ok.mpr ha).symm.trans (fromChars_eq_ok.mpr hb)
    simpa using this
  rw [hread, ok_bind, hread', ok_bind] at hparse
  by_cases hbound : m < 0 ∨ w * 100 + m ≤ int64Max
  · refine iff_of_false (fun h => ?_) (not_not.mpr ⟨hlen, hpoint, hdigits, w, m, hw, hm, hbound⟩)
    obtain ⟨what, hwhat⟩ := hexact h
    exact centsOf_not_raised hm.2 hbound what (hparse.symm.trans hwhat)
  · push Not at hbound
    refine iff_of_true (hraised _ (hparse.trans (centsOf_too_large hbound.1 hm.2 hbound.2))) ?_
    rintro ⟨-, -, -, w', m', hw', hm', hbound'⟩
    rw [hunique hw' hw, hunique hm' hm] at hbound'
    omega

end Exactness

/-- The parser is exact except where a part that is not all digits is read as an integer. -/
theorem parseCents_exact_iff (value : Bytes) (key : String) : ParsedExactly value key ↔ ¬ ReadLoosely value := by
  by_cases hform : wholeText (trim value) = [] ∨ 2 < (fractionText (trim value)).length ∨
      ascii '.' ∈ fractionText (trim value)
  · obtain ⟨what, hwhat⟩ := parseCents_ill_formed key (.inr hform)
    refine iff_of_true (parsedExactly_of_raise hwhat fun amount h => ?_) ?_
    · obtain ⟨hne, hlen, -, hfraction, -⟩ := isAmount_iff.mp h
      rcases hform with hnil | hlong | hpoint
      · exact absurd hnil hne
      · exact absurd hlong (not_lt.mpr hlen)
      · exact absurd (hfraction _ hpoint) (by decide)
    · rintro ⟨hlen, hpoint, -, w, m, ⟨hint, -⟩, -⟩
      rcases hform with hnil | hlong | hpoint'
      · rw [hnil] at hint
        exact hint.ne_nil rfl
      · exact absurd hlong (not_lt.mpr hlen)
      · exact hpoint hpoint'
  · push Not at hform
    obtain ⟨hne, hlen, hpoint⟩ := hform
    by_cases hdigits : AllDigits (wholeText (trim value)) ∧ AllDigits (fractionText (trim value))
    · refine iff_of_true (parsedExactly_of_digits hne hlen hdigits.1 hdigits.2) ?_
      exact fun hloose => hloose.2.2.1 hdigits
    · exact parsedExactly_iff_of_not_digits hne hlen hpoint hdigits

/-- A second sign is read as the sign of the whole part. -/
theorem parseCents_takes_two_signs :
    ¬ ∀ (value : Bytes) (key : String), ParsedExactly value key := by
  intro h
  have hread : parseCents [ascii '-', ascii '-', ascii '5'] "market.price_min" = .ok 500 := rfl
  obtain ⟨amount, hform, -⟩ := ((h _ _).2 500).mp hread
  obtain ⟨-, -, hwhole, -⟩ := isAmount_iff.mp hform
  exact absurd (hwhole (ascii '-') (by decide)) (by decide)

end EndstoneExchange.MoneyText
