import EndstoneExchange.CheckedIntegers
import Mathlib.Data.List.DropRight
import Mathlib.Tactic.Ring

/-!
# Decimal numerals in byte text

Blank and digit bytes, trimming, and the reader of the standard library that takes a
signed integer off the front of a text.
-/
namespace EndstoneExchange.AsciiNumerals
open CheckedIntegers

abbrev Bytes := List UInt8

def ascii (c : Char) : UInt8 := c.toNat.toUInt8

/-- Space and the control characters from tab to carriage return. -/
def isSpace (b : UInt8) : Bool := b == ascii ' ' || (9 ≤ b && b ≤ 13)

def isDigit (b : UInt8) : Bool := ascii '0' ≤ b && b ≤ ascii '9'

def quote : UInt8 := ascii '"'

def backslash : UInt8 := ascii '\\'

section Trimming

def trim (text : Bytes) : Bytes := (text.dropWhile isSpace).rdropWhile isSpace

def Blank (bytes : Bytes) : Prop := ∀ b ∈ bytes, isSpace b

instance (bytes : Bytes) : Decidable (Blank bytes) := inferInstanceAs (Decidable (∀ b ∈ bytes, _))

theorem blank_nil : Blank [] := fun _ hb => absurd hb List.not_mem_nil

/-- Trimming stops at what is not blank on both sides. -/
theorem trim_between {before text after : Bytes} (hbefore : Blank before) (hafter : Blank after)
    (hfirst : ∀ b ∈ text.head?, isSpace b = false) (hlast : ∀ b ∈ text.getLast?, isSpace b = false) :
    trim (before ++ text ++ after) = text := by
  cases text with
  | nil =>
    have hall : ∀ b ∈ before ++ after, isSpace b := List.forall_mem_append.mpr ⟨hbefore, hafter⟩
    rw [trim, List.append_nil, List.dropWhile_eq_nil_iff.mpr hall, List.rdropWhile_nil]
  | cons b text =>
    have hb : ¬ isSpace b := by simp [hfirst b rfl]
    rw [trim, List.append_assoc, List.dropWhile_append_of_pos hbefore, List.cons_append,
      List.dropWhile_cons_of_neg hb, List.rdropWhile, ← List.cons_append, List.reverse_append,
      List.dropWhile_append_of_pos (by simpa [Blank] using hafter)]
    obtain ⟨front, c, hc⟩ := (List.eq_nil_or_concat (b :: text)).resolve_left (List.cons_ne_nil _ _)
    rw [List.concat_eq_append] at hc
    rw [hc] at hlast ⊢
    have hc' : ¬ isSpace c := by simp [hlast c (by simp)]
    rw [List.reverse_append, List.reverse_singleton, List.singleton_append, List.dropWhile_cons_of_neg hc',
      List.reverse_cons, List.reverse_reverse]

/-- A text without blanks is what trimming leaves of it among blanks. -/
theorem trim_unblank {before text after : Bytes} (hbefore : Blank before) (hafter : Blank after)
    (htext : ∀ b ∈ text, isSpace b = false) : trim (before ++ text ++ after) = text :=
  trim_between hbefore hafter (fun b hb => htext b (List.mem_of_mem_head? hb))
    fun b hb => htext b (List.mem_of_mem_getLast? hb)

private theorem trim_of_no_blank {text : Bytes} (h : ∀ b ∈ text, isSpace b = false) : trim text = text := by
  simpa using trim_unblank blank_nil blank_nil h

end Trimming

section Numerals

def digitValue (b : UInt8) : ℕ := b.toNat - (ascii '0').toNat

def numeral (digits : Bytes) : ℕ := digits.foldl (fun n b => 10 * n + digitValue b) 0

theorem isDigit_iff {b : UInt8} : isDigit b ↔ 48 ≤ b.toNat ∧ b.toNat ≤ 57 := by
  have hzero : (ascii '0').toNat = 48 := rfl
  have hnine : (ascii '9').toNat = 57 := rfl
  simp [isDigit, UInt8.le_iff_toNat_le, hzero, hnine]

theorem isSpace_of_isDigit {b : UInt8} (h : isDigit b) : isSpace b = false := by
  have hblank : b ≠ ascii ' ' := by rintro rfl; exact absurd h (by decide)
  rw [isDigit_iff] at h
  have hcontrol : 13 < b.toNat := by omega
  simpa [isSpace, hblank, UInt8.le_iff_toNat_le] using fun _ => hcontrol

@[simp] theorem numeral_nil : numeral [] = 0 := rfl

@[simp] theorem numeral_concat (digits : Bytes) (b : UInt8) :
    numeral (digits ++ [b]) = 10 * numeral digits + digitValue b := by
  simp [numeral]

def AllDigits (text : Bytes) : Prop := ∀ b ∈ text, isDigit b

theorem AllDigits.trim_eq {text : Bytes} (h : AllDigits text) : trim text = text :=
  trim_of_no_blank fun b hb => isSpace_of_isDigit (h b hb)

theorem allDigits_append {xs ys : Bytes} : AllDigits (xs ++ ys) ↔ AllDigits xs ∧ AllDigits ys :=
  List.forall_mem_append

theorem numeral_lt {digits : Bytes} (h : AllDigits digits) : numeral digits < 10 ^ digits.length := by
  induction digits using List.reverseRecOn with
  | nil => simp
  | append_singleton digits b ih =>
    obtain ⟨hdigits, hb⟩ := allDigits_append.mp h
    have hvalue : digitValue b ≤ 9 := by
      have := (isDigit_iff.mp (hb b (List.mem_singleton_self b))).2
      have hzero : (ascii '0').toNat = 48 := rfl
      unfold digitValue
      omega
    have := ih hdigits
    rw [numeral_concat, List.length_append, List.length_singleton, pow_succ]
    omega

/-- Zeros at the end multiply a numeral by powers of ten. -/
theorem numeral_append_zeros (digits : Bytes) (k : ℕ) :
    numeral (digits ++ List.replicate k (ascii '0')) = numeral digits * 10 ^ k := by
  induction k with
  | zero => simp
  | succ k ih =>
    rw [List.replicate_succ', ← List.append_assoc, numeral_concat, ih, pow_succ]
    have hzero : digitValue (ascii '0') = 0 := rfl
    rw [hzero]
    ring

def decimal (n : ℕ) : Bytes := (Nat.toDigits 10 n).map ascii

theorem decimal_ne_nil (n : ℕ) : decimal n ≠ [] := by
  simp [decimal, Nat.toDigits_ne_nil]

theorem digitValue_digitChar {d : ℕ} (h : d < 10) :
    isDigit (ascii d.digitChar) ∧ digitValue (ascii d.digitChar) = d := by
  revert d; decide

theorem decimal_of_lt_ten {n : ℕ} (h : n < 10) : decimal n = [ascii n.digitChar] := by
  rw [decimal, Nat.toDigits_of_lt_base h, List.map_singleton]

theorem decimal_of_ten_le {n : ℕ} (h : 10 ≤ n) :
    decimal n = decimal (n / 10) ++ [ascii (n % 10).digitChar] := by
  rw [decimal, Nat.toDigits_of_base_le (by decide) h, List.map_append, List.map_singleton, decimal]

theorem isDigit_of_mem_decimal {n : ℕ} : AllDigits (decimal n) := by
  induction n using Nat.strong_induction_on with
  | _ n ih =>
    rcases lt_or_ge n 10 with h | h
    · rw [decimal_of_lt_ten h]
      exact List.forall_mem_singleton.mpr (digitValue_digitChar h).1
    · rw [decimal_of_ten_le h, allDigits_append]
      exact ⟨ih _ (by omega), List.forall_mem_singleton.mpr (digitValue_digitChar (by omega)).1⟩

@[simp] theorem numeral_decimal (n : ℕ) : numeral (decimal n) = n := by
  induction n using Nat.strong_induction_on with
  | _ n ih =>
    rcases lt_or_ge n 10 with h | h
    · rw [decimal_of_lt_ten h, ← List.nil_append [_], numeral_concat, (digitValue_digitChar h).2]
      simp
    · rw [decimal_of_ten_le h, numeral_concat, ih _ (by omega), (digitValue_digitChar (by omega)).2]
      omega

end Numerals

section FromChars

inductive Errc where
  | invalidArgument
  | resultOutOfRange
  deriving DecidableEq, Repr

/-- `std::from_chars` into a 64-bit integer: what it leaves unread, and the value of the
longest prefix that is a minus sign, if any, and digits. -/
def fromChars (text : Bytes) : Bytes × Except Errc ℤ :=
  let negative := text.head? = some (ascii '-')
  let body := if negative then text.tail else text
  let digits := body.takeWhile isDigit
  let value : ℤ := if negative then -(numeral digits) else numeral digits
  if digits = [] then (text, .error .invalidArgument)
  else (body.dropWhile isDigit, if Fits value then .ok value else .error .resultOutOfRange)

/-- The texts of integers: digits after at most one minus sign. -/
inductive IsInteger : Bytes → ℤ → Prop where
  | digits {text : Bytes} (hne : text ≠ []) (h : AllDigits text) : IsInteger text (numeral text)
  | minus {text : Bytes} (hne : text ≠ []) (h : AllDigits text) :
      IsInteger (ascii '-' :: text) (-(numeral text))

theorem IsInteger.ne_nil {text : Bytes} {n : ℤ} (h : IsInteger text n) : text ≠ [] := by
  cases h with
  | digits hne => exact hne
  | minus => exact List.cons_ne_nil _ _

theorem AllDigits.isInteger {text : Bytes} (h : AllDigits text) (hne : text ≠ []) :
    IsInteger (trim text) (numeral text) := by
  rw [h.trim_eq]
  exact .digits hne h

theorem AllDigits.eq_numeral {text : Bytes} {n : ℤ} (h : AllDigits text) (hint : IsInteger (trim text) n) :
    n = numeral text := by
  rw [h.trim_eq] at hint
  cases hint with
  | digits => rfl
  | minus => exact absurd (h _ List.mem_cons_self) (by decide)

theorem signed_eq_ok {text body : Bytes} {value n : ℤ} :
    (if body.takeWhile isDigit = [] then (text, .error .invalidArgument)
      else (body.dropWhile isDigit, if Fits value then .ok value else .error .resultOutOfRange)) =
        (([], .ok n) : Bytes × Except Errc ℤ) ↔
      body ≠ [] ∧ AllDigits body ∧ Fits value ∧ value = n := by
  by_cases hall : AllDigits body
  · rw [List.takeWhile_eq_self_iff.mpr hall, List.dropWhile_eq_nil_iff.mpr hall]
    split_ifs <;> simp_all
  · have hrest : body.dropWhile isDigit ≠ [] := fun h => hall (List.dropWhile_eq_nil_iff.mp h)
    split_ifs <;> simp [hall, hrest]

/-- A whole text is read as a number exactly if it is the text of an integer of 64 bits. -/
theorem fromChars_eq_ok {text : Bytes} {n : ℤ} :
    fromChars text = ([], .ok n) ↔ IsInteger text n ∧ Fits n := by
  constructor
  · intro h
    by_cases hminus : text.head? = some (ascii '-')
    · obtain ⟨body, rfl⟩ := List.head?_eq_some_iff.mp hminus
      simp only [fromChars, List.head?_cons, List.tail_cons, if_true] at h
      obtain ⟨hne, hall, hfits, rfl⟩ := signed_eq_ok.mp h
      rw [List.takeWhile_eq_self_iff.mpr hall] at hfits ⊢
      exact ⟨.minus hne hall, hfits⟩
    · simp only [fromChars, hminus, if_false] at h
      obtain ⟨hne, hall, hfits, rfl⟩ := signed_eq_ok.mp h
      rw [List.takeWhile_eq_self_iff.mpr hall] at hfits ⊢
      exact ⟨.digits hne hall, hfits⟩
  · rintro ⟨hint, hfits⟩
    cases hint with
    | digits hne hdigits =>
      have hhead : text.head? ≠ some (ascii '-') := fun h => by
        exact absurd (hdigits _ (List.mem_of_mem_head? h)) (by decide)
      simp only [fromChars, hhead, if_false]
      exact signed_eq_ok.mpr ⟨hne, hdigits, by rwa [List.takeWhile_eq_self_iff.mpr hdigits],
        by rw [List.takeWhile_eq_self_iff.mpr hdigits]⟩
    | @minus body hne hdigits =>
      simp only [fromChars, List.head?_cons, List.tail_cons, if_true]
      exact signed_eq_ok.mpr ⟨hne, hdigits, by rwa [List.takeWhile_eq_self_iff.mpr hdigits],
        by rw [List.takeWhile_eq_self_iff.mpr hdigits]⟩

end FromChars

end EndstoneExchange.AsciiNumerals
