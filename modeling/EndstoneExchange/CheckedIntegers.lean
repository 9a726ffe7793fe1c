import Mathlib.Data.Int.Basic
import Mathlib.Tactic.Linarith

/-!
# Signed 64-bit arithmetic that notices an overflow

A computation either returns, raises an error of its own, or performs an operation
whose exact result does not fit; the language leaves the last case undefined.
-/
namespace EndstoneExchange.CheckedIntegers

def int64Max : ℤ := 9223372036854775807

def int64Min : ℤ := -9223372036854775808

def Fits (n : ℤ) : Prop := int64Min ≤ n ∧ n ≤ int64Max

instance (n : ℤ) : Decidable (Fits n) := inferInstanceAs (Decidable (_ ∧ _))

inductive Abrupt (ε : Type) where
  | raised (e : ε)
  | overflow
  deriving DecidableEq, Repr

abbrev Checked (ε α : Type) := Except (Abrupt ε) α

variable {ε α : Type}

def raise (e : ε) : Checked ε α := .error (.raised e)

def checked (n : ℤ) : Checked ε ℤ := if Fits n then .ok n else .error .overflow

def add (a b : ℤ) : Checked ε ℤ := checked (a + b)

def sub (a b : ℤ) : Checked ε ℤ := checked (a - b)

def mul (a b : ℤ) : Checked ε ℤ := checked (a * b)

def neg (a : ℤ) : Checked ε ℤ := checked (-a)

/-- Division truncates towards zero. -/
def div (a b : ℤ) : Checked ε ℤ := if b = 0 then .error .overflow else checked (a.tdiv b)

def mod (a b : ℤ) : Checked ε ℤ :=
  if b = 0 ∨ ¬ Fits (a.tdiv b) then .error .overflow else .ok (a.tmod b)

/-- No operation of the computation overflows. -/
def NoOverflow (x : Checked ε α) : Prop := x ≠ .error .overflow

@[simp] theorem ok_bind {β : Type} (a : α) (f : α → Checked ε β) : (.ok a : Checked ε α) >>= f = f a := rfl

@[simp] theorem raise_bind {β : Type} (e : ε) (f : α → Checked ε β) :
    (raise e : Checked ε α) >>= f = raise e := rfl

theorem noOverflow_of_ok {x : Checked ε α} {a : α} (h : x = .ok a) : NoOverflow x := by
  rw [NoOverflow, h]
  intro hoverflow
  cases hoverflow

theorem noOverflow_of_raise {x : Checked ε α} {e : ε} (h : x = raise e) : NoOverflow x := by
  rw [NoOverflow, h]
  intro hoverflow
  cases hoverflow

theorem checked_of_fits {n : ℤ} (h : Fits n) : (checked n : Checked ε ℤ) = .ok n := if_pos h

theorem checked_of_not_fits {n : ℤ} (h : ¬ Fits n) : (checked n : Checked ε ℤ) = .error .overflow :=
  if_neg h

theorem checked_ne_raise (n : ℤ) (e : ε) : checked n ≠ raise e := by
  unfold checked
  split_ifs
  · exact fun h => nomatch h
  · exact fun h => nomatch h

theorem bind_ne_raise {β : Type} {x : Checked ε α} {f : α → Checked ε β} {e : ε} (hx : x ≠ raise e)
    (hf : ∀ a, f a ≠ raise e) : x >>= f ≠ raise e := by
  cases x with
  | ok a => exact hf a
  | error reason => exact fun h => hx (congrArg Except.error (Except.error.inj h))

theorem add_of_fits {a b : ℤ} (h : Fits (a + b)) : (add a b : Checked ε ℤ) = .ok (a + b) :=
  checked_of_fits h

theorem sub_of_fits {a b : ℤ} (h : Fits (a - b)) : (sub a b : Checked ε ℤ) = .ok (a - b) :=
  checked_of_fits h

theorem mul_of_fits {a b : ℤ} (h : Fits (a * b)) : (mul a b : Checked ε ℤ) = .ok (a * b) :=
  checked_of_fits h

theorem neg_of_fits {a : ℤ} (h : Fits (-a)) : (neg a : Checked ε ℤ) = .ok (-a) := checked_of_fits h

theorem Fits.of_between {a b n : ℤ} (ha : Fits a) (hb : Fits b) (h : a ≤ n ∧ n ≤ b) : Fits n :=
  ⟨ha.1.trans h.1, h.2.trans hb.2⟩

theorem fits_zero : Fits 0 := by decide

theorem Fits.of_nonneg {a n : ℤ} (ha : Fits a) (h0 : 0 ≤ n) (h : n ≤ a) : Fits n :=
  fits_zero.of_between ha ⟨h0, h⟩

/-- The difference of two nonnegative numbers fits. -/
theorem fits_sub {a b : ℤ} (ha : Fits a) (hb : Fits b) (ha0 : 0 ≤ a) (hb0 : 0 ≤ b) : Fits (a - b) := by
  simp only [Fits, int64Min, int64Max] at ha hb ⊢
  omega

section Division
variable {a b : ℤ}

theorem fits_ediv (ha : Fits a) (h0 : 0 ≤ a) (hb : 0 < b) : Fits (a / b) :=
  ha.of_nonneg (Int.ediv_nonneg h0 hb.le) (Int.ediv_le_self b h0)

/-- On nonnegative numbers the truncated quotient is the Euclidean one. -/
theorem div_of_nonneg (ha : Fits a) (h0 : 0 ≤ a) (hb : 0 < b) :
    (div a b : Checked ε ℤ) = .ok (a / b) := by
  rw [div, if_neg hb.ne', Int.tdiv_eq_ediv_of_nonneg h0]
  exact checked_of_fits (fits_ediv ha h0 hb)

theorem mod_of_nonneg (ha : Fits a) (h0 : 0 ≤ a) (hb : 0 < b) :
    (mod a b : Checked ε ℤ) = .ok (a % b) := by
  rw [mod, if_neg, Int.tmod_eq_emod_of_nonneg h0]
  rw [Int.tdiv_eq_ediv_of_nonneg h0]
  rintro (hb0 | hfits)
  · exact hb.ne' hb0
  · exact hfits (fits_ediv ha h0 hb)

end Division

end EndstoneExchange.CheckedIntegers
