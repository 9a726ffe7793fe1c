import Mathlib.Algebra.Order.Group.Abs
import Mathlib.Data.Set.Basic
import Mathlib.Algebra.Order.Ring.Int
import Mathlib.Tactic.Linarith

/-!
# The grid point nearest to a number

The points of a grid lie one step apart from its lower end on, up to an upper end
that need not be a point itself. Of two equally near points the upper one is taken.
-/
namespace EndstoneExchange.NearestGridPoints

def grid (lo hi step : ℤ) : Set ℤ := {p | lo ≤ p ∧ p ≤ hi ∧ step ∣ p - lo}

structure IsNearest (S : Set ℤ) (x p : ℤ) : Prop where
  mem : p ∈ S
  closest : ∀ q ∈ S, |p - x| ≤ |q - x|
  ties_up : ∀ q ∈ S, |q - x| = |p - x| → q ≤ p

theorem IsNearest.unique {S : Set ℤ} {x p q : ℤ} (hp : IsNearest S x p) (hq : IsNearest S x q) : p = q := by
  have hdist : |p - x| = |q - x| := le_antisymm (hp.closest q hq.mem) (hq.closest p hp.mem)
  exact le_antisymm (hq.ties_up p hp.mem hdist) (hp.ties_up q hq.mem hdist.symm)

section Grid
variable {lo hi step p r : ℤ}

private theorem add_step_mem (hp : p ∈ grid lo hi step) (hstep : 0 < step) (hhi : p + step ≤ hi) :
    p + step ∈ grid lo hi step := by
  obtain ⟨hlo, -, hdvd⟩ := hp
  refine ⟨by linarith, hhi, ?_⟩
  rw [add_sub_right_comm]
  exact Int.dvd_add hdvd (Int.dvd_refl step)

/-- No grid point lies strictly between two neighbours. -/
theorem le_or_add_step_le {q : ℤ} (hp : p ∈ grid lo hi step) (hq : q ∈ grid lo hi step) :
    q ≤ p ∨ p + step ≤ q := by
  rcases le_or_gt q p with h | h
  · exact .inl h
  · have hdvd : step ∣ q - p := by
      have := Int.dvd_sub hq.2.2 hp.2.2
      rwa [sub_sub_sub_cancel_right] at this
    exact .inr (by linarith [Int.le_of_dvd (by linarith) hdvd])

/-- Rounding down: the number is nearer to the point below it, or there is no point above. -/
theorem isNearest_below (hp : p ∈ grid lo hi step) (hr : 0 ≤ r)
    (h : 2 * r < step ∨ hi < p + step) : IsNearest (grid lo hi step) (p + r) p := by
  have hdist : |p - (p + r)| = r := by rw [sub_add_cancel_left, abs_neg, abs_of_nonneg hr]
  have far : ∀ q ∈ grid lo hi step, q < p → r < |q - (p + r)| := fun q _ hlt => by
    rw [abs_of_nonpos (by linarith)]; linarith
  have above : ∀ q ∈ grid lo hi step, p < q → r < |q - (p + r)| := fun q hq hlt => by
    have hge := (le_or_add_step_le hp hq).resolve_left (by linarith)
    rcases h with h | h
    · rw [abs_of_nonneg (by linarith)]; linarith
    · exact absurd hq.2.1 (by linarith)
  constructor
  case mem => exact hp
  case closest =>
    intro q hq
    rw [hdist]
    rcases lt_trichotomy q p with hlt | rfl | hgt
    · exact (far q hq hlt).le
    · exact hdist.ge
    · exact (above q hq hgt).le
  case ties_up =>
    intro q hq htie
    rw [hdist] at htie
    exact not_lt.mp fun hgt => (above q hq hgt).ne' htie

/-- Rounding up: the number is at least as near to the point above it. -/
theorem isNearest_above (hp : p ∈ grid lo hi step) (hstep : 0 < step) (hr : r < step)
    (hhi : p + step ≤ hi) (h : step ≤ 2 * r) : IsNearest (grid lo hi step) (p + r) (p + step) := by
  have hdist : |p + step - (p + r)| = step - r := by
    rw [add_sub_add_left_eq_sub, abs_of_pos (by linarith)]
  constructor
  case mem => exact add_step_mem hp hstep hhi
  case closest =>
    intro q hq
    rw [hdist]
    rcases le_or_add_step_le hp hq with hle | hge
    · rw [abs_of_nonpos (by linarith)]; linarith
    · rw [abs_of_nonneg (by linarith)]; linarith
  case ties_up =>
    intro q hq htie
    rw [hdist] at htie
    rcases le_or_add_step_le hp hq with hle | hge
    · linarith
    · rw [abs_of_nonneg (by linarith)] at htie; linarith

end Grid

end EndstoneExchange.NearestGridPoints
