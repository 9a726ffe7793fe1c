import Mathlib.Algebra.BigOperators.Group.List.Basic
import Mathlib.Order.Lattice
import Mathlib.Tactic.Abel

/-!
# Greedy prefixes

Elements are taken from the front of a list until their weights reach a goal. Of a list
in ascending order, what is taken falls short of the goal without its largest element.
-/
namespace EndstoneExchange.GreedyPrefixes

section Prefixes
variable {α M : Type*} [AddCommMonoid M] [LinearOrder M] (w : α → M) (goal : M)

/-- What is taken when the weights so far come to `total`. -/
def greedy : M → List α → List α
  | _, [] => []
  | total, a :: as => if goal ≤ total then [] else a :: greedy (total + w a) as

theorem greedy_initial (total : M) (as : List α) : greedy w goal total as <+: as := by
  induction as generalizing total with
  | nil => exact List.prefix_refl _
  | cons a as ih =>
    rw [greedy]
    split_ifs
    · exact List.nil_prefix
    · exact List.cons_prefix_cons.mpr ⟨rfl, ih _⟩

/-- The goal is reached if all the weights together reach it. -/
theorem greedy_reaches {total : M} {as : List α} (h : goal ≤ total + (as.map w).sum) :
    goal ≤ total + ((greedy w goal total as).map w).sum := by
  induction as generalizing total with
  | nil => exact h
  | cons a as ih =>
    rw [greedy]
    split_ifs with hgoal
    · simpa using hgoal
    · rw [List.map_cons, List.sum_cons, ← add_assoc] at h ⊢
      exact ih h

/-- Before its last element the goal was not reached. -/
theorem greedy_concat {total : M} {as front : List α} {a : α} (h : greedy w goal total as = front ++ [a]) :
    total + (front.map w).sum < goal := by
  induction as generalizing total front with
  | nil => simp [greedy] at h
  | cons b as ih =>
    rw [greedy] at h
    split_ifs at h with hgoal
    · simp at h
    · cases front with
      | nil => simpa using hgoal
      | cons c front =>
        obtain ⟨rfl, hrest⟩ := List.cons.inj h
        rw [List.map_cons, List.sum_cons, ← add_assoc]
        exact ih hrest

end Prefixes

section Ascending
variable {α M : Type*} [AddCommGroup M] [LinearOrder M] {w : α → M} {goal : M}

/-- Of a list in ascending order the last element that is taken is a largest one. -/
theorem greedy_without_largest {total : M} {as : List α} (hsorted : as.Pairwise fun a b => w a ≤ w b) {b : α}
    (hb : b ∈ greedy w goal total as) (hmax : ∀ a ∈ greedy w goal total as, w a ≤ w b) :
    total + ((greedy w goal total as).map w).sum - w b < goal := by
  obtain ⟨front, a, hsplit⟩ := List.eq_nil_or_concat (greedy w goal total as) |>.resolve_left
    (List.ne_nil_of_mem hb)
  rw [List.concat_eq_append] at hsplit
  have hlast : w b = w a := by
    refine le_antisymm ?_ (hmax a (by simp [hsplit]))
    rw [hsplit, List.mem_append, List.mem_singleton] at hb
    rcases hb with hb | rfl
    · have htaken := hsorted.sublist (greedy_initial w goal total as).sublist
      rw [hsplit, List.pairwise_append] at htaken
      exact htaken.2.2 b hb a (List.mem_singleton_self a)
    · exact le_rfl
  have hshort := greedy_concat w goal hsplit
  rw [hsplit, List.map_append, List.map_singleton, List.sum_append, List.sum_singleton, hlast]
  calc total + ((front.map w).sum + w a) - w a = total + (front.map w).sum := by abel
    _ < goal := hshort

end Ascending

end EndstoneExchange.GreedyPrefixes
