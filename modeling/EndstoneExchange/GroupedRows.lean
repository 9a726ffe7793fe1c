import Mathlib.Data.List.Dedup
import Mathlib.Data.List.Sort

/-!
# Grouped and ordered rows

`GROUP BY` makes one row of the rows with a common key. Ordered by their keys, the
rows before a given one are counted by its rank.
-/
namespace EndstoneExchange.GroupedRows
variable {α β κ : Type}

section Groups
variable [DecidableEq κ] (key : α → κ) (agg : List α → β) (rows : List α)

def group (k : κ) : List α := rows.filter fun a => key a = k

/-- SELECT key, agg(..) FROM rows GROUP BY key. -/
def groupBy : List (κ × β) := (rows.map key).dedup.map fun k => (k, agg (group key rows k))

@[simp] theorem mem_group {k : κ} {a : α} : a ∈ group key rows k ↔ a ∈ rows ∧ key a = k := by
  rw [group, List.mem_filter, decide_eq_true_eq]

theorem mem_groupBy {e : κ × β} :
    e ∈ groupBy key agg rows ↔ (∃ a ∈ rows, key a = e.1) ∧ agg (group key rows e.1) = e.2 := by
  obtain ⟨k, b⟩ := e
  simp only [groupBy, List.mem_map, List.mem_dedup, Prod.mk.injEq]
  constructor
  · rintro ⟨k', hk, rfl, rfl⟩
    exact ⟨hk, rfl⟩
  · rintro ⟨hk, rfl⟩
    exact ⟨k, hk, rfl, rfl⟩

end Groups

/-- A list without repetition whose elements are all the same. -/
theorem eq_singleton {l : List α} {a : α} (hnodup : l.Nodup) (hmem : a ∈ l) (hall : ∀ b ∈ l, b = a) : l = [a] := by
  cases l with
  | nil => cases hmem
  | cons b l =>
    obtain rfl : b = a := hall b List.mem_cons_self
    cases l with
    | nil => rfl
    | cons c l =>
      obtain rfl : c = b := hall c (List.mem_cons_of_mem _ List.mem_cons_self)
      exact absurd List.mem_cons_self (List.nodup_cons.mp hnodup).1

section Sorted
variable {r : α → α → Prop} [DecidableRel r] [Std.Total r] [IsTrans α r]

theorem head?_insertionSort {l : List α} {a : α} (h : (l.insertionSort r).head? = some a) :
    a ∈ l ∧ ∀ b ∈ l, r a b := by
  have hsorted := List.pairwise_insertionSort r l
  have hmem := fun b => List.mem_insertionSort r (l := l) (x := b)
  cases hl : l.insertionSort r with
  | nil =>
    rw [hl] at h
    cases h
  | cons c cs =>
    rw [hl] at h hsorted hmem
    obtain rfl : c = a := Option.some.inj h
    refine ⟨(hmem c).mp List.mem_cons_self, fun b hb => ?_⟩
    rcases List.mem_cons.mp ((hmem b).mpr hb) with rfl | hb
    · exact (Std.Total.total (r := r) b b).elim id id
    · exact (List.pairwise_cons.mp hsorted).1 b hb

end Sorted

/-- In an ordered list the first `n` elements are those with fewer than `n` before them. -/
theorem mem_take_iff {before : α → α → Prop} [DecidableRel before] {l : List α} {n : ℕ} {a : α}
    (hsorted : l.Pairwise before) (hasymm : ∀ a b, before a b → ¬ before b a) :
    a ∈ l.take n ↔ a ∈ l ∧ (l.filter fun b => before b a).length < n := by
  have hrank : ∀ front back : List α, l = front ++ a :: back → l.filter (fun b => before b a) = front := by
    rintro front back rfl
    obtain ⟨-, hback, hcross⟩ := List.pairwise_append.mp hsorted
    have hself : ¬ before a a := fun h => hasymm a a h h
    have hfront : front.filter (fun b => before b a) = front :=
      List.filter_eq_self.mpr fun b hb => decide_eq_true (hcross b hb a List.mem_cons_self)
    have hrest : (a :: back).filter (fun b => before b a) = [] := by
      refine List.filter_eq_nil_iff.mpr fun b hb => ?_
      rw [decide_eq_true_eq]
      rcases List.mem_cons.mp hb with rfl | hb
      · exact hself
      · exact hasymm a b ((List.pairwise_cons.mp hback).1 b hb)
    rw [List.filter_append, hfront, hrest, List.append_nil]
  constructor
  · intro h
    obtain ⟨front, back, htake⟩ := List.append_of_mem h
    have hl : l = front ++ a :: (back ++ l.drop n) := by
      rw [← List.cons_append, ← List.append_assoc, ← htake, List.take_append_drop]
    refine ⟨List.mem_of_mem_take h, ?_⟩
    rw [hrank front _ hl]
    have hlength := congrArg List.length htake
    rw [List.length_append, List.length_cons] at hlength
    have := List.length_take_le n l
    omega
  · rintro ⟨hmem, hlt⟩
    obtain ⟨front, back, rfl⟩ := List.append_of_mem hmem
    rw [hrank front back rfl] at hlt
    rw [List.take_append, List.mem_append]
    refine .inr ?_
    obtain ⟨m, hm⟩ : ∃ m, n - front.length = m + 1 := ⟨n - front.length - 1, by omega⟩
    rw [hm, List.take_succ_cons]
    exact List.mem_cons_self

end EndstoneExchange.GroupedRows
