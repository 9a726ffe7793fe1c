import Mathlib.Algebra.Order.Group.Defs
import Mathlib.Data.List.Sublists

/-!
# Spaced selections

From a list in ascending order every element is taken that has its distance from the last one
taken. No spaced selection takes more elements.
-/
namespace EndstoneExchange.SpacedSelections

section Selections
variable {α : Type*} [AddCommGroup α] [LinearOrder α] [IsOrderedAddMonoid α] (d : α)

/-- An element is too close to the last one taken. -/
def tooSoon (last : Option α) (a : α) : Prop := ∃ l ∈ last, a - l < d

instance (last : Option α) (a : α) : Decidable (tooSoon d last a) :=
  match last with
  | none => .isFalse fun ⟨_, hl, _⟩ => nomatch hl
  | some l => decidable_of_iff (a - l < d) ⟨fun h => ⟨l, rfl, h⟩, fun ⟨_, hl, h⟩ => Option.some.inj hl ▸ h⟩

def select : Option α → List α → List α
  | _, [] => []
  | last, a :: as => if tooSoon d last a then select last as else a :: select (some a) as

def Spaced (as : List α) : Prop := as.Pairwise fun a b => a + d ≤ b

variable {d} {last : Option α} {a : α} {as bs : List α}

theorem not_tooSoon (h : ¬ tooSoon d last a) : ∀ l ∈ last, l + d ≤ a := fun l hl => by
  have hge : d ≤ a - l := not_lt.mp fun hlt => h ⟨l, hl, hlt⟩
  rw [add_comm]
  exact le_sub_iff_add_le.mp hge

/-- What is taken keeps its distance from the last element, and from what was taken before. -/
theorem select_spaced (hd : 0 ≤ d) (hsorted : as.Pairwise (· ≤ ·)) :
    Spaced d (select d last as) ∧ ∀ b ∈ select d last as, ∀ l ∈ last, l + d ≤ b := by
  induction as generalizing last with
  | nil => exact ⟨List.Pairwise.nil, fun b hb => absurd hb List.not_mem_nil⟩
  | cons a as ih =>
    rw [List.pairwise_cons] at hsorted
    rw [select]
    split_ifs with hsoon
    · exact ih hsorted.2
    · obtain ⟨hspaced, hfar⟩ := @ih (some a) hsorted.2
      refine ⟨List.pairwise_cons.mpr ⟨fun b hb => hfar b hb a rfl, hspaced⟩, fun b hb l hl => ?_⟩
      rcases List.mem_cons.mp hb with rfl | hb
      · exact not_tooSoon hsoon l hl
      · exact (not_tooSoon hsoon l hl).trans ((le_add_of_nonneg_right hd).trans (hfar b hb a rfl))

/-- What is left out is too close to an element that was taken before it. -/
theorem select_covers (hd : 0 < d) (hsorted : as.Pairwise (· ≤ ·)) (hlast : ∀ l ∈ last, ∀ b ∈ as, l ≤ b) :
    ∀ b ∈ as, ∃ l, (l ∈ last ∨ l ∈ select d last as) ∧ l ≤ b ∧ b < l + d := by
  induction as generalizing last with
  | nil => exact fun b hb => absurd hb List.not_mem_nil
  | cons a as ih =>
    rw [List.pairwise_cons] at hsorted
    rw [select]
    intro b hb
    split_ifs with hsoon
    · rcases List.mem_cons.mp hb with rfl | hb
      · obtain ⟨l, hl, hlt⟩ := hsoon
        exact ⟨l, .inl hl, hlast l hl b List.mem_cons_self, sub_lt_iff_lt_add'.mp hlt⟩
      · exact ih hsorted.2 (fun l hl c hc => hlast l hl c (List.mem_cons_of_mem a hc)) b hb
    · rcases List.mem_cons.mp hb with rfl | hb
      · exact ⟨b, .inr List.mem_cons_self, le_refl b, lt_add_of_pos_right b hd⟩
      · obtain ⟨l, hl, hrest⟩ := @ih (some a) hsorted.2 (fun l hl c hc => Option.some.inj hl ▸ hsorted.1 c hc) b hb
        refine ⟨l, .inr ?_, hrest⟩
        rcases hl with hl | hl
        · exact Option.some.inj hl ▸ List.mem_cons_self
        · exact List.mem_cons_of_mem a hl

/-- The selection stays ahead of every other spaced one. -/
theorem select_longest (hsorted : as.Pairwise (· ≤ ·)) (hbs : bs.Sublist as) (hspaced : Spaced d bs)
    (hfar : ∀ b ∈ bs, ∀ l ∈ last, l + d ≤ b) : bs.length ≤ (select d last as).length := by
  induction as generalizing last bs with
  | nil => rw [List.sublist_nil.mp hbs]; exact Nat.zero_le _
  | cons a as ih =>
    rw [List.pairwise_cons] at hsorted
    rw [select]
    split_ifs with hsoon
    · refine ih hsorted.2 ?_ hspaced hfar
      rcases hbs with _ | ⟨_, hbs⟩ | ⟨_, hbs⟩
      · exact hbs
      · obtain ⟨l, hl, hlt⟩ := hsoon
        have hge := hfar a List.mem_cons_self l hl
        rw [add_comm] at hge
        exact absurd hlt (not_lt.mpr (le_sub_iff_add_le.mpr hge))
    · cases bs with
      | nil => exact Nat.zero_le _
      | cons b bs =>
        have hb : a ≤ b := by
          rcases List.mem_cons.mp (hbs.subset List.mem_cons_self) with rfl | hmem
          · exact le_refl b
          · exact hsorted.1 b hmem
        have hrest : bs.Sublist as := by
          cases hbs with
          | cons _ hbs => exact (List.sublist_cons_self b bs).trans hbs
          | cons_cons _ hbs => exact hbs
        have hspaced := List.pairwise_cons.mp hspaced
        refine Nat.succ_le_succ (ih hsorted.2 hrest hspaced.2 fun c hc l hl => ?_)
        rw [← Option.some.inj hl]
        exact (add_le_add_left hb d).trans (hspaced.1 c hc)

end Selections

end EndstoneExchange.SpacedSelections
