import Mathlib.Algebra.BigOperators.Ring.List
import Mathlib.Algebra.Order.BigOperators.Group.List
import Mathlib.Algebra.Order.Ring.Int
import Mathlib.Tactic.Linarith
import Mathlib.Tactic.Ring
import Mathlib.Tactic.SplitIfs

/-!
# Walking resting orders by price and time

An incoming order walks a list of resting orders, best first, and takes from
each as many units as both sides allow. A budget, where there is one, bounds
what it may take at each price; the walk ends at the first order of which it
can afford nothing. Orders are of any type with a price and an available
quantity.
-/
namespace EndstoneExchange.PriceTimeMatching
variable {α : Type*} (price available : α → ℤ)

/-- What a budget allows to take at a price. -/
def affordable (p : ℤ) : Option ℤ → ℤ → ℤ
  | none, q => q
  | some b, q => min q (b / p)

def spend (p q : ℤ) (budget : Option ℤ) : Option ℤ := budget.map (· - p * q)

/-- The orders that are taken from, with the units taken, for `n` wanted units. -/
def walk : List α → ℤ → Option ℤ → List (α × ℤ)
  | [], _, _ => []
  | o :: os, n, budget =>
    let q := affordable (price o) budget (min n (available o))
    if n = 0 ∨ q ≤ 0 then [] else (o, q) :: walk os (n - q) (spend (price o) q budget)

/-- The units of a list of fills. -/
def units (fills : List (α × ℤ)) : ℤ := (fills.map Prod.snd).sum

/-- What a list of fills costs at the prices of the orders taken from. -/
def value (fills : List (α × ℤ)) : ℤ := (fills.map fun f => price f.1 * f.2).sum

@[simp] theorem units_nil : units ([] : List (α × ℤ)) = 0 := rfl
@[simp] theorem value_nil : value price [] = 0 := rfl

@[simp] theorem units_cons (o : α) (q : ℤ) (fills : List (α × ℤ)) :
    units ((o, q) :: fills) = q + units fills := by simp [units]

@[simp] theorem value_cons (o : α) (q : ℤ) (fills : List (α × ℤ)) :
    value price ((o, q) :: fills) = price o * q + value price fills := by simp [value]

private theorem affordable_le (p q : ℤ) (budget : Option ℤ) : affordable p budget q ≤ q := by
  cases budget with
  | none => exact le_rfl
  | some b => exact min_le_left _ _

variable {price available} {os : List α} {n : ℤ} {budget : Option ℤ}

section Fills

/-- The members of a walk, one list element at a time. -/
theorem walk_cons (o : α) (os : List α) (n : ℤ) (budget : Option ℤ) :
    (walk price available (o :: os) n budget = [] ∧
      (n = 0 ∨ affordable (price o) budget (min n (available o)) ≤ 0)) ∨
    ∃ q, q = affordable (price o) budget (min n (available o)) ∧ n ≠ 0 ∧ 0 < q ∧ q ≤ n ∧
      q ≤ available o ∧ walk price available (o :: os) n budget =
        (o, q) :: walk price available os (n - q) (spend (price o) q budget) := by
  by_cases h : n = 0 ∨ affordable (price o) budget (min n (available o)) ≤ 0
  · exact .inl ⟨by simp only [walk, h, if_true], h⟩
  · obtain ⟨hn, hq⟩ := not_or.mp h
    have hle := affordable_le (price o) (min n (available o)) budget
    exact .inr ⟨_, rfl, hn, not_le.mp hq, hle.trans (min_le_left _ _), hle.trans (min_le_right _ _),
      by simp only [walk, h, if_false]⟩

/-- Every fill takes a positive quantity that its order has. -/
theorem walk_fill {o : α} {q : ℤ} (h : (o, q) ∈ walk price available os n budget) :
    o ∈ os ∧ 0 < q ∧ q ≤ available o := by
  induction os generalizing n budget with
  | nil => simp [walk] at h
  | cons a os ih =>
    rcases (@walk_cons _ price available) a os n budget with
      ⟨he, -⟩ | ⟨r, -, -, hpos, -, hav, he⟩ <;> rw [he] at h
    · simp at h
    · rcases List.mem_cons.mp h with heq | hmem
      · obtain ⟨rfl, rfl⟩ := Prod.mk.inj heq
        exact ⟨List.mem_cons_self .., hpos, hav⟩
      · obtain ⟨ho, hq⟩ := ih hmem
        exact ⟨List.mem_cons_of_mem _ ho, hq⟩

theorem units_walk_le (hn : 0 ≤ n) : units (walk price available os n budget) ≤ n := by
  induction os generalizing n budget with
  | nil => exact hn
  | cons a os ih =>
    rcases (@walk_cons _ price available) a os n budget with
      ⟨he, -⟩ | ⟨r, -, -, -, hle, -, he⟩ <;> rw [he]
    · exact hn
    · have hrest := @ih (n - r) (spend (price a) r budget) (sub_nonneg.mpr hle)
      rw [units_cons]
      omega

theorem value_walk_nonneg (hp : ∀ o ∈ os, 0 ≤ price o) :
    0 ≤ value price (walk price available os n budget) := by
  refine List.sum_nonneg fun c hc => ?_
  obtain ⟨⟨o, q⟩, hmem, rfl⟩ := List.mem_map.mp hc
  obtain ⟨ho, hpos, -⟩ := walk_fill hmem
  exact mul_nonneg (hp o ho) hpos.le

/-- At no price above `c` a walk costs at most `c` for each unit. -/
theorem value_walk_le_mul {c : ℤ} (h : ∀ o ∈ os, price o ≤ c) :
    value price (walk price available os n budget) ≤ c * units (walk price available os n budget) := by
  induction os generalizing n budget with
  | nil => simp [walk]
  | cons a os ih =>
    rcases (@walk_cons _ price available) a os n budget with
      ⟨he, -⟩ | ⟨q, -, -, hpos, -, -, he⟩ <;> rw [he]
    · simp
    · have hrest := @ih (n - q) (spend (price a) q budget) fun o ho => h o (List.mem_cons_of_mem _ ho)
      have hhead := mul_le_mul_of_nonneg_right (h a (List.mem_cons_self ..)) hpos.le
      rw [value_cons, units_cons, mul_add]
      linarith

/-- An order that is left with units ends the walk: either nothing more is wanted, or no
later order is cheap enough. -/
theorem walk_short {o : α} {q : ℤ} (hp : 0 < price o) (hs : budget = none ∨ ∀ a ∈ os, price o ≤ price a)
    (hq : q = affordable (price o) budget (min n (available o))) (hlt : q < available o) :
    walk price available os (n - q) (spend (price o) q budget) = [] := by
  cases os with
  | nil => rfl
  | cons a os =>
    have hstop : n - q = 0 ∨
        affordable (price a) (spend (price o) q budget) (min (n - q) (available a)) ≤ 0 := by
      cases budget with
      | none =>
        left
        simp only [affordable] at hq
        omega
      | some b =>
        by_cases hn : n - q = 0
        · exact .inl hn
        · right
          have hb : q = b / price o := by
            simp only [affordable] at hq
            omega
          have hle : price o ≤ price a :=
            (hs.resolve_left (by simp)) a (List.mem_cons_self ..)
          have hrest : b - price o * q < price a := by
            have hlt' := Int.lt_mul_ediv_self_add (x := b) hp
            rw [← hb] at hlt'
            linarith
          have hdiv : (b - price o * q) / price a ≤ 0 :=
            Int.le_of_lt_add_one ((Int.ediv_lt_iff_lt_mul (hp.trans_le hle)).mpr (by linarith))
          exact (min_le_right _ _).trans hdiv
    simp only [walk, hstop, if_true]

/-- Price-time priority: whatever stands before an order that is taken from is
taken completely. -/
theorem walk_priority {before : α → α → Prop} (hasymm : ∀ a b, before a b → ¬ before b a)
    (hb : os.Pairwise before) (hp : ∀ o ∈ os, 0 < price o)
    (hs : budget = none ∨ os.Pairwise fun a b => price a ≤ price b) {o o' : α} {q : ℤ}
    (h : (o, q) ∈ walk price available os n budget) (ho : o' ∈ os) (hlt : before o' o) :
    (o', available o') ∈ walk price available os n budget := by
  induction os generalizing n budget with
  | nil => simp at ho
  | cons a os ih =>
    obtain ⟨hab, hb'⟩ := List.pairwise_cons.mp hb
    have hs' : budget = none ∨ (∀ c ∈ os, price a ≤ price c) ∧ os.Pairwise fun a b => price a ≤ price b :=
      hs.imp_right List.pairwise_cons.mp
    rcases (@walk_cons _ price available) a os n budget with
      ⟨he, -⟩ | ⟨r, hr, -, -, -, hav, he⟩ <;> rw [he] at h ⊢
    · simp at h
    · rcases List.mem_cons.mp h with heq | hmem
      · obtain ⟨rfl, rfl⟩ := Prod.mk.inj heq
        rcases List.mem_cons.mp ho with rfl | ho
        · exact absurd hlt (hasymm _ _ hlt)
        · exact absurd hlt (hasymm _ _ (hab o' ho))
      · have hfull : r = available a := by
          by_contra hne
          have hend := (@walk_short _ _ _ os) (hp a (List.mem_cons_self ..)) (hs'.imp_right And.left) hr
            (lt_of_le_of_ne hav hne)
          rw [hend] at hmem
          simp at hmem
        rcases List.mem_cons.mp ho with rfl | ho
        · rw [hfull]
          exact List.mem_cons_self ..
        · refine List.mem_cons_of_mem _ (ih hb' (fun c hc => hp c (List.mem_cons_of_mem _ hc)) ?_ hmem ho)
          refine hs'.imp (fun hnone => by simp [hnone, spend]) And.right

end Fills

section Budgets
variable {b : ℤ}

/-- A plan takes from each order no more than it has. -/
def Plan (available : α → ℤ) (os : List α) (x : α → ℤ) : Prop := ∀ o ∈ os, 0 ≤ x o ∧ x o ≤ available o

/-- Why a walk cannot be beaten: it took all that was wanted, it took all there was, or
there is a price above what is left of the budget such that it took everything cheaper and
nothing dearer. -/
theorem walk_certificate (hs : os.Pairwise fun a b => price a ≤ price b) (hp : ∀ o ∈ os, 0 < price o)
    (hav : ∀ o ∈ os, 0 < available o) (hn : 0 ≤ n) :
    units (walk price available os n (some b)) = n ∨
    (∀ x, Plan available os x → (os.map x).sum ≤ units (walk price available os n (some b))) ∨
    ∃ p, (∃ o ∈ os, p = price o) ∧ b - value price (walk price available os n (some b)) < p ∧
      ∀ x, Plan available os x → p * ((os.map x).sum - units (walk price available os n (some b))) ≤
        (os.map fun o => price o * x o).sum - value price (walk price available os n (some b)) := by
  induction os generalizing n b with
  | nil => exact .inr (.inl fun x _ => by simp [walk])
  | cons a os ih =>
    obtain ⟨hle, hs'⟩ := List.pairwise_cons.mp hs
    have hpa := hp a (List.mem_cons_self ..)
    have hava := hav a (List.mem_cons_self ..)
    have hmem : ∀ {o}, o ∈ os → o ∈ a :: os := fun h => List.mem_cons_of_mem _ h
    -- Every unit of a plan costs at least the best price.
    have hbest : ∀ x, Plan available os x → price a * (os.map x).sum ≤
        (os.map fun o => price o * x o).sum := by
      intro x hx
      rw [← List.sum_map_mul_left]
      exact List.sum_le_sum fun o ho => mul_le_mul_of_nonneg_right (hle o ho) (hx o ho).1
    rcases (@walk_cons _ price available) a os n (some b) with
      ⟨he, hstop⟩ | ⟨q, hq, -, hpos, hqn, hqa, he⟩ <;> rw [he]
    · rcases hstop with h0 | hstop
      · exact .inl (by rw [units_nil, h0])
      · by_cases h0 : n = 0
        · exact .inl (by rw [units_nil, h0])
        · refine .inr (.inr ⟨price a, ⟨a, List.mem_cons_self .., rfl⟩, ?_, fun x hx => ?_⟩)
          · have hdiv : b / price a ≤ 0 := by
              simp only [affordable] at hstop
              omega
            rw [value_nil, sub_zero]
            have := (Int.ediv_lt_iff_lt_mul hpa).mp (Int.lt_add_one_of_le hdiv)
            linarith
          · have := hbest x fun o ho => hx o (hmem ho)
            simp only [units_nil, value_nil, sub_zero, List.map_cons, List.sum_cons, mul_add]
            linarith
    · by_cases hfull : q = available a
      · have hplan : ∀ x, Plan available (a :: os) x → x a ≤ q ∧ Plan available os x := fun x hx =>
          ⟨hfull ▸ (hx a (List.mem_cons_self ..)).2, fun o ho => hx o (hmem ho)⟩
        simp only [units_cons, value_cons, List.map_cons, List.sum_cons]
        rcases ih (n := n - q) (b := b - price a * q) hs' (fun o ho => hp o (hmem ho))
          (fun o ho => hav o (hmem ho)) (sub_nonneg.mpr hqn) with hall | hmost | ⟨p, ⟨o, ho, rfl⟩, hlt, hdual⟩
        · exact .inl (by simp only [spend, Option.map_some, hall]; ring)
        · refine .inr (.inl fun x hx => ?_)
          have := hmost x (hplan x hx).2
          simp only [spend, Option.map_some]
          linarith [(hplan x hx).1]
        · refine .inr (.inr ⟨price o, ⟨o, hmem ho, rfl⟩, ?_, fun x hx => ?_⟩)
          · simp only [spend, Option.map_some]
            linarith
          · have htail := hdual x (hplan x hx).2
            have hhead : 0 ≤ (price o - price a) * (q - x a) :=
              mul_nonneg (sub_nonneg.mpr (hle o ho)) (sub_nonneg.mpr (hplan x hx).1)
            simp only [spend, Option.map_some]
            linarith
      · have hend := (@walk_short _ _ _ os) hpa (.inr hle) hq (lt_of_le_of_ne hqa hfull)
        rw [hend]
        simp only [units_cons, value_cons, units_nil, value_nil, add_zero]
        by_cases hqn' : q = n
        · exact .inl hqn'
        · have hdiv : q = b / price a := by
            simp only [affordable] at hq
            omega
          refine .inr (.inr ⟨price a, ⟨a, List.mem_cons_self .., rfl⟩, ?_, fun x hx => ?_⟩)
          · have hlt := Int.lt_mul_ediv_self_add (x := b) hpa
            rw [← hdiv] at hlt
            linarith
          · have := hbest x fun o ho => hx o (hmem ho)
            simp only [List.map_cons, List.sum_cons]
            linarith

/-- A walk stays within its budget. -/
theorem value_walk_le (hp : ∀ o ∈ os, 0 < price o) (hb : 0 ≤ b) :
    value price (walk price available os n (some b)) ≤ b := by
  induction os generalizing n b with
  | nil => exact hb
  | cons a os ih =>
    rcases (@walk_cons _ price available) a os n (some b) with
      ⟨he, -⟩ | ⟨q, hq, -, -, -, -, he⟩ <;> rw [he]
    · exact hb
    · have hcost : price a * q ≤ b := by
        have hdiv : q ≤ b / price a := by
          simp only [affordable] at hq
          omega
        rw [mul_comm]
        exact (Int.le_ediv_iff_mul_le (hp a (List.mem_cons_self ..))).mp hdiv
      have hrest := ih (n := n - q) (b := b - price a * q)
        (fun o ho => hp o (List.mem_cons_of_mem _ ho)) (sub_nonneg.mpr hcost)
      simp only [value_cons, spend, Option.map_some]
      linarith

/-- No plan within the budget takes more units than the walk. -/
theorem plan_le_walk (hs : os.Pairwise fun a b => price a ≤ price b) (hp : ∀ o ∈ os, 0 < price o)
    (hav : ∀ o ∈ os, 0 < available o) (hn : 0 ≤ n) {x : α → ℤ} (hx : Plan available os x)
    (hwanted : (os.map x).sum ≤ n) (hcost : (os.map fun o => price o * x o).sum ≤ b) :
    (os.map x).sum ≤ units (walk price available os n (some b)) := by
  rcases walk_certificate (b := b) hs hp hav hn with hall | hmost | ⟨p, ⟨o, ho, rfl⟩, hlt, hdual⟩
  · rw [hall]
    exact hwanted
  · exact hmost x hx
  · by_contra hmore
    have hunit : 1 ≤ (os.map x).sum - units (walk price available os n (some b)) := by omega
    have hprice := mul_le_mul_of_nonneg_left hunit (hp o ho).le
    linarith [hdual x hx]

/-- A budget that pays for all that is wanted changes nothing. -/
theorem walk_within (hp : ∀ o ∈ os, 0 < price o) (hav : ∀ o ∈ os, 0 < available o) (hn : 0 ≤ n)
    (hb : value price (walk price available os n none) ≤ b) :
    walk price available os n (some b) = walk price available os n none := by
  induction os generalizing n b with
  | nil => rfl
  | cons a os ih =>
    have hpa := hp a (List.mem_cons_self ..)
    have hava := hav a (List.mem_cons_self ..)
    rcases (@walk_cons _ price available) a os n none with ⟨he, hstop⟩ | ⟨q, hq, h0, hpos, hle, -, he⟩
    · have h0 : n = 0 := by
        simp only [affordable] at hstop
        omega
      simp only [walk, h0, true_or, if_true]
    · have hrest : 0 ≤ value price (walk price available os (n - q) none) :=
        value_walk_nonneg fun o ho => (hp o (List.mem_cons_of_mem _ ho)).le
      rw [he, value_cons, spend, Option.map_none] at hb
      have hafford : q ≤ b / price a := by
        rw [Int.le_ediv_iff_mul_le hpa, mul_comm]
        linarith
      have hsame : affordable (price a) (some b) (min n (available a)) = q := by
        simp only [affordable] at hq ⊢
        omega
      have hgo : ¬ (n = 0 ∨ q ≤ 0) := not_or.mpr ⟨h0, not_le.mpr hpos⟩
      have htail := ih (n := n - q) (b := b - price a * q) (fun o ho => hp o (List.mem_cons_of_mem _ ho))
        (fun o ho => hav o (List.mem_cons_of_mem _ ho)) (sub_nonneg.mpr hle) (by linarith)
      rw [he]
      simp only [walk, hsame, hgo, if_false, spend, Option.map_some, Option.map_none, htail]

/-- Without a budget a walk takes all that is wanted or all there is. -/
theorem units_walk (hav : ∀ o ∈ os, 0 < available o) (hn : 0 ≤ n) :
    units (walk price available os n none) = min n (os.map available).sum := by
  induction os generalizing n with
  | nil => simp [walk, hn]
  | cons a os ih =>
    have hava := hav a (List.mem_cons_self ..)
    have hsum : 0 ≤ (os.map available).sum := List.sum_nonneg fun x hx => by
      obtain ⟨o, ho, rfl⟩ := List.mem_map.mp hx
      exact (hav o (List.mem_cons_of_mem _ ho)).le
    rw [List.map_cons, List.sum_cons]
    rcases (@walk_cons _ price available) a os n none with ⟨he, hstop⟩ | ⟨q, hq, -, -, hle, -, he⟩
    · have h0 : n = 0 := by
        simp only [affordable] at hstop
        omega
      rw [he, units_nil]
      omega
    · rw [he, units_cons, spend, Option.map_none, ih (fun o ho => hav o (List.mem_cons_of_mem _ ho))
        (sub_nonneg.mpr hle)]
      simp only [affordable] at hq
      omega

end Budgets
end EndstoneExchange.PriceTimeMatching
