import Mathlib.Logic.Basic
import Mathlib.Tactic.TypeStar

/-!
# Atomic transactions

A transaction transforms a state or raises an exception. An exception discards
every write, so a raised transaction is one without effect. The `_ok` lemmas
invert a returning transaction one statement at a time, the `_error` lemmas a
raised one.
-/
namespace EndstoneExchange.AtomicTransactions

abbrev Transaction (σ ε α : Type) : Type := StateT σ (Except ε) α

namespace Transaction
variable {σ ε α β : Type}

/-- A query that always has an answer. -/
def select (f : σ → α) : Transaction σ ε α := fun s => .ok (f s, s)

/-- A query whose empty result raises `e`. -/
def selectOne (f : σ → Option α) (e : ε) : Transaction σ ε α := fun s =>
  match f s with
  | some a => .ok (a, s)
  | none => .error e

def execute (f : σ → σ) : Transaction σ ε PUnit := fun s => .ok (⟨⟩, f s)

def throwIf (c : Prop) [Decidable c] (e : ε) : Transaction σ ε PUnit := fun s =>
  if c then .error e else .ok (⟨⟩, s)

variable {x : Transaction σ ε α} {f : α → Transaction σ ε β} {s : σ} {e e' : ε}

section Returns

theorem bind_ok {r : β × σ} : (x >>= f) s = .ok r ↔ ∃ p, x s = .ok p ∧ f p.1 p.2 = .ok r := by
  change (Except.bind (x s) fun p => f p.1 p.2) = _ ↔ _
  cases x s <;> simp [Except.bind]

theorem pure_ok {a : α} {p : α × σ} : (pure a : Transaction σ ε α) s = .ok p ↔ (a, s) = p := by
  change Except.ok (a, s) = _ ↔ _
  rw [Except.ok.injEq]

theorem select_ok {g : σ → α} {p : α × σ} :
    (select g : Transaction σ ε α) s = .ok p ↔ (g s, s) = p := by
  simp [select]

theorem selectOne_ok {g : σ → Option α} {p : α × σ} :
    selectOne g e s = .ok p ↔ ∃ a, g s = some a ∧ (a, s) = p := by
  unfold selectOne
  cases g s <;> simp

theorem execute_ok {g : σ → σ} {p : PUnit × σ} :
    (execute g : Transaction σ ε PUnit) s = .ok p ↔ (⟨⟩, g s) = p := by
  simp [execute]

theorem throwIf_ok {c : Prop} [Decidable c] {p : PUnit × σ} :
    (throwIf c e : Transaction σ ε PUnit) s = .ok p ↔ ¬ c ∧ (⟨⟩, s) = p := by
  unfold throwIf
  by_cases hc : c <;> simp [hc]

theorem liftM_ok {y : Except ε α} {p : α × σ} :
    (liftM y : Transaction σ ε α) s = .ok p ↔ ∃ a, y = .ok a ∧ (a, s) = p := by
  change (Except.bind y fun a => Except.ok (a, s)) = _ ↔ _
  cases y <;> simp [Except.bind]

theorem ite_ok {c : Prop} [Decidable c] {y : Transaction σ ε α} {p : α × σ} :
    (if c then x else y) s = .ok p ↔ c ∧ x s = .ok p ∨ ¬ c ∧ y s = .ok p := by
  by_cases hc : c <;> simp [hc]

end Returns

section Raises

theorem bind_error : (x >>= f) s = .error e ↔
    x s = .error e ∨ ∃ p, x s = .ok p ∧ f p.1 p.2 = .error e := by
  change (Except.bind (x s) fun p => f p.1 p.2) = _ ↔ _
  cases x s <;> simp [Except.bind]

private theorem pure_error {a : α} : (pure a : Transaction σ ε α) s = .error e ↔ False := by
  change Except.ok (a, s) = _ ↔ _
  simp

theorem select_error {g : σ → α} : (select g : Transaction σ ε α) s = .error e ↔ False := by
  simp [select]

theorem selectOne_error {g : σ → Option α} :
    selectOne g e s = .error e' ↔ g s = none ∧ e = e' := by
  unfold selectOne
  cases g s <;> simp

private theorem execute_error {g : σ → σ} : (execute g : Transaction σ ε PUnit) s = .error e ↔ False := by
  simp [execute]

theorem throwIf_error {c : Prop} [Decidable c] :
    (throwIf c e : Transaction σ ε PUnit) s = .error e' ↔ c ∧ e = e' := by
  unfold throwIf
  by_cases hc : c <;> simp [hc]

private theorem liftM_error {y : Except ε α} : (liftM y : Transaction σ ε α) s = .error e ↔ y = .error e := by
  change (Except.bind y fun a => Except.ok (a, s)) = _ ↔ _
  cases y <;> simp [Except.bind]

private theorem ite_error {c : Prop} [Decidable c] {y : Transaction σ ε α} :
    (if c then x else y) s = .error e ↔ c ∧ x s = .error e ∨ ¬ c ∧ y s = .error e := by
  by_cases hc : c <;> simp [hc]

end Raises

/-- Whatever a transaction raises from a state satisfies `E`. -/
def RaisesOnly (E : ε → Prop) (x : Transaction σ ε α) (s : σ) : Prop := ∀ e, x s = .error e → E e

namespace RaisesOnly
variable {E : ε → Prop}

theorem bind (hx : RaisesOnly E x s) (hf : ∀ a s', x s = .ok (a, s') → RaisesOnly E (f a) s') :
    RaisesOnly E (x >>= f) s := by
  intro e he
  obtain he | ⟨⟨a, s'⟩, hok, he⟩ := bind_error.mp he
  · exact hx e he
  · exact hf a s' hok e he

theorem pure {a : α} : RaisesOnly E (Pure.pure a : Transaction σ ε α) s :=
  fun _ he => (pure_error.mp he).elim

theorem select {g : σ → α} : RaisesOnly E (select g) s := fun _ he => (select_error.mp he).elim

theorem selectOne {g : σ → Option α} (h : E e) : RaisesOnly E (selectOne g e) s :=
  fun _ he => (selectOne_error.mp he).2 ▸ h

theorem execute {g : σ → σ} : RaisesOnly E (execute g) s := fun _ he => (execute_error.mp he).elim

theorem throwIf {c : Prop} [Decidable c] (h : c → E e) : RaisesOnly E (throwIf c e) s := by
  intro e' he
  obtain ⟨hc, rfl⟩ := throwIf_error.mp he
  exact h hc

theorem liftM {y : Except ε α} (h : ∀ e, y = .error e → E e) :
    RaisesOnly E (liftM y : Transaction σ ε α) s := fun e he => h e (liftM_error.mp he)

theorem ite {c : Prop} [Decidable c] {y : Transaction σ ε α} (hx : c → RaisesOnly E x s)
    (hy : ¬ c → RaisesOnly E y s) : RaisesOnly E (if c then x else y) s := by
  intro e he
  obtain ⟨hc, he⟩ | ⟨hc, he⟩ := ite_error.mp he
  · exact hx hc e he
  · exact hy hc e he

end RaisesOnly
end Transaction
end EndstoneExchange.AtomicTransactions
