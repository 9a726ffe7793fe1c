import Mathlib.Logic.Relation
import Mathlib.Data.List.Basic

/-!
# Programs over durable state with injected faults

A program is a sequence of atomic calls on a durable state. A schedule decides
what befalls each call: it proceeds, it fails with or without its effect, or
the process stops before it. A stop skips every later call and every exception
handler, and the durable state is what recovery finds. `Triple` is the
corresponding logic: one postcondition for a return, one for an exception and
one for a stop.
-/
namespace EndstoneExchange.DurablePrograms

inductive Fault where
  | proceed | failBefore | failAfter | crash
  deriving DecidableEq, Repr

inductive Outcome (ε α : Type) where
  | returned (value : α)
  | threw (error : ε)
  | crashed
  deriving DecidableEq, Repr

/-- The schedule holds one fault for each atomic call; calls past its end proceed. -/
def Program (σ ε α : Type) : Type := List Fault → σ → Outcome ε α × List Fault × σ

namespace Program
variable {σ τ ε δ α β : Type}

protected def pure (a : α) : Program σ ε α := fun fs s => (.returned a, fs, s)

protected def bind (x : Program σ ε α) (f : α → Program σ ε β) : Program σ ε β := fun fs s =>
  match x fs s with
  | (.returned a, fs, s) => f a fs s
  | (.threw e, fs, s) => (.threw e, fs, s)
  | (.crashed, fs, s) => (.crashed, fs, s)

instance : Monad (Program σ ε) where
  pure := Program.pure
  bind := Program.bind

protected def throw (e : ε) : Program σ ε α := fun fs s => (.threw e, fs, s)

/-- Handlers see exceptions, never a stop of the process. -/
protected def tryCatch (x : Program σ ε α) (handler : ε → Program σ ε α) : Program σ ε α := fun fs s =>
  match x fs s with
  | (.returned a, fs, s) => (.returned a, fs, s)
  | (.threw e, fs, s) => handler e fs s
  | (.crashed, fs, s) => (.crashed, fs, s)

instance : MonadExceptOf ε (Program σ ε) where
  throw := Program.throw
  tryCatch := Program.tryCatch

/-- A computation that touches no state. -/
def ofExcept : Except ε α → Program σ ε α
  | .ok a => pure a
  | .error e => throw e

private def settle (f : σ → Except ε (α × σ)) (fs : List Fault) (s : σ) : Outcome ε α × List Fault × σ :=
  match f s with
  | .ok (a, s') => (.returned a, fs, s')
  | .error e => (.threw e, fs, s)

/-- One atomic call. A failing body leaves the state alone; `lost` is the
exception of a call whose acknowledgement is lost. -/
def atomic (lost : ε) (f : σ → Except ε (α × σ)) : Program σ ε α
  | [], s => settle f [] s
  | .proceed :: fs, s => settle f fs s
  | .failBefore :: fs, s => (.threw lost, fs, s)
  | .failAfter :: fs, s =>
    match f s with
    | .ok (_, s') => (.threw lost, fs, s')
    | .error e => (.threw e, fs, s)
  | .crash :: fs, s => (.crashed, fs, s)

/-- One atomic step that cannot raise an exception; the process can stop before it. -/
def step (f : σ → α × σ) : Program σ ε α
  | .crash :: fs, s => (.crashed, fs, s)
  | fs, s => let r := f s; (.returned r.1, fs.tail, r.2)

/-- One exchange with the environment: the schedule's fault decides how it goes. -/
def call (f : Fault → σ → Except ε α × σ) : Program σ ε α := fun fs s =>
  match fs.headD .proceed with
  | .crash => (.crashed, fs.tail, s)
  | fault =>
    let r := f fault s
    match r.1 with
    | .ok a => (.returned a, fs.tail, r.2)
    | .error e => (.threw e, fs.tail, r.2)

/-- Run a program on a component of a larger state. -/
def zoom (get : τ → σ) (set : σ → τ → τ) (x : Program σ ε α) : Program τ ε α := fun fs t =>
  let r := x fs (get t)
  (r.1, r.2.1, set r.2.2 t)

/-- Run a program whose exceptions are reported as others. -/
def mapError (f : ε → δ) (x : Program σ ε α) : Program σ δ α := fun fs s =>
  match x fs s with
  | (.returned a, fs, s) => (.returned a, fs, s)
  | (.threw e, fs, s) => (.threw (f e), fs, s)
  | (.crashed, fs, s) => (.crashed, fs, s)

def forEach (body : β → Program σ ε PUnit) : List β → Program σ ε PUnit
  | [] => pure ⟨⟩
  | b :: bs => do body b; forEach body bs

theorem bind_returned {x : Program σ ε α} {f : α → Program σ ε β} {fs fs' : List Fault} {s s' : σ}
    {a : α} (h : x fs s = (.returned a, fs', s')) : (x >>= f) fs s = f a fs' s' := by
  change Program.bind x f fs s = _
  rw [Program.bind, h]

theorem bind_assoc {γ : Type} (x : Program σ ε α) (f : α → Program σ ε β) (g : β → Program σ ε γ) :
    x >>= f >>= g = x >>= fun a => f a >>= g := by
  funext fs s
  change Program.bind (Program.bind x f) g fs s = Program.bind x (fun a => Program.bind (f a) g) fs s
  unfold Program.bind
  rcases x fs s with ⟨_ | _ | _, fs', s'⟩ <;> rfl

/-- Dropping the result leaves the same state. -/
theorem discard_state (x : Program σ ε α) (b : β) (fs : List Fault) (s : σ) :
    ((x >>= fun _ => Pure.pure b : Program σ ε β) fs s).2.2 = (x fs s).2.2 := by
  change (Program.bind x (fun _ => Program.pure b) fs s).2.2 = _
  unfold Program.bind
  rcases x fs s with ⟨_ | _ | _, fs', s'⟩ <;> rfl

theorem bind_threw {x : Program σ ε α} {f : α → Program σ ε β} {fs fs' : List Fault} {s s' : σ} {e : ε}
    (h : (x >>= f) fs s = (.threw e, fs', s')) : x fs s = (.threw e, fs', s') ∨
      ∃ a gs t, x fs s = (.returned a, gs, t) ∧ f a gs t = (.threw e, fs', s') := by
  change Program.bind x f fs s = _ at h
  rw [Program.bind] at h
  rcases hx : x fs s with ⟨a | d | _, gs, t⟩ <;> simp only [hx] at h
  · exact .inr ⟨a, gs, t, rfl, h⟩
  · cases h
    exact .inl rfl
  · cases h

/-- An exception of the body leaves the state alone. -/
theorem atomic_threw {lost e : ε} {f : σ → Except ε (α × σ)} {fs : List Fault} {s s' : σ}
    (h : Program.atomic lost f [] s = (.threw e, fs, s')) : s' = s := by
  rw [atomic, settle] at h
  cases hf : f s with
  | error d =>
    simp only [hf] at h
    cases h
    rfl
  | ok r =>
    simp only [hf] at h
    cases h

theorem atomic_ok {lost : ε} {f : σ → Except ε (α × σ)} {fs : List Fault} {s s' : σ} {a : α}
    (h : Program.atomic lost f [] s = (.returned a, fs, s')) : f s = .ok (a, s') ∧ fs = [] := by
  rw [atomic, settle] at h
  cases hf : f s with
  | error d =>
    simp only [hf] at h
    cases h
  | ok r =>
    simp only [hf] at h
    cases h
    exact ⟨rfl, rfl⟩

theorem bind_error {x : Program σ ε α} {f : α → Program σ ε β} {fs fs' : List Fault} {s s' : σ} {e : ε}
    (h : x fs s = (.threw e, fs', s')) : (x >>= f) fs s = (.threw e, fs', s') := by
  change Program.bind x f fs s = _
  rw [Program.bind, h]

theorem atomic_error {lost e : ε} {f : σ → Except ε (α × σ)} {s : σ} (h : f s = .error e) :
    Program.atomic lost f [] s = (.threw e, [], s) := by
  rw [atomic, settle, h]

/-- Without a fault an atomic call does what its body does. -/
theorem atomic_returned {lost : ε} {f : σ → Except ε (α × σ)} {s s' : σ} {a : α}
    (h : f s = .ok (a, s')) : Program.atomic lost f [] s = (.returned a, [], s') := by
  rw [atomic, settle, h]

end Program

section Logic
variable {σ τ ε α β : Type}

/-- The end of a run satisfies the postcondition of its kind. -/
def Ends (Q : α → σ → Prop) (E : ε → σ → Prop) (C : σ → Prop)
    (r : Outcome ε α × List Fault × σ) : Prop :=
  match r.1 with
  | .returned a => Q a r.2.2
  | .threw e => E e r.2.2
  | .crashed => C r.2.2

/-- From every state in `P` the program ends in `Q` on a return, in `E` on an
exception and in `C` when the process stops, whatever the schedule. -/
def Triple (P : σ → Prop) (x : Program σ ε α) (Q : α → σ → Prop) (E : ε → σ → Prop)
    (C : σ → Prop) : Prop :=
  ∀ fs s, P s → Ends Q E C (x fs s)

/-- `I` holds wherever the program ends, provided it holds at the start. -/
def Keeps (I : σ → Prop) (x : Program σ ε α) : Prop :=
  Triple I x (fun _ => I) (fun _ => I) I

variable {P P' C C' I : σ → Prop} {Q Q' : α → σ → Prop} {E E' : ε → σ → Prop}
  {x : Program σ ε α}

/-- A postcondition of every kind of exit holds where the program leaves the state. -/
theorem Triple.final {R : σ → Prop} (h : Triple P x (fun _ => R) (fun _ => R) R) (fs : List Fault)
    {s : σ} (hs : P s) : R (x fs s).2.2 := by
  have hx := h fs s hs
  unfold Ends at hx
  cases hr : (x fs s).1 <;> rw [hr] at hx <;> exact hx

theorem Keeps.final (h : Keeps I x) (fs : List Fault) {s : σ} (hs : I s) : I (x fs s).2.2 :=
  Triple.final h fs hs

namespace Triple

/-- What is known of every final state. -/
theorem of_final {R : σ → Prop} (h : ∀ fs s, P s → R (x fs s).2.2) : Triple P x (fun _ => R) (fun _ => R) R := by
  intro fs s hs
  have hfinal := h fs s hs
  cases hx : x fs s with
  | mk outcome rest =>
    rw [hx] at hfinal
    cases outcome <;> exact hfinal

theorem conseq (h : Triple P' x Q' E' C') (hP : ∀ s, P s → P' s) (hQ : ∀ a s, Q' a s → Q a s)
    (hE : ∀ e s, E' e s → E e s) (hC : ∀ s, C' s → C s) : Triple P x Q E C := by
  intro fs s hs
  have hx := h fs s (hP s hs)
  unfold Ends at hx ⊢
  cases hr : (x fs s).1 with
  | returned a => rw [hr] at hx; exact hQ a _ hx
  | threw e => rw [hr] at hx; exact hE e _ hx
  | crashed => rw [hr] at hx; exact hC _ hx

theorem and (h : Triple P x Q E C) (h' : Triple P' x Q' E' C') : Triple (fun s => P s ∧ P' s) x
    (fun a s => Q a s ∧ Q' a s) (fun e s => E e s ∧ E' e s) fun s => C s ∧ C' s := by
  intro fs s hs
  have hfirst := h fs s hs.1
  have hsecond := h' fs s hs.2
  unfold Ends at *
  cases hr : (x fs s).1 <;> simp only [hr] at hfirst hsecond ⊢ <;> exact ⟨hfirst, hsecond⟩

theorem pure {a : α} (h : ∀ s, P s → Q a s) : Triple P (Pure.pure a : Program σ ε α) Q E C :=
  fun _ s hs => h s hs

theorem throw {e : ε} (h : ∀ s, P s → E e s) :
    Triple P (MonadExcept.throw e : Program σ ε α) Q E C :=
  fun _ s hs => h s hs

theorem ofExcept {r : Except ε α} (hok : ∀ a s, r = .ok a → P s → Q a s)
    (herr : ∀ e s, r = .error e → P s → E e s) : Triple P (Program.ofExcept r) Q E C := by
  cases r with
  | error e => exact throw fun s hs => herr e s rfl hs
  | ok a => exact pure fun s hs => hok a s rfl hs

theorem bind {R : β → σ → Prop} {y : Program σ ε β} {f : β → Program σ ε α}
    (hy : Triple P y R E C) (hf : ∀ b, Triple (R b) (f b) Q E C) : Triple P (y >>= f) Q E C := by
  intro fs s hs
  have h := hy fs s hs
  change Ends Q E C (Program.bind y f fs s)
  unfold Program.bind
  rcases hr : y fs s with ⟨b | e | _, fs', s'⟩ <;> rw [hr] at h
  · exact hf b fs' s' h
  · exact h
  · exact h

/-- `if c then throw e` before the rest of a program. -/
theorem guard {c : Prop} [Decidable c] {e : ε} (ht : c → ∀ s, P s → E e s)
    (hx : ¬ c → Triple P x Q E C) :
    Triple P (if c then (do let _ : PUnit ← MonadExcept.throw e; x) else x) Q E C := by
  by_cases hc : c
  · rw [if_pos hc]
    exact bind (R := fun _ _ => False) (throw (ht hc)) fun _ _ _ h => h.elim
  · rw [if_neg hc]
    exact hx hc

theorem tryCatch {E₀ : ε → σ → Prop} {handler : ε → Program σ ε α}
    (hx : Triple P x Q E₀ C) (hh : ∀ e, Triple (E₀ e) (handler e) Q E C) :
    Triple P (MonadExcept.tryCatch x handler) Q E C := by
  intro fs s hs
  have h := hx fs s hs
  change Ends Q E C (Program.tryCatch x handler fs s)
  unfold Program.tryCatch
  rcases hr : x fs s with ⟨a | e | _, fs', s'⟩ <;> rw [hr] at h
  · exact h
  · exact hh e fs' s' h
  · exact h

theorem atomic {lost : ε} {f : σ → Except ε (α × σ)} (hC : ∀ s, P s → C s)
    (hlost : ∀ s, P s → E lost s)
    (hok : ∀ s a s', P s → f s = .ok (a, s') → Q a s' ∧ E lost s')
    (herr : ∀ s e, P s → f s = .error e → E e s) : Triple P (Program.atomic lost f) Q E C := by
  intro fs s hs
  have hrun : ∀ gs, Ends Q E C (Program.settle f gs s) := by
    intro gs
    unfold Program.settle
    rcases hf : f s with e | ⟨a, s'⟩
    · exact herr s e hs hf
    · exact (hok s a s' hs hf).1
  rcases fs with _ | ⟨_ | _ | _ | _, fs⟩
  · exact hrun []
  · exact hrun fs
  · exact hlost s hs
  · simp only [Program.atomic]
    rcases hf : f s with e | ⟨a, s'⟩
    · exact herr s e hs hf
    · exact (hok s a s' hs hf).2
  · exact hC s hs

theorem step {f : σ → α × σ} (hC : ∀ s, P s → C s) (h : ∀ s, P s → Q (f s).1 (f s).2) :
    Triple P (Program.step f : Program σ ε α) Q E C := by
  intro fs s hs
  rcases fs with _ | ⟨_ | _ | _ | _, fs⟩
  · exact h s hs
  · exact h s hs
  · exact h s hs
  · exact h s hs
  · exact hC s hs

theorem call {f : Fault → σ → Except ε α × σ} (hC : ∀ s, P s → C s)
    (hok : ∀ fault s a, P s → (f fault s).1 = .ok a → Q a (f fault s).2)
    (herr : ∀ fault s e, P s → (f fault s).1 = .error e → E e (f fault s).2) :
    Triple P (Program.call f) Q E C := by
  intro fs s hs
  have hrun : ∀ fault, Ends Q E C (match (f fault s).1 with
      | .ok a => (.returned a, fs.tail, (f fault s).2)
      | .error e => (.threw e, fs.tail, (f fault s).2)) := by
    intro fault
    cases hf : (f fault s).1 with
    | ok a => exact hok fault s a hs hf
    | error e => exact herr fault s e hs hf
  unfold Program.call
  cases fs.headD .proceed with
  | crash => exact hC s hs
  | proceed => exact hrun .proceed
  | failBefore => exact hrun .failBefore
  | failAfter => exact hrun .failAfter

theorem mapError {δ : Type} {f : δ → ε} {x : Program σ δ α} (h : Triple P x Q (fun e => E (f e)) C) :
    Triple P (Program.mapError f x) Q E C := by
  intro fs s hs
  have hx := h fs s hs
  unfold Program.mapError
  unfold Ends at hx
  rcases hr : x fs s with ⟨a | e | _, fs', s'⟩ <;> rw [hr] at hx <;> exact hx

theorem zoom {get : τ → σ} {set : σ → τ → τ} {p : τ → Prop} {q : α → τ → Prop}
    {e : ε → τ → Prop} {c : τ → Prop}
    (h : ∀ t, p t → Triple (· = get t) x (fun a s => q a (set s t)) (fun d s => e d (set s t))
      (fun s => c (set s t))) : Triple p (Program.zoom get set x) q e c := by
  intro fs t ht
  have hx := h t ht fs (get t) rfl
  unfold Program.zoom Ends
  unfold Ends at hx
  cases hr : (x fs (get t)).1 <;> rw [hr] at hx <;> exact hx

/-- Loop rule: `R bs` holds when the items `bs` are still to come. -/
theorem forEach {R : List β → σ → Prop} {body : β → Program σ ε PUnit}
    (hbody : ∀ b bs, Triple (R (b :: bs)) (body b) (fun _ => R bs) E C) (bs : List β) :
    Triple (R bs) (Program.forEach body bs) (fun _ => R []) E C := by
  induction bs with
  | nil => exact pure fun _ h => h
  | cons b bs ih => exact bind (hbody b bs) fun _ => ih

/-- A precondition may be weakened to a fact about the state at hand. -/
theorem of_forall (h : ∀ s, P s → Triple (· = s) x Q E C) : Triple P x Q E C :=
  fun fs s hs => h s hs fs s rfl

theorem from_state (h : Triple P x Q E C) {s : σ} (hs : P s) : Triple (· = s) x Q E C := by
  rintro fs _ rfl
  exact h fs _ hs

end Triple

namespace Keeps

theorem pure {a : α} : Keeps I (Pure.pure a : Program σ ε α) := Triple.pure fun _ h => h

theorem throw {e : ε} : Keeps I (MonadExcept.throw e : Program σ ε α) := Triple.throw fun _ h => h

theorem bind {y : Program σ ε β} {f : β → Program σ ε α} (hy : Keeps I y)
    (hf : ∀ b, Keeps I (f b)) : Keeps I (y >>= f) := Triple.bind hy hf

theorem guard {c : Prop} [Decidable c] {e : ε} (hx : ¬ c → Keeps I x) :
    Keeps I (if c then (do let _ : PUnit ← MonadExcept.throw e; x) else x) :=
  Triple.guard (fun _ _ h => h) hx

theorem tryCatch {handler : ε → Program σ ε α} (hx : Keeps I x) (hh : ∀ e, Keeps I (handler e)) :
    Keeps I (MonadExcept.tryCatch x handler) := Triple.tryCatch hx hh

theorem atomic {lost : ε} {f : σ → Except ε (α × σ)}
    (h : ∀ s a s', I s → f s = .ok (a, s') → I s') : Keeps I (Program.atomic lost f) :=
  Triple.atomic (fun _ hs => hs) (fun _ hs => hs)
    (fun s a s' hs hf => ⟨h s a s' hs hf, h s a s' hs hf⟩) (fun _ _ hs _ => hs)

theorem and {J : σ → Prop} (hI : Keeps I x) (hJ : Keeps J x) : Keeps (fun s => I s ∧ J s) x := Triple.and hI hJ

/-- An atomic call keeps what its body keeps. -/
theorem body {lost : ε} {f : σ → Except ε (α × σ)} (h : Keeps I (Program.atomic lost f)) {s s' : σ}
    {a : α} (hs : I s) (hf : f s = .ok (a, s')) : I s' := by
  have hx := h [] s hs
  simpa only [Ends, Program.atomic, Program.settle, hf] using hx

end Keeps
end Logic
end EndstoneExchange.DurablePrograms
