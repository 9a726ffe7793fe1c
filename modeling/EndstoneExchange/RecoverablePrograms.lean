import EndstoneExchange.FaultlessRuns

/-!
# Programs that are started again

A program that keeps an invariant wherever it ends may be run again after every stop and
every exception, until a run meets no fault. `Recoverable` is the judgement, with a rule for
calls that are repeated once where their acknowledgement is lost.
-/
namespace EndstoneExchange.RecoverablePrograms
open DurablePrograms FaultlessRuns Relation

variable {σ ε α β : Type} {I P S : σ → Prop} {Q Q' : α → σ → Prop} {x : Program σ ε α}

/-- From `P` the program keeps `I` wherever it ends and ends in `Q` where it returns, as it
does where it meets no fault. -/
structure Recoverable (I P : σ → Prop) (x : Program σ ε α) (Q : α → σ → Prop) : Prop where
  safe : Triple P x Q (fun _ => I) I
  succeeds : ∀ s, P s → Succeeds x s Q

/-- Any number of runs, each ended by a return, an exception or a stop. -/
def Attempts (x : Program σ ε α) : σ → σ → Prop := ReflTransGen fun s s' => ∃ fs, s' = (x fs s).2.2

/-- A call is repeated once where its acknowledgement is lost. -/
def retry [DecidableEq ε] (lost : ε) (f : σ → Except ε (α × σ)) : Program σ ε α :=
  tryCatch (Program.atomic lost f) fun e => if e = lost then Program.atomic lost f else throw e

namespace Recoverable

theorem pure {a : α} (h : ∀ s, P s → Q a s) : Recoverable I P (Pure.pure a : Program σ ε α) Q :=
  ⟨Triple.pure h, fun s hs => Succeeds.pure (h s hs)⟩

theorem bind {R : β → σ → Prop} {y : Program σ ε β} {f : β → Program σ ε α} (hy : Recoverable I P y R)
    (hf : ∀ b, Recoverable I (R b) (f b) Q) : Recoverable I P (y >>= f) Q :=
  ⟨hy.safe.bind fun b => (hf b).safe, fun s hs => (hy.succeeds s hs).bind fun b s' => (hf b).succeeds s'⟩

theorem conseq (h : Recoverable I S x Q') (hP : ∀ s, P s → S s) (hQ : ∀ a s, Q' a s → Q a s) :
    Recoverable I P x Q :=
  ⟨h.safe.conseq hP hQ (fun _ _ hs => hs) fun _ hs => hs, fun s hs => (h.succeeds s (hP s hs)).mono hQ⟩

theorem nil {body : β → Program σ ε PUnit} {R : PUnit → σ → Prop} (h : ∀ s, P s → R ⟨⟩ s) :
    Recoverable I P (Program.forEach body []) R := pure h

theorem cons {body : β → Program σ ε PUnit} {b : β} {bs : List β} {R : PUnit → σ → Prop}
    (hb : Recoverable I P (body b) fun _ => S) (hbs : Recoverable I S (Program.forEach body bs) R) :
    Recoverable I P (Program.forEach body (b :: bs)) R := hb.bind fun _ => hbs

/-- What cannot happen needs no proof. -/
theorem absurd (h : ∀ s, ¬ P s) : Recoverable I P x Q :=
  ⟨fun _ s hs => (h s hs).elim, fun s hs => (h s hs).elim⟩

/-- A repeated call: its second effect must be harmless. -/
theorem retry [DecidableEq ε] {lost : ε} {f : σ → Except ε (α × σ)} (hP : ∀ s, P s → I s)
    (hQ : ∀ a s, Q a s → I s) (hok : ∀ s, P s → ∃ a s', f s = .ok (a, s') ∧ Q a s')
    (hagain : ∀ a s b s', Q a s → f s = .ok (b, s') → Q b s') :
    Recoverable I P (RecoverablePrograms.retry lost f) Q where
  safe := by
    have hfirst : Triple P (Program.atomic lost f) Q (fun _ s => P s ∨ ∃ a, Q a s) I := by
      refine Triple.atomic hP (fun s hs => .inl hs) (fun s a s' hs hf => ?_) fun s e hs _ => .inl hs
      obtain ⟨b, t, hb, hQb⟩ := hok s hs
      cases hb.symm.trans hf
      exact ⟨hQb, .inr ⟨_, hQb⟩⟩
    have hkept : ∀ s, P s ∨ (∃ a, Q a s) → I s := fun s hs => hs.elim (hP s) fun ⟨a, ha⟩ => hQ a s ha
    refine Triple.tryCatch hfirst fun e => ?_
    split_ifs
    · refine Triple.atomic hkept hkept (fun s a s' hs hf => ?_) fun s _ hs _ => hkept s hs
      have hQa : Q a s' := by
        rcases hs with hs | ⟨b, hb⟩
        · obtain ⟨b, t, hb, hQb⟩ := hok s hs
          cases hb.symm.trans hf
          exact hQb
        · exact hagain b s a s' hb hf
      exact ⟨hQa, hQ a s' hQa⟩
    · exact Triple.throw hkept
  succeeds := by
    intro s hs
    obtain ⟨a, s', hf, ha⟩ := hok s hs
    exact (Succeeds.atomic hf ha).tryCatch

/-- The invariant survives every attempt. -/
theorem kept (h : Recoverable I I x Q) (hQ : ∀ a s, Q a s → I s) {s s' : σ} (hruns : Attempts x s s') (hs : I s) :
    I s' := by
  induction hruns with
  | refl => exact hs
  | tail _ hstep ih =>
    obtain ⟨fs, rfl⟩ := hstep
    exact (h.safe.conseq (fun _ hs => hs) hQ (fun _ _ hs => hs) fun _ hs => hs).final fs ih

/-- A run that returns has done its work, and a run without a fault returns. -/
theorem recovers (h : Recoverable I I x Q) (hQ : ∀ a s, Q a s → I s) {s s' : σ} (hruns : Attempts x s s') (hs : I s) :
    (∀ fs a gs t, x fs s' = (.returned a, gs, t) → Q a t) ∧ ∃ a t, x [] s' = (.returned a, [], t) ∧ Q a t := by
  have hkept := h.kept hQ hruns hs
  refine ⟨fun fs a gs t hx => ?_, h.succeeds s' hkept⟩
  have hends := h.safe fs s' hkept
  rw [hx] at hends
  exact hends

end Recoverable

end EndstoneExchange.RecoverablePrograms
