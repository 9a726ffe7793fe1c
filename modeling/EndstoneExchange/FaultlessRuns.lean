import EndstoneExchange.DurablePrograms

/-!
# Runs without faults

Where no call meets a fault a program is a partial function of the state. `Succeeds` says
that it returns, and where.
-/
namespace EndstoneExchange.FaultlessRuns
open DurablePrograms

variable {σ τ ε α β : Type} {x : Program σ ε α} {s : σ} {Q : α → σ → Prop}

def Succeeds (x : Program σ ε α) (s : σ) (Q : α → σ → Prop) : Prop :=
  ∃ a s', x [] s = (.returned a, [], s') ∧ Q a s'

namespace Succeeds

theorem mono {Q' : α → σ → Prop} (h : Succeeds x s Q) (hQ : ∀ a s', Q a s' → Q' a s') :
    Succeeds x s Q' := by
  obtain ⟨a, s', hx, ha⟩ := h
  exact ⟨a, s', hx, hQ a s' ha⟩

theorem pure {a : α} (h : Q a s) : Succeeds (Pure.pure a : Program σ ε α) s Q := ⟨a, s, rfl, h⟩

theorem bind {y : Program σ ε β} {R : β → σ → Prop} {f : β → Program σ ε α} (hy : Succeeds y s R)
    (hf : ∀ b s', R b s' → Succeeds (f b) s' Q) : Succeeds (y >>= f) s Q := by
  obtain ⟨b, s', hb, hR⟩ := hy
  obtain ⟨a, s'', ha, hQ⟩ := hf b s' hR
  exact ⟨a, s'', (Program.bind_returned hb).trans ha, hQ⟩

theorem tryCatch {handler : ε → Program σ ε α} (h : Succeeds x s Q) :
    Succeeds (MonadExcept.tryCatch x handler) s Q := by
  obtain ⟨a, s', hx, ha⟩ := h
  refine ⟨a, s', ?_, ha⟩
  change Program.tryCatch x handler [] s = _
  rw [Program.tryCatch, hx]

/-- The handler takes over where the body raises. -/
theorem caught {handler : ε → Program σ ε α} {e : ε} {s' : σ} (hx : x [] s = (.threw e, [], s'))
    (h : Succeeds (handler e) s' Q) : Succeeds (MonadExcept.tryCatch x handler) s Q := by
  obtain ⟨a, s'', hh, ha⟩ := h
  refine ⟨a, s'', ?_, ha⟩
  change Program.tryCatch x handler [] s = _
  rw [Program.tryCatch, hx]
  exact hh

theorem atomic {lost : ε} {f : σ → Except ε (α × σ)} {a : α} {s' : σ} (hf : f s = .ok (a, s'))
    (h : Q a s') : Succeeds (Program.atomic lost f) s Q :=
  ⟨a, s', Program.atomic_returned hf, h⟩

theorem call {f : Fault → σ → Except ε α × σ} {a : α} {s' : σ} (hf : f .proceed s = (.ok a, s'))
    (h : Q a s') : Succeeds (Program.call f) s Q := by
  refine ⟨a, s', ?_, h⟩
  simp only [Program.call, List.headD_nil, List.tail_nil, hf]

theorem zoom {get : τ → σ} {set : σ → τ → τ} {t : τ} {q : α → τ → Prop}
    (h : Succeeds x (get t) fun a s => q a (set s t)) : Succeeds (Program.zoom get set x) t q := by
  obtain ⟨a, s', hx, ha⟩ := h
  exact ⟨a, set s' t, by rw [Program.zoom, hx], ha⟩

/-- Loop rule: `R bs` holds when the items `bs` are still to come. -/
theorem forEach {R : List β → σ → Prop} {body : β → Program σ ε PUnit}
    (hbody : ∀ b bs s, R (b :: bs) s → Succeeds (body b) s fun _ => R bs) {bs : List β} (h : R bs s) :
    Succeeds (Program.forEach body bs) s fun _ => R [] := by
  induction bs generalizing s with
  | nil => exact pure h
  | cons b bs ih => exact (hbody b bs s h).bind fun _ _ h => ih h

/-- The state it leaves is the one its run computes. -/
theorem exact (h : Succeeds x s Q) : Succeeds x s fun a s' => Q a s' ∧ s' = (x [] s).2.2 := by
  obtain ⟨a, s', hx, ha⟩ := h
  exact ⟨a, s', hx, ha, by rw [hx]⟩

/-- A triple says what a run that succeeds leaves. -/
theorem strengthen {E : ε → σ → Prop} {C : σ → Prop} {Q' : α → σ → Prop} (h : Succeeds x s Q)
    (ht : Triple (· = s) x Q' E C) : Succeeds x s fun a s' => Q a s' ∧ Q' a s' := by
  obtain ⟨a, s', hx, ha⟩ := h
  have hend := ht [] s rfl
  rw [hx] at hend
  exact ⟨a, s', hx, ha, hend⟩

theorem final (h : Succeeds x s Q) : ∃ a, Q a (x [] s).2.2 := by
  obtain ⟨a, s', hx, ha⟩ := h
  exact ⟨a, by rw [hx]; exact ha⟩

end Succeeds
end EndstoneExchange.FaultlessRuns
