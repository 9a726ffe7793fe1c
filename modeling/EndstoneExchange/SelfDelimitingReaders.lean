import Mathlib.Data.List.Basic
import Mathlib.Tactic.Ring

/-!
# Self-delimiting readers

A reader takes a value off the front of its input. It frames an encoding when it
takes exactly that encoding off every input that begins with it and stops short on
every proper prefix of it. Framing composes along sequencing and repetition.
-/
namespace EndstoneExchange.SelfDelimitingReaders

variable {σ ε α β : Type}

abbrev Reader (σ ε α : Type) := StateT (List σ) (Except ε) α

/-- Inputs shorter than `room` only: a reader with a recursion bound frames within that bound. -/
structure Frames (room : ℕ) (short : ε) (r : Reader σ ε α) (code : List σ) (value : α) : Prop where
  whole : ∀ rest, (code ++ rest).length < room → r.run (code ++ rest) = .ok (value, rest)
  cut : ∀ p, p <+: code → p ≠ code → p.length < room → r.run p = .error short

section Composition
variable {room : ℕ} {short : ε} {r : Reader σ ε α} {code : List σ} {value : α}

theorem Frames.mono {room' : ℕ} (h : Frames room short r code value) (hroom : room' ≤ room) :
    Frames room' short r code value where
  whole rest hrest := h.whole rest (lt_of_lt_of_le hrest hroom)
  cut p hp hne hlt := h.cut p hp hne (lt_of_lt_of_le hlt hroom)

theorem frames_pure (value : α) : Frames room short (pure value : Reader σ ε α) [] value where
  whole _ _ := rfl
  cut _ hp hne _ := absurd (List.prefix_nil.mp hp) hne

private theorem proper_prefix_append {p code code' : List σ} (hp : p <+: code ++ code')
    (hne : p ≠ code ++ code') :
    (p <+: code ∧ p ≠ code) ∨ ∃ q, p = code ++ q ∧ q <+: code' ∧ q ≠ code' := by
  rcases List.prefix_or_prefix_of_prefix hp (List.prefix_append code code') with h | h
  · by_cases heq : p = code
    · subst heq
      refine .inr ⟨[], (List.append_nil p).symm, List.nil_prefix, fun hnil => hne ?_⟩
      rw [← hnil, List.append_nil]
    · exact .inl ⟨h, heq⟩
  · obtain ⟨q, rfl⟩ := h
    exact .inr ⟨q, rfl, (List.prefix_append_right_inj code).mp hp, fun hq => hne (by rw [hq])⟩

/-- What follows only has the room that is left. -/
theorem Frames.bind_left {k : α → Reader σ ε β} {code' : List σ} {value' : β}
    (hr : Frames room short r code value)
    (hk : Frames (room - code.length) short (k value) code' value') :
    Frames room short (r >>= k) (code ++ code') value' where
  whole rest hrest := by
    rw [List.append_assoc] at hrest ⊢
    have hlt : (code' ++ rest).length < room - code.length := by
      rw [List.length_append] at hrest
      omega
    rw [StateT.run_bind, hr.whole _ hrest]
    exact hk.whole rest hlt
  cut p hp hne hlt := by
    rw [StateT.run_bind]
    rcases proper_prefix_append hp hne with ⟨hp, hne⟩ | ⟨q, rfl, hq, hne⟩
    · rw [hr.cut p hp hne hlt]
      rfl
    · have hq' : q.length < room - code.length := by
        rw [List.length_append] at hlt
        omega
      rw [hr.whole q hlt]
      exact hk.cut q hq hne hq'

theorem Frames.bind {k : α → Reader σ ε β} {code' : List σ} {value' : β}
    (hr : Frames room short r code value) (hk : Frames room short (k value) code' value') :
    Frames room short (r >>= k) (code ++ code') value' :=
  hr.bind_left (hk.mono (Nat.sub_le room code.length))

theorem Frames.map (hr : Frames room short r code value) (f : α → β) :
    Frames room short (r >>= fun v => pure (f v)) code (f value) := by
  have h := hr.bind (k := fun v => pure (f v)) (frames_pure (f value))
  rwa [List.append_nil] at h

end Composition

/-- Takes `count` symbols, or stops short. -/
def take (short : ε) (count : ℕ) : Reader σ ε (List σ) := do
  let input ← get
  if count > input.length then throw short
  set (input.drop count)
  return input.take count

theorem take_frames {room : ℕ} {short : ε} (code : List σ) :
    Frames room short (take short code.length) code code where
  whole rest _ := by simp [take]; rfl
  cut p hp hne _ := by
    have hlt : p.length < code.length :=
      lt_of_le_of_ne hp.length_le fun h => hne (hp.eq_of_length h)
    simp [take, hlt]; rfl

def times : ℕ → Reader σ ε α → Reader σ ε (List α)
  | 0, _ => return []
  | n + 1, r => do
    let value ← r
    let values ← times n r
    return value :: values

theorem Frames.cons {room n : ℕ} {short : ε} {r : Reader σ ε α} {code codes : List σ} {value : α}
    {values : List α} (hr : Frames room short r code value)
    (hrs : Frames room short (times n r) codes values) :
    Frames room short (times (n + 1) r) (code ++ codes) (value :: values) :=
  hr.bind (hrs.map (value :: ·))

/-- Whatever the reader raises satisfies `E`. -/
def RaisesOnly (E : ε → Prop) (r : Reader σ ε α) : Prop := ∀ input e, r.run input = .error e → E e

namespace RaisesOnly
variable {E : ε → Prop} {r : Reader σ ε α}

theorem pure {value : α} : RaisesOnly E (Pure.pure value : Reader σ ε α) := fun _ _ he => nomatch he

theorem throw {e : ε} (h : E e) : RaisesOnly E (throw e : Reader σ ε α) := fun _ _ he => Except.error.inj he ▸ h

theorem bind {k : α → Reader σ ε β} (hr : RaisesOnly E r) (hk : ∀ value, RaisesOnly E (k value)) :
    RaisesOnly E (r >>= k) := by
  intro input e he
  rw [StateT.run_bind] at he
  cases hrun : r.run input with
  | error e' =>
    rw [hrun] at he
    obtain rfl : e' = e := Except.error.inj he
    exact hr input e' hrun
  | ok result =>
    rw [hrun] at he
    exact hk result.1 result.2 e he

theorem ite {c : Prop} [Decidable c] {r' : Reader σ ε α} (hr : RaisesOnly E r) (hr' : RaisesOnly E r') :
    RaisesOnly E (if c then r else r') := by
  split_ifs
  · exact hr
  · exact hr'

theorem take {short : ε} (h : E short) (count : ℕ) :
    RaisesOnly E (SelfDelimitingReaders.take short count : Reader σ ε (List σ)) := by
  intro input e he
  rcases lt_or_ge input.length count with hlt | hle
  · have hshort : (SelfDelimitingReaders.take short count).run input = .error short := by
      simp [SelfDelimitingReaders.take, hlt]
      rfl
    exact Except.error.inj (hshort.symm.trans he) ▸ h
  · have hwhole : (SelfDelimitingReaders.take short count).run input =
        .ok (input.take count, input.drop count) := by
      simp [SelfDelimitingReaders.take, not_lt.mpr hle]
      rfl
    cases hwhole.symm.trans he

theorem times (hr : RaisesOnly E r) (n : ℕ) : RaisesOnly E (SelfDelimitingReaders.times n r) := by
  induction n with
  | zero => exact pure
  | succ n ih => exact hr.bind fun _ => ih.bind fun _ => pure

end RaisesOnly

end EndstoneExchange.SelfDelimitingReaders
