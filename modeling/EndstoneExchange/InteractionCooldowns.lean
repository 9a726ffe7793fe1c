import EndstoneExchange.SpacedSelections
import EndstoneExchange.ExchangeDomain
import Mathlib.Algebra.Order.Ring.Int

/-!
# Interaction cooldowns

A click of a player is accepted unless it follows an accepted one within the cooldown. The clock
is steady, so clicks arrive in ascending order.
-/
namespace EndstoneExchange.InteractionCooldowns
open ExchangeDomain SpacedSelections

/-- Nanoseconds of `std::chrono::steady_clock`. -/
abbrev Time := ℤ

structure InteractionGate where
  /-- In milliseconds. -/
  cooldown : ℤ
  cooldown_pos : 0 < cooldown
  acceptedAt : String → Option Time

structure Click where
  playerUuid : String
  now : Time
  deriving DecidableEq, Repr

def create (cooldown : ℤ) : Except Error InteractionGate :=
  if h : 0 < cooldown then .ok ⟨cooldown, h, fun _ => none⟩
  else .error (.runtime "interaction cooldown must be positive")

/-- The cooldown in units of the clock. -/
def InteractionGate.spacing (gate : InteractionGate) : Time := gate.cooldown * 1000000

def accept (click : Click) (gate : InteractionGate) : Bool × InteractionGate :=
  if click.playerUuid = "" then (false, gate)
  else if (gate.acceptedAt click.playerUuid).any fun previous => click.now - previous < gate.spacing then (false, gate)
  else (true, { gate with acceptedAt := Function.update gate.acceptedAt click.playerUuid (some click.now) })

/-- The clicks that the gate lets through. -/
def accepted : List Click → InteractionGate → List Click
  | [], _ => []
  | click :: clicks, gate =>
    match accept click gate with
    | (true, gate) => click :: accepted clicks gate
    | (false, gate) => accepted clicks gate

/-- The clicks of a player. -/
def timesOf (playerUuid : String) (clicks : List Click) : List Time :=
  (clicks.filter (·.playerUuid = playerUuid)).map (·.now)

section Runs
variable {gate : InteractionGate} {clicks : List Click} {playerUuid : String}

theorem timesOf_cons_own {click : Click} (h : click.playerUuid = playerUuid) :
    timesOf playerUuid (click :: clicks) = click.now :: timesOf playerUuid clicks := by
  rw [timesOf, List.filter_cons_of_pos (by simpa using h), List.map_cons, timesOf]

theorem timesOf_cons_other {click : Click} (h : click.playerUuid ≠ playerUuid) :
    timesOf playerUuid (click :: clicks) = timesOf playerUuid clicks := by
  rw [timesOf, List.filter_cons_of_neg (by simpa using h), timesOf]

theorem any_iff_tooSoon {last : Option Time} {d now : Time} :
    (last.any fun previous => now - previous < d) = true ↔ tooSoon d last now := by
  cases last with
  | none => exact iff_of_false Bool.false_ne_true fun ⟨_, hl, _⟩ => nomatch hl
  | some l => simp [tooSoon]

/-- The gate looks at no other player. -/
theorem accepted_eq_select (hplayer : playerUuid ≠ "") : timesOf playerUuid (accepted clicks gate) =
    select gate.spacing (gate.acceptedAt playerUuid) (timesOf playerUuid clicks) := by
  induction clicks generalizing gate with
  | nil => rfl
  | cons click clicks ih =>
    by_cases hown : click.playerUuid = playerUuid
    · subst hown
      rw [timesOf_cons_own rfl, select, accepted, accept, if_neg hplayer]
      by_cases hsoon : tooSoon gate.spacing (gate.acceptedAt click.playerUuid) click.now
      · rw [if_pos hsoon, if_pos (any_iff_tooSoon.mpr hsoon)]
        exact ih
      · rw [if_neg hsoon, if_neg (any_iff_tooSoon.not.mpr hsoon), timesOf_cons_own rfl, ih]
        simp only [Function.update_self]
        rfl
    · rw [timesOf_cons_other hown, accepted, accept]
      split_ifs
      · exact ih
      · exact ih
      · simp only [timesOf_cons_other hown, ih, Function.update_of_ne (Ne.symm hown)]
        rfl

/-- Accepted clicks of a player keep the cooldown, whatever is refused follows an accepted click
within it, and no other choice that keeps the cooldown accepts more. -/
theorem gate_optimal {cooldown : ℤ} (hgate : create cooldown = .ok gate)
    (hclock : clicks.Pairwise fun a b => a.now ≤ b.now) (hplayer : playerUuid ≠ "") :
    (timesOf playerUuid (accepted clicks gate)).Pairwise (fun a b => a + cooldown * 1000000 ≤ b) ∧
      (∀ click ∈ clicks, click.playerUuid = playerUuid → ∃ t ∈ timesOf playerUuid (accepted clicks gate),
        t ≤ click.now ∧ click.now < t + cooldown * 1000000) ∧
      ∀ times : List Time, times.Sublist (timesOf playerUuid clicks) →
        times.Pairwise (fun a b => a + cooldown * 1000000 ≤ b) →
        times.length ≤ (timesOf playerUuid (accepted clicks gate)).length := by
  unfold create at hgate
  split_ifs at hgate with hpos
  cases hgate
  have hd : (0 : ℤ) < cooldown * 1000000 := mul_pos hpos (by decide)
  have hsorted : (timesOf playerUuid clicks).Pairwise (· ≤ ·) := List.pairwise_map.mpr (hclock.filter _)
  rw [accepted_eq_select hplayer]
  refine ⟨(select_spaced hd.le hsorted).1, fun click hclick hown => ?_, fun times hsub hspaced =>
    select_longest hsorted hsub hspaced fun _ _ _ hl => nomatch hl⟩
  have hmem : click.now ∈ timesOf playerUuid clicks :=
    List.mem_map.mpr ⟨click, List.mem_filter.mpr ⟨hclick, decide_eq_true hown⟩, rfl⟩
  obtain ⟨l, hl, hrest⟩ := @select_covers ℤ _ _ _ _ none _ hd hsorted (fun _ hl => nomatch hl) click.now hmem
  exact ⟨l, hl.resolve_left (fun hl => nomatch hl), hrest⟩

end Runs

section Sample

/-- The gate of the plugin. -/
def pluginGate : InteractionGate := ⟨750, by decide, fun _ => none⟩

/-- Two players click in turn. -/
def sampleClicks : List Click := [⟨"alice", 0⟩, ⟨"bob", 100000000⟩, ⟨"alice", 400000000⟩, ⟨"alice", 800000000⟩]

theorem gate_optimal_sample :
    (timesOf "alice" (accepted sampleClicks pluginGate)).Pairwise (fun a b => a + 750 * 1000000 ≤ b) ∧
      (∀ click ∈ sampleClicks, click.playerUuid = "alice" → ∃ t ∈ timesOf "alice" (accepted sampleClicks pluginGate),
        t ≤ click.now ∧ click.now < t + 750 * 1000000) ∧
      ∀ times : List Time, times.Sublist (timesOf "alice" sampleClicks) →
        times.Pairwise (fun a b => a + 750 * 1000000 ≤ b) →
        times.length ≤ (timesOf "alice" (accepted sampleClicks pluginGate)).length :=
  gate_optimal rfl (by decide) (by decide)

end Sample

end EndstoneExchange.InteractionCooldowns
