import EndstoneExchange.AsciiNumerals
import EndstoneExchange.NearestGridPoints
import EndstoneExchange.LocalizedMessages

/-!
# Prices on the trade forms

A form suggests the legal price nearest to a reference price, in whole units, and
reads the price a player enters; both use the prices one step apart from the minimum on.
-/
namespace EndstoneExchange.TradeForm
open CheckedIntegers AsciiNumerals NearestGridPoints LocalizedMessages

def defaultTradePrice (minimum maximum step reference : ℤ) : Checked Thrown ℤ :=
  if minimum ≤ 0 ∨ maximum < minimum ∨ step ≤ 0 then raise (.runtimeError "invalid price range")
  else do
    let clamped := if reference < minimum then minimum else if maximum < reference then maximum else reference
    let steps ← div (← sub clamped minimum) step
    let remainder ← mod (← sub clamped minimum) step
    let half ← add (← div step 2) (← mod step 2)
    let roundUp ←
      if remainder ≥ half then do
        let below ← add minimum (← mul steps step)
        let last ← sub maximum step
        pure (decide (below ≤ last))
      else pure false
    let steps ← if roundUp then add steps 1 else pure steps
    add minimum (← mul steps step)

def parseWholeNumber (raw : Bytes) (minimum maximum : ℤ) (field : Message) (language : Language) :
    Checked Thrown ℤ :=
  let text := trim raw
  let rejected := raise (.userError
    (tr language .wholeNumberRange [messageText language field, toString minimum, toString maximum]))
  match fromChars text with
  | ([], .ok value) => if text = [] ∨ value < minimum ∨ value > maximum then rejected else .ok value
  | _ => rejected

def parseTradePrice (text : Bytes) (minimum maximum step : ℤ) (language : Language) : Checked Thrown ℤ :=
  if minimum ≤ 0 ∨ maximum < minimum ∨ step ≤ 0 ∨ minimum.tmod 100 ≠ 0 ∨ maximum.tmod 100 ≠ 0 ∨
      step.tmod 100 ≠ 0 then
    raise (.userError (tr language .priceRangeInvalid []))
  else do
    let units ← parseWholeNumber text (← div minimum 100) (← div maximum 100) .unitPriceField language
    if units > int64Max / 100 then raise (.userError (tr language .priceTooLarge []))
    else do
      let cents ← mul units 100
      if (← mod (← sub cents minimum) step) ≠ 0 then do
        let stepUnits ← div step 100
        raise (.userError (tr language .priceStep [toString stepUnits]))
      else pure cents

section Suggestion
variable {minimum maximum step reference : ℤ}

def clampedReference (minimum maximum reference : ℤ) : ℤ := max minimum (min reference maximum)

private theorem clamp_eq (hrange : minimum ≤ maximum) :
    (if reference < minimum then minimum else if maximum < reference then maximum else reference) =
      clampedReference minimum maximum reference := by
  unfold clampedReference
  split_ifs <;> omega

/-- With the clamped reference written as a legal price and a remainder, the form rounds to
one of the two neighbours. -/
theorem defaultTradePrice_eq (reference : ℤ) {steps remainder : ℤ} (hmin : 0 < minimum)
    (hrange : minimum ≤ maximum) (hstep : 0 < step) (hmax : Fits maximum) (hfits : Fits step)
    (hsteps : steps = (clampedReference minimum maximum reference - minimum) / step)
    (hremainder : remainder = (clampedReference minimum maximum reference - minimum) % step) :
    defaultTradePrice minimum maximum step reference =
      .ok (if step ≤ 2 * remainder ∧ minimum + steps * step ≤ maximum - step then
        minimum + steps * step + step else minimum + steps * step) := by
  set x := clampedReference minimum maximum reference with hx
  have hlo : 0 ≤ x - minimum := by simp [hx, clampedReference]
  have hhi : x ≤ maximum := by simp [hx, clampedReference, hrange]
  have hdecomp : steps * step + remainder = x - minimum := by
    rw [hsteps, hremainder, mul_comm]; exact Int.mul_ediv_add_emod _ _
  have hr0 : 0 ≤ remainder := hremainder ▸ Int.emod_nonneg _ hstep.ne'
  have hprod : 0 ≤ steps * step := mul_nonneg (hsteps ▸ Int.ediv_nonneg hlo hstep.le) hstep.le
  have hnext : (steps + 1) * step = steps * step + step := by rw [add_mul, one_mul]
  have hsteps0 : 0 ≤ steps := hsteps ▸ Int.ediv_nonneg hlo hstep.le
  have hle : steps ≤ steps * step := le_mul_of_one_le_right hsteps0 hstep
  have hle' : steps + 1 ≤ (steps + 1) * step := le_mul_of_one_le_right (by linarith) hstep
  have fits : ∀ {n : ℤ}, 0 ≤ n → n ≤ maximum → Fits n := fun h0 h => hmax.of_nonneg h0 h
  have hx0 : Fits (x - minimum) := fits hlo (by linarith)
  have hhalf : Fits (step / 2 + step % 2) := hfits.of_nonneg (by omega) (by omega)
  have hlast : Fits (maximum - step) := fits_sub hmax hfits (by linarith) hstep.le
  have hbelow : Fits (minimum + steps * step) := fits (by linarith) (by linarith)
  rw [defaultTradePrice, if_neg (by omega)]
  simp only [clamp_eq hrange, ← hx, sub_of_fits hx0, ok_bind, div_of_nonneg hx0 hlo hstep, ← hsteps,
    mod_of_nonneg hx0 hlo hstep, ← hremainder, div_of_nonneg hfits hstep.le two_pos,
    mod_of_nonneg hfits hstep.le two_pos, add_of_fits hhalf, mul_of_fits (fits hprod (by linarith)),
    add_of_fits hbelow, sub_of_fits hlast]
  have hround : remainder ≥ step / 2 + step % 2 ↔ step ≤ 2 * remainder := by omega
  by_cases hup : step ≤ 2 * remainder ∧ minimum + steps * step ≤ maximum - step
  · have hsum : minimum + (steps + 1) * step = minimum + steps * step + step := by rw [hnext, add_assoc]
    have hfitsNext : Fits (steps + 1) := fits (by linarith) (by linarith)
    have hfitsProd : Fits ((steps + 1) * step) := fits (by linarith) (by linarith)
    have hfitsSum : Fits (minimum + (steps + 1) * step) := fits (by linarith) (by linarith)
    rw [if_pos (hround.mpr hup.1), if_pos hup]
    simp [hup.2, add_of_fits hfitsNext, mul_of_fits hfitsProd, add_of_fits hfitsSum, hsum, pure, Except.pure]
  · rw [if_neg hup]
    have hdown : remainder ≥ step / 2 + step % 2 → ¬ minimum + steps * step ≤ maximum - step :=
      fun h hle => hup ⟨hround.mp h, hle⟩
    by_cases hrem : remainder ≥ step / 2 + step % 2
    · simp [hrem, hdown hrem, mul_of_fits (fits hprod (by linarith)), add_of_fits hbelow, pure, Except.pure]
    · simp [hrem, mul_of_fits (fits hprod (by linarith)), add_of_fits hbelow, pure, Except.pure]

/-- The suggested price is the nearest legal one, and no operation overflows. -/
theorem defaultTradePrice_nearest (reference : ℤ) (hmin : 0 < minimum) (hrange : minimum ≤ maximum)
    (hstep : 0 < step) (hmax : Fits maximum) (hfits : Fits step) :
    ∃ p, defaultTradePrice minimum maximum step reference = .ok p ∧
      IsNearest (grid minimum maximum step) (clampedReference minimum maximum reference) p := by
  have heq := defaultTradePrice_eq reference hmin hrange hstep hmax hfits rfl rfl
  set x := clampedReference minimum maximum reference with hx
  have hlo : minimum ≤ x := by simp [hx, clampedReference]
  have hhi : x ≤ maximum := by simp [hx, clampedReference, hrange]
  have hdecomp : (x - minimum) / step * step + (x - minimum) % step = x - minimum := by
    rw [mul_comm]; exact Int.mul_ediv_add_emod _ _
  set r := (x - minimum) % step with hr
  set p := minimum + (x - minimum) / step * step with hp
  have hr0 : 0 ≤ r := Int.emod_nonneg _ hstep.ne'
  have hr1 : r < step := Int.emod_lt_of_pos _ hstep
  have hx' : x = p + r := by rw [hp]; linarith
  have hmem : p ∈ grid minimum maximum step := by
    refine ⟨?_, by linarith, ?_⟩
    · exact le_add_of_nonneg_right (mul_nonneg (Int.ediv_nonneg (by linarith) hstep.le) hstep.le)
    · rw [hp, add_sub_cancel_left]; exact Int.dvd_mul_left _ _
  refine ⟨_, heq, ?_⟩
  rw [hx']
  split_ifs with hup
  · exact isNearest_above hmem hstep hr1 (by linarith [hup.2]) hup.1
  · exact isNearest_below hmem hr0 (by omega)

end Suggestion

section Entry
variable {minimum maximum step : ℤ} {language : Language}

/-- A text is a whole number in range, or it is rejected with the range. -/
theorem parseWholeNumber_cases (raw : Bytes) (minimum maximum : ℤ) (field : Message) (language : Language) :
    (∃ value, (IsInteger (trim raw) value ∧ Fits value ∧ minimum ≤ value ∧ value ≤ maximum) ∧
      parseWholeNumber raw minimum maximum field language = .ok value) ∨
    parseWholeNumber raw minimum maximum field language = raise (.userError
      (tr language .wholeNumberRange [messageText language field, toString minimum, toString maximum])) := by
  unfold parseWholeNumber
  dsimp only
  split
  case h_1 value heq =>
    obtain ⟨hint, hfits⟩ := fromChars_eq_ok.mp heq
    split_ifs with hout
    · exact .inr rfl
    · exact .inl ⟨value, ⟨hint, hfits, by omega, by omega⟩, rfl⟩
  case h_2 => exact .inr rfl

private theorem parseWholeNumber_of_isInteger {raw : Bytes} {field : Message} {value : ℤ}
    (hint : IsInteger (trim raw) value) (hfits : Fits value) (hmin : minimum ≤ value) (hmax : value ≤ maximum) :
    parseWholeNumber raw minimum maximum field language = .ok value := by
  have hread := fromChars_eq_ok.mpr ⟨hint, hfits⟩
  simp only [parseWholeNumber, hread]
  exact if_neg (by simp [hint.ne_nil, hmin, hmax])

/-- The bounds and the step the configuration promises the form. -/
structure WholeUnits (minimum maximum step : ℤ) : Prop where
  minimum_pos : 0 < minimum
  range : minimum ≤ maximum
  step_pos : 0 < step
  minimum_dvd : 100 ∣ minimum
  maximum_dvd : 100 ∣ maximum
  step_dvd : 100 ∣ step

/-- Within the promised bounds the entered text is read as a whole number of units. -/
theorem parseTradePrice_guard (h : WholeUnits minimum maximum step) :
    ¬ (minimum ≤ 0 ∨ maximum < minimum ∨ step ≤ 0 ∨ minimum.tmod 100 ≠ 0 ∨ maximum.tmod 100 ≠ 0 ∨
      step.tmod 100 ≠ 0) := by
  have htmod : ∀ n : ℤ, 100 ∣ n → n.tmod 100 = 0 := fun _ => Int.tmod_eq_zero_of_dvd
  simp [htmod, h.minimum_pos, h.range, h.step_pos, h.minimum_dvd, h.maximum_dvd, h.step_dvd]

/-- A whole number of units in range is taken if it is a legal price. -/
theorem parseTradePrice_of_units {text : Bytes} {units : ℤ} (h : WholeUnits minimum maximum step)
    (hmax : Fits maximum) (hfits : Fits step) (hlo : minimum / 100 ≤ units) (hhi : units ≤ maximum / 100)
    (hread : parseWholeNumber text (minimum / 100) (maximum / 100) .unitPriceField language = .ok units) :
    parseTradePrice text minimum maximum step language =
      if step ∣ units * 100 - minimum then .ok (units * 100)
      else raise (.userError (tr language .priceStep [toString (step / 100)])) := by
  have hguard := parseTradePrice_guard h
  obtain ⟨hminpos, hrange, hstep, hmindvd, hmaxdvd, hstepdvd⟩ := h
  have hmin : Fits minimum := hmax.of_nonneg hminpos.le hrange
  have hcents : minimum ≤ units * 100 ∧ units * 100 ≤ maximum := by omega
  have hfitsCents : Fits (units * 100) := hmax.of_nonneg (by linarith) hcents.2
  have hfitsSub : Fits (units * 100 - minimum) := hmax.of_nonneg (by linarith) (by linarith)
  have hsmall : ¬ units > int64Max / 100 := by
    have := hmax.2
    omega
  rw [parseTradePrice, if_neg hguard,
    div_of_nonneg hmin hminpos.le (by decide), div_of_nonneg hmax (by linarith) (by decide)]
  simp only [ok_bind, hread, if_neg hsmall, mul_of_fits hfitsCents, sub_of_fits hfitsSub,
    mod_of_nonneg hfitsSub (by linarith) hstep, div_of_nonneg hfits hstep.le (show (0 : ℤ) < 100 by decide)]
  simp only [Int.dvd_iff_emod_eq_zero]
  split_ifs <;> first | rfl | contradiction

/-- The text of a legal price in whole units, among blanks, is read as that price. -/
theorem parseTradePrice_decimal {p : ℤ} {before after : Bytes} (h : WholeUnits minimum maximum step)
    (hmax : Fits maximum) (hfits : Fits step) (hp : p ∈ grid minimum maximum step)
    (hbefore : ∀ b ∈ before, isSpace b) (hafter : ∀ b ∈ after, isSpace b) :
    parseTradePrice (before ++ decimal (p / 100).toNat ++ after) minimum maximum step language = .ok p := by
  have hunits : p = p / 100 * 100 := by
    have hdvd : 100 ∣ p - minimum := h.step_dvd.trans hp.2.2
    have := h.minimum_dvd
    omega
  have hpos : 0 ≤ p / 100 := by have := h.minimum_pos; have := hp.1; omega
  have htrim : trim (before ++ decimal (p / 100).toNat ++ after) = decimal (p / 100).toNat :=
    trim_unblank hbefore hafter fun b hb => isSpace_of_isDigit (isDigit_of_mem_decimal b hb)
  have hint : IsInteger (decimal (p / 100).toNat) (p / 100) := by
    have := IsInteger.digits (decimal_ne_nil (p / 100).toNat) isDigit_of_mem_decimal
    rwa [numeral_decimal, Int.toNat_of_nonneg hpos] at this
  have hlo : minimum / 100 ≤ p / 100 := Int.ediv_le_ediv (by decide) hp.1
  have hhi : p / 100 ≤ maximum / 100 := Int.ediv_le_ediv (by decide) hp.2.1
  have hread : parseWholeNumber (before ++ decimal (p / 100).toNat ++ after) (minimum / 100) (maximum / 100)
      .unitPriceField language = .ok (p / 100) :=
    parseWholeNumber_of_isInteger (by rwa [htrim]) ((hmax.of_nonneg hpos (by have := hp.2.1; omega))) hlo hhi
  rw [parseTradePrice_of_units h hmax hfits hlo hhi hread, ← hunits, if_pos hp.2.2]

/-- On any text the form returns a legal price or raises an error for the player. -/
theorem parseTradePrice_cases (text : Bytes) (language : Language) (h : WholeUnits minimum maximum step)
    (hmax : Fits maximum) (hfits : Fits step) :
    (∃ p ∈ grid minimum maximum step, parseTradePrice text minimum maximum step language = .ok p) ∨
      ∃ what, parseTradePrice text minimum maximum step language = raise (.userError what) := by
  have hmin : Fits minimum := hmax.of_nonneg h.minimum_pos.le h.range
  rcases parseWholeNumber_cases text (minimum / 100) (maximum / 100) .unitPriceField language with
    ⟨units, ⟨-, -, hlo, hhi⟩, hread⟩ | hreject
  · rw [parseTradePrice_of_units h hmax hfits hlo hhi hread]
    have hminpos := h.minimum_pos
    have hmindvd := h.minimum_dvd
    split_ifs with hdvd
    · exact .inl ⟨units * 100, ⟨by omega, by omega, hdvd⟩, rfl⟩
    · exact .inr ⟨_, rfl⟩
  · rw [parseTradePrice, if_neg (parseTradePrice_guard h), div_of_nonneg hmin h.minimum_pos.le (by decide),
      div_of_nonneg hmax (h.minimum_pos.le.trans h.range) (by decide)]
    simp only [ok_bind, hreject, raise_bind]
    exact .inr ⟨_, rfl⟩

end Entry

/-- The suggested price is the nearest legal one and is accepted back among blanks, and the
form takes no other prices. -/
theorem suggested_price_exact {minimum maximum step reference : ℤ} (hmin : 0 < minimum)
    (hrange : minimum ≤ maximum) (hstep : 0 < step) (hmax : Fits maximum) (hfits : Fits step) :
    ∃ p, defaultTradePrice minimum maximum step reference = .ok p ∧
      IsNearest (grid minimum maximum step) (clampedReference minimum maximum reference) p ∧
      (100 ∣ minimum → 100 ∣ maximum → 100 ∣ step → ∀ language : Language,
        (∀ before after : Bytes, (∀ b ∈ before, isSpace b) → (∀ b ∈ after, isSpace b) →
          parseTradePrice (before ++ decimal (p / 100).toNat ++ after) minimum maximum step language = .ok p) ∧
        ∀ text q, parseTradePrice text minimum maximum step language = .ok q →
          q ∈ grid minimum maximum step) := by
  obtain ⟨p, hp, hnearest⟩ := defaultTradePrice_nearest reference hmin hrange hstep hmax hfits
  refine ⟨p, hp, hnearest, fun hmindvd hmaxdvd hstepdvd language => ?_⟩
  have h : WholeUnits minimum maximum step := ⟨hmin, hrange, hstep, hmindvd, hmaxdvd, hstepdvd⟩
  refine ⟨fun before after => parseTradePrice_decimal h hmax hfits hnearest.mem, fun text q hq => ?_⟩
  rcases parseTradePrice_cases text language h hmax hfits with ⟨q', hq', heq⟩ | ⟨what, heq⟩
  · cases hq.symm.trans heq
    exact hq'
  · cases hq.symm.trans heq

theorem suggested_price_exact_at_defaults :
    ∃ p, defaultTradePrice 100 500000 100 1050 = .ok p ∧
      IsNearest (grid 100 500000 100) (clampedReference 100 500000 1050) p ∧
      parseTradePrice ([ascii ' '] ++ decimal (p / 100).toNat ++ []) 100 500000 100 .english = .ok p := by
  obtain ⟨p, hp, hnearest, haccepted⟩ :=
    @suggested_price_exact 100 500000 100 1050 (by decide) (by decide) (by decide) (by decide) (by decide)
  have hblank : ∀ b ∈ [ascii ' '], isSpace b := fun b hb => (List.mem_singleton.mp hb) ▸ rfl
  have hback := (haccepted (by decide) (by decide) (by decide) .english).1 [ascii ' '] [] hblank (by simp)
  exact ⟨p, hp, hnearest, hback⟩

end EndstoneExchange.TradeForm
