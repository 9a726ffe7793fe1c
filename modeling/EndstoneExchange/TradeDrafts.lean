import EndstoneExchange.ConfigFiles
import EndstoneExchange.FormValues
import EndstoneExchange.TradeForm
import EndstoneExchange.OrderBookQueries

/-!
# From a form to an order

A player chooses an action, fills in a form and confirms it. What the client sends back is
any text; under the limits of a loaded configuration it is rejected with a message for the
player, or becomes an order that the service takes.
-/
namespace EndstoneExchange.TradeDrafts
open CheckedIntegers AsciiNumerals NearestGridPoints LocalizedMessages ExchangeDomain ExchangeTransactions FormValues
  TradeForm OrderBookQueries
open ConfigFiles (Config MarketConfig load load_sound)

section Drafts

inductive TradeAction where
  | limitBuy | limitSell | marketBuy | marketSell
  deriving DecidableEq, Repr

def tradeActionUsesPrice (action : TradeAction) : Prop := action = .limitBuy ∨ action = .limitSell

instance (action : TradeAction) : Decidable (tradeActionUsesPrice action) := inferInstanceAs (Decidable (_ ∨ _))

def tradeActionSide (action : TradeAction) : Side :=
  if action = .limitBuy ∨ action = .marketBuy then .buy else .sell

def tradeActionOrderType (action : TradeAction) : ExchangeDomain.OrderType :=
  if tradeActionUsesPrice action then .limit else .market

def availableTradeActions (hasBids hasAsks : Bool) : List TradeAction :=
  (if hasAsks then [.marketBuy] else []) ++ (if hasBids then [.marketSell] else []) ++ [.limitBuy, .limitSell]

structure TradeDraft where
  action : TradeAction := .limitBuy
  quantity : ℤ := 1
  priceCents : Cents := 0
  deriving DecidableEq, Repr

variable (limits : MarketConfig) (language : Language)

def parseTradeQuantity (text : Bytes) (maximum : ℤ) : Checked Thrown ℤ :=
  if maximum < 1 then raise (.userError (tr language .quantityRangeInvalid []))
  else parseWholeNumber text 1 maximum .quantityField language

def midpoint (a b : Cents) : Cents := a + (b - a).tdiv 2

/-- The price a form is opened around. -/
def referencePrice (book : OrderBook) : Cents :=
  match book.bids, book.asks with
  | bid :: _, ask :: _ => midpoint bid.priceCents ask.priceCents
  | bid :: _, [] => bid.priceCents
  | [], ask :: _ => ask.priceCents
  | [], [] => book.lastPriceCents.getD 1000

def actionsOf (book : OrderBook) : List TradeAction :=
  availableTradeActions (decide (book.bids ≠ [])) (decide (book.asks ≠ []))

/-- The draft a player starts from. -/
def openingDraft (action : TradeAction) (defaultPrice : Cents) : TradeDraft :=
  ⟨action, 1, if tradeActionUsesPrice action then defaultPrice else 0⟩

def liftExcept {α : Type} : Except Thrown α → Checked Thrown α
  | .ok a => .ok a
  | .error e => raise e

/-- What the input form makes of a response. -/
def submittedDraft (draft : TradeDraft) (response : Bytes) : Checked Thrown TradeDraft := do
  let values ← liftExcept (textFormValues language response)
  match values with
  | [quantity] =>
    if tradeActionUsesPrice draft.action then raise (.userError (tr language .invalidFormData []))
    else do
      let quantity ← parseTradeQuantity language quantity limits.maxOrderQuantity
      return { draft with quantity }
  | [quantity, price] =>
    if tradeActionUsesPrice draft.action then do
      let quantity ← parseTradeQuantity language quantity limits.maxOrderQuantity
      let priceCents ← parseTradePrice price limits.priceMinCents limits.priceMaxCents limits.priceStepCents language
      return { draft with quantity, priceCents }
    else raise (.userError (tr language .invalidFormData []))
  | _ => raise (.userError (tr language .invalidFormData []))

/-- The total that the review form shows of a draft with a price. -/
def reviewTotal (draft : TradeDraft) : Checked Thrown (Option Cents) :=
  if tradeActionUsesPrice draft.action then do return some (← mul draft.priceCents draft.quantity)
  else return none

def priceRejected (priceCents : Cents) : Checked Thrown Bool :=
  if priceCents < limits.priceMinCents ∨ priceCents > limits.priceMaxCents then .ok true
  else do
    let offset ← mod (← sub priceCents limits.priceMinCents) limits.priceStepCents
    return decide (offset ≠ 0 ∨ priceCents.tmod 100 ≠ 0)

/-- The quantity and the price are checked once more before an order is placed. -/
def checkDraft (draft : TradeDraft) : Checked Thrown PUnit := do
  if draft.quantity < 1 ∨ draft.quantity > limits.maxOrderQuantity then
    raise (.userError (tr language .quantityRangeInvalid []))
  else if tradeActionUsesPrice draft.action then do
    let rejected ← priceRejected limits draft.priceCents
    if rejected then raise (.userError (tr language .priceRangeInvalid [])) else return ⟨⟩
  else return ⟨⟩

def draftRequest (marketId : Id) (playerUuid playerName : String) (draft : TradeDraft) : OrderRequest :=
  { marketId, playerUuid, playerName,
    side := tradeActionSide draft.action,
    type := tradeActionOrderType draft.action,
    priceCents := if tradeActionUsesPrice draft.action then draft.priceCents else 0,
    quantity := draft.quantity }

end Drafts

section Limits
variable {config : Config} {language : Language} {draft : TradeDraft}

/-- A draft within the limits of the market. -/
structure Legal (limits : MarketConfig) (draft : TradeDraft) : Prop where
  quantity_pos : 1 ≤ draft.quantity
  quantity_le : draft.quantity ≤ limits.maxOrderQuantity
  price : tradeActionUsesPrice draft.action →
    draft.priceCents ∈ grid limits.priceMinCents limits.priceMaxCents limits.priceStepCents

theorem wholeUnits (hsound : config.Sound) :
    WholeUnits config.market.priceMinCents config.market.priceMaxCents config.market.priceStepCents := by
  obtain ⟨hmin, hrange, hstep⟩ := hsound.prices
  obtain ⟨hminUnits, hmaxUnits, hstepUnits⟩ := hsound.units
  exact ⟨hmin, hrange, hstep, Int.dvd_of_tmod_eq_zero hminUnits, Int.dvd_of_tmod_eq_zero hmaxUnits,
    Int.dvd_of_tmod_eq_zero hstepUnits⟩

/-- The price a trade form suggests is a legal one. -/
theorem suggestion_legal (htyped : config.Typed) (hsound : config.Sound) (reference : Cents) :
    ∃ p ∈ grid config.market.priceMinCents config.market.priceMaxCents config.market.priceStepCents,
      defaultTradePrice config.market.priceMinCents config.market.priceMaxCents config.market.priceStepCents
        reference = .ok p := by
  obtain ⟨hmin, hrange, hstep⟩ := hsound.prices
  obtain ⟨p, hp, hnearest⟩ := defaultTradePrice_nearest reference hmin hrange hstep htyped.priceMax htyped.priceStep
  exact ⟨p, hnearest.mem, hp⟩

theorem openingDraft_legal (hsound : config.Sound) (action : TradeAction) {defaultPrice : Cents}
    (h : defaultPrice ∈ grid config.market.priceMinCents config.market.priceMaxCents config.market.priceStepCents) :
    Legal config.market (openingDraft action defaultPrice) := by
  refine ⟨le_refl _, hsound.maxOrderQuantity, fun hprice => ?_⟩
  have hused : (openingDraft action defaultPrice).priceCents = defaultPrice := if_pos hprice
  rw [hused]
  exact h

theorem parseTradeQuantity_cases (hsound : config.Sound) (language : Language) (quantity : Bytes) :
    (∃ n, (1 ≤ n ∧ n ≤ config.market.maxOrderQuantity) ∧
      parseTradeQuantity language quantity config.market.maxOrderQuantity = .ok n) ∨
    ∃ what, parseTradeQuantity language quantity config.market.maxOrderQuantity = raise (.userError what) := by
  have hmax : ¬ config.market.maxOrderQuantity < 1 := not_lt.mpr hsound.maxOrderQuantity
  rw [parseTradeQuantity, if_neg hmax]
  rcases parseWholeNumber_cases quantity 1 config.market.maxOrderQuantity .quantityField language with
    ⟨n, ⟨-, -, hmin, hmax⟩, heq⟩ | heq
  · exact .inl ⟨n, ⟨hmin, hmax⟩, heq⟩
  · exact .inr ⟨_, heq⟩

/-- Any response makes a legal draft with the same action, or an error for the player. -/
theorem submittedDraft_cases (htyped : config.Typed) (hsound : config.Sound) (language : Language)
    (draft : TradeDraft) (response : Bytes) :
    (∃ updated, (updated.action = draft.action ∧ Legal config.market updated) ∧
      submittedDraft config.market language draft response = .ok updated) ∨
    ∃ what, submittedDraft config.market language draft response = raise (.userError what) := by
  unfold submittedDraft
  cases hvalues : textFormValues language response with
  | error e =>
    rw [textFormValues_error hvalues]
    exact .inr ⟨_, rfl⟩
  | ok values =>
    simp only [liftExcept, ok_bind]
    split
    case h_1 quantity =>
      split_ifs with hprice
      · exact .inr ⟨_, rfl⟩
      · rcases parseTradeQuantity_cases hsound language quantity with ⟨n, hn, heq⟩ | ⟨what, heq⟩
        · exact .inl ⟨{ draft with quantity := n }, ⟨rfl, hn.1, hn.2, fun h => absurd h hprice⟩, by rw [heq]; rfl⟩
        · exact .inr ⟨what, by rw [heq]; rfl⟩
    case h_2 quantity price =>
      split_ifs with hprice
      · rcases parseTradeQuantity_cases hsound language quantity with ⟨n, hn, heq⟩ | ⟨what, heq⟩
        · rw [heq, ok_bind]
          rcases parseTradePrice_cases price language (wholeUnits hsound) htyped.priceMax htyped.priceStep with
            ⟨p, hp, heq'⟩ | ⟨what, heq'⟩
          · exact .inl ⟨{ draft with quantity := n, priceCents := p }, ⟨rfl, hn.1, hn.2, fun _ => hp⟩, by
              rw [heq']; rfl⟩
          · exact .inr ⟨what, by rw [heq']; rfl⟩
        · exact .inr ⟨what, by rw [heq]; rfl⟩
      · exact .inr ⟨_, rfl⟩
    case h_3 => exact .inr ⟨_, rfl⟩

/-- The value of a legal draft is within the range the configuration leaves for it. -/
theorem Legal.value (h : Legal config.market draft) (hsound : config.Sound)
    (hprice : tradeActionUsesPrice draft.action) :
    0 ≤ draft.priceCents * draft.quantity ∧ draft.priceCents * draft.quantity ≤ int64Max := by
  obtain ⟨hmin, hmax, -⟩ := h.price hprice
  have hpos : 0 ≤ draft.priceCents := hsound.prices.1.le.trans hmin
  have hquantity : 0 ≤ draft.quantity := (Int.zero_le_ofNat 1).trans h.quantity_pos
  refine ⟨mul_nonneg hpos hquantity, ?_⟩
  have hbound : config.market.priceMaxCents * config.market.maxOrderQuantity ≤ int64Max := by
    have hvalue := hsound.value
    rwa [Int.tdiv_eq_ediv_of_nonneg (by decide), Int.le_ediv_iff_mul_le hsound.maxOrderQuantity] at hvalue
  exact (mul_le_mul hmax h.quantity_le hquantity (hpos.trans hmax)).trans hbound

theorem reviewTotal_legal (h : Legal config.market draft) (hsound : config.Sound) :
    reviewTotal draft =
      .ok (if tradeActionUsesPrice draft.action then some (draft.priceCents * draft.quantity) else none) := by
  unfold reviewTotal
  split_ifs with hprice
  · obtain ⟨hpos, hle⟩ := h.value hsound hprice
    rw [mul_of_fits ⟨le_trans (by decide) hpos, hle⟩]
    rfl
  · rfl

private theorem priceRejected_legal {priceCents : Cents} (htyped : config.Typed) (hsound : config.Sound)
    (h : priceCents ∈ grid config.market.priceMinCents config.market.priceMaxCents config.market.priceStepCents) :
    priceRejected config.market priceCents = .ok false := by
  obtain ⟨hmin, hmax, hdvd⟩ := h
  have hunits := wholeUnits hsound
  have hoffset : 0 ≤ priceCents - config.market.priceMinCents := sub_nonneg.mpr hmin
  have hfits : Fits (priceCents - config.market.priceMinCents) :=
    htyped.priceMax.of_nonneg hoffset (by have := hunits.minimum_pos; linarith)
  have hcents : priceCents.tmod 100 = 0 := by
    have hsum := Int.dvd_add (hunits.step_dvd.trans hdvd) hunits.minimum_dvd
    rw [sub_add_cancel] at hsum
    exact Int.tmod_eq_zero_of_dvd hsum
  have hinside : ¬ (priceCents < config.market.priceMinCents ∨ priceCents > config.market.priceMaxCents) :=
    not_or.mpr ⟨not_lt.mpr hmin, not_lt.mpr hmax⟩
  rw [priceRejected, if_neg hinside, sub_of_fits hfits, ok_bind, mod_of_nonneg hfits hoffset hunits.step_pos, ok_bind,
    Int.emod_eq_zero_of_dvd hdvd, hcents]
  rfl

/-- The check before an order is placed lets every legal draft through. -/
theorem checkDraft_legal (h : Legal config.market draft) (htyped : config.Typed) (hsound : config.Sound)
    (language : Language) : checkDraft config.market language draft = .ok ⟨⟩ := by
  have hinside : ¬ (draft.quantity < 1 ∨ draft.quantity > config.market.maxOrderQuantity) :=
    not_or.mpr ⟨not_lt.mpr h.quantity_pos, not_lt.mpr h.quantity_le⟩
  rw [checkDraft, if_neg hinside]
  split_ifs with hprice
  · rw [priceRejected_legal htyped hsound (h.price hprice)]
    rfl
  · rfl

/-- The service takes the request that a legal draft becomes. -/
theorem validateRequest_legal {settings : Settings} {marketId : Id} {playerUuid playerName : String}
    (h : Legal config.market draft) (hsound : config.Sound)
    (hmax : settings.maxOrderQuantity = config.market.maxOrderQuantity) (hmarket : marketId ≠ 0)
    (huuid : playerUuid ≠ "") (hname : playerName ≠ "") :
    validateRequest settings (draftRequest marketId playerUuid playerName draft) = .ok ⟨⟩ := by
  have hlimit : (draftRequest marketId playerUuid playerName draft).type = .limit →
      tradeActionUsesPrice draft.action := by
    intro htype
    by_contra hprice
    simp [draftRequest, tradeActionOrderType, hprice] at htype
  rw [validateRequest_ok]
  refine ⟨hmarket, huuid, hname, h.quantity_pos, hmax ▸ h.quantity_le, fun htype => ?_, fun htype => ?_⟩
  · have hprice := hlimit htype
    simp only [draftRequest, hprice, if_true]
    exact hsound.prices.1.trans_le (h.price hprice).1
  · have hprice := hlimit htype
    simp only [draftRequest, hprice, if_true]
    exact (h.value hsound hprice).2

end Limits

end EndstoneExchange.TradeDrafts
