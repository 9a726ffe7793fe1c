import EndstoneExchange.ReferenceMatching

/-!
# Funding a buy order

`buyFundingRequired` tells the plugin how much a player needs on the exchange before a
buy order is placed. It walks the asks by quantity alone, `placeBuy` walks them by
budget; a player who has what the estimate asks for pays exactly the estimate.
-/
namespace EndstoneExchange.BuyFunding
open AutoIncrementTables KeyedTables AtomicTransactions.Transaction DurablePrograms ExchangeDomain
  ExchangeTransactions AccountOperations OrderMatching ClearingSteps MatchingRefinement ClearingRefinement
  RowHistories ServiceRuns OrderReconciliation DeliveryOrigins MarketParticipants PriceTimeMatching
  MatchingWalk ReferenceMatching

section Estimate

/-- The asks of a book that belong to other players. -/
def openAsks (request : OrderRequest) (bookId : Id) (db : Db) : List (Id × OrderRow) :=
  (counterparties .sell bookId request.playerUuid db).insertionSort askBefore

def requireAsks : List (Id × OrderRow) → ℤ → Cents → Except Error Cents
  | [], _, required => return required
  | (_, ask) :: asks, remaining, required => do
    if remaining = 0 then return required
    else
      let fill := min remaining ask.remainingQty
      let cost ← checkedProduct ask.priceCents fill
      if required > maxCents - cost then throw (.runtime "market-buy funding is too large")
      else requireAsks asks (remaining - fill) (required + cost)

def buyFundingRequired (settings : Settings) (request : OrderRequest) (db : Db) : Except Error Cents := do
  validateRequest settings request
  if request.side ≠ .buy then throw (.runtime "only buy orders require currency funding")
  else
    match db.markets.get? request.marketId with
    | none => throw (.runtime "market is not active")
    | some market =>
      if market.active = false then throw (.runtime "market is not active")
      else
        match request.type with
        | .limit => checkedProduct request.priceCents request.quantity
        | .market => requireAsks (openAsks request market.bookId db) request.quantity 0

end Estimate

section Values
variable {settings : Settings} {db db' : Db} {request : OrderRequest} {required : Cents}
  {es : List (Id × OrderRow)} {m : MarketRow}

/-- A market order reads the asks that the estimate reads. -/
theorem matchingAsks_market (ht : request.type = .market) (bookId : Id) :
    matchingAsks request bookId db = openAsks request bookId db := by
  have hall : (counterparties .sell bookId request.playerUuid db).filter (fun e =>
      request.type = .limit → e.2.priceCents ≤ request.priceCents) =
        counterparties .sell bookId request.playerUuid db :=
    List.filter_eq_self.mpr fun e _ => by simp [ht]
  rw [matchingAsks, hall, openAsks]

/-- The loop of the estimate adds up what the walk without a budget costs. -/
theorem requireAsks_value (hes : ∀ e ∈ es, 0 < e.2.priceCents ∧ 0 < e.2.remainingQty) {n : ℤ} (hn : 0 ≤ n)
    {acc : Cents} (h : requireAsks es n acc = .ok required) :
    required = acc + value listedPrice (walk listedPrice listedQuantity es n none) := by
  induction es generalizing n acc with
  | nil =>
    cases h
    simp [walk]
  | cons e es ih =>
    obtain ⟨hprice, hquantity⟩ := hes e (List.mem_cons_self ..)
    by_cases h0 : n = 0
    · simp only [requireAsks, h0, if_true] at h
      cases h
      simp [walk, h0]
    · simp only [requireAsks, h0, if_false] at h
      cases hc : checkedProduct e.2.priceCents (min n e.2.remainingQty) with
      | error d =>
        rw [hc] at h
        cases h
      | ok cost =>
        obtain ⟨-, -, -, rfl⟩ := checkedProduct_ok.mp hc
        rw [hc] at h
        simp only [bind, Except.bind] at h
        split_ifs at h with hlarge
        have hrest := ih (fun a ha => hes a (List.mem_cons_of_mem _ ha))
          (sub_nonneg.mpr (min_le_left n e.2.remainingQty)) h
        rw [hrest, walk_unlimited h0 (by omega), value_cons, listedPrice]
        ring

/-- What the estimate checks before it reads a price. -/
theorem buyFundingRequired_ok (h : buyFundingRequired settings request db = .ok required) :
    ValidRequest settings request ∧ request.side = .buy ∧
      ∃ m, db.markets.get? request.marketId = some m ∧ m.active ∧
        (request.type = .limit → required = request.priceCents * request.quantity) ∧
        (request.type = .market →
          requireAsks (openAsks request m.bookId db) request.quantity 0 = .ok required) := by
  unfold buyFundingRequired at h
  cases hv : validateRequest settings request with
  | error e =>
    rw [hv] at h
    cases h
  | ok u =>
    rw [hv] at h
    simp only [bind, Except.bind] at h
    split_ifs at h with hside
    cases hm : db.markets.get? request.marketId with
    | none =>
      rw [hm] at h
      cases h
    | some m =>
      simp only [hm] at h
      split_ifs at h with hact
      refine ⟨validateRequest_ok.mp hv, by simpa using hside, m, rfl, by simpa using hact, fun ht => ?_,
        fun ht => ?_⟩
      · simp only [ht] at h
        exact (checkedProduct_ok.mp h).2.2.2.symm
      · simpa only [ht] using h

end Values
section Purchases
variable {settings : Settings} {db db' : Db} {request : OrderRequest} {required : Cents}
  {m : MarketRow} {a : AccountRow} {x : ExecutionResult}

/-- What the buyer gets back, or pays, for the fills. -/
def refunds (request : OrderRequest) (fills : List ((Id × OrderRow) × ℤ)) : Cents :=
  (fills.map fun f => buyerDelta (newOrder request 0) f.1.2.priceCents f.2).sum

/-- The result of a purchase and the account it leaves. -/
structure Purchased (db' : Db) (request : OrderRequest) (x : ExecutionResult) (balance : Cents)
    (fills : List ((Id × OrderRow) × ℤ)) : Prop where
  filled : x.filledQuantity = units fills
  gross : x.grossCents = value listedPrice fills
  balance : x.balanceCents = balance - reserveOf request + refunds request fills
  account : ∃ a, db'.accounts.find? request.playerUuid = some a ∧ a.balanceCents = x.balanceCents

private theorem placeBuy_purchased (hside : request.side = .buy) (hP : Participants db)
    (hm : db.markets.get? request.marketId = some m)
    (ha : db.accounts.find? request.playerUuid = some a) (h : placeBuy request db = .ok (x, db')) :
    Purchased db' request x a.balanceCents (fillsOf request m.bookId a.balanceCents db) ∧
      x.orderId = db.orders.nextId := by
  obtain ⟨m', b, a', ⟨p, db₂⟩, hm', hb, hact, ha', h0, hdeb, hmatch, hfin⟩ := placeBuy_ok h
  obtain rfl : m' = m := Option.some.inj (hm'.symm.trans hm)
  obtain rfl : a' = a := Option.some.inj (ha'.symm.trans ha)
  obtain ⟨-, c, hc, hfin⟩ := finishBuy_ok.mp hfin
  obtain ⟨rfl, rfl⟩ := Prod.mk.inj hfin
  have hes : restingOrders request m'.bookId db = matchingAsks request m'.bookId db := by
    simp only [restingOrders, hside]
  rw [matchingAsks_opened rfl, ← hes] at hmatch
  have heligible := (@restingOrders_complete db) hm
  have hprogress := matchAsks_progressed hmatch fun e he =>
    ⟨hP.prices e.1 e.2 ((heligible e).mp he).row ((heligible e).mp he).resting.1,
      ((heligible e).mp he).stranger⟩
  rw [askBudget_opened hside] at hprogress
  have hopened := find?_post (Db.addOrder db (newOrder request (reserveOf request))) request.playerUuid
    (-reserveOf request) .buyOrderReserve (some (.order db.orders.nextId)) request.playerUuid
  rw [if_pos rfl, Db.addOrder_accounts, ha, Option.map_some] at hopened
  obtain ⟨c', hc', hbalance⟩ := hprogress.account _ hopened
  obtain rfl : c' = c := Option.some.inj (hc'.symm.trans hc)
  refine ⟨⟨?_, ?_, hbalance, c', hc, rfl⟩, rfl⟩
  · exact hprogress.filledTotal.trans (zero_add _)
  · exact hprogress.gross.trans (zero_add _)

/-- A market order pays what its fills cost. -/
theorem refunds_market (ht : request.type = .market) (fills : List ((Id × OrderRow) × ℤ)) :
    refunds request fills = -value listedPrice fills := by
  induction fills with
  | nil => rfl
  | cons f fills ih =>
    obtain ⟨e, q⟩ := f
    rw [refunds, List.map_cons, List.sum_cons, ← refunds, ih, value_cons]
    simp [buyerDelta, newOrder, ht, listedPrice]
    ring

/-- A limit order gets back what its trades cost less than its limit. -/
theorem refunds_limit (ht : request.type = .limit) (hside : request.side = .buy) (orderId : Id)
    (fills : List ((Id × OrderRow) × ℤ)) : refunds request fills =
      ((fills.map (tradeOf request orderId)).map fun t =>
        (request.priceCents - t.priceCents) * t.quantity).sum := by
  rw [List.map_map]
  refine congrArg List.sum (List.map_congr_left fun f _ => ?_)
  simp [buyerDelta, newOrder, ht, hside, tradeOf, askTrade]

end Purchases
section Agreement
variable {settings : Settings} {db db' : Db} {request : OrderRequest} {required : Cents}
  {m : MarketRow} {a : AccountRow} {x : ExecutionResult}

/-- The units that other players offer on the book of a request. -/
def Offered (db : Db) (request : OrderRequest) (n : ℤ) : Prop :=
  ∃ es : List (Id × OrderRow), es.Nodup ∧ (∀ e, e ∈ es ↔ Eligible db request e) ∧
    n = (es.map listedQuantity).sum

/-- No balance leaves BIGINT by what the trades of the request pay. -/
def WithinRange (settings : Settings) (db : Db) (request : OrderRequest) : Prop :=
  ∀ m, db.markets.get? request.marketId = some m →
    ∀ u, u = request.playerUuid ∨ (∃ a, db.accounts.find? u = some a) →
      spendable settings db u + proceeds u
        (fillsOf request m.bookId (spendable settings db request.playerUuid) db) ≤ maxCents

/-- What a funded order does with the money the estimate asked for. -/
structure Buys (settings : Settings) (db : Db) (request : OrderRequest) (required : Cents)
    (x : ExecutionResult) (db' : Db) : Prop where
  account : ∃ a, db'.accounts.find? request.playerUuid = some a ∧ a.balanceCents = x.balanceCents
  market : request.type = .market → x.grossCents = required ∧
    x.balanceCents = spendable settings db request.playerUuid - required ∧
    ∃ n, Offered db request n ∧ x.filledQuantity = min request.quantity n
  limit : request.type = .limit → ∃ trades, db'.trades.rows = db.trades.rows ++ trades ∧
    (∀ t ∈ trades, t.buyOrderId = x.orderId) ∧
    x.balanceCents = spendable settings db request.playerUuid - required +
      (trades.map fun t => (request.priceCents - t.priceCents) * t.quantity).sum

/-- What the fills of a market order cost when its player has what the estimate asks for. -/
theorem fillsOf_funded (ht : request.type = .market) (hside : request.side = .buy) {bookId : Id}
    {balance : Cents} (hes : ∀ e ∈ restingOrders request bookId db, 0 < e.2.priceCents ∧ 0 < e.2.remainingQty)
    (hq : 0 ≤ request.quantity)
    (hr : requireAsks (openAsks request bookId db) request.quantity 0 = .ok required)
    (hb : required ≤ balance) : value listedPrice (fillsOf request bookId balance db) = required ∧
      units (fillsOf request bookId balance db) =
        min request.quantity ((restingOrders request bookId db).map listedQuantity).sum := by
  have hasks : openAsks request bookId db = restingOrders request bookId db := by
    rw [← matchingAsks_market ht, restingOrders, hside]
  have hvalue := requireAsks_value (hasks ▸ hes) hq hr
  rw [zero_add, hasks] at hvalue
  have hwithin : fillsOf request bookId balance db =
      walk listedPrice listedQuantity (restingOrders request bookId db) request.quantity none := by
    rw [fillsOf, if_pos ⟨hside, ht⟩]
    exact walk_within (fun e he => (hes e he).1) (fun e he => (hes e he).2) hq (hvalue ▸ hb)
  rw [hwithin]
  exact ⟨hvalue.symm, units_walk (fun e he => (hes e he).2) hq⟩

private theorem placeBuy_insufficient (h : Ready db request m a) (ht : request.type = .limit)
    (hvalue : request.priceCents * request.quantity ≤ maxCents)
    (hlt : a.balanceCents < request.priceCents * request.quantity) :
    placeBuy request db = .error (.runtime "insufficient exchange balance") := by
  obtain ⟨b, hb⟩ := h.book
  have hreserve : buyReserve request a.balanceCents db =
      .error (.runtime "insufficient exchange balance") := by
    simp only [buyReserve, ht]
    refine bind_error.mpr (.inr ⟨_, liftM_ok.mpr ⟨_, checkedProduct_eq (h.placeable.2 ht).le
      h.placeable.1.le hvalue, rfl⟩, bind_error.mpr (.inl (throwIf_error.mpr ⟨hlt, rfl⟩))⟩)
  refine bind_error.mpr (.inr ⟨_, lockActiveBook_ok.mpr ⟨m, b, h.market, hb, h.active, rfl⟩, ?_⟩)
  exact bind_error.mpr (.inr ⟨_, lockedBalance_ok.mpr ⟨a, h.account, rfl⟩, bind_error.mpr (.inl hreserve)⟩)

/-- A buy order whose trades keep every balance in range can be paid for. -/
theorem ensured_fundable (h : Reachable settings db) (hv : ValidRequest settings request)
    (hm : db.markets.get? request.marketId = some m) (hact : m.active)
    (hrange : WithinRange settings db request)
    (hcost : value listedPrice
      (fillsOf request m.bookId (spendable settings db request.playerUuid) db) ≤ maxCents) :
    ∃ a, Fundable (Db.ensured db settings request.playerUuid request.playerName) request m a ∧
      a.balanceCents = spendable settings db request.playerUuid := by
  obtain ⟨ho, -, hmk, -⟩ := ensured_frame settings db request.playerUuid request.playerName
  obtain ⟨a, hready, hbalance, hP⟩ := ensured_ready h hv hm hact
  have hfills := @fillsOf_congr db (Db.ensured db settings request.playerUuid request.playerName) request
    m.bookId a.balanceCents ho hmk
  rw [hbalance] at hfills
  refine ⟨a, ⟨hready, fun e he => ?_, fun e he => hP.owners e.1 e.2 he.row, ?_, fun u c hc => ?_⟩, hbalance⟩
  · exact Eligible.offers ((Eligible.congr ho hmk).mp he) (reachable_reconciled h) (reachable_participants h)
  · rw [hbalance, hfills]
    exact hcost
  · rw [hbalance, hfills]
    obtain ⟨hspend, hwho⟩ := ensured_balance hc
    rw [hspend]
    exact hrange m hm u hwho

/-- What is bought at or below the limit costs no more than the reserve. -/
theorem fillsOf_limit (ht : request.type = .limit) (hside : request.side = .buy)
    (hm : db.markets.get? request.marketId = some m) (hv : ValidRequest settings request) (balance : Cents) :
    value listedPrice (fillsOf request m.bookId balance db) ≤ request.priceCents * request.quantity := by
  have hprice : ∀ e ∈ restingOrders request m.bookId db, listedPrice e ≤ request.priceCents := by
    intro e he
    have hbetter := ((restingOrders_complete hm e).mp he).price ht
    rw [hside] at hbetter
    exact not_lt.mp hbetter
  have hunits : units (fillsOf request m.bookId balance db) ≤ request.quantity :=
    units_walk_le hv.quantity_pos.le
  calc value listedPrice (fillsOf request m.bookId balance db)
      ≤ request.priceCents * units (fillsOf request m.bookId balance db) := value_walk_le_mul hprice
    _ ≤ request.priceCents * request.quantity :=
      mul_le_mul_of_nonneg_left hunits (hv.price_pos ht).le

theorem WithinRange.spendable_le (h : WithinRange settings db request)
    (hm : db.markets.get? request.marketId = some m)
    (hes : ∀ e ∈ restingOrders request m.bookId db, 0 < e.2.priceCents) :
    spendable settings db request.playerUuid ≤ maxCents := by
  have hearned := (@proceeds_nonneg (fillsOf request m.bookId
    (spendable settings db request.playerUuid) db) request.playerUuid) (walk_paid_nonneg hes)
  linarith [h m hm request.playerUuid (.inl rfl)]

private theorem funded_buys (h : Reachable settings db)
    (hr : buyFundingRequired settings request db = .ok required)
    (hfunds : required ≤ spendable settings db request.playerUuid)
    (hrange : WithinRange settings db request) :
    ∃ x db', placeOrder settings request [] db = (.returned x, [], db') ∧
      Buys settings db request required x db' := by
  obtain ⟨hv, hside, m, hm, hact, hlimit, hmarket⟩ := buyFundingRequired_ok hr
  have hes : ∀ e ∈ restingOrders request m.bookId db, 0 < e.2.priceCents ∧ 0 < e.2.remainingQty :=
    fun e he => Eligible.offers ((restingOrders_complete hm e).mp he) (reachable_reconciled h)
      (reachable_participants h)
  have hcost : value listedPrice
      (fillsOf request m.bookId (spendable settings db request.playerUuid) db) ≤ maxCents := by
    cases ht : request.type with
    | limit => exact (fillsOf_limit ht hside hm hv _).trans (hv.value_le ht)
    | market =>
      rw [(fillsOf_funded ht hside hes hv.quantity_pos.le (hmarket ht) hfunds).1]
      exact hfunds.trans (hrange.spendable_le hm fun e he => (hes e he).1)
  obtain ⟨a, hfundable, hbalance⟩ := ensured_fundable h hv hm hact hrange hcost
  obtain ⟨ho, htr, hmk, -⟩ := ensured_frame settings db request.playerUuid request.playerName
  obtain ⟨-, -, -, hP⟩ := ensured_ready h hv hm hact
  have hready := hfundable.ready
  have hf : request.type = .limit → request.priceCents * request.quantity ≤ a.balanceCents := fun ht => by
    rw [hbalance, ← hlimit ht]
    exact hfunds
  obtain ⟨q, hmatch⟩ := (@Payable.matched _ _
    (Db.ensured db settings request.playerUuid request.playerName).orders.nextId)
      (hfundable.payable hside hf)
  obtain ⟨⟨x, db'⟩, hx⟩ := hready.placeBuy_returns settings hside hv.value_le hf hmatch
  obtain ⟨hbought, horder⟩ := placeBuy_purchased hside hP hready.market hready.account hx
  have htraded := placeBuy_traded hside hP hready.market hready.account hx
  rw [hbalance, fillsOf_congr ho hmk] at hbought htraded
  refine ⟨x, db', ?_, hbought.account, fun ht => ?_, fun ht => ?_⟩
  · rw [placeOrder_buys hv hside, transaction_returned hx]
  · obtain ⟨hvalue, hunits⟩ := fillsOf_funded ht hside hes hv.quantity_pos.le (hmarket ht) hfunds
    refine ⟨hbought.gross.trans hvalue, ?_, _, ⟨_, ?_, restingOrders_complete hm, rfl⟩,
      hbought.filled.trans hunits⟩
    · rw [hbought.balance, refunds_market ht, hvalue, reserveOf, if_neg (by simp [ht])]
      ring
    · exact List.Nodup.of_map Prod.fst restingOrders_keys
  · refine ⟨_, htr ▸ htraded.trades, fun t hin => ?_, ?_⟩
    · obtain ⟨f, -, rfl⟩ := List.mem_map.mp hin
      simp only [tradeOf, hside, askTrade, horder]
    · rw [hbought.balance, ← refunds_limit ht hside, reserveOf, if_pos ht, ← hlimit ht]

/-- A limit buyer with less than the estimate asks for gets at most an account, whatever
befalls the statements. -/
theorem unfunded_unchanged (h : Reachable settings db)
    (hr : buyFundingRequired settings request db = .ok required) (ht : request.type = .limit)
    (hlt : spendable settings db request.playerUuid < required) :
    placeBuy request (Db.ensured db settings request.playerUuid request.playerName) =
        .error (.runtime "insufficient exchange balance") ∧
      Triple (· = db) (placeOrder settings request) (fun _ _ => False)
        (fun _ s => s = db ∨ s = Db.ensured db settings request.playerUuid request.playerName)
        (fun s => s = db ∨ s = Db.ensured db settings request.playerUuid request.playerName) := by
  obtain ⟨hv, hside, m, hm, hact, hlimit, -⟩ := buyFundingRequired_ok hr
  obtain ⟨a, hready, hbalance, -⟩ := ensured_ready h hv hm hact
  have herror := placeBuy_insufficient hready ht (hv.value_le ht) (by rw [hbalance, ← hlimit ht]; exact hlt)
  refine ⟨herror, ?_⟩
  generalize hdb₁ : Db.ensured db settings request.playerUuid request.playerName = db₁ at *
  have hok : validateRequest settings request = .ok ⟨⟩ := validateRequest_ok.mpr hv
  simp only [placeOrder, hok, hside]
  refine Triple.bind (R := fun _ s => s = db) (Triple.pure fun _ h => h) fun _ =>
    Triple.bind (R := fun _ s => s = db₁) ?_ fun _ => ?_
  · refine Triple.guard (fun _ s hs => .inl hs) fun _ => Triple.atomic (fun s hs => .inl hs)
      (fun s hs => .inl hs) (fun s u s' hs hb => ?_) fun s e hs hb => .inl hs
    obtain ⟨-, rfl⟩ := Prod.mk.inj (ensureAccountTx_ok.mp hb)
    rw [hs, hdb₁]
    exact ⟨rfl, .inr rfl⟩
  · refine Triple.atomic (fun s hs => .inr hs) (fun s hs => .inr hs) (fun s r s' hs hb => ?_)
      fun s e hs _ => .inr hs
    rw [hs, herror] at hb
    cases hb

/-- In every reachable state, a buyer with what the estimate asks for is never short and pays
exactly the estimate; a limit buyer with less gets nothing but an account. -/
theorem funding_agrees (h : Reachable settings db)
    (hr : buyFundingRequired settings request db = .ok required) :
    (required ≤ spendable settings db request.playerUuid → WithinRange settings db request →
      ∃ x db', placeOrder settings request [] db = (.returned x, [], db') ∧
        Buys settings db request required x db') ∧
    (request.type = .limit → spendable settings db request.playerUuid < required →
      placeOrder settings request [] db = (.threw (.runtime "insufficient exchange balance"), [],
        Db.ensured db settings request.playerUuid request.playerName) ∧
      ∀ faults, (∀ x, (placeOrder settings request faults db).1 ≠ .returned x) ∧
        ((placeOrder settings request faults db).2.2 = db ∨ (placeOrder settings request faults db).2.2 =
          Db.ensured db settings request.playerUuid request.playerName)) := by
  refine ⟨funded_buys h hr, fun ht hlt => ?_⟩
  obtain ⟨hv, hside, -⟩ := buyFundingRequired_ok hr
  obtain ⟨herror, hunchanged⟩ := unfunded_unchanged h hr ht hlt
  refine ⟨?_, fun faults => ⟨fun x hx => ?_, ?_⟩⟩
  · rw [placeOrder_buys hv hside]
    exact Program.atomic_error herror
  · have hends := hunchanged faults db rfl
    unfold Ends at hends
    rwa [hx] at hends
  · exact Triple.final (hunchanged.conseq (fun _ h => h) (fun _ _ h => h.elim) (fun _ _ h => h)
      fun _ h => h) faults rfl

/-- Two asks of `alice` on the diamond market. -/
def twoAsks : Db := afterCalls sampleSettings [.activateMarket (diamondMarket "block"),
  .placeOrder (diamondOrder "alice" .sell .limit 600 4),
  .placeOrder (diamondOrder "alice" .sell .limit 500 4)]

private theorem twoAsks_within : WithinRange sampleSettings twoAsks (diamondOrder "bob" .buy .market 0 6) := by
  intro m hm u hu
  have hbook : (twoAsks.markets.get? 1).map (·.bookId) = some 1 := by decide +kernel
  have hm' : twoAsks.markets.get? 1 = some m := hm
  rw [hm', Option.map_some, Option.some.injEq] at hbook
  have hvalue : value listedPrice (fillsOf (diamondOrder "bob" .buy .market 0 6) 1
      (spendable sampleSettings twoAsks "bob") twoAsks) = 3200 := by decide +kernel
  have hearned := (@proceeds_le (fillsOf (diamondOrder "bob" .buy .market 0 6) 1
    (spendable sampleSettings twoAsks "bob") twoAsks) u) (by decide +kernel)
  have hbalances : ∀ e ∈ twoAsks.accounts.rows, e.2.balanceCents ≤ 1000000 := by decide +kernel
  have hspend : spendable sampleSettings twoAsks u ≤ 1000000 := by
    unfold spendable
    cases h : twoAsks.accounts.find? u with
    | none => exact le_rfl
    | some a => exact hbalances _ (KeyedTable.find?_eq_some_iff.mp h)
  have hmax : (1000000 : ℤ) + 3200 ≤ maxCents := by decide
  rw [hvalue] at hearned
  rw [hbook]
  exact (add_le_add hspend hearned).trans hmax

theorem funding_agrees_levels :
    ∃ x db', placeOrder sampleSettings (diamondOrder "bob" .buy .market 0 6) [] twoAsks =
      (.returned x, [], db') ∧ Buys sampleSettings twoAsks (diamondOrder "bob" .buy .market 0 6) 3200 x db' :=
  (funding_agrees (reachable_afterCalls _ _) (by decide +kernel)).1 (by decide +kernel) twoAsks_within

end Agreement
end EndstoneExchange.BuyFunding
