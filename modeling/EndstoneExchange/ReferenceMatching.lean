import EndstoneExchange.MarketParticipants
import EndstoneExchange.MatchingWalk

/-!
# Matching follows price-time priority

The reference takes every resting order a request may trade with, best price
first and oldest first within a price, and walks them. An order that is placed
makes exactly the reference's trades.
-/
namespace EndstoneExchange.ReferenceMatching
open AutoIncrementTables KeyedTables AtomicTransactions.Transaction DurablePrograms ExchangeDomain
  ExchangeTransactions AccountOperations OrderMatching SellEscrowOperations ClearingSteps
  MatchingRefinement ClearingRefinement RowHistories ServiceRuns OrderReconciliation DeliveryOrigins
  MarketParticipants PriceTimeMatching MatchingWalk

section Reference

/-- `a` is a better price than `b` for an order of this side. -/
def Better : Side → Cents → Cents → Prop
  | .buy, a, b => a < b
  | .sell, a, b => b < a

/-- The order in which a request of this side visits resting orders. -/
def Before (side : Side) (a b : Id × OrderRow) : Prop :=
  Better side a.2.priceCents b.2.priceCents ∨ a.2.priceCents = b.2.priceCents ∧ a.1 < b.1

/-- The resting orders a request may trade with. -/
structure Eligible (db : Db) (request : OrderRequest) (e : Id × OrderRow) : Prop where
  row : db.orders.get? e.1 = some e.2
  opposite : e.2.side ≠ request.side
  resting : e.2.Resting
  book : SameBook db request.marketId e.2.marketId
  stranger : e.2.playerUuid ≠ request.playerUuid
  price : request.type = .limit → ¬ Better request.side request.priceCents e.2.priceCents

/-- The orders and fills of the reference for a request with this budget. -/
structure Reference (db : Db) (request : OrderRequest) (budget : Option Cents)
    (es : List (Id × OrderRow)) (fills : List ((Id × OrderRow) × ℤ)) : Prop where
  complete : ∀ e, e ∈ es ↔ Eligible db request e
  sorted : es.Pairwise (Before request.side)
  fills : fills = walk listedPrice listedQuantity es request.quantity budget

/-- The trade of one fill, at the price of the resting order. -/
def tradeOf (request : OrderRequest) (orderId : Id) (f : (Id × OrderRow) × ℤ) : TradeRow :=
  match request.side with
  | .buy => askTrade request orderId f.1.1 f.1.2 f.2
  | .sell => bidTrade request orderId f.1.1 f.1.2 f.2

/-- The fills were made and no other order that existed was touched. -/
structure Traded (db db' : Db) (request : OrderRequest) (fills : List ((Id × OrderRow) × ℤ)) : Prop where
  trades : db'.trades.rows = db.trades.rows ++ fills.map (tradeOf request db.orders.nextId)
  touched : ∀ f ∈ fills, ∃ o, db'.orders.get? f.1.1 = some o ∧ o.remainingQty = f.1.2.remainingQty - f.2
  untouched : ∀ i o, db.orders.get? i = some o → (∀ f ∈ fills, f.1.1 ≠ i) → db'.orders.get? i = some o

/-- What price-time priority promises of the fills of a request. -/
structure Fair (db : Db) (request : OrderRequest) (budget : Option Cents) (es : List (Id × OrderRow))
    (fills : List ((Id × OrderRow) × ℤ)) : Prop where
  eligible : ∀ f ∈ fills, Eligible db request f.1 ∧ 0 < f.2 ∧ f.2 ≤ f.1.2.remainingQty
  strangers : ∀ f ∈ fills, ∀ id, (tradeOf request id f).buyerUuid ≠ (tradeOf request id f).sellerUuid
  priority : ∀ f ∈ fills, ∀ e, Eligible db request e → Before request.side e f.1 →
    (e, e.2.remainingQty) ∈ fills
  quantity : units fills ≤ request.quantity
  most : ∀ b, budget = some b → value listedPrice fills ≤ b ∧ ∀ x, Plan listedQuantity es x →
    (es.map x).sum ≤ request.quantity → (es.map fun e => listedPrice e * x e).sum ≤ b →
      (es.map x).sum ≤ units fills

variable {settings : Settings} {db db' : Db} {request : OrderRequest} {budget : Option Cents}
  {es : List (Id × OrderRow)} {fills : List ((Id × OrderRow) × ℤ)}

theorem Before.asymm {side : Side} {a b : Id × OrderRow} (h : Before side a b) : ¬ Before side b a := by
  cases side <;> simp only [Before, Better] at h ⊢ <;> grind

/-- Only a market buy has a budget, so a budget means that the cheapest come first. -/
theorem Reference.fair (h : Reference db request budget es fills)
    (hp : ∀ e ∈ es, 0 < e.2.priceCents ∧ 0 < e.2.remainingQty) (hq : 0 ≤ request.quantity)
    (hb : ∀ b, budget = some b → 0 ≤ b ∧ request.side = .buy) : Fair db request budget es fills := by
  have hprice : ∀ e ∈ es, 0 < listedPrice e := fun e he => (hp e he).1
  have hcheapest : budget = none ∨ es.Pairwise fun a b => listedPrice a ≤ listedPrice b := by
    cases budget with
    | none => exact .inl rfl
    | some b =>
      refine .inr (h.sorted.imp fun {a c} hac => ?_)
      rw [(hb b rfl).2] at hac
      exact hac.elim le_of_lt fun hac => hac.1.le
  have hfill : ∀ f ∈ fills, f.1 ∈ es ∧ 0 < f.2 ∧ f.2 ≤ f.1.2.remainingQty := by
    rintro ⟨e, q⟩ hf
    rw [h.fills] at hf
    exact walk_fill hf
  refine ⟨fun f hf => ⟨(h.complete f.1).mp (hfill f hf).1, (hfill f hf).2⟩, fun f hf id => ?_,
    fun f hf e he hbefore => ?_, ?_, fun b hbudget => ⟨?_, fun x hx hwanted hcost => ?_⟩⟩
  · have hne := ((h.complete f.1).mp (hfill f hf).1).stranger
    cases hside : request.side with
    | buy =>
      simp only [tradeOf, hside]
      exact hne.symm
    | sell =>
      simp only [tradeOf, hside]
      exact hne
  · rw [h.fills] at hf ⊢
    exact (@walk_priority _ _ _ _ _ _ (Before request.side)) (fun a b hab => hab.asymm) h.sorted hprice
      hcheapest hf ((h.complete e).mpr he) hbefore
  · rw [h.fills]
    exact units_walk_le hq
  · rw [h.fills, hbudget]
    exact value_walk_le hprice (hb b hbudget).1
  · rw [h.fills, hbudget]
    exact plan_le_walk (hcheapest.resolve_left (by simp [hbudget])) hprice (fun e he => (hp e he).2) hq
      hx hwanted hcost

end Reference

section RestingOrders
variable {settings : Settings} {db db' : Db} {request : OrderRequest}

/-- The resting orders that `placeBuy` or `placeSellLocked` reads. -/
def restingOrders (request : OrderRequest) (bookId : Id) (db : Db) : List (Id × OrderRow) :=
  match request.side with
  | .buy => matchingAsks request bookId db
  | .sell => matchingBids request bookId db

/-- The new order is no counterparty of its own request. -/
theorem counterparties_opened {side : Side} {bookId : Id} {o : OrderRow}
    (ho : o.playerUuid = request.playerUuid) :
    counterparties side bookId request.playerUuid (Db.openOrder db o) =
      counterparties side bookId request.playerUuid db := by
  have hentries : (Db.openOrder db o).orders.entries = db.orders.entries ++ [(db.orders.nextId, o)] :=
    Table.entries_insert _ _
  have hbooks : ∀ m, Db.bookOf (Db.openOrder db o) m = Db.bookOf db m := fun _ => rfl
  simp only [counterparties, hentries, hbooks, List.filter_append, List.filter_singleton, ho, ne_eq,
    not_true_eq_false, and_false, decide_false, cond_false, List.append_nil]

theorem matchingAsks_opened {bookId : Id} {o : OrderRow} (ho : o.playerUuid = request.playerUuid) :
    matchingAsks request bookId (Db.openOrder db o) = matchingAsks request bookId db := by
  rw [matchingAsks, counterparties_opened ho, matchingAsks]

theorem matchingBids_opened {bookId : Id} {o : OrderRow} (ho : o.playerUuid = request.playerUuid) :
    matchingBids request bookId (Db.openOrder db o) = matchingBids request bookId db := by
  rw [matchingBids, counterparties_opened ho, matchingBids]

theorem restingOrders_complete {m : MarketRow} (hm : db.markets.get? request.marketId = some m)
    (e : Id × OrderRow) : e ∈ restingOrders request m.bookId db ↔ Eligible db request e := by
  have hside : ∀ {s : Side}, s ≠ request.side → (e.2.side = s ↔ e.2.side ≠ request.side) := by
    intro s hs
    cases hr : request.side <;> cases he : e.2.side <;> cases s <;> simp_all
  cases hs : request.side with
  | buy =>
    have h := hside (s := .sell) (by simp [hs])
    simp only [restingOrders, hs, matchingAsks, List.mem_insertionSort, List.mem_filter,
      mem_counterparties hm, decide_eq_true_eq, h]
    constructor
    · rintro ⟨⟨hrow, hopp, hrest, hbook, hne⟩, hp⟩
      exact ⟨hrow, hs ▸ hopp, hrest, hbook, hne, fun ht => by simpa [hs, Better] using hp ht⟩
    · intro he
      exact ⟨⟨he.row, hs ▸ he.opposite, he.resting, he.book, he.stranger⟩, fun ht => by
        simpa [hs, Better] using he.price ht⟩
  | sell =>
    have h := hside (s := .buy) (by simp [hs])
    simp only [restingOrders, hs, matchingBids, List.mem_insertionSort, List.mem_filter,
      mem_counterparties hm, decide_eq_true_eq, h]
    constructor
    · rintro ⟨⟨hrow, hopp, hrest, hbook, hne⟩, hp⟩
      exact ⟨hrow, hs ▸ hopp, hrest, hbook, hne, fun ht => by simpa [hs, Better] using hp ht⟩
    · intro he
      exact ⟨⟨he.row, hs ▸ he.opposite, he.resting, he.book, he.stranger⟩, fun ht => by
        simpa [hs, Better] using he.price ht⟩

instance : Std.Total askBefore := ⟨fun a b => by simp only [askBefore]; grind⟩
instance : IsTrans (Id × OrderRow) askBefore := ⟨fun a b c => by simp only [askBefore]; grind⟩
instance : Std.Total bidBefore := ⟨fun a b => by simp only [bidBefore]; grind⟩
instance : IsTrans (Id × OrderRow) bidBefore := ⟨fun a b c => by simp only [bidBefore]; grind⟩

/-- A filtered and sorted query lists no key twice. -/
theorem sorted_keys {r : Id × OrderRow → Id × OrderRow → Prop} [DecidableRel r] {side : Side}
    {bookId : Id} (p : Id × OrderRow → Prop) [DecidablePred p] :
    ((((counterparties side bookId request.playerUuid db).filter fun e => p e).insertionSort r).map
      Prod.fst).Nodup := by
  refine ((List.perm_insertionSort r _).map Prod.fst).nodup_iff.mpr (List.Nodup.sublist
    ((List.filter_sublist.trans List.filter_sublist).map _) ?_)
  exact (List.pairwise_map.mpr (Table.entries_sorted _)).imp fun hlt => hlt.ne

theorem restingOrders_keys {bookId : Id} : ((restingOrders request bookId db).map Prod.fst).Nodup := by
  cases hs : request.side with
  | buy =>
    rw [restingOrders, hs]
    exact sorted_keys _
  | sell =>
    rw [restingOrders, hs]
    exact sorted_keys _

private theorem restingOrders_sorted {bookId : Id} :
    (restingOrders request bookId db).Pairwise (Before request.side) := by
  have hkeys := List.pairwise_map.mp ((@restingOrders_keys db request bookId))
  cases hs : request.side with
  | buy =>
    simp only [restingOrders, hs] at hkeys ⊢
    refine List.Pairwise.imp₂ (fun a b hab hne => ?_) (List.pairwise_insertionSort askBefore _) hkeys
    simp only [askBefore] at hab
    simp only [Before, Better]
    grind
  | sell =>
    simp only [restingOrders, hs] at hkeys ⊢
    refine List.Pairwise.imp₂ (fun a b hab hne => ?_) (List.pairwise_insertionSort bidBefore _) hkeys
    simp only [bidBefore] at hab
    simp only [Before, Better]
    grind

end RestingOrders
section Placing
variable {settings : Settings} {db db' db₁ db₂ : Db} {request : OrderRequest} {budget : Option Cents}
  {fills : List ((Id × OrderRow) × ℤ)}

/-- The balance a player places an order with; a new account opens with the initial balance. -/
def spendable (settings : Settings) (db : Db) (playerUuid : String) : Cents :=
  match db.accounts.find? playerUuid with
  | some a => a.balanceCents
  | none => settings.initialBalanceCents

/-- Only a market buy is limited by what its player can spend. -/
def budgetOf (settings : Settings) (db : Db) (request : OrderRequest) : Option Cents :=
  if request.side = .buy ∧ request.type = .market then
    some (spendable settings db request.playerUuid) else none

/-- A limit buy reserves its whole value in advance. -/
def Funded (settings : Settings) (db : Db) (request : OrderRequest) : Prop :=
  request.side = .buy → request.type = .limit →
    request.priceCents * request.quantity ≤ spendable settings db request.playerUuid

/-- No account outgrows BIGINT by what the fills are worth. -/
def Room (settings : Settings) (db : Db) (request : OrderRequest)
    (fills : List ((Id × OrderRow) × ℤ)) : Prop :=
  ∀ u, u = request.playerUuid ∨ (∃ a, db.accounts.find? u = some a) →
    spendable settings db u + value listedPrice fills ≤ maxCents

/-- What the walk of a matching session did, once the session's own order is closed. -/
theorem Walked.traded {trade : (Id × OrderRow) × ℤ → TradeRow} {o : OrderRow} {g : OrderRow → OrderRow}
    (h : Walked db₁ db₂ trade fills) (ho : db₁.orders = db.orders.insert o)
    (ht : db₁.trades = db.trades) (ho' : db'.orders = db₂.orders.update db.orders.nextId g)
    (ht' : db'.trades = db₂.trades) (hrow : ∀ f ∈ fills, db.orders.get? f.1.1 = some f.1.2)
    (htrade : ∀ f, trade f = tradeOf request db.orders.nextId f) : Traded db db' request fills := by
  refine ⟨?_, fun f hf => ?_, fun i o hi hne => ?_⟩
  · rw [ht', h.trades, ht, List.map_congr_left fun f _ => htrade f]
  · obtain ⟨o', hget, hrem⟩ := h.rows f hf
    refine ⟨o', ?_, hrem⟩
    rw [ho', Table.get?_update_ne _ _ (Table.ne_nextId (hrow f hf)), hget]
  · rw [ho', Table.get?_update_ne _ _ (Table.ne_nextId hi), h.others i hne, ho]
    exact Table.get?_insert_old _ hi

theorem Traded.congr (h : Traded db₁ db' request fills) (ho : db₁.orders = db.orders)
    (ht : db₁.trades = db.trades) : Traded db db' request fills := by
  obtain ⟨htrades, htouched, huntouched⟩ := h
  rw [ho] at htrades huntouched
  rw [ht] at htrades
  exact ⟨htrades, htouched, huntouched⟩

/-- What a resting order of a reachable database offers. -/
theorem Eligible.offers {e : Id × OrderRow} (he : Eligible db request e) (hR : Reconciled ⟨db, none⟩)
    (hP : Participants db) : 0 < e.2.priceCents ∧ 0 < e.2.remainingQty := by
  refine ⟨hP.prices e.1 e.2 he.row he.resting.1, ?_⟩
  have hbalanced := hR.orders e.1 e.2 he.row
  have hlive : e.2.status ≠ .canceled := fun hc => OrderStatus.not_live_canceled (hc ▸ he.resting.2)
  obtain ⟨-, hstatus⟩ := hbalanced.accounted (.inl ⟨he.resting.1, hlive⟩)
  have hne : e.2.remainingQty ≠ 0 := by
    intro h0
    have hfilled : e.2.status = .filled := by rw [hstatus, orderStatus, if_pos h0]
    exact OrderStatus.not_live_filled (hfilled ▸ he.resting.2)
  exact lt_of_le_of_ne hbalanced.remaining_nonneg hne.symm

section Locked
variable {m : MarketRow} {a : AccountRow} {r : ExecutionResult}

/-- The fills of a request against a database that has the requester's account. -/
def fillsOf (request : OrderRequest) (bookId : Id) (balance : Cents) (db : Db) :
    List ((Id × OrderRow) × ℤ) :=
  walk listedPrice listedQuantity (restingOrders request bookId db) request.quantity
    (if request.side = .buy ∧ request.type = .market then some balance else none)

private theorem fillsOf_row {bookId : Id} {balance : Cents} (hm : db.markets.get? request.marketId = some m)
    (hb : m.bookId = bookId) : ∀ f ∈ fillsOf request bookId balance db,
      db.orders.get? f.1.1 = some f.1.2 := fun f hf =>
  ((restingOrders_complete hm f.1).mp (hb ▸ (walk_fill hf).1)).row

/-- The budget of a buyer's loop, whose reserve is already paid. -/
theorem askBudget_opened (hside : request.side = .buy) (balance : Cents) :
    askBudget request
      { remaining := request.quantity, availableBalance := balance - reserveOf request } =
        if request.side = .buy ∧ request.type = .market then some balance else none := by
  cases ht : request.type <;> simp [askBudget, ht, hside, reserveOf]

theorem placeBuy_traded (hside : request.side = .buy) (hP : Participants db)
    (hm : db.markets.get? request.marketId = some m)
    (ha : db.accounts.find? request.playerUuid = some a) (h : placeBuy request db = .ok (r, db')) :
    Traded db db' request (fillsOf request m.bookId a.balanceCents db) := by
  obtain ⟨m', b, a', ⟨p, db₂⟩, hm', hb, hact, ha', h0, hdeb, hmatch, hfin⟩ := placeBuy_ok h
  obtain rfl : m' = m := Option.some.inj (hm'.symm.trans hm)
  obtain rfl : a' = a := Option.some.inj (ha'.symm.trans ha)
  obtain ⟨-, c, hc, hfin⟩ := finishBuy_ok.mp hfin
  obtain ⟨rfl, rfl⟩ := Prod.mk.inj hfin
  have hes : restingOrders request m'.bookId db = matchingAsks request m'.bookId db := by
    simp only [restingOrders, hside]
  rw [matchingAsks_opened rfl, ← hes] at hmatch
  have heligible := (@restingOrders_complete db) hm
  have hwalk := matchAsks_walk hmatch
    (fun e he => hP.prices e.1 e.2 ((heligible e).mp he).row ((heligible e).mp he).resting.1)
    restingOrders_keys fun e he => Table.get?_insert_old _ ((heligible e).mp he).row
  rw [askBudget_opened hside] at hwalk
  exact Walked.traded hwalk rfl rfl rfl rfl (fillsOf_row hm rfl) fun f => by simp only [tradeOf, hside]

theorem placeSellLocked_traded (hside : request.side = .sell)
    (hm : db.markets.get? request.marketId = some m) (balance : Cents)
    (h : placeSellLocked request db = .ok (r, db')) :
    Traded db db' request (fillsOf request m.bookId balance db) := by
  obtain ⟨m', b, a', ⟨p, db₂⟩, hm', hb, hact, ha', hmatch, hfin⟩ := placeSellLocked_ok.mp h
  obtain rfl : m' = m := Option.some.inj (hm'.symm.trans hm)
  obtain ⟨c, hc, hfin⟩ := finishSell_ok.mp hfin
  obtain ⟨rfl, rfl⟩ := Prod.mk.inj hfin
  have hes : restingOrders request m'.bookId db = matchingBids request m'.bookId db := by
    simp only [restingOrders, hside]
  have hopened : Db.addOrder db (newOrder request 0) = Db.openOrder db (newOrder request 0) := rfl
  rw [hopened, matchingBids_opened rfl, ← hes] at hmatch
  have heligible := (@restingOrders_complete db) hm
  have hwalk := matchBids_walk hmatch restingOrders_keys
    fun e he => Table.get?_insert_old _ ((heligible e).mp he).row
  have hfills : fillsOf request m'.bookId balance db =
      walk listedPrice listedQuantity (restingOrders request m'.bookId db) request.quantity none := by
    simp [fillsOf, hside]
  rw [hfills]
  exact Walked.traded hwalk rfl rfl rfl rfl (fun f hf => ((heligible f.1).mp (walk_fill hf).1).row)
    fun f => by simp only [tradeOf, hside]

/-- A database in which a session's order can be placed. -/
structure Open (db : Db) (request : OrderRequest) (m : MarketRow) (a : AccountRow) : Prop where
  placeable : Placeable request
  market : db.markets.get? request.marketId = some m
  book : ∃ b, db.books.get? m.bookId = some b
  active : m.active
  account : db.accounts.find? request.playerUuid = some a
  offers : ∀ e, Eligible db request e → 0 < e.2.priceCents ∧ 0 < e.2.remainingQty
  owners : ∀ e, Eligible db request e → ∃ c, db.accounts.find? e.2.playerUuid = some c
  solvent : 0 ≤ a.balanceCents
  room : ∀ u c, db.accounts.find? u = some c →
    c.balanceCents + value listedPrice (fillsOf request m.bookId a.balanceCents db) ≤ maxCents

theorem Open.mem {e : Id × OrderRow} (h : Open db request m a) (bookId : Id) (hb : bookId = m.bookId)
    (he : e ∈ restingOrders request bookId db) : Eligible db request e := by
  subst hb
  exact (restingOrders_complete h.market e).mp he

/-- What opening a session's order needs of the database. -/
structure Ready (db : Db) (request : OrderRequest) (m : MarketRow) (a : AccountRow) : Prop where
  placeable : Placeable request
  market : db.markets.get? request.marketId = some m
  book : ∃ b, db.books.get? m.bookId = some b
  active : m.active
  account : db.accounts.find? request.playerUuid = some a
  solvent : 0 ≤ a.balanceCents

theorem Open.ready (h : Open db request m a) : Ready db request m a :=
  ⟨h.placeable, h.market, h.book, h.active, h.account, h.solvent⟩

theorem Ready.reserve (h : Ready db request m a)
    (hf : request.type = .limit → request.priceCents * request.quantity ≤ a.balanceCents) :
    0 ≤ reserveOf request ∧ reserveOf request ≤ a.balanceCents ∧
      Debitable db request.playerUuid (reserveOf request) := by
  have h0 : 0 ≤ reserveOf request ∧ reserveOf request ≤ a.balanceCents := by
    unfold reserveOf
    split_ifs with ht
    · exact ⟨mul_nonneg (h.placeable.2 ht).le h.placeable.1.le, hf ht⟩
    · exact ⟨le_rfl, h.solvent⟩
  exact ⟨h0.1, h0.2, h0.1, fun _ => ⟨a, h.account, h0.2⟩⟩

/-- A database in which what a buy order pays leaves no balance outside BIGINT. -/
structure Fundable (db : Db) (request : OrderRequest) (m : MarketRow) (a : AccountRow) : Prop where
  ready : Ready db request m a
  offers : ∀ e, Eligible db request e → 0 < e.2.priceCents ∧ 0 < e.2.remainingQty
  owners : ∀ e, Eligible db request e → ∃ c, db.accounts.find? e.2.playerUuid = some c
  cost : value listedPrice (fillsOf request m.bookId a.balanceCents db) ≤ maxCents
  room : ∀ u c, db.accounts.find? u = some c →
    c.balanceCents + proceeds u (fillsOf request m.bookId a.balanceCents db) ≤ maxCents

theorem Fundable.mem {e : Id × OrderRow} (h : Fundable db request m a)
    (he : e ∈ restingOrders request m.bookId db) : Eligible db request e :=
  (restingOrders_complete h.ready.market e).mp he

theorem Open.fundable (h : Open db request m a) : Fundable db request m a := by
  have hprice : ∀ e ∈ restingOrders request m.bookId db, 0 < e.2.priceCents :=
    fun e he => (h.offers e (h.mem _ rfl he)).1
  refine ⟨h.ready, h.offers, h.owners, ?_, fun u c hc => ?_⟩
  · linarith [h.room _ _ h.account, h.solvent]
  · have hle := (@proceeds_le (fillsOf request m.bookId a.balanceCents db) u) (walk_paid_nonneg hprice)
    linarith [h.room u c hc]

theorem Fundable.paid_nonneg (h : Fundable db request m a) :
    ∀ f ∈ fillsOf request m.bookId a.balanceCents db, 0 ≤ f.1.2.priceCents * f.2 :=
  walk_paid_nonneg fun e he => (h.offers e (h.mem he)).1

theorem Fundable.balance_le (h : Fundable db request m a) : a.balanceCents ≤ maxCents := by
  have hearned := (@proceeds_nonneg _ request.playerUuid) h.paid_nonneg
  linarith [h.room _ _ h.ready.account]

/-- The asks of a market can be paid for as far as the walk goes. -/
theorem Fundable.payable (h : Fundable db request m a) (hside : request.side = .buy)
    (hf : request.type = .limit → request.priceCents * request.quantity ≤ a.balanceCents) :
    Payable (Db.openOrder db (newOrder request (reserveOf request))) request
      (restingOrders request m.bookId db)
      { remaining := request.quantity, availableBalance := a.balanceCents - reserveOf request } := by
  obtain ⟨h0, hle, -⟩ := h.ready.reserve hf
  have hposted := find?_post (Db.addOrder db (newOrder request (reserveOf request))) request.playerUuid
    (-reserveOf request) .buyOrderReserve (some (.order db.orders.nextId))
  have hfills : walk listedPrice listedQuantity (restingOrders request m.bookId db) request.quantity
      (askBudget request
        { remaining := request.quantity, availableBalance := a.balanceCents - reserveOf request }) =
      fillsOf request m.bookId a.balanceCents db := by rw [askBudget_opened hside, fillsOf]
  refine ⟨fun e he => ?_, fun ht e he => ?_, h.ready.placeable.1.le, ?_, sub_nonneg.mpr hle, fun ht => ?_,
    ?_, fun e he => ?_⟩
  · exact ⟨(h.offers e (h.mem he)).1, (h.offers e (h.mem he)).2, (h.mem he).stranger⟩
  · have hprice := (h.mem he).price ht
    rw [hside] at hprice
    exact not_lt.mp hprice
  · refine ⟨{ a with balanceCents := a.balanceCents + -reserveOf request }, ?_, rfl⟩
    have hown := hposted request.playerUuid
    rw [if_pos rfl, Db.addOrder_accounts, h.ready.account, Option.map_some] at hown
    exact hown
  · refine ⟨(h.ready.placeable.2 ht).le, ?_⟩
    have hreserve : reserveOf request = request.priceCents * request.quantity := if_pos ht
    rw [hreserve, sub_add_cancel]
    exact h.balance_le
  · rw [hfills]
    exact h.cost
  · obtain ⟨c, hc⟩ := h.owners e (h.mem he)
    have hother := hposted e.2.playerUuid
    rw [if_neg (h.mem he).stranger] at hother
    rw [hfills]
    exact ⟨c, hother.trans hc, h.room _ _ hc⟩

/-- The asks of an open market can be bought as far as the walk goes. -/
theorem Open.purchasable (h : Open db request m a) (hside : request.side = .buy)
    (hf : request.type = .limit → request.priceCents * request.quantity ≤ a.balanceCents) :
    Purchasable (Db.openOrder db (newOrder request (reserveOf request))) request
      (restingOrders request m.bookId db)
      { remaining := request.quantity, availableBalance := a.balanceCents - reserveOf request } := by
  obtain ⟨hasks, hwithin, hremaining, hbuyer, havailable, hrefundable, hcost, -⟩ :=
    h.fundable.payable hside hf
  refine ⟨hasks, hwithin, hremaining, hbuyer, havailable, hrefundable, hcost, fun e he => ?_⟩
  obtain ⟨c, hc⟩ := h.owners e (h.mem _ rfl he)
  have hother := find?_post (Db.addOrder db (newOrder request (reserveOf request))) request.playerUuid
    (-reserveOf request) .buyOrderReserve (some (.order db.orders.nextId)) e.2.playerUuid
  rw [if_neg (h.mem _ rfl he).stranger] at hother
  rw [askBudget_opened hside]
  exact ⟨c, hother.trans hc, h.room _ _ hc⟩

/-- A buy order is placed when its loop returns. -/
theorem Ready.placeBuy_returns {q : Progress × Db} (settings : Settings) (h : Ready db request m a)
    (hside : request.side = .buy)
    (hvalue : request.type = .limit → request.priceCents * request.quantity ≤ maxCents)
    (hf : request.type = .limit → request.priceCents * request.quantity ≤ a.balanceCents)
    (hmatch : matchAsks request db.orders.nextId (restingOrders request m.bookId db)
      { remaining := request.quantity, availableBalance := a.balanceCents - reserveOf request }
      (Db.openOrder db (newOrder request (reserveOf request))) = .ok q) :
    ∃ r, placeBuy request db = .ok r := by
  obtain ⟨b, hb⟩ := h.book
  obtain ⟨h0, hle, hdeb⟩ := h.reserve hf
  have hes : restingOrders request m.bookId db = matchingAsks request m.bookId db := by
    simp only [restingOrders, hside]
  rw [hes, ← matchingAsks_opened (o := newOrder request (reserveOf request)) rfl] at hmatch
  have hw := @waiting_of_query db (Db.openOrder db (newOrder request (reserveOf request))) request .sell
    (fun o => request.type = .limit → o.priceCents ≤ request.priceCents) m.bookId m _
    (newOrder request (reserveOf request))
    (fun e => request.type = .limit → e.2.priceCents ≤ request.priceCents) _ h.market rfl (fun _ h => h)
    (List.perm_insertionSort askBefore _) rfl rfl rfl
  obtain ⟨hsteps, hs⟩ := (@matchAsks_steps _ _ _ _ _ _ _ settings (fun _ => True)) hmatch
    ((@session_start _ _ (reserveOf request)) h.placeable _) hside hw
  have hopened : ∃ c, (Db.openOrder db (newOrder request (reserveOf request))).accounts.find?
      request.playerUuid = some c := (exists_account_post _ _ _ _ _).mpr ⟨a, h.account⟩
  obtain ⟨c, hc⟩ := Steps.induct (I := fun d => ∃ c, d.db.accounts.find? request.playerUuid = some c)
    (fun hs => account_kept hs) hsteps hopened
  have hkept : request.type = .limit → 0 ≤ request.priceCents ∧ 0 ≤ q.1.remaining ∧
      request.priceCents * q.1.remaining ≤ maxCents := by
    intro ht
    have hprice := (h.placeable.2 ht).le
    have hremaining : q.1.remaining ≤ request.quantity := by linarith [hs.total, hs.filled]
    exact ⟨hprice, hs.remaining, (mul_le_mul_of_nonneg_left hremaining hprice).trans (hvalue ht)⟩
  refine ⟨(executionResult request db.orders.nextId q.1 c.balanceCents,
    Db.setOrder q.2 db.orders.nextId (boughtOrder request q.1 (keptReserve request q.1))), ?_⟩
  simp only [placeBuy, bind_ok, lockActiveBook_ok, lockedBalance_ok, buyReserve_ok, insertOrder_ok,
    select_ok]
  exact ⟨_, ⟨m, b, h.market, hb, h.active, rfl⟩, _, ⟨a, h.account, rfl⟩, _,
    ⟨fun ht => ⟨(h.placeable.2 ht).le, h.placeable.1.le, hvalue ht, hf ht⟩, rfl⟩, _, rfl, _,
    (reserveFunds_ok h0).mpr ⟨hdeb, rfl⟩, _, rfl, q, hmatch, finishBuy_ok.mpr ⟨hkept, c, hc, rfl⟩⟩

theorem Open.placeBuy_returns (settings : Settings) (h : Open db request m a) (hside : request.side = .buy)
    (hvalue : request.type = .limit → request.priceCents * request.quantity ≤ maxCents)
    (hf : request.type = .limit → request.priceCents * request.quantity ≤ a.balanceCents) :
    ∃ r, placeBuy request db = .ok r := by
  obtain ⟨q, hmatch⟩ := (@matchAsks_returns _ _ db.orders.nextId) (h.purchasable hside hf)
  exact h.ready.placeBuy_returns settings hside hvalue hf hmatch

theorem Open.placeSellLocked_returns (settings : Settings) (h : Open db request m a)
    (hside : request.side = .sell) (hR : Reconciled ⟨db, none⟩) : ∃ r, placeSellLocked request db = .ok r := by
  obtain ⟨b, hb⟩ := h.book
  have hopened : Db.addOrder db (newOrder request 0) = Db.openOrder db (newOrder request 0) := rfl
  have hfills : fillsOf request m.bookId a.balanceCents db =
      walk listedPrice listedQuantity (restingOrders request m.bookId db) request.quantity none := by
    simp [fillsOf, hside]
  have hroom := h.room _ _ h.account
  rw [hfills] at hroom
  have hsellable : Sellable (Db.openOrder db (newOrder request 0)) request
      (restingOrders request m.bookId db) { remaining := request.quantity } := by
    refine ⟨fun e he => ?_, h.placeable.1.le, by linarith [h.solvent], ⟨a, h.account, hroom⟩⟩
    have heligible := h.mem _ rfl he
    have hbuy : e.2.side = .buy := by
      have hne := heligible.opposite
      rw [hside] at hne
      cases he : e.2.side with
      | buy => rfl
      | sell => exact absurd he hne
    exact ⟨(h.offers e heligible).1, (h.offers e heligible).2,
      hR.bidsCovered e.1 e.2 heligible.row hbuy heligible.resting.1⟩
  obtain ⟨q, hmatch⟩ := (@matchBids_returns _ _ db.orders.nextId) hsellable
  have hes : restingOrders request m.bookId db = matchingBids request m.bookId db := by
    simp only [restingOrders, hside]
  rw [hes, ← matchingBids_opened (o := newOrder request 0) rfl] at hmatch
  have hw := @waiting_of_query db (Db.openOrder db (newOrder request 0)) request .buy
    (fun o => request.type = .limit → o.priceCents ≥ request.priceCents) m.bookId m _ (newOrder request 0)
    (fun e => request.type = .limit → e.2.priceCents ≥ request.priceCents) _ h.market rfl (fun _ h => h)
    (List.perm_insertionSort bidBefore _) rfl rfl rfl
  obtain ⟨hsteps, -⟩ := (@matchBids_steps _ _ _ _ _ _ _ settings (fun _ => True)) hmatch
    ((@session_start _ _ 0) h.placeable _) hside hw
  obtain ⟨c, hc⟩ := Steps.induct (I := fun d => ∃ c, d.db.accounts.find? request.playerUuid = some c)
    (fun hs => account_kept hs) hsteps ⟨a, h.account⟩
  exact ⟨_, placeSellLocked_ok.mpr ⟨m, b, a, q, h.market, hb, h.active, h.account, hmatch,
    finishSell_ok.mpr ⟨c, hc, rfl⟩⟩⟩

end Locked

section Calls

theorem ensured_frame (settings : Settings) (db : Db) (uuid name : String) :
    (Db.ensured db settings uuid name).orders = db.orders ∧
      (Db.ensured db settings uuid name).trades = db.trades ∧
      (Db.ensured db settings uuid name).markets = db.markets ∧
      (Db.ensured db settings uuid name).books = db.books := by
  unfold Db.ensured
  cases db.accounts.find? uuid <;> exact ⟨rfl, rfl, rfl, rfl⟩

/-- The account an order is placed with. -/
theorem ensured_account (settings : Settings) (db : Db) (uuid name : String) :
    ∃ a, (Db.ensured db settings uuid name).accounts.find? uuid = some a ∧
      a.balanceCents = spendable settings db uuid := by
  unfold Db.ensured spendable
  cases h : db.accounts.find? uuid with
  | none => exact ⟨_, by simp [KeyedTable.find?_insert _ h]; rfl, rfl⟩
  | some a => exact ⟨{ a with playerName := name }, by simp [KeyedTable.find?_update, h], rfl⟩

/-- Every other balance is as it was. -/
theorem ensured_balance {settings : Settings} {db : Db} {uuid name u : String} {c : AccountRow}
    (h : (Db.ensured db settings uuid name).accounts.find? u = some c) :
    c.balanceCents = spendable settings db u ∧ (u = uuid ∨ ∃ a, db.accounts.find? u = some a) := by
  unfold Db.ensured at h
  unfold spendable
  cases hu : db.accounts.find? uuid with
  | none =>
    simp only [hu, Db.addLedger_accounts, Db.addAccount_accounts, KeyedTable.find?_insert _ hu] at h
    split_ifs at h with he
    · obtain rfl := Option.some.inj h
      simp [he, hu]
    · simp [h]
  | some a =>
    simp only [hu, Db.setAccount_accounts, KeyedTable.find?_update] at h
    split_ifs at h with he
    · obtain ⟨b, hb, rfl⟩ := Option.map_eq_some_iff.mp h
      simp [hb]
    · simp [h]

theorem fillsOf_congr {bookId : Id} {balance : Cents} (ho : db₁.orders = db.orders)
    (hm : db₁.markets = db.markets) :
    fillsOf request bookId balance db₁ = fillsOf request bookId balance db := by
  have hresting : restingOrders request bookId db₁ = restingOrders request bookId db := by
    unfold restingOrders matchingAsks matchingBids counterparties Db.bookOf
    rw [ho, hm]
  rw [fillsOf, hresting, fillsOf]

theorem Eligible.congr {e : Id × OrderRow} (ho : db₁.orders = db.orders) (hm : db₁.markets = db.markets) :
    Eligible db₁ request e ↔ Eligible db request e := by
  have hbook : SameBook db₁ request.marketId e.2.marketId ↔ SameBook db request.marketId e.2.marketId := by
    unfold SameBook Db.bookOf
    rw [hm]
  constructor
  · rintro ⟨hrow, hopp, hrest, hb, hne, hp⟩
    exact ⟨ho ▸ hrow, hopp, hrest, hbook.mp hb, hne, hp⟩
  · rintro ⟨hrow, hopp, hrest, hb, hne, hp⟩
    exact ⟨ho ▸ hrow, hopp, hrest, hbook.mpr hb, hne, hp⟩

/-- A call that places a request makes the reference's trades or none. -/
structure Matches (settings : Settings) (db : Db) (request : OrderRequest)
    (x : Program Db Error ExecutionResult) (es : List (Id × OrderRow))
    (fills : List ((Id × OrderRow) × ℤ)) : Prop where
  reference : Reference db request (budgetOf settings db request) es fills
  fair : Fair db request (budgetOf settings db request) es fills
  atMostOnce : ∀ faults, (x faults db).2.2.trades = db.trades ∨ Traded db (x faults db).2.2 request fills
  returned : ∀ faults r, (x faults db).1 = .returned r → Traded db (x faults db).2.2 request fills
  returns : Funded settings db request → Room settings db request fills →
    ∃ r, (x [] db).1 = .returned r

theorem reference_of_market {m : MarketRow} (hm : db.markets.get? request.marketId = some m) :
    Reference db request (budgetOf settings db request) (restingOrders request m.bookId db)
      (fillsOf request m.bookId (spendable settings db request.playerUuid) db) :=
  ⟨restingOrders_complete hm, restingOrders_sorted, rfl⟩

theorem Reference.fair_of_reachable {es : List (Id × OrderRow)}
    (h : Reference db request (budgetOf settings db request) es fills) (hr : Reachable settings db)
    (hq : 0 ≤ request.quantity) : Fair db request (budgetOf settings db request) es fills := by
  have hsolvent := reachable_solvent hr
  refine h.fair (fun e he => ?_) hq fun b hb => ?_
  · exact Eligible.offers ((h.complete e).mp he) (reachable_reconciled hr) (reachable_participants hr)
  · unfold budgetOf at hb
    split_ifs at hb with hs
    obtain rfl := Option.some.inj hb
    refine ⟨?_, hs.1⟩
    unfold spendable
    cases ha : db.accounts.find? request.playerUuid with
    | none => exact settings.initialBalance_nonneg
    | some a => exact hsolvent _ a ha

/-- The trades of a program that runs one transaction on a state in `P`. -/
theorem transaction_trades {α : Type} {body : Tx α} {P : Db → Prop}
    (hP : ∀ db₁, P db₁ → db₁.trades = db.trades)
    (h : ∀ db₁ a db', P db₁ → body db₁ = .ok (a, db') → Traded db db' request fills) :
    Triple P (transaction body) (fun _ db' => Traded db db' request fills)
      (fun _ db' => db'.trades = db.trades ∨ Traded db db' request fills)
      (fun db' => db'.trades = db.trades ∨ Traded db db' request fills) :=
  Triple.atomic (fun _ hs => .inl (hP _ hs)) (fun _ hs => .inl (hP _ hs))
    (fun s a s' hs hb => ⟨h s a s' hs hb, .inr (h s a s' hs hb)⟩) fun _ _ hs _ => .inl (hP _ hs)

/-- What a program's triple says of one run. -/
theorem Matches.of_triple {x : Program Db Error ExecutionResult} {es : List (Id × OrderRow)}
    (href : Reference db request (budgetOf settings db request) es fills)
    (hfair : Fair db request (budgetOf settings db request) es fills)
    (h : Triple (· = db) x (fun _ db' => Traded db db' request fills)
      (fun _ db' => db'.trades = db.trades ∨ Traded db db' request fills)
      (fun db' => db'.trades = db.trades ∨ Traded db db' request fills))
    (hret : Funded settings db request → Room settings db request fills →
      ∃ r, (x [] db).1 = .returned r) : Matches settings db request x es fills := by
  refine ⟨href, hfair, fun faults => ?_, fun faults r hr => ?_, hret⟩
  · have hends := h faults db rfl
    unfold Ends at hends
    cases hr : (x faults db).1 <;> rw [hr] at hends
    · exact .inr hends
    · exact hends
    · exact hends
  · have hends := h faults db rfl
    unfold Ends at hends
    rwa [hr] at hends

theorem ensureAccount_returned {uuid name : String} (hu : uuid ≠ "") :
    ensureAccount settings uuid name [] db = (.returned ⟨⟩, [], Db.ensured db settings uuid name) := by
  rw [ensureAccount, if_neg hu]
  exact transaction_returned (ensureAccountTx_ok.mpr rfl)

/-- Without a fault a valid request is placed against a database with its player's account. -/
theorem placeOrder_buys (hv : ValidRequest settings request) (hside : request.side = .buy) :
    placeOrder settings request [] db = transaction (placeBuy request) []
      (Db.ensured db settings request.playerUuid request.playerName) := by
  rw [placeOrder, validateRequest_ok.mpr hv, hside]
  refine (Program.bind_returned (a := PUnit.unit) rfl).trans ?_
  exact Program.bind_returned (ensureAccount_returned hv.uuid)

private theorem placeOrder_sells (hv : ValidRequest settings request) (hside : request.side = .sell) :
    placeOrder settings request [] db = transaction (placeSell request) []
      (Db.ensured db settings request.playerUuid request.playerName) := by
  rw [placeOrder, validateRequest_ok.mpr hv, hside]
  refine (Program.bind_returned (a := PUnit.unit) rfl).trans ?_
  exact Program.bind_returned (ensureAccount_returned hv.uuid)

/-- The database a valid request on an active market is placed against. -/
theorem ensured_ready (hr : Reachable settings db) (hv : ValidRequest settings request) {m : MarketRow}
    (hm : db.markets.get? request.marketId = some m) (hact : m.active) :
    ∃ a, Ready (Db.ensured db settings request.playerUuid request.playerName) request m a ∧
      a.balanceCents = spendable settings db request.playerUuid ∧
      Participants (Db.ensured db settings request.playerUuid request.playerName) := by
  obtain ⟨-, -, hmk, hbk⟩ := ensured_frame settings db request.playerUuid request.playerName
  obtain ⟨a, ha, hbalance⟩ := ensured_account settings db request.playerUuid request.playerName
  obtain ⟨b, hb, -⟩ := reachable_itemsOfBooks hr _ m hm
  have hsteps : Steps settings (fun _ => True) ⟨db, none⟩
      ⟨Db.ensured db settings request.playerUuid request.playerName, none⟩ :=
    ensureAccountTx_steps (ensureAccountTx_ok.mpr rfl)
  have hsolvent := Steps.induct (I := fun d => Solvent d.db) solvent_step hsteps (reachable_solvent hr)
  exact ⟨a, ⟨⟨hv.quantity_pos, hv.price_pos⟩, hmk ▸ hm, ⟨b, hbk ▸ hb⟩, hact, ha, hsolvent _ a ha⟩, hbalance,
    Steps.induct (I := fun d => Participants d.db) participants_step hsteps (reachable_participants hr)⟩

private theorem placeOrder_matches (hr : Reachable settings db) (hv : ValidRequest settings request)
    {m : MarketRow} (hm : db.markets.get? request.marketId = some m) (hact : m.active) :
    Matches settings db request (placeOrder settings request) (restingOrders request m.bookId db)
      (fillsOf request m.bookId (spendable settings db request.playerUuid) db) := by
  have href := (@reference_of_market settings) hm
  have hok : validateRequest settings request = .ok ⟨⟩ := validateRequest_ok.mpr hv
  obtain ⟨ho, ht, hmk, -⟩ := ensured_frame settings db request.playerUuid request.playerName
  obtain ⟨a, hready, hbalance, hP₁⟩ := ensured_ready hr hv hm hact
  generalize hdb₁ : Db.ensured db settings request.playerUuid request.playerName = db₁ at *
  have hfills : fillsOf request m.bookId a.balanceCents db₁ =
      fillsOf request m.bookId (spendable settings db request.playerUuid) db := by
    rw [hbalance, fillsOf_congr ho hmk]
  have hsteps : Steps settings (fun _ => True) ⟨db, none⟩ ⟨db₁, none⟩ :=
    ensureAccountTx_steps (ensureAccountTx_ok.mpr (by rw [hdb₁]))
  refine .of_triple href (href.fair_of_reachable hr hv.quantity_pos.le) ?_ fun hfunded hroom => ?_
  · simp only [placeOrder, hok]
    refine Triple.bind (R := fun _ s => s = db) (Triple.pure fun _ h => h) fun _ =>
      Triple.bind (R := fun _ s => s = db₁) ?_ fun _ => ?_
    · refine Triple.guard (fun _ s hs => .inl (hs ▸ rfl)) fun _ => Triple.atomic
        (fun s hs => .inl (hs ▸ rfl)) (fun s hs => .inl (hs ▸ rfl)) (fun s u s' hs hb => ?_)
        fun s e hs hb => .inl (hs ▸ rfl)
      obtain ⟨-, rfl⟩ := Prod.mk.inj (ensureAccountTx_ok.mp hb)
      rw [hs, hdb₁]
      exact ⟨rfl, .inl ht⟩
    · have hstart : ∀ s, s = db₁ → s.trades = db.trades := fun s hs => hs ▸ ht
      cases hside : request.side with
      | buy =>
        refine transaction_trades hstart fun s r db' hs hb => ?_
        rw [← hfills]
        exact (placeBuy_traded hside hP₁ hready.market hready.account (hs ▸ hb)).congr ho ht
      | sell =>
        refine transaction_trades hstart fun s r db' hs hb => ?_
        rw [← hfills]
        exact (placeSellLocked_traded hside hready.market _ (hs ▸ hb)).congr ho ht
  · have hopen : Open db₁ request m a := by
      refine ⟨hready.placeable, hready.market, hready.book, hact, hready.account, fun e he => ?_,
        fun e he => hP₁.owners e.1 e.2 he.row, hready.solvent, fun u c hc => ?_⟩
      · exact Eligible.offers ((Eligible.congr ho hmk).mp he) (reachable_reconciled hr)
          (reachable_participants hr)
      · rw [hfills]
        obtain ⟨hspend, hwho⟩ := ensured_balance (hdb₁.symm ▸ hc)
        rw [hspend]
        exact hroom u hwho
    cases hside : request.side with
    | buy =>
      obtain ⟨⟨r, db'⟩, hr⟩ := hopen.placeBuy_returns settings hside hv.value_le fun ht =>
        hbalance ▸ hfunded hside ht
      rw [placeOrder_buys hv hside, hdb₁]
      exact ⟨r, congrArg (·.1) (transaction_returned hr)⟩
    | sell =>
      have hR₁ : Reconciled ⟨db₁, none⟩ := Steps.induct reconciled_step hsteps (reachable_reconciled hr)
      obtain ⟨⟨r, db'⟩, hr⟩ := hopen.placeSellLocked_returns settings hside hR₁
      rw [placeOrder_sells hv hside, hdb₁]
      exact ⟨r, congrArg (·.1) (transaction_returned hr)⟩

private theorem executeSellEscrow_matches (hr : Reachable settings db) {escrowId : Id} {e : SellEscrowRow}
    (he : db.sellEscrows.get? escrowId = some e) (hs : e.status = .tagged) {m : MarketRow}
    (hm : db.markets.get? e.marketId = some m) (hact : m.active) :
    Matches settings db (escrowRequest e) (executeSellEscrow escrowId)
      (restingOrders (escrowRequest e) m.bookId db)
      (fillsOf (escrowRequest e) m.bookId (spendable settings db e.playerUuid) db) := by
  have href := (@reference_of_market settings _ (escrowRequest e)) hm
  have hplaceable := hr.escrowsPlaceable escrowId e he
  have hparticipants := reachable_participants hr
  have hreconciled := reachable_reconciled hr
  obtain ⟨a, ha⟩ := hparticipants.sellers escrowId e he
  have hbalance : spendable settings db e.playerUuid = a.balanceCents := by simp only [spendable, ha]
  refine .of_triple href (href.fair_of_reachable hr hplaceable.1.le) ?_ fun _ hroom => ?_
  · refine transaction_trades (fun _ hs => by rw [hs]) fun s r db' hstart hb => ?_
    rw [hstart] at hb
    obtain ⟨e', he', ⟨hs', -⟩ | ⟨-, db₂, hplace, hdb'⟩⟩ := executeSellEscrowTx_ok hb
    · obtain rfl : e' = e := Option.some.inj (he'.symm.trans he)
      rw [hs] at hs'
      cases hs'
    · obtain rfl : e' = e := Option.some.inj (he'.symm.trans he)
      obtain ⟨htrades, htouched, huntouched⟩ := placeSellLocked_traded rfl hm
        (spendable settings db e'.playerUuid) hplace
      simp only at hdb'
      subst hdb'
      exact ⟨htrades, htouched, huntouched⟩
  · have hopen : Open db (escrowRequest e) m a := by
      refine ⟨hplaceable, hm, ?_, hact, ha, fun o ho => ho.offers hreconciled hparticipants,
        fun o ho => hparticipants.owners o.1 o.2 ho.row, reachable_solvent hr _ a ha, fun u c hc => ?_⟩
      · obtain ⟨b, hb, -⟩ := reachable_itemsOfBooks hr _ m hm
        exact ⟨b, hb⟩
      · have hspend := hroom u (.inr ⟨c, hc⟩)
        have hown : spendable settings db u = c.balanceCents := by simp only [spendable, hc]
        rwa [hown, hbalance] at hspend
    obtain ⟨⟨r, db₂⟩, hplace⟩ := hopen.placeSellLocked_returns settings rfl hreconciled
    have hrun : executeSellEscrowTx escrowId db = .ok (r, Db.setEscrow (Db.deliver db₂ e.playerUuid
        e.marketId (e.taggedQty - e.requestedQty) .escrowExcess) escrowId fun e =>
          { e with status := .ordered, orderId := some r.orderId }) := by
      simp only [executeSellEscrowTx, bind_ok, selectOne_ok, ite_ok, throwIf_ok, addDelivery_ok,
        execute_ok, pure_ok, exists_eq_left', exists_and_left, exists_exists_and_eq_and, and_assoc,
        not_not]
      exact ⟨e, he, .inr ⟨by simp [hs], hs, ⟨r, db₂⟩, hplace, rfl⟩⟩
    exact ⟨r, by rw [executeSellEscrow, transaction_returned hrun]⟩

/-- In every reachable state, an order on an active market makes exactly the trades of
price-time priority, whether it is placed directly or through an escrow. -/
theorem matching_follows_priority (h : Reachable settings db) :
    (∀ request m, ValidRequest settings request → db.markets.get? request.marketId = some m → m.active →
      ∃ es fills, Matches settings db request (placeOrder settings request) es fills) ∧
    ∀ escrowId e m, db.sellEscrows.get? escrowId = some e → e.status = .tagged →
      db.markets.get? e.marketId = some m → m.active →
        ∃ es fills, Matches settings db (escrowRequest e) (executeSellEscrow escrowId) es fills :=
  ⟨fun _ _ hv hm hact => ⟨_, _, placeOrder_matches h hv hm hact⟩,
    fun _ _ _ he hs hm hact => ⟨_, _, executeSellEscrow_matches h he hs hm hact⟩⟩

/-- A market buy against two price levels. -/
theorem matching_follows_priority_levels :
    let db := afterCalls sampleSettings [.activateMarket (diamondMarket "block"),
      .placeOrder (diamondOrder "alice" .sell .limit 600 4),
      .placeOrder (diamondOrder "alice" .sell .limit 500 4)]
    db.orders.nextId = 3 ∧ ∃ es fills, Matches sampleSettings db (diamondOrder "bob" .buy .market 0 6)
      (placeOrder sampleSettings (diamondOrder "bob" .buy .market 0 6)) es fills := by
  intro db
  have hmarket : ∃ m, db.markets.get? 1 = some m ∧ m.active := ⟨_, rfl, rfl⟩
  obtain ⟨m, hm, hact⟩ := hmarket
  refine ⟨rfl, (matching_follows_priority (reachable_afterCalls _ _)).1 _ m ?_ hm hact⟩
  exact ⟨by decide, by decide, by decide, by decide, by decide, by decide, by decide⟩

end Calls
end Placing
end EndstoneExchange.ReferenceMatching
