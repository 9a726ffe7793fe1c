import EndstoneExchange.ClearingSteps
import Mathlib.Tactic.Ring

/-!
# Matching refines clearing steps

While `placeBuy` or `placeSellLocked` matches, the row of its own order stays
as inserted. The desk sees that row with the progress made so far; under this
view each iteration of a loop is one settled trade.
-/
namespace EndstoneExchange.MatchingRefinement
open AutoIncrementTables KeyedTables AtomicTransactions.Transaction ExchangeDomain ExchangeTransactions
  OrderMatching ClearingSteps Relation

/-- The row of an incoming order with the progress of its matching loop. -/
def inFlight (p : Progress) (o : OrderRow) : OrderRow :=
  { o with
    remainingQty := p.remaining
    reservedCents := unitReserve o * p.remaining
    status := orderStatus p.remaining p.filledTotal }

section Statements
variable {db : Db}

private theorem insertTrade_ok {t : TradeRow} {p : PUnit × Db} : insertTrade t db = .ok p ↔
    0 < t.priceCents ∧ 0 < t.quantity ∧ (⟨⟩, Db.addTrade db t) = p := by
  simp only [insertTrade, bind_ok, throwIf_ok, execute_ok, exists_and_left, exists_eq_left', not_le,
    and_assoc]

theorem recordTrade_ok {t : TradeRow} {p : PUnit × Db} : recordTrade t db = .ok p ↔
    0 < t.priceCents ∧ 0 < t.quantity ∧
      (⟨⟩, Db.addTrade (Db.deliver db t.buyerUuid t.marketId t.quantity .tradeBuy) t) = p := by
  simp only [recordTrade, bind_ok, addDelivery_ok, insertTrade_ok, exists_eq_left']

/-- The guards on the buyer's side of a trade. -/
def BuyerCovers (db : Db) (request : OrderRequest) (price : Cents) (fill : ℤ) : Prop :=
  match request.type with
  | .market => Debitable db request.playerUuid (price * fill)
  | .limit => price ≤ request.priceCents ∧ (request.priceCents - price) * fill ≤ maxCents ∧
      Creditable db request.playerUuid ((request.priceCents - price) * fill)

theorem payForAsk_ok {request : OrderRequest} {orderId : Id} {price : Cents} {fill available : ℤ}
    {r : Cents × Db} (hp : 0 ≤ price) (hf : 0 ≤ fill) (hm : price * fill ≤ maxCents) :
    payForAsk request orderId price fill available db = .ok r ↔
      BuyerCovers db request price fill ∧
        (available + buyerDelta (newOrder request 0) price fill,
          Db.post db request.playerUuid (buyerDelta (newOrder request 0) price fill)
            (buyerReason (newOrder request 0)) (some (.order orderId))) = r := by
  cases ht : request.type with
  | market =>
    simp only [payForAsk, BuyerCovers, ht, bind_ok, liftM_ok, checkedProduct_ok, debit_ok, pure_ok, and_assoc,
      exists_and_left, exists_eq_left', hp, hf, hm, true_and, buyerDelta, buyerReason, newOrder,
      reduceCtorEq, if_false, Int.sub_eq_add_neg]
  | limit =>
    simp only [payForAsk, BuyerCovers, ht, bind_ok, liftM_ok, checkedProduct_ok, credit_ok, ite_ok,
      pure_ok, and_assoc, exists_and_left, exists_eq_left', hf, true_and, buyerDelta, buyerReason,
      newOrder, if_true, sub_nonneg]
    refine and_congr_right fun hle => and_congr_right fun _ => ?_
    have h0 : 0 ≤ (request.priceCents - price) * fill := mul_nonneg (sub_nonneg.mpr hle) hf
    rcases h0.eq_or_lt with h | h
    · simp [← h, Creditable]
    · simp [h]

/-- The progress of `placeBuy` after it took `fill` units of an ask. -/
def afterAsk (request : OrderRequest) (ask : OrderRow) (fill : ℤ) (p : Progress) : Progress :=
  { remaining := p.remaining - fill, filledTotal := p.filledTotal + fill,
    gross := p.gross + ask.priceCents * fill,
    availableBalance := p.availableBalance + buyerDelta (newOrder request 0) ask.priceCents fill }

def afterBid (bid : OrderRow) (fill : ℤ) (p : Progress) : Progress :=
  { p with
    remaining := p.remaining - fill
    filledTotal := p.filledTotal + fill
    gross := p.gross + bid.priceCents * fill }

/-- The database once the buyer's side of a trade with an ask is settled. -/
def Db.buyerPaid (db : Db) (request : OrderRequest) (orderId : Id) (price : Cents) (fill : ℤ) : Db :=
  Db.post db request.playerUuid (buyerDelta (newOrder request 0) price fill)
    (buyerReason (newOrder request 0)) (some (.order orderId))

def Db.askTaken (db : Db) (request : OrderRequest) (orderId askId : Id) (ask : OrderRow) (fill : ℤ) : Db :=
  let db := Db.setOrder (Db.buyerPaid db request orderId ask.priceCents fill) askId
    (restingAfter (ask.remainingQty - fill))
  let db := Db.post db ask.playerUuid (ask.priceCents * fill) .tradeProceeds (some (.order askId))
  Db.addTrade (Db.deliver db request.playerUuid request.marketId fill .tradeBuy)
    (askTrade request orderId askId ask fill)

def Db.bidTaken (db : Db) (request : OrderRequest) (orderId bidId : Id) (bid : OrderRow) (fill : ℤ) : Db :=
  let db := Db.setOrder db bidId
    (restingBidAfter (bid.remainingQty - fill) (bid.reservedCents - bid.priceCents * fill))
  let db := Db.post db request.playerUuid (bid.priceCents * fill) .tradeProceeds (some (.order orderId))
  Db.addTrade (Db.deliver db bid.playerUuid request.marketId fill .tradeBuy)
    (bidTrade request orderId bidId bid fill)

theorem takeAsk_ok {request : OrderRequest} {orderId askId : Id} {ask : OrderRow} {fill : ℤ}
    {p : Progress} {r : Progress × Db} : takeAsk request orderId askId ask fill p db = .ok r ↔
      0 < ask.priceCents ∧ 0 < fill ∧ ask.priceCents * fill ≤ maxCents ∧
      BuyerCovers db request ask.priceCents fill ∧
      Creditable (Db.buyerPaid db request orderId ask.priceCents fill) ask.playerUuid
        (ask.priceCents * fill) ∧
      (afterAsk request ask fill p, Db.askTaken db request orderId askId ask fill) = r := by
  simp only [takeAsk, bind_ok, updateOrder, execute_ok, liftM_ok, checkedProduct_ok, credit_ok,
    recordTrade_ok, pure_ok, and_assoc, exists_and_left, exists_eq_left']
  constructor
  · rintro ⟨q, hq, hp, hf, hm, hc, hp', hf', hr⟩
    obtain ⟨hb, rfl⟩ := (payForAsk_ok hp hf hm).mp hq
    exact ⟨hp', hf', hm, hb, hc, hr⟩
  · rintro ⟨hp, hf, hm, hb, hc, hr⟩
    exact ⟨_, (payForAsk_ok hp.le hf.le hm).mpr ⟨hb, rfl⟩, hp.le, hf.le, hm, hc, hp, hf, hr⟩

theorem takeBid_ok {request : OrderRequest} {orderId bidId : Id} {bid : OrderRow} {p : Progress}
    {r : Progress × Db} : takeBid request orderId bidId bid p db = .ok r ↔
      let fill := min p.remaining bid.remainingQty
      0 < bid.priceCents ∧ 0 < fill ∧ bid.priceCents * fill ≤ maxCents ∧
      bid.priceCents * fill ≤ bid.reservedCents ∧
      Creditable db request.playerUuid (bid.priceCents * fill) ∧
      (afterBid bid fill p, Db.bidTaken db request orderId bidId bid fill) = r := by
  simp only [takeBid, bind_ok, updateOrder, execute_ok, liftM_ok, checkedProduct_ok, throwIf_ok,
    credit_ok, recordTrade_ok, pure_ok, and_assoc, exists_and_left, exists_eq_left', not_lt, sub_nonneg]
  constructor
  · rintro ⟨-, -, -, hres, -, -, hm, hc, hp, hf, hr⟩
    exact ⟨hp, hf, hm, hres, hc, hr⟩
  · rintro ⟨hp, hf, hm, hres, hc, hr⟩
    exact ⟨hp.le, hf.le, hm, hres, hp.le, hf.le, hm, hc, hp, hf, hr⟩

end Statements
section Views

/-- The database as the desk sees it during a matching session. -/
def Db.view (db : Db) (orderId : Id) (p : Progress) : Db := Db.setOrder db orderId (inFlight p)

variable {t : Table OrderRow} {orderId restId : Id} {own rest : OrderRow} {p p' : Progress}

theorem traded_inFlight {q : ℤ} {o : OrderRow} (hq : 0 < q) (hf : 0 ≤ p.filledTotal)
    (hr : p'.remaining = p.remaining - q) (ht : p'.filledTotal = p.filledTotal + q) :
    traded q (inFlight p o) = inFlight p' o := by
  have hpos : 0 < p.filledTotal + q := by omega
  have hu : unitReserve (inFlight p o) = unitReserve o := rfl
  unfold traded
  rw [hu]
  simp only [inFlight, hr, ht, orderStatus, gt_iff_lt, hpos, if_true, mul_sub]

/-- A trade with a resting order, seen through the view of the session. -/
theorem orders_traded {q : ℤ} {f : OrderRow → OrderRow} (hne : restId ≠ orderId)
    (hown : t.get? orderId = some own) (hrest : t.get? restId = some rest)
    (hf : f rest = traded q rest) (hp : traded q (inFlight p own) = inFlight p' own) :
    (t.update restId f).update orderId (inFlight p') =
      ((t.update orderId (inFlight p)).update orderId (traded q)).update restId (traded q) := by
  have hrest' : t.update restId f = t.update restId (traded q) :=
    Table.update_congr fun a ha => by
      obtain rfl : a = rest := Option.some.inj (ha.symm.trans hrest)
      exact hf
  rw [Table.update_update, Table.update_comm _ _ _ hne.symm, hrest']
  refine Table.update_congr fun a ha => ?_
  rw [Table.get?_update_ne _ _ hne.symm] at ha
  obtain rfl : a = own := Option.some.inj (ha.symm.trans hown)
  exact hp.symm

end Views

private theorem restingAfter_ask {ask : OrderRow} {q : ℤ} (h : ask.side = .sell) :
    restingAfter (ask.remainingQty - q) ask = traded q ask := by
  simp [restingAfter, traded, unitReserve, h]

private theorem restingAfter_bid {bid : OrderRow} {q : ℤ} (h : bid.side = .buy) (hl : bid.orderType = .limit) :
    restingBidAfter (bid.remainingQty - q) (bid.reservedCents - bid.priceCents * q) bid =
      traded q bid := by
  simp [restingBidAfter, restingAfter, traded, unitReserve, h, hl]

theorem Creditable.canPost {db : Db} {playerUuid : String} {amount : Cents}
    (h : Creditable db playerUuid amount) : CanPost db playerUuid amount := fun h0 =>
  (h.2 h0).imp fun _ ha => ⟨ha.1, .inl h.1⟩

theorem Debitable.canPost {db : Db} {playerUuid : String} {amount : Cents}
    (h : Debitable db playerUuid amount) : CanPost db playerUuid (-amount) := fun h0 =>
  (h.2 (neg_ne_zero.mp h0)).imp fun _ ha => ⟨ha.1, .inr (by linarith [ha.2])⟩

theorem BuyerCovers.canPost {db : Db} {request : OrderRequest} {price : Cents} {fill : ℤ}
    (h : BuyerCovers db request price fill) :
    CanPost db request.playerUuid (buyerDelta (newOrder request 0) price fill) := by
  cases ht : request.type with
  | market =>
    simp only [BuyerCovers, ht] at h
    simpa [buyerDelta, newOrder, ht] using Debitable.canPost h
  | limit =>
    simp only [BuyerCovers, ht] at h
    simpa [buyerDelta, newOrder, ht] using Creditable.canPost h.2.2

/-- What a matching loop knows of the orders it has yet to visit. -/
structure Waiting (db : Db) (request : OrderRequest) (side : Side) (within : OrderRow → Prop)
    (orderId : Id) (es : List (Id × OrderRow)) : Prop where
  keys : (es.map Prod.fst).Nodup
  row : ∀ e ∈ es, db.orders.get? e.1 = some e.2 ∧ e.1 ≠ orderId
  side : ∀ e ∈ es, e.2.side = side ∧ e.2.Resting
  stranger : ∀ e ∈ es, e.2.playerUuid ≠ request.playerUuid
  price : ∀ e ∈ es, within e.2
  book : ∀ e ∈ es, SameBook db request.marketId e.2.marketId

/-- The session's own order is still the row it inserted. -/
structure Session (db : Db) (request : OrderRequest) (reserved : Cents) (orderId : Id) (p : Progress) :
    Prop where
  own : db.orders.get? orderId = some (newOrder request reserved)
  filled : 0 ≤ p.filledTotal
  remaining : 0 ≤ p.remaining
  total : p.remaining + p.filledTotal = request.quantity

variable {db db' : Db} {request : OrderRequest} {reserved : Cents} {orderId : Id} {p p' : Progress}
  {settings : Settings} {allow : Special → Prop} {side : Side} {within : OrderRow → Prop}

theorem Waiting.next {e : Id × OrderRow} {es : List (Id × OrderRow)} {f : OrderRow → OrderRow}
    (h : Waiting db request side within orderId (e :: es)) (hm : db'.markets = db.markets)
    (ho : db'.orders = db.orders.update e.1 f) : Waiting db' request side within orderId es := by
  have hkeys := h.keys
  simp only [List.map_cons, List.nodup_cons] at hkeys
  have htail : ∀ d ∈ es, d ∈ e :: es := fun d hd => List.mem_cons_of_mem e hd
  refine ⟨hkeys.2, fun d hd => ?_, fun d hd => h.side d (htail d hd),
    fun d hd => h.stranger d (htail d hd), fun d hd => h.price d (htail d hd), fun d hd => ?_⟩
  · have hne : d.1 ≠ e.1 := fun he => hkeys.1 (he ▸ List.mem_map_of_mem hd)
    rw [ho, Table.get?_update_ne _ _ hne]
    exact h.row d (htail d hd)
  · have hb := h.book d (htail d hd)
    unfold SameBook Db.bookOf at hb ⊢
    rwa [hm]

theorem Waiting.single {e : Id × OrderRow} {es : List (Id × OrderRow)}
    (h : Waiting db request side within orderId es) (he : e ∈ es) :
    Waiting db request side within orderId [e] := by
  have hmem : ∀ d ∈ [e], d ∈ es := fun d hd => List.mem_singleton.mp hd ▸ he
  exact ⟨by simp, fun d hd => h.row d (hmem d hd), fun d hd => h.side d (hmem d hd),
    fun d hd => h.stranger d (hmem d hd), fun d hd => h.price d (hmem d hd),
    fun d hd => h.book d (hmem d hd)⟩

/-- A matching loop only touched the orders it was given, and it filled all of them
unless nothing more was wanted. -/
structure Exhausted (db db' : Db) (es : List (Id × OrderRow)) (p' : Progress) : Prop where
  markets : db'.markets = db.markets
  others : ∀ i, i ∉ es.map Prod.fst → db'.orders.get? i = db.orders.get? i
  filled : p'.remaining = 0 ∨
    ∀ e ∈ es, ∃ o, db'.orders.get? e.1 = some o ∧ o.status = .filled

theorem Exhausted.refl {es : List (Id × OrderRow)} (h : p'.remaining = 0 ∨
    ∀ e ∈ es, ∃ o, db.orders.get? e.1 = some o ∧ o.status = .filled) : Exhausted db db es p' :=
  ⟨rfl, fun _ _ => rfl, h⟩

theorem Exhausted.cons {e : Id × OrderRow} {es : List (Id × OrderRow)} {db₁ : Db}
    {f : OrderRow → OrderRow} (h : Exhausted db₁ db' es p') (hkey : e.1 ∉ es.map Prod.fst)
    (hm : db₁.markets = db.markets) (ho : db₁.orders = db.orders.update e.1 f)
    (hrow : db.orders.get? e.1 = some e.2) (hf : (f e.2).status = .filled ∨ p'.remaining = 0) :
    Exhausted db db' (e :: es) p' := by
  refine ⟨h.markets.trans hm, fun i hi => ?_, ?_⟩
  · rw [List.map_cons, List.mem_cons, not_or] at hi
    rw [h.others i hi.2, ho, Table.get?_update_ne _ _ hi.1]
  · rcases hf with hf | h0
    · refine h.filled.imp_right fun hall d hd => ?_
      rcases List.mem_cons.mp hd with rfl | hd
      · refine ⟨f d.2, ?_, hf⟩
        rw [h.others _ hkey, ho, Table.get?_update_self, hrow, Option.map_some]
      · exact hall d hd
    · exact .inl h0

/-- What is left of the book that the session's order could trade with. -/
theorem Exhausted.unmatched {es : List (Id × OrderRow)} {own : OrderRow} (h : Exhausted db db' es p')
    (hrem : 0 < p'.remaining) (hown : db'.orders.get? orderId = some own)
    (hes : ∀ i r, db.orders.get? i = some r → r.Resting → r.playerUuid ≠ own.playerUuid →
      SameBook db own.marketId r.marketId → Crosses own r → (i, r) ∈ es) :
    Unmatched (Db.view db' orderId p') (inFlight p' own) := by
  intro i r hr hrest hne hbook hcross
  rcases Table.get?_update_cases hr with ⟨-, r', hr', rfl⟩ | ⟨-, hr⟩
  · obtain rfl : r' = own := Option.some.inj (hr'.symm.trans hown)
    exact hne rfl
  · have hbook' : SameBook db own.marketId r.marketId := by
      unfold SameBook Db.bookOf at hbook ⊢
      rw [← h.markets]
      exact hbook
    by_cases hi : i ∈ es.map Prod.fst
    · obtain ⟨e, he, rfl⟩ := List.mem_map.mp hi
      obtain ⟨o, ho, hfilled⟩ := (h.filled.resolve_left hrem.ne') e he
      obtain rfl : o = r := Option.some.inj (ho.symm.trans hr)
      exact OrderStatus.not_live_filled (hfilled ▸ hrest.2)
    · rw [h.others i hi] at hr
      exact hi (List.mem_map_of_mem (hes i r hr hrest hne hbook' hcross))

private theorem matchAsks_done {es : List (Id × OrderRow)} (h0 : p.remaining = 0)
    (h : matchAsks request orderId es p db = .ok (p', db')) : p'.remaining = 0 := by
  cases es with
  | nil =>
    obtain ⟨rfl, -⟩ := Prod.mk.inj (pure_ok.mp h)
    exact h0
  | cons e es =>
    simp only [matchAsks, h0, if_true, pure_ok, Prod.mk.injEq] at h
    exact h.1 ▸ h0

private theorem matchBids_done {es : List (Id × OrderRow)} (h0 : p.remaining = 0)
    (h : matchBids request orderId es p db = .ok (p', db')) : p'.remaining = 0 := by
  cases es with
  | nil =>
    obtain ⟨rfl, -⟩ := Prod.mk.inj (pure_ok.mp h)
    exact h0
  | cons e es =>
    simp only [matchBids, h0, if_true, pure_ok, Prod.mk.injEq] at h
    exact h.1 ▸ h0

section Buying

theorem askFill_le (request : OrderRequest) (ask : OrderRow) (p : Progress) :
    askFill request ask p ≤ p.remaining ∧ askFill request ask p ≤ ask.remainingQty := by
  unfold askFill
  cases request.type
  · exact ⟨min_le_left _ _, min_le_right _ _⟩
  · exact ⟨(min_le_left _ _).trans (min_le_left _ _), (min_le_left _ _).trans (min_le_right _ _)⟩

private theorem takeAsk_step {askId : Id} {ask : OrderRow} {fill : ℤ}
    (h : takeAsk request orderId askId ask fill p db = .ok (p', db'))
    (hs : Session db request reserved orderId p) (hside : request.side = .buy)
    (hw : Waiting db request .sell
      (fun o => request.type = .limit → o.priceCents ≤ request.priceCents) orderId [(askId, ask)])
    (hfill : fill ≤ p.remaining ∧ fill ≤ ask.remainingQty) :
    Step settings allow ⟨Db.view db orderId p, some orderId⟩ ⟨Db.view db' orderId p', some orderId⟩ ∧
      Session db' request reserved orderId p' ∧ db'.markets = db.markets ∧
      db'.orders = db.orders.update askId (restingAfter (ask.remainingQty - fill)) := by
  obtain ⟨hp, hf, hm, hb, hc, hr⟩ := takeAsk_ok.mp h
  obtain ⟨rfl, rfl⟩ := Prod.mk.inj hr
  obtain ⟨hrow, hne⟩ := hw.row _ (List.mem_singleton_self _)
  obtain ⟨hsell, hrest⟩ := hw.side _ (List.mem_singleton_self _)
  have hview : Db.view (Db.askTaken db request orderId askId ask fill) orderId (afterAsk request ask fill p) =
      Db.settleTrade (Db.view db orderId p) (askTrade request orderId askId ask fill)
        (inFlight p (newOrder request reserved)) := by
    have ho := orders_traded hne hs.own hrow (restingAfter_ask hsell)
      ((@traded_inFlight _ (afterAsk request ask fill p)) hf hs.filled rfl rfl)
    simp only [Db.view, Db.askTaken, Db.buyerPaid, Db.settleTrade, Db.post, Db.setOrder, Db.deliver,
      Db.addTrade, askTrade]
    rw [ho]
    rfl
  refine ⟨?_, ?_, rfl, rfl⟩
  · rw [hview]
    refine @Step.settleTrade _ _ _ _ _ _ ask
      ⟨⟨?_, .inl rfl, hfill.1⟩, ⟨?_, .inr hrest, hfill.2⟩, ⟨hside, hsell⟩, ⟨rfl, rfl⟩,
      (hw.stranger _ (List.mem_singleton_self _)).symm, hf, hp,
      ⟨fun hl => ?_, fun _ => le_rfl⟩, .inl rfl, hw.book _ (List.mem_singleton_self _), hb.canPost,
      fun h0 => ?_⟩
    · simp [Db.view, askTrade, hs.own]
    · simp [Db.view, askTrade, Table.get?_update_ne _ _ hne, hrow]
    · have hl' : request.type = .limit := hl
      simpa [inFlight, newOrder, hl', askTrade] using hw.price _ (List.mem_singleton_self _) hl'
    · obtain ⟨a, ha, -⟩ := hc.2 h0
      obtain ⟨a, ha⟩ := (exists_account_post db _ _ _ _).mp ⟨a, ha⟩
      exact ⟨a, ha, .inl hc.1⟩
  · refine ⟨?_, add_nonneg hs.filled hf.le, sub_nonneg.mpr hfill.1, ?_⟩
    · simp [Db.askTaken, Db.buyerPaid, Table.get?_update_ne _ _ hne.symm, hs.own]
    · simpa [afterAsk] using hs.total

theorem matchAsks_steps {es : List (Id × OrderRow)}
    (h : matchAsks request orderId es p db = .ok (p', db'))
    (hs : Session db request reserved orderId p) (hside : request.side = .buy)
    (hw : Waiting db request .sell
      (fun o => request.type = .limit → o.priceCents ≤ request.priceCents) orderId es) :
    Steps settings allow ⟨Db.view db orderId p, some orderId⟩ ⟨Db.view db' orderId p', some orderId⟩ ∧
      Session db' request reserved orderId p' := by
  induction es generalizing p db with
  | nil =>
    obtain ⟨rfl, rfl⟩ := Prod.mk.inj (pure_ok.mp h)
    exact ⟨.refl, hs⟩
  | cons e es ih =>
    obtain ⟨askId, ask⟩ := e
    simp only [matchAsks, ite_ok, bind_ok, pure_ok, Prod.mk.injEq] at h
    rcases h with ⟨-, rfl, rfl⟩ | ⟨hrem, ⟨-, rfl, rfl⟩ | ⟨hfill, ⟨q, db₁⟩, htake, hrest⟩⟩
    · exact ⟨.refl, hs⟩
    · exact ⟨.refl, hs⟩
    · obtain ⟨hstep, hs₁, hm, ho⟩ := takeAsk_step htake hs hside (hw.single (List.mem_cons_self ..))
        (askFill_le request ask p)
      obtain ⟨hsteps, hs'⟩ := ih hrest hs₁ (hw.next hm ho)
      exact ⟨hsteps.head hstep, hs'⟩

/-- A limit purchase either gets everything or leaves no ask it visited. -/
theorem matchAsks_exhausts {es : List (Id × OrderRow)} (ht : request.type = .limit)
    (hkeys : (es.map Prod.fst).Nodup) (hrow : ∀ e ∈ es, db.orders.get? e.1 = some e.2)
    (h : matchAsks request orderId es p db = .ok (p', db')) : Exhausted db db' es p' := by
  induction es generalizing p db with
  | nil =>
    obtain ⟨rfl, rfl⟩ := Prod.mk.inj (pure_ok.mp h)
    exact .refl (.inr fun e he => nomatch he)
  | cons e es ih =>
    obtain ⟨askId, ask⟩ := e
    simp only [matchAsks, ite_ok, bind_ok, pure_ok, Prod.mk.injEq] at h
    rcases h with ⟨h0, rfl, rfl⟩ | ⟨hrem, ⟨hm, -⟩ | ⟨-, ⟨q, db₁⟩, htake, hrest⟩⟩
    · exact .refl (.inl h0)
    · exact absurd (ht.symm.trans hm.1) (by decide)
    · obtain ⟨-, -, -, -, -, hr⟩ := takeAsk_ok.mp htake
      obtain ⟨rfl, rfl⟩ := Prod.mk.inj hr
      obtain ⟨hkey, hkeys'⟩ := List.nodup_cons.mp (hkeys : (askId :: es.map Prod.fst).Nodup)
      refine Exhausted.cons (ih hkeys' (fun a ha => ?_) hrest) hkey rfl rfl
        (hrow (askId, ask) (List.mem_cons_self ..)) ?_
      · have hne : a.1 ≠ askId := fun heq => hkey (List.mem_map.mpr ⟨a, ha, heq⟩)
        exact (Table.get?_update_ne _ _ hne).trans (hrow a (List.mem_cons_of_mem _ ha))
      · have hfill : askFill request ask p = min p.remaining ask.remainingQty := by simp only [askFill, ht]
        by_cases hall : ask.remainingQty ≤ p.remaining
        · exact .inl (if_pos (by rw [hfill, min_eq_right hall, sub_self]))
        · refine .inr ?_
          have hdone : p.remaining - askFill request ask p = 0 := by
            rw [hfill, min_eq_left (not_le.mp hall).le, sub_self]
          exact matchAsks_done hdone hrest

end Buying

section Selling

private theorem takeBid_step {bidId : Id} {bid : OrderRow}
    (h : takeBid request orderId bidId bid p db = .ok (p', db'))
    (hs : Session db request reserved orderId p) (hside : request.side = .sell)
    (hw : Waiting db request .buy
      (fun o => request.type = .limit → o.priceCents ≥ request.priceCents) orderId [(bidId, bid)]) :
    Step settings allow ⟨Db.view db orderId p, some orderId⟩ ⟨Db.view db' orderId p', some orderId⟩ ∧
      Session db' request reserved orderId p' ∧ db'.markets = db.markets ∧
      ∃ f, db'.orders = db.orders.update bidId f := by
  obtain ⟨hp, hf, hm, hres, hc, hr⟩ := takeBid_ok.mp h
  generalize hfill : min p.remaining bid.remainingQty = fill at hf hm hres hc hr
  have hle : fill ≤ p.remaining ∧ fill ≤ bid.remainingQty := by omega
  obtain ⟨rfl, rfl⟩ := Prod.mk.inj hr
  obtain ⟨hrow, hne⟩ := hw.row _ (List.mem_singleton_self _)
  obtain ⟨hbuy, hrest⟩ := hw.side _ (List.mem_singleton_self _)
  have hdelta : buyerDelta bid bid.priceCents fill = 0 := by
    have hl : bid.orderType = .limit := hrest.1
    simp [buyerDelta, hl]
  have hview : Db.view (Db.bidTaken db request orderId bidId bid fill) orderId (afterBid bid fill p) =
      Db.settleTrade (Db.view db orderId p) (bidTrade request orderId bidId bid fill) bid := by
    have ho := (orders_traded hne hs.own hrow (restingAfter_bid hbuy hrest.1)
      ((@traded_inFlight _ (afterBid bid fill p)) hf hs.filled rfl rfl)).trans
        (Table.update_comm _ _ _ hne.symm)
    simp only [Db.view, Db.bidTaken, Db.settleTrade, Db.post, Db.setOrder, Db.deliver, Db.addTrade,
      bidTrade, hdelta, if_true]
    rw [ho]
  refine ⟨?_, ?_, rfl, _, rfl⟩
  · rw [hview]
    refine @Step.settleTrade _ _ _ _ _ _ (inFlight p (newOrder request reserved))
      ⟨⟨?_, .inr hrest, hle.2⟩, ⟨?_, .inl rfl, hle.1⟩, ⟨hbuy, hside⟩,
      ⟨rfl, rfl⟩, hw.stranger _ (List.mem_singleton_self _), hf, hp, ⟨fun _ => le_rfl, fun hl => ?_⟩,
      .inr rfl, ?_, fun h0 => ?_, fun h0 => ?_⟩
    · simp [Db.view, bidTrade, Table.get?_update_ne _ _ hne, hrow]
    · simp [Db.view, bidTrade, hs.own]
    · have hl' : request.type = .limit := hl
      simpa [inFlight, newOrder, hl', bidTrade] using hw.price _ (List.mem_singleton_self _) hl'
    · obtain ⟨b, hb, hb'⟩ := hw.book _ (List.mem_singleton_self _)
      exact ⟨b, hb', hb⟩
    · exact absurd hdelta h0
    · exact Creditable.canPost hc h0
  · refine ⟨?_, add_nonneg hs.filled hf.le, sub_nonneg.mpr hle.1, ?_⟩
    · simp [Db.bidTaken, Table.get?_update_ne _ _ hne.symm, hs.own]
    · simpa [afterBid] using hs.total

theorem matchBids_steps {es : List (Id × OrderRow)}
    (h : matchBids request orderId es p db = .ok (p', db'))
    (hs : Session db request reserved orderId p) (hside : request.side = .sell)
    (hw : Waiting db request .buy
      (fun o => request.type = .limit → o.priceCents ≥ request.priceCents) orderId es) :
    Steps settings allow ⟨Db.view db orderId p, some orderId⟩ ⟨Db.view db' orderId p', some orderId⟩ ∧
      Session db' request reserved orderId p' := by
  induction es generalizing p db with
  | nil =>
    obtain ⟨rfl, rfl⟩ := Prod.mk.inj (pure_ok.mp h)
    exact ⟨.refl, hs⟩
  | cons e es ih =>
    obtain ⟨bidId, bid⟩ := e
    simp only [matchBids, ite_ok, bind_ok, pure_ok, Prod.mk.injEq] at h
    rcases h with ⟨-, rfl, rfl⟩ | ⟨hrem, ⟨q, db₁⟩, htake, hrest⟩
    · exact ⟨.refl, hs⟩
    · obtain ⟨hstep, hs₁, hm, f, ho⟩ := takeBid_step htake hs hside (hw.single (List.mem_cons_self ..))
      obtain ⟨hsteps, hs'⟩ := ih hrest hs₁ (hw.next hm ho)
      exact ⟨hsteps.head hstep, hs'⟩

/-- A sale either sells everything or leaves no bid it visited. -/
theorem matchBids_exhausts {es : List (Id × OrderRow)} (hkeys : (es.map Prod.fst).Nodup)
    (hrow : ∀ e ∈ es, db.orders.get? e.1 = some e.2)
    (h : matchBids request orderId es p db = .ok (p', db')) : Exhausted db db' es p' := by
  induction es generalizing p db with
  | nil =>
    obtain ⟨rfl, rfl⟩ := Prod.mk.inj (pure_ok.mp h)
    exact .refl (.inr fun e he => nomatch he)
  | cons e es ih =>
    obtain ⟨bidId, bid⟩ := e
    simp only [matchBids, ite_ok, bind_ok, pure_ok, Prod.mk.injEq] at h
    rcases h with ⟨h0, rfl, rfl⟩ | ⟨hrem, ⟨q, db₁⟩, htake, hrest⟩
    · exact .refl (.inl h0)
    · obtain ⟨-, -, -, -, -, hr⟩ := takeBid_ok.mp htake
      obtain ⟨rfl, rfl⟩ := Prod.mk.inj hr
      obtain ⟨hkey, hkeys'⟩ := List.nodup_cons.mp (hkeys : (bidId :: es.map Prod.fst).Nodup)
      refine Exhausted.cons (ih hkeys' (fun a ha => ?_) hrest) hkey rfl rfl
        (hrow (bidId, bid) (List.mem_cons_self ..)) ?_
      · have hne : a.1 ≠ bidId := fun heq => hkey (List.mem_map.mpr ⟨a, ha, heq⟩)
        exact (Table.get?_update_ne _ _ hne).trans (hrow a (List.mem_cons_of_mem _ ha))
      · by_cases hall : bid.remainingQty ≤ p.remaining
        · exact .inl (if_pos (by rw [min_eq_right hall, sub_self]))
        · refine .inr (matchBids_done (p := afterBid bid _ p) ?_ hrest)
          rw [afterBid, min_eq_left (not_le.mp hall).le, sub_self]

private theorem matchBids_sellEscrows {es : List (Id × OrderRow)}
    (h : matchBids request orderId es p db = .ok (p', db')) : db'.sellEscrows = db.sellEscrows := by
  induction es generalizing p db with
  | nil =>
    obtain ⟨-, rfl⟩ := Prod.mk.inj (pure_ok.mp h)
    rfl
  | cons e es ih =>
    simp only [matchBids, ite_ok, bind_ok, pure_ok, Prod.mk.injEq] at h
    rcases h with ⟨-, -, rfl⟩ | ⟨-, ⟨q, db₁⟩, htake, hrest⟩
    · rfl
    · obtain ⟨-, -, -, -, -, hr⟩ := takeBid_ok.mp htake
      obtain ⟨-, rfl⟩ := Prod.mk.inj hr
      exact (ih hrest).trans rfl

end Selling

section Queries

/-- The rows the query returns are the ones a matching loop may visit. -/
theorem waiting_of_query {bookId : Id} {m : MarketRow} {es : List (Id × OrderRow)} {o : OrderRow}
    {p : Id × OrderRow → Prop} [DecidablePred p]
    (hm : db.markets.get? request.marketId = some m) (hb : m.bookId = bookId)
    (hp : ∀ e, p e → within e.2)
    (he : es.Perm ((counterparties side bookId request.playerUuid (Db.addOrder db o)).filter p))
    (hown : o.playerUuid = request.playerUuid) (hd : db'.orders = (Db.addOrder db o).orders)
    (hdm : db'.markets = db.markets) :
    Waiting db' request side within db.orders.nextId es := by
  have hmem : ∀ e ∈ es, (Db.addOrder db o).orders.get? e.1 = some e.2 ∧
      Db.bookOf db e.2.marketId = some bookId ∧ e.2.side = side ∧ e.2.Resting ∧
      e.2.playerUuid ≠ request.playerUuid ∧ p e := by
    intro e hmem
    have h := he.mem_iff.mp hmem
    simp only [counterparties, List.mem_filter, decide_eq_true_eq] at h
    obtain ⟨⟨hrow, hbook, hside, hrest, hne⟩, hpe⟩ := h
    exact ⟨Table.mem_entries.mp hrow, hbook, hside, hrest, hne, hpe⟩
  refine ⟨?_, fun e h => ⟨?_, ?_⟩, fun e h => ⟨(hmem e h).2.2.1, (hmem e h).2.2.2.1⟩,
    fun e h => (hmem e h).2.2.2.2.1, fun e h => hp e (hmem e h).2.2.2.2.2, fun e h => ?_⟩
  · refine (he.map Prod.fst).nodup_iff.mpr (List.Nodup.sublist ((List.filter_sublist.trans
      List.filter_sublist).map _) ?_)
    exact (List.pairwise_map.mpr (Table.entries_sorted _)).imp fun hlt => hlt.ne
  · rw [hd]
    exact (hmem e h).1
  · rintro heq
    have hget := (hmem e h).1
    rw [heq, Db.addOrder_orders, Table.get?_insert_self] at hget
    exact (hmem e h).2.2.2.2.1 (Option.some.inj hget ▸ hown)
  · refine ⟨bookId, ?_, ?_⟩
    · simp [Db.bookOf, hdm, hm, hb]
    · simpa [Db.bookOf, hdm] using (hmem e h).2.1

theorem mem_counterparties {side : Side} {m : MarketRow} {e : Id × OrderRow}
    (hm : db.markets.get? request.marketId = some m) :
    e ∈ counterparties side m.bookId request.playerUuid db ↔ db.orders.get? e.1 = some e.2 ∧
      e.2.side = side ∧ e.2.Resting ∧ SameBook db request.marketId e.2.marketId ∧
      e.2.playerUuid ≠ request.playerUuid := by
  have hbook : SameBook db request.marketId e.2.marketId ↔ Db.bookOf db e.2.marketId = some m.bookId := by
    have hown : Db.bookOf db request.marketId = some m.bookId := by simp [Db.bookOf, hm]
    constructor
    · rintro ⟨b, hb, he⟩
      rw [he, ← hb, hown]
    · exact fun he => ⟨m.bookId, hown, he⟩
  simp only [counterparties, List.mem_filter, decide_eq_true_eq, hbook]
  rw [← Table.mem_entries (t := db.orders)]
  tauto

private theorem matchingAsks_complete {m : MarketRow} {i : Id} {o r : OrderRow} (hside : request.side = .buy)
    (hm : db.markets.get? request.marketId = some m) (hr : db.orders.get? i = some r) (hrest : r.Resting)
    (hne : r.playerUuid ≠ request.playerUuid) (hbook : SameBook db request.marketId r.marketId)
    (ho : o.side = request.side ∧ (request.type = .limit → o.priceCents = request.priceCents))
    (hx : Crosses o r) : (i, r) ∈ matchingAsks request m.bookId db := by
  obtain ⟨-, hsell, hle⟩ | ⟨hs, -⟩ := hx
  · rw [matchingAsks, List.mem_insertionSort, List.mem_filter]
    exact ⟨(mem_counterparties hm).mpr ⟨hr, hsell, hrest, hbook, hne⟩, decide_eq_true fun ht => ho.2 ht ▸ hle⟩
  · rw [ho.1, hside] at hs
    cases hs

private theorem matchingBids_complete {m : MarketRow} {i : Id} {o r : OrderRow} (hside : request.side = .sell)
    (hm : db.markets.get? request.marketId = some m) (hr : db.orders.get? i = some r) (hrest : r.Resting)
    (hne : r.playerUuid ≠ request.playerUuid) (hbook : SameBook db request.marketId r.marketId)
    (ho : o.side = request.side ∧ (request.type = .limit → o.priceCents = request.priceCents))
    (hx : Crosses o r) : (i, r) ∈ matchingBids request m.bookId db := by
  obtain ⟨hs, -⟩ | ⟨-, hbuy, hle⟩ := hx
  · rw [ho.1, hside] at hs
    cases hs
  · rw [matchingBids, List.mem_insertionSort, List.mem_filter]
    exact ⟨(mem_counterparties hm).mpr ⟨hr, hbuy, hrest, hbook, hne⟩, decide_eq_true fun ht => ho.2 ht ▸ hle⟩

end Queries
section Orders

/-- What a buy request reserves before it is matched. -/
def reserveOf (request : OrderRequest) : Cents :=
  if request.type = .limit then request.priceCents * request.quantity else 0

theorem insertOrder_ok {o : OrderRow} {r : Id × Db} : insertOrder o db = .ok r ↔
    (db.orders.nextId, Db.addOrder db o) = r := by
  simp only [insertOrder, bind_ok, select_ok, execute_ok, pure_ok, exists_eq_left']

theorem buyReserve_ok {balance : Cents} {r : Cents × Db} : buyReserve request balance db = .ok r ↔
    (request.type = .limit → 0 ≤ request.priceCents ∧ 0 ≤ request.quantity ∧
      request.priceCents * request.quantity ≤ maxCents ∧
      request.priceCents * request.quantity ≤ balance) ∧ (reserveOf request, db) = r := by
  cases ht : request.type with
  | market => simp [buyReserve, reserveOf, ht, pure_ok]
  | limit =>
    simp only [buyReserve, reserveOf, ht, bind_ok, liftM_ok, checkedProduct_ok, throwIf_ok, pure_ok,
      and_assoc, exists_and_left, exists_eq_left', not_lt, if_true, forall_const]

theorem reserveFunds_ok {reserved : Cents} {r : PUnit × Db} (h0 : 0 ≤ reserved) :
    reserveFunds request orderId reserved db = .ok r ↔
      Debitable db request.playerUuid reserved ∧
        (⟨⟩, Db.post db request.playerUuid (-reserved) .buyOrderReserve (some (.order orderId))) = r := by
  unfold reserveFunds
  rcases h0.eq_or_lt with h | h
  · simp [← h, pure_ok, Debitable]
  · rw [if_pos h, debit_ok]

/-- What stays reserved for the units a buy request could not get. -/
def keptReserve (request : OrderRequest) (p : Progress) : Cents :=
  if request.type = .limit then request.priceCents * p.remaining else 0

theorem finishBuy_ok {r : ExecutionResult × Db} : finishBuy request orderId p db = .ok r ↔
    (request.type = .limit → 0 ≤ request.priceCents ∧ 0 ≤ p.remaining ∧
      request.priceCents * p.remaining ≤ maxCents) ∧
    ∃ a, db.accounts.find? request.playerUuid = some a ∧
      (executionResult request orderId p a.balanceCents,
        Db.setOrder db orderId (boughtOrder request p (keptReserve request p))) = r := by
  cases ht : request.type <;>
    simp only [finishBuy, keptReserve, ht, bind_ok, liftM_ok, checkedProduct_ok, updateOrder,
      execute_ok, lockedBalance_ok, pure_ok, and_assoc, exists_and_left, exists_eq_left',
      exists_exists_and_eq_and, Db.setOrder_accounts, forall_const, reduceCtorEq, if_true, if_false,
      IsEmpty.forall_iff, true_and]

theorem placeBuy_ok {r : ExecutionResult × Db} (h : placeBuy request db = .ok r) :
    ∃ m b a q, db.markets.get? request.marketId = some m ∧ db.books.get? m.bookId = some b ∧ m.active ∧
      db.accounts.find? request.playerUuid = some a ∧ 0 ≤ reserveOf request ∧
      Debitable db request.playerUuid (reserveOf request) ∧
      matchAsks request db.orders.nextId
        (matchingAsks request m.bookId (Db.openOrder db (newOrder request (reserveOf request))))
        { remaining := request.quantity, availableBalance := a.balanceCents - reserveOf request }
        (Db.openOrder db (newOrder request (reserveOf request))) = .ok q ∧
      finishBuy request db.orders.nextId q.1 q.2 = .ok r := by
  simp only [placeBuy, bind_ok, lockActiveBook_ok, lockedBalance_ok, buyReserve_ok, insertOrder_ok,
    select_ok] at h
  obtain ⟨_, ⟨m, b, hm, hb, hact, rfl⟩, _, ⟨a, ha, rfl⟩, _, ⟨hguard, rfl⟩, _, rfl, _, hres, _, rfl,
    q, hmatch, hfin⟩ := h
  have h0 : 0 ≤ reserveOf request := by
    unfold reserveOf
    split_ifs with ht
    · exact mul_nonneg (hguard ht).1 (hguard ht).2.1
    · exact le_rfl
  obtain ⟨hdeb, rfl⟩ := (reserveFunds_ok h0).mp hres
  exact ⟨m, b, a, q, hm, hb, hact, ha, h0, hdeb, hmatch, hfin⟩

/-- A market sale returns what it could not sell. -/
def returnedRemainder (request : OrderRequest) (p : Progress) : ℤ :=
  if request.type = .market then p.remaining else 0

theorem finishSell_ok {r : ExecutionResult × Db} : finishSell request orderId p db = .ok r ↔
    ∃ a, db.accounts.find? request.playerUuid = some a ∧
      (executionResult request orderId p a.balanceCents,
        Db.setOrder (Db.deliver db request.playerUuid request.marketId (returnedRemainder request p)
          .marketRemainder) orderId (soldOrder request p)) = r := by
  have hskip : ∀ q : ℤ, q ≤ 0 →
      Db.deliver db request.playerUuid request.marketId q .marketRemainder = db := fun q hq => by
    simp [Db.deliver, hq]
  simp only [finishSell, returnedRemainder]
  by_cases hd : request.type = .market ∧ p.remaining > 0
  · simp only [hd, and_self, if_true, bind_ok, addDelivery_ok, updateOrder, execute_ok, lockedBalance_ok, pure_ok,
      exists_eq_left', exists_exists_and_eq_and, Db.setOrder_accounts, Db.deliver_accounts]
  · have hq : (if request.type = .market then p.remaining else 0) ≤ 0 := by
      split_ifs with ht
      · exact not_lt.mp fun h => hd ⟨ht, h⟩
      · exact le_rfl
    rw [hskip _ hq]
    simp only [hd, if_false, bind_ok, updateOrder, execute_ok, lockedBalance_ok, pure_ok,
      exists_eq_left', exists_exists_and_eq_and, Db.setOrder_accounts]

theorem placeSellLocked_ok {r : ExecutionResult × Db} : placeSellLocked request db = .ok r ↔
    ∃ m b a q, db.markets.get? request.marketId = some m ∧ db.books.get? m.bookId = some b ∧ m.active ∧
      db.accounts.find? request.playerUuid = some a ∧
      matchBids request db.orders.nextId
        (matchingBids request m.bookId (Db.addOrder db (newOrder request 0)))
        { remaining := request.quantity } (Db.addOrder db (newOrder request 0)) = .ok q ∧
      finishSell request db.orders.nextId q.1 q.2 = .ok r := by
  simp only [placeSellLocked, bind_ok, lockActiveBook_ok, lockedBalance_ok, insertOrder_ok, select_ok]
  constructor
  · rintro ⟨_, ⟨m, b, hm, hb, hact, rfl⟩, _, ⟨a, ha, rfl⟩, _, rfl, _, rfl, q, hmatch, hfin⟩
    exact ⟨m, b, a, q, hm, hb, hact, ha, hmatch, hfin⟩
  · rintro ⟨m, b, a, q, hm, hb, hact, ha, hmatch, hfin⟩
    exact ⟨_, ⟨m, b, hm, hb, hact, rfl⟩, _, ⟨a, ha, rfl⟩, _, rfl, _, rfl, q, hmatch, hfin⟩

/-- Before the first trade the view is the database itself. -/
theorem view_start (hq : 0 < request.quantity)
    (hr : reserved = unitReserve (newOrder request reserved) * request.quantity)
    (hown : db.orders.get? orderId = some (newOrder request reserved)) {available : Cents} :
    Db.view db orderId { remaining := request.quantity, availableBalance := available } = db := by
  have hfix : db.orders.update orderId
      (inFlight { remaining := request.quantity, availableBalance := available }) = db.orders := by
    refine Table.update_eq_self fun o ho => ?_
    obtain rfl : o = newOrder request reserved := Option.some.inj (ho.symm.trans hown)
    simp [inFlight, orderStatus, hq.ne', newOrder] at hr ⊢
    exact hr.symm
  simp only [Db.view, Db.setOrder, hfix]

/-- The final row of a matched order, as the desk records it. -/
def closedOrder (request : OrderRequest) (p : Progress) (own : OrderRow) : OrderRow :=
  if request.type = .limit then inFlight p own else stoppedOrder (inFlight p own)

theorem finalStatus_market (ht : request.type = .market) (hs : Session db request reserved orderId p) :
    finalStatus request p = (stoppedOrder (inFlight p (newOrder request reserved))).status := by
  have htot := hs.total
  have hf := hs.filled
  simp only [finalStatus, ht, stoppedOrder, inFlight, orderStatus]
  by_cases hr : p.remaining = 0
  · have hq : p.filledTotal = request.quantity := by omega
    simp [hr, hq]
  · have hq : p.filledTotal ≠ request.quantity := by omega
    by_cases h0 : p.filledTotal > 0 <;> simp [hr, hq, h0]

private theorem boughtOrder_eq (hside : request.side = .buy) (hs : Session db request reserved orderId p) :
    boughtOrder request p (keptReserve request p) (newOrder request reserved) =
      closedOrder request p (newOrder request reserved) := by
  cases ht : request.type with
  | limit =>
    simp [boughtOrder, soldOrder, closedOrder, ht, inFlight, finalStatus, keptReserve, unitReserve,
      newOrder, hside]
  | market =>
    have hst := finalStatus_market ht hs
    simp [boughtOrder, soldOrder, closedOrder, ht, hst, stoppedOrder, inFlight, keptReserve, unitReserve,
      newOrder]

private theorem soldOrder_eq (hside : request.side = .sell) (hs : Session db request 0 orderId p) :
    soldOrder request p (newOrder request 0) = closedOrder request p (newOrder request 0) := by
  cases ht : request.type with
  | limit =>
    simp [soldOrder, closedOrder, ht, inFlight, finalStatus, unitReserve, newOrder, hside]
  | market =>
    have hst := finalStatus_market ht hs
    simp [soldOrder, closedOrder, ht, hst, stoppedOrder, inFlight, unitReserve, newOrder, hside]

theorem close_step (hs : Session db request reserved orderId p) {f : OrderRow → OrderRow}
    (hf : f (newOrder request reserved) = closedOrder request p (newOrder request reserved))
    (hx : request.type = .limit → 0 < p.remaining →
      Unmatched (Db.view db orderId p) (inFlight p (newOrder request reserved))) :
    Step settings allow ⟨Db.view db orderId p, some orderId⟩
      ⟨Db.setOrder (Db.deliver db request.playerUuid request.marketId
        (if request.side = .buy then 0 else returnedRemainder request p) .marketRemainder) orderId f,
        none⟩ := by
  have hrow : (Db.view db orderId p).orders.get? orderId = some (inFlight p (newOrder request reserved)) := by
    simp [Db.view, hs.own]
  have hown : ∀ {g : OrderRow → OrderRow},
      f (newOrder request reserved) = g (newOrder request reserved) →
        db.orders.update orderId f = db.orders.update orderId g := fun hg =>
    Table.update_congr fun o ho => by
      obtain rfl : o = newOrder request reserved := Option.some.inj (ho.symm.trans hs.own)
      exact hg
  cases ht : request.type with
  | limit =>
    have horders := hown (g := inFlight p) (by rw [hf, closedOrder, if_pos ht])
    have hview : Db.setOrder (Db.deliver db request.playerUuid request.marketId
        (if request.side = .buy then 0 else returnedRemainder request p) .marketRemainder) orderId f =
          Db.view db orderId p := by
      simp [Db.setOrder, Db.deliver, Db.view, returnedRemainder, ht, horders]
    rw [hview]
    refine .closeLimit hrow ht fun hlive => hx ht (lt_of_le_of_ne hs.remaining fun h0 => ?_)
    simp [inFlight, orderStatus, ← h0] at hlive
  | market =>
    have horders := hown (g := stoppedOrder ∘ inFlight p) (by
      rw [hf, closedOrder, if_neg (by simp [ht])]
      rfl)
    have hview : Db.setOrder (Db.deliver db request.playerUuid request.marketId
        (if request.side = .buy then 0 else returnedRemainder request p) .marketRemainder) orderId f =
          Db.stop (Db.view db orderId p) orderId (inFlight p (newOrder request reserved)) := by
      simp only [Db.stop, Db.view, Db.setOrder, Db.deliver, Table.update_update, horders,
        returnedRemainder, ht, if_true]
      rfl
    rw [hview]
    exact .closeMarket hrow ht

/-- What matching needs of a request: something to trade, at a positive price. -/
def Placeable (request : OrderRequest) : Prop :=
  0 < request.quantity ∧ (request.type = .limit → 0 < request.priceCents)

theorem openOrder_step {m : MarketRow} (hv : Placeable request)
    (hm : db.markets.get? request.marketId = some m)
    (hr : reserved = unitReserve (newOrder request reserved) * request.quantity)
    (hc : CanPost db request.playerUuid (-reserved)) (ha : request.side = .sell → allow .openSell)
    (hw : ∃ a, db.accounts.find? request.playerUuid = some a) (hact : m.active) :
    Step settings allow ⟨db, none⟩ ⟨Db.openOrder db (newOrder request reserved), some db.orders.nextId⟩ := by
  refine .openOrder (o := newOrder request reserved) hm rfl hv.1 rfl ⟨fun ht => ?_, fun ht => ?_⟩
    hr hc ha hw hact
  · have ht' : request.type = .limit := ht
    simpa [newOrder, ht'] using hv.2 ht'
  · have ht' : request.type = .market := ht
    simp [newOrder, ht']

theorem session_start (hv : Placeable request) (available : Cents) :
    Session (Db.openOrder db (newOrder request reserved)) request reserved db.orders.nextId
      { remaining := request.quantity, availableBalance := available } :=
  ⟨by simp [Db.openOrder], le_rfl, hv.1.le, add_zero _⟩

theorem placeBuy_steps {r : ExecutionResult} (hv : Placeable request)
    (hside : request.side = .buy) (h : placeBuy request db = .ok (r, db')) :
    Steps settings allow ⟨db, none⟩ ⟨db', none⟩ := by
  obtain ⟨m, b, a, ⟨p, db₃⟩, hm, hb, hact, ha, h0, hdeb, hmatch, hfin⟩ := placeBuy_ok h
  have hr : reserveOf request = unitReserve (newOrder request (reserveOf request)) * request.quantity := by
    cases ht : request.type <;> simp [reserveOf, unitReserve, newOrder, hside, ht]
  have hopen := (@openOrder_step _ _ _ settings allow) hv hm hr
    (Debitable.canPost hdeb) (by simp [hside]) ⟨a, ha⟩ hact
  have hw := @waiting_of_query db (Db.openOrder db (newOrder request (reserveOf request))) request .sell
    (fun o => request.type = .limit → o.priceCents ≤ request.priceCents) m.bookId m _
    (newOrder request (reserveOf request))
    (fun e => request.type = .limit → e.2.priceCents ≤ request.priceCents) _ hm rfl (fun _ h => h)
    (List.perm_insertionSort askBefore _) rfl rfl rfl
  obtain ⟨hsteps, hs⟩ := (@matchAsks_steps _ _ _ _ _ _ _ settings allow) hmatch
    ((@session_start _ _ (reserveOf request)) hv _) hside hw
  rw [view_start hv.1 hr (session_start hv 0).own] at hsteps
  obtain ⟨-, c, hc, hfin⟩ := finishBuy_ok.mp hfin
  obtain ⟨rfl, rfl⟩ := Prod.mk.inj hfin
  have hclose := (@close_step _ _ _ _ _ settings allow) hs (boughtOrder_eq hside hs)
    fun ht hrem => (matchAsks_exhausts ht hw.keys (fun e he => (hw.row e he).1) hmatch).unmatched hrem
      hs.own fun i r hr hrest hne hbook hcross => matchingAsks_complete (m := m) hside hm hr hrest hne
        hbook ⟨rfl, fun ht => if_pos ht⟩ hcross
  simp only [hside, if_true, Db.deliver, le_refl] at hclose
  exact (hsteps.head hopen).tail hclose

/-- After the order is opened only trades follow, then the order is closed. -/
theorem placeSellLocked_steps {r : ExecutionResult} (hv : Placeable request)
    (hside : request.side = .sell) (h : placeSellLocked request db = .ok (r, db')) :
    (allow .openSell → Step settings allow ⟨db, none⟩
      ⟨Db.openOrder db (newOrder request 0), some db.orders.nextId⟩) ∧
    (∀ quiet, Steps settings quiet ⟨Db.openOrder db (newOrder request 0), some db.orders.nextId⟩
      ⟨db', none⟩) ∧ r.orderId = db.orders.nextId ∧ db'.sellEscrows = db.sellEscrows ∧
    ∃ p, db'.orders.get? db.orders.nextId = some (soldOrder request p (newOrder request 0)) := by
  obtain ⟨m, b, a, ⟨p, db₃⟩, hm, hb, hact, ha, hmatch, hfin⟩ := placeSellLocked_ok.mp h
  have hr : (0 : Cents) = unitReserve (newOrder request 0) * request.quantity := by
    simp [unitReserve, newOrder, hside]
  obtain ⟨c, hc, hfin⟩ := finishSell_ok.mp hfin
  obtain ⟨rfl, rfl⟩ := Prod.mk.inj hfin
  have hopened : Db.addOrder db (newOrder request 0) = Db.openOrder db (newOrder request 0) := rfl
  rw [hopened] at hmatch
  have hw := @waiting_of_query db (Db.openOrder db (newOrder request 0)) request .buy
    (fun o => request.type = .limit → o.priceCents ≥ request.priceCents) m.bookId m _ (newOrder request 0)
    (fun e => request.type = .limit → e.2.priceCents ≥ request.priceCents) _ hm rfl (fun _ h => h)
    (List.perm_insertionSort bidBefore _) rfl rfl rfl
  have hsession := fun quiet => (@matchBids_steps _ _ _ _ _ _ _ settings quiet) hmatch
    ((@session_start _ _ 0) hv _) hside hw
  have hown := (hsession allow).2.own
  refine ⟨fun hallow => openOrder_step hv hm hr (fun h0 => absurd rfl h0) (fun _ => hallow) ⟨a, ha⟩
      hact, fun quiet => ?_, rfl, (matchBids_sellEscrows hmatch).trans rfl, p, by simp [hown]⟩
  obtain ⟨hsteps, hs⟩ := hsession quiet
  rw [view_start hv.1 hr (session_start hv 0).own] at hsteps
  have hclose := (@close_step _ _ _ _ _ settings quiet) hs (soldOrder_eq hside hs)
    fun ht hrem => (matchBids_exhausts hw.keys (fun e he => (hw.row e he).1) hmatch).unmatched hrem
      hs.own fun i r hr hrest hne hbook hcross => matchingBids_complete (m := m) hside hm hr hrest hne
        hbook ⟨rfl, fun ht => if_pos ht⟩ hcross
  simp only [hside, reduceCtorEq, if_false] at hclose
  exact hsteps.tail hclose

end Orders
end EndstoneExchange.MatchingRefinement
