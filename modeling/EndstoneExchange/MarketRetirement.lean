import EndstoneExchange.ItemConservation
import EndstoneExchange.MarketLifecycle
import EndstoneExchange.MarketParticipants
import Mathlib.Algebra.BigOperators.Group.List.Basic

/-!
# Retiring a market and cancelling its orders

A withdrawal adds to its owner's balance and deliveries and closes one order, so that a
list of withdrawals has the same effect in any order.
-/
namespace EndstoneExchange.MarketRetirement
open AutoIncrementTables KeyedTables AtomicTransactions.Transaction DurablePrograms ExchangeDomain
  ExchangeTransactions MarketOperations OrderMatching ClearingSteps ClearingRefinement DeliveryOrigins
  MarketLifecycle ServiceRuns

section Effects

/-- What a withdrawn order refunds to a player. -/
def refundTo (playerUuid : String) (e : Id × OrderRow) : Cents :=
  if e.2.playerUuid = playerUuid ∧ e.2.side = .buy then e.2.reservedCents else 0

def returned (o : OrderRow) : ℤ := if o.side = .buy ∨ o.remainingQty ≤ 0 then 0 else o.remainingQty

/-- What a withdrawn order returns to a player from a book. -/
def returnTo (db : Db) (playerUuid : String) (bookId : Id) (e : Id × OrderRow) : ℤ :=
  if e.2.playerUuid = playerUuid ∧ Db.bookOf db e.2.marketId = some bookId then returned e.2 else 0

def deliveredTo (db : Db) (playerUuid : String) (bookId : Id) : ℤ :=
  db.deliveries.sum fun r => if r.playerUuid = playerUuid ∧ Db.bookOf db r.marketId = some bookId then
    r.quantity else 0

/-- Nothing but the withdrawal of some orders lies between two states. -/
structure Withdrawn (es : List (Id × OrderRow)) (db db' : Db) : Prop where
  accounts : ∀ u, db'.accounts.find? u = (db.accounts.find? u).map fun a =>
    { a with balanceCents := a.balanceCents + (es.map (refundTo u)).sum }
  orders : ∀ id, db'.orders.get? id =
    if id ∈ es.map Prod.fst then (db.orders.get? id).map canceledOrder else db.orders.get? id
  trades : db'.trades = db.trades
  delivered : ∀ u b, deliveredTo db' u b = deliveredTo db u b + (es.map (returnTo db u b)).sum
  bookOf : ∀ id, Db.bookOf db' id = Db.bookOf db id

variable {es es' : List (Id × OrderRow)} {db db₁ db' : Db}

theorem Withdrawn.nil (db : Db) : Withdrawn [] db db := by
  constructor
  case accounts => intro u; simp
  case orders => intro id; simp
  case trades => rfl
  case delivered => intro u b; simp
  case bookOf => intro id; rfl

theorem Withdrawn.trans (h : Withdrawn es db db₁) (h' : Withdrawn es' db₁ db') :
    Withdrawn (es ++ es') db db' := by
  constructor
  case accounts =>
    intro u
    rw [h'.accounts, h.accounts, Option.map_map]
    refine congrArg (Option.map · (db.accounts.find? u)) (funext fun a => ?_)
    simp [add_assoc]
  case orders =>
    intro id
    rw [h'.orders, h.orders]
    by_cases hid : id ∈ es.map Prod.fst
    · by_cases hid' : id ∈ es'.map Prod.fst
      · rw [if_pos hid', if_pos hid, if_pos (by simp [hid]), Option.map_map]
        rfl
      · rw [if_neg hid', if_pos hid, if_pos (by simp [hid])]
    · simp only [hid, List.map_append, List.mem_append, false_or, if_false]
  case trades => rw [h'.trades, h.trades]
  case delivered =>
    intro u b
    have hsame : es'.map (returnTo db₁ u b) = es'.map (returnTo db u b) :=
      List.map_congr_left fun e _ => by rw [returnTo, returnTo, h.bookOf]
    rw [h'.delivered, h.delivered, hsame, List.map_append, List.sum_append, add_assoc]
  case bookOf => intro id; rw [h'.bookOf, h.bookOf]

/-- The order of the withdrawals does not matter. -/
theorem Withdrawn.perm (h : Withdrawn es db db') (hp : es.Perm es') : Withdrawn es' db db' := by
  constructor
  case accounts => intro u; rw [h.accounts, (hp.map _).sum_eq]
  case orders => intro id; rw [h.orders]; simp only [(hp.map Prod.fst).mem_iff]
  case trades => exact h.trades
  case delivered => intro u b; rw [h.delivered, (hp.map _).sum_eq]
  case bookOf => exact h.bookOf

/-- The same balances, order rows, trade rows and delivered quantities. -/
structure Agree (db db' : Db) : Prop where
  balances : ∀ u, db.accounts.find? u = db'.accounts.find? u
  orders : ∀ id, db.orders.get? id = db'.orders.get? id
  trades : db.trades = db'.trades
  delivered : ∀ u b, deliveredTo db u b = deliveredTo db' u b

theorem Withdrawn.agree (h : Withdrawn es db db₁) (h' : Withdrawn es db db') : Agree db₁ db' := by
  constructor
  case balances => intro u; rw [h.accounts, h'.accounts]
  case orders => intro id; rw [h.orders, h'.orders]
  case trades => rw [h.trades, h'.trades]
  case delivered => intro u b; rw [h.delivered, h'.delivered]

end Effects

section Withdrawing
variable {es : List (Id × OrderRow)} {e : Id × OrderRow} {db db' : Db} {refund : LedgerReason}
  {reason : DeliveryReason}

private theorem deliveredTo_deliver (playerUuid : String) (marketId : Id) (quantity : ℤ) (u : String) (b : Id) :
    deliveredTo (Db.deliver db playerUuid marketId quantity reason) u b = deliveredTo db u b +
      if playerUuid = u ∧ Db.bookOf db marketId = some b ∧ 0 < quantity then quantity else 0 := by
  have hbook : ∀ id, Db.bookOf (Db.deliver db playerUuid marketId quantity reason) id = Db.bookOf db id :=
    fun _ => rfl
  simp only [deliveredTo, hbook, Db.deliver_deliveries]
  by_cases hq : quantity ≤ 0
  · simp [hq, not_lt.mpr hq]
  · rw [if_neg hq, Table.sum_insert]
    simp [not_le.mp hq]

theorem withdrawOrder_eq (hcredit : e.2.side = .buy → Creditable db e.2.playerUuid e.2.reservedCents) :
    withdrawOrder e.1 e.2 refund reason db = .ok (⟨⟩, Db.withdraw db e.1 e.2 refund reason) := by
  have hadd : addDelivery e.2.playerUuid e.2.marketId e.2.remainingQty reason db =
      .ok (⟨⟩, Db.deliver db e.2.playerUuid e.2.marketId e.2.remainingQty reason) := addDelivery_ok.mpr rfl
  by_cases hbuy : e.2.side = .buy
  · have hpost : credit e.2.playerUuid e.2.reservedCents refund (some (.order e.1)) db =
        .ok (⟨⟩, Db.post db e.2.playerUuid e.2.reservedCents refund (some (.order e.1))) :=
      credit_ok.mpr ⟨hcredit hbuy, rfl⟩
    simp only [withdrawOrder, updateOrder, hbuy, if_true, bind_ok, execute_ok]
    exact ⟨_, hpost, by simp [Db.withdraw, hbuy, Db.deliver]; rfl⟩
  · by_cases hq : e.2.remainingQty > 0
    · simp only [withdrawOrder, updateOrder, hbuy, hq, if_true, if_false, bind_ok, execute_ok]
      exact ⟨_, hadd, by simp [Db.withdraw, hbuy]; rfl⟩
    · have hsame : Db.withdraw db e.1 e.2 refund reason = Db.setOrder db e.1 canceledOrder := by
        simp [Db.withdraw, hbuy, Db.deliver, not_lt.mp hq]
      simp only [withdrawOrder, updateOrder, hbuy, hq, if_false, hsame]
      rfl

theorem withdraw_withdrawn (db : Db) (e : Id × OrderRow) (refund : LedgerReason) (reason : DeliveryReason) :
    Withdrawn [e] db (Db.withdraw db e.1 e.2 refund reason) := by
  constructor
  case accounts =>
    intro u
    rw [Db.withdraw, Db.setOrder_accounts, Db.deliver_accounts, find?_post]
    by_cases hu : u = e.2.playerUuid
    · subst hu
      simp [refundTo]
    · have hu' : ¬ e.2.playerUuid = u := fun h => hu h.symm
      simp [refundTo, hu, hu']
  case orders =>
    intro id
    rw [Db.withdraw, Db.setOrder_orders, Table.get?_update]
    simp
  case trades => rfl
  case delivered =>
    intro u b
    have hdeliver := @deliveredTo_deliver (Db.post db e.2.playerUuid
      (if e.2.side = .buy then e.2.reservedCents else 0) refund (some (.order e.1))) reason e.2.playerUuid
      e.2.marketId (if e.2.side = .buy then 0 else e.2.remainingQty) u b
    refine hdeliver.trans (congrArg (deliveredTo db u b + ·) ?_)
    change (if e.2.playerUuid = u ∧ Db.bookOf db e.2.marketId = some b ∧ _ then _ else _) = _
    by_cases hbuy : e.2.side = .buy
    · simp [returnTo, returned, hbuy]
    · by_cases hq : e.2.remainingQty ≤ 0
      · simp [returnTo, returned, hbuy, hq, not_lt.mpr hq]
      · simp [returnTo, returned, hbuy, hq, not_le.mp hq]
  case bookOf => intro id; rfl

private theorem withdrawOrder_credits {u : PUnit} (h : withdrawOrder e.1 e.2 refund reason db = .ok (u, db'))
    (hbuy : e.2.side = .buy) : Creditable db e.2.playerUuid e.2.reservedCents := by
  simp only [withdrawOrder, updateOrder, hbuy, if_true, bind_ok, credit_ok] at h
  obtain ⟨_, ⟨hcredit, -⟩, -⟩ := h
  exact hcredit

theorem refunds_nonneg (h : ∀ e ∈ es, 0 ≤ e.2.reservedCents) (u : String) :
    ∀ c ∈ es.map (refundTo u), 0 ≤ c := by
  intro c hc
  obtain ⟨e, he, rfl⟩ := List.mem_map.mp hc
  unfold refundTo
  split_ifs
  · exact h e he
  · exact le_rfl

/-- Each order rests as listed, its owner has an account, and all refunds together fit. -/
structure Ready (es : List (Id × OrderRow)) (db : Db) : Prop where
  keys : (es.map Prod.fst).Nodup
  rows : ∀ e ∈ es, db.orders.get? e.1 = some e.2 ∧ e.2.Resting ∧ 0 ≤ e.2.reservedCents
  owners : ∀ e ∈ es, ∃ a, db.accounts.find? e.2.playerUuid = some a
  fits : ∀ u a, db.accounts.find? u = some a → 0 < (es.map (refundTo u)).sum →
    a.balanceCents + (es.map (refundTo u)).sum ≤ maxCents

theorem Ready.refund_nonneg (h : Ready es db) (u : String) : ∀ c ∈ es.map (refundTo u), 0 ≤ c :=
  refunds_nonneg (fun e he => (h.rows e he).2.2) u

theorem Ready.perm {es' : List (Id × OrderRow)} (h : Ready es db) (hp : es.Perm es') : Ready es' db := by
  constructor
  case keys => exact (hp.map _).nodup_iff.mp h.keys
  case rows => exact fun e he => h.rows e (hp.mem_iff.mpr he)
  case owners => exact fun e he => h.owners e (hp.mem_iff.mpr he)
  case fits => intro u a ha; rw [← (hp.map _).sum_eq]; exact h.fits u a ha

theorem Ready.creditable (h : Ready (e :: es) db) (hbuy : e.2.side = .buy) :
    Creditable db e.2.playerUuid e.2.reservedCents := by
  obtain ⟨-, -, hnonneg⟩ := h.rows e List.mem_cons_self
  refine ⟨hnonneg, fun hne => ?_⟩
  obtain ⟨a, ha⟩ := h.owners e List.mem_cons_self
  have hown : refundTo e.2.playerUuid e = e.2.reservedCents := by simp [refundTo, hbuy]
  have hrest : 0 ≤ (es.map (refundTo e.2.playerUuid)).sum :=
    List.sum_nonneg fun c hc => h.refund_nonneg _ c (List.mem_cons_of_mem _ hc)
  have hfits := h.fits _ a ha
  rw [List.map_cons, List.sum_cons, hown] at hfits
  have hpos : 0 < e.2.reservedCents := lt_of_le_of_ne hnonneg (Ne.symm hne)
  exact ⟨a, ha, by linarith [hfits (by linarith)]⟩

theorem Ready.tail (h : Ready (e :: es) db) (hw : Withdrawn [e] db db') : Ready es db' := by
  have hkeys := h.keys
  rw [List.map_cons, List.nodup_cons] at hkeys
  constructor
  case keys => exact hkeys.2
  case rows =>
    intro e' he'
    have hne : e'.1 ≠ e.1 := fun heq => hkeys.1 (heq ▸ List.mem_map_of_mem he')
    rw [hw.orders, if_neg (by simpa using hne)]
    exact h.rows e' (List.mem_cons_of_mem _ he')
  case owners =>
    intro e' he'
    obtain ⟨a, ha⟩ := h.owners e' (List.mem_cons_of_mem _ he')
    exact ⟨_, by rw [hw.accounts, ha]; rfl⟩
  case fits =>
    intro u a' ha' hpos
    rw [hw.accounts] at ha'
    obtain ⟨a, ha, rfl⟩ := Option.map_eq_some_iff.mp ha'
    have hfirst := h.refund_nonneg u (refundTo u e) List.mem_cons_self
    have hfits := h.fits u a ha
    rw [List.map_cons, List.sum_cons] at hfits
    simp only [List.map_cons, List.map_nil, List.sum_cons, List.sum_nil, add_zero]
    linarith [hfits (by linarith)]

/-- Orders that are ready are closed together. -/
theorem closeOrders_withdrawn (h : Ready es db) :
    ∃ db', closeOrders es db = .ok (⟨⟩, db') ∧ Withdrawn es db db' := by
  induction es generalizing db with
  | nil => exact ⟨db, rfl, .nil db⟩
  | cons e es ih =>
    have hfirst := withdraw_withdrawn db e .marketCloseRefund .marketClosed
    obtain ⟨db', hrest, hw⟩ := ih (h.tail hfirst)
    refine ⟨db', ?_, hfirst.trans hw⟩
    simp only [closeOrders, bind_ok]
    exact ⟨_, withdrawOrder_eq h.creditable, hrest⟩

/-- Closing orders together needs all refunds of a player to fit. -/
theorem closeOrders_fits {u : PUnit} (h : closeOrders es db = .ok (u, db'))
    (hnonneg : ∀ e ∈ es, 0 ≤ e.2.reservedCents) (player : String) {a : AccountRow}
    (ha : db.accounts.find? player = some a) (hpos : 0 < (es.map (refundTo player)).sum) :
    a.balanceCents + (es.map (refundTo player)).sum ≤ maxCents := by
  induction es generalizing db a with
  | nil => simp at hpos
  | cons e es ih =>
    simp only [closeOrders, bind_ok] at h
    obtain ⟨⟨u₁, db₁⟩, hw, hrest⟩ := h
    have hcredit := withdrawOrder_credits hw
    cases (withdrawOrder_eq hcredit).symm.trans hw
    have hafter := (withdraw_withdrawn db e .marketCloseRefund .marketClosed).accounts player
    rw [ha] at hafter
    have hes : ∀ e' ∈ es, 0 ≤ e'.2.reservedCents := fun e' he' => hnonneg e' (List.mem_cons_of_mem _ he')
    have ih' := ih hrest hes hafter
    simp only [List.map_cons, List.map_nil, List.sum_cons, List.sum_nil, add_zero] at ih' hpos ⊢
    by_cases hlater : 0 < (es.map (refundTo player)).sum
    · linarith [ih' hlater]
    · have hzero : (es.map (refundTo player)).sum = 0 :=
        le_antisymm (not_lt.mp hlater) (List.sum_nonneg (refunds_nonneg hes player))
      rw [hzero, add_zero] at hpos ⊢
      unfold refundTo at hpos ⊢
      split_ifs at hpos ⊢ with hown
      · obtain ⟨a', ha', hle⟩ := (hcredit hown.2).2 hpos.ne'
        cases ha'.symm.trans (hown.1 ▸ ha)
        exact hle
      · exact absurd hpos (lt_irrefl 0)

end Withdrawing

section Calls
variable {settings : Settings} {es : List (Id × OrderRow)} {marketId : Id} {db db' : Db}

/-- The cancellations an administrator calls one after the other, whichever of them raise. -/
def cancelOrders (caller : Id → String) (es : List (Id × OrderRow)) : Program Db Error PUnit :=
  Program.forEach (fun e => tryCatch (cancelOrder e.1 (caller e.1) true) fun _ => pure ⟨⟩) es

private theorem cancelOrders_withdrawn (caller : Id → String) (h : Ready es db) :
    ∃ db', cancelOrders caller es [] db = (.returned ⟨⟩, [], db') ∧ Withdrawn es db db' := by
  induction es generalizing db with
  | nil => exact ⟨db, rfl, .nil db⟩
  | cons e es ih =>
    have hfirst := withdraw_withdrawn db e .orderCancelRefund .orderCanceled
    obtain ⟨db', hrest, hw⟩ := ih (h.tail hfirst)
    refine ⟨db', ?_, hfirst.trans hw⟩
    obtain ⟨hrow, hresting, -⟩ := h.rows e List.mem_cons_self
    have hcancel : cancelOrder e.1 (caller e.1) true [] db =
        (.returned ⟨⟩, [], Db.withdraw db e.1 e.2 .orderCancelRefund .orderCanceled) := by
      refine transaction_returned ?_
      simp only [cancelOrderTx, bind_ok, selectOne_ok, throwIf_ok, exists_eq_left', exists_and_left,
        exists_exists_and_eq_and, and_assoc, not_not]
      exact ⟨e.2, hrow, by simp, hresting, withdrawOrder_eq h.creditable⟩
    have hcaught : Program.tryCatch (cancelOrder e.1 (caller e.1) true) (fun _ => pure ⟨⟩) [] db =
        (.returned ⟨⟩, [], Db.withdraw db e.1 e.2 .orderCancelRefund .orderCanceled) := by
      rw [Program.tryCatch, hcancel]
    exact (Program.bind_returned hcaught).trans hrest

/-- Of every player, the balance and all refunds of the market's orders together fit. -/
def RefundsFit (marketId : Id) (db : Db) : Prop :=
  ∀ u a, db.accounts.find? u = some a → 0 < ((marketOrders marketId db).map (refundTo u)).sum →
    a.balanceCents + ((marketOrders marketId db).map (refundTo u)).sum ≤ maxCents

theorem reserve_nonneg (h : Reachable settings db) {id : Id} {o : OrderRow} (ho : db.orders.get? id = some o) :
    0 ≤ o.reservedCents := by
  have hbalanced := (OrderReconciliation.reachable_reconciled h).orders id o ho
  have hprice := (MarketParticipants.reachable_participants h).prices id o ho
  rw [hbalanced.reserve]
  refine mul_nonneg ?_ hbalanced.remaining_nonneg
  unfold unitReserve
  split_ifs with hlimit
  · exact (hprice hlimit.2).le
  · exact le_rfl

theorem marketOrders_ready (h : Reachable settings db) (hfit : RefundsFit marketId db) :
    Ready (marketOrders marketId db) db := by
  have hrows : ∀ e ∈ marketOrders marketId db, db.orders.get? e.1 = some e.2 ∧ e.2.Resting :=
    marketOrders_spec.2
  constructor
  case keys => exact marketOrders_spec.1
  case rows => exact fun e he => ⟨(hrows e he).1, (hrows e he).2, reserve_nonneg h (hrows e he).1⟩
  case owners => exact fun e he => (MarketParticipants.reachable_participants h).owners _ _ (hrows e he).1
  case fits => exact hfit

theorem Withdrawn.retired (h : Withdrawn es db db') (bindings : KeyedTable String Id) (marketId : Id) :
    Withdrawn es db (Db.setMarket (Db.setBindings db' bindings) marketId fun m =>
      { m with active := false, reopenable := false }) := by
  have hbook : ∀ id, Db.bookOf (Db.setMarket (Db.setBindings db' bindings) marketId fun m =>
      { m with active := false, reopenable := false }) id = Db.bookOf db' id := by
    intro id
    simp only [Db.bookOf, Db.setMarket_markets, Db.setBindings_markets, Table.get?_update]
    split_ifs
    · rw [Option.map_map]
      rfl
    · rfl
  constructor
  case accounts => exact h.accounts
  case orders => exact h.orders
  case trades => exact h.trades
  case delivered =>
    intro u b
    rw [← h.delivered]
    simp only [deliveredTo, hbook]
    rfl
  case bookOf => intro id; rw [hbook, h.bookOf]

/-- Where every refund fits, a market that exists is retired by withdrawing its resting orders. -/
theorem retireMarket_withdrawn (h : Reachable settings db) (hfit : RefundsFit marketId db) {m : MarketRow}
    (hm : db.markets.get? marketId = some m) :
    ∃ db', retireMarketTx marketId db = .ok (⟨⟩, db') ∧ Withdrawn (marketOrders marketId db) db db' := by
  obtain ⟨b, hb, -⟩ := reachable_itemsOfBooks h marketId m hm
  obtain ⟨db₁, hclose, hw⟩ := closeOrders_withdrawn (marketOrders_ready h hfit)
  have hsteps := (@closeOrders_steps settings (fun _ => False)) hclose
    marketOrders_spec.1 marketOrders_spec.2
  have hsame := sameMarkets_steps hsteps id
  have hbound : m.active = true → db₁.targetBindings.find? m.targetKey = some marketId := by
    intro ha
    rw [hsame.bindings]
    exact ((reachable_lifecycle h).targets.bound _ _).mpr ⟨m, hm, ha, rfl⟩
  obtain ⟨bindings, hunbind⟩ : ∃ bindings, unbindTarget m.targetKey marketId db₁ =
      .ok (⟨⟩, Db.setBindings db₁ bindings) := ⟨_, rfl⟩
  refine ⟨_, ?_, hw.retired bindings marketId⟩
  simp only [retireMarketTx, bind_ok, selectOne_ok, execute_ok, select_ok, throwIf_ok, switchMarket,
    exists_eq_left', exists_and_left, exists_exists_and_eq_and, and_assoc]
  refine ⟨m, hm, b, hb, m, hm, by simp, (⟨⟩, db₁), hclose, (⟨⟩, _), hunbind, ?_, rfl⟩
  exact fun hne => hne.2 (hbound hne.1)

theorem retireMarket_overflows (h : Reachable settings db) (hfit : ¬ RefundsFit marketId db) :
    ∃ e, retireMarket marketId [] db = (.threw e, [], db) := by
  rcases transaction_cases (retireMarketTx marketId) db with ⟨u, db', hbody, -⟩ | ⟨e, -, hrun⟩
  · refine absurd (fun player a ha hpos => ?_) hfit
    simp only [retireMarketTx, bind_ok, selectOne_ok, select_ok, throwIf_ok, exists_eq_left', exists_and_left,
      exists_exists_and_eq_and, and_assoc] at hbody
    obtain ⟨-, -, -, -, -, -, -, ⟨u₁, db₁⟩, hclose, -⟩ := hbody
    exact closeOrders_fits hclose (fun e he => reserve_nonneg h (marketOrders_spec.2 e he).1) player ha hpos
  · exact ⟨e, hrun⟩

theorem reachable_marketsExist (h : Reachable settings db) : MarketsExist db :=
  h.induct (I := fun d => MarketsExist d.db) ⟨by simp, by simp, by simp⟩ marketsExist_step

private theorem marketOrders_missing (h : Reachable settings db) (hm : db.markets.get? marketId = none) :
    marketOrders marketId db = [] := by
  refine List.eq_nil_iff_forall_not_mem.mpr fun e he => ?_
  have hrow := (marketOrders_spec.2 e he).1
  simp only [marketOrders, List.mem_filter, decide_eq_true_eq] at he
  obtain ⟨m, hm'⟩ := (reachable_marketsExist h).orders e.1 e.2 hrow
  rw [he.2.1, hm] at hm'
  cases hm'

private theorem retireMarket_missing (hm : db.markets.get? marketId = none) :
    ∃ e, retireMarket marketId [] db = (.threw e, [], db) := by
  rcases transaction_cases (retireMarketTx marketId) db with ⟨u, db', hbody, -⟩ | ⟨e, -, hrun⟩
  · simp only [retireMarketTx, bind_ok, selectOne_ok, hm] at hbody
    obtain ⟨_, ⟨_, hfalse, _⟩, _⟩ := hbody
    cases hfalse
  · exact ⟨e, hrun⟩

/-- A market's retirement against the cancellation of its resting orders, in any order. -/
structure RetiresAsCanceled (marketId : Id) (db : Db) : Prop where
  agree : RefundsFit marketId db → ∀ caller es, es.Perm (marketOrders marketId db) →
    Agree (retireMarket marketId [] db).2.2 (cancelOrders caller es [] db).2.2
  returns : RefundsFit marketId db → ∀ m, db.markets.get? marketId = some m →
    ∃ db', retireMarket marketId [] db = (.returned ⟨⟩, [], db')
  overflows : ¬ RefundsFit marketId db → ∃ e, retireMarket marketId [] db = (.threw e, [], db)
  others : ∀ id o, db.orders.get? id = some o → o.marketId ≠ marketId →
    (retireMarket marketId [] db).2.2.orders.get? id = some o

theorem Withdrawn.others (h : Withdrawn (marketOrders marketId db) db db') {id : Id} {o : OrderRow}
    (ho : db.orders.get? id = some o) (hne : o.marketId ≠ marketId) : db'.orders.get? id = some o := by
  rw [h.orders, if_neg, ho]
  intro hmem
  obtain ⟨e, he, rfl⟩ := List.mem_map.mp hmem
  have hrow := (marketOrders_spec.2 e he).1
  simp only [marketOrders, List.mem_filter, decide_eq_true_eq] at he
  obtain rfl := Option.some.inj (hrow.symm.trans ho)
  exact hne he.2.1

/-- Retirement withdraws the orders of the market as their cancellations do, all or none. -/
theorem retires_as_canceled (h : Reachable settings db) (marketId : Id) : RetiresAsCanceled marketId db := by
  cases hm : db.markets.get? marketId with
  | none =>
    obtain ⟨e, hretire⟩ := retireMarket_missing hm
    constructor
    case agree =>
      intro hfit caller es hp
      rw [marketOrders_missing h hm] at hp
      rw [hretire, hp.eq_nil]
      exact (Withdrawn.nil db).agree (.nil db)
    case returns => intro _ m hm'; rw [hm] at hm'; cases hm'
    case overflows => intro _; exact ⟨e, hretire⟩
    case others => intro id o ho _; rw [hretire]; exact ho
  | some m =>
    have hreturns : RefundsFit marketId db → ∃ db', retireMarket marketId [] db = (.returned ⟨⟩, [], db') ∧
        Withdrawn (marketOrders marketId db) db db' := by
      intro hfit
      obtain ⟨db', hbody, hw⟩ := retireMarket_withdrawn h hfit hm
      exact ⟨db', transaction_returned hbody, hw⟩
    constructor
    case agree =>
      intro hfit caller es hp
      obtain ⟨db', hretire, hw⟩ := hreturns hfit
      obtain ⟨db₁, hcancel, hw₁⟩ := cancelOrders_withdrawn caller ((marketOrders_ready h hfit).perm hp.symm)
      rw [hretire, hcancel]
      exact hw.agree (hw₁.perm hp)
    case returns =>
      intro hfit _ _
      obtain ⟨db', hretire, -⟩ := hreturns hfit
      exact ⟨db', hretire⟩
    case overflows => exact retireMarket_overflows h
    case others =>
      intro id o ho hne
      by_cases hfit : RefundsFit marketId db
      · obtain ⟨db', hretire, hw⟩ := hreturns hfit
        rw [hretire]
        exact hw.others ho hne
      · obtain ⟨e, hretire⟩ := retireMarket_overflows h hfit
        rw [hretire]
        exact ho

/-- A market with a bid that is partly filled and an ask. -/
theorem retires_as_canceled_partly :
    RetiresAsCanceled 1 (afterCalls sampleSettings [.activateMarket (diamondMarket "block"),
      .placeOrder (diamondOrder "alice" .buy .limit 900 3),
      .prepareSellEscrow (diamondOrder "bob" .sell .limit 900 2), .markSellEscrowTagged 1 2 1,
      .executeSellEscrow 1, .prepareSellEscrow (diamondOrder "bob" .sell .limit 950 2),
      .markSellEscrowTagged 2 2 1, .executeSellEscrow 2]) :=
  retires_as_canceled (reachable_afterCalls sampleSettings _) 1

/-- Two bids of which one cannot be refunded: the balance of its owner is the largest there is. -/
def unrefundable : Db := afterCalls sampleSettings [.activateMarket (diamondMarket "block"),
  .placeOrder (diamondOrder "alice" .buy .limit 900 3), .placeOrder (diamondOrder "bob" .buy .limit 800 1),
  .addBalance "alice" "alice" (maxCents - 997300)]

theorem retirement_needs_all_refunds :
    ¬ ∀ settings db, Reachable settings db → ∀ marketId caller es, es.Perm (marketOrders marketId db) →
      Agree (retireMarket marketId [] db).2.2 (cancelOrders caller es [] db).2.2 := by
  intro h
  have hagree := h sampleSettings unrefundable (reachable_afterCalls sampleSettings _) 1 (fun _ => "op") _
    (.refl _)
  have hstatus := congrArg (Option.map (·.status)) (hagree.orders 2)
  have hretired : ((retireMarket 1 [] unrefundable).2.2.orders.get? 2).map (·.status) = some .opened := rfl
  have hcanceled : ((cancelOrders (fun _ => "op") (marketOrders 1 unrefundable) [] unrefundable).2.2.orders.get?
      2).map (·.status) = some .canceled := rfl
  rw [hretired, hcanceled] at hstatus
  cases hstatus

end Calls

end EndstoneExchange.MarketRetirement
