import EndstoneExchange.OrderReconciliation

/-!
# Money is conserved

What players hold, reserve and have on the way out, less what came in from
outside, is what the ledger granted: the opening balances and the adjustments
of administrators. `surplus` is the difference of the two; no step changes it.
-/
namespace EndstoneExchange.MoneyConservation
open AutoIncrementTables KeyedTables AtomicTransactions.Transaction DurablePrograms ExchangeDomain
  ExchangeTransactions AccountOperations OrderMatching EconomyTransferOperations ClearingSteps
  RowHistories ServiceRuns OrderReconciliation

section Columns

/-- The sum of all ledger rows with one reason. -/
def booked (db : Db) (reason : LedgerReason) : Cents :=
  db.balanceLedger.sum fun l => if l.reason = reason then l.deltaCents else 0

/-- A withdrawal holds its amount until it fails; a completed deposit brought its amount in. -/
def transferWeight (t : EconomyTransferRow) : Cents :=
  match t.direction with
  | .withdraw => if t.status = .failed then 0 else t.amountCents
  | .deposit => if t.status = .completed then -t.amountCents else 0

def holdings (db : Db) : Cents :=
  Db.totalBalance db + db.orders.sum (·.reservedCents) + db.economyTransfers.sum transferWeight

def endowment (db : Db) : Cents := booked db .accountOpened + booked db .adminAdjustment

def surplus (db : Db) : Cents := holdings db - endowment db

/-- Deposits whose external side is applied and whose exchange side is not. -/
def unsettledDeposits (db : Db) : Cents := Db.transferred db .deposit (· = .externalApplied)

/-- A ledger reason that neither opens an account nor adjusts a balance. -/
def Inner (reason : LedgerReason) : Prop := reason ≠ .accountOpened ∧ reason ≠ .adminAdjustment

end Columns

variable {settings : Settings} {allow : Special → Prop} {d d' : Desk} {db : Db}

section Writes

theorem surplus_post {playerUuid : String} {delta : Cents} {reason : LedgerReason}
    {reference : Option LedgerReference} (hc : CanPost db playerUuid delta) (hr : Inner reason) :
    surplus (Db.post db playerUuid delta reason reference) = surplus db + delta := by
  by_cases h : delta = 0
  · simp [h]
  · obtain ⟨a, ha, -⟩ := hc h
    have hsum := KeyedTable.sum_update (fun a => a.balanceCents)
      (fun a => { a with balanceCents := a.balanceCents + delta }) ha
    simp only [surplus, holdings, endowment, booked, Db.totalBalance, Db.post_accounts, Db.post_orders,
      Db.post_economyTransfers, Db.post_balanceLedger, h, if_false, Table.sum_insert, hsum, hr.1, hr.2]
    ring

private theorem surplus_addOrder (o : OrderRow) :
    surplus (Db.addOrder db o) = surplus db + o.reservedCents := by
  have hsum : (Db.addOrder db o).orders.sum (·.reservedCents) =
    db.orders.sum (·.reservedCents) + o.reservedCents := Table.sum_insert _ _ _
  have hrest : Db.totalBalance (Db.addOrder db o) = Db.totalBalance db ∧
    endowment (Db.addOrder db o) = endowment db := ⟨rfl, rfl⟩
  rw [surplus, holdings, hsum, hrest.1, hrest.2, surplus, holdings, Db.addOrder_economyTransfers]
  ring

theorem surplus_setOrder {id : Id} {o : OrderRow} (ho : db.orders.get? id = some o)
    (f : OrderRow → OrderRow) : surplus (Db.setOrder db id f) =
      surplus db + ((f o).reservedCents - o.reservedCents) := by
  have hsum : (Db.setOrder db id f).orders.sum (·.reservedCents) =
    db.orders.sum (·.reservedCents) + ((f o).reservedCents - o.reservedCents) :=
      Table.sum_update _ _ ho
  have hrest : Db.totalBalance (Db.setOrder db id f) = Db.totalBalance db ∧
    endowment (Db.setOrder db id f) = endowment db := ⟨rfl, rfl⟩
  rw [surplus, holdings, hsum, hrest.1, hrest.2, surplus, holdings, Db.setOrder_economyTransfers]
  ring

private theorem surplus_addTransfer (t : EconomyTransferRow) :
    surplus (Db.addTransfer db t) = surplus db + transferWeight t := by
  have hsum : (Db.addTransfer db t).economyTransfers.sum transferWeight =
    db.economyTransfers.sum transferWeight + transferWeight t := Table.sum_insert _ _ _
  have hrest : Db.totalBalance (Db.addTransfer db t) = Db.totalBalance db ∧
    endowment (Db.addTransfer db t) = endowment db := ⟨rfl, rfl⟩
  rw [surplus, holdings, hsum, hrest.1, hrest.2, surplus, holdings, Db.addTransfer_orders]
  ring

theorem surplus_setTransfer {id : Id} {t : EconomyTransferRow}
    (ht : db.economyTransfers.get? id = some t) (f : EconomyTransferRow → EconomyTransferRow) :
    surplus (Db.setTransfer db id f) = surplus db + (transferWeight (f t) - transferWeight t) := by
  have hsum : (Db.setTransfer db id f).economyTransfers.sum transferWeight =
    db.economyTransfers.sum transferWeight + (transferWeight (f t) - transferWeight t) :=
      Table.sum_update _ _ ht
  have hrest : Db.totalBalance (Db.setTransfer db id f) = Db.totalBalance db ∧
    endowment (Db.setTransfer db id f) = endowment db := ⟨rfl, rfl⟩
  rw [surplus, holdings, hsum, hrest.1, hrest.2, surplus, holdings, Db.setTransfer_orders]
  ring

/-- A ledger row that grants what it adds to a balance. -/
theorem surplus_grant {playerUuid : String} {delta : Cents} {reason : LedgerReason} {db' : Db}
    (hb : Db.totalBalance db' = Db.totalBalance db + delta) (ho : db'.orders = db.orders)
    (ht : db'.economyTransfers = db.economyTransfers) (hl : db'.balanceLedger = db.balanceLedger)
    (hr : reason = .accountOpened ∨ reason = .adminAdjustment) :
    surplus (Db.addLedger db' ⟨playerUuid, delta, reason, none⟩) = surplus db := by
  have hbalance : Db.totalBalance (Db.addLedger db' ⟨playerUuid, delta, reason, none⟩) =
    Db.totalBalance db' := rfl
  have hbooked : endowment (Db.addLedger db' ⟨playerUuid, delta, reason, none⟩) =
      endowment db + delta := by
    simp only [endowment, booked, Db.addLedger_balanceLedger, Table.sum_insert, hl]
    rcases hr with rfl | rfl <;> simp <;> ring
  simp only [surplus, holdings, hbalance, hbooked, hb, Db.addLedger_orders, ho,
    Db.addLedger_economyTransfers, ht]
  ring

end Writes

section Steps

/-- What the buyer gains, gives up in reserve and the seller gets cancel out. -/
theorem trade_balances {buy : OrderRow} (hside : buy.side = .buy) (price : Cents) (q : ℤ) :
    buyerDelta buy price q - unitReserve buy * q + price * q = 0 := by
  cases ht : buy.orderType with
  | limit =>
    simp only [buyerDelta, unitReserve, hside, ht, and_self, if_true]
    ring
  | market => simp [buyerDelta, unitReserve, ht]

private theorem surplus_settleTrade {taker : Option Id} {t : TradeRow} {buy sell : OrderRow}
    (h : Settles db taker t buy sell) : surplus (Db.settleTrade db t buy) = surplus db := by
  have hbuyer : Inner (buyerReason buy) := by
    unfold buyerReason
    split_ifs <;> exact ⟨by decide, by decide⟩
  have hpaid := (@surplus_post _ _ _ _ (some (.order t.buyOrderId))) h.buyer hbuyer
  generalize hdb₁ : Db.post db t.buyerUuid (buyerDelta buy t.priceCents t.quantity) (buyerReason buy)
    (some (.order t.buyOrderId)) = db₁ at hpaid
  have hrow₁ : db₁.orders.get? t.buyOrderId = some buy := hdb₁ ▸ h.buyOrder.row
  have hrow₂ : (Db.setOrder db₁ t.buyOrderId (traded t.quantity)).orders.get? t.sellOrderId = some sell := by
    rw [Db.setOrder_orders, Table.get?_update_ne _ _ (trade_orders_ne h).symm, ← hdb₁]
    exact h.sellOrder.row
  have hbought := surplus_setOrder hrow₁ (traded t.quantity)
  have hsold := surplus_setOrder hrow₂ (traded t.quantity)
  have hseller : CanPost db₁ t.sellerUuid (t.priceCents * t.quantity) := by
    rw [← hdb₁]
    exact CanPost.posted h.seller (mul_nonneg h.price_pos.le h.quantity_pos.le)
  have hproceeds := @surplus_post (Db.setOrder (Db.setOrder db₁ t.buyOrderId (traded t.quantity)) t.sellOrderId
    (traded t.quantity)) _ _ .tradeProceeds (some (.order t.sellOrderId)) hseller ⟨by decide, by decide⟩
  have hsettled : surplus (Db.settleTrade db t buy) = surplus (Db.post (Db.setOrder (Db.setOrder db₁
      t.buyOrderId (traded t.quantity)) t.sellOrderId (traded t.quantity)) t.sellerUuid
        (t.priceCents * t.quantity) .tradeProceeds (some (.order t.sellOrderId))) := by
    rw [← hdb₁]
    rfl
  have hbuy : (traded t.quantity buy).reservedCents = buy.reservedCents - unitReserve buy * t.quantity := rfl
  have hsell : (traded t.quantity sell).reservedCents = sell.reservedCents := by
    simp [traded, unitReserve, h.sides.2]
  rw [hsettled, hproceeds, hsold, hbought, hpaid, hbuy, hsell]
  linarith [trade_balances h.sides.1 t.priceCents t.quantity]

private theorem surplus_step (h : Step settings allow d d') (hI : Reconciled d) :
    surplus d'.db = surplus d.db := by
  cases h with
  | @openAccount db playerUuid playerName h =>
    exact (@surplus_grant db _ _ _ (Db.addAccount db playerUuid _))
      (KeyedTable.sum_insert _ _ h) rfl rfl rfl (.inl rfl)
  | @renameAccount db playerUuid playerName =>
    have hbalance : Db.totalBalance (Db.setAccount db playerUuid fun a => { a with playerName }) =
      Db.totalBalance db := KeyedTable.sum_update_of_eq _ _ _ _ fun _ => rfl
    simp only [surplus, holdings, hbalance, Db.setAccount_orders, Db.setAccount_economyTransfers]
    rfl
  | @adjustBalance db playerUuid delta ha a h hd =>
    refine (@surplus_grant db _ _ _ (Db.setAccount db playerUuid _)) ?_ rfl rfl rfl (.inr rfl)
    rw [Db.totalBalance, Db.setAccount_accounts, KeyedTable.sum_update _ _ h, Db.totalBalance]
    ring
  | @openOrder db o m hm hs hq hr hp hv hc =>
    have hpost := @surplus_post (Db.addOrder db o) _ _ .buyOrderReserve
      (some (.order db.orders.nextId)) hc ⟨by decide, by decide⟩
    rw [surplus_addOrder] at hpost
    exact hpost.trans (by ring)
  | settleTrade h => exact surplus_settleTrade h
  | @closeMarket db orderId o h ht =>
    have hset := (@surplus_setOrder (Db.deliver db o.playerUuid o.marketId
      (if o.side = .buy then 0 else o.remainingQty) .marketRemainder)) h stoppedOrder
    have hsame : (stoppedOrder o).reservedCents = o.reservedCents := rfl
    rw [hsame, sub_self, add_zero] at hset
    exact hset
  | @withdraw db orderId o refund returned h hr hf hd ha =>
    have hres := (hI.orders orderId o h).reserve
    have hrefund : (if o.side = .buy then o.reservedCents else 0) = o.reservedCents := by
      split_ifs with hside
      · rfl
      · simp [hres, unitReserve, hside]
    have hinner : Inner refund := by rcases hf with rfl | rfl <;> exact ⟨by decide, by decide⟩
    have hcan : CanPost db o.playerUuid (if o.side = .buy then o.reservedCents else 0) := by
      split_ifs with hside
      · exact ha hside
      · exact fun h0 => absurd rfl h0
    have hpost := (@surplus_post _ _ _ _ (some (.order orderId))) hcan hinner
    have hset := (@surplus_setOrder (Db.deliver (Db.post db o.playerUuid
      (if o.side = .buy then o.reservedCents else 0) refund (some (.order orderId))) o.playerUuid o.marketId
      (if o.side = .buy then 0 else o.remainingQty) returned)) h canceledOrder
    have hzero : (canceledOrder o).reservedCents = 0 := rfl
    refine hset.trans ?_
    rw [hzero, zero_sub]
    refine (congrArg (· + -o.reservedCents) hpost).trans ?_
    simp only [hrefund]
    ring
  | @prepareTransfer db t hs hq ha =>
    have hcan : CanPost (Db.addTransfer db t) t.playerUuid
        (if t.direction = .withdraw then -t.amountCents else 0) := by
      split_ifs with hw
      · exact ha hw
      · exact fun h0 => absurd rfl h0
    refine (surplus_post hcan ⟨by decide, by decide⟩).trans ?_
    rw [surplus_addTransfer]
    cases hdir : t.direction <;> simp [transferWeight, hdir, hs]
  | @switchTransfer db transferId t s f h ht hs hf =>
    refine (surplus_setTransfer h f).trans ?_
    obtain ⟨hstatus, hdir, hamount, -⟩ := hf
    have hsame : transferWeight (f t) = transferWeight t := by
      rcases hs with rfl | rfl | rfl <;> simp [transferWeight, hstatus, hdir, hamount, ht]
    rw [hsame, sub_self, add_zero]
  | @completeTransfer db transferId t h hs ha =>
    have hcan : CanPost db t.playerUuid (if t.direction = .deposit then t.amountCents else 0) := by
      split_ifs with hdep
      · exact ha hdep
      · exact fun h0 => absurd rfl h0
    have hpost := (@surplus_post _ _ _ .umoneyDeposit (some (.economyTransfer transferId)))
      hcan ⟨by decide, by decide⟩
    refine ((@surplus_setTransfer (Db.post db t.playerUuid _ _ _)) h _).trans ?_
    rw [hpost]
    cases hdir : t.direction <;> simp [transferWeight, hdir, hs]
  | @failTransfer db transferId t error h hs ha =>
    have hcan : CanPost db t.playerUuid (if t.direction = .withdraw then t.amountCents else 0) := by
      split_ifs with hw
      · exact ha hw
      · exact fun h0 => absurd rfl h0
    have hpost := @surplus_post _ _ _ .umoneyWithdrawRefund
      (some (.economyTransfer transferId)) hcan ⟨by decide, by decide⟩
    refine ((@surplus_setTransfer (Db.post db t.playerUuid _ _ _)) h _).trans ?_
    rw [hpost]
    cases hdir : t.direction <;> simp [transferWeight, hdir, hs]
  | @payFrame db buyer seller price listingId hb hs =>
    have hpaid := (@surplus_post _ _ _ .framePurchase (some (.frameListing listingId)))
      hb ⟨by decide, by decide⟩
    refine (surplus_post hs ⟨by decide, by decide⟩).trans ?_
    rw [hpaid]
    ring
  | _ => rfl

end Steps
section Grants

theorem post_row {playerUuid : String} {delta : Cents} {reason : LedgerReason}
    {reference : Option LedgerReference} {i : Id} {l : LedgerRow}
    (h : (Db.post db playerUuid delta reason reference).balanceLedger.get? i = some l) :
    db.balanceLedger.get? i = some l ∨ l.reason = reason := by
  by_cases h0 : delta = 0
  · rw [h0, Db.post_zero] at h
    exact .inl h
  · rw [Db.post_eq db playerUuid reason reference h0] at h
    rcases Table.get?_insert_cases h with ⟨-, rfl⟩ | ⟨-, h⟩
    · exact .inr rfl
    · exact .inl h

/-- Where the ledger rows of a step come from. -/
theorem ledger_row (h : Step settings allow d d') {i : Id} {l : LedgerRow}
    (hl : d'.db.balanceLedger.get? i = some l) : d.db.balanceLedger.get? i = some l ∨ Inner l.reason ∨
      (l.reason = .accountOpened ∧ l.deltaCents = settings.initialBalanceCents) ∨
      (l.reason = .adminAdjustment ∧ allow .adjustBalance) := by
  have hinner : ∀ {db : Db} {reason : LedgerReason}, Inner reason →
      db.balanceLedger.get? i = some l ∨ l.reason = reason → db.balanceLedger.get? i = some l ∨
        Inner l.reason ∨ (l.reason = .accountOpened ∧ l.deltaCents = settings.initialBalanceCents) ∨
          (l.reason = .adminAdjustment ∧ allow .adjustBalance) := by
    intro db reason hr h
    refine h.imp_right fun he => .inl ?_
    rwa [he]
  cases h with
  | openAccount =>
    rcases Table.get?_insert_cases hl with ⟨-, rfl⟩ | ⟨-, hl⟩
    · exact .inr (.inr (.inl ⟨rfl, rfl⟩))
    · exact .inl hl
  | adjustBalance ha =>
    rcases Table.get?_insert_cases hl with ⟨-, rfl⟩ | ⟨-, hl⟩
    · exact .inr (.inr (.inr ⟨rfl, ha⟩))
    · exact .inl hl
  | @openOrder db o => exact hinner ⟨by decide, by decide⟩ ((@post_row (Db.addOrder db o)) hl)
  | @settleTrade db taker t buy sell h =>
    have hbuyer : Inner (buyerReason buy) := by
      unfold buyerReason
      split_ifs <;> exact ⟨by decide, by decide⟩
    have hproceeds : Inner .tradeProceeds := ⟨by decide, by decide⟩
    rcases post_row hl with hl | hl
    · exact hinner hbuyer (post_row hl)
    · exact .inr (.inl (hl ▸ hproceeds))
  | @withdraw db orderId o refund returned h hr hf =>
    have hrefund : Inner refund := by rcases hf with rfl | rfl <;> exact ⟨by decide, by decide⟩
    exact hinner hrefund (post_row hl)
  | @prepareTransfer db t => exact hinner ⟨by decide, by decide⟩ ((@post_row (Db.addTransfer db t)) hl)
  | completeTransfer => exact hinner ⟨by decide, by decide⟩ (post_row hl)
  | failTransfer => exact hinner ⟨by decide, by decide⟩ (post_row hl)
  | payFrame =>
    have hsale : Inner .frameSale := ⟨by decide, by decide⟩
    rcases post_row hl with hl | hl
    · exact hinner ⟨by decide, by decide⟩ (post_row hl)
    · exact .inr (.inl (hl ▸ hsale))
  | _ => exact .inl hl

/-- The amounts of all transfers are positive. -/
def TransfersPositive (db : Db) : Prop :=
  ∀ i t, db.economyTransfers.get? i = some t → 0 < t.amountCents

private theorem transfersPositive_step (h : Step settings allow d d') (hI : TransfersPositive d.db) :
    TransfersPositive d'.db := by
  have hset : ∀ {db : Db} {id : Id} {f : EconomyTransferRow → EconomyTransferRow},
      TransfersPositive db → (∀ t, db.economyTransfers.get? id = some t → 0 < (f t).amountCents) →
        TransfersPositive (Db.setTransfer db id f) := by
    intro db id f hI hf i t ht
    rcases Table.get?_update_cases ht with ⟨-, t', ht', rfl⟩ | ⟨-, ht'⟩
    · exact hf t' ht'
    · exact hI i t ht'
  cases h with
  | prepareTransfer hs hq =>
    intro i t ht
    rcases Table.get?_insert_cases ht with ⟨-, rfl⟩ | ⟨-, ht⟩
    · exact hq
    · exact hI i t ht
  | switchTransfer h ht hs hf =>
    refine hset hI fun t' ht' => ?_
    obtain rfl := Option.some.inj (ht'.symm.trans h)
    exact hf.2.2.1 ▸ hI _ _ h
  | completeTransfer => exact hset hI fun t ht => hI _ t ht
  | failTransfer => exact hset hI fun t ht => hI _ t ht
  | _ => exact hI

end Grants

section Backing

/-- Between calls only live orders hold a reserve. -/
theorem openReserves_eq (hI : Reconciled ⟨db, none⟩) :
    Db.openReserves db = db.orders.sum (·.reservedCents) := by
  refine Table.sum_congr fun id o ho => ?_
  split_ifs with hlive
  · rfl
  · have hb := hI.orders id o ho
    by_cases ht : o.orderType = .limit ∧ o.status ≠ .canceled
    · obtain ⟨-, hstatus⟩ := hb.accounted (.inl ht)
      have hzero : o.remainingQty = 0 := by
        by_contra hne
        rw [hstatus, orderStatus, if_neg hne] at hlive
        split_ifs at hlive <;> simp at hlive
      simp [hb.reserve, hzero]
    · have hzero := (hb.finished fun h => h.elim ht fun h => by simp at h).1
      simp [hb.reserve, hzero]

private theorem transferred_eq : Db.transferred db .withdraw (fun s => s = .prepared ∨ s = .blocked) +
    Db.transferred db .withdraw (fun s => s = .externalApplied ∨ s = .completed) +
    unsettledDeposits db = db.economyTransfers.sum transferWeight +
      Db.transferred db .deposit (fun s => s = .externalApplied ∨ s = .completed) := by
  simp only [unsettledDeposits, Db.transferred, ← Table.sum_add]
  refine Table.sum_congr fun i t _ => ?_
  cases hdir : t.direction <;> cases hs : t.status <;> simp [transferWeight, hdir, hs]

private theorem surplus_eq_zero (h : Reachable settings db) : surplus db = 0 := by
  have hI : Reconciled ⟨db, none⟩ ∧ surplus db = 0 := by
    refine h.induct (I := fun d => Reconciled d ∧ surplus d.db = 0) ⟨?_, rfl⟩ fun hs hI =>
      ⟨reconciled_step hs hI.1, (surplus_step hs hI.1).trans hI.2⟩
    exact reachable_reconciled ⟨[], (@Run.start settings)⟩
  exact hI.2

/-- What was granted less the deposits that are still on their way. -/
def backingDeficit (db : Db) : Cents :=
  booked db .accountOpened + booked db .adminAdjustment - unsettledDeposits db

private theorem unbacked_eq (h : Reachable settings db) : Db.unbacked db = backingDeficit db := by
  have hzero := surplus_eq_zero h
  have htransfers := (@transferred_eq db)
  simp only [surplus, holdings, endowment] at hzero
  rw [Db.unbacked, backingDeficit, openReserves_eq (reachable_reconciled h)]
  linarith

/-- The deficit is returned as 64 bits. -/
theorem economyBackingDeficit_eq (h : Reachable settings db) :
    economyBackingDeficit db = (cellInt64 (backingDeficit db)).map (·, db) := by
  rw [← unbacked_eq h]
  change (Except.bind (cellInt64 (Db.unbacked db)) fun c => Except.ok (c, db)) = _
  cases cellInt64 (Db.unbacked db) <;> rfl

/-- Without an opening balance and without adjustments nothing was ever granted. -/
theorem endowment_eq_zero {history : List Event} (h : Run settings history db)
    (h0 : settings.initialBalanceCents = 0)
    (hno : ∀ e ∈ history, ¬ e.call.Allows .adjustBalance) : endowment db = 0 := by
  have hI := @Run.induct settings (· ≠ .adjustBalance) _ _ (fun d => ∀ i l,
    d.db.balanceLedger.get? i = some l → (l.reason = .accountOpened → l.deltaCents = 0) ∧
      l.reason ≠ .adminAdjustment) (fun i l hl => by simp at hl) (fun hs hI i l hl => ?_) h
    (fun e he s hs heq => hno e he (heq ▸ hs))
  · rw [endowment, booked, booked, Table.sum_eq_zero fun i l hl => ?_,
      Table.sum_eq_zero fun i l hl => if_neg (hI i l hl).2, add_zero]
    split_ifs with hr
    · exact (hI i l hl).1 hr
    · rfl
  · rcases ledger_row hs hl with hold | hinner | ⟨hr, hd⟩ | ⟨-, ha⟩
    · exact hI i l hold
    · exact ⟨fun hr => absurd hr hinner.1, hinner.2⟩
    · exact ⟨fun _ => hd.trans h0, by simp [hr]⟩
    · exact absurd rfl ha

private theorem unsettledDeposits_nonneg (h : Reachable settings db) : 0 ≤ unsettledDeposits db := by
  have hI := h.induct (I := fun d => TransfersPositive d.db) (fun i t ht => by simp at ht)
    transfersPositive_step
  refine Table.sum_nonneg fun i t ht => ?_
  split_ifs
  · exact (hI i t ht).le
  · exact le_rfl

/-- A start in UMoney mode with a covered exchange only fails with the database. -/
theorem checkBacking_raises {c : Cents} (hc : c ≤ 0) (hd : economyBackingDeficit db = (cellInt64 c).map (·, db))
    (faults : List Fault) {e : Error} (he : (checkBacking faults db).1 = .threw e) :
    e = .database "lost connection to MySQL server" ∨ c < -maxCents - 1 ∧ e = .runtime "stoll" := by
  have hrun : Triple (· = db) checkBacking (fun _ _ => True) (fun e _ =>
      e = .database "lost connection to MySQL server" ∨ c < -maxCents - 1 ∧ e = .runtime "stoll")
      (fun _ => True) := by
    refine Triple.bind (R := fun c _ => c ≤ 0) ?_ fun c => Triple.of_forall fun s hc => ?_
    · refine Triple.atomic (fun _ _ => trivial) (fun _ _ => .inl rfl) (fun s a s' hs hok => ?_)
        fun s e hs herr => ?_
      · rw [hs, hd, cellInt64] at hok
        split_ifs at hok
        · cases hok
        · obtain ⟨rfl, -⟩ := Prod.mk.inj (Except.ok.inj hok)
          exact ⟨hc, .inl rfl⟩
      · rw [hs, hd, cellInt64] at herr
        split_ifs at herr with hrange
        · have hlow : ¬ c > maxCents := not_lt.mpr (hc.trans (by decide))
          exact .inr ⟨hrange.resolve_right hlow, (Except.error.inj herr).symm⟩
        · cases herr
    · rw [if_neg (not_lt.mpr hc)]
      exact Triple.pure fun _ _ => trivial
  have hx := hrun faults db rfl
  simpa only [Ends, he] using hx

end Backing

/-- The backing deficit is what was granted less the deposits that are still on their way, where it
has 64 bits. Without grants UMoney mode never refuses to start. -/
theorem money_conserved {history : List Event} (h : Run settings history db) :
    (-maxCents - 1 ≤ backingDeficit db → backingDeficit db ≤ maxCents →
      economyBackingDeficit db = .ok (backingDeficit db, db)) ∧
    (backingDeficit db < -maxCents - 1 ∨ backingDeficit db > maxCents →
      economyBackingDeficit db = .error (.runtime "stoll")) ∧
    (settings.initialBalanceCents = 0 →
      (∀ e ∈ history, ∀ uuid name delta, e.call ≠ .addBalance uuid name delta) →
      backingDeficit db ≤ 0 ∧ ∀ faults e, (checkBacking faults db).1 = .threw e →
        e = .database "lost connection to MySQL server" ∨
          backingDeficit db < -maxCents - 1 ∧ e = .runtime "stoll") := by
  have hdeficit := economyBackingDeficit_eq ⟨history, h⟩
  refine ⟨fun hlow hhigh => ?_, fun hrange => ?_, fun h0 hno => ?_⟩
  · rw [hdeficit, cellInt64_of_fits hlow hhigh]
    rfl
  · rw [hdeficit, cellInt64_out_of_range hrange]
    rfl
  · have hgranted : endowment db = 0 := by
      refine endowment_eq_zero h h0 fun e he ha => ?_
      cases hcall : e.call <;> simp only [hcall, Call.Allows] at ha
      exact hno e he _ _ _ hcall
    have hle : backingDeficit db ≤ 0 := by
      have hnn := unsettledDeposits_nonneg ⟨history, h⟩
      unfold endowment at hgranted
      unfold backingDeficit
      linarith
    exact ⟨hle, fun faults e => checkBacking_raises hle hdeficit faults⟩

/-- A deposit that the exchange has yet to book. -/
theorem money_conserved_deposit :
    let db := afterCalls umoneySettings [.prepareEconomyTransfer "alice" "Alice" .deposit 500 5 (some 90),
      .markEconomyTransferExternalApplied 1 85]
    economyBackingDeficit db = .ok (-500, db) ∧
      ∀ e, (checkBacking [.failAfter] db).1 = .threw e →
        e = .database "lost connection to MySQL server" ∨ (-500 : Cents) < -maxCents - 1 ∧ e = .runtime "stoll" := by
  intro db
  obtain ⟨history, h, hcalls⟩ := run_afterCalls umoneySettings
    [.prepareEconomyTransfer "alice" "Alice" .deposit 500 5 (some 90),
      .markEconomyTransferExternalApplied 1 85]
  obtain ⟨hdeficit, -, hstart⟩ := money_conserved h
  have hno : ∀ e ∈ history, ∀ uuid name delta, e.call ≠ .addBalance uuid name delta := by
    intro e he uuid name delta heq
    have hmem := List.mem_map_of_mem (f := Event.call) he
    rw [hcalls, heq] at hmem
    simp at hmem
  exact ⟨hdeficit (by decide) (by decide), (hstart rfl hno).2 [.failAfter]⟩

def richDb : Db := afterCalls umoneySettings [.addBalance "alice" "Alice" maxCents, .addBalance "bob" "Bob" maxCents]

/-- Two deposits whose external side is applied; the amount of each has 64 bits. -/
def depositedDb : Db := afterCalls umoneySettings
  [.prepareEconomyTransfer "alice" "Alice" .deposit 9223372036854775800 92233720368547758 (some 92233720368547758),
    .markEconomyTransferExternalApplied 1 0,
    .prepareEconomyTransfer "bob" "Bob" .deposit 9223372036854775800 92233720368547758 (some 92233720368547758),
    .markEconomyTransferExternalApplied 2 0]

/-- Amounts of 64 bits whose sum has more: the deficit is not returned, and UMoney mode does not start. -/
theorem deficit_out_of_range :
    (Reachable umoneySettings richDb ∧ backingDeficit richDb = 2 * maxCents ∧
      economyBackingDeficit richDb = .error (.runtime "stoll")) ∧
    Reachable umoneySettings depositedDb ∧ backingDeficit depositedDb = -18446744073709551600 ∧
      (checkBacking [] depositedDb).1 = .threw (.runtime "stoll") :=
  ⟨⟨reachable_afterCalls _ _, rfl, rfl⟩, reachable_afterCalls _ _, rfl, rfl⟩

end EndstoneExchange.MoneyConservation
