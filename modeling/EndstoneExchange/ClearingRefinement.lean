import EndstoneExchange.FrameListingOperations
import EndstoneExchange.MatchingRefinement

/-!
# Every transaction is a sequence of clearing steps

One lemma for each transaction of the service. The steps that not every result
tolerates are allowed by hypothesis.
-/
namespace EndstoneExchange.ClearingRefinement
open AutoIncrementTables KeyedTables AtomicTransactions.Transaction ExchangeDomain ExchangeTransactions
  AccountOperations MarketOperations OrderMatching DeliveryOperations SellEscrowOperations
  EconomyTransferOperations FrameListingOperations ClearingSteps MatchingRefinement Relation

variable {settings : Settings} {allow : Special → Prop} {db db' : Db}

section Accounts

theorem ensureAccountTx_steps {playerUuid playerName : String} {u : PUnit}
    (h : ensureAccountTx settings playerUuid playerName db = .ok (u, db')) :
    Steps settings allow ⟨db, none⟩ ⟨db', none⟩ := by
  obtain ⟨-, rfl⟩ := Prod.mk.inj (ensureAccountTx_ok.mp h)
  cases hf : db.accounts.find? playerUuid with
  | none =>
    simp only [Db.ensured, hf]
    exact .single (.openAccount playerUuid playerName hf)
  | some a =>
    simp only [Db.ensured, hf]
    exact .single (.renameAccount playerUuid playerName)

theorem addBalanceTx_steps {playerUuid : String} {delta r : Cents} (ha : allow .adjustBalance)
    (h : addBalanceTx playerUuid delta db = .ok (r, db')) :
    Steps settings allow ⟨db, none⟩ ⟨db', none⟩ := by
  obtain ⟨a, hf, h0, -, hr⟩ := addBalanceTx_ok.mp h
  obtain ⟨-, rfl⟩ := Prod.mk.inj hr
  exact .single (.adjustBalance ha hf h0)

end Accounts

section Markets

theorem bindTarget_ok {targetKey : String} {marketId : Id} {u : PUnit}
    (h : bindTarget targetKey marketId db = .ok (u, db')) :
    db' = Db.setBindings db (db.targetBindings.insert targetKey marketId) := by
  simp only [bindTarget, bind_ok, select_ok, throwIf_ok, execute_ok, exists_eq_left', and_assoc,
    exists_and_left] at h
  exact ((Prod.mk.inj h.2).2).symm

private theorem upsertBook_steps {item : ItemPrototype} {id : Id} (hs : allow .changeMarkets)
    (h : upsertBook settings item db = .ok (id, db')) : Steps settings allow ⟨db, none⟩ ⟨db', none⟩ := by
  simp only [upsertBook, bind_ok, select_ok, exists_eq_left'] at h
  cases hf : findBook db (itemHash settings item) with
  | some i =>
    simp only [hf, pure_ok] at h
    obtain ⟨-, rfl⟩ := Prod.mk.inj h
    exact .refl
  | none =>
    simp only [hf, bind_ok, select_ok, execute_ok, pure_ok, exists_eq_left'] at h
    obtain ⟨-, rfl⟩ := Prod.mk.inj h
    exact .single (.openBook _ hs)

theorem activateMarketTx_steps {market : Market} {r : Id × Bool} (hs : allow .changeMarkets)
    (h : activateMarketTx settings market db = .ok (r, db')) :
    Steps settings allow ⟨db, none⟩ ⟨db', none⟩ := by
  simp only [activateMarketTx, bind_ok, select_ok, selectOne_ok, throwIf_ok, exists_eq_left',
    exists_and_left, exists_exists_and_eq_and, and_assoc, not_or, not_not] at h
  obtain ⟨-, ⟨bookId, db₁⟩, hbook, book, hget, htype, hdata, hnbt, hrest⟩ := h
  have hsteps := (@upsertBook_steps _ allow) hs hbook
  cases hres : resumableMarket db₁ market bookId with
  | some i =>
    simp only [hres, switchMarket, bind_ok, execute_ok, pure_ok, exists_eq_left'] at hrest
    obtain ⟨⟨u, db₂⟩, hbind, hr⟩ := hrest
    obtain ⟨-, rfl⟩ := Prod.mk.inj hr
    rw [bindTarget_ok hbind]
    exact (hsteps.tail (.switchMarket i true false (by simp) hs)).tail (.rebind _ hs)
  | none =>
    simp only [hres, bind_ok, select_ok, execute_ok, pure_ok, exists_eq_left'] at hrest
    obtain ⟨⟨u, db₂⟩, hbind, hr⟩ := hrest
    obtain ⟨-, rfl⟩ := Prod.mk.inj hr
    rw [bindTarget_ok hbind]
    exact (hsteps.tail (.openMarket hget ⟨htype, hdata, hnbt⟩ rfl hs)).tail (.rebind _ hs)

theorem closeMarketTx_steps {marketId : Id} {u : PUnit} (hs : allow .changeMarkets)
    (h : closeMarketTx marketId db = .ok (u, db')) : Steps settings allow ⟨db, none⟩ ⟨db', none⟩ := by
  simp only [closeMarketTx, bind_ok, selectOne_ok, ite_ok, execute_ok, select_ok, throwIf_ok, switchMarket,
    unbindTarget, exists_eq_left', exists_and_left, exists_exists_and_eq_and, and_assoc] at h
  obtain ⟨market, hm, ⟨-, hr⟩ | ⟨-, -, hr⟩⟩ := h
  · obtain ⟨-, rfl⟩ := Prod.mk.inj hr
    exact .single (.rebind _ hs)
  · obtain ⟨-, rfl⟩ := Prod.mk.inj hr
    exact (ReflTransGen.single (.rebind _ hs)).tail (.switchMarket marketId false true (by simp) hs)

/-- A withdrawn order, in the order's own database state. -/
theorem withdrawOrder_step {orderId : Id} {o : OrderRow} {refund : LedgerReason}
    {returned : DeliveryReason} {u : PUnit} (h : withdrawOrder orderId o refund returned db = .ok (u, db'))
    (ho : db.orders.get? orderId = some o) (hr : o.Resting)
    (hf : refund = .orderCancelRefund ∨ refund = .marketCloseRefund)
    (hd : returned = .orderCanceled ∨ returned = .marketClosed) :
    Step settings allow ⟨db, none⟩ ⟨db', none⟩ ∧ db'.orders = db.orders.update orderId canceledOrder := by
  have hgoal : db' = Db.withdraw db orderId o refund returned ∧
      (o.side = .buy → CanPost db o.playerUuid o.reservedCents) := by
    simp only [withdrawOrder, updateOrder, ite_ok, bind_ok, credit_ok, addDelivery_ok, execute_ok, and_assoc,
      exists_and_left, exists_eq_left'] at h
    rcases h with ⟨hb, hc, h⟩ | ⟨hs, ⟨hq, h⟩ | ⟨hq, h⟩⟩
    · obtain ⟨-, rfl⟩ := Prod.mk.inj h
      refine ⟨?_, fun _ => Creditable.canPost hc⟩
      simp only [Db.withdraw, hb, if_true, Db.deliver, le_refl]
      rfl
    · obtain ⟨-, rfl⟩ := Prod.mk.inj h
      refine ⟨?_, fun hb => absurd hb hs⟩
      simp only [Db.withdraw, hs, if_false, Db.post_zero]
      rfl
    · obtain ⟨-, rfl⟩ := Prod.mk.inj h
      refine ⟨?_, fun hb => absurd hb hs⟩
      simp only [Db.withdraw, hs, if_false, Db.post_zero, Db.deliver, not_lt.mp hq, if_true]
      rfl
  obtain ⟨rfl, hc⟩ := hgoal
  exact ⟨.withdraw ho hr hf hd hc, rfl⟩

theorem closeOrders_steps {es : List (Id × OrderRow)} {u : PUnit}
    (h : closeOrders es db = .ok (u, db')) (hkeys : (es.map Prod.fst).Nodup)
    (hes : ∀ e ∈ es, db.orders.get? e.1 = some e.2 ∧ e.2.Resting) :
    Steps settings allow ⟨db, none⟩ ⟨db', none⟩ := by
  induction es generalizing db with
  | nil =>
    obtain ⟨-, rfl⟩ := Prod.mk.inj (pure_ok.mp h)
    exact .refl
  | cons e es ih =>
    obtain ⟨orderId, o⟩ := e
    simp only [closeOrders, bind_ok] at h
    obtain ⟨⟨u₁, db₁⟩, hw, hrest⟩ := h
    simp only [List.map_cons, List.nodup_cons] at hkeys
    obtain ⟨ho, hr⟩ := hes _ (List.mem_cons_self ..)
    obtain ⟨hstep, horders⟩ := (@withdrawOrder_step settings allow) hw ho hr
      (.inr rfl) (.inr rfl)
    refine (ih hrest hkeys.2 fun e he => ?_).head hstep
    have hne : e.1 ≠ orderId := fun heq => hkeys.1 (heq ▸ List.mem_map_of_mem he)
    rw [horders, Table.get?_update_ne _ _ hne]
    exact hes e (List.mem_cons_of_mem _ he)

theorem marketOrders_spec {marketId : Id} :
    ((marketOrders marketId db).map Prod.fst).Nodup ∧
      ∀ e ∈ marketOrders marketId db, db.orders.get? e.1 = some e.2 ∧ e.2.Resting := by
  refine ⟨List.Nodup.sublist (List.filter_sublist.map _) ?_, fun e he => ?_⟩
  · exact (List.pairwise_map.mpr (Table.entries_sorted _)).imp fun hlt => hlt.ne
  · simp only [marketOrders, List.mem_filter, decide_eq_true_eq] at he
    exact ⟨Table.mem_entries.mp he.1, he.2.2⟩

theorem retireMarketTx_steps {marketId : Id} {u : PUnit} (ha : allow (.retireMarket marketId))
    (hs : allow .changeMarkets) (h : retireMarketTx marketId db = .ok (u, db')) :
    Steps settings allow ⟨db, none⟩ ⟨db', none⟩ := by
  simp only [retireMarketTx, bind_ok, selectOne_ok, execute_ok, select_ok, throwIf_ok, switchMarket,
    unbindTarget, exists_eq_left', exists_and_left, exists_exists_and_eq_and, and_assoc] at h
  obtain ⟨_, -, _, -, market, -, -, ⟨u₁, db₁⟩, hclose, -, hr⟩ := h
  obtain ⟨-, rfl⟩ := Prod.mk.inj hr
  have hsteps := (@closeOrders_steps settings allow) hclose marketOrders_spec.1
    marketOrders_spec.2
  exact (hsteps.tail (.rebind _ hs)).tail (.switchMarket marketId false false (fun _ _ => ha) hs)

end Markets

section Orders

theorem cancelOrderTx_steps {orderId : Id} {playerUuid : String} {administrator : Bool} {u : PUnit}
    (h : cancelOrderTx orderId playerUuid administrator db = .ok (u, db')) :
    Steps settings allow ⟨db, none⟩ ⟨db', none⟩ := by
  simp only [cancelOrderTx, bind_ok, selectOne_ok, throwIf_ok, exists_eq_left', exists_and_left,
    exists_exists_and_eq_and, and_assoc, not_not] at h
  obtain ⟨o, ho, -, hr, hw⟩ := h
  exact .single (withdrawOrder_step hw ho hr (.inl rfl) (.inl rfl)).1

end Orders

section Deliveries

theorem prepareDeliveryClaimTx_steps {deliveryId : Id} {playerUuid : String} {quantity : ℤ}
    {c : DeliveryClaim} (hq : 0 < quantity)
    (h : prepareDeliveryClaimTx deliveryId playerUuid quantity db = .ok (c, db')) :
    Steps settings allow ⟨db, none⟩ ⟨db', none⟩ := by
  simp only [prepareDeliveryClaimTx, bind_ok, selectOne_ok, select_ok, throwIf_ok, execute_ok, pure_ok,
    exists_eq_left', exists_and_left, exists_exists_and_eq_and, and_assoc, not_not, not_le] at h
  obtain ⟨d, hd, item, -, rfl, havail, hr⟩ := h
  obtain ⟨-, rfl⟩ := Prod.mk.inj hr
  exact .single (.prepareClaim hd (lt_min hq havail) (by omega))

theorem completeDeliveryClaimTx_steps {claimId : Id} {q : ℤ} {u : PUnit} (hq : 0 ≤ q)
    (h : completeDeliveryClaimTx claimId q db = .ok (u, db')) :
    Steps settings allow ⟨db, none⟩ ⟨db', none⟩ := by
  simp only [completeDeliveryClaimTx, bind_ok, selectOne_ok, ite_ok, throwIf_ok, execute_ok,
    exists_eq_left', exists_and_left, exists_exists_and_eq_and, and_assoc, not_not] at h
  obtain ⟨c, hc, ⟨-, -, hr⟩ | ⟨hs, hle, d, hd, -, hr⟩⟩ := h
  · obtain ⟨-, rfl⟩ := Prod.mk.inj hr
    exact .refl
  · obtain ⟨-, rfl⟩ := Prod.mk.inj hr
    exact .single (.settleClaim hc hs hd hq (not_lt.mp hle))

theorem markDeliveryClaimCleanedTx_steps {claimId : Id} {u : PUnit}
    (h : markDeliveryClaimCleanedTx claimId db = .ok (u, db')) :
    Steps settings allow ⟨db, none⟩ ⟨db', none⟩ := by
  simp only [markDeliveryClaimCleanedTx, bind_ok, selectOne_ok, throwIf_ok, execute_ok,
    exists_eq_left', exists_and_left, exists_exists_and_eq_and, and_assoc, not_not] at h
  obtain ⟨c, hc, hs, hr⟩ := h
  obtain ⟨-, rfl⟩ := Prod.mk.inj hr
  exact .single (.cleanClaim hc hs)

end Deliveries

section SellEscrows

/-- Escrows ask for orders that can be placed. -/
def EscrowsPlaceable (db : Db) : Prop :=
  ∀ i e, db.sellEscrows.get? i = some e → Placeable (escrowRequest e)

theorem prepareSellEscrowTx_steps {request : OrderRequest} {e : SellEscrow} (hv : Placeable request)
    (h : prepareSellEscrowTx request db = .ok (e, db')) : Steps settings allow ⟨db, none⟩ ⟨db', none⟩ := by
  simp only [prepareSellEscrowTx, bind_ok, selectOne_ok, select_ok, throwIf_ok, execute_ok, pure_ok,
    exists_eq_left', exists_and_left, exists_exists_and_eq_and, and_assoc, Bool.not_eq_false] at h
  obtain ⟨m, hm, hact, a, ha, hr⟩ := h
  obtain ⟨-, rfl⟩ := Prod.mk.inj hr
  refine .single (.prepareEscrow (e := newEscrow request) hm hact hv.1 ⟨rfl, rfl, rfl⟩
    ⟨fun ht => ?_, fun ht => ?_⟩ ⟨a, ha⟩)
  · have ht' : request.type = .limit := ht
    simpa [newEscrow, ht'] using hv.2 ht'
  · have ht' : request.type = .market := ht
    simp [newEscrow, ht']

theorem markSellEscrowTaggedTx_steps {escrowId : Id} {tagged receipts : ℤ} {u : PUnit}
    (ha : allow (.tagEscrow escrowId))
    (h : markSellEscrowTaggedTx escrowId tagged receipts db = .ok (u, db')) :
    Steps settings allow ⟨db, none⟩ ⟨db', none⟩ := by
  simp only [markSellEscrowTaggedTx, bind_ok, selectOne_ok, ite_ok, throwIf_ok, execute_ok, pure_ok,
    exists_eq_left', exists_and_left, exists_exists_and_eq_and, and_assoc, not_not, not_lt] at h
  obtain ⟨e, he, hq, ⟨-, -, -, hr⟩ | ⟨-, hs, hr⟩⟩ := h
  · obtain ⟨-, rfl⟩ := Prod.mk.inj hr
    exact .refl
  · obtain ⟨-, rfl⟩ := Prod.mk.inj hr
    exact .single (.tagEscrow ha he hs hq)

private theorem orderedEscrowResult_ok {e : SellEscrowRow} {r : ExecutionResult}
    (h : orderedEscrowResult e db = .ok (r, db')) : db' = db := by
  simp only [orderedEscrowResult, bind_ok, selectOne_ok, select_ok, lockedBalance_ok, pure_ok,
    exists_eq_left', exists_exists_and_eq_and] at h
  obtain ⟨_, _, _, _, _, _, hr⟩ := h
  exact (Prod.mk.inj hr).2.symm

/-- An escrow's first execution: its order is opened and matched, then the
excess is delivered and the escrow is linked to the order. -/
theorem executeSellEscrowTx_ok {escrowId : Id} {r : ExecutionResult × Db}
    (h : executeSellEscrowTx escrowId db = .ok r) :
    ∃ e, db.sellEscrows.get? escrowId = some e ∧
      (e.status = .ordered ∧ r.2 = db ∨
        e.status = .tagged ∧ ∃ db₁, placeSellLocked (escrowRequest e) db = .ok (r.1, db₁) ∧
          r.2 = Db.setEscrow (Db.deliver db₁ e.playerUuid e.marketId (e.taggedQty - e.requestedQty)
            .escrowExcess) escrowId fun e =>
              { e with status := .ordered, orderId := some r.1.orderId }) := by
  simp only [executeSellEscrowTx, bind_ok, selectOne_ok, ite_ok, throwIf_ok, addDelivery_ok, execute_ok,
    pure_ok, exists_eq_left', exists_and_left, exists_exists_and_eq_and, and_assoc, not_not] at h
  obtain ⟨e, he, ⟨hs, hr⟩ | ⟨-, hs, ⟨q, db₁⟩, hplace, hr⟩⟩ := h
  · exact ⟨e, he, .inl ⟨hs, orderedEscrowResult_ok hr⟩⟩
  · subst hr
    exact ⟨e, he, .inr ⟨hs, db₁, hplace, rfl⟩⟩

theorem cancelSellEscrowTx_steps {escrowId : Id} {u : PUnit}
    (h : cancelSellEscrowTx escrowId db = .ok (u, db')) : Steps settings allow ⟨db, none⟩ ⟨db', none⟩ := by
  simp only [cancelSellEscrowTx, bind_ok, selectOne_ok, ite_ok, throwIf_ok, execute_ok, pure_ok,
    exists_eq_left', exists_and_left, exists_exists_and_eq_and, and_assoc, not_not] at h
  obtain ⟨e, he, ⟨-, hr⟩ | ⟨-, hs, hr⟩⟩ := h
  · obtain ⟨-, rfl⟩ := Prod.mk.inj hr
    exact .refl
  · obtain ⟨-, rfl⟩ := Prod.mk.inj hr
    exact .single (.cancelEscrow he hs)

theorem markSellEscrowCleanedTx_steps {escrowId : Id} {u : PUnit}
    (h : markSellEscrowCleanedTx escrowId db = .ok (u, db')) :
    Steps settings allow ⟨db, none⟩ ⟨db', none⟩ := by
  simp only [markSellEscrowCleanedTx, bind_ok, selectOne_ok, throwIf_ok, execute_ok,
    exists_eq_left', exists_and_left, exists_exists_and_eq_and, and_assoc, not_not] at h
  obtain ⟨e, he, hs, hr⟩ := h
  obtain ⟨-, rfl⟩ := Prod.mk.inj hr
  exact .single (.cleanEscrow he hs)

end SellEscrows

section EconomyTransfers

theorem prepareEconomyTransferTx_steps {playerUuid playerName : String}
    {direction : EconomyTransferDirection} {amountCents : Cents} {amountUnits : ℤ} {before : Option ℤ}
    {id : Id} (hq : 0 < amountCents)
    (h : prepareEconomyTransferTx playerUuid playerName direction amountCents amountUnits before db =
      .ok (id, db')) : Steps settings allow ⟨db, none⟩ ⟨db', none⟩ := by
  cases direction with
  | deposit =>
    simp only [prepareEconomyTransferTx, bind_ok, select_ok, execute_ok, pure_ok, exists_eq_left',
      reduceCtorEq, if_false] at h
    obtain ⟨-, rfl⟩ := Prod.mk.inj h
    have hstep := @Step.prepareTransfer settings allow db
      { playerUuid, playerName, direction := .deposit, amountCents, amountUnits,
        externalBalanceBeforeUnits := before } rfl hq fun hd => nomatch hd
    simp only [reduceCtorEq, if_false, Db.post_zero] at hstep
    exact .single hstep
  | withdraw =>
    simp only [prepareEconomyTransferTx, bind_ok, select_ok, execute_ok, pure_ok, exists_eq_left',
      if_true, debit_ok, and_assoc, exists_and_left] at h
    obtain ⟨hd, hr⟩ := h
    obtain ⟨-, rfl⟩ := Prod.mk.inj hr
    exact .single (.prepareTransfer rfl hq fun _ => Debitable.canPost hd)

theorem recordAttemptTx_steps {transferId : Id} {error : String} {b : Bool}
    (h : recordAttemptTx transferId error db = .ok (b, db')) :
    Steps settings allow ⟨db, none⟩ ⟨db', none⟩ := by
  simp only [recordAttemptTx, updateTransfer, bind_ok, select_ok, ite_ok, execute_ok, pure_ok,
    exists_eq_left'] at h
  rcases h with ⟨hs, hr⟩ | ⟨-, hr⟩
  · obtain ⟨-, rfl⟩ := Prod.mk.inj hr
    obtain ⟨t, ht, hs⟩ := Option.map_eq_some_iff.mp hs
    exact .single (.switchTransfer ht hs (.inl rfl) ⟨hs, rfl, rfl, rfl⟩)
  · obtain ⟨-, rfl⟩ := Prod.mk.inj hr
    exact .refl

theorem markEconomyTransferExternalAppliedTx_steps {transferId : Id} {units : ℤ} {u : PUnit}
    (h : markEconomyTransferExternalAppliedTx transferId units db = .ok (u, db')) :
    Steps settings allow ⟨db, none⟩ ⟨db', none⟩ := by
  simp only [markEconomyTransferExternalAppliedTx, updateTransfer, bind_ok, selectOne_ok, ite_ok, throwIf_ok,
    execute_ok, pure_ok, exists_eq_left', exists_and_left, exists_exists_and_eq_and, and_assoc] at h
  obtain ⟨t, ht, -, ⟨hs, hr⟩ | ⟨-, hr⟩⟩ := h
  · obtain ⟨-, rfl⟩ := Prod.mk.inj hr
    exact .single (.switchTransfer ht hs (.inr (.inl rfl)) ⟨rfl, rfl, rfl, rfl⟩)
  · obtain ⟨-, rfl⟩ := Prod.mk.inj hr
    exact .refl

theorem completeEconomyTransferTx_steps {transferId : Id} {r : Cents}
    (h : completeEconomyTransferTx transferId db = .ok (r, db')) :
    Steps settings allow ⟨db, none⟩ ⟨db', none⟩ := by
  simp only [completeEconomyTransferTx, updateTransfer, bind_ok, selectOne_ok, ite_ok, throwIf_ok, credit_ok,
    lockedBalance_ok, execute_ok, exists_eq_left', exists_and_left, exists_exists_and_eq_and, and_assoc,
    not_not] at h
  obtain ⟨t, ht, -, ⟨-, a, -, hr⟩ | ⟨-, hs, ⟨hd, hc, a, ha, hr⟩ | ⟨hd, a, ha, hr⟩⟩⟩ := h
  · obtain ⟨-, rfl⟩ := Prod.mk.inj hr
    exact .refl
  · obtain ⟨-, rfl⟩ := Prod.mk.inj hr
    have hstep := (@Step.completeTransfer settings allow) ht hs fun _ =>
      Creditable.canPost hc
    simp only [hd, if_true] at hstep
    exact .single hstep
  · obtain ⟨-, rfl⟩ := Prod.mk.inj hr
    have hstep := (@Step.completeTransfer settings allow) ht hs fun hd' =>
      absurd hd' hd
    simp only [hd, if_false, Db.post_zero] at hstep
    exact .single hstep

theorem failEconomyTransferTx_steps {transferId : Id} {error : String} {r : Cents}
    (h : failEconomyTransferTx transferId error db = .ok (r, db')) :
    Steps settings allow ⟨db, none⟩ ⟨db', none⟩ := by
  simp only [failEconomyTransferTx, updateTransfer, bind_ok, selectOne_ok, ite_ok, throwIf_ok, credit_ok,
    lockedBalance_ok, execute_ok, exists_eq_left', exists_and_left, exists_exists_and_eq_and, and_assoc]
    at h
  obtain ⟨t, ht, -, ⟨hs, ⟨hd, hc, a, ha, hr⟩ | ⟨hd, a, ha, hr⟩⟩ | ⟨-, a, -, hr⟩⟩ := h
  · obtain ⟨-, rfl⟩ := Prod.mk.inj hr
    have hstep := (@Step.failTransfer settings allow _ _ _ (safeError error))
      ht hs fun _ => Creditable.canPost hc
    simp only [hd, if_true] at hstep
    exact .single hstep
  · obtain ⟨-, rfl⟩ := Prod.mk.inj hr
    have hstep := (@Step.failTransfer settings allow _ _ _ (safeError error))
      ht hs fun hd' => absurd hd' hd
    simp only [hd, if_false, Db.post_zero] at hstep
    exact .single hstep
  · obtain ⟨-, rfl⟩ := Prod.mk.inj hr
    exact .refl

theorem blockEconomyTransferTx_steps {transferId : Id} {error : String} {u : PUnit}
    (h : blockEconomyTransferTx transferId error db = .ok (u, db')) :
    Steps settings allow ⟨db, none⟩ ⟨db', none⟩ := by
  simp only [blockEconomyTransferTx, updateTransfer, bind_ok, selectOne_ok, throwIf_ok, execute_ok,
    exists_eq_left', exists_and_left, exists_exists_and_eq_and, and_assoc, not_not] at h
  obtain ⟨t, ht, hs, hr⟩ := h
  obtain ⟨-, rfl⟩ := Prod.mk.inj hr
  exact .single (.switchTransfer ht hs (.inr (.inr rfl)) ⟨rfl, rfl, rfl, rfl⟩)

end EconomyTransfers

section FrameListings

/-- Writing listings and their bindings is one step. -/
theorem framesChanged (ha : allow .changeFrames) (h : db' = { db with
      frameListings := db'.frameListings, frameListingBindings := db'.frameListingBindings }) :
    Step settings allow ⟨db, none⟩ ⟨db', none⟩ := by
  rw [h]
  exact .changeFrames _ _ ha

theorem upsertFrameListingTx_steps {listing : FrameListingRow} {administrator : Bool} {l : FrameListing}
    (ha : allow .changeFrames) (h : upsertFrameListingTx listing administrator db = .ok (l, db')) :
    Steps settings allow ⟨db, none⟩ ⟨db', none⟩ := by
  simp only [upsertFrameListingTx, bind_ok, select_ok, exists_eq_left'] at h
  cases hb : boundListing listing.targetKey db with
  | none =>
    simp only [hb] at h
    obtain ⟨-, rfl⟩ := Prod.mk.inj (insertListing_ok.mp h)
    exact .single (framesChanged ha rfl)
  | some current =>
    simp only [hb, updateListing, unbindListing, bind_ok, throwIf_ok, execute_ok, exists_eq_left',
      exists_and_left, and_assoc] at h
    obtain ⟨-, -, hi⟩ := h
    obtain ⟨-, rfl⟩ := Prod.mk.inj (insertListing_ok.mp hi)
    exact .single (framesChanged ha rfl)

theorem cancelFrameListingTx_steps {listingId : Id} {requesterUuid : String} {administrator : Bool}
    {u : PUnit} (ha : allow .changeFrames)
    (h : cancelFrameListingTx listingId requesterUuid administrator db = .ok (u, db')) :
    Steps settings allow ⟨db, none⟩ ⟨db', none⟩ := by
  simp only [cancelFrameListingTx, updateListing, unbindListing, bind_ok, selectOne_ok, ite_ok,
    throwIf_ok, execute_ok, pure_ok, exists_eq_left', exists_and_left, exists_exists_and_eq_and,
    and_assoc] at h
  obtain ⟨l, -, ⟨-, hr⟩ | ⟨-, -, -, hr⟩⟩ := h
  · obtain ⟨-, rfl⟩ := Prod.mk.inj hr
    exact .refl
  · obtain ⟨-, rfl⟩ := Prod.mk.inj hr
    exact .single (framesChanged ha rfl)

theorem purchaseFrameListingTx_steps {listingId : Id} {buyerUuid buyerName : String} {price : Cents}
    {r : FramePurchaseResult} (ha : allow .changeFrames)
    (h : purchaseFrameListingTx listingId buyerUuid buyerName price db = .ok (r, db')) :
    Steps settings allow ⟨db, none⟩ ⟨db', none⟩ := by
  simp only [purchaseFrameListingTx, updateListing, bind_ok, selectOne_ok, select_ok, throwIf_ok,
    execute_ok, debit_ok, credit_ok, lockedBalance_ok, pure_ok, exists_eq_left', exists_and_left,
    exists_exists_and_eq_and, and_assoc] at h
  obtain ⟨l, -, -, -, -, -, -, -, -, -, hpays, hgets, _, -, _, -, hr⟩ := h
  obtain ⟨-, rfl⟩ := Prod.mk.inj hr
  exact (ReflTransGen.single (.payFrame (Debitable.canPost hpays) (Creditable.canPost hgets) ha)).tail
    (framesChanged ha rfl)

theorem markFrameListingDroppedTx_steps {listingId : Id} {u : PUnit} (ha : allow .changeFrames)
    (h : markFrameListingDroppedTx listingId db = .ok (u, db')) :
    Steps settings allow ⟨db, none⟩ ⟨db', none⟩ := by
  simp only [markFrameListingDroppedTx, updateListing, bind_ok, selectOne_ok, ite_ok, throwIf_ok,
    execute_ok, pure_ok, exists_eq_left', exists_and_left, exists_exists_and_eq_and, and_assoc] at h
  obtain ⟨l, -, ⟨-, hr⟩ | ⟨-, -, hr⟩⟩ := h
  · obtain ⟨-, rfl⟩ := Prod.mk.inj hr
    exact .refl
  · obtain ⟨-, rfl⟩ := Prod.mk.inj hr
    exact .single (framesChanged ha rfl)

theorem completeFrameListingPickupTx_steps {listingId : Id} {u : PUnit} (ha : allow .changeFrames)
    (h : completeFrameListingPickupTx listingId db = .ok (u, db')) :
    Steps settings allow ⟨db, none⟩ ⟨db', none⟩ := by
  simp only [completeFrameListingPickupTx, updateListing, unbindListing, bind_ok, selectOne_ok, ite_ok,
    throwIf_ok, execute_ok, pure_ok, exists_eq_left', exists_and_left, exists_exists_and_eq_and,
    and_assoc] at h
  obtain ⟨l, -, ⟨-, hr⟩ | ⟨-, -, hr⟩⟩ := h
  · obtain ⟨-, rfl⟩ := Prod.mk.inj hr
    exact .refl
  · obtain ⟨-, rfl⟩ := Prod.mk.inj hr
    exact .single (framesChanged ha rfl)

end FrameListings
end EndstoneExchange.ClearingRefinement
