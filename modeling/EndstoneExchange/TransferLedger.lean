import EndstoneExchange.MarketParticipants

/-!
# The ledger effect of an economy transfer

What the ledger booked under a transfer's key depends on its direction and
status only, so no replay books anything twice.
-/
namespace EndstoneExchange.TransferLedger
open AutoIncrementTables KeyedTables DurablePrograms ExchangeDomain ExchangeTransactions ClearingSteps
  ServiceRuns MarketParticipants Relation

/-- What the ledger booked under a transfer's key. -/
def ledgerOfTransfer (db : Db) (transferId : Id) : Cents :=
  db.balanceLedger.sum fun l => if l.reference = some (.economyTransfer transferId) then l.deltaCents else 0

/-- The ledger effect of a transfer in its present status. -/
def effect (t : EconomyTransferRow) : Cents :=
  match t.direction with
  | .withdraw => if t.status = .failed then 0 else -t.amountCents
  | .deposit => if t.status = .completed then t.amountCents else 0

/-- The moves a transfer's status can make. -/
inductive Moves : EconomyTransferStatus → EconomyTransferStatus → Prop
  | apply : Moves .prepared .externalApplied
  | complete : Moves .externalApplied .completed
  | fail : Moves .prepared .failed
  | block : Moves .prepared .blocked

/-- Two rows of one transfer, the second no earlier than the first. -/
structure Advances (t t' : EconomyTransferRow) : Prop where
  player : t'.playerUuid = t.playerUuid
  direction : t'.direction = t.direction
  amount : t'.amountCents = t.amountCents
  status : ReflTransGen Moves t.status t'.status

variable {settings : Settings} {allow : Special → Prop} {d d' : Desk} {db : Db}

theorem Advances.refl (t : EconomyTransferRow) : Advances t t := ⟨rfl, rfl, rfl, .refl⟩

theorem Advances.trans {t t' t'' : EconomyTransferRow} (h : Advances t t') (h' : Advances t' t'') :
    Advances t t'' :=
  ⟨h'.player.trans h.player, h'.direction.trans h.direction, h'.amount.trans h.amount,
    h.status.trans h'.status⟩

/-- The history of one transfer: unknown before it is prepared, then advancing. -/
def History (transferId : Id) (db db' : Db) : Prop :=
  (∀ t, db.economyTransfers.get? transferId = some t →
    ∃ t', db'.economyTransfers.get? transferId = some t' ∧ Advances t t') ∧
  ∀ t', db.economyTransfers.get? transferId = none → db'.economyTransfers.get? transferId = some t' →
    ReflTransGen Moves .prepared t'.status

theorem History.of_same {transferId : Id} {db db' : Db} (h : db'.economyTransfers = db.economyTransfers) :
    History transferId db db' := by
  refine ⟨fun t ht => ⟨t, h ▸ ht, .refl t⟩, fun t' hn ht => ?_⟩
  rw [h, hn] at ht
  cases ht

/-- A rewrite of one transfer's row. -/
theorem History.of_update {db db' : Db} {id : Id} {t : EconomyTransferRow}
    {f : EconomyTransferRow → EconomyTransferRow} (ht : db.economyTransfers.get? id = some t)
    (hf : Advances t (f t)) (h : db'.economyTransfers = db.economyTransfers.update id f) (transferId : Id) :
    History transferId db db' := by
  rw [History, h]
  refine ⟨fun u hu => ?_, fun t' hn ht' => ?_⟩
  · rw [Table.get?_update, hu]
    split_ifs with hid
    · subst hid
      obtain rfl : u = t := Option.some.inj (hu.symm.trans ht)
      exact ⟨_, rfl, hf⟩
    · exact ⟨u, rfl, .refl u⟩
  · rw [Table.get?_update, hn] at ht'
    split_ifs at ht'
    cases ht'

private theorem history_step (h : Step settings allow d d') (transferId : Id) : History transferId d.db d'.db := by
  cases h with
  | @prepareTransfer db t hs =>
    refine ⟨fun u hu => ⟨u, Table.get?_insert_old _ hu, .refl u⟩, fun t' hn ht => ?_⟩
    rcases Table.get?_insert_cases ht with ⟨-, rfl⟩ | ⟨-, ht⟩
    · rw [hs]
    · rw [hn] at ht
      cases ht
  | switchTransfer h ht hs hf =>
    refine .of_update h ⟨hf.2.2.2, hf.2.1, hf.2.2.1, ?_⟩ rfl transferId
    rw [ht, hf.1]
    rcases hs with rfl | rfl | rfl
    · exact .refl
    · exact .single .apply
    · exact .single .block
  | completeTransfer h hs =>
    refine .of_update h ⟨rfl, rfl, rfl, ?_⟩ rfl transferId
    rw [hs]
    exact .single .complete
  | failTransfer h hs =>
    refine .of_update h ⟨rfl, rfl, rfl, ?_⟩ rfl transferId
    rw [hs]
    exact .single .fail
  | _ => exact .of_same rfl

theorem history_steps (h : Steps settings allow d d') (transferId : Id) :
    History transferId d.db d'.db := by
  induction h with
  | refl => exact .of_same rfl
  | @tail d₁ d₂ _ hs ih =>
    have hlast := history_step hs transferId
    refine ⟨fun t ht => ?_, fun t₂ hn ht₂ => ?_⟩
    · obtain ⟨t₁, ht₁, h₁⟩ := ih.1 t ht
      obtain ⟨t₂, ht₂, h₂⟩ := hlast.1 t₁ ht₁
      exact ⟨t₂, ht₂, h₁.trans h₂⟩
    · cases ht₁ : d₁.db.economyTransfers.get? transferId with
      | none => exact hlast.2 t₂ ht₁ ht₂
      | some t₁ =>
        obtain ⟨t, ht, h₂⟩ := hlast.1 t₁ ht₁
        obtain rfl : t = t₂ := Option.some.inj (ht.symm.trans ht₂)
        exact (ih.2 t₁ hn ht₁).trans h₂.status

section Effects

/-- The ledger booked each transfer's effect and nothing under keys still unused. -/
structure Booked (db : Db) : Prop where
  effects : ∀ id t, db.economyTransfers.get? id = some t → ledgerOfTransfer db id = effect t
  known : ∀ i l id, db.balanceLedger.get? i = some l → l.reference = some (.economyTransfer id) →
    ∃ t, db.economyTransfers.get? id = some t

theorem ledgerOfTransfer_post (db : Db) (id : Id) (playerUuid : String) (delta : Cents)
    (reason : LedgerReason) (reference : Option LedgerReference) :
    ledgerOfTransfer (Db.post db playerUuid delta reason reference) id =
      ledgerOfTransfer db id + if reference = some (.economyTransfer id) then delta else 0 := by
  by_cases h : delta = 0
  · simp [h]
  · simp [ledgerOfTransfer, h]

/-- A booking under another kind of key. -/
theorem Booked.post_other (hI : Booked db) {playerUuid : String} {delta : Cents} {reason : LedgerReason}
    {reference : Option LedgerReference} (hr : ∀ id, reference ≠ some (.economyTransfer id)) :
    Booked (Db.post db playerUuid delta reason reference) := by
  refine ⟨fun id t ht => ?_, fun i l id hi hl => ?_⟩
  · rw [ledgerOfTransfer_post, if_neg (hr id), add_zero]
    exact hI.effects id t ht
  · rw [Db.post_balanceLedger] at hi
    split_ifs at hi
    · exact hI.known i l id hi hl
    · rcases Table.get?_insert_cases hi with ⟨-, rfl⟩ | ⟨-, hi⟩
      · exact absurd hl (hr id)
      · exact hI.known i l id hi hl

/-- A transfer's booking together with its rewritten row. -/
theorem Booked.post_own (hI : Booked db) {transferId : Id} {t : EconomyTransferRow} {playerUuid : String}
    {delta : Cents} {reason : LedgerReason} {f : EconomyTransferRow → EconomyTransferRow}
    (ht : db.economyTransfers.get? transferId = some t) (hd : effect (f t) = effect t + delta) :
    Booked (Db.setTransfer (Db.post db playerUuid delta reason (some (.economyTransfer transferId)))
      transferId f) := by
  have hledger : ∀ id, ledgerOfTransfer (Db.setTransfer (Db.post db playerUuid delta reason
      (some (.economyTransfer transferId))) transferId f) id =
        ledgerOfTransfer db id + if transferId = id then delta else 0 := by
    intro id
    have hpost := ledgerOfTransfer_post db id playerUuid delta reason (some (.economyTransfer transferId))
    simp only [Option.some.injEq, LedgerReference.economyTransfer.injEq] at hpost
    exact hpost
  refine ⟨fun id t' ht' => ?_, fun i l id hi hl => ?_⟩
  · rw [hledger]
    rcases Table.get?_update_cases ht' with ⟨rfl, u, hu, rfl⟩ | ⟨hne, ht'⟩
    · obtain rfl : u = t := Option.some.inj (hu.symm.trans ht)
      rw [if_pos rfl, hI.effects id u hu, hd]
    · rw [if_neg (Ne.symm hne), add_zero]
      exact hI.effects id t' ht'
  · have hknown : ∃ u, db.economyTransfers.get? id = some u := by
      rw [Db.setTransfer_balanceLedger, Db.post_balanceLedger] at hi
      split_ifs at hi
      · exact hI.known i l id hi hl
      · rcases Table.get?_insert_cases hi with ⟨-, rfl⟩ | ⟨-, hi⟩
        · simp only [Option.some.injEq, LedgerReference.economyTransfer.injEq] at hl
          exact ⟨t, hl ▸ ht⟩
        · exact hI.known i l id hi hl
    obtain ⟨u, hu⟩ := hknown
    rw [Db.setTransfer_economyTransfers, Db.post_economyTransfers, Table.get?_update, hu]
    split_ifs
    · exact ⟨_, rfl⟩
    · exact ⟨u, rfl⟩

theorem Booked.congr {db' : Db} (hI : Booked db) (ht : db'.economyTransfers = db.economyTransfers)
    (hl : db'.balanceLedger = db.balanceLedger) : Booked db' := by
  refine ⟨fun id t h => ?_, fun i l id hi hr => ?_⟩
  · rw [ledgerOfTransfer, hl]
    exact hI.effects id t (ht ▸ h)
  · rw [ht]
    exact hI.known i l id (hl ▸ hi) hr

theorem Booked.addLedger (hI : Booked db) {row : LedgerRow} (hr : row.reference = none) :
    Booked (Db.addLedger db row) := by
  refine ⟨fun id t ht => ?_, fun i l id hi hl => ?_⟩
  · have hsame : ledgerOfTransfer (Db.addLedger db row) id = ledgerOfTransfer db id := by
      simp [ledgerOfTransfer, hr]
    rw [hsame]
    exact hI.effects id t ht
  · rcases Table.get?_insert_cases hi with ⟨-, rfl⟩ | ⟨-, hi⟩
    · rw [hr] at hl
      cases hl
    · exact hI.known i l id hi hl

/-- A fresh key has nothing booked under it. -/
theorem Booked.prepare (hI : Booked db) {t : EconomyTransferRow} {playerUuid : String} {delta : Cents}
    {reason : LedgerReason} (hd : effect t = delta) : Booked (Db.post (Db.addTransfer db t) playerUuid delta
      reason (some (.economyTransfer db.economyTransfers.nextId))) := by
  have hfresh : ledgerOfTransfer db db.economyTransfers.nextId = 0 := by
    refine Table.sum_eq_zero fun i l hi => if_neg fun hr => ?_
    obtain ⟨u, hu⟩ := hI.known i l _ hi hr
    exact Table.ne_nextId hu rfl
  have hledger : ∀ id, ledgerOfTransfer (Db.post (Db.addTransfer db t) playerUuid delta reason
      (some (.economyTransfer db.economyTransfers.nextId))) id =
        ledgerOfTransfer db id + if db.economyTransfers.nextId = id then delta else 0 := by
    intro id
    have hpost := ledgerOfTransfer_post (Db.addTransfer db t) id playerUuid delta reason
      (some (.economyTransfer db.economyTransfers.nextId))
    simp only [Option.some.injEq, LedgerReference.economyTransfer.injEq] at hpost
    exact hpost
  refine ⟨fun id t' ht' => ?_, fun i l id hi hl => ?_⟩
  · rw [hledger]
    rcases Table.get?_insert_cases ht' with ⟨rfl, rfl⟩ | ⟨hne, ht'⟩
    · rw [if_pos rfl, hfresh, zero_add, hd]
    · rw [if_neg (Ne.symm hne), add_zero]
      exact hI.effects id t' ht'
  · have hknown : id = db.economyTransfers.nextId ∨ ∃ u, db.economyTransfers.get? id = some u := by
      rw [Db.post_balanceLedger] at hi
      split_ifs at hi
      · exact .inr (hI.known i l id hi hl)
      · rcases Table.get?_insert_cases hi with ⟨-, rfl⟩ | ⟨-, hi⟩
        · simp only [Option.some.injEq, LedgerReference.economyTransfer.injEq] at hl
          exact .inl hl.symm
        · exact .inr (hI.known i l id hi hl)
    rcases hknown with rfl | ⟨u, hu⟩
    · exact ⟨t, Table.get?_insert_self _ _⟩
    · exact ⟨u, Table.get?_insert_old _ hu⟩

theorem booked_step (h : Step settings allow d d') (hI : Booked d.db) : Booked d'.db := by
  cases h with
  | @openAccount db playerUuid playerName =>
    have hadded : Booked (Db.addAccount db playerUuid ⟨playerName, settings.initialBalanceCents⟩) :=
      hI.congr rfl rfl
    exact hadded.addLedger rfl
  | @adjustBalance db playerUuid delta =>
    have hset : Booked (Db.setAccount db playerUuid fun a =>
      { a with balanceCents := a.balanceCents + delta }) := hI.congr rfl rfl
    exact hset.addLedger rfl
  | @openOrder db o =>
    have hadded : Booked (Db.addOrder db o) := hI.congr rfl rfl
    exact hadded.post_other (by simp)
  | @settleTrade db taker t buy sell hs =>
    have hbuyer : Booked (Db.post db t.buyerUuid (buyerDelta buy t.priceCents t.quantity)
      (buyerReason buy) (some (.order t.buyOrderId))) := hI.post_other (by simp)
    have hseller : Booked (Db.post (Db.post db t.buyerUuid (buyerDelta buy t.priceCents t.quantity)
      (buyerReason buy) (some (.order t.buyOrderId))) t.sellerUuid (t.priceCents * t.quantity)
      .tradeProceeds (some (.order t.sellOrderId))) := hbuyer.post_other (by simp)
    exact hseller.congr rfl rfl
  | @withdraw db orderId o refund returned h =>
    have hrefund : Booked (Db.post db o.playerUuid (if o.side = .buy then o.reservedCents else 0) refund
      (some (.order orderId))) := hI.post_other (by simp)
    exact hrefund.congr rfl rfl
  | @prepareTransfer db t hs hq ha =>
    refine hI.prepare ?_
    cases hd : t.direction <;> simp [effect, hd, hs]
  | @switchTransfer db transferId t s f h ht hs hf =>
    have hsame : effect (f t) = effect t + 0 := by
      have hstatus := hf.1
      rcases hs with rfl | rfl | rfl <;> cases hd : t.direction <;> simp [effect, hf, hd, ht]
    exact (@Booked.post_own _ hI _ _ t.playerUuid _ .umoneyDeposit _ h hsame)
  | @completeTransfer db transferId t h hs ha =>
    refine hI.post_own h ?_
    cases hd : t.direction <;> simp [effect, hd, hs]
  | @failTransfer db transferId t error h hs ha =>
    refine hI.post_own h ?_
    cases hd : t.direction <;> simp [effect, hd, hs]
  | payFrame => exact (hI.post_other (by simp)).post_other (by simp)
  | _ => exact hI.congr rfl rfl

end Effects

/-- In every reachable state the ledger has booked exactly the effect of each transfer's
status, and every call, wherever it stops, only moves statuses forward. -/
theorem transfer_effect_once (h : Reachable settings db) :
    (∀ id t, db.economyTransfers.get? id = some t → ledgerOfTransfer db id = effect t) ∧
    ∀ (c : Call) faults id, History id db (c.leaves settings faults db) := by
  have hbooked : Booked db := h.induct (I := fun d => Booked d.db)
    ⟨fun id t ht => by simp at ht, fun i l id hi => by simp at hi⟩ booked_step
  obtain ⟨history, hrun⟩ := h
  exact ⟨hbooked.effects, fun c faults => history_steps (hrun.leaves_steps c faults)⟩

/-- A withdrawal that failed twice was refunded once. -/
theorem transfer_effect_once_refunded :
    let db := afterCalls sampleSettings [
      .prepareEconomyTransfer "alice" "alice" .withdraw 500 5 (some 0), .failEconomyTransfer 1 "offline",
      .failEconomyTransfer 1 "offline"]
    ∃ t, db.economyTransfers.get? 1 = some t ∧ t.status = .failed ∧ ledgerOfTransfer db 1 = effect t := by
  intro db
  have hrow : ∃ t, db.economyTransfers.get? 1 = some t ∧ t.status = .failed := ⟨_, rfl, rfl⟩
  obtain ⟨t, ht, hs⟩ := hrow
  exact ⟨t, ht, hs, (transfer_effect_once (reachable_afterCalls _ _)).1 1 t ht⟩
end EndstoneExchange.TransferLedger
