import EndstoneExchange.MarketParticipants

/-!
# The ledger explains every balance

Each change of a balance is booked with the same amount, and the ledger only
ever grows at its end.
-/
namespace EndstoneExchange.BalanceLedger
open AutoIncrementTables KeyedTables DurablePrograms ExchangeDomain ExchangeTransactions ClearingSteps
  ServiceRuns MarketParticipants

/-- The sum of a player's ledger rows. -/
def bookedTo (db : Db) (playerUuid : String) : Cents :=
  db.balanceLedger.sum fun l => if l.playerUuid = playerUuid then l.deltaCents else 0

/-- A player without an account has no balance. -/
def balanceOf (db : Db) (playerUuid : String) : Cents :=
  ((db.accounts.find? playerUuid).map (·.balanceCents)).getD 0

def Explained (db : Db) : Prop := ∀ u, bookedTo db u = balanceOf db u

variable {settings : Settings} {allow : Special → Prop} {d d' : Desk} {db db' : Db}

theorem Explained.congr (hI : Explained db) (ha : db'.accounts = db.accounts)
    (hl : db'.balanceLedger = db.balanceLedger) : Explained db' := by
  intro u
  have h := hI u
  rwa [bookedTo, balanceOf, ← ha, ← hl] at h

/-- What is posted to an account is booked to it. -/
theorem Explained.post (hI : Explained db) {playerUuid : String} {delta : Cents} {reason : LedgerReason}
    {reference : Option LedgerReference} (hc : CanPost db playerUuid delta) :
    Explained (Db.post db playerUuid delta reason reference) := by
  by_cases h0 : delta = 0
  · rwa [h0, Db.post_zero]
  · intro u
    obtain ⟨a, ha, -⟩ := hc h0
    have hbooked : bookedTo (Db.post db playerUuid delta reason reference) u =
        bookedTo db u + if playerUuid = u then delta else 0 := by
      simp only [bookedTo, Db.post_balanceLedger, h0, if_false, Table.sum_insert]
    have hbalance : balanceOf (Db.post db playerUuid delta reason reference) u =
        balanceOf db u + if playerUuid = u then delta else 0 := by
      simp only [balanceOf, find?_post]
      by_cases hu : u = playerUuid
      · subst hu
        simp [ha]
      · simp [hu, Ne.symm hu]
    rw [hbooked, hbalance, hI u]

/-- An account row and its ledger row are written together. -/
theorem Explained.adjust (hI : Explained db) {playerUuid : String} {delta : Cents} {row : LedgerRow}
    {a : AccountRow} (ha : db.accounts.find? playerUuid = some a) (hp : row.playerUuid = playerUuid)
    (hd : row.deltaCents = delta) : Explained (Db.addLedger (Db.setAccount db playerUuid fun a =>
      { a with balanceCents := a.balanceCents + delta }) row) := by
  intro u
  have hbooked : bookedTo (Db.addLedger (Db.setAccount db playerUuid fun a =>
      { a with balanceCents := a.balanceCents + delta }) row) u =
        bookedTo db u + if playerUuid = u then delta else 0 := by
    simp only [bookedTo, Db.addLedger_balanceLedger, Db.setAccount_balanceLedger, Table.sum_insert, hp, hd]
  rw [hbooked, hI u]
  simp only [balanceOf, Db.addLedger_accounts, Db.setAccount_accounts, KeyedTable.find?_update]
  by_cases hu : u = playerUuid
  · subst hu
    simp [ha]
  · simp [hu, Ne.symm hu]

private theorem explained_step (h : Step settings allow d d') (hI : Explained d.db) : Explained d'.db := by
  cases h with
  | @openAccount db playerUuid playerName h =>
    intro u
    have hbooked : bookedTo (Db.addLedger (Db.addAccount db playerUuid
        ⟨playerName, settings.initialBalanceCents⟩)
        ⟨playerUuid, settings.initialBalanceCents, .accountOpened, none⟩) u =
          bookedTo db u + if playerUuid = u then settings.initialBalanceCents else 0 := by
      simp only [bookedTo, Db.addLedger_balanceLedger, Db.addAccount_balanceLedger, Table.sum_insert]
    rw [hbooked, hI u]
    simp only [balanceOf, Db.addLedger_accounts, Db.addAccount_accounts, KeyedTable.find?_insert _ h]
    by_cases hu : u = playerUuid
    · subst hu
      simp [h]
    · simp [hu, Ne.symm hu]
  | @renameAccount db playerUuid playerName =>
    intro u
    refine (hI u).trans ?_
    simp only [balanceOf, Db.setAccount_accounts, KeyedTable.find?_update]
    by_cases hu : u = playerUuid
    · subst hu
      simp only [if_true, Option.map_map]
      rfl
    · simp [hu]
  | adjustBalance ha h hd => exact hI.adjust h rfl rfl
  | @openOrder db o m hm hs hq hr hp hv hc =>
    have hadded : Explained (Db.addOrder db o) := hI
    exact hadded.post hc
  | @settleTrade db taker t buy sell hs =>
    have hbuyer := @Explained.post _ hI _ _ (buyerReason buy) (some (.order t.buyOrderId)) hs.buyer
    have hseller := @Explained.post _ hbuyer _ _ .tradeProceeds (some (.order t.sellOrderId))
      (CanPost.posted hs.seller (mul_nonneg hs.price_pos.le hs.quantity_pos.le))
    exact hseller.congr rfl rfl
  | @withdraw db orderId o refund returned h hr hf hd ha =>
    exact (@Explained.post _ hI _ _ refund (some (.order orderId)) (CanPost.of_zero ha)).congr
      rfl rfl
  | @prepareTransfer db t hs hq ha =>
    have hadded : Explained (Db.addTransfer db t) := hI
    exact hadded.post (CanPost.of_zero ha)
  | @completeTransfer db transferId t h hs ha =>
    exact (@Explained.post _ hI _ _ .umoneyDeposit (some (.economyTransfer transferId))
      (CanPost.of_zero ha)).congr rfl rfl
  | @failTransfer db transferId t error h hs ha =>
    exact (@Explained.post _ hI _ _ .umoneyWithdrawRefund (some (.economyTransfer transferId))
      (CanPost.of_zero ha)).congr rfl rfl
  | payFrame hb hs => exact (hI.post hb).post hs
  | _ => exact hI.congr rfl rfl

section Growth

theorem ledger_post {playerUuid : String} {delta : Cents} {reason : LedgerReason}
    {reference : Option LedgerReference} :
    db.balanceLedger.rows <+: (Db.post db playerUuid delta reason reference).balanceLedger.rows := by
  rw [Db.post_balanceLedger]
  split_ifs
  · exact List.prefix_rfl
  · exact List.prefix_append _ _

/-- A step books at the end of the ledger, if it books at all. -/
theorem ledger_step (h : Step settings allow d d') :
    d.db.balanceLedger.rows <+: d'.db.balanceLedger.rows := by
  cases h with
  | openAccount => exact List.prefix_append _ _
  | adjustBalance => exact List.prefix_append _ _
  | @openOrder db o => exact @ledger_post (Db.addOrder db o) _ _ _ _
  | @settleTrade db taker t buy sell hs => exact ledger_post.trans ledger_post
  | withdraw => exact ledger_post
  | @prepareTransfer db t => exact @ledger_post (Db.addTransfer db t) _ _ _ _
  | completeTransfer => exact ledger_post
  | failTransfer => exact ledger_post
  | payFrame => exact ledger_post.trans ledger_post
  | _ => exact List.prefix_rfl

private theorem ledger_steps (h : Steps settings allow d d') :
    d.db.balanceLedger.rows <+: d'.db.balanceLedger.rows := by
  induction h with
  | refl => exact List.prefix_rfl
  | tail _ hs ih => exact ih.trans (ledger_step hs)

end Growth

/-- In every reachable state the ledger rows of an account add up to its balance, which is
never negative, and no call changes or removes a row it finds, wherever it stops. -/
theorem ledger_explains_balances (h : Reachable settings db) :
    (∀ u a, db.accounts.find? u = some a → bookedTo db u = a.balanceCents ∧ 0 ≤ a.balanceCents) ∧
    ∀ (c : Call) faults, db.balanceLedger.rows <+: (c.leaves settings faults db).balanceLedger.rows := by
  have hexplained : Explained db := h.induct (I := fun d => Explained d.db) (fun u => rfl) explained_step
  refine ⟨fun u a ha => ⟨?_, reachable_solvent h u a ha⟩, fun c faults => ?_⟩
  · rw [hexplained u, balanceOf, ha, Option.map_some, Option.getD_some]
  · obtain ⟨history, hrun⟩ := h
    exact ledger_steps (hrun.leaves_steps c faults)

/-- A buyer whose limit order was filled below its price. -/
theorem ledger_explains_balances_improved :
    let db := afterCalls sampleSettings [.activateMarket (diamondMarket "block"),
      .placeOrder (diamondOrder "alice" .sell .limit 400 4),
      .placeOrder (diamondOrder "bob" .buy .limit 500 10)]
    ∃ a, db.accounts.find? "bob" = some a ∧ a.balanceCents = 995400 ∧
      bookedTo db "bob" = a.balanceCents ∧ 0 ≤ a.balanceCents := by
  intro db
  have hrow : db.accounts.find? "bob" = some ⟨"bob", 995400⟩ := rfl
  exact ⟨_, hrow, rfl, (ledger_explains_balances (reachable_afterCalls _ _)).1 _ _ hrow⟩
end EndstoneExchange.BalanceLedger
