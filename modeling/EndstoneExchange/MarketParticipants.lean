import EndstoneExchange.DeliveryOrigins

/-!
# The accounts behind orders and escrows

Whoever has an order or an escrow has an account, and no account is overdrawn.
-/
namespace EndstoneExchange.MarketParticipants
open AutoIncrementTables KeyedTables ExchangeDomain ExchangeTransactions ClearingSteps RowHistories
  ServiceRuns DeliveryOrigins

variable {settings : Settings} {allow : Special → Prop} {d d' : Desk} {db db' : Db}

theorem account_kept (h : Step settings allow d d') {playerUuid : String}
    (ha : ∃ a, d.db.accounts.find? playerUuid = some a) :
    ∃ a, d'.db.accounts.find? playerUuid = some a := by
  have hpost : ∀ {accounts : KeyedTable String AccountRow} (other : String) (delta : Cents),
      (∃ a, accounts.find? playerUuid = some a) →
        ∃ a, (if delta = 0 then accounts else accounts.update other fun a =>
          { a with balanceCents := a.balanceCents + delta }).find? playerUuid = some a := by
    intro accounts other delta h
    split_ifs
    · exact h
    · exact KeyedTable.exists_find?_update.mpr h
  cases h with
  | @openAccount db other name hnone =>
    obtain ⟨a, ha⟩ := ha
    refine ⟨a, ?_⟩
    have hne : playerUuid ≠ other := fun he => by simp [he, hnone] at ha
    rw [Db.addLedger_accounts, Db.addAccount_accounts, KeyedTable.find?_insert _ hnone, if_neg hne, ha]
  | renameAccount => exact KeyedTable.exists_find?_update.mpr ha
  | adjustBalance => exact KeyedTable.exists_find?_update.mpr ha
  | openOrder => exact hpost _ _ ha
  | settleTrade => exact hpost _ _ (hpost _ _ ha)
  | withdraw => exact hpost _ _ ha
  | prepareTransfer => exact hpost _ _ ha
  | completeTransfer => exact hpost _ _ ha
  | failTransfer => exact hpost _ _ ha
  | payFrame => exact hpost _ _ (hpost _ _ ha)
  | _ => exact ha

section Balances

/-- No account is overdrawn. -/
def Solvent (db : Db) : Prop := ∀ u a, db.accounts.find? u = some a → 0 ≤ a.balanceCents

theorem Solvent.post (hI : Solvent db) {playerUuid : String} {delta : Cents}
    (hc : CanPost db playerUuid delta) (hp : db'.accounts = if delta = 0 then db.accounts else
      db.accounts.update playerUuid fun a => { a with balanceCents := a.balanceCents + delta }) :
    Solvent db' := by
  intro u a ha
  have hposted := find?_post db playerUuid delta .buyOrderReserve none u
  rw [Db.post_accounts, ← hp, ha] at hposted
  split_ifs at hposted with hu
  · obtain ⟨b, hb, rfl⟩ := Option.map_eq_some_iff.mp hposted.symm
    have hnn := hI u b hb
    by_cases h0 : delta = 0
    · simpa [h0] using hnn
    · obtain ⟨c, hc, hcovers⟩ := hc h0
      obtain rfl : b = c := Option.some.inj (hb.symm.trans (hu ▸ hc))
      rcases hcovers with hpos | hcovers
      · exact add_nonneg hnn hpos
      · exact hcovers
  · exact hI u a hposted.symm

theorem Solvent.setAccount (hI : Solvent db) {playerUuid : String} {f : AccountRow → AccountRow}
    (hf : ∀ a, db.accounts.find? playerUuid = some a → 0 ≤ (f a).balanceCents) :
    Solvent (Db.setAccount db playerUuid f) := by
  intro u a ha
  rw [Db.setAccount_accounts, KeyedTable.find?_update] at ha
  split_ifs at ha with hu
  · obtain ⟨b, hb, rfl⟩ := Option.map_eq_some_iff.mp ha
    exact hf b (hu ▸ hb)
  · exact hI u a ha

theorem CanPost.of_zero {playerUuid : String} {c : Prop} [Decidable c] {delta : Cents}
    (h : c → CanPost db playerUuid delta) : CanPost db playerUuid (if c then delta else 0) := by
  split_ifs with hc
  · exact h hc
  · exact fun h0 => absurd rfl h0

theorem solvent_step (h : Step settings allow d d') (hI : Solvent d.db) : Solvent d'.db := by
  cases h with
  | @openAccount db other name hnone =>
    intro u a ha
    rw [Db.addLedger_accounts, Db.addAccount_accounts, KeyedTable.find?_insert _ hnone] at ha
    split_ifs at ha with hu
    · obtain rfl := Option.some.inj ha
      exact settings.initialBalance_nonneg
    · exact hI u a ha
  | renameAccount => exact hI.setAccount fun a ha => hI _ a ha
  | @adjustBalance db playerUuid delta hallow a h hd =>
    refine hI.setAccount fun b hb => ?_
    obtain rfl : b = a := Option.some.inj (hb.symm.trans h)
    exact hd
  | @openOrder db o m hm hs hq hr hp hv hc => exact (@Solvent.post (Db.addOrder db o)) hI hc rfl
  | @settleTrade db taker t buy sell hs =>
    have hbuyer : Solvent (Db.post db t.buyerUuid (buyerDelta buy t.priceCents t.quantity)
      (buyerReason buy) (some (.order t.buyOrderId))) := hI.post hs.buyer rfl
    have hseller : CanPost (Db.post db t.buyerUuid (buyerDelta buy t.priceCents t.quantity)
        (buyerReason buy) (some (.order t.buyOrderId))) t.sellerUuid (t.priceCents * t.quantity) :=
      CanPost.posted hs.seller (mul_nonneg hs.price_pos.le hs.quantity_pos.le)
    exact hbuyer.post hseller rfl
  | withdraw h hr hf hd ha => exact hI.post (CanPost.of_zero ha) rfl
  | @prepareTransfer db t hs hq ha =>
    exact (@Solvent.post (Db.addTransfer db t)) hI (CanPost.of_zero ha) rfl
  | completeTransfer h hs ha => exact hI.post (CanPost.of_zero ha) rfl
  | failTransfer h hs ha => exact hI.post (CanPost.of_zero ha) rfl
  | payFrame hb hs => exact (hI.post hb rfl).post hs rfl
  | _ => exact hI

theorem reachable_solvent (h : Reachable settings db) : Solvent db :=
  h.induct (I := fun d => Solvent d.db) (fun u a ha => by simp at ha) solvent_step

end Balances

section Owners

/-- The owners of orders and escrows have accounts; limit orders have a price. -/
structure Participants (db : Db) : Prop where
  owners : ∀ i o, db.orders.get? i = some o → ∃ a, db.accounts.find? o.playerUuid = some a
  prices : ∀ i o, db.orders.get? i = some o → o.orderType = .limit → 0 < o.priceCents
  sellers : ∀ i e, db.sellEscrows.get? i = some e → ∃ a, db.accounts.find? e.playerUuid = some a

theorem participants_step (h : Step settings allow d d') (hI : Participants d.db) :
    Participants d'.db := by
  refine ⟨fun i o ho => ?_, fun i o ho ht => ?_, fun i e he => account_kept h ?_⟩
  · refine account_kept h ?_
    rcases order_row h ho with ⟨o', ho', hs⟩ | hadmitted
    · rw [hs.player]
      exact hI.owners i o' ho'
    · exact hadmitted.account
  · rcases order_row h ho with ⟨o', ho', hs⟩ | hadmitted
    · rw [hs.price]
      exact hI.prices i o' ho' (hs.type ▸ ht)
    · exact hadmitted.price_pos ht
  · rcases escrow_row h he with ⟨e', he', hs⟩ | ⟨-, ha⟩
    · rw [hs.player]
      exact hI.sellers i e' he'
    · exact ha

theorem reachable_participants (h : Reachable settings db) : Participants db :=
  h.induct (I := fun d => Participants d.db) ⟨fun i o ho => by simp at ho, fun i o ho => by simp at ho,
    fun i e he => by simp at he⟩ participants_step

end Owners
end EndstoneExchange.MarketParticipants
