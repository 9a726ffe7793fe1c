import EndstoneExchange.DeliveryOrigins

/-!
# No book is crossed between different players

An order comes to rest only when the book holds nothing it could still trade
with, and nothing that rests ever changes its terms.
-/
namespace EndstoneExchange.UncrossedBooks
open AutoIncrementTables KeyedTables ExchangeDomain ExchangeTransactions OrderMatching ClearingSteps
  RowHistories ServiceRuns DeliveryOrigins

/-- Resting orders of two players in one book have no common price. -/
def Uncrossed (db : Db) (taker : Option Id) : Prop :=
  ∀ i j b s, db.orders.get? i = some b → db.orders.get? j = some s → taker ≠ some i → taker ≠ some j →
    b.Resting → s.Resting → b.side = .buy → s.side = .sell → b.playerUuid ≠ s.playerUuid →
      SameBook db b.marketId s.marketId → b.priceCents < s.priceCents

variable {settings : Settings} {allow : Special → Prop} {d d' : Desk} {db : Db}

/-- Where the resting orders after a step come from, the session's own order apart. -/
theorem resting_back (h : Step settings allow d d') {i : Id} {o : OrderRow}
    (ho : d'.db.orders.get? i = some o) (hr : o.Resting) (ht : d'.taker ≠ some i) :
    ∃ o', d.db.orders.get? i = some o' ∧ o'.Resting ∧ SameTerms o' o ∧
      (d.taker = some i → o' = o ∧ (o.status.Live → Unmatched d.db o) ∧ d'.db = d.db) := by
  have hold : ∀ {db : Db} {taker : Option Id}, db.orders.get? i = some o → taker ≠ some i →
      ∃ o', db.orders.get? i = some o' ∧ o'.Resting ∧ SameTerms o' o ∧
        (taker = some i → o' = o ∧ (o.status.Live → Unmatched db o) ∧ d'.db = db) :=
    fun ho hne => ⟨o, ho, hr, .refl o, fun he => absurd he hne⟩
  cases h with
  | openOrder =>
    rcases Table.get?_insert_cases ho with ⟨rfl, rfl⟩ | ⟨-, ho⟩
    · exact absurd rfl ht
    · exact hold ho (by simp)
  | settleTrade hs =>
    obtain ⟨rfl, -, rfl⟩ | ⟨rfl, -, rfl⟩ | ⟨-, -, ho⟩ := settleTrade_row hs ho
    · exact ⟨_, hs.buyOrder.row, hs.buyOrder.open_for.resolve_left ht, sameTerms_traded _ _,
        fun he => absurd he ht⟩
    · exact ⟨_, hs.sellOrder.row, hs.sellOrder.open_for.resolve_left ht, sameTerms_traded _ _,
        fun he => absurd he ht⟩
    · exact hold ho ht
  | @closeLimit db orderId o' h htype hx =>
    by_cases hi : some orderId = some i
    · obtain rfl := Option.some.inj hi
      obtain rfl : o = o' := Option.some.inj (ho.symm.trans h)
      exact ⟨o, h, hr, .refl o, fun _ => ⟨rfl, hx, rfl⟩⟩
    · exact hold ho hi
  | @closeMarket db orderId o' h htype =>
    rcases Table.get?_update_cases ho with ⟨rfl, o₁, ho₁, rfl⟩ | ⟨hne, ho⟩
    · obtain rfl : o₁ = o' := Option.some.inj (ho₁.symm.trans h)
      have hlimit : o₁.orderType = .limit := hr.1
      exact absurd (htype.symm.trans hlimit) (by decide)
    · exact hold ho fun he => hne (Option.some.inj he).symm
  | withdraw =>
    rcases Table.get?_update_cases ho with ⟨rfl, o₁, ho₁, rfl⟩ | ⟨-, ho⟩
    · exact absurd hr.2 OrderStatus.not_live_canceled
    · exact hold ho (by simp)
  | _ => exact hold ho ht

/-- Markets that shared a book before a step. -/
theorem sameBook_back (h : Step settings allow d d') {m n : Id}
    (hm : ∃ r, d.db.markets.get? m = some r) (hn : ∃ r, d.db.markets.get? n = some r)
    (hs : SameBook d'.db m n) : SameBook d.db m n := by
  have hback : ∀ {id b : Id}, (∃ r, d.db.markets.get? id = some r) → Db.bookOf d'.db id = some b →
      Db.bookOf d.db id = some b := by
    rintro id b ⟨r, hr⟩ hb
    obtain ⟨r', hr', hsame⟩ := market_kept h hr
    simpa only [Db.bookOf, hr', hr, Option.map_some, hsame.book] using hb
  obtain ⟨b, hb, hb'⟩ := hs
  exact ⟨b, hback hm hb, hback hn hb'⟩

private theorem uncrossed_step (h : Step settings allow d d') (hM : MarketsExist d.db)
    (hI : Uncrossed d.db d.taker) : Uncrossed d'.db d'.taker := by
  intro i j b s hb hs hti htj hbr hsr hbuy hsell hne hbook
  obtain ⟨b', hb', hbr', hbt, hbx⟩ := resting_back h hb hbr hti
  obtain ⟨s', hs', hsr', hst, hsx⟩ := resting_back h hs hsr htj
  have hbook' : SameBook d.db b'.marketId s'.marketId := by
    refine sameBook_back h (hM.orders i b' hb') (hM.orders j s' hs') ?_
    rwa [← hbt.market, ← hst.market]
  by_cases hi : d.taker = some i
  · obtain ⟨rfl, hx, -⟩ := hbx hi
    have hmatched := hx hbr.2 j s' hs' hsr' (by rw [← hst.player]; exact hne.symm) hbook'
    rw [hst.price]
    exact not_le.mp fun hle => hmatched (.inl ⟨hbuy, hst.side ▸ hsell, hle⟩)
  by_cases hj : d.taker = some j
  · obtain ⟨rfl, hx, -⟩ := hsx hj
    obtain ⟨k, hk, hk'⟩ := hbook'
    have hmatched := hx hsr.2 i b' hb' hbr' (by rw [← hbt.player]; exact hne) ⟨k, hk', hk⟩
    rw [hbt.price]
    exact not_le.mp fun hle => hmatched (.inr ⟨hsell, hbt.side ▸ hbuy, hle⟩)
  · rw [hbt.price, hst.price]
    refine hI i j b' s' hb' hs' hi hj hbr' hsr' (hbt.side ▸ hbuy) (hst.side ▸ hsell) ?_ hbook'
    rw [← hbt.player, ← hst.player]
    exact hne

/-- In every reachable state, resting orders of different players in one book do not cross. -/
theorem books_uncrossed (h : Reachable settings db) {i j : Id} {b s : OrderRow}
    (hb : db.orders.get? i = some b) (hs : db.orders.get? j = some s) (hbr : b.Resting) (hsr : s.Resting)
    (hbuy : b.side = .buy) (hsell : s.side = .sell) (hne : b.playerUuid ≠ s.playerUuid)
    (hbook : SameBook db b.marketId s.marketId) : b.priceCents < s.priceCents := by
  have hI : MarketsExist db ∧ Uncrossed db none :=
    h.induct (I := fun d => MarketsExist d.db ∧ Uncrossed d.db d.taker)
      ⟨⟨fun i o ho => by simp at ho, fun i r hr => by simp at hr, fun i e he => by simp at he⟩,
        fun i j b s hb => by simp at hb⟩
      fun hs hI => ⟨marketsExist_step hs hI.1, uncrossed_step hs hI.1 hI.2⟩
  exact hI.2 i j b s hb hs (by simp) (by simp) hbr hsr hbuy hsell hne hbook

/-- Two players on both sides of one book, and one of them on both. -/
theorem books_uncrossed_spread :
    let db := afterCalls sampleSettings [.activateMarket (diamondMarket "block"),
      .placeOrder (diamondOrder "alice" .sell .limit 600 4),
      .placeOrder (diamondOrder "bob" .buy .limit 500 4),
      .placeOrder (diamondOrder "bob" .sell .limit 400 4)]
    ∃ b s, db.orders.get? 2 = some b ∧ db.orders.get? 1 = some s ∧ b.priceCents < s.priceCents := by
  intro db
  have hrows : ∃ b s, db.orders.get? 2 = some b ∧ db.orders.get? 1 = some s ∧ b.Resting ∧ s.Resting ∧
      b.side = .buy ∧ s.side = .sell ∧ b.playerUuid ≠ s.playerUuid ∧ b.marketId = 1 ∧ s.marketId = 1 :=
    ⟨_, _, rfl, rfl, by decide, by decide, rfl, rfl, by decide, rfl, rfl⟩
  obtain ⟨b, s, hb, hs, hbr, hsr, hbuy, hsell, hne, hbm, hsm⟩ := hrows
  have hbook : SameBook db b.marketId s.marketId := by
    rw [hbm, hsm]
    exact ⟨1, rfl, rfl⟩
  exact ⟨b, s, hb, hs,
    books_uncrossed (reachable_afterCalls _ _) hb hs hbr hsr hbuy hsell hne hbook⟩
end EndstoneExchange.UncrossedBooks
