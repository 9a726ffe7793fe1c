import EndstoneExchange.OrderReconciliation

/-!
# Where deliveries come from

A delivery is what a buyer got in a trade or what a seller got back. Either way
it is for the owner of an order over the same item.
-/
namespace EndstoneExchange.DeliveryOrigins
open AutoIncrementTables KeyedTables ExchangeDomain ExchangeTransactions OrderMatching
  DeliveryOperations ClearingSteps RowHistories ServiceRuns OrderReconciliation

variable {settings : Settings} {allow : Special → Prop} {d d' : Desk} {db : Db}

section Items

def SameItem (a b : ItemPrototype) : Prop := a.type = b.type ∧ a.data = b.data ∧ a.nbt = b.nbt

/-- The item of a market is the item of its book. -/
def ItemsOfBooks (db : Db) : Prop :=
  ∀ i m, db.markets.get? i = some m → ∃ b, db.books.get? m.bookId = some b ∧
    b.itemType = m.item.type ∧ b.itemData = m.item.data ∧ b.itemNbt = m.item.nbt

theorem itemsOfBooks_step (h : Step settings allow d d') (hI : ItemsOfBooks d.db) :
    ItemsOfBooks d'.db := by
  have hbook := fun id b => @book_kept _ _ _ _ h id b
  cases h with
  | openMarket hb hi =>
    intro i m hm
    rcases Table.get?_insert_cases hm with ⟨-, rfl⟩ | ⟨-, hm⟩
    · exact ⟨_, hb, hi⟩
    · exact hI i m hm
  | switchMarket =>
    intro i m hm
    rcases Table.get?_update_cases hm with ⟨-, m', hm', rfl⟩ | ⟨-, hm⟩
    · exact hI _ m' hm'
    · exact hI i m hm
  | openBook =>
    intro i m hm
    obtain ⟨b, hb, hi⟩ := hI i m hm
    exact ⟨b, hbook _ b hb, hi⟩
  | _ => exact hI

theorem reachable_itemsOfBooks (h : Reachable settings db) : ItemsOfBooks db :=
  h.induct (I := fun d => ItemsOfBooks d.db) (fun i m hm => by simp at hm) itemsOfBooks_step

theorem SameBook.step {m n : Id} (h : Step settings allow d d') (hs : SameBook d.db m n) :
    SameBook d'.db m n := by
  have hkept : ∀ {id b : Id}, Db.bookOf d.db id = some b → Db.bookOf d'.db id = some b := by
    intro id b hb
    obtain ⟨m, hm, rfl⟩ := Option.map_eq_some_iff.mp hb
    obtain ⟨m', hm', hs⟩ := market_kept h hm
    simp only [Db.bookOf, hm', Option.map_some, hs.book]
  obtain ⟨b, hm, hn⟩ := hs
  exact ⟨b, hkept hm, hkept hn⟩

/-- Markets of one book are over one item. -/
theorem SameBook.item {i j : Id} (h : SameBook db i j) (hI : ItemsOfBooks db) :
    ∃ m n, db.markets.get? i = some m ∧ db.markets.get? j = some n ∧ SameItem m.item n.item := by
  obtain ⟨b, hi, hj⟩ := h
  obtain ⟨m, hm, rfl⟩ := Option.map_eq_some_iff.mp hi
  obtain ⟨n, hn, hbook⟩ := Option.map_eq_some_iff.mp hj
  obtain ⟨bm, hbm, htm, hdm, hnm⟩ := hI i m hm
  obtain ⟨bn, hbn, htn, hdn, hnn⟩ := hI j n hn
  rw [hbook] at hbn
  obtain rfl : bm = bn := Option.some.inj (hbm.symm.trans hbn)
  exact ⟨m, n, hm, hn, htm.symm.trans htn, hdm.symm.trans hdn, hnm.symm.trans hnn⟩

end Items

section Markets

/-- Every order, delivery and escrow is at a market that exists. -/
structure MarketsExist (db : Db) : Prop where
  orders : ∀ i o, db.orders.get? i = some o → ∃ m, db.markets.get? o.marketId = some m
  deliveries : ∀ i r, db.deliveries.get? i = some r → ∃ m, db.markets.get? r.marketId = some m
  sellEscrows : ∀ i e, db.sellEscrows.get? i = some e → ∃ m, db.markets.get? e.marketId = some m

theorem exists_market (h : Step settings allow d d') {id : Id}
    (hm : ∃ m, d.db.markets.get? id = some m) : ∃ m, d'.db.markets.get? id = some m := by
  obtain ⟨m, hm⟩ := hm
  obtain ⟨m', hm', -⟩ := market_kept h hm
  exact ⟨m', hm'⟩

/-- What is checked of an order when it is opened. -/
structure Admitted (db : Db) (o : OrderRow) : Prop where
  market : ∃ m, db.markets.get? o.marketId = some m
  account : ∃ a, db.accounts.find? o.playerUuid = some a
  price_pos : o.orderType = .limit → 0 < o.priceCents

/-- Where the orders after a step come from. -/
theorem order_row (h : Step settings allow d d') {id : Id} {o : OrderRow}
    (ho : d'.db.orders.get? id = some o) :
    (∃ o', d.db.orders.get? id = some o' ∧ SameTerms o' o) ∨ Admitted d.db o := by
  cases h with
  | openOrder hm hs hq hr hp hv hc ha hw =>
    rcases Table.get?_insert_cases ho with ⟨-, rfl⟩ | ⟨-, ho⟩
    · exact .inr ⟨⟨_, hm⟩, hw, hp.1⟩
    · exact .inl ⟨o, ho, .refl o⟩
  | settleTrade hs =>
    obtain ⟨rfl, -, rfl⟩ | ⟨rfl, -, rfl⟩ | ⟨-, -, ho⟩ := settleTrade_row hs ho
    · exact .inl ⟨_, hs.buyOrder.row, sameTerms_traded _ _⟩
    · exact .inl ⟨_, hs.sellOrder.row, sameTerms_traded _ _⟩
    · exact .inl ⟨o, ho, .refl o⟩
  | closeMarket h =>
    rcases Table.get?_update_cases ho with ⟨rfl, o', ho', rfl⟩ | ⟨-, ho⟩
    · exact .inl ⟨o', ho', ⟨rfl, rfl, rfl, rfl, rfl, rfl⟩⟩
    · exact .inl ⟨o, ho, .refl o⟩
  | withdraw h =>
    rcases Table.get?_update_cases ho with ⟨rfl, o', ho', rfl⟩ | ⟨-, ho⟩
    · exact .inl ⟨o', ho', ⟨rfl, rfl, rfl, rfl, rfl, rfl⟩⟩
    · exact .inl ⟨o, ho, .refl o⟩
  | _ => exact .inl ⟨o, ho, .refl o⟩

/-- Two rows of one escrow. -/
structure SameSeller (e e' : SellEscrowRow) : Prop where
  market : e'.marketId = e.marketId
  player : e'.playerUuid = e.playerUuid

/-- Where the escrows after a step come from. -/
theorem escrow_row (h : Step settings allow d d') {id : Id} {e : SellEscrowRow}
    (he : d'.db.sellEscrows.get? id = some e) :
    (∃ e', d.db.sellEscrows.get? id = some e' ∧ SameSeller e' e) ∨
      (∃ m, d.db.markets.get? e.marketId = some m) ∧ ∃ a, d.db.accounts.find? e.playerUuid = some a := by
  have hset : ∀ {db : Db} {id' : Id} {f : SellEscrowRow → SellEscrowRow},
      (db.sellEscrows.update id' f).get? id = some e → (∀ e, SameSeller e (f e)) →
        ∃ e', db.sellEscrows.get? id = some e' ∧ SameSeller e' e := by
    intro db id' f he hf
    rcases Table.get?_update_cases he with ⟨rfl, e', he', rfl⟩ | ⟨-, he⟩
    · exact ⟨e', he', hf e'⟩
    · exact ⟨e, he, ⟨rfl, rfl⟩⟩
  cases h with
  | prepareEscrow hm ha hq hs hp hw =>
    rcases Table.get?_insert_cases he with ⟨-, rfl⟩ | ⟨-, he⟩
    · exact .inr ⟨⟨_, hm⟩, hw⟩
    · exact .inl ⟨e, he, ⟨rfl, rfl⟩⟩
  | tagEscrow => exact .inl (hset he fun _ => ⟨rfl, rfl⟩)
  | orderEscrow => exact .inl (hset he fun _ => ⟨rfl, rfl⟩)
  | cancelEscrow => exact .inl (hset he fun _ => ⟨rfl, rfl⟩)
  | cleanEscrow => exact .inl (hset he fun _ => ⟨rfl, rfl⟩)
  | _ => exact .inl ⟨e, he, ⟨rfl, rfl⟩⟩

end Markets

section Origins

/-- Two rows of one delivery. -/
structure SameDelivery (r r' : DeliveryRow) : Prop where
  player : r'.playerUuid = r.playerUuid
  market : r'.marketId = r.marketId
  quantity : r'.quantity = r.quantity
  reason : r'.reason = r.reason

theorem SameDelivery.refl (r : DeliveryRow) : SameDelivery r r := ⟨rfl, rfl, rfl, rfl⟩

/-- A delivery and the order it was made for. -/
inductive Origin (db : Db) (r : DeliveryRow) : Prop
  | bought {i : Id} {t : TradeRow} {buy : OrderRow} (reason : r.reason = .tradeBuy)
      (trade : db.trades.get? i = some t) (row : db.orders.get? t.buyOrderId = some buy)
      (side : buy.side = .buy) (owner : buy.playerUuid = r.playerUuid)
      (same : t.buyerUuid = r.playerUuid ∧ t.marketId = r.marketId ∧ t.quantity = r.quantity)
      (book : SameBook db r.marketId buy.marketId)
  | returned {id : Id} {o : OrderRow} (reason : r.reason ≠ .tradeBuy)
      (row : db.orders.get? id = some o) (side : o.side = .sell)
      (owner : o.playerUuid = r.playerUuid) (market : o.marketId = r.marketId)

theorem Origin.step {r r' : DeliveryRow} (h : Step settings allow d d') (hs : SameDelivery r r')
    (ho : Origin d.db r) : Origin d'.db r' := by
  cases ho with
  | @bought i t buy hr ht hrow hside howner hsame hbook =>
    have ht' : d'.db.trades.get? i = some t := by
      rcases trades_cases h with he | ⟨t', -, -, -, he⟩ <;> rw [he]
      · exact ht
      · exact Table.get?_insert_old _ ht
    obtain ⟨buy', hrow', hterms⟩ := order_kept h hrow
    refine .bought (hs.reason.trans hr) ht' hrow' (hterms.side.trans hside) ?_ ?_ ?_
    · rw [hterms.player, howner, hs.player]
    · rw [hs.player, hs.market, hs.quantity]
      exact hsame
    · rw [hs.market, hterms.market]
      exact SameBook.step h hbook
  | @returned id o hr hrow hside howner hmarket =>
    obtain ⟨o', hrow', hterms⟩ := order_kept h hrow
    refine .returned (fun he => hr (hs.reason.symm.trans he)) hrow' (hterms.side.trans hside) ?_ ?_
    · rw [hterms.player, howner, hs.player]
    · rw [hterms.market, hmarket, hs.market]

theorem deliver_row {playerUuid : String} {marketId : Id} {q : ℤ} {reason : DeliveryReason} {id : Id}
    {r : DeliveryRow} (h : (Db.deliver db playerUuid marketId q reason).deliveries.get? id = some r) :
    db.deliveries.get? id = some r ∨ r = { playerUuid, marketId, quantity := q, reason } := by
  rw [Db.deliver_deliveries] at h
  split_ifs at h
  · exact .inl h
  · rcases Table.get?_insert_cases h with ⟨-, rfl⟩ | ⟨-, h⟩
    · exact .inr rfl
    · exact .inl h

/-- Only a seller gets something back when an order is closed. -/
theorem returned_row {o : OrderRow} {reason : DeliveryReason} {id : Id} {r : DeliveryRow}
    (h : (Db.deliver db o.playerUuid o.marketId (if o.side = .buy then 0 else o.remainingQty)
      reason).deliveries.get? id = some r) : db.deliveries.get? id = some r ∨
        o.side = .sell ∧ r.playerUuid = o.playerUuid ∧ r.marketId = o.marketId ∧ r.reason = reason := by
  cases hside : o.side with
  | buy =>
    simp only [hside, if_true, Db.deliver_deliveries, le_refl] at h
    exact .inl h
  | sell =>
    refine (deliver_row h).imp_right ?_
    rintro rfl
    exact ⟨rfl, rfl, rfl, rfl⟩

/-- Where the deliveries after a step come from. -/
theorem delivery_row (h : Step settings allow d d') {id : Id} {r : DeliveryRow}
    (hr : d'.db.deliveries.get? id = some r) :
    (∃ r', d.db.deliveries.get? id = some r' ∧ SameDelivery r' r) ∨ Origin d'.db r := by
  have hold : ∀ {db : Db}, db.deliveries.get? id = some r →
      ∃ r', db.deliveries.get? id = some r' ∧ SameDelivery r' r := fun h => ⟨r, h, .refl r⟩
  have hset : ∀ {db : Db} {id' : Id} {f : DeliveryRow → DeliveryRow},
      (db.deliveries.update id' f).get? id = some r → (∀ r, SameDelivery r (f r)) →
        ∃ r', db.deliveries.get? id = some r' ∧ SameDelivery r' r := by
    intro db id' f hr hf
    rcases Table.get?_update_cases hr with ⟨rfl, r', hr', rfl⟩ | ⟨-, hr⟩
    · exact ⟨r', hr', hf r'⟩
    · exact hold hr
  have hkept := fun id o => @order_kept _ _ _ _ h id o
  have hbooks := fun m n => SameBook.step (m := m) (n := n) h
  cases h with
  | @settleTrade db taker t buy sell hs =>
    rcases deliver_row hr with hr | rfl
    · exact .inl (hold hr)
    · obtain ⟨buy', hrow, hterms⟩ := hkept _ _ hs.buyOrder.row
      have hbook : SameBook db t.marketId buy.marketId := by
        obtain ⟨b, hb, hsell⟩ := hs.book
        rcases hs.market with hm | hm <;> rw [hm]
        · exact ⟨b, hb, hb⟩
        · exact ⟨b, hsell, hb⟩
      refine .inr (.bought (i := db.trades.nextId) (t := t) rfl (Table.get?_insert_self _ _) hrow
        (hterms.side.trans hs.sides.1) (hterms.player.trans hs.owners.1.symm) ⟨rfl, rfl, rfl⟩ ?_)
      rw [hterms.market]
      exact hbooks _ _ hbook
  | @closeMarket db orderId o h ht =>
    rcases returned_row hr with hr | ⟨hside, hplayer, hmarket, hreason⟩
    · exact .inl (hold hr)
    · obtain ⟨o', hrow, hterms⟩ := hkept _ _ h
      exact .inr (.returned (by simp [hreason]) hrow (hterms.side.trans hside)
        (hterms.player.trans hplayer.symm) (hterms.market.trans hmarket.symm))
  | @withdraw db orderId o refund returned h hrest hf hd =>
    rcases returned_row hr with hr | ⟨hside, hplayer, hmarket, hreason⟩
    · exact .inl (hold hr)
    · obtain ⟨o', hrow, hterms⟩ := hkept _ _ h
      have hreturned : r.reason ≠ .tradeBuy := by rcases hd with rfl | rfl <;> simp [hreason]
      exact .inr (.returned hreturned hrow (hterms.side.trans hside)
        (hterms.player.trans hplayer.symm) (hterms.market.trans hmarket.symm))
  | @prepareClaim => exact .inl (hset hr fun _ => ⟨rfl, rfl, rfl, rfl⟩)
  | @settleClaim => exact .inl (hset hr fun _ => ⟨rfl, rfl, rfl, rfl⟩)
  | @orderEscrow db escrowId orderId e o ha h hs ho hside hm =>
    rcases deliver_row hr with hr | rfl
    · exact .inl (hold hr)
    · exact .inr (.returned (by simp) ho hside hm.2.1 hm.1)
  | _ => exact .inl (hold hr)

theorem origins_step (h : Step settings allow d d')
    (hI : ∀ i r, d.db.deliveries.get? i = some r → Origin d.db r) :
    ∀ i r, d'.db.deliveries.get? i = some r → Origin d'.db r := by
  intro i r hr
  rcases delivery_row h hr with ⟨r', hr', hs⟩ | horigin
  · exact (hI i r' hr').step h hs
  · exact horigin

theorem marketsExist_step (h : Step settings allow d d') (hI : MarketsExist d.db) :
    MarketsExist d'.db := by
  have horders : ∀ i o, d'.db.orders.get? i = some o → ∃ m, d'.db.markets.get? o.marketId = some m := by
    intro i o ho
    refine exists_market h ?_
    rcases order_row h ho with ⟨o', ho', hs⟩ | hm
    · rw [hs.market]
      exact hI.orders i o' ho'
    · exact hm.market
  have hescrows : ∀ i e, d'.db.sellEscrows.get? i = some e →
      ∃ m, d'.db.markets.get? e.marketId = some m := by
    intro i e he
    refine exists_market h ?_
    rcases escrow_row h he with ⟨e', he', hs⟩ | ⟨hm, -⟩
    · rw [hs.market]
      exact hI.sellEscrows i e' he'
    · exact hm
  refine ⟨horders, fun i r hr => ?_, hescrows⟩
  rcases delivery_row h hr with ⟨r', hr', hs⟩ | horigin
  · rw [hs.market]
    exact exists_market h (hI.deliveries i r' hr')
  · cases horigin with
    | bought _ _ _ _ _ _ hbook =>
      obtain ⟨b, hb, -⟩ := hbook
      obtain ⟨m, hm, -⟩ := Option.map_eq_some_iff.mp hb
      exact ⟨m, hm⟩
    | returned _ hrow _ _ hmarket =>
      rw [← hmarket]
      exact horders _ _ hrow

/-- The order a delivery was made for: a purchase by one of its trades, or a return. -/
structure MadeFor (db : Db) (r : DeliveryRow) (id : Id) (o : OrderRow) : Prop where
  row : db.orders.get? id = some o
  owner : o.playerUuid = r.playerUuid
  bought : r.reason = .tradeBuy → o.side = .buy ∧ ∃ i t, db.trades.get? i = some t ∧
    t.buyOrderId = id ∧ t.marketId = r.marketId ∧ t.quantity = r.quantity
  returned : r.reason ≠ .tradeBuy → o.side = .sell ∧ o.marketId = r.marketId

theorem Origin.madeFor {r : DeliveryRow} (ho : Origin db r) (hm : MarketsExist db)
    (hI : ItemsOfBooks db) : ∃ id o m n, MadeFor db r id o ∧ db.markets.get? r.marketId = some m ∧
      db.markets.get? o.marketId = some n ∧ SameItem m.item n.item := by
  cases ho with
  | @bought i t buy hr ht hrow hside howner hsame hbook =>
    obtain ⟨m, n, hmr, hno, hitem⟩ := SameBook.item hbook hI
    refine ⟨_, buy, m, n, ⟨hrow, howner, fun _ => ?_, fun hne => absurd hr hne⟩, hmr, hno, hitem⟩
    exact ⟨hside, i, t, ht, rfl, hsame.2⟩
  | @returned id o hr hrow hside howner hmarket =>
    obtain ⟨m, hget⟩ := hm.orders id o hrow
    refine ⟨id, o, m, m, ⟨hrow, howner, fun he => absurd he hr, fun _ => ⟨hside, hmarket⟩⟩, ?_, hget,
      ⟨rfl, rfl, rfl⟩⟩
    rw [← hmarket]
    exact hget

end Origins

section Purchases

/-- What a delivery says of the trade it was made for. -/
def boughtItems (r : DeliveryRow) : Option (String × Id × ℤ) :=
  if r.reason = .tradeBuy then some (r.playerUuid, r.marketId, r.quantity) else none

def tradedItems (t : TradeRow) : Option (String × Id × ℤ) := some (t.buyerUuid, t.marketId, t.quantity)

theorem collect_returned {playerUuid : String} {marketId : Id} {q : ℤ} {reason : DeliveryReason}
    (h : reason ≠ .tradeBuy) :
    (Db.deliver db playerUuid marketId q reason).deliveries.collect boughtItems =
      db.deliveries.collect boughtItems := by
  rw [Db.deliver_deliveries]
  split_ifs
  · rfl
  · simp [boughtItems, h]

/-- Each trade made exactly one delivery to its buyer, in the same order. -/
theorem purchases_step (h : Step settings allow d d')
    (hI : d.db.deliveries.collect boughtItems = d.db.trades.collect tradedItems) :
    d'.db.deliveries.collect boughtItems = d'.db.trades.collect tradedItems := by
  have hset : ∀ {id : Id} {f : DeliveryRow → DeliveryRow}, (∀ r, boughtItems (f r) = boughtItems r) →
      (d.db.deliveries.update id f).collect boughtItems = d.db.trades.collect tradedItems :=
    fun hf => (Table.collect_update _ _ _ hf).trans hI
  cases h with
  | @settleTrade db taker t buy sell hs =>
    have hdelivered : (Db.settleTrade db t buy).deliveries.collect boughtItems =
        db.deliveries.collect boughtItems ++ [(t.buyerUuid, t.marketId, t.quantity)] := by
      simp [Db.settleTrade, not_le.mpr hs.quantity_pos, boughtItems]
    have htraded : (Db.settleTrade db t buy).trades.collect tradedItems =
      db.trades.collect tradedItems ++ [(t.buyerUuid, t.marketId, t.quantity)] :=
        Table.collect_insert _ _ _
    rw [hdelivered, htraded, hI]
  | closeMarket => exact (collect_returned (by simp)).trans hI
  | withdraw h hr hf hd =>
    exact (collect_returned (by rcases hd with rfl | rfl <;> simp)).trans hI
  | prepareClaim => exact hset fun _ => rfl
  | settleClaim => exact hset fun _ => rfl
  | orderEscrow => exact (collect_returned (by simp)).trans hI
  | _ => exact hI

end Purchases
end EndstoneExchange.DeliveryOrigins
