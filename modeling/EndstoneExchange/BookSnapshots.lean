import EndstoneExchange.OrderBookQueries
import EndstoneExchange.OrderReconciliation

/-!
# Snapshots of the order books

The batched query of the best levels agrees with the order book of every market, and
the order book shows each level in full, as long as its levels fit an `int`.
-/
namespace EndstoneExchange.BookSnapshots
open AutoIncrementTables ExchangeDomain OrderMatching ServiceRuns OrderReconciliation GroupedRows
  OrderBookQueries

section Prices

def better : Side → Cents → Cents → Prop
  | .buy, a, b => a > b
  | .sell, a, b => a < b

instance (side : Side) : DecidableRel (better side) := fun a b =>
  match side with
  | .buy => inferInstanceAs (Decidable (a > b))
  | .sell => inferInstanceAs (Decidable (a < b))

variable {side : Side}

private theorem better_iff {a b : Cents} : better side a b ↔ priceBefore side a b ∧ a ≠ b := by
  cases side with
  | buy =>
    change b < a ↔ b ≤ a ∧ a ≠ b
    rw [lt_iff_le_and_ne, ne_comm]
  | sell => exact lt_iff_le_and_ne

private theorem better_asymm {a b : Cents} (h : better side a b) : ¬ better side b a := by
  cases side with
  | buy => exact lt_asymm (a := b) h
  | sell => exact lt_asymm (a := a) h

instance : Std.Total (levelBefore side) := ⟨fun a b => by
  cases side with
  | buy => exact le_total (α := ℤ) b.1 a.1
  | sell => exact le_total (α := ℤ) a.1 b.1⟩

instance : IsTrans (Cents × ℤ) (levelBefore side) := ⟨fun a b c h h' => by
  cases side with
  | buy => exact le_trans (α := ℤ) h' h
  | sell => exact le_trans (α := ℤ) h h'⟩

/-- The best of some prices is one that none is better than. -/
theorem bestPrice_eq_some {prices : List Cents} {p : Cents} :
    bestPrice side prices = some p ↔ p ∈ prices ∧ ∀ q ∈ prices, priceBefore side p q := by
  cases side with
  | buy => exact List.max?_eq_some_iff
  | sell => exact List.min?_eq_some_iff

private theorem bestPrice_eq_none {prices : List Cents} : bestPrice side prices = none ↔ prices = [] := by
  cases side with
  | buy => exact List.max?_eq_none_iff
  | sell => exact List.min?_eq_none_iff

end Prices

section Levels
variable {side : Side} {bookId : Id} {db : Db}

/-- The orders at a price. -/
def atPrice (orders : List OrderRow) (price : Cents) : List OrderRow := group (·.priceCents) orders price

theorem mem_levels {e : Cents × ℤ} : e ∈ levels side bookId db ↔
    (∃ o ∈ restingOrders side bookId db, o.priceCents = e.1) ∧
      totalQuantity (atPrice (restingOrders side bookId db) e.1) = e.2 := by
  rw [levels, List.mem_insertionSort]
  exact mem_groupBy _ _ _

theorem levels_prices : ((levels side bookId db).map Prod.fst).Perm
    ((restingOrders side bookId db).map (·.priceCents)).dedup := by
  have hkeys : (groupBy (·.priceCents) totalQuantity (restingOrders side bookId db)).map Prod.fst =
      ((restingOrders side bookId db).map (·.priceCents)).dedup := by
    rw [groupBy, List.map_map]
    exact List.map_id _
  rw [← hkeys]
  exact (List.perm_insertionSort (levelBefore side) _).map _

theorem levels_sorted : (levels side bookId db).Pairwise fun a b => better side a.1 b.1 := by
  have hordered : (levels side bookId db).Pairwise (levelBefore side) := List.pairwise_insertionSort _ _
  have hdistinct : (levels side bookId db).Pairwise fun a b => a.1 ≠ b.1 :=
    List.pairwise_map.mp (levels_prices.nodup_iff.mpr (List.nodup_dedup _))
  exact (hordered.and hdistinct).imp fun h => better_iff.mpr h

/-- How many better prices there are. -/
def rank (side : Side) (orders : List OrderRow) (price : Cents) : ℕ :=
  ((orders.map (·.priceCents)).dedup.filter fun p => better side p price).length

theorem mem_take_levels {depth : ℕ} {e : Cents × ℤ} : e ∈ (levels side bookId db).take depth ↔
    e ∈ levels side bookId db ∧ rank side (restingOrders side bookId db) e.1 < depth := by
  have hrank : ((levels side bookId db).filter fun b => better side b.1 e.1).length =
      rank side (restingOrders side bookId db) e.1 := by
    rw [rank, ← (levels_prices.filter _).length_eq, List.filter_map, List.length_map]
    rfl
  rw [mem_take_iff levels_sorted fun a b h => better_asymm h, hrank]

end Levels

section Tops
variable {side : Side} {bookId : Id} {bookIds : List Id} {db : Db}

def prices (orders : List OrderRow) : List Cents := orders.map (·.priceCents)

/-- The best level of some orders. -/
def topLevel (side : Side) (orders : List OrderRow) : Option (Cents × ℤ) :=
  (bestPrice side (prices orders)).map fun p => (p, totalQuantity (atPrice orders p))

/-- The order book lists the best level first. -/
theorem levels_head? : (levels side bookId db).head? = topLevel side (restingOrders side bookId db) := by
  cases hhead : (levels side bookId db).head? with
  | none =>
    have hnil := List.head?_eq_none_iff.mp hhead
    have hprices : prices (restingOrders side bookId db) = [] := by
      refine List.map_eq_nil_iff.mpr (List.eq_nil_iff_forall_not_mem.mpr fun o ho => ?_)
      have hmem : (o.priceCents, totalQuantity (atPrice (restingOrders side bookId db) o.priceCents)) ∈
          levels side bookId db := mem_levels.mpr ⟨⟨o, ho, rfl⟩, rfl⟩
      rw [hnil] at hmem
      cases hmem
    rw [topLevel, bestPrice_eq_none.mpr hprices]
    rfl
  | some e =>
    obtain ⟨-, hfirst⟩ := head?_insertionSort hhead
    have hmem : e ∈ levels side bookId db := List.mem_of_head? hhead
    obtain ⟨⟨o, ho, hprice⟩, htotal⟩ := mem_levels.mp hmem
    have hbest : bestPrice side (prices (restingOrders side bookId db)) = some e.1 := by
      refine bestPrice_eq_some.mpr ⟨List.mem_map.mpr ⟨o, ho, hprice⟩, fun q hq => ?_⟩
      obtain ⟨o', ho', rfl⟩ := List.mem_map.mp hq
      exact hfirst (o'.priceCents, totalQuantity (atPrice (restingOrders side bookId db) o'.priceCents))
        ((mem_groupBy _ _ _).mpr ⟨⟨o', ho', rfl⟩, rfl⟩)
    rw [topLevel, hbest, Option.map_some, htotal]

/-- The orders of a book among those of all books. -/
theorem restingOrders_filter {p : Id × OrderRow → Prop} [DecidablePred p] (hp : ∀ o, p (bookId, o)) :
    (((openOrders side db).filter fun e => p e).filter fun e => e.1 = bookId).map Prod.snd =
      restingOrders side bookId db := by
  rw [restingOrders, List.filter_filter]
  congr 1
  refine List.filter_congr fun e _ => ?_
  obtain ⟨b, o⟩ := e
  by_cases hb : b = bookId
  · subst hb
    simp [hp o]
  · simp [hb]

theorem mem_restingOrders {o : OrderRow} : o ∈ restingOrders side bookId db ↔ (bookId, o) ∈ openOrders side db := by
  simp only [restingOrders, List.mem_map, List.mem_filter, decide_eq_true_eq]
  constructor
  · rintro ⟨⟨b, o'⟩, ⟨ho, rfl⟩, rfl⟩
    exact ho
  · intro ho
    exact ⟨(bookId, o), ⟨ho, rfl⟩, rfl⟩

theorem mem_bestPrices (hb : bookId ∈ bookIds) {o : OrderRow} (ho : (bookId, o) ∈ openOrders side db)
    {best : Option Cents} : (bookId, best) ∈ bestPrices side bookIds db ↔
      bestPrice side (prices (restingOrders side bookId db)) = best := by
  have hgroup : (group Prod.fst ((openOrders side db).filter fun e => e.1 ∈ bookIds) bookId).map
      (·.2.priceCents) = prices (restingOrders side bookId db) := by
    rw [prices, ← restingOrders_filter (p := fun e => e.1 ∈ bookIds) fun _ => hb, List.map_map]
    rfl
  rw [bestPrices, mem_groupBy, hgroup]
  refine ⟨fun h => h.2, fun h => ⟨⟨(bookId, o), ?_, rfl⟩, h⟩⟩
  rw [List.mem_filter, decide_eq_true_eq]
  exact ⟨ho, hb⟩

/-- A book has one row, its best level. -/
theorem topLevels_book (hb : bookId ∈ bookIds) :
    (topLevels side bookIds db).filter (fun row => row.1.1 = bookId) =
      (topLevel side (restingOrders side bookId db)).toList.map
        fun level => ((bookId, level.1), min level.2 maxInt) := by
  let joined := (openOrders side db).filter fun e => (e.1, some e.2.priceCents) ∈ bestPrices side bookIds db
  let key : Id × OrderRow → Id × Cents := fun e => (e.1, e.2.priceCents)
  have hjoined : ∀ o, (bookId, o) ∈ joined ↔ (bookId, o) ∈ openOrders side db ∧
      bestPrice side (prices (restingOrders side bookId db)) = some o.priceCents := by
    intro o
    simp only [joined, List.mem_filter, decide_eq_true_eq]
    exact and_congr_right fun ho => mem_bestPrices hb ho
  have hrows : (topLevels side bookIds db).filter (fun row => row.1.1 = bookId) =
      ((joined.map key).dedup.filter fun k => k.1 = bookId).map fun k =>
        (k, min (totalQuantity ((group key joined k).map Prod.snd)) maxInt) := List.filter_map
  have hkeys : ∀ k ∈ (joined.map key).dedup.filter (fun k => k.1 = bookId), ∃ o, (bookId, o) ∈ openOrders side db ∧
      bestPrice side (prices (restingOrders side bookId db)) = some o.priceCents ∧ k = (bookId, o.priceCents) := by
    intro k hk
    obtain ⟨hmem, hbook⟩ := List.mem_filter.mp hk
    obtain ⟨⟨b, o⟩, ho, rfl⟩ := List.mem_map.mp (List.mem_dedup.mp hmem)
    obtain rfl : b = bookId := of_decide_eq_true hbook
    obtain ⟨hopen, hbest⟩ := (hjoined o).mp ho
    exact ⟨o, hopen, hbest, rfl⟩
  rw [hrows, topLevel]
  cases hbest : bestPrice side (prices (restingOrders side bookId db)) with
  | none =>
    have hnone : (joined.map key).dedup.filter (fun k => k.1 = bookId) = [] := by
      refine List.eq_nil_iff_forall_not_mem.mpr fun k hk => ?_
      obtain ⟨o, -, hsome, -⟩ := hkeys k hk
      rw [hbest] at hsome
      cases hsome
    rw [hnone]
    rfl
  | some p =>
    obtain ⟨hmem, -⟩ := bestPrice_eq_some.mp hbest
    obtain ⟨o, ho, rfl⟩ := List.mem_map.mp hmem
    have hsole : (joined.map key).dedup.filter (fun k => k.1 = bookId) = [(bookId, o.priceCents)] := by
      refine eq_singleton ((List.nodup_dedup _).filter _) ?_ fun k hk => ?_
      · rw [List.mem_filter, List.mem_dedup, decide_eq_true_eq]
        exact ⟨List.mem_map.mpr ⟨(bookId, o), (hjoined o).mpr ⟨mem_restingOrders.mp ho, hbest⟩, rfl⟩, rfl⟩
      · obtain ⟨o', -, hsome, rfl⟩ := hkeys k hk
        rw [hbest] at hsome
        rw [Option.some.inj hsome]
    have hgroup : (group key joined (bookId, o.priceCents)).map Prod.snd =
        atPrice (restingOrders side bookId db) o.priceCents := by
      rw [atPrice, group, group, restingOrders, List.filter_map, List.filter_filter, List.filter_filter]
      congr 1
      refine List.filter_congr fun e he => ?_
      obtain ⟨b, o'⟩ := e
      have hbook : b = bookId → ((b, some o'.priceCents) ∈ bestPrices side bookIds db ↔
          o.priceCents = o'.priceCents) := by
        rintro rfl
        rw [mem_bestPrices hb he, hbest, Option.some.injEq]
      simp only [key, Prod.mk.injEq, Bool.decide_and, Function.comp_apply]
      by_cases hbe : b = bookId
      · simp [hbe, ← hbe ▸ hbook hbe, eq_comm]
      · simp [hbe]
    rw [hsole, List.map_singleton, hgroup]
    rfl

/-- What the pushed levels make of a book. -/
def OrderBook.pushAll (side : Side) (book : OrderBook) (levels : List PriceLevel) : OrderBook :=
  levels.foldl (fun book level => OrderBook.push side level book) book

def toLevel (e : Cents × ℤ) : PriceLevel := ⟨e.1, e.2⟩

theorem cellInt_ok {value : ℤ} (h : 0 ≤ value) (h' : value ≤ maxInt) : cellInt value = .ok value := by
  have hmax : maxInt ≤ maxCents := by decide
  have hmin : -maxInt - 1 ≤ 0 := by decide
  have hmin' : -maxCents - 1 ≤ 0 := by decide
  rw [cellInt, cellInt64_of_fits (hmin'.trans h) (h'.trans hmax)]
  exact if_neg (by omega)

private theorem cellInt_error {value : ℤ} (h : maxInt < value) : ∃ e, cellInt value = .error e := by
  rw [cellInt]
  cases hcell : cellInt64 value with
  | error e => exact ⟨e, rfl⟩
  | ok result =>
    obtain rfl : value = result := by
      rw [cellInt64] at hcell
      split_ifs at hcell
      exact Except.ok.inj hcell
    exact ⟨_, if_pos (.inr h)⟩

theorem pushLevels_ok {rows : List ((Id × Cents) × ℤ)} {books : Books}
    (h : ∀ row ∈ rows, 0 ≤ row.2 ∧ row.2 ≤ maxInt) : ∃ books', pushLevels side rows books = .ok books' ∧
      ∀ id, (books' id).getD {} = OrderBook.pushAll side ((books id).getD {})
        ((rows.filter fun row => row.1.1 = id).map fun row => ⟨row.1.2, row.2⟩) := by
  induction rows generalizing books with
  | nil => exact ⟨books, rfl, fun id => rfl⟩
  | cons row rows ih =>
    obtain ⟨⟨book, price⟩, total⟩ := row
    obtain ⟨h0, hmax⟩ := h _ List.mem_cons_self
    obtain ⟨books', hpush, hbooks⟩ := @ih (books.modify book (OrderBook.push side ⟨price, total⟩))
      fun row hrow => h row (List.mem_cons_of_mem _ hrow)
    refine ⟨books', ?_, fun id => ?_⟩
    · rw [pushLevels, cellInt_ok h0 hmax]
      exact hpush
    · rw [hbooks, Books.modify]
      by_cases hid : id = book
      · subst hid
        rw [if_pos rfl, List.filter_cons_of_pos (by simp)]
        rfl
      · rw [if_neg hid, List.filter_cons_of_neg (by simpa using Ne.symm hid)]

theorem setPrices_getD {rows : List (Id × Cents)} {books : Books} (id : Id) :
    (setPrices rows books id).getD {} = (rows.filter fun row => row.1 = id).foldl
      (fun book row => { book with lastPriceCents := some row.2 }) ((books id).getD {}) := by
  induction rows generalizing books with
  | nil => rfl
  | cons row rows ih =>
    obtain ⟨book, price⟩ := row
    rw [setPrices, ih, Books.modify]
    by_cases hid : id = book
    · subst hid
      rw [if_pos rfl, List.filter_cons_of_pos (by simp)]
      rfl
    · rw [if_neg hid, List.filter_cons_of_neg (by simpa using Ne.symm hid)]

end Tops

section Trades
variable {bookId : Id} {bookIds : List Id} {db : Db}

theorem mem_bookTrades {e : Id × Id × TradeRow} : e ∈ bookTrades db ↔
    db.trades.get? e.2.1 = some e.2.2 ∧ Db.bookOf db e.2.2.marketId = some e.1 := by
  obtain ⟨b, id, t⟩ := e
  simp only [bookTrades, joinBooks, List.mem_filterMap, Option.map_eq_some_iff, Prod.mk.injEq]
  constructor
  · rintro ⟨row, hmem, b', hb, rfl, rfl⟩
    exact ⟨Table.mem_entries.mp hmem, hb⟩
  · rintro ⟨hget, hb⟩
    exact ⟨(id, t), Table.mem_entries.mpr hget, b, hb, rfl, rfl⟩

theorem bookTrades_unique {e e' : Id × Id × TradeRow} (he : e ∈ bookTrades db) (he' : e' ∈ bookTrades db)
    (hid : e.2.1 = e'.2.1) : e = e' := by
  obtain ⟨b, id, t⟩ := e
  obtain ⟨b', id', t'⟩ := e'
  obtain rfl : id = id' := hid
  obtain ⟨hget, hb⟩ := mem_bookTrades.mp he
  obtain ⟨hget', hb'⟩ := mem_bookTrades.mp he'
  obtain rfl : t = t' := Option.some.inj (hget.symm.trans hget')
  obtain rfl : b = b' := Option.some.inj (hb.symm.trans hb')
  rfl

private theorem bookTrades_nodup : (bookTrades db).Nodup := by
  have hentries : db.trades.entries.Nodup := (Table.entries_sorted db.trades).imp fun h he =>
    absurd (congrArg Prod.fst he) h.ne
  refine hentries.filterMap fun e e' x hx hx' => ?_
  obtain ⟨b, -, rfl⟩ := Option.map_eq_some_iff.mp hx
  obtain ⟨b', -, heq⟩ := Option.map_eq_some_iff.mp hx'
  exact (Prod.mk.inj heq).2.symm

instance : Std.Total tradeAfter := ⟨fun a b => le_total (α := ℕ) b.1 a.1⟩
instance : IsTrans (Id × TradeRow) tradeAfter := ⟨fun _ _ _ h h' => le_trans (α := ℕ) h' h⟩

private theorem lastTrade_some {last : Id × TradeRow} (h : lastTrade bookId db = some last) :
    (bookId, last) ∈ bookTrades db ∧ ∀ e ∈ bookTrades db, e.1 = bookId → e.2.1 ≤ last.1 := by
  obtain ⟨hmem, hlast⟩ := head?_insertionSort h
  obtain ⟨⟨b, t⟩, hfilter, rfl⟩ := List.mem_map.mp hmem
  obtain ⟨htrade, hb⟩ := List.mem_filter.mp hfilter
  obtain rfl : b = bookId := of_decide_eq_true hb
  refine ⟨htrade, fun e he' hb' => hlast e.2 (List.mem_map.mpr ⟨e, ?_, rfl⟩)⟩
  rw [List.mem_filter, decide_eq_true_eq]
  exact ⟨he', hb'⟩

private theorem lastTrade_none (h : lastTrade bookId db = none) {e : Id × Id × TradeRow} (he : e ∈ bookTrades db) :
    e.1 ≠ bookId := by
  rintro rfl
  have hnil := List.head?_eq_none_iff.mp h
  have hmem : e.2 ∈ (((bookTrades db).filter fun e' => e'.1 = e.1).map Prod.snd).insertionSort tradeAfter := by
    rw [List.mem_insertionSort, List.mem_map]
    refine ⟨e, ?_, rfl⟩
    rw [List.mem_filter, decide_eq_true_eq]
    exact ⟨he, rfl⟩
  rw [hnil] at hmem
  cases hmem

/-- The trades that are the latest of their books. -/
theorem latest_iff {e : Id × Id × TradeRow} (he : e ∈ bookTrades db) (hb : e.1 ∈ bookIds) :
    some e.2.1 ∈ (latestTrades bookIds db).map Prod.snd ↔ ∀ e' ∈ bookTrades db, e'.1 = e.1 → e'.2.1 ≤ e.2.1 := by
  have hmax : ∀ b, b ∈ bookIds → ∀ i, ((group Prod.fst ((bookTrades db).filter fun e => e.1 ∈ bookIds) b).map
      (·.2.1)).max? = some i ↔ (∃ e' ∈ bookTrades db, e'.1 = b ∧ e'.2.1 = i) ∧
        ∀ e' ∈ bookTrades db, e'.1 = b → e'.2.1 ≤ i := by
    intro b hb i
    rw [List.max?_eq_some_iff]
    simp only [List.mem_map, mem_group, List.mem_filter, decide_eq_true_eq]
    constructor
    · rintro ⟨⟨e', ⟨⟨he', -⟩, rfl⟩, rfl⟩, hall⟩
      exact ⟨⟨e', he', rfl, rfl⟩, fun e'' he'' hbook => hall _ ⟨e'', ⟨⟨he'', hbook ▸ hb⟩, hbook⟩, rfl⟩⟩
    · rintro ⟨⟨e', he', rfl, rfl⟩, hall⟩
      refine ⟨⟨e', ⟨⟨he', hb⟩, rfl⟩, rfl⟩, ?_⟩
      rintro _ ⟨e'', ⟨⟨he'', -⟩, hbook⟩, rfl⟩
      exact hall e'' he'' hbook
  rw [List.mem_map]
  constructor
  · rintro ⟨⟨b, i⟩, hlatest, hi⟩
    obtain rfl : i = some e.2.1 := hi
    obtain ⟨⟨e', he', rfl⟩, hagg⟩ := (mem_groupBy _ _ _).mp hlatest
    have hb' : e'.1 ∈ bookIds := of_decide_eq_true (List.mem_filter.mp he').2
    obtain ⟨⟨e'', he'', hbook, hid⟩, hall⟩ := (hmax _ hb' _).mp hagg
    rw [bookTrades_unique he'' he hid] at hbook
    rw [hbook]
    exact hall
  · intro hall
    refine ⟨(e.1, some e.2.1), (mem_groupBy _ _ _).mpr ⟨⟨e, ?_, rfl⟩, ?_⟩, rfl⟩
    · rw [List.mem_filter, decide_eq_true_eq]
      exact ⟨he, hb⟩
    · exact (hmax _ hb _).mpr ⟨⟨e, he, rfl, rfl⟩, hall⟩

/-- A book has one price, that of its last trade. -/
theorem lastPrices_book (hb : bookId ∈ bookIds) : (lastPrices bookIds db).filter (fun row => row.1 = bookId) =
    (lastTrade bookId db).toList.map fun last => (bookId, last.2.priceCents) := by
  have hrows : (lastPrices bookIds db).filter (fun row => row.1 = bookId) =
      (((bookTrades db).filter fun e => some e.2.1 ∈ (latestTrades bookIds db).map Prod.snd).filter
        fun e => e.1 = bookId).map fun e => (e.1, e.2.2.priceCents) := List.filter_map
  have hmem : ∀ e, e ∈ (((bookTrades db).filter fun e => some e.2.1 ∈ (latestTrades bookIds db).map Prod.snd).filter
      fun e => e.1 = bookId) ↔ e ∈ bookTrades db ∧ e.1 = bookId ∧
        ∀ e' ∈ bookTrades db, e'.1 = e.1 → e'.2.1 ≤ e.2.1 := by
    intro e
    rw [List.mem_filter, List.mem_filter, decide_eq_true_eq, decide_eq_true_eq]
    constructor
    · rintro ⟨⟨he, hlatest⟩, rfl⟩
      exact ⟨he, rfl, (latest_iff he hb).mp hlatest⟩
    · rintro ⟨he, rfl, hall⟩
      exact ⟨⟨he, (latest_iff he hb).mpr hall⟩, rfl⟩
  rw [hrows]
  cases hlast : lastTrade bookId db with
  | none =>
    rw [List.map_eq_nil_iff.mpr]
    · rfl
    · exact List.eq_nil_iff_forall_not_mem.mpr fun e he =>
        lastTrade_none hlast ((hmem e).mp he).1 ((hmem e).mp he).2.1
  | some last =>
    obtain ⟨htrade, hall⟩ := lastTrade_some hlast
    have hsole := eq_singleton ((bookTrades_nodup.filter _).filter _) ((hmem _).mpr ⟨htrade, rfl, hall⟩)
      fun e he => by
        obtain ⟨he, hbook, hmax⟩ := (hmem e).mp he
        exact bookTrades_unique he htrade (le_antisymm (hall e he hbook) (hmax _ htrade hbook.symm))
    rw [hsole]
    rfl

end Trades

section Agreement
variable {settings : Settings} {side : Side} {bookId : Id} {marketIds : List Id} {depth : ℤ} {db : Db}

private theorem readLevels_ok {rows : List (Cents × ℤ)} (h : ∀ e ∈ rows, 0 ≤ e.2 ∧ e.2 ≤ maxInt) :
    readLevels rows = .ok (rows.map toLevel) := by
  induction rows with
  | nil => rfl
  | cons e rows ih =>
    obtain ⟨h0, hmax⟩ := h e List.mem_cons_self
    rw [readLevels, cellInt_ok h0 hmax, ih fun e he => h e (List.mem_cons_of_mem _ he)]
    rfl

private theorem readLevels_error {rows : List (Cents × ℤ)} {e : Cents × ℤ} (he : e ∈ rows) (hmax : maxInt < e.2) :
    ∃ error, readLevels rows = .error error := by
  induction rows with
  | nil => cases he
  | cons e' rows ih =>
    rw [readLevels]
    cases hcell : cellInt e'.2 with
    | error error => exact ⟨error, rfl⟩
    | ok quantity =>
      rcases List.mem_cons.mp he with rfl | he
      · obtain ⟨error, herror⟩ := cellInt_error hmax
        rw [herror] at hcell
        cases hcell
      · obtain ⟨error, hrest⟩ := ih he
        rw [hrest]
        exact ⟨error, rfl⟩

theorem totalQuantity_nonneg {orders : List OrderRow} (h : ∀ o ∈ orders, 0 ≤ o.remainingQty) :
    0 ≤ totalQuantity orders := by
  refine List.sum_nonneg fun q hq => ?_
  obtain ⟨o, ho, rfl⟩ := List.mem_map.mp hq
  exact h o ho

theorem openOrders_nonneg (h : Reachable settings db) {e : Id × OrderRow} (he : e ∈ openOrders side db) :
    0 ≤ e.2.remainingQty := by
  obtain ⟨o, ho, hb⟩ := List.mem_filterMap.mp (List.mem_filter.mp he).1
  obtain ⟨b, -, rfl⟩ := Option.map_eq_some_iff.mp hb
  obtain ⟨id, hid⟩ := Table.mem_rows_iff.mp ho
  exact ((reachable_reconciled h).orders id o hid).remaining_nonneg

private theorem levels_nonneg (h : Reachable settings db) {e : Cents × ℤ} (he : e ∈ levels side bookId db) :
    0 ≤ e.2 := by
  rw [← (mem_levels.mp he).2]
  refine totalQuantity_nonneg fun o ho => ?_
  exact openOrders_nonneg h (mem_restingOrders.mp ((mem_group _ _).mp ho).1)

theorem topLevels_fit (h : Reachable settings db) {bookIds : List Id} {row : (Id × Cents) × ℤ}
    (hrow : row ∈ topLevels side bookIds db) : 0 ≤ row.2 ∧ row.2 ≤ maxInt := by
  rw [← ((mem_groupBy _ _ _).mp hrow).2]
  refine ⟨le_min (totalQuantity_nonneg fun o ho => ?_) (by decide), min_le_right _ _⟩
  obtain ⟨e, he, rfl⟩ := List.mem_map.mp ho
  exact openOrders_nonneg h (List.mem_filter.mp ((mem_group _ _).mp he).1).1

/-- A level with its quantity capped. -/
def cappedLevel (e : Cents × ℤ) : PriceLevel := ⟨e.1, min e.2 maxInt⟩

/-- The batched query answers for every book at once. -/
theorem topOfBooks_ok (h : Reachable settings db) (marketIds : List Id) : ∃ tops, topOfBooks marketIds db = .ok tops ∧
    ∀ id ∈ marketIds, ∀ bookId, Db.bookOf db id = some bookId → tops id = some
      { bids := (levels .buy bookId db).head?.toList.map cappedLevel
        asks := (levels .sell bookId db).head?.toList.map cappedLevel
        lastPriceCents := (lastTrade bookId db).map (·.2.priceCents) } := by
  have hlisted : ∀ id ∈ marketIds, ∀ bookId, Db.bookOf db id = some bookId →
      bookId ∈ (marketIds.filterMap (Db.bookOf db)).dedup := fun id hid bookId hb =>
    List.mem_dedup.mpr (List.mem_filterMap.mpr ⟨id, hid, hb⟩)
  by_cases hids : marketIds = []
  · subst hids
    exact ⟨fun _ => none, rfl, fun id hid => absurd hid List.not_mem_nil⟩
  by_cases hbooks : (marketIds.filterMap (Db.bookOf db)).dedup = []
  · refine ⟨fun id => if id ∈ marketIds then some {} else none, ?_, fun id hid bookId hb => ?_⟩
    · rw [topOfBooks, if_neg hids]
      exact if_pos hbooks
    · have hmem := hlisted id hid bookId hb
      rw [hbooks] at hmem
      cases hmem
  · obtain ⟨bought, hbought, hbids⟩ := @pushLevels_ok .buy
      (topLevels .buy (marketIds.filterMap (Db.bookOf db)).dedup db) (fun _ => none) fun row => topLevels_fit h
    obtain ⟨sold, hsold, hasks⟩ := @pushLevels_ok .sell
      (topLevels .sell (marketIds.filterMap (Db.bookOf db)).dedup db) bought fun row => topLevels_fit h
    refine ⟨fun id => if id ∈ marketIds then some (((Db.bookOf db id).bind
      (setPrices (lastPrices (marketIds.filterMap (Db.bookOf db)).dedup db) sold)).getD {}) else none, ?_,
      fun id hid bookId hb => ?_⟩
    · rw [topOfBooks, if_neg hids]
      simp only [hbooks, if_false, hbought]
      change (do let byBook ← pushLevels .sell _ bought; return _ : Except Error Books) = _
      rw [hsold]
      rfl
    · have hbook := hlisted id hid bookId hb
      have hprice := @setPrices_getD (lastPrices (marketIds.filterMap (Db.bookOf db)).dedup db) sold bookId
      rw [hasks, hbids, topLevels_book hbook, topLevels_book hbook, lastPrices_book hbook, ← levels_head?,
        ← levels_head?] at hprice
      refine (if_pos hid).trans ?_
      rw [hb, Option.bind_some, hprice]
      cases (levels .buy bookId db).head? <;> cases (levels .sell bookId db).head? <;>
        cases lastTrade bookId db <;> rfl

/-- The distinct prices of some orders, the best first, each with the quantity on offer. -/
structure Ladder (side : Side) (orders : List OrderRow) (levels : List PriceLevel) : Prop where
  sorted : levels.Pairwise fun a b => better side a.priceCents b.priceCents
  prices : ∀ p, (∃ level ∈ levels, level.priceCents = p) ↔ ∃ o ∈ orders, o.priceCents = p
  quantity : ∀ level ∈ levels, level.quantity = totalQuantity (atPrice orders level.priceCents)

theorem levels_ladder (side : Side) (bookId : Id) (db : Db) :
    Ladder side (restingOrders side bookId db) ((levels side bookId db).map toLevel) := by
  refine ⟨List.pairwise_map.mpr levels_sorted, fun p => ?_, fun level hlevel => ?_⟩
  · constructor
    · rintro ⟨level, hlevel, rfl⟩
      obtain ⟨e, he, rfl⟩ := List.mem_map.mp hlevel
      exact (mem_levels.mp he).1
    · rintro ⟨o, ho, rfl⟩
      exact ⟨toLevel (o.priceCents, totalQuantity (atPrice (restingOrders side bookId db) o.priceCents)),
        List.mem_map_of_mem (mem_levels.mpr ⟨⟨o, ho, rfl⟩, rfl⟩), rfl⟩
  · obtain ⟨e, he, rfl⟩ := List.mem_map.mp hlevel
    exact (mem_levels.mp he).2.symm

/-- The first level of each side, its quantity capped, and the last price. -/
def firstLevels (book : OrderBook) : OrderBook :=
  { bids := (book.bids.take 1).map fun level => { level with quantity := min level.quantity maxInt }
    asks := (book.asks.take 1).map fun level => { level with quantity := min level.quantity maxInt }
    lastPriceCents := book.lastPriceCents }

/-- The order book of a market is its ladders, and the batched query has its first levels. -/
def Agrees (db : Db) (marketIds : List Id) (depth : ℤ) (id bookId : Id) : Prop :=
  ∃ book tops bids asks, orderBook id depth db = .ok book ∧ topOfBooks marketIds db = .ok tops ∧
    Ladder .buy (restingOrders .buy bookId db) bids ∧ book.bids = bids.take depth.toNat ∧
    Ladder .sell (restingOrders .sell bookId db) asks ∧ book.asks = asks.take depth.toNat ∧
    tops id = some (firstLevels book)

/-- The quantity at each of the best prices is an `int`. -/
def LevelsFit (db : Db) (depth : ℤ) (bookId : Id) : Prop :=
  ∀ side, ∀ o ∈ restingOrders side bookId db,
    rank side (restingOrders side bookId db) o.priceCents < depth.toNat →
      totalQuantity (atPrice (restingOrders side bookId db) o.priceCents) ≤ maxInt

private theorem fits_iff : (∀ side, ∀ e ∈ (levels side bookId db).take depth.toNat, e.2 ≤ maxInt) ↔
    LevelsFit db depth bookId := by
  constructor
  · intro h side o ho hrank
    exact h side (o.priceCents, _) (mem_take_levels.mpr ⟨mem_levels.mpr ⟨⟨o, ho, rfl⟩, rfl⟩, hrank⟩)
  · intro h side e he
    obtain ⟨hmem, hrank⟩ := mem_take_levels.mp he
    obtain ⟨⟨o, ho, hprice⟩, htotal⟩ := mem_levels.mp hmem
    rw [← htotal, ← hprice]
    exact h side o ho (hprice ▸ hrank)

/-- The order book is read, and agrees with the batched query, exactly where its levels fit. -/
theorem snapshots_agree (h : Reachable settings db) (marketIds : List Id) (hpos : 1 ≤ depth) (hmax : depth ≤ 50) :
    (∀ id ∈ marketIds, ∀ bookId, Db.bookOf db id = some bookId → Agrees db marketIds depth id bookId) ↔
      ∀ id ∈ marketIds, ∀ bookId, Db.bookOf db id = some bookId → LevelsFit db depth bookId := by
  have hdepth : ¬ (depth ≤ 0 ∨ depth > 50) := by omega
  refine forall_congr' fun id => forall_congr' fun hid => forall_congr' fun bookId => forall_congr' fun hb => ?_
  rw [← fits_iff]
  constructor
  · rintro ⟨book, tops, bids, asks, hbook, -⟩ side e he
    by_contra hlarge
    obtain ⟨error, herror⟩ := readLevels_error he (not_le.mp hlarge)
    rw [orderBook, if_neg hdepth, hb] at hbook
    cases side with
    | buy =>
      simp only [herror] at hbook
      cases hbook
    | sell =>
      simp only [herror] at hbook
      cases hbids : readLevels ((levels .buy bookId db).take depth.toNat) with
      | error error' =>
        rw [hbids] at hbook
        cases hbook
      | ok bids' =>
        rw [hbids] at hbook
        cases hbook
  · intro hfit
    have hread : ∀ side, readLevels ((levels side bookId db).take depth.toNat) =
        .ok (((levels side bookId db).map toLevel).take depth.toNat) := by
      intro side
      rw [readLevels_ok fun e he => ⟨levels_nonneg h (List.mem_of_mem_take he), hfit side e he⟩, List.map_take]
    obtain ⟨tops, htops, hfirst⟩ := topOfBooks_ok h marketIds
    let book : OrderBook :=
      { bids := ((levels .buy bookId db).map toLevel).take depth.toNat
        asks := ((levels .sell bookId db).map toLevel).take depth.toNat
        lastPriceCents := (lastTrade bookId db).map (·.2.priceCents) }
    refine ⟨book, tops, _, _, ?_, htops, levels_ladder .buy bookId db, rfl, levels_ladder .sell bookId db, rfl, ?_⟩
    · rw [orderBook, if_neg hdepth, hb]
      simp only [hread]
      rfl
    · have hone : ∀ side, (((levels side bookId db).map toLevel).take depth.toNat).take 1 =
          (levels side bookId db).head?.toList.map toLevel := by
        intro side
        rw [List.take_take, Nat.min_eq_left (by omega)]
        cases levels side bookId db <;> rfl
      rw [hfirst id hid bookId hb]
      simp only [firstLevels, book, hone, List.map_map]
      rfl

end Agreement

section Sample

/-- The quantity limit need only be positive. -/
def largeOrderSettings : Settings :=
  { sampleSettings with maxOrderQuantity := maxInt, maxOrderQuantity_pos := by decide }

/-- Two sellers offer as many units at one price as one order may have. -/
def crowdedDb : Db := afterCalls largeOrderSettings [.activateMarket (diamondMarket "block"),
  .placeOrder (diamondOrder "alice" .sell .limit 100 maxInt),
  .placeOrder (diamondOrder "bob" .sell .limit 100 maxInt)]

theorem snapshots_agree_spread :
    let db := afterCalls sampleSettings [.activateMarket (diamondMarket "block"),
      .activateMarket (diamondMarket "chest"), .placeOrder (diamondOrder "alice" .sell .limit 600 4)]
    (∀ id ∈ [1, 2], ∀ bookId, Db.bookOf db id = some bookId → Agrees db [1, 2] 5 id bookId) ↔
      ∀ id ∈ [1, 2], ∀ bookId, Db.bookOf db id = some bookId → LevelsFit db 5 bookId :=
  snapshots_agree (reachable_afterCalls _ _) [1, 2] (by decide) (by decide)

theorem crowded_level_throws : Reachable largeOrderSettings crowdedDb ∧
    ¬ ∀ id ∈ [1], ∀ bookId, Db.bookOf crowdedDb id = some bookId → Agrees crowdedDb [1] 1 id bookId := by
  refine ⟨reachable_afterCalls _ _, fun h => ?_⟩
  have hbook : Db.bookOf crowdedDb 1 = some 1 := by decide +kernel
  have hthrows : (orderBook 1 1 crowdedDb).toOption = none := by decide +kernel
  obtain ⟨book, tops, bids, asks, hread, -⟩ := h 1 (List.mem_singleton_self 1) 1 hbook
  rw [hread] at hthrows
  cases hthrows

end Sample

end EndstoneExchange.BookSnapshots
