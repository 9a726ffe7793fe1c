import EndstoneExchange.DeliveryOrigins
import EndstoneExchange.TargetBindings

/-!
# The life of a market

Only three calls write markets, books and target bindings. Each keeps the pointers
and flags in step, and no order rests in a market that is neither active nor paused.
-/
namespace EndstoneExchange.MarketLifecycle
open AutoIncrementTables KeyedTables AtomicTransactions.Transaction DurablePrograms ExchangeDomain
  ExchangeTransactions MarketOperations ClearingSteps ClearingRefinement RowHistories ServiceRuns
  DeliveryOrigins TargetBindings Relation

variable {settings : Settings} {allow : Special → Prop} {d d' : Desk} {db db' : Db}

section Frames

/-- What steps that write no market leave alone. -/
structure SameMarkets (db db' : Db) : Prop where
  markets : db'.markets = db.markets
  bindings : db'.targetBindings = db.targetBindings
  books : db'.books = db.books

private theorem sameMarkets_step (h : Step settings allow d d') (ha : ¬ allow .changeMarkets) :
    SameMarkets d.db d'.db := by
  cases h with
  | openBook _ hs => exact absurd hs ha
  | openMarket _ _ _ hs => exact absurd hs ha
  | switchMarket _ _ _ _ hs => exact absurd hs ha
  | rebind _ hs => exact absurd hs ha
  | _ => exact ⟨rfl, rfl, rfl⟩

theorem sameMarkets_steps (h : Steps settings allow d d') (ha : ¬ allow .changeMarkets) :
    SameMarkets d.db d'.db := by
  induction h with
  | refl => exact ⟨rfl, rfl, rfl⟩
  | tail _ h ih =>
    have hs := sameMarkets_step h ha
    exact ⟨hs.markets.trans ih.markets, hs.bindings.trans ih.bindings, hs.books.trans ih.books⟩

/-- The market of a resting or incoming order is active or paused. -/
def OrdersOpen (d : Desk) : Prop := ∀ id o, d.db.orders.get? id = some o →
  (o.Resting ∨ d.taker = some id) → ∃ m, d.db.markets.get? o.marketId = some m ∧ Usable m

theorem not_resting_canceled (o : OrderRow) : ¬ (canceledOrder o).Resting :=
  fun h => OrderStatus.not_live_canceled h.2

private theorem ordersOpen_step (h : Step settings allow d d') (ha : ¬ allow .changeMarkets)
    (hI : OrdersOpen d) : OrdersOpen d' := by
  cases h with
  | openBook _ hs => exact absurd hs ha
  | openMarket _ _ _ hs => exact absurd hs ha
  | switchMarket _ _ _ _ hs => exact absurd hs ha
  | rebind _ hs => exact absurd hs ha
  | @openOrder db o m hm hs hq hr hp hv hc hsell hw hact =>
    intro i o' ho' hopen
    rcases Table.get?_insert_cases ho' with ⟨-, rfl⟩ | ⟨hne, ho'⟩
    · exact ⟨m, hm, .inl hact⟩
    · have hrest : o'.Resting := hopen.resolve_right fun ht => hne (Option.some.inj ht).symm
      exact hI i o' ho' (.inl hrest)
  | @settleTrade db taker t buy sell ht =>
    intro i o ho hopen
    rcases settleTrade_row ht ho with ⟨-, -, rfl⟩ | ⟨-, -, rfl⟩ | ⟨-, -, ho⟩
    · exact hI t.buyOrderId buy ht.buyOrder.row ht.buyOrder.open_for.symm
    · exact hI t.sellOrderId sell ht.sellOrder.row ht.sellOrder.open_for.symm
    · exact hI i o ho hopen
  | closeLimit =>
    intro i o ho hopen
    exact hI i o ho (.inl (hopen.resolve_right (by simp)))
  | @closeMarket db orderId o ho ht =>
    intro i o' ho' hopen
    have hrest : o'.Resting := hopen.resolve_right (by simp)
    rcases Table.get?_update_cases ho' with ⟨rfl, o'', ho'', rfl⟩ | ⟨-, ho'⟩
    · obtain rfl : o'' = o := Option.some.inj (ho''.symm.trans ho)
      have hlimit : o''.orderType = .limit := hrest.1
      rw [ht] at hlimit
      cases hlimit
    · exact hI i o' ho' (.inl hrest)
  | withdraw =>
    intro i o ho hopen
    have hrest : o.Resting := hopen.resolve_right (by simp)
    rcases Table.get?_update_cases ho with ⟨-, o', -, rfl⟩ | ⟨-, ho⟩
    · exact absurd hrest (not_resting_canceled o')
    · exact hI i o ho (.inl hrest)
  | _ => exact hI

private theorem ordersOpen_steps (h : Steps settings allow d d') (ha : ¬ allow .changeMarkets)
    (hI : OrdersOpen d) : OrdersOpen d' :=
  Steps.induct (I := OrdersOpen) (fun hs => ordersOpen_step hs ha) h hI

end Frames

section Books

/-- Every book carries the fingerprint of its item, and no two share one. -/
structure Catalogued (settings : Settings) (books : Table BookRow) : Prop where
  hash : ∀ id b, books.get? id = some b →
    b.itemHash = itemHash settings ⟨b.itemType, b.itemData, b.itemNbt, b.itemName⟩
  unique : ∀ i j b c, books.get? i = some b → books.get? j = some c → b.itemHash = c.itemHash → i = j

theorem findBook_some {hash : List UInt8} {id : Id} (h : findBook db hash = some id) :
    ∃ b, db.books.get? id = some b ∧ b.itemHash = hash := by
  obtain ⟨⟨i, b⟩, hfind, rfl⟩ := Option.map_eq_some_iff.mp h
  have hmem := Table.mem_entries.mp (List.mem_of_find?_eq_some hfind)
  have hhash := List.find?_some hfind
  exact ⟨b, hmem, of_decide_eq_true hhash⟩

theorem findBook_none {hash : List UInt8} (h : findBook db hash = none) {id : Id} {b : BookRow}
    (hb : db.books.get? id = some b) : b.itemHash ≠ hash := by
  intro he
  have hnone := List.find?_eq_none.mp (Option.map_eq_none_iff.mp h) (id, b) (Table.mem_entries.mpr hb)
  simp [he] at hnone

theorem Catalogued.findBook (h : Catalogued settings db.books) {id : Id} {b : BookRow}
    (hb : db.books.get? id = some b) : findBook db b.itemHash = some id := by
  cases hf : MarketOperations.findBook db b.itemHash with
  | none => exact absurd rfl (findBook_none hf hb)
  | some i =>
    obtain ⟨c, hc, he⟩ := findBook_some hf
    rw [h.unique i id c b hc hb he]

theorem upsertBook_ok {item : ItemPrototype} {id : Id} (h : upsertBook settings item db = .ok (id, db'))
    (hI : Catalogued settings db.books) :
    Catalogued settings db'.books ∧ ∃ books, db' = { db with books } := by
  simp only [upsertBook, bind_ok, select_ok, exists_eq_left'] at h
  cases hf : findBook db (itemHash settings item) with
  | some i =>
    simp only [hf, pure_ok] at h
    obtain ⟨-, rfl⟩ := Prod.mk.inj h
    exact ⟨hI, db.books, rfl⟩
  | none =>
    simp only [hf, bind_ok, select_ok, execute_ok, pure_ok, exists_eq_left'] at h
    obtain ⟨-, rfl⟩ := Prod.mk.inj h
    refine ⟨⟨fun i b hb => ?_, fun i j b c hb hc he => ?_⟩, _, rfl⟩
    · rcases Table.get?_insert_cases hb with ⟨-, rfl⟩ | ⟨-, hb⟩
      · rfl
      · exact hI.hash i b hb
    · rcases Table.get?_insert_cases hb with ⟨rfl, rfl⟩ | ⟨-, hb'⟩
      · rcases Table.get?_insert_cases hc with ⟨rfl, -⟩ | ⟨-, hc'⟩
        · rfl
        · exact absurd he.symm (findBook_none hf hc')
      · rcases Table.get?_insert_cases hc with ⟨rfl, rfl⟩ | ⟨-, hc'⟩
        · exact absurd he (findBook_none hf hb')
        · exact hI.unique i j b c hb' hc' he

end Books

section Activation

private theorem resumableMarket_some {market : Market} {bookId id : Id}
    (h : resumableMarket db market bookId = some id) : ∃ m, db.markets.get? id = some m ∧
      m.targetKey = market.targetKey ∧ m.reopenable = true := by
  obtain ⟨⟨i, m⟩, hlast, rfl⟩ := Option.map_eq_some_iff.mp h
  have hmem := List.mem_of_getLast? hlast
  simp only [List.mem_filter, decide_eq_true_eq] at hmem
  obtain ⟨hentry, ht, -, -, hr, -⟩ := hmem
  exact ⟨m, Table.mem_entries.mp hentry, ht, hr⟩

theorem resumableMarket_none {market : Market} {bookId : Id}
    (h : resumableMarket db market bookId = none) {i : Id} {m : MarketRow}
    (hm : db.markets.get? i = some m) (ht : m.targetKey = market.targetKey)
    (hk : m.targetKind = market.targetKind) (hb : m.bookId = bookId) (ha : m.active = false) :
    m.reopenable = false := by
  by_contra hr
  have hnil := List.getLast?_eq_none_iff.mp (Option.map_eq_none_iff.mp h)
  have hmem : (i, m) ∈ db.markets.entries.filter fun e => e.2.targetKey = market.targetKey ∧
      e.2.targetKind = market.targetKind ∧ e.2.active = false ∧ e.2.reopenable = true ∧
      e.2.bookId = bookId := by
    simp only [List.mem_filter, decide_eq_true_eq]
    exact ⟨Table.mem_entries.mpr hm, ht, hk, ha, by simpa using hr, hb⟩
  rw [hnil] at hmem
  cases hmem

/-- The paused market of a target, kind and book is the one that is resumed. -/
theorem resumableMarket_eq {market : Market} {bookId id : Id} {m : MarketRow}
    (hI : Bound db.markets db.targetBindings) (hm : db.markets.get? id = some m)
    (ht : m.targetKey = market.targetKey) (hk : m.targetKind = market.targetKind)
    (hb : m.bookId = bookId) (ha : m.active = false) (hr : m.reopenable = true) :
    resumableMarket db market bookId = some id := by
  cases h : resumableMarket db market bookId with
  | none =>
    have hoff := resumableMarket_none h hm ht hk hb ha
    rw [hr] at hoff
    cases hoff
  | some i =>
    obtain ⟨⟨j, n⟩, hlast, rfl⟩ := Option.map_eq_some_iff.mp h
    have hmem := List.mem_of_getLast? hlast
    simp only [List.mem_filter, decide_eq_true_eq] at hmem
    obtain ⟨hentry, ht', hk', -, hr', hb'⟩ := hmem
    have hsame : SameGoods n m := ⟨ht.trans ht'.symm, hk.trans hk'.symm, hb.trans hb'.symm⟩
    rw [hI.unique j id n m (Table.mem_entries.mp hentry) hm hsame (.inr hr') (.inr hr)]

end Activation

/-- What the target bindings, the books and the resting orders are in every state. -/
structure Lifecycle (settings : Settings) (db : Db) : Prop where
  targets : Bound db.markets db.targetBindings
  books : Catalogued settings db.books
  orders : OrdersOpen ⟨db, none⟩

section Calls

theorem activateMarketTx_lifecycle {market : Market} {r : Id × Bool} (hI : Lifecycle settings db)
    (h : activateMarketTx settings market db = .ok (r, db')) : Lifecycle settings db' := by
  simp only [activateMarketTx, bind_ok, select_ok, selectOne_ok, throwIf_ok, exists_eq_left',
    exists_and_left, exists_exists_and_eq_and, and_assoc, not_or, not_not] at h
  obtain ⟨hnew, ⟨bookId, db₁⟩, hbook, book, -, -, -, -, hrest⟩ := h
  have hfree : db.targetBindings.find? market.targetKey = none := by simpa using hnew
  obtain ⟨hbooks, books, rfl⟩ := upsertBook_ok hbook hI.books
  cases hres : resumableMarket { db with books } market bookId with
  | some i =>
    simp only [hres, switchMarket, bind_ok, execute_ok, pure_ok, exists_eq_left'] at hrest
    obtain ⟨⟨u, db₂⟩, hbind, hr⟩ := hrest
    obtain ⟨-, rfl⟩ := Prod.mk.inj hr
    rw [bindTarget_ok hbind]
    obtain ⟨m, hm, ht, hre⟩ := resumableMarket_some hres
    refine ⟨?_, hbooks, fun j o ho hopen => ?_⟩
    · rw [← ht] at hfree ⊢
      exact hI.targets.switchOn hm hfree hre
    · obtain ⟨n, hn, hu⟩ := hI.orders j o ho hopen
      obtain ⟨n', hn', hu'⟩ := Table.exists_get?_update (R := fun m n => Usable m → Usable n)
        (f := fun m : MarketRow => { m with active := true, reopenable := false })
        (fun _ hu => hu) (fun _ _ => .inl rfl) hn i
      exact ⟨n', hn', hu' hu⟩
  | none =>
    simp only [hres, bind_ok, select_ok, execute_ok, pure_ok, exists_eq_left'] at hrest
    obtain ⟨⟨u, db₂⟩, hbind, hr⟩ := hrest
    obtain ⟨-, rfl⟩ := Prod.mk.inj hr
    rw [bindTarget_ok hbind]
    refine ⟨?_, hbooks, fun j o ho hopen => ?_⟩
    · refine hI.targets.open hfree rfl rfl fun i n hn hs hoff => ?_
      exact resumableMarket_none hres hn hs.target hs.kind hs.book hoff
    · obtain ⟨n, hn, hu⟩ := hI.orders j o ho hopen
      exact ⟨n, Table.get?_insert_old _ hn, hu⟩

theorem closeMarketTx_lifecycle {marketId : Id} {u : PUnit} (hI : Lifecycle settings db)
    (h : closeMarketTx marketId db = .ok (u, db')) : Lifecycle settings db' := by
  simp only [closeMarketTx, bind_ok, selectOne_ok, ite_ok, execute_ok, select_ok, throwIf_ok, switchMarket,
    unbindTarget, exists_eq_left', exists_and_left, exists_exists_and_eq_and, and_assoc] at h
  obtain ⟨market, hm, ⟨ha, hr⟩ | ⟨ha, -, hr⟩⟩ := h
  · obtain ⟨-, rfl⟩ := Prod.mk.inj hr
    refine ⟨hI.targets.congr fun target => ?_, hI.books, hI.orders⟩
    rw [Db.setBindings_targetBindings, KeyedTable.find?_filter]
    cases hf : db.targetBindings.find? target with
    | none => rfl
    | some i =>
      have hne : i ≠ marketId := by
        rintro rfl
        exact hI.targets.unbound hm ha target hf
      simp [hne]
  · obtain ⟨-, rfl⟩ := Prod.mk.inj hr
    have hact : market.active = true := by simpa using ha
    refine ⟨hI.targets.switchOff hm fun _ => .inl hact, hI.books, fun j o ho hopen => ?_⟩
    obtain ⟨n, hn, hu⟩ := hI.orders j o ho hopen
    obtain ⟨n', hn', hu'⟩ := Table.exists_get?_update (R := fun m n => Usable m → Usable n)
      (f := fun m : MarketRow => { m with active := false, reopenable := true })
      (fun _ hu => hu) (fun _ _ => .inr rfl) hn marketId
    exact ⟨n', hn', hu' hu⟩

/-- The orders that were closed no longer rest. -/
theorem closeOrders_resting (settings : Settings) {es : List (Id × OrderRow)} {u : PUnit}
    (h : closeOrders es db = .ok (u, db')) (hkeys : (es.map Prod.fst).Nodup)
    (hes : ∀ e ∈ es, db.orders.get? e.1 = some e.2 ∧ e.2.Resting)
    {i : Id} {o : OrderRow} (ho : db'.orders.get? i = some o) (hr : o.Resting) :
    db.orders.get? i = some o ∧ i ∉ es.map Prod.fst := by
  induction es generalizing db with
  | nil =>
    obtain ⟨-, rfl⟩ := Prod.mk.inj (pure_ok.mp h)
    exact ⟨ho, List.not_mem_nil⟩
  | cons e es ih =>
    obtain ⟨orderId, o₀⟩ := e
    simp only [closeOrders, bind_ok] at h
    obtain ⟨⟨u₁, db₁⟩, hw, hrest⟩ := h
    simp only [List.map_cons, List.nodup_cons] at hkeys
    obtain ⟨hrow, hres⟩ := hes _ List.mem_cons_self
    obtain ⟨-, horders⟩ := (@withdrawOrder_step settings (fun _ => True)) hw hrow hres
      (.inr rfl) (.inr rfl)
    have hleft : ∀ e ∈ es, db₁.orders.get? e.1 = some e.2 ∧ e.2.Resting := by
      intro e he
      have hne : e.1 ≠ orderId := fun heq => hkeys.1 (heq ▸ List.mem_map_of_mem he)
      rw [horders, Table.get?_update_ne _ _ hne]
      exact hes e (List.mem_cons_of_mem _ he)
    obtain ⟨hold, hnot⟩ := ih hrest hkeys.2 hleft
    rw [horders] at hold
    rcases Table.get?_update_cases hold with ⟨-, o', -, rfl⟩ | ⟨hne, hold⟩
    · exact absurd hr (not_resting_canceled o')
    · refine ⟨hold, ?_⟩
      rw [List.map_cons, List.mem_cons]
      exact fun hmem => hmem.elim hne hnot

theorem retireMarketTx_lifecycle {marketId : Id} {u : PUnit} (hI : Lifecycle settings db)
    (h : retireMarketTx marketId db = .ok (u, db')) : Lifecycle settings db' := by
  simp only [retireMarketTx, bind_ok, selectOne_ok, execute_ok, select_ok, throwIf_ok, switchMarket,
    unbindTarget, exists_eq_left', exists_and_left, exists_exists_and_eq_and, and_assoc] at h
  obtain ⟨m₀, hm₀, _, -, market, hm, -, ⟨u₁, db₁⟩, hclose, -, hr⟩ := h
  obtain ⟨-, rfl⟩ := Prod.mk.inj hr
  have hsteps := (@closeOrders_steps settings (fun _ => False)) hclose
    marketOrders_spec.1 marketOrders_spec.2
  have hsame := sameMarkets_steps hsteps id
  have hresting := fun i o => closeOrders_resting settings (i := i) (o := o) hclose
    marketOrders_spec.1 marketOrders_spec.2
  refine ⟨?_, ?_, fun j o ho hopen => ?_⟩
  · simp only [Db.setMarket_markets, Db.setMarket_targetBindings, Db.setBindings_markets,
      Db.setBindings_targetBindings]
    rw [hsame.markets, hsame.bindings]
    exact hI.targets.switchOff hm (by simp)
  · change Catalogued settings db₁.books
    rw [hsame.books]
    exact hI.books
  · have hrest : o.Resting := hopen.resolve_right (by simp)
    obtain ⟨hold, hnot⟩ := hresting j o ho hrest
    have hother : o.marketId ≠ marketId := by
      intro heq
      refine hnot (List.mem_map_of_mem (f := Prod.fst) (a := (j, o)) ?_)
      simp only [marketOrders, List.mem_filter, decide_eq_true_eq]
      exact ⟨Table.mem_entries.mpr hold, heq, hrest⟩
    obtain ⟨n, hn, hu⟩ := hI.orders j o hold (.inl hrest)
    refine ⟨n, ?_, hu⟩
    simp only [Db.setMarket_markets, Db.setBindings_markets]
    rw [hsame.markets, Table.get?_update_ne _ _ hother, hn]

theorem Call.lifecycle (c : Call) (faults : List Fault) (hp : EscrowsPlaceable db)
    (hI : Lifecycle settings db) : Lifecycle settings (c.leaves settings faults db) := by
  have hother : ¬ c.Allows .changeMarkets → Lifecycle settings (c.leaves settings faults db) := by
    intro ha
    have hsteps := (@Call.leaves_follows settings _ c faults hp).1
    have hsame := sameMarkets_steps hsteps ha
    refine ⟨?_, ?_, ordersOpen_steps hsteps ha hI.orders⟩
    · rw [hsame.markets, hsame.bindings]
      exact hI.targets
    · rw [hsame.books]
      exact hI.books
  have hquery : ∀ id : Id, Keeps (Lifecycle settings) (transaction (findMarket id)) := fun id =>
    Keeps.atomic fun db a db' hI h => by
      obtain ⟨-, rfl⟩ := Prod.mk.inj (select_ok.mp h)
      exact hI
  cases c with
  | activateMarket market =>
    refine Keeps.final (I := Lifecycle settings) ?_ faults hI
    refine Keeps.bind (Keeps.guard fun _ => ?_) fun _ => Keeps.pure
    refine (Keeps.atomic fun db a db' => activateMarketTx_lifecycle).bind fun ⟨id, _⟩ => ?_
    refine (hquery id).bind fun found => ?_
    cases found with
    | none => exact Keeps.throw
    | some m => exact Keeps.pure
  | closeMarket id =>
    exact Keeps.final (I := Lifecycle settings)
      (Keeps.atomic fun db a db' => closeMarketTx_lifecycle) faults hI
  | retireMarket id =>
    exact Keeps.final (I := Lifecycle settings)
      (Keeps.atomic fun db a db' => retireMarketTx_lifecycle) faults hI
  | _ => exact hother id

theorem reachable_lifecycle (h : Reachable settings db) : Lifecycle settings db := by
  obtain ⟨history, h⟩ := h
  induction h with
  | start => exact ⟨bound_empty, ⟨by simp, by simp⟩, fun i o ho => by simp at ho⟩
  | call h c faults ih => exact Call.lifecycle c faults h.escrowsPlaceable ih

end Calls
end EndstoneExchange.MarketLifecycle
