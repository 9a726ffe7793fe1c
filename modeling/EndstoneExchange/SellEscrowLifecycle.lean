import EndstoneExchange.MarketParticipants

/-!
# The life of a sell escrow

A step of the desk moves an escrow along PREPARED, TAGGED, ORDERED or to CANCELED. An
executed escrow owns its order alone, and executing it again answers from the rows of
the order and its trades what the first execution answered from its loop.
-/
namespace EndstoneExchange.SellEscrowLifecycle
open AutoIncrementTables KeyedTables AtomicTransactions.Transaction DurablePrograms ExchangeDomain
  ExchangeTransactions OrderMatching SellEscrowOperations ClearingSteps MatchingRefinement
  ClearingRefinement RowHistories ServiceRuns OrderReconciliation MarketParticipants Relation

/-- The status changes of an escrow. -/
inductive Moves : SellEscrowStatus → SellEscrowStatus → Prop
  | tag : Moves .prepared .tagged
  | order : Moves .tagged .ordered
  | cancel : Moves .prepared .canceled

/-- What a step may write over the row of escrow `i`. -/
inductive Rewrite (allow : Special → Prop) (i : Id) (e : SellEscrowRow) : SellEscrowRow → Prop
  | tag {tagged receipts : ℤ} (hs : e.status = .prepared) (hq : e.requestedQty ≤ tagged) :
    Rewrite allow i e { e with taggedQty := tagged, receiptCount := receipts, status := .tagged }
  | order {orderId : Id} (ha : allow (.orderEscrow i)) (hs : e.status = .tagged) :
    Rewrite allow i e { e with status := .ordered, orderId := some orderId }
  | cancel (hs : e.status = .prepared) : Rewrite allow i e { e with status := .canceled, cleaned := true }
  | clean (hs : e.status = .ordered) : Rewrite allow i e { e with cleaned := true }

/-- The fields of an escrow that its status decides. -/
structure EscrowSound (e : SellEscrowRow) : Prop where
  requested_pos : 0 < e.requestedQty
  linked : (∃ o, e.orderId = some o) ↔ e.status = .ordered
  tagged : e.status = .tagged ∨ e.status = .ordered → e.requestedQty ≤ e.taggedQty
  untagged : e.status = .prepared ∨ e.status = .canceled → e.taggedQty = 0

variable {settings : Settings} {allow : Special → Prop} {d d' : Desk} {db db' : Db}

section Rows

/-- An escrow after a step: as it was, rewritten or new. -/
theorem escrow_after (h : Step settings allow d d') {i : Id} {e : SellEscrowRow}
    (he : d'.db.sellEscrows.get? i = some e) : d.db.sellEscrows.get? i = some e ∨
      (∃ e₀, d.db.sellEscrows.get? i = some e₀ ∧ Rewrite allow i e₀ e) ∨
      d.db.sellEscrows.get? i = none ∧ 0 < e.requestedQty ∧ e.status = .prepared ∧ e.taggedQty = 0 ∧
        e.orderId = none := by
  have hset : ∀ {db : Db} {id : Id} {f : SellEscrowRow → SellEscrowRow} {e₀ : SellEscrowRow},
      db.sellEscrows.get? id = some e₀ → Rewrite allow id e₀ (f e₀) →
        (db.sellEscrows.update id f).get? i = some e → db.sellEscrows.get? i = some e ∨
          (∃ e₀, db.sellEscrows.get? i = some e₀ ∧ Rewrite allow i e₀ e) := by
    intro db id f e₀ he₀ hf he
    rcases Table.get?_update_cases he with ⟨rfl, e₁, he₁, rfl⟩ | ⟨-, he⟩
    · obtain rfl : e₁ = e₀ := Option.some.inj (he₁.symm.trans he₀)
      exact .inr ⟨e₁, he₀, hf⟩
    · exact .inl he
  have hassoc : ∀ {p q r : Prop}, p ∨ q → p ∨ q ∨ r := fun h => h.imp_right .inl
  cases h with
  | @prepareEscrow db e' m hm ha hq hs =>
    rcases Table.get?_insert_cases he with ⟨rfl, rfl⟩ | ⟨-, he⟩
    · exact .inr (.inr ⟨Table.get?_nextId _, hq, hs⟩)
    · exact .inl he
  | tagEscrow _ h hs hq => exact hassoc (hset h (.tag hs hq) he)
  | orderEscrow ha h hs => exact hassoc (hset h (.order ha hs) he)
  | cancelEscrow h hs => exact hassoc (hset h (.cancel hs) he)
  | cleanEscrow h hs => exact hassoc (hset h (.clean hs) he)
  | _ => exact .inl he

/-- No escrow is ever removed. -/
theorem escrow_kept (h : Step settings allow d d') {i : Id} {e : SellEscrowRow}
    (he : d.db.sellEscrows.get? i = some e) : ∃ e', d'.db.sellEscrows.get? i = some e' := by
  have hset : ∀ {db : Db} (id : Id) (f : SellEscrowRow → SellEscrowRow),
      db.sellEscrows.get? i = some e → ∃ e', (db.sellEscrows.update id f).get? i = some e' := by
    intro db id f he
    obtain ⟨e', he', -⟩ := Table.exists_get?_update (R := fun _ _ => True) (fun _ => trivial)
      (fun _ => trivial) (f := f) he id
    exact ⟨e', he'⟩
  cases h with
  | prepareEscrow => exact ⟨e, Table.get?_insert_old _ he⟩
  | tagEscrow => exact hset _ _ he
  | orderEscrow => exact hset _ _ he
  | cancelEscrow => exact hset _ _ he
  | cleanEscrow => exact hset _ _ he
  | _ => exact ⟨e, he⟩

theorem Rewrite.moves {i : Id} {e e' : SellEscrowRow} (h : Rewrite allow i e e') :
    ReflTransGen Moves e.status e'.status := by
  cases h with
  | tag hs => exact .single (hs ▸ .tag)
  | order _ hs => exact .single (hs ▸ .order)
  | cancel hs => exact .single (hs ▸ .cancel)
  | clean => exact .refl

theorem Rewrite.sound {i : Id} {e e' : SellEscrowRow} (h : Rewrite allow i e e') (hI : EscrowSound e) :
    EscrowSound e' := by
  obtain ⟨hpos, hlinked, htagged, huntagged⟩ := hI
  cases h with
  | tag hs hq => exact ⟨hpos, by simpa [hs] using hlinked, fun _ => hq, by simp⟩
  | order _ hs => exact ⟨hpos, by simp, fun _ => htagged (.inl hs), by simp⟩
  | cancel hs => exact ⟨hpos, by simpa [hs] using hlinked, by simp, fun _ => huntagged (.inl hs)⟩
  | clean hs => exact ⟨hpos, hlinked, htagged, huntagged⟩

private theorem escrowSound_step (h : Step settings allow d d')
    (hI : ∀ i e, d.db.sellEscrows.get? i = some e → EscrowSound e) :
    ∀ i e, d'.db.sellEscrows.get? i = some e → EscrowSound e := by
  intro i e he
  rcases escrow_after h he with he | ⟨e₀, he₀, hr⟩ | ⟨-, hpos, hs, hq, ho⟩
  · exact hI i e he
  · exact hr.sound (hI i e₀ he₀)
  · exact ⟨hpos, by simp [hs, ho], by simp [hs], fun _ => hq⟩

theorem reachable_escrowSound (h : Reachable settings db) :
    ∀ i e, db.sellEscrows.get? i = some e → EscrowSound e :=
  h.induct (I := fun d => ∀ i e, d.db.sellEscrows.get? i = some e → EscrowSound e)
    (fun i e he => by simp at he) escrowSound_step

/-- How the escrows of a later state come from those of an earlier one. -/
structure Descends (db db' : Db) : Prop where
  kept : ∀ i e, db.sellEscrows.get? i = some e → ∃ e', db'.sellEscrows.get? i = some e' ∧
    ReflTransGen Moves e.status e'.status
  fresh : ∀ i e', db.sellEscrows.get? i = none → db'.sellEscrows.get? i = some e' →
    ReflTransGen Moves .prepared e'.status

theorem Descends.refl (db : Db) : Descends db db :=
  ⟨fun _ e he => ⟨e, he, .refl⟩, fun _ _ hn he => by simp [hn] at he⟩

theorem Descends.trans {db'' : Db} (h : Descends db db') (h' : Descends db' db'') : Descends db db'' := by
  refine ⟨fun i e he => ?_, fun i e'' hn he'' => ?_⟩
  · obtain ⟨e', he', hm⟩ := h.kept i e he
    obtain ⟨e'', he'', hm'⟩ := h'.kept i e' he'
    exact ⟨e'', he'', hm.trans hm'⟩
  · cases he' : db'.sellEscrows.get? i with
    | none => exact h'.fresh i e'' he' he''
    | some e' =>
      obtain ⟨e₁, he₁, hm⟩ := h'.kept i e' he'
      obtain rfl : e₁ = e'' := Option.some.inj (he₁.symm.trans he'')
      exact (h.fresh i e' hn he').trans hm

private theorem descends_step (h : Step settings allow d d') : Descends d.db d'.db := by
  refine ⟨fun i e he => ?_, fun i e' hn he' => ?_⟩
  · obtain ⟨e', he'⟩ := escrow_kept h he
    refine ⟨e', he', ?_⟩
    rcases escrow_after h he' with hsame | ⟨e₀, he₀, hr⟩ | ⟨hn, -⟩
    · obtain rfl : e = e' := Option.some.inj (he.symm.trans hsame)
      exact .refl
    · obtain rfl : e = e₀ := Option.some.inj (he.symm.trans he₀)
      exact hr.moves
    · simp [hn] at he
  · rcases escrow_after h he' with hsame | ⟨e₀, he₀, -⟩ | ⟨-, -, hs, -⟩
    · simp [hn] at hsame
    · simp [hn] at he₀
    · rw [hs]

private theorem descends_steps (h : Steps settings allow d d') : Descends d.db d'.db := by
  induction h with
  | refl => exact .refl _
  | tail _ hs ih => exact ih.trans (descends_step hs)

end Rows
section Orders

/-- Executed escrows have orders of their own. -/
structure OrdersOwned (db : Db) : Prop where
  exist : ∀ i e o, db.sellEscrows.get? i = some e → e.orderId = some o → ∃ r, db.orders.get? o = some r
  distinct : ∀ i j e f o, db.sellEscrows.get? i = some e → db.sellEscrows.get? j = some f →
    e.orderId = some o → f.orderId = some o → i = j

/-- A step that executes no escrow links no order. -/
theorem linked_before (h : Step settings allow d d') (hq : ∀ i, ¬ allow (.orderEscrow i)) {i o : Id}
    {e : SellEscrowRow} (he : d'.db.sellEscrows.get? i = some e) (ho : e.orderId = some o) :
    ∃ e₀, d.db.sellEscrows.get? i = some e₀ ∧ e₀.orderId = some o := by
  rcases escrow_after h he with he | ⟨e₀, he₀, hr⟩ | ⟨-, -, -, -, hnone⟩
  · exact ⟨e, he, ho⟩
  · refine ⟨e₀, he₀, ?_⟩
    cases hr with
    | order ha => exact absurd ha (hq i)
    | _ => exact ho
  · simp [hnone] at ho

theorem ordersOwned_quiet (h : Step settings allow d d') (hq : ∀ i, ¬ allow (.orderEscrow i))
    (hI : OrdersOwned d.db) : OrdersOwned d'.db := by
  refine ⟨fun i e o he ho => ?_, fun i j e f o he hf ho ho' => ?_⟩
  · obtain ⟨e₀, he₀, ho₀⟩ := linked_before h hq he ho
    obtain ⟨r, hr⟩ := hI.exist i e₀ o he₀ ho₀
    obtain ⟨r', hr', -⟩ := order_kept h hr
    exact ⟨r', hr'⟩
  · obtain ⟨e₀, he₀, ho₀⟩ := linked_before h hq he ho
    obtain ⟨f₀, hf₀, ho₀'⟩ := linked_before h hq hf ho'
    exact hI.distinct i j e₀ f₀ o he₀ hf₀ ho₀ ho₀'

/-- The new order of an execution is linked to no other escrow. -/
theorem OrdersOwned.link {db₁ : Db} (h : OrdersOwned db) (hI : OrdersOwned db₁)
    (hescrows : db₁.sellEscrows = db.sellEscrows) {r : OrderRow}
    (hr : db₁.orders.get? db.orders.nextId = some r) (escrowId : Id) :
    OrdersOwned (Db.setEscrow db₁ escrowId fun e =>
      { e with status := .ordered, orderId := some db.orders.nextId }) := by
  have hcases : ∀ {i o : Id} {e : SellEscrowRow}, (Db.setEscrow db₁ escrowId fun e =>
      { e with status := .ordered, orderId := some db.orders.nextId }).sellEscrows.get? i = some e →
        e.orderId = some o → (i = escrowId ∧ o = db.orders.nextId) ∨
          (db₁.sellEscrows.get? i = some e ∧ o ≠ db.orders.nextId) := by
    intro i o e he ho
    rcases Table.get?_update_cases he with ⟨rfl, e₀, -, rfl⟩ | ⟨-, he⟩
    · exact .inl ⟨rfl, (Option.some.inj ho).symm⟩
    · obtain ⟨r', hr'⟩ := h.exist i e o (hescrows ▸ he) ho
      exact .inr ⟨he, Table.ne_nextId hr'⟩
  refine ⟨fun i e o he ho => ?_, fun i j e f o he hf ho ho' => ?_⟩
  · rcases hcases he ho with ⟨-, rfl⟩ | ⟨he, -⟩
    · exact ⟨r, hr⟩
    · exact hI.exist i e o he ho
  · rcases hcases he ho with ⟨rfl, rfl⟩ | ⟨he, hne⟩
    · rcases hcases hf ho' with ⟨rfl, -⟩ | ⟨-, hne⟩
      · rfl
      · exact absurd rfl hne
    · rcases hcases hf ho' with ⟨-, rfl⟩ | ⟨hf, -⟩
      · exact absurd rfl hne
      · exact hI.distinct i j e f o he hf ho ho'

private theorem executeSellEscrow_owned (settings : Settings) (escrowId : Id) :
    Keeps (fun db => OrdersOwned db ∧ EscrowsPlaceable db) (executeSellEscrow escrowId) := by
  refine Keeps.atomic fun db r db' hI hb => ?_
  obtain ⟨e, he, ⟨-, hr⟩ | ⟨-, db₁, hplace, hr⟩⟩ := executeSellEscrowTx_ok hb
  · obtain rfl : db' = db := hr
    exact hI
  · have hplaceable := hI.2 escrowId e he
    obtain ⟨hopen, hrest, hid, hescrows, p, hrow⟩ :=
      (@placeSellLocked_steps _ _ _ settings (· = .openSell)) hplaceable rfl hplace
    have howned : OrdersOwned db₁ := Steps.induct (I := fun d => OrdersOwned d.db)
      (fun hs hI => ordersOwned_quiet hs (fun i => by simp) hI) ((hrest (· = .openSell)).head (hopen rfl)) hI.1
    have hid' : r.orderId = db.orders.nextId := hid
    simp only at hr
    subst hr
    rw [hid']
    have hdelivered : OrdersOwned (Db.deliver db₁ e.playerUuid e.marketId (e.taggedQty - e.requestedQty)
        .escrowExcess) := ⟨howned.exist, howned.distinct⟩
    refine ⟨hI.1.link hdelivered hescrows hrow escrowId, fun i e' he' => ?_⟩
    rcases Table.get?_update_cases he' with ⟨rfl, e₀, he₀, rfl⟩ | ⟨-, he'⟩
    · exact hI.2 _ e₀ (hescrows ▸ he₀)
    · exact hI.2 i e' (hescrows ▸ he')

theorem run_ordersOwned {history : List Event} (h : Run settings history db) : OrdersOwned db := by
  induction h with
  | start => exact ⟨fun i e o he => by simp at he, fun i j e f o he => by simp at he⟩
  | @call history db h c faults ih =>
    by_cases hc : ∃ escrowId, c = .executeSellEscrow escrowId
    · obtain ⟨escrowId, rfl⟩ := hc
      exact (((executeSellEscrow_owned settings escrowId).bind fun _ => Keeps.pure).final faults
        ⟨ih, h.escrowsPlaceable⟩).1
    · refine Steps.induct (I := fun d => OrdersOwned d.db) (fun hs hI => ordersOwned_quiet hs (fun i ha => ?_) hI)
        (h.leaves_steps c faults) ih
      cases c with
      | executeSellEscrow escrowId => exact hc ⟨escrowId, rfl⟩
      | _ => exact ha

end Orders
section Replays
variable {request : OrderRequest} {orderId escrowId : Id} {p p' : Progress} {r : ExecutionResult}

/-- The loop counts what the trades of its order record. -/
theorem matchBids_sold {es : List (Id × OrderRow)} (h : matchBids request orderId es p db = .ok (p', db'))
    (hq : soldQuantity db orderId = p.filledTotal) (hv : soldValue db orderId = p.gross) :
    soldQuantity db' orderId = p'.filledTotal ∧ soldValue db' orderId = p'.gross := by
  induction es generalizing p db with
  | nil =>
    obtain ⟨rfl, rfl⟩ := Prod.mk.inj (pure_ok.mp h)
    exact ⟨hq, hv⟩
  | cons e es ih =>
    simp only [matchBids, ite_ok, bind_ok, pure_ok, Prod.mk.injEq] at h
    rcases h with ⟨-, rfl, rfl⟩ | ⟨-, ⟨q, db₁⟩, htake, hrest⟩
    · exact ⟨hq, hv⟩
    · obtain ⟨-, -, -, -, -, hr⟩ := takeBid_ok.mp htake
      obtain ⟨rfl, rfl⟩ := Prod.mk.inj hr
      have htrades : (Db.bidTaken db request orderId e.1 e.2 (min p.remaining e.2.remainingQty)).trades =
          db.trades.insert (bidTrade request orderId e.1 e.2 (min p.remaining e.2.remainingQty)) := rfl
      refine ih hrest ?_ ?_
      · rw [soldQuantity, htrades, Table.sum_insert, ← soldQuantity, hq, bidTrade, if_pos rfl, afterBid]
      · rw [soldValue, htrades, Table.sum_insert, ← soldValue, hv, bidTrade, if_pos rfl, afterBid]

/-- The rows that a replay reads, and the result it makes of them. -/
structure Recorded (db : Db) (playerUuid : String) (r : ExecutionResult) : Prop where
  order : ∃ o, db.orders.get? r.orderId = some o ∧ o.originalQty = r.requestedQuantity ∧
    o.remainingQty = r.openQuantity
  filled : soldQuantity db r.orderId = r.filledQuantity
  gross : soldValue db r.orderId = r.grossCents
  balance : ∃ a, db.accounts.find? playerUuid = some a ∧ a.balanceCents = r.balanceCents

private theorem orderedEscrowResult_recorded {e : SellEscrowRow} : orderedEscrowResult e db = .ok (r, db) ↔
    e.orderId = some r.orderId ∧ Recorded db e.playerUuid r := by
  simp only [orderedEscrowResult, bind_ok, selectOne_ok, select_ok, lockedBalance_ok, pure_ok,
    exists_eq_left', exists_exists_and_eq_and, Prod.mk.injEq, and_true]
  constructor
  · rintro ⟨o, ho, row, hrow, a, ha, rfl⟩
    exact ⟨ho, ⟨row, hrow, rfl, rfl⟩, rfl, rfl, a, ha, rfl⟩
  · rintro ⟨ho, ⟨row, hrow, horiginal, hremaining⟩, hfilled, hgross, a, ha, hbalance⟩
    refine ⟨r.orderId, ho, row, hrow, a, ha, ?_⟩
    rw [horiginal, hremaining, hfilled, hgross, hbalance]

private theorem placeSellLocked_recorded (settings : Settings) (hp : Placeable request) (hside : request.side = .sell)
    (ht : TradesOwned db) (h : placeSellLocked request db = .ok (r, db')) :
    Recorded db' request.playerUuid r := by
  obtain ⟨m, b, a, ⟨p, db₂⟩, hm, hb, hact, ha, hmatch, hfin⟩ := placeSellLocked_ok.mp h
  obtain ⟨c, hc, hfin⟩ := finishSell_ok.mp hfin
  obtain ⟨rfl, rfl⟩ := Prod.mk.inj hfin
  have hopened : Db.addOrder db (newOrder request 0) = Db.openOrder db (newOrder request 0) := rfl
  have hfresh : ∀ i t, db.trades.get? i = some t → ¬ t.sellOrderId = db.orders.nextId := by
    intro i t hi
    obtain ⟨buy, sell, hbetween⟩ := ht i t hi
    exact Table.ne_nextId hbetween.rows.2
  obtain ⟨hfilled, hgross⟩ := matchBids_sold hmatch
    (Table.sum_eq_zero fun i t hi => if_neg (hfresh i t hi))
    (Table.sum_eq_zero fun i t hi => if_neg (hfresh i t hi))
  rw [hopened] at hmatch
  have hw := @waiting_of_query db (Db.openOrder db (newOrder request 0)) request .buy
    (fun o => request.type = .limit → o.priceCents ≥ request.priceCents) m.bookId m _ (newOrder request 0)
    (fun e => request.type = .limit → e.2.priceCents ≥ request.priceCents) _ hm rfl (fun _ h => h)
    (List.perm_insertionSort bidBefore _) rfl rfl rfl
  obtain ⟨-, hs⟩ := (@matchBids_steps _ _ _ _ _ _ _ settings (fun _ => True)) hmatch
    ((@session_start _ _ 0) hp _) hside hw
  refine ⟨⟨soldOrder request p (newOrder request 0), ?_, rfl, rfl⟩, hfilled, hgross, c, hc, rfl⟩
  change (db₂.orders.update db.orders.nextId _).get? db.orders.nextId = _
  rw [Table.get?_update_self, hs.own, Option.map_some]

theorem Recorded.congr {playerUuid : String} (h : Recorded db playerUuid r) (ho : db'.orders = db.orders)
    (ht : db'.trades = db.trades) (ha : db'.accounts = db.accounts) : Recorded db' playerUuid r := by
  obtain ⟨horder, hfilled, hgross, hbalance⟩ := h
  refine ⟨ho ▸ horder, ?_, ?_, ha ▸ hbalance⟩
  · rw [← hfilled, soldQuantity, ht, soldQuantity]
  · rw [← hgross, soldValue, ht, soldValue]

/-- What the service has recorded of an executed escrow is enough to answer again. -/
theorem executeSellEscrowTx_again {e : SellEscrowRow} (he : db.sellEscrows.get? escrowId = some e)
    (hs : e.status = .ordered) (ho : e.orderId = some r.orderId) (h : Recorded db e.playerUuid r) :
    executeSellEscrowTx escrowId db = .ok (r, db) := by
  simp only [executeSellEscrowTx, bind_ok, selectOne_ok, ite_ok]
  exact ⟨_, ⟨e, he, rfl⟩, .inl ⟨hs, orderedEscrowResult_recorded.mpr ⟨ho, h⟩⟩⟩

/-- Right after an execution the escrow's records answer what the execution answered. -/
theorem executeSellEscrowTx_replays (settings : Settings) (hI : EscrowsPlaceable db) (ht : TradesOwned db)
    (h : executeSellEscrowTx escrowId db = .ok (r, db')) :
    executeSellEscrowTx escrowId db' = .ok (r, db') := by
  obtain ⟨e, he, ⟨-, hr⟩ | ⟨-, db₁, hplace, hr⟩⟩ := executeSellEscrowTx_ok h
  · obtain rfl : db' = db := hr
    exact h
  · obtain ⟨-, -, -, hescrows, -⟩ := (@placeSellLocked_steps _ _ _ settings (fun _ => True))
      (hI escrowId e he) rfl hplace
    have hrecorded := placeSellLocked_recorded settings (hI escrowId e he) rfl ht hplace
    simp only at hr
    subst hr
    have hrow : (Db.setEscrow (Db.deliver db₁ e.playerUuid e.marketId (e.taggedQty - e.requestedQty)
        .escrowExcess) escrowId fun e =>
          { e with status := .ordered, orderId := some r.orderId }).sellEscrows.get? escrowId =
        some { e with status := .ordered, orderId := some r.orderId } := by
      rw [Db.setEscrow_sellEscrows, Table.get?_update_self, Db.deliver_sellEscrows, hescrows, he,
        Option.map_some]
    exact executeSellEscrowTx_again hrow rfl rfl (hrecorded.congr rfl rfl rfl)

/-- Every execution of an ordered escrow gives one answer and changes nothing. -/
theorem ordered_answers (hP : Participants db) (hO : OrdersOwned db) {e : SellEscrowRow}
    (hE : EscrowSound e) (he : db.sellEscrows.get? escrowId = some e) (hs : e.status = .ordered) :
    ∃ r, executeSellEscrowTx escrowId db = .ok (r, db) := by
  obtain ⟨o, ho⟩ := hE.linked.mpr hs
  obtain ⟨row, hrow⟩ := hO.exist escrowId e o he ho
  obtain ⟨a, ha⟩ := hP.sellers escrowId e he
  exact ⟨⟨o, row.originalQty, soldQuantity db o, row.remainingQty, soldValue db o, a.balanceCents⟩,
    executeSellEscrowTx_again he hs ho ⟨⟨row, hrow, rfl, rfl⟩, rfl, rfl, a, ha, rfl⟩⟩

/-- A transaction that answers `r` and changes nothing does so under any faults. -/
theorem transaction_answers {α : Type} {body : Tx α} {r : α} (h : body db = .ok (r, db))
    (faults : List Fault) : (transaction body faults db).2.2 = db ∧
      ∀ r', (transaction body faults db).1 = .returned r' → r' = r := by
  have htriple : Triple (· = db) (transaction body) (fun r' s => s = db ∧ r' = r) (fun _ s => s = db)
      (fun s => s = db) := by
    refine Triple.atomic (fun _ hs => hs) (fun _ hs => hs) (fun s r' s' hs hb => ?_) fun _ _ hs _ => hs
    rw [hs, h] at hb
    obtain ⟨rfl, rfl⟩ := Prod.mk.inj (Except.ok.inj hb)
    exact ⟨⟨rfl, rfl⟩, rfl⟩
  refine ⟨Triple.final (htriple.conseq (fun _ h => h) (fun _ _ h => h.1) (fun _ _ h => h) fun _ h => h)
    faults rfl, fun r' hr' => ?_⟩
  have hends := htriple faults db rfl
  unfold Ends at hends
  rw [hr'] at hends
  exact hends.2

/-- What a transaction returns, its body returned. -/
theorem transaction_body {α : Type} {body : Tx α} {r : α} {faults fs : List Fault}
    (h : transaction body faults db = (.returned r, fs, db')) : body db = .ok (r, db') := by
  have htriple : Triple (· = db) (transaction body) (fun r s => body db = .ok (r, s)) (fun _ _ => True)
      (fun _ => True) :=
    Triple.atomic (fun _ _ => trivial) (fun _ _ => trivial) (fun s r s' hs hb => ⟨hs ▸ hb, trivial⟩)
      fun _ _ _ _ => trivial
  have hends := htriple faults db rfl
  unfold Ends at hends
  rwa [h] at hends

end Replays
section Lifecycle

/-- What holds of the escrows of a state and of every state after it. -/
structure EscrowsMaintained (settings : Settings) (db : Db) : Prop where
  linked : ∀ i e, db.sellEscrows.get? i = some e → ((∃ o, e.orderId = some o) ↔ e.status = .ordered)
  distinct : ∀ i j e f o, db.sellEscrows.get? i = some e → db.sellEscrows.get? j = some f →
    e.orderId = some o → f.orderId = some o → i = j
  tagged : ∀ i e, db.sellEscrows.get? i = some e →
    (e.requestedQty ≤ e.taggedQty ↔ e.status = .tagged ∨ e.status = .ordered)
  moves : ∀ db', Later settings db db' → Descends db db'
  repeated : ∀ i e, db.sellEscrows.get? i = some e → e.status = .ordered →
    ∃ r, executeSellEscrow i [] db = (.returned r, [], db) ∧
      ∀ faults, (executeSellEscrow i faults db).2.2 = db ∧
        ∀ r', (executeSellEscrow i faults db).1 = .returned r' → r' = r
  same : ∀ i faults fs r db', executeSellEscrow i faults db = (.returned r, fs, db') →
    executeSellEscrow i [] db' = (.returned r, [], db')

theorem EscrowSound.tagged_iff {e : SellEscrowRow} (h : EscrowSound e) :
    e.requestedQty ≤ e.taggedQty ↔ e.status = .tagged ∨ e.status = .ordered := by
  refine ⟨fun hle => ?_, h.tagged⟩
  have hpos := h.requested_pos
  cases hs : e.status with
  | tagged => exact .inl rfl
  | ordered => exact .inr rfl
  | prepared =>
    have h0 := h.untagged (.inl hs)
    omega
  | canceled =>
    have h0 := h.untagged (.inr hs)
    omega

private theorem later_descends (h : Reachable settings db) (hl : Later settings db db') : Descends db db' := by
  induction hl with
  | refl => exact .refl db
  | tail hl hc ih =>
    obtain ⟨c, faults, rfl⟩ := hc
    obtain ⟨history, hrun⟩ := Later.reachable hl h
    exact ih.trans (descends_steps (hrun.leaves_steps c faults))

/-- In every reachable state the escrows keep their life cycle, and executing one again
answers what was answered and changes nothing. -/
theorem escrows_maintained (h : Reachable settings db) : EscrowsMaintained settings db := by
  have hsound := reachable_escrowSound h
  have hparticipants := reachable_participants h
  have htrades := (reachable_reconciled h).trades
  obtain ⟨history, hrun⟩ := h
  have howned := run_ordersOwned hrun
  refine ⟨fun i e he => (hsound i e he).linked, howned.distinct, fun i e he => (hsound i e he).tagged_iff,
    fun db' hl => later_descends ⟨history, hrun⟩ hl, fun i e he hs => ?_, fun i faults fs r db' hx => ?_⟩
  · obtain ⟨r, hr⟩ := ordered_answers hparticipants howned (hsound i e he) he hs
    exact ⟨r, transaction_returned hr, transaction_answers hr⟩
  · exact transaction_returned
      (executeSellEscrowTx_replays settings hrun.escrowsPlaceable htrades (transaction_body hx))

/-- A limit escrow of five units, three of them sold, executed twice. -/
theorem escrows_maintained_partly :
    let db := afterCalls sampleSettings [.activateMarket (diamondMarket "block"),
      .placeOrder (diamondOrder "alice" .buy .limit 900 3),
      .prepareSellEscrow (diamondOrder "bob" .sell .limit 900 5), .markSellEscrowTagged 1 6 1,
      .executeSellEscrow 1]
    (∃ r, executeSellEscrow 1 [] db = (.returned r, [], db)) ∧ EscrowsMaintained sampleSettings db := by
  intro db
  have hmaintained := escrows_maintained (reachable_afterCalls sampleSettings
    [.activateMarket (diamondMarket "block"), .placeOrder (diamondOrder "alice" .buy .limit 900 3),
      .prepareSellEscrow (diamondOrder "bob" .sell .limit 900 5), .markSellEscrowTagged 1 6 1,
      .executeSellEscrow 1])
  obtain ⟨r, hr, -⟩ := hmaintained.repeated 1 _ rfl rfl
  exact ⟨⟨r, hr⟩, hmaintained⟩

end Lifecycle
end EndstoneExchange.SellEscrowLifecycle
