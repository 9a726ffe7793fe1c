import EndstoneExchange.SellEscrowRecovery
import EndstoneExchange.DeliveryRecovery

/-!
# The end of a sale

A sale that a recovery has worked off to its end is either undone or has become one order.
Neither the interruptions before nor the number of attempts matters.
-/
namespace EndstoneExchange.SaleSettlement
open AutoIncrementTables AtomicTransactions.Transaction DurablePrograms ExchangeDomain ExchangeTransactions
  AccountOperations DeliveryOperations SellEscrowOperations ClearingSteps RowHistories MatchingRefinement
  SellEscrowLifecycle InventorySessions InventoryLoops SellEscrowLayouts SellEscrowRecovery LocalizedMessages
open InventoryEscrow hiding tagSellItems tagStacks restoreTaggedSellItems replaceTaggedSellItemsWithReceipts Tagged
open ServiceRuns hiding Run

section Orders
variable {settings : Settings} {allow : Special → Prop} {d d' : Desk} {db : Db} {e : SellEscrowRow}

/-- What an ordered sale has become: an order for what was asked and a delivery of the excess. -/
structure Ordered (db : Db) (e : SellEscrowRow) : Prop where
  order : ∃ o order, e.orderId = some o ∧ db.orders.get? o = some order ∧ order.side = .sell ∧
    order.marketId = e.marketId ∧ order.playerUuid = e.playerUuid ∧ order.originalQty = e.requestedQty
  excess : e.requestedQty < e.taggedQty → ∃ i r, db.deliveries.get? i = some r ∧ r.playerUuid = e.playerUuid ∧
    r.marketId = e.marketId ∧ r.quantity = e.taggedQty - e.requestedQty ∧ r.reason = .escrowExcess

private theorem ordered_kept (h : Step settings allow d d') (hI : Ordered d.db e) : Ordered d'.db e := by
  obtain ⟨⟨o, order, hlink, horder, hside, hmarket, hplayer, hquantity⟩, hexcess⟩ := hI
  refine ⟨?_, fun hlt => ?_⟩
  · obtain ⟨order', horder', hsame⟩ := order_kept h horder
    exact ⟨o, order', hlink, horder', hsame.side.trans hside, hsame.market.trans hmarket,
      hsame.player.trans hplayer, hsame.original.trans hquantity⟩
  · obtain ⟨i, r, hr, hplayer, hmarket, hquantity, hreason⟩ := hexcess hlt
    obtain ⟨r', hr', hsame⟩ := delivery_kept h hr
    exact ⟨i, r', hr', hsame.player.trans hplayer, hsame.market.trans hmarket, hsame.quantity.trans hquantity,
      hsame.reason.trans hreason⟩

private theorem ordered_step (h : Step settings allow d d')
    (hI : ∀ i e, d.db.sellEscrows.get? i = some e → e.status = .ordered → Ordered d.db e) :
    ∀ i e, d'.db.sellEscrows.get? i = some e → e.status = .ordered → Ordered d'.db e := by
  intro i e he hs
  have hkept := fun he => ordered_kept h (hI i e he hs)
  cases h with
  | @prepareEscrow db new m hm ha hq hnew =>
    rcases Table.get?_insert_cases he with ⟨-, rfl⟩ | ⟨-, he⟩
    · rw [hnew.1] at hs
      cases hs
    · exact hkept he
  | tagEscrow =>
    rcases Table.get?_update_cases he with ⟨-, e₀, -, rfl⟩ | ⟨-, he⟩
    · cases hs
    · exact hkept he
  | @orderEscrow db escrowId orderId e₀ order ha he₀ hs₀ horder hside hterms =>
    rcases Table.get?_update_cases he with ⟨rfl, e₁, he₁, rfl⟩ | ⟨-, he⟩
    · cases he₀.symm.trans he₁
      refine ⟨⟨orderId, order, rfl, horder, hside, hterms⟩, fun hlt => ?_⟩
      have hmore : ¬ e₀.taggedQty - e₀.requestedQty ≤ 0 := by
        dsimp only at hlt
        omega
      refine ⟨db.deliveries.nextId,
        { playerUuid := e₀.playerUuid, marketId := e₀.marketId, quantity := e₀.taggedQty - e₀.requestedQty
          reason := .escrowExcess }, ?_, rfl, rfl, rfl, rfl⟩
      simp only [Db.setEscrow_deliveries, Db.deliver_deliveries, if_neg hmore]
      exact Table.get?_insert_self _ _
    · exact hkept he
  | cancelEscrow =>
    rcases Table.get?_update_cases he with ⟨-, e₀, -, rfl⟩ | ⟨-, he⟩
    · cases hs
    · exact hkept he
  | @cleanEscrow db escrowId e₀ he₀ hs₀ =>
    rcases Table.get?_update_cases he with ⟨rfl, e₁, he₁, rfl⟩ | ⟨-, he⟩
    · obtain ⟨horder, hexcess⟩ := hI i e₁ he₁ hs
      exact ⟨horder, hexcess⟩
    · exact hkept he
  | _ => exact hkept he

theorem reachable_ordered (h : Reachable settings db) :
    ∀ i e, db.sellEscrows.get? i = some e → e.status = .ordered → Ordered db e :=
  h.induct (I := fun d => ∀ i e, d.db.sellEscrows.get? i = some e → e.status = .ordered → Ordered d.db e)
    (fun i e he => by simp at he) ordered_step

end Orders

section Markers
variable {server : Server} {settings : Settings} {request : OrderRequest} {original : PlayerInventory}
  {escrowId : Id} {e : SellEscrowRow} {prototype : ItemPrototype} {I : Session → Prop}

/-- A marker of somebody else's sale is left alone. -/
theorem foreign_keeps {id : Id}
    (h : ∀ s, I s → ∀ e, s.db.sellEscrows.get? id = some e → e.playerUuid ≠ request.playerUuid) :
    Keeps I (reconcileSellMarker server request.playerUuid id) := by
  refine Triple.bind (R := fun escrow s => I s ∧ escrow = none) (select_rule (fun _ hs => hs) fun s hs => ⟨hs, ?_⟩)
    fun escrow => ?_
  · cases he : s.db.sellEscrows.get? id with
    | none => rfl
    | some e => exact if_neg (h s hs e he)
  · cases escrow with
    | none => exact Triple.pure fun s hs => hs.1
    | some escrow =>
      intro fs s hs
      cases hs.2

theorem reconcileInternalEscrowMarkers_keeps
    (hunclaimed : ∀ s, I s → ∀ item ∈ s.inventory.items, deliveryClaimId item = none)
    (hmarker : ∀ s, I s → ∀ item ∈ s.inventory.items, ∀ id, sellItemEscrowId item = some id ∨
      sellReceiptEscrowId item = some id → Keeps I (reconcileSellMarker server request.playerUuid id)) :
    Keeps I (reconcileInternalEscrowMarkers server request.playerUuid) := by
  refine Triple.bind (R := fun markers s => I s ∧ markers.deliveryClaimIds = [] ∧
    ∀ id ∈ members (markers.sellItemEscrowIds ++ markers.sellReceiptEscrowIds),
      Keeps I (reconcileSellMarker server request.playerUuid id))
    (observe_rule (fun _ hs => hs) fun s hs => ⟨hs, ?_, fun id hid => ?_⟩) fun markers => ?_
  · have hnone : s.inventory.items.filterMap deliveryClaimId = [] :=
      List.filterMap_eq_nil_iff.mpr (hunclaimed s hs)
    simp [internalEscrowMarkers, hnone, members]
  · rw [mem_members, List.mem_append] at hid
    simp only [internalEscrowMarkers, mem_members, List.mem_filterMap] at hid
    rcases hid with ⟨item, hitem, hmark⟩ | ⟨item, hitem, hmark⟩
    · exact hmarker s hs item hitem id (.inl hmark)
    · exact hmarker s hs item hitem id (.inr hmark)
  · refine Triple.of_forall fun s hs => ?_
    obtain ⟨hI, hnone, hids⟩ := hs
    rw [hnone]
    refine Triple.from_state (P := I) (Triple.bind (R := fun _ => I) (Triple.pure fun _ hs => hs) fun _ => ?_) hI
    refine (Triple.forEach (R := fun ids s => I s ∧ ∀ id ∈ ids, Keeps I (reconcileSellMarker server request.playerUuid id))
      (fun id ids => ?_) _).conseq (fun s hs => ⟨hs, hids⟩) (fun _ _ hs => hs.1) (fun _ _ hs => hs) fun _ hs => hs
    refine Triple.of_forall fun s hs => ?_
    have hrest := fun i hi => hs.2 i (List.mem_cons_of_mem _ hi)
    exact ((hs.2 id List.mem_cons_self).conseq (fun _ hs => hs) (fun _ s hs => ⟨hs, hrest⟩) (fun _ _ hs => hs)
      fun _ hs => hs).from_state hs.1

/-- A visit that finds nothing to do. -/
theorem visit_same {body : Slot → ItemStack → PlayerInventory → Except Thrown PlayerInventory}
    {put : ItemStack → Option ItemStack} {inventory inventory' : PlayerInventory} {slot : Slot} (h : Puts put body)
    (hsame : ∀ slot item, inventory.getItem slot = some item → put item = some item)
    (hvisit : visit body slot inventory = .ok inventory') : inventory' = inventory := by
  obtain ⟨hslots, hget⟩ := h.visit hvisit
  refine PlayerInventory.ext_getItem hslots fun s => ?_
  rw [hget]
  split_ifs with hs
  · rw [hs]
    cases hitem : inventory.getItem slot with
    | none => rfl
    | some item => exact hsame slot item hitem
  · rfl

/-- On an inventory without markers of the escrow the loops do nothing. -/
theorem untouched_keeps {body : Slot → ItemStack → PlayerInventory → Except Thrown PlayerInventory}
    {put : ItemStack → Option ItemStack} (h : Puts put body)
    (hsame : ∀ slot item, original.getItem slot = some item → put item = some item) :
    Keeps (fun s => Holds server.toPlatform settings request original escrowId e prototype s ∧
      s.inventory = original) (forEachSlot body) := by
  refine forEachSlot_keeps fun slot s inventory hs hvisit => ?_
  have hinventory : inventory = s.inventory := by
    rw [hs.2] at hvisit ⊢
    exact visit_same h hsame hvisit
  rw [hinventory]
  exact hs

theorem restored_rule (hfresh : Fresh escrowId original) : Triple
    (fun s => Holds server.toPlatform settings request original escrowId e prototype s ∧ s.inventory = original)
    (restoreTaggedSellItems server.toPlatform escrowId prototype)
    (fun _ s => Holds server.toPlatform settings request original escrowId e prototype s ∧ s.inventory = original)
    (fun _ => Active server.toPlatform settings request original escrowId)
    (Active server.toPlatform settings request original escrowId) := by
  refine Triple.bind (R := fun _ s => Holds server.toPlatform settings request original escrowId e prototype s ∧
    s.inventory = original) (Triple.ofExcept (fun _ _ _ hs => hs) fun _ s _ hs => hs.1.active) fun nbt => ?_
  exact (untouched_keeps (puts_restoreSlot escrowId nbt) fun slot item hitem => by
    rw [if_neg (hfresh.tags slot item hitem)]).conseq (fun _ hs => hs) (fun _ _ hs => hs) (fun _ _ hs => hs.1.active)
    fun _ hs => hs.1.active

/-- A canceled sale has nothing to be restored. -/
theorem canceled_rule (huntouched : Untouched escrowId original) (hs : e.status = .canceled) {failure : String} : Triple
    (Holds server.toPlatform settings request original escrowId e prototype)
    (do
      restoreTaggedSellItems server.toPlatform escrowId prototype
      removeSellReceipts escrowId
      let cleared ← sellMarkersCleared escrowId
      if cleared = false then throw (.runtimeError failure))
    (fun _ => Active server.toPlatform settings request original escrowId)
    (fun _ => Active server.toPlatform settings request original escrowId)
    (Active server.toPlatform settings request original escrowId) := by
  have hsame : ∀ s, Holds server.toPlatform settings request original escrowId e prototype s →
      s.inventory = original := by
    intro s hholds
    cases hholds.fits with
    | prepared hs' => rw [hs] at hs'; cases hs'
    | tagged hs' => rw [hs] at hs'; cases hs'
    | ordered hs' => rw [hs] at hs'; cases hs'
    | canceled _ hsame => exact hsame
  refine Triple.bind ((restored_rule huntouched.fresh).conseq (fun s hs => ⟨hs, hsame s hs⟩)
    (fun _ _ hs => hs) (fun _ _ hs => hs) fun _ hs => hs) fun _ => ?_
  refine Triple.bind ((untouched_keeps (puts_removeSlot sellReceiptEscrowId escrowId) fun slot item hitem => by
    rw [if_neg (huntouched.fresh.receipts slot item hitem)]).conseq (fun _ hs => hs) (fun _ s hs => hs.1)
    (fun _ _ hs => hs.1.active) fun _ hs => hs.1.active) fun _ => ?_
  refine Triple.bind (sellMarkersCleared_rule active_of_holds) fun cleared => ?_
  split_ifs
  · exact Triple.throw fun s hs => hs.1.active
  · exact Triple.pure fun s hs => hs.1.active

theorem reconcileSellMarker_rule (huntouched : Untouched escrowId original) : Keeps
    (Active server.toPlatform settings request original escrowId)
    (reconcileSellMarker server request.playerUuid escrowId) := by
  refine Triple.of_forall fun s hactive => ?_
  obtain ⟨e, prototype, hholds⟩ := hactive
  refine Triple.from_state (P := Holds server.toPlatform settings request original escrowId e prototype) ?_ hholds
  refine Triple.bind (R := fun found s => Holds server.toPlatform settings request original escrowId e prototype s ∧
    ∃ escrow, found = some escrow ∧ Reads escrowId e prototype escrow)
    (select_rule (fun s hs => hs.active) fun s hs => ⟨hs, ?_⟩) fun found => ?_
  · obtain ⟨escrow, hescrow, hreads⟩ : ∃ escrow, sellEscrowFromRow s.db (escrowId, e) = some escrow ∧
        Reads escrowId e prototype escrow := by
      rw [sellEscrowFromRow, hs.item]
      exact ⟨_, rfl, rfl, rfl, rfl⟩
    refine ⟨escrow, ?_, hreads⟩
    rw [hs.row, ← hescrow]
    exact if_pos hs.player
  · cases found with
    | none =>
      intro fs s hs
      obtain ⟨-, escrow, hnone, -⟩ := hs
      cases hnone
    | some escrow =>
      refine Triple.of_forall fun s hs => ?_
      obtain ⟨hholds, escrow', hsome, rfl, rfl, hstatus⟩ := hs
      cases hsome
      refine Triple.from_state
        (P := Holds server.toPlatform settings request original escrow.id e escrow.item) ?_ hholds
      dsimp only
      by_cases hordered : escrow.status = .ordered
      · rw [if_pos hordered]
        refine (removed_rule huntouched.fresh ?_).conseq
          (fun s hs => ⟨e, _, hs, hstatus.symm.trans hordered⟩) (fun _ _ hs => hs) (fun _ _ hs => hs) fun _ hs => hs
        refine Triple.bind (sellMarkersCleared_rule fun s hs => hs.active) fun cleared => ?_
        refine Triple.guard (fun _ s hs => hs.1.active) fun hcleared => ?_
        split_ifs
        · exact Triple.pure fun s hs => hs.1.active
        · exact (markSellEscrowCleaned_rule huntouched).conseq
            (fun s hs => ⟨hs.1, hs.2 (Bool.eq_true_of_not_eq_false hcleared)⟩) (fun _ _ hs => hs.active)
            (fun _ _ hs => hs) fun _ hs => hs
      · rw [if_neg hordered]
        split_ifs with hcanceled
        · exact canceled_rule huntouched (hstatus.symm.trans hcanceled)
        · exact Triple.pure fun s hs => hs.active

private theorem active_markers (huntouched : Untouched escrowId original) : Keeps
    (Active server.toPlatform settings request original escrowId)
    (reconcileInternalEscrowMarkers server request.playerUuid) := by
  refine reconcileInternalEscrowMarkers_keeps (fun s hactive item hitem => ?_) fun s hactive item hitem id hmark => ?_
  · obtain ⟨e, prototype, hholds⟩ := hactive
    obtain ⟨chosen, hchoice, hlayout⟩ := hholds.fits.layout
    exact hlayout.unclaimed hchoice huntouched hitem
  · obtain ⟨e, prototype, hholds⟩ := hactive
    obtain ⟨chosen, hchoice, hlayout⟩ := hholds.fits.layout
    rcases hlayout.marker hchoice huntouched.fresh hitem hmark with rfl | hold
    · exact reconcileSellMarker_rule huntouched
    · refine foreign_keeps fun s' hactive' => ?_
      obtain ⟨e', prototype', hholds'⟩ := hactive'
      exact hholds'.foreign item hold id hmark

end Markers

section Preparing
variable {platform : Platform} {settings : Settings} {request : OrderRequest} {original : PlayerInventory}
  {escrowId : Id} {start db : Db} {s : Session} {escrow : SellEscrow}

/-- An account is opened or renamed before the escrow is prepared. -/
def Kept (start db : Db) : Prop := db.sellEscrows = start.sellEscrows ∧ db.markets = start.markets

def Prepares (request : OrderRequest) (start : Db) (escrow : SellEscrow) (db : Db) : Prop :=
  ∃ db₁, Kept start db₁ ∧ prepareSellEscrowTx request db₁ = .ok (escrow, db)

private theorem ensureAccount_kept {playerUuid playerName : String} :
    Keeps (Kept start) (ensureAccount settings playerUuid playerName) := by
  refine Keeps.guard fun _ => Keeps.atomic fun db u db' hkept hb => ?_
  obtain ⟨-, rfl⟩ := Prod.mk.inj (ensureAccountTx_ok.mp hb)
  unfold Db.ensured
  cases db.accounts.find? playerUuid with
  | none => exact hkept
  | some a => exact hkept

private theorem prepareSellEscrow_spec : Triple (Kept start) (prepareSellEscrow settings request)
    (Prepares request start) (fun _ db => Kept start db ∨ ∃ escrow, Prepares request start escrow db)
    (fun db => Kept start db ∨ ∃ escrow, Prepares request start escrow db) := by
  refine Triple.bind (R := fun _ => Kept start)
    (Triple.ofExcept (fun _ _ _ hkept => hkept) fun _ _ _ hkept => .inl hkept) fun _ => ?_
  refine Triple.guard (fun _ _ hkept => .inl hkept) fun _ => ?_
  refine Triple.bind (ensureAccount_kept.conseq (fun _ hkept => hkept) (fun _ _ hkept => hkept)
    (fun _ _ hkept => .inl hkept) fun _ hkept => .inl hkept) fun _ => ?_
  refine Triple.atomic (fun _ hkept => .inl hkept) (fun _ hkept => .inl hkept) (fun db escrow db' hkept hb => ?_)
    fun _ _ hkept _ => .inl hkept
  exact ⟨⟨db, hkept, hb⟩, .inr ⟨escrow, db, hkept, hb⟩⟩

private theorem prepareSellEscrow_reachable (h : Reachable settings db) (faults : List Fault) :
    Reachable settings (prepareSellEscrow settings request faults db).2.2 := by
  have hcall := h.call (.prepareSellEscrow request) faults
  rw [Call.leaves, Call.run, Program.discard_state] at hcall
  exact hcall

private theorem idle_kept (h : Idle settings request original escrowId s) (hreachable : Reachable settings db)
    (hkept : Kept s.db db) : Idle settings request original escrowId { s with db } where
  reachable := hreachable
  absent e he := h.absent e (hkept.1 ▸ he)
  others i f hf := h.others i f (hkept.1 ▸ hf)
  foreign item hitem id hmark e he := h.foreign item hitem id hmark e (hkept.1 ▸ he)
  same := h.same

/-- The row of a new sale, before any stack is tagged. -/
theorem idle_prepared (h : Idle settings request original escrowId s) (hfresh : Fresh escrowId original)
    (hnext : s.db.sellEscrows.nextId = escrowId) (hreachable : Reachable settings db)
    (hprepares : Prepares request s.db escrow db) :
    Holds platform settings request original escrowId (newEscrow request) escrow.item { s with db } ∧
      escrow.id = escrowId := by
  obtain ⟨db₁, ⟨hescrows, -⟩, htx⟩ := hprepares
  obtain ⟨hitem, hid, -, rfl⟩ := prepareSellEscrowTx_ok htx
  have hnext₁ : db₁.sellEscrows.nextId = escrowId := by rw [hescrows, hnext]
  have hold : ∀ {i f}, (Db.addEscrow db₁ (newEscrow request)).sellEscrows.get? i = some f → i ≠ escrowId →
      s.db.sellEscrows.get? i = some f := by
    intro i f hf hne
    rcases Table.get?_insert_cases hf with ⟨rfl, -⟩ | ⟨-, hf⟩
    · exact absurd hnext₁ hne
    · exact hescrows ▸ hf
  refine ⟨⟨hreachable, ?_, rfl, hitem, fun i f hf hplayer hne => h.others i f (hold hf hne) hplayer,
    fun item hmem id hmark f hf => ?_, ?_⟩, hid.trans hnext₁⟩
  · rw [← hnext₁]
    exact Table.get?_insert_self _ _
  · refine h.foreign item hmem id hmark f (hold hf ?_)
    rintro rfl
    obtain ⟨slot, hslot⟩ := getItem_of_mem_items hmem
    rcases hmark with hmark | hmark
    · exact hfresh.tags slot item hslot hmark
    · exact hfresh.receipts slot item hslot hmark
  · exact .prepared rfl rfl (choice_nil _ _ _) h.same

end Preparing

section Submissions
variable {server : Server} {settings : Settings} {original : PlayerInventory} {escrowId : Id} {language : Language}
  {request : OrderRequest}

/-- A sale, with or without a row. -/
def Sale (platform : Platform) (settings : Settings) (request : OrderRequest) (original : PlayerInventory)
    (escrowId : Id) (s : Session) : Prop :=
  Idle settings request original escrowId s ∨ Active platform settings request original escrowId s

theorem prepareSellEscrow_rule (hfresh : Fresh escrowId original) : Triple
    (fun s => Idle settings request original escrowId s ∧ s.db.sellEscrows.nextId = escrowId)
    (onDb (prepareSellEscrow settings request))
    (fun escrow s => (Holds server.toPlatform settings request original escrowId (newEscrow request) escrow.item s ∧
      s.inventory = original) ∧ escrow.id = escrowId)
    (fun _ => Sale server.toPlatform settings request original escrowId)
    (Sale server.toPlatform settings request original escrowId) := by
  refine onDb_rule fun s hs => ?_
  obtain ⟨hidle, hnext⟩ := hs
  have hreachable : Triple (· = s.db) (prepareSellEscrow settings request) (fun _ => Reachable settings)
      (fun _ => Reachable settings) (Reachable settings) := Triple.of_final fun fs db hdb => by
    rw [hdb]
    exact prepareSellEscrow_reachable hidle.reachable fs
  have hsale : ∀ db, (Kept s.db db ∨ ∃ escrow, Prepares request s.db escrow db) ∧ Reachable settings db →
      Sale server.toPlatform settings request original escrowId { s with db } := by
    rintro db ⟨hkept | ⟨escrow, hprepares⟩, hdb⟩
    · exact .inl (idle_kept hidle hdb hkept)
    · exact .inr (idle_prepared hidle hfresh hnext hdb hprepares).1.active
  refine (prepareSellEscrow_spec.and hreachable).conseq (fun db hdb => ⟨hdb ▸ ⟨rfl, rfl⟩, hdb⟩)
    (fun escrow db hdb => ?_) (fun _ => hsale) hsale
  obtain ⟨hholds, hid⟩ := idle_prepared hidle hfresh hnext hdb.2 hdb.1
  exact ⟨⟨hholds, hidle.same⟩, hid⟩

/-- Whatever interrupts a submission, the row and the inventory tell how far it got. -/
theorem submitSellEscrow_rule (hplain : PlainReceipts server.toPlatform) (huntouched : Untouched escrowId original) :
    Triple (fun s => Idle settings request original escrowId s ∧ s.db.sellEscrows.nextId = escrowId)
    (submitSellEscrow server language request.playerUuid settings request)
    (fun _ => Sale server.toPlatform settings request original escrowId)
    (fun _ => Sale server.toPlatform settings request original escrowId)
    (Sale server.toPlatform settings request original escrowId) := by
  refine Triple.bind (prepareSellEscrow_rule huntouched.fresh) fun escrow => ?_
  refine Triple.of_forall fun s hs => ?_
  obtain ⟨hholds, rfl⟩ := hs
  refine Triple.from_state (P := fun s => Holds server.toPlatform settings request original escrow.id
    (newEscrow request) escrow.item s ∧ s.inventory = original) ?_ hholds
  refine (Triple.tryCatch (sellTagged_rule hplain huntouched rfl rfl rfl rfl) fun originalError => ?_).conseq
    (fun _ hs => hs) (fun _ _ hs => .inr hs) (fun _ _ hs => .inr hs) fun _ hs => .inr hs
  refine Triple.tryCatch (Triple.bind (reconcileSellEscrows_rule hplain huntouched) fun _ => ?_)
    fun _ => Triple.throw fun _ hs => hs
  exact (executeSellEscrow_rule huntouched.fresh).conseq (fun _ hs => hs.active) (fun _ _ hs => hs.active)
    (fun _ _ hs => hs) fun _ hs => hs

private theorem idle_markers (hunclaimed : ∀ item ∈ original.items, deliveryClaimId item = none) :
    Keeps (Idle settings request original escrowId) (reconcileInternalEscrowMarkers server request.playerUuid) := by
  refine reconcileInternalEscrowMarkers_keeps (fun s hs item hitem => ?_) fun s hs item hitem id hmark => ?_
  · rw [hs.same] at hitem
    exact hunclaimed item hitem
  · rw [hs.same] at hitem
    exact foreign_keeps fun s' hs' => hs'.foreign item hitem id hmark

private theorem idle_escrows :
    Keeps (Idle settings request original escrowId) (reconcileSellEscrows server language request.playerUuid) := by
  refine Triple.bind (R := fun escrows s => Idle settings request original escrowId s ∧ escrows = [])
    (select_rule (fun s hs => hs) fun s hs => ⟨hs, ?_⟩) fun escrows => ?_
  · have hnone : (s.db.sellEscrows.entries.filter fun e => e.2.playerUuid = request.playerUuid ∧
        SellEscrowRow.Unfinished e.2) = [] := by
      refine List.filter_eq_nil_iff.mpr fun e he hopen => ?_
      obtain ⟨hplayer, hunfinished⟩ := of_decide_eq_true hopen
      exact hs.others e.1 e.2 (Table.mem_entries.mp he) hplayer hunfinished
    rw [hnone]
    rfl
  · refine Triple.of_forall fun s hs => ?_
    rw [hs.2]
    exact (Triple.pure fun s hs => hs).from_state hs.1

end Submissions

section Recoveries
variable {server : Server} {settings : Settings} {original : PlayerInventory} {escrowId : Id} {language : Language}
  {request : OrderRequest} {start s : Session}

theorem recover_rule (hplain : PlainReceipts server.toPlatform) (huntouched : Untouched escrowId original) :
    Triple (Sale server.toPlatform settings request original escrowId)
    (recover server language request.playerUuid)
    (fun _ s => Idle settings request original escrowId s ∨
      Done server.toPlatform settings request original escrowId s)
    (fun _ => Sale server.toPlatform settings request original escrowId)
    (Sale server.toPlatform settings request original escrowId) := by
  refine Triple.of_forall fun s hs => ?_
  cases hs with
  | inl hidle =>
    refine Triple.from_state ?_ hidle
    exact ((idle_markers huntouched.unclaimed).bind fun _ => idle_escrows).conseq (fun _ hs => hs)
      (fun _ _ hs => .inl hs) (fun _ _ hs => .inl hs) fun _ hs => .inl hs
  | inr hactive =>
    refine Triple.from_state ?_ hactive
    exact (Triple.bind (active_markers huntouched) fun _ => reconcileSellEscrows_rule hplain huntouched).conseq
      (fun _ hs => hs) (fun _ _ hs => .inr hs) (fun _ _ hs => .inr hs) fun _ hs => .inr hs

/-- A player's sales are the same in two databases. -/
def SameSales (playerUuid : String) (db db' : Db) : Prop := ∀ i e, e.playerUuid = playerUuid →
  (db'.sellEscrows.get? i = some e ↔ db.sellEscrows.get? i = some e)

/-- A submission, interrupted anywhere or not at all, and the recoveries after it. In between the
service may do anything but work on the player's sales. -/
inductive Run (server : Server) (language : Language) (settings : Settings) (request : OrderRequest)
    (start : Session) : Session → Prop
  | submit (faults : List Fault) : Run server language settings request start
      (submitSellEscrow server language request.playerUuid settings request faults start).2.2
  | recover {s : Session} (h : Run server language settings request start s) (faults : List Fault) :
      Run server language settings request start (recover server language request.playerUuid faults s).2.2
  | elsewhere {s : Session} (h : Run server language settings request start s) (c : Call) (faults : List Fault)
      (hsales : SameSales request.playerUuid s.db (c.leaves settings faults s.db)) :
      Run server language settings request start { s with db := c.leaves settings faults s.db }

/-- A player with no sale open. Items that carry markers of sales are not the player's own. -/
structure Begins (settings : Settings) (request : OrderRequest) (start : Session) : Prop where
  reachable : Reachable settings start.db
  untouched : Untouched start.db.sellEscrows.nextId start.inventory
  others : ∀ i f, start.db.sellEscrows.get? i = some f → f.playerUuid = request.playerUuid →
    ¬ SellEscrowRow.Unfinished f
  foreign : Foreign request start.inventory start.db

theorem Begins.idle (h : Begins settings request start) :
    Idle settings request start.inventory start.db.sellEscrows.nextId start :=
  ⟨h.reachable, fun e he => absurd he (by simp), h.others, h.foreign, rfl⟩

theorem Sale.elsewhere {c : Call} {faults : List Fault}
    (h : Sale server.toPlatform settings request original escrowId s)
    (hsales : SameSales request.playerUuid s.db (c.leaves settings faults s.db)) :
    Sale server.toPlatform settings request original escrowId { s with db := c.leaves settings faults s.db } := by
  have hforeign : Foreign request original s.db → Foreign request original (c.leaves settings faults s.db) :=
    fun h item hitem id hmark e he hplayer => h item hitem id hmark e ((hsales id e hplayer).mp he) hplayer
  rcases h with h | ⟨e, prototype, h⟩
  · refine .inl ⟨h.reachable.call c faults, fun e he hplayer => h.absent e ((hsales _ e hplayer).mp he) hplayer,
      fun i f hf hplayer => h.others i f ((hsales i f hplayer).mp hf) hplayer, hforeign h.foreign, h.same⟩
  · exact .inr ⟨e, prototype, h.reachable.call c faults, (hsales _ e h.player).mpr h.row, h.terms,
      leaves_item h.reachable c faults h.item,
      fun i f hf hplayer => h.others i f ((hsales i f hplayer).mp hf) hplayer, hforeign h.foreign, h.fits⟩

theorem Run.sale (h : Run server language settings request start s) (hplain : PlainReceipts server.toPlatform)
    (hbegins : Begins settings request start) :
    Sale server.toPlatform settings request start.inventory start.db.sellEscrows.nextId s := by
  induction h with
  | submit faults =>
    exact Triple.final (submitSellEscrow_rule hplain hbegins.untouched) faults ⟨hbegins.idle, rfl⟩
  | recover _ faults ih =>
    exact Triple.final ((recover_rule hplain hbegins.untouched).conseq (fun _ hs => hs)
      (fun _ _ hs => hs.imp_right Done.active) (fun _ _ hs => hs) fun _ hs => hs) faults ih
  | elsewhere _ c faults hsales ih => exact ih.elsewhere hsales

/-- How a sale ends: as if it had never begun, or with one order for the stacks that are gone. -/
inductive Settled (platform : Platform) (request : OrderRequest) (start s : Session) : Prop
  | undone (hsame : s.inventory = start.inventory)
      (hcanceled : ∀ e, s.db.sellEscrows.get? start.db.sellEscrows.nextId = some e →
        e.playerUuid = request.playerUuid → e.status = .canceled)
  | sold {e : SellEscrowRow} {prototype : ItemPrototype} {chosen : List (Slot × ItemStack)}
      (hrow : s.db.sellEscrows.get? start.db.sellEscrows.nextId = some e)
      (hterms : escrowRequest e = escrowRequest (newEscrow request))
      (hitem : marketItem s.db request.marketId = some prototype)
      (hchoice : Choice platform prototype start.inventory chosen)
      (htotal : total (chosen.map Prod.snd) = e.taggedQty) (henough : request.quantity ≤ e.taggedQty)
      (hgone : Layout (fun _ new => new = none) start.inventory chosen s.inventory)
      (hordered : Ordered s.db e) (howned : ∀ i f, s.db.sellEscrows.get? i = some f → f.orderId = e.orderId →
        i = start.db.sellEscrows.nextId)

private theorem holds_settled {e : SellEscrowRow} {prototype : ItemPrototype}
    (h : Holds server.toPlatform settings request start.inventory start.db.sellEscrows.nextId e prototype s)
    (hfinished : ¬ SellEscrowRow.Unfinished e) : Settled server.toPlatform request start s := by
  have hclosed : e.status ≠ .canceled → e.cleaned = true := fun hs =>
    Bool.eq_true_of_not_eq_false fun hopen => hfinished ⟨hs, hopen⟩
  cases h.fits with
  | prepared hs hopen =>
    rw [hclosed (by rw [hs]; decide)] at hopen
    cases hopen
  | tagged hs hopen =>
    rw [hclosed (by rw [hs]; decide)] at hopen
    cases hopen
  | ordered hs hchoice htotal _ hcleaned =>
    have hmarket : e.marketId = request.marketId := congrArg OrderRequest.marketId h.terms
    have hquantity : e.requestedQty = request.quantity := congrArg OrderRequest.quantity h.terms
    have hordered := reachable_ordered h.reachable _ e h.row hs
    obtain ⟨o, order, hlink, -⟩ := hordered.order
    obtain ⟨history, hrun⟩ := h.reachable
    refine .sold h.row h.terms (hmarket ▸ h.item) hchoice htotal ?_
      (hcleaned (hclosed (by rw [hs]; decide))) hordered fun i f hf howned => ?_
    · rw [← hquantity]
      exact (reachable_escrowSound h.reachable _ e h.row).tagged (.inr hs)
    · exact (run_ordersOwned hrun).distinct i _ f e o hf h.row (howned.trans hlink) hlink
  | canceled hs hsame =>
    refine .undone hsame fun f hf _ => ?_
    cases h.row.symm.trans hf
    exact hs

/-- However often a sale was interrupted, the first recovery that comes to its end settles it. -/
theorem sale_settled (hplain : PlainReceipts server.toPlatform) (hbegins : Begins settings request start)
    (h : Run server language settings request start s) {faults : List Fault}
    (hreturned : (recover server language request.playerUuid faults s).1 = .returned ⟨⟩) :
    Settled server.toPlatform request start (recover server language request.playerUuid faults s).2.2 := by
  have hend := (@recover_rule _ _ _ _ language _) hplain hbegins.untouched faults s (h.sale hplain hbegins)
  rw [Ends, hreturned] at hend
  rcases hend with hidle | ⟨e, prototype, hholds, hfinished⟩
  · exact .undone hidle.same fun e he hplayer => absurd hplayer (hidle.absent e he)
  · exact holds_settled hholds hfinished

end Recoveries

section Sample
open InventoryEscrow (samplePlatform diamonds)
open DeliveryRecovery (sampleServer)

private theorem samplePlatform_plain : PlainReceipts samplePlatform := by
  rintro name lore nbt hnbt
  cases hnbt
  exact ⟨rfl, rfl⟩

/-- Bob has six diamonds. -/
def bob : Session where
  db := afterCalls sampleSettings [.activateMarket (diamondMarket "block")]
  inventory := ⟨[some (diamonds 6), none], none⟩

def bobsOrder : OrderRequest := diamondOrder "bob" .sell .limit 900 4

/-- The server stops when the diamonds are tagged and the database knows it. -/
def interruptedBob : Session :=
  (submitSellEscrow sampleServer .english "bob" sampleSettings bobsOrder (List.replicate 6 .proceed ++ [.crash]) bob).2.2

theorem bob_begins : Begins sampleSettings bobsOrder bob where
  reachable := reachable_afterCalls _ _
  untouched := by
    refine ⟨⟨by decide +kernel, fun slot item hitem => ?_, fun slot item hitem => ?_⟩, fun item hitem => ?_,
      fun item hitem => ?_⟩
    · have hmem := InventoryEscrow.mem_items_of_getItem hitem
      rw [List.mem_singleton.mp hmem]
      decide +kernel
    · have hmem := InventoryEscrow.mem_items_of_getItem hitem
      rw [List.mem_singleton.mp hmem]
      decide +kernel
    · rw [List.mem_singleton.mp hitem]
      decide
    · rw [List.mem_singleton.mp hitem]
      rfl
  others i f hf := by
    have hnone : bob.db.sellEscrows = ⟨[]⟩ := by decide +kernel
    rw [hnone, Table.get?_empty] at hf
    cases hf
  foreign item hitem id hmark f hf := by
    have hnone : bob.db.sellEscrows = ⟨[]⟩ := by decide +kernel
    rw [hnone, Table.get?_empty] at hf
    cases hf

theorem sale_settled_recovered :
    ((interruptedBob.db.sellEscrows.get? 1).map (·.status)) = some .tagged ∧
    (recover sampleServer .english "bob" [] interruptedBob).2.2.inventory.items = [] ∧
    Settled samplePlatform bobsOrder bob (recover sampleServer .english "bob" [] interruptedBob).2.2 := by
  refine ⟨by decide +kernel, by decide +kernel, ?_⟩
  have hrun : Run sampleServer .english sampleSettings bobsOrder bob interruptedBob := .submit _
  exact (@sale_settled sampleServer _ _ _ _ _) samplePlatform_plain bob_begins hrun (by decide +kernel)

end Sample

end EndstoneExchange.SaleSettlement
