import EndstoneExchange.SellEscrowLayouts
import EndstoneExchange.SellEscrowLifecycle

/-!
# Recovering a sale

The row of the escrow tells how far the sale has got, and the inventory agrees with it at
every call and every slot. A finished sale has sold the tagged stacks, or has left
everything as it was.
-/
namespace EndstoneExchange.SellEscrowRecovery
open AutoIncrementTables AtomicTransactions.Transaction DurablePrograms ExchangeDomain ExchangeTransactions
  AccountOperations OrderMatching DeliveryOperations SellEscrowOperations ClearingRefinement RowHistories
  MatchingRefinement SellEscrowLifecycle InventorySessions InventoryLoops SellEscrowLayouts LocalizedMessages
open InventoryEscrow hiding tagSellItems tagStacks restoreTaggedSellItems replaceTaggedSellItemsWithReceipts Tagged
open ServiceRuns hiding Run

section Transactions
variable {settings : Settings} {db db' : Db} {escrowId : Id} {u : PUnit}

theorem prepareSellEscrowTx_ok {request : OrderRequest} {escrow : SellEscrow}
    (h : prepareSellEscrowTx request db = .ok (escrow, db')) :
    marketItem db request.marketId = some escrow.item ∧ escrow.id = db.sellEscrows.nextId ∧
      escrow.requestedQuantity = request.quantity ∧ db' = Db.addEscrow db (newEscrow request) := by
  simp only [prepareSellEscrowTx, bind_ok, selectOne_ok, select_ok, throwIf_ok, execute_ok, pure_ok,
    exists_eq_left', exists_and_left, exists_exists_and_eq_and, and_assoc] at h
  obtain ⟨m, hm, -, a, -, hr⟩ := h
  obtain ⟨rfl, rfl⟩ := Prod.mk.inj hr
  exact ⟨by rw [marketItem, hm]; rfl, rfl, rfl, rfl⟩

private theorem markSellEscrowTaggedTx_ok {tagged receipts : ℤ}
    (h : markSellEscrowTaggedTx escrowId tagged receipts db = .ok (u, db')) :
    ∃ e, db.sellEscrows.get? escrowId = some e ∧ e.requestedQty ≤ tagged ∧
      (e.status = .tagged ∧ db' = db ∨ e.status = .prepared ∧ db' = Db.setEscrow db escrowId fun e =>
        { e with taggedQty := tagged, receiptCount := receipts, status := .tagged }) := by
  simp only [markSellEscrowTaggedTx, bind_ok, selectOne_ok, ite_ok, throwIf_ok, execute_ok, pure_ok,
    exists_eq_left', exists_and_left, exists_exists_and_eq_and, and_assoc, not_not, not_lt] at h
  obtain ⟨e, he, hq, ⟨hs, -, -, hr⟩ | ⟨-, hs, hr⟩⟩ := h
  · exact ⟨e, he, hq, .inl ⟨hs, (Prod.mk.inj hr).2.symm⟩⟩
  · exact ⟨e, he, hq, .inr ⟨hs, (Prod.mk.inj hr).2.symm⟩⟩

private theorem cancelSellEscrowTx_ok (h : cancelSellEscrowTx escrowId db = .ok (u, db')) :
    ∃ e, db.sellEscrows.get? escrowId = some e ∧ (e.status = .canceled ∧ db' = db ∨
      e.status = .prepared ∧ db' = Db.setEscrow db escrowId fun e =>
        { e with status := .canceled, cleaned := true }) := by
  simp only [cancelSellEscrowTx, bind_ok, selectOne_ok, ite_ok, throwIf_ok, execute_ok, pure_ok,
    exists_eq_left', exists_and_left, exists_exists_and_eq_and, and_assoc, not_not] at h
  obtain ⟨e, he, ⟨hs, hr⟩ | ⟨-, hs, hr⟩⟩ := h
  · exact ⟨e, he, .inl ⟨hs, (Prod.mk.inj hr).2.symm⟩⟩
  · exact ⟨e, he, .inr ⟨hs, (Prod.mk.inj hr).2.symm⟩⟩

private theorem markSellEscrowCleanedTx_ok (h : markSellEscrowCleanedTx escrowId db = .ok (u, db')) :
    ∃ e, db.sellEscrows.get? escrowId = some e ∧ e.status = .ordered ∧
      db' = Db.setEscrow db escrowId fun e => { e with cleaned := true } := by
  simp only [markSellEscrowCleanedTx, bind_ok, selectOne_ok, throwIf_ok, execute_ok,
    exists_eq_left', exists_and_left, exists_exists_and_eq_and, and_assoc, not_not] at h
  obtain ⟨e, he, hs, hr⟩ := h
  exact ⟨e, he, hs, (Prod.mk.inj hr).2.symm⟩

/-- An execution changes the row of its escrow alone. -/
theorem executeSellEscrowTx_escrows (settings : Settings) {r : ExecutionResult} (hplaceable : EscrowsPlaceable db)
    (h : executeSellEscrowTx escrowId db = .ok (r, db')) :
    ∃ e, db.sellEscrows.get? escrowId = some e ∧ (e.status = .ordered ∧ db' = db ∨
      e.status = .tagged ∧ db'.sellEscrows = db.sellEscrows.update escrowId fun e =>
        { e with status := .ordered, orderId := some r.orderId }) := by
  obtain ⟨e, he, ⟨hs, hr⟩ | ⟨hs, db₁, hplace, hr⟩⟩ := executeSellEscrowTx_ok h
  · exact ⟨e, he, .inl ⟨hs, hr⟩⟩
  · obtain ⟨-, -, -, hescrows, -⟩ := (@placeSellLocked_steps _ _ _ settings (fun _ => True))
      (hplaceable escrowId e he) rfl hplace
    refine ⟨e, he, .inr ⟨hs, ?_⟩⟩
    dsimp only at hr
    rw [hr, Db.setEscrow_sellEscrows, ← hescrows]
    rfl

/-- The item of a market never changes. -/
theorem leaves_item (h : Reachable settings db) (c : Call) (faults : List Fault) {marketId : Id}
    {item : ItemPrototype} (hitem : marketItem db marketId = some item) :
    marketItem (c.leaves settings faults db) marketId = some item := by
  obtain ⟨history, hrun⟩ := h
  refine Steps.induct (I := fun d => marketItem d.db marketId = some item) (fun hs hI => ?_)
    (hrun.leaves_steps c faults) hitem
  obtain ⟨m, hm, rfl⟩ := Option.map_eq_some_iff.mp hI
  obtain ⟨m', hm', hsame⟩ := market_kept hs hm
  rw [marketItem, hm', Option.map_some, hsame.item]

end Transactions

section Stages
variable {platform : Platform} {settings : Settings} {request : OrderRequest} {original inventory : PlayerInventory}
  {escrowId : Id} {e : SellEscrowRow} {prototype : ItemPrototype} {s : Session} {db' : Db}

/-- What the inventory looks like at each stage of a sale. -/
inductive Fits (platform : Platform) (prototype : ItemPrototype) (original : PlayerInventory) (escrowId : Id)
    (e : SellEscrowRow) (inventory : PlayerInventory) : Prop
  | prepared {chosen : List (Slot × ItemStack)} (hs : e.status = .prepared) (hopen : e.cleaned = false)
      (hchoice : Choice platform prototype original chosen) (htagged : inventory = tagAll escrowId chosen original)
  | tagged {chosen : List (Slot × ItemStack)} (hs : e.status = .tagged) (hopen : e.cleaned = false)
      (hchoice : Choice platform prototype original chosen) (htotal : total (chosen.map Prod.snd) = e.taggedQty)
      (hlayout : Layout (Replaced escrowId) original chosen inventory)
  | ordered {chosen : List (Slot × ItemStack)} (hs : e.status = .ordered)
      (hchoice : Choice platform prototype original chosen) (htotal : total (chosen.map Prod.snd) = e.taggedQty)
      (hlayout : Layout (Removed escrowId) original chosen inventory)
      (hcleaned : e.cleaned = true → Layout (fun _ new => new = none) original chosen inventory)
  | canceled (hs : e.status = .canceled) (hsame : inventory = original)

/-- The markers of other sales in the original inventory are not of the player's sales. -/
def Foreign (request : OrderRequest) (original : PlayerInventory) (db : Db) : Prop :=
  ∀ item ∈ original.items, ∀ id, sellItemEscrowId item = some id ∨ sellReceiptEscrowId item = some id →
    ∀ e, db.sellEscrows.get? id = some e → e.playerUuid ≠ request.playerUuid

/-- A sale that has a row. -/
structure Holds (platform : Platform) (settings : Settings) (request : OrderRequest) (original : PlayerInventory)
    (escrowId : Id) (e : SellEscrowRow) (prototype : ItemPrototype) (s : Session) : Prop where
  reachable : Reachable settings s.db
  row : s.db.sellEscrows.get? escrowId = some e
  terms : escrowRequest e = escrowRequest (newEscrow request)
  item : marketItem s.db e.marketId = some prototype
  others : ∀ i f, s.db.sellEscrows.get? i = some f → f.playerUuid = request.playerUuid → i ≠ escrowId →
    ¬ SellEscrowRow.Unfinished f
  foreign : Foreign request original s.db
  fits : Fits platform prototype original escrowId e s.inventory

/-- No sale has begun. -/
structure Idle (settings : Settings) (request : OrderRequest) (original : PlayerInventory) (escrowId : Id)
    (s : Session) : Prop where
  reachable : Reachable settings s.db
  absent : ∀ e, s.db.sellEscrows.get? escrowId = some e → e.playerUuid ≠ request.playerUuid
  others : ∀ i f, s.db.sellEscrows.get? i = some f → f.playerUuid = request.playerUuid → ¬ SellEscrowRow.Unfinished f
  foreign : Foreign request original s.db
  same : s.inventory = original

def Active (platform : Platform) (settings : Settings) (request : OrderRequest) (original : PlayerInventory)
    (escrowId : Id) (s : Session) : Prop :=
  ∃ e prototype, Holds platform settings request original escrowId e prototype s

/-- The sale is at a stage. -/
def Staged (platform : Platform) (settings : Settings) (request : OrderRequest) (original : PlayerInventory)
    (escrowId : Id) (status : SellEscrowStatus) (s : Session) : Prop :=
  ∃ e prototype, Holds platform settings request original escrowId e prototype s ∧ e.status = status

/-- A sale that needs no more work. -/
def Done (platform : Platform) (settings : Settings) (request : OrderRequest) (original : PlayerInventory)
    (escrowId : Id) (s : Session) : Prop :=
  ∃ e prototype, Holds platform settings request original escrowId e prototype s ∧ ¬ SellEscrowRow.Unfinished e

theorem Holds.player (h : Holds platform settings request original escrowId e prototype s) :
    e.playerUuid = request.playerUuid :=
  congrArg OrderRequest.playerUuid h.terms

theorem Holds.active (h : Holds platform settings request original escrowId e prototype s) :
    Active platform settings request original escrowId s := ⟨e, prototype, h⟩

theorem Staged.active {status : SellEscrowStatus}
    (h : Staged platform settings request original escrowId status s) :
    Active platform settings request original escrowId s := by
  obtain ⟨e, prototype, h, -⟩ := h
  exact h.active

theorem Done.active (h : Done platform settings request original escrowId s) :
    Active platform settings request original escrowId s := by
  obtain ⟨e, prototype, h, -⟩ := h
  exact h.active

theorem Fits.layout (h : Fits platform prototype original escrowId e inventory) :
    ∃ chosen, Choice platform prototype original chosen ∧ Layout (Removed escrowId) original chosen inventory := by
  cases h with
  | prepared _ _ hchoice htagged =>
    refine ⟨_, hchoice, ?_⟩
    rw [htagged]
    exact hchoice.layout.mono fun _ _ h => .inl h
  | tagged _ _ hchoice _ hlayout => exact ⟨_, hchoice, hlayout.mono fun _ _ h => .inl h⟩
  | ordered _ hchoice _ hlayout => exact ⟨_, hchoice, hlayout⟩
  | canceled _ hsame =>
    refine ⟨[], choice_nil _ _ _, ?_⟩
    rw [hsame]
    exact ⟨rfl, by simp, fun _ _ => rfl⟩

/-- The inventory may change as long as it still fits. -/
theorem Holds.moved (h : Holds platform settings request original escrowId e prototype s)
    (hfits : Fits platform prototype original escrowId e inventory) :
    Holds platform settings request original escrowId e prototype { s with inventory } :=
  { h with fits := hfits }

/-- A transaction of the sale rewrites its row. -/
theorem Holds.rewritten {f : SellEscrowRow → SellEscrowRow}
    (h : Holds platform settings request original escrowId e prototype s) (hfresh : Fresh escrowId original)
    (hreachable : Reachable settings db') (hitem : marketItem db' e.marketId = some prototype)
    (hescrows : db'.sellEscrows = s.db.sellEscrows.update escrowId f)
    (hf : escrowRequest (f e) = escrowRequest e)
    (hfits : Fits platform prototype original escrowId (f e) s.inventory) :
    Holds platform settings request original escrowId (f e) prototype { s with db := db' } where
  reachable := hreachable
  row := by rw [hescrows, Table.get?_update_self, h.row, Option.map_some]
  terms := hf.trans h.terms
  item := by rw [show (f e).marketId = e.marketId from congrArg OrderRequest.marketId hf]; exact hitem
  others i g hg hplayer hne := by
    rw [hescrows, Table.get?_update_ne _ _ hne] at hg
    exact h.others i g hg hplayer hne
  foreign item hmem id hmark g hg := by
    have hne : id ≠ escrowId := by
      rintro rfl
      obtain ⟨slot, hslot⟩ := getItem_of_mem_items hmem
      rcases hmark with hmark | hmark
      · exact hfresh.tags slot item hslot hmark
      · exact hfresh.receipts slot item hslot hmark
    rw [hescrows, Table.get?_update_ne _ _ hne] at hg
    exact h.foreign item hmem id hmark g hg
  fits := hfits

end Stages

section Loops
variable {platform : Platform} {settings : Settings} {request : OrderRequest} {original : PlayerInventory}
  {escrowId : Id} {e : SellEscrowRow} {prototype : ItemPrototype}

/-- Where an exception or a stop leaves a sale that has a row. -/
theorem active_of_holds (s : Session) (h : Holds platform settings request original escrowId e prototype s) :
    Active platform settings request original escrowId s := h.active

theorem tagStacks_rule (hs : e.status = .prepared) (hopen : e.cleaned = false) {sorted : List (Slot × ItemStack)}
    (hsorted : Choice platform prototype original sorted) {requested : ℤ} (rest : List (Slot × ItemStack))
    (result : TaggedSellItems) : Triple
    (fun s => Holds platform settings request original escrowId e prototype s ∧ ∃ chosen,
      sorted = chosen ++ rest ∧ s.inventory = tagAll escrowId chosen original)
    (tagStacks requested escrowId rest result)
    (fun _ => Holds platform settings request original escrowId e prototype)
    (fun _ => Active platform settings request original escrowId)
    (Active platform settings request original escrowId) := by
  induction rest generalizing result with
  | nil => exact Triple.pure fun s hs => hs.1
  | cons c rest ih =>
    obtain ⟨slot, item⟩ := c
    rw [tagStacks]
    split_ifs
    · exact Triple.pure fun s hs => hs.1
    · refine Triple.bind (Triple.step (fun s hs => hs.1.active) fun s hholds => ?_) fun _ => ih _
      obtain ⟨hholds, chosen, hsplit, hinventory⟩ := hholds
      have hconcat : s.inventory.setItem slot (setMarker item sellItemTag escrowId) =
          tagAll escrowId (chosen ++ [(slot, item)]) original := by
        rw [tagAll_concat, hinventory]
      have hprefix : sorted = (chosen ++ [(slot, item)]) ++ rest := by
        rw [hsplit, List.append_assoc]
        rfl
      have hchoice : Choice platform prototype original (chosen ++ [(slot, item)]) := by
        obtain ⟨nbt, hchosen, hnbt⟩ := hsorted
        have hsub : (chosen ++ [(slot, item)]).Sublist sorted := hprefix ▸ List.sublist_append_left _ _
        refine ⟨nbt, ⟨(hsub.map Prod.fst).nodup hchosen.keys, fun c hc => ?_, fun c hc => ?_⟩, fun _ => ?_⟩
        · exact hchosen.held c (hsub.subset hc)
        · exact hchosen.sells c (hsub.subset hc)
        · refine hnbt fun hnil => ?_
          rw [hnil] at hprefix
          simp at hprefix
      dsimp only
      rw [hconcat]
      exact ⟨hholds.moved (.prepared hs hopen hchoice rfl), _, hprefix, rfl⟩

theorem tagSellItems_rule (hs : e.status = .prepared) (hopen : e.cleaned = false) {requested : ℤ}
    {language : Language} {name : String} : Triple
    (fun s => Holds platform settings request original escrowId e prototype s ∧ s.inventory = original)
    (tagSellItems platform prototype requested escrowId language name)
    (fun _ => Holds platform settings request original escrowId e prototype)
    (fun _ => Active platform settings request original escrowId)
    (Active platform settings request original escrowId) := by
  refine Triple.guard (fun _ s hs => hs.1.active) fun hrequested => ?_
  refine Triple.bind (R := fun found s => (Holds platform settings request original escrowId e prototype s ∧
    s.inventory = original) ∧ found = original.placed.foldlM (collect platform prototype) {})
    (observe_rule (fun _ hs => hs.1.active) fun s hs => ⟨hs, by rw [hs.2]⟩) fun found => ?_
  refine Triple.bind (R := fun collected s => (Holds platform settings request original escrowId e prototype s ∧
    s.inventory = original) ∧ original.placed.foldlM (collect platform prototype) {} = .ok collected)
    (Triple.ofExcept (fun collected s hok hs => ⟨hs.1, hs.2 ▸ hok⟩) fun _ s _ hs => hs.1.1.active)
    fun collected => ?_
  refine Triple.guard (fun _ s hs => hs.1.1.active) fun henough => ?_
  refine Triple.of_forall fun s hholds => ?_
  obtain ⟨⟨hholds, hsame⟩, hcollected⟩ := hholds
  have hchoice : Choice platform prototype original (platform.sort collected.candidates) := by
    cases hnbt : originalNbt platform prototype with
    | error error =>
      rcases @undecodable platform prototype original error hnbt with ⟨-, hraised⟩ | ⟨-, hnone⟩
      · rw [hraised] at hcollected
        cases hcollected
      · rw [hnone] at hcollected
        cases hcollected
        exact absurd (lt_of_not_ge hrequested) henough
    | ok nbt =>
      obtain ⟨sameType, hall⟩ := @collected_ok platform prototype original nbt hnbt
      rw [hall] at hcollected
      cases hcollected
      have hperm := platform.sort_perm (original.placed.filter (sells prototype nbt ·.2))
      have hmem : ∀ c ∈ platform.sort (original.placed.filter (sells prototype nbt ·.2)),
          c ∈ original.placed ∧ sells prototype nbt c.2 = true := fun c hc =>
        List.mem_filter.mp (hperm.mem_iff.mp hc)
      refine ⟨nbt, ⟨?_, fun c hc => ?_, fun c hc => (hmem c hc).2⟩, fun _ => hnbt⟩
      · refine (hperm.map Prod.fst).nodup_iff.mpr ?_
        exact (List.filter_sublist.map Prod.fst).nodup PlayerInventory.placed_keys_nodup
      · exact PlayerInventory.mem_placed.mp (hmem c hc).1
  exact (tagStacks_rule hs hopen hchoice _ _).from_state ⟨hholds, [], rfl, hsame⟩

theorem restoreTaggedSellItems_rule (hfresh : Fresh escrowId original) (hs : e.status = .prepared)
    (hopen : e.cleaned = false) : Triple (Holds platform settings request original escrowId e prototype)
    (restoreTaggedSellItems platform escrowId prototype)
    (fun _ s => Holds platform settings request original escrowId e prototype s ∧ s.inventory = original)
    (fun _ => Active platform settings request original escrowId)
    (Active platform settings request original escrowId) := by
  refine Triple.bind (R := fun nbt s => Holds platform settings request original escrowId e prototype s ∧
    originalNbt platform prototype = .ok nbt) (Triple.ofExcept (fun nbt s hok hs => ⟨hs, hok⟩)
    fun _ s _ hs => hs.active) fun nbt => ?_
  refine (forEachSlot_rule (R := fun slots s => (Holds platform settings request original escrowId e prototype s ∧
    originalNbt platform prototype = .ok nbt) ∧ ∃ chosen, Choice platform prototype original chosen ∧
      s.inventory = tagAll escrowId chosen original ∧ ∀ c ∈ chosen, c.1 ∈ slots)
    (fun s hs => hs.1.active) (fun s hholds => ?_) (fun _ s hs => hs.1.1.active)
    fun slot slots s inventory hholds hvisit => ?_).conseq (fun _ hs => hs) (fun _ s hholds => ?_) (fun _ _ hs => hs)
    fun _ hs => hs
  · refine ⟨hholds, ?_⟩
    cases hholds.1.fits with
    | @prepared chosen _ _ hchoice htagged =>
      refine ⟨chosen, hchoice, htagged, fun c hc => ?_⟩
      rw [htagged, (hchoice.tagAll_spec escrowId).1]
      exact PlayerInventory.mem_slots_of_getItem (hchoice.held hc)
    | tagged hs' => rw [hs] at hs'; cases hs'
    | ordered hs' => rw [hs] at hs'; cases hs'
    | canceled hs' => rw [hs] at hs'; cases hs'
  · obtain ⟨⟨hholds, hnbt⟩, chosen, hchoice, htagged, hslots⟩ := hholds
    rw [htagged] at hvisit
    have hrestored := hchoice.restored hfresh hnbt hvisit
    have hrest := hchoice.filter fun c => c.1 ≠ slot
    refine ⟨⟨hholds.moved (.prepared hs hopen hrest hrestored), hnbt⟩, _, hrest, hrestored, fun c hc => ?_⟩
    obtain ⟨hmem, hne⟩ := List.mem_filter.mp hc
    exact (List.mem_cons.mp (hslots c hmem)).resolve_left (of_decide_eq_true hne)
  · obtain ⟨⟨hholds, -⟩, chosen, -, htagged, hslots⟩ := hholds
    have hnil : chosen = [] := List.eq_nil_iff_forall_not_mem.mpr fun c hc => by cases hslots c hc
    rw [hnil, tagAll_nil] at htagged
    exact ⟨hholds, htagged⟩

/-- The receipts of a server bear no marker but their own. -/
def PlainReceipts (platform : Platform) : Prop := ∀ name lore nbt, platform.receiptNbt name lore = some nbt →
  markerId nbt sellItemTag = none ∧ markerId nbt deliveryClaimTag = none

private theorem isReceipt_of_plain (h : PlainReceipts platform) (hlt : escrowId < 2 ^ 64) {language : Language}
    {receipt : ItemStack} (hreceipt : sellReceipt platform escrowId language = .ok receipt) :
    IsReceipt escrowId receipt := by
  rw [sellReceipt] at hreceipt
  cases hnbt : platform.receiptNbt (messageText language .receiptName) [messageText language .receiptLore] with
  | none => rw [hnbt] at hreceipt; cases hreceipt
  | some nbt =>
    rw [hnbt] at hreceipt
    cases hreceipt
    obtain ⟨hsale, hclaim⟩ := h _ _ nbt hnbt
    refine ⟨rfl, ?_, ?_, ?_⟩
    · exact (markerId_setMarker _ _ _ hlt).trans (if_pos rfl)
    · exact (markerId_setMarker _ _ _ hlt).trans ((if_neg (by decide)).trans hsale)
    · exact (markerId_setMarker _ _ _ hlt).trans ((if_neg (by decide)).trans hclaim)

theorem replaceTaggedSellItemsWithReceipts_rule (hplain : PlainReceipts platform) (hfresh : Fresh escrowId original)
    (hs : e.status = .tagged) {language : Language} :
    Keeps (Holds platform settings request original escrowId e prototype)
      (replaceTaggedSellItemsWithReceipts platform escrowId language) := by
  refine forEachSlot_keeps fun slot s inventory hholds hvisit => hholds.moved ?_
  cases hholds.fits with
  | prepared hs' => rw [hs] at hs'; cases hs'
  | tagged _ hopen hchoice htotal hlayout =>
    exact .tagged hs hopen hchoice htotal (hlayout.replace hchoice hfresh
      (fun _ hreceipt => isReceipt_of_plain hplain hfresh.lt hreceipt) hvisit)
  | ordered hs' => rw [hs] at hs'; cases hs'
  | canceled hs' => rw [hs] at hs'; cases hs'

theorem remove_rule (hfresh : Fresh escrowId original) (hs : e.status = .ordered)
    {markerOf : ItemStack → Option Id} (hmarker : markerOf = sellItemEscrowId ∨ markerOf = sellReceiptEscrowId) :
    Keeps (Holds platform settings request original escrowId e prototype)
      (forEachSlot (removeSlot markerOf escrowId)) := by
  refine forEachSlot_keeps fun slot s inventory hholds hvisit => hholds.moved ?_
  cases hholds.fits with
  | prepared hs' => rw [hs] at hs'; cases hs'
  | tagged hs' => rw [hs] at hs'; cases hs'
  | ordered _ hchoice htotal hlayout hcleaned =>
    exact .ordered hs hchoice htotal (hlayout.remove hfresh hmarker hvisit) fun hclean =>
      (hcleaned hclean).gone hfresh hmarker hvisit
  | canceled hs' => rw [hs] at hs'; cases hs'

end Loops

section Calls
variable {server : Server} {settings : Settings} {request : OrderRequest} {original : PlayerInventory}
  {escrowId : Id} {e : SellEscrowRow} {prototype : ItemPrototype}

theorem markSellEscrowTagged_rule (hfresh : Fresh escrowId original) (hs : e.status = .prepared)
    {tagged receipts : ℤ} : Triple
    (fun s => Holds server.toPlatform settings request original escrowId e prototype s ∧
      taggedSellItems s.inventory escrowId = ⟨tagged, receipts⟩)
    (onDb (markSellEscrowTagged escrowId tagged receipts))
    (fun _ => Staged server.toPlatform settings request original escrowId .tagged)
    (fun _ => Active server.toPlatform settings request original escrowId)
    (Active server.toPlatform settings request original escrowId) := by
  refine guarded_rule (fun s hs => hs.1.active) fun hguard s u db hholds hb => ?_
  obtain ⟨hholds, hcount⟩ := hholds
  have hleaves : (Call.markSellEscrowTagged escrowId tagged receipts).leaves settings [] s.db = db := by
    rw [Call.leaves, Call.run, markSellEscrowTagged, if_neg hguard]
    exact congrArg (·.2.2) (transaction_returned hb)
  have hreachable : Reachable settings db := hleaves ▸ hholds.reachable.call _ []
  have hitem : marketItem db e.marketId = some prototype :=
    hleaves ▸ leaves_item hholds.reachable _ [] hholds.item
  obtain ⟨e', he', -, ⟨hs', -⟩ | ⟨-, hdb⟩⟩ := markSellEscrowTaggedTx_ok hb
  · cases hholds.row.symm.trans he'
    rw [hs] at hs'
    cases hs'
  · have hstaged : Staged server.toPlatform settings request original escrowId .tagged { s with db } := by
      cases hholds.fits with
      | @prepared chosen _ hopen hchoice htagged =>
        rw [htagged, hchoice.counted hfresh] at hcount
        cases hcount
        refine ⟨_, prototype, hholds.rewritten hfresh hreachable hitem (by rw [hdb]; rfl) rfl
          (.tagged rfl hopen hchoice rfl ?_), rfl⟩
        rw [htagged]
        exact hchoice.layout
      | tagged hs' => rw [hs] at hs'; cases hs'
      | ordered hs' => rw [hs] at hs'; cases hs'
      | canceled hs' => rw [hs] at hs'; cases hs'
    exact ⟨hstaged, hstaged.active⟩

/-- An execution takes a tagged sale on, and finds an ordered one done. -/
theorem executed (hfresh : Fresh escrowId original) {s : Session} {r : ExecutionResult} {db : Db}
    (hholds : Holds server.toPlatform settings request original escrowId e prototype s)
    (hb : executeSellEscrowTx escrowId s.db = .ok (r, db)) :
    Staged server.toPlatform settings request original escrowId .ordered { s with db } := by
  have hleaves : (Call.executeSellEscrow escrowId).leaves settings [] s.db = db := by
    rw [Call.leaves, Call.run, executeSellEscrow, Program.bind_returned (transaction_returned hb)]
    rfl
  have hreachable : Reachable settings db := hleaves ▸ hholds.reachable.call _ []
  have hitem : marketItem db e.marketId = some prototype :=
    hleaves ▸ leaves_item hholds.reachable _ [] hholds.item
  obtain ⟨e', he', ⟨hs', rfl⟩ | ⟨hs', hescrows⟩⟩ :=
    executeSellEscrowTx_escrows settings hholds.reachable.escrowsPlaceable hb
  · cases hholds.row.symm.trans he'
    exact ⟨e, prototype, hholds, hs'⟩
  · cases hholds.row.symm.trans he'
    cases hholds.fits with
    | prepared hs => rw [hs] at hs'; cases hs'
    | tagged _ hopen hchoice htotal hlayout =>
      refine ⟨_, prototype, hholds.rewritten hfresh hreachable hitem hescrows rfl
        (.ordered rfl hchoice htotal (hlayout.mono fun _ _ h => .inl h) fun hclean => ?_), rfl⟩
      exact absurd (hopen.symm.trans hclean) Bool.false_ne_true
    | ordered hs => rw [hs] at hs'; cases hs'
    | canceled hs => rw [hs] at hs'; cases hs'

theorem executeSellEscrow_rule (hfresh : Fresh escrowId original) : Triple
    (Active server.toPlatform settings request original escrowId) (onDb (executeSellEscrow escrowId))
    (fun _ => Staged server.toPlatform settings request original escrowId .ordered)
    (fun _ => Active server.toPlatform settings request original escrowId)
    (Active server.toPlatform settings request original escrowId) := by
  refine transaction_rule (fun s hs => hs) fun s r db hactive hb => ?_
  obtain ⟨e, prototype, hholds⟩ := hactive
  have hstaged := executed hfresh hholds hb
  exact ⟨hstaged, hstaged.active⟩

theorem cancelSellEscrow_rule (hfresh : Fresh escrowId original) (hs : e.status = .prepared) : Triple
    (fun s => Holds server.toPlatform settings request original escrowId e prototype s ∧ s.inventory = original)
    (onDb (cancelSellEscrow escrowId)) (fun _ => Done server.toPlatform settings request original escrowId)
    (fun _ => Active server.toPlatform settings request original escrowId)
    (Active server.toPlatform settings request original escrowId) := by
  refine transaction_rule (fun s hs => hs.1.active) fun s u db hholds hb => ?_
  obtain ⟨hholds, hsame⟩ := hholds
  have hleaves : (Call.cancelSellEscrow escrowId).leaves settings [] s.db = db := by
    rw [Call.leaves, Call.run, cancelSellEscrow, transaction_returned hb]
  have hreachable : Reachable settings db := hleaves ▸ hholds.reachable.call _ []
  have hitem : marketItem db e.marketId = some prototype :=
    hleaves ▸ leaves_item hholds.reachable _ [] hholds.item
  obtain ⟨e', he', ⟨hs', -⟩ | ⟨-, hdb⟩⟩ := cancelSellEscrowTx_ok hb
  · cases hholds.row.symm.trans he'
    rw [hs] at hs'
    cases hs'
  · have hcanceled := hholds.rewritten hfresh hreachable hitem
      (f := fun e => { e with status := .canceled, cleaned := true }) (by rw [hdb]; rfl) rfl
      (.canceled rfl hsame)
    exact ⟨⟨_, prototype, hcanceled, fun hopen => hopen.1 rfl⟩, hcanceled.active⟩

/-- The tags and receipts are counted before the sale is finished. -/
theorem markSellEscrowCleaned_rule (huntouched : Untouched escrowId original) : Triple
    (fun s => Staged server.toPlatform settings request original escrowId .ordered s ∧
      (taggedSellItems s.inventory escrowId).quantity = 0 ∧ sellReceiptCount s.inventory escrowId = 0)
    (onDb (markSellEscrowCleaned escrowId))
    (fun _ => Done server.toPlatform settings request original escrowId)
    (fun _ => Active server.toPlatform settings request original escrowId)
    (Active server.toPlatform settings request original escrowId) := by
  refine transaction_rule (fun s hs => hs.1.active) fun s u db hstaged hb => ?_
  obtain ⟨⟨e, prototype, hholds, hs⟩, htagged, hreceipts⟩ := hstaged
  have hleaves : (Call.markSellEscrowCleaned escrowId).leaves settings [] s.db = db := by
    rw [Call.leaves, Call.run, markSellEscrowCleaned, transaction_returned hb]
  have hreachable : Reachable settings db := hleaves ▸ hholds.reachable.call _ []
  have hitem : marketItem db e.marketId = some prototype :=
    hleaves ▸ leaves_item hholds.reachable _ [] hholds.item
  obtain ⟨e', he', -, hdb⟩ := markSellEscrowCleanedTx_ok hb
  have hcleaned : Done server.toPlatform settings request original escrowId { s with db } := by
    cases hholds.fits with
    | prepared hs' => rw [hs] at hs'; cases hs'
    | tagged hs' => rw [hs] at hs'; cases hs'
    | ordered _ hchoice htotal hlayout hcleaned =>
      have hgone := hlayout.cleared hchoice huntouched htagged hreceipts
      exact ⟨_, prototype, hholds.rewritten huntouched.fresh hreachable hitem
        (f := fun e => { e with cleaned := true }) (by rw [hdb]; rfl) rfl
        (.ordered hs hchoice htotal hlayout fun _ => hgone), fun hopen => Bool.noConfusion hopen.2⟩
    | canceled hs' => rw [hs] at hs'; cases hs'
  exact ⟨hcleaned, hcleaned.active⟩

end Calls

section Programs
variable {server : Server} {settings : Settings} {request : OrderRequest} {original : PlayerInventory}
  {escrowId : Id} {e : SellEscrowRow} {prototype : ItemPrototype} {language : Language}

theorem staged_keeps {status : SellEscrowStatus} {x : Program Session Thrown PUnit}
    (h : ∀ e prototype, e.status = status →
      Keeps (Holds server.toPlatform settings request original escrowId e prototype) x) : Triple
    (Staged server.toPlatform settings request original escrowId status) x
    (fun _ => Staged server.toPlatform settings request original escrowId status)
    (fun _ => Active server.toPlatform settings request original escrowId)
    (Active server.toPlatform settings request original escrowId) := by
  refine Triple.of_forall fun s hstaged => ?_
  obtain ⟨e, prototype, hholds, hs⟩ := hstaged
  exact Triple.from_state ((h e prototype hs).conseq (fun _ hs => hs) (fun _ s hs' => ⟨e, prototype, hs', hs⟩)
    (fun _ s hs => hs.active) fun s hs => hs.active) hholds

theorem sellMarkersCleared_rule {P : Session → Prop}
    (hP : ∀ s, P s → Active server.toPlatform settings request original escrowId s) : Triple P
    (sellMarkersCleared escrowId)
    (fun cleared s => P s ∧ (cleared = true → (taggedSellItems s.inventory escrowId).quantity = 0 ∧
      sellReceiptCount s.inventory escrowId = 0))
    (fun _ => Active server.toPlatform settings request original escrowId)
    (Active server.toPlatform settings request original escrowId) := by
  refine Triple.bind (R := fun tagged s => P s ∧ tagged = taggedSellItems s.inventory escrowId)
    (observe_rule hP fun s hs => ⟨hs, rfl⟩) fun tagged => ?_
  refine Triple.bind (R := fun receipts s => (P s ∧ tagged = taggedSellItems s.inventory escrowId) ∧
    receipts = sellReceiptCount s.inventory escrowId) (observe_rule (fun s hs => hP s hs.1) fun s hs => ⟨hs, rfl⟩)
    fun receipts => ?_
  refine Triple.pure fun s hs => ⟨hs.1.1, fun hcleared => ?_⟩
  rw [← hs.1.2, ← hs.2]
  exact of_decide_eq_true hcleared

/-- Taking out what is left of an ordered sale. -/
theorem removed_rule (hfresh : Fresh escrowId original) {α : Type} {x : Program Session Thrown α}
    {Q : α → Session → Prop} (h : Triple (Staged server.toPlatform settings request original escrowId .ordered) x Q
      (fun _ => Active server.toPlatform settings request original escrowId)
      (Active server.toPlatform settings request original escrowId)) : Triple
    (Staged server.toPlatform settings request original escrowId .ordered)
    (do
      removeTaggedSellItems escrowId
      removeSellReceipts escrowId
      x) Q (fun _ => Active server.toPlatform settings request original escrowId)
    (Active server.toPlatform settings request original escrowId) := by
  refine Triple.bind (staged_keeps fun e prototype hs => remove_rule hfresh hs (.inl rfl)) fun _ => ?_
  exact Triple.bind (staged_keeps fun e prototype hs => remove_rule hfresh hs (.inr rfl)) fun _ => h

theorem cleanSellEscrow_rule (huntouched : Untouched escrowId original) {failure : String} : Triple
    (Staged server.toPlatform settings request original escrowId .ordered) (cleanSellEscrow escrowId failure)
    (fun _ => Done server.toPlatform settings request original escrowId)
    (fun _ => Active server.toPlatform settings request original escrowId)
    (Active server.toPlatform settings request original escrowId) := by
  refine removed_rule huntouched.fresh ?_
  refine Triple.bind (sellMarkersCleared_rule fun s hs => hs.active) fun cleared => ?_
  refine Triple.guard (fun _ s hs => hs.1.active) fun hcleared => ?_
  exact (markSellEscrowCleaned_rule huntouched).conseq
    (fun s hs => ⟨hs.1, hs.2 (Bool.eq_true_of_not_eq_false hcleared)⟩) (fun _ _ hs => hs) (fun _ _ hs => hs)
    fun _ hs => hs

theorem orderSellEscrow_rule (hplain : PlainReceipts server.toPlatform) (hfresh : Fresh escrowId original)
    {receiptCount : ℤ} {failure : String} : Triple
    (Staged server.toPlatform settings request original escrowId .tagged)
    (orderSellEscrow server language escrowId receiptCount failure)
    (fun _ => Staged server.toPlatform settings request original escrowId .ordered)
    (fun _ => Active server.toPlatform settings request original escrowId)
    (Active server.toPlatform settings request original escrowId) := by
  refine Triple.bind (staged_keeps fun e prototype hs =>
    replaceTaggedSellItemsWithReceipts_rule hplain hfresh hs) fun _ => ?_
  refine Triple.bind (R := fun _ => Staged server.toPlatform settings request original escrowId .tagged)
    (observe_rule (fun s hs => hs.active) fun s hs => hs) fun receipts => ?_
  refine Triple.guard (fun _ s hs => hs.active) fun _ => ?_
  exact (executeSellEscrow_rule hfresh).conseq (fun s hs => hs.active) (fun _ _ hs => hs) (fun _ _ hs => hs)
    fun _ hs => hs

theorem sellTagged_rule (hplain : PlainReceipts server.toPlatform) (huntouched : Untouched escrowId original)
    (hs : e.status = .prepared) (hopen : e.cleaned = false) {escrow : SellEscrow} (hid : escrow.id = escrowId)
    (hitem : escrow.item = prototype) : Triple
    (fun s => Holds server.toPlatform settings request original escrowId e prototype s ∧ s.inventory = original)
    (sellTagged server language escrow)
    (fun _ => Active server.toPlatform settings request original escrowId)
    (fun _ => Active server.toPlatform settings request original escrowId)
    (Active server.toPlatform settings request original escrowId) := by
  subst hid hitem
  refine Triple.bind (tagSellItems_rule hs hopen) fun tagged => ?_
  refine Triple.bind (R := fun persisted s =>
    Holds server.toPlatform settings request original escrow.id e escrow.item s ∧
      persisted = taggedSellItems s.inventory escrow.id)
    (observe_rule (fun s hs => hs.active) fun s hs => ⟨hs, rfl⟩) fun persisted => ?_
  refine Triple.guard (fun _ s hs => hs.1.active) fun hsame => ?_
  rw [not_or, not_not, not_not] at hsame
  refine Triple.bind ((markSellEscrowTagged_rule huntouched.fresh hs).conseq (fun s hs => ⟨hs.1, ?_⟩)
    (fun _ _ hs => hs) (fun _ _ hs => hs) fun _ hs => hs) fun _ => ?_
  · rw [← hs.2, ← hsame.1, ← hsame.2]
  · refine Triple.bind (orderSellEscrow_rule hplain huntouched.fresh) fun result => ?_
    exact Triple.bind (cleanSellEscrow_rule huntouched) fun _ => Triple.pure fun s hs => hs.active

/-- What `unfinishedSellEscrows` tells of the escrow. -/
structure Reads (escrowId : Id) (e : SellEscrowRow) (prototype : ItemPrototype) (escrow : SellEscrow) : Prop where
  id : escrow.id = escrowId
  item : escrow.item = prototype
  status : escrow.status = e.status

theorem reconcileSellEscrow_rule (hplain : PlainReceipts server.toPlatform) (huntouched : Untouched escrowId original)
    {escrow : SellEscrow} (hreads : Reads escrowId e prototype escrow) : Triple
    (Holds server.toPlatform settings request original escrowId e prototype)
    (reconcileSellEscrow server language escrow)
    (fun _ => Done server.toPlatform settings request original escrowId)
    (fun _ => Active server.toPlatform settings request original escrowId)
    (Active server.toPlatform settings request original escrowId) := by
  obtain ⟨rfl, rfl, hstatus⟩ := hreads
  have hfinish : ∀ receiptCount, Triple (Staged server.toPlatform settings request original escrow.id .tagged)
      (do
        let _ ← orderSellEscrow server language escrow.id receiptCount "sell escrow receipts were not fully restored"
        cleanSellEscrow escrow.id "sell escrow markers were not fully removed")
      (fun _ => Done server.toPlatform settings request original escrow.id)
      (fun _ => Active server.toPlatform settings request original escrow.id)
      (Active server.toPlatform settings request original escrow.id) := fun receiptCount =>
    Triple.bind (orderSellEscrow_rule hplain huntouched.fresh) fun _ => cleanSellEscrow_rule huntouched
  rw [reconcileSellEscrow]
  dsimp only
  split_ifs with hprepared htagged hordered
  · have hs : e.status = .prepared := hstatus.symm.trans hprepared
    refine Triple.bind (R := fun tagged s =>
      Holds server.toPlatform settings request original escrow.id e escrow.item s ∧
        tagged = taggedSellItems s.inventory escrow.id)
      (observe_rule (fun s hs => hs.active) fun s hs => ⟨hs, rfl⟩) fun tagged => ?_
    have hopen : ∀ s, Holds server.toPlatform settings request original escrow.id e escrow.item s →
        e.cleaned = false ∧ ∃ chosen, Choice server.toPlatform escrow.item original chosen ∧
          s.inventory = tagAll escrow.id chosen original := by
      intro s hholds
      cases hholds.fits with
      | prepared _ hopen hchoice htagged => exact ⟨hopen, _, hchoice, htagged⟩
      | tagged hs' => rw [hs] at hs'; cases hs'
      | ordered hs' => rw [hs] at hs'; cases hs'
      | canceled hs' => rw [hs] at hs'; cases hs'
    split_ifs with hfew hsome
    · refine Triple.of_forall fun s hholds => ?_
      refine Triple.from_state (Triple.bind (restoreTaggedSellItems_rule huntouched.fresh hs (hopen s hholds.1).1)
        fun _ => cancelSellEscrow_rule huntouched.fresh hs) hholds.1
    · refine (cancelSellEscrow_rule huntouched.fresh hs).conseq (fun s hholds => ⟨hholds.1, ?_⟩) (fun _ _ hs => hs)
        (fun _ _ hs => hs) fun _ hs => hs
      -- Stacks are never empty, so nothing has been tagged.
      obtain ⟨-, chosen, hchoice, htagged⟩ := hopen s hholds.1
      have hcount := hholds.2
      rw [htagged, hchoice.counted huntouched.fresh] at hcount
      have hpos : ∀ item ∈ chosen.map Prod.snd, 0 < item.amount := by
        intro item hitem
        obtain ⟨c, hc, rfl⟩ := List.mem_map.mp hitem
        exact huntouched.stocked c.2 (InventoryEscrow.mem_items_of_getItem (hchoice.held hc))
      have hzero : total (chosen.map Prod.snd) = 0 := by
        rw [hcount] at hsome
        refine le_antisymm (not_lt.mp hsome) (List.sum_nonneg fun n hn => ?_)
        obtain ⟨item, hitem, rfl⟩ := List.mem_map.mp hn
        exact (hpos item hitem).le
      rw [htagged, List.map_eq_nil_iff.mp (nil_of_total hpos hzero), tagAll_nil]
    · refine Triple.bind ((markSellEscrowTagged_rule huntouched.fresh hs).conseq (fun s hs => ⟨hs.1, ?_⟩)
        (fun _ _ hs => hs) (fun _ _ hs => hs) fun _ hs => hs) fun _ => hfinish _
      rw [← hs.2]
  · exact (hfinish _).conseq (fun s hholds => ⟨e, _, hholds, hstatus.symm.trans htagged⟩) (fun _ _ hs => hs)
      (fun _ _ hs => hs) fun _ hs => hs
  · exact (cleanSellEscrow_rule huntouched).conseq
      (fun s hholds => ⟨e, _, hholds, hstatus.symm.trans hordered⟩) (fun _ _ hs => hs) (fun _ _ hs => hs)
      fun _ hs => hs
  · refine Triple.pure fun s hs => ⟨e, _, hs, fun hopen => ?_⟩
    rw [hstatus] at hprepared htagged hordered
    cases hs' : e.status with
    | prepared => exact hprepared hs'
    | tagged => exact htagged hs'
    | ordered => exact hordered hs'
    | canceled => exact hopen.1 hs'

/-- The sale is the only one that the player has open. -/
theorem Holds.unfinished {s : Session} (h : Holds server.toPlatform settings request original escrowId e prototype s)
    {escrows : List SellEscrow} (hescrows : escrows = (s.db.sellEscrows.entries.filter fun e =>
      e.2.playerUuid = request.playerUuid ∧ SellEscrowRow.Unfinished e.2).filterMap (sellEscrowFromRow s.db)) :
    escrows = [] ∧ ¬ SellEscrowRow.Unfinished e ∨
      ∃ escrow, escrows = [escrow] ∧ Reads escrowId e prototype escrow := by
  subst hescrows
  have hsorted : (s.db.sellEscrows.entries.filter fun e => e.2.playerUuid = request.playerUuid ∧
      SellEscrowRow.Unfinished e.2).Pairwise fun a b => a.1 < b.1 := s.db.sellEscrows.entries_sorted.filter _
  have hall : ∀ a ∈ s.db.sellEscrows.entries.filter fun e => e.2.playerUuid = request.playerUuid ∧
      SellEscrowRow.Unfinished e.2, a = (escrowId, e) := by
    rintro ⟨i, f⟩ ha
    obtain ⟨hmem, hopen⟩ := List.mem_filter.mp ha
    obtain ⟨hplayer, hopen⟩ := of_decide_eq_true hopen
    have hrow := Table.mem_entries.mp hmem
    by_cases hi : i = escrowId
    · subst hi
      cases h.row.symm.trans hrow
      rfl
    · exact absurd hopen (h.others i f hrow hplayer hi)
  have hopen : SellEscrowRow.Unfinished e → (escrowId, e) ∈ s.db.sellEscrows.entries.filter fun e =>
      e.2.playerUuid = request.playerUuid ∧ SellEscrowRow.Unfinished e.2 := fun hopen =>
    List.mem_filter.mpr ⟨Table.mem_entries.mpr h.row, decide_eq_true ⟨h.player, hopen⟩⟩
  generalize s.db.sellEscrows.entries.filter _ = entries at hsorted hall hopen
  cases entries with
  | nil => exact .inl ⟨rfl, fun h => by cases hopen h⟩
  | cons a rest =>
    have ha := hall a List.mem_cons_self
    have hrest : rest = [] := by
      refine List.eq_nil_iff_forall_not_mem.mpr fun b hb => ?_
      have hlt := List.rel_of_pairwise_cons hsorted hb
      rw [ha, hall b (List.mem_cons_of_mem _ hb)] at hlt
      exact lt_irrefl _ hlt
    rw [hrest, ha]
    refine .inr ⟨_, List.filterMap_cons_some (by rw [sellEscrowFromRow, h.item]; rfl), rfl, rfl, rfl⟩

theorem reconcileSellEscrows_rule (hplain : PlainReceipts server.toPlatform)
    (huntouched : Untouched escrowId original) : Triple
    (Active server.toPlatform settings request original escrowId)
    (reconcileSellEscrows server language request.playerUuid)
    (fun _ => Done server.toPlatform settings request original escrowId)
    (fun _ => Active server.toPlatform settings request original escrowId)
    (Active server.toPlatform settings request original escrowId) := by
  refine Triple.of_forall fun s hactive => ?_
  obtain ⟨e, prototype, hholds⟩ := hactive
  refine Triple.from_state (P := Holds server.toPlatform settings request original escrowId e prototype) ?_ hholds
  refine Triple.bind (R := fun escrows s =>
    Holds server.toPlatform settings request original escrowId e prototype s ∧
      (escrows = [] ∧ ¬ SellEscrowRow.Unfinished e ∨
        ∃ escrow, escrows = [escrow] ∧ Reads escrowId e prototype escrow))
    (select_rule (fun s hs => hs.active) fun s hs => ⟨hs, hs.unfinished rfl⟩) fun escrows => ?_
  refine Triple.of_forall fun s hs => ?_
  obtain ⟨hholds, ⟨rfl, hfinished⟩ | ⟨escrow, rfl, hreads⟩⟩ := hs
  · exact (Triple.pure fun s hs => ⟨e, prototype, hs, hfinished⟩).from_state hholds
  · refine Triple.from_state ?_ hholds
    rw [Program.forEach]
    exact Triple.bind (reconcileSellEscrow_rule hplain huntouched hreads) fun _ => Triple.pure fun s hs => hs

end Programs

end EndstoneExchange.SellEscrowRecovery
