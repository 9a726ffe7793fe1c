import EndstoneExchange.DeliveryOperations
import EndstoneExchange.InventoryEscrow
import EndstoneExchange.SellEscrowOperations

/-!
# Inventories that follow the database

A player sells out of the inventory and is delivered into it. Stacks are tagged on the way,
so that whatever is interrupted can be taken up again from the tags and from the rows of the
database. Each slot is written by itself.
-/
namespace EndstoneExchange.InventorySessions
open AutoIncrementTables DurablePrograms ExchangeDomain ExchangeTransactions NbtCodec DeliveryOperations
  SellEscrowOperations LocalizedMessages
open InventoryEscrow hiding tagSellItems tagStacks restoreTaggedSellItems replaceTaggedSellItemsWithReceipts

section Stacks

def erase (key : Bytes) (nbt : Entries) : Entries := nbt.filter fun entry => entry.1 ≠ key

/-- The stack without the tag of the claim, if it has it. -/
def clearTag (claimId : Id) (item : ItemStack) : Option ItemStack :=
  if deliveryClaimId item ≠ some claimId then none
  else
    let cleared := { item with nbt := erase deliveryClaimTag item.nbt }
    if deliveryClaimId cleared ≠ none then none else some cleared

def sampleItem (platform : Platform) (prototype : ItemPrototype) : Except Thrown ItemStack :=
  (originalNbt platform prototype).map fun nbt => ⟨prototype.type, prototype.data, 1, nbt⟩

/-- `stackSize` is positive, so that each round takes something off. -/
def stacksOf (sample : ItemStack) (stackSize : ℤ) (remaining : ℤ) : List ItemStack :=
  if _h : 0 < remaining ∧ 0 < stackSize then
    { sample with amount := min remaining stackSize } ::
      stacksOf sample stackSize (remaining - min remaining stackSize)
  else []
  termination_by remaining.toNat
  decreasing_by omega

def splitStacks (platform : Platform) (maxStackSize : ItemStack → ℤ) (prototype : ItemPrototype) (quantity : ℤ)
    (deliveryClaimId : Option Id) : Except Thrown (List ItemStack) := do
  let sample ← sampleItem platform prototype
  let sample := match deliveryClaimId with
    | some claimId => setMarker sample deliveryClaimTag claimId
    | none => sample
  return stacksOf sample (max 1 (maxStackSize sample)) quantity

def itemCount (items : List ItemStack) : ℤ := total items

def taggedItemCount (inventory : PlayerInventory) (claimId : Id) : ℤ :=
  inventory.items.foldl (fun result item =>
    if deliveryClaimId item = some claimId then result + item.amount else result) 0

structure InternalEscrowMarkers where
  deliveryClaimIds : List Id
  sellItemEscrowIds : List Id
  sellReceiptEscrowIds : List Id

/-- The members of a `std::set`. -/
def members (ids : List Id) : List Id := ids.dedup.mergeSort

def internalEscrowMarkers (inventory : PlayerInventory) : InternalEscrowMarkers where
  deliveryClaimIds := members (inventory.items.filterMap deliveryClaimId)
  sellItemEscrowIds := members (inventory.items.filterMap sellItemEscrowId)
  sellReceiptEscrowIds := members (inventory.items.filterMap sellReceiptEscrowId)

end Stacks

section Sessions

/-- What a stop of the server leaves of a player's affairs. -/
structure Session where
  db : Db
  inventory : PlayerInventory

/-- The server: names of items, the largest stack of an item, and `addItem` with the leftovers it returns. -/
structure Server extends Platform where
  localizedItemName : ItemPrototype → Language → String
  maxStackSize : ItemStack → ℤ
  addItem : PlayerInventory → List ItemStack → PlayerInventory × List ItemStack

/-- Both kinds of database errors are `std::runtime_error`. -/
def thrownOf : Error → Thrown
  | .runtime what => .runtimeError what
  | .database what => .runtimeError what

def onDb {α : Type} (x : Program Db Error α) : Program Session Thrown α :=
  Program.mapError thrownOf (Program.zoom (·.db) (fun db s => { s with db }) x)

def observe {α : Type} (f : PlayerInventory → α) : Program Session Thrown α :=
  Program.step fun s => (f s.inventory, s)

def change (f : PlayerInventory → PlayerInventory) : Program Session Thrown PUnit :=
  Program.step fun s => (⟨⟩, { s with inventory := f s.inventory })

/-- `PlayerInventory::clear`, or the offhand set to nothing. -/
def clear (inventory : PlayerInventory) : Slot → PlayerInventory
  | .main index => { inventory with contents := inventory.contents.set index none }
  | .offHand => { inventory with offHand := none }

/-- What a loop makes of one slot. -/
def visit (body : Slot → ItemStack → PlayerInventory → Except Thrown PlayerInventory) (slot : Slot)
    (inventory : PlayerInventory) : Except Thrown PlayerInventory :=
  match inventory.getItem slot with
  | none => .ok inventory
  | some item => body slot item inventory

def visitSlot (body : Slot → ItemStack → PlayerInventory → Except Thrown PlayerInventory) (slot : Slot) :
    Program Session Thrown PUnit :=
  Program.call fun _ s =>
    match visit body slot s.inventory with
    | .error e => (.error e, s)
    | .ok inventory => (.ok ⟨⟩, { s with inventory })

/-- A loop over the slots; the server can stop at each of them. -/
def forEachSlot (body : Slot → ItemStack → PlayerInventory → Except Thrown PlayerInventory) :
    Program Session Thrown PUnit := do
  let slots ← observe (·.slots)
  Program.forEach (visitSlot body) slots

end Sessions

section Loops
variable (platform : Platform)

/-- The slot is emptied first, for the client to take the clean stack for a new one. -/
def clearSlot (claimId : Id) (slot : Slot) (item : ItemStack) (inventory : PlayerInventory) :
    Except Thrown PlayerInventory :=
  match clearTag claimId item with
  | none => .ok inventory
  | some item => .ok ((clear inventory slot).setItem slot item)

def clearDeliveryClaimTag (claimId : Id) : Program Session Thrown PUnit := forEachSlot (clearSlot claimId)

/-- The loops that take out the stacks that carry an identifier. -/
def removeSlot (markerOf : ItemStack → Option Id) (id : Id) (slot : Slot) (item : ItemStack)
    (inventory : PlayerInventory) : Except Thrown PlayerInventory :=
  .ok (if markerOf item = some id then clear inventory slot else inventory)

def removeDeliveryClaimItems (claimId : Id) : Program Session Thrown PUnit :=
  forEachSlot (removeSlot deliveryClaimId claimId)

def removeTaggedSellItems (escrowId : Id) : Program Session Thrown PUnit :=
  forEachSlot (removeSlot sellItemEscrowId escrowId)

def removeSellReceipts (escrowId : Id) : Program Session Thrown PUnit :=
  forEachSlot (removeSlot sellReceiptEscrowId escrowId)

def restoreSlot (escrowId : Id) (nbt : Entries) (slot : Slot) (item : ItemStack) (inventory : PlayerInventory) :
    Except Thrown PlayerInventory :=
  .ok (if sellItemEscrowId item = some escrowId then inventory.setItem slot { item with nbt } else inventory)

def restoreTaggedSellItems (escrowId : Id) (prototype : ItemPrototype) : Program Session Thrown PUnit := do
  let nbt ← Program.ofExcept (originalNbt platform prototype)
  forEachSlot (restoreSlot escrowId nbt)

def replaceSlot (escrowId : Id) (language : Language) (slot : Slot) (item : ItemStack) (inventory : PlayerInventory) :
    Except Thrown PlayerInventory :=
  if sellItemEscrowId item = some escrowId then
    (sellReceipt platform escrowId language).map fun receipt => inventory.setItem slot receipt
  else .ok inventory

def replaceTaggedSellItemsWithReceipts (escrowId : Id) (language : Language) : Program Session Thrown PUnit :=
  forEachSlot (replaceSlot platform escrowId language)

/-- The loop over the sorted candidates. -/
def tagStacks (requested : ℤ) (escrowId : Id) : List (Slot × ItemStack) → TaggedSellItems →
    Program Session Thrown TaggedSellItems
  | [], result => return result
  | (slot, item) :: candidates, result =>
    if result.quantity ≥ requested then return result
    else do
      change (·.setItem slot (setMarker item sellItemTag escrowId))
      tagStacks requested escrowId candidates ⟨result.quantity + item.amount, result.stackCount + 1⟩

def tagSellItems (prototype : ItemPrototype) (requested : ℤ) (escrowId : Id) (language : Language)
    (localizedItemName : String) : Program Session Thrown TaggedSellItems := do
  if requested ≤ 0 then throw (.runtimeError "sell escrow quantity must be positive")
  let found ← observe fun inventory => inventory.placed.foldlM (collect platform prototype) {}
  let collected ← Program.ofExcept found
  if collected.available < requested then
    throw (insufficient platform prototype requested language localizedItemName collected)
  tagStacks requested escrowId (platform.sort collected.candidates) {}

end Loops

section Selling
variable (server : Server) (language : Language) (playerUuid : String)

/-- Whether neither a tag nor a receipt of the escrow is left. -/
def sellMarkersCleared (escrowId : Id) : Program Session Thrown Bool := do
  let tagged ← observe (taggedSellItems · escrowId)
  let receipts ← observe (sellReceiptCount · escrowId)
  return tagged.quantity = 0 ∧ receipts = 0

/-- From ORDERED on. -/
def cleanSellEscrow (escrowId : Id) (failure : String) : Program Session Thrown PUnit := do
  removeTaggedSellItems escrowId
  removeSellReceipts escrowId
  let cleared ← sellMarkersCleared escrowId
  if cleared = false then throw (.runtimeError failure)
  onDb (markSellEscrowCleaned escrowId)

/-- From TAGGED on, where `receiptCount` stacks were tagged. -/
def orderSellEscrow (escrowId : Id) (receiptCount : ℤ) (failure : String) :
    Program Session Thrown ExecutionResult := do
  replaceTaggedSellItemsWithReceipts server.toPlatform escrowId language
  let receipts ← observe (sellReceiptCount · escrowId)
  if receipts ≠ receiptCount then throw (.runtimeError failure)
  onDb (executeSellEscrow escrowId)

def reconcileSellEscrow (escrow : SellEscrow) : Program Session Thrown PUnit := do
  let finish (receiptCount : ℤ) : Program Session Thrown PUnit := do
    let _ ← orderSellEscrow server language escrow.id receiptCount "sell escrow receipts were not fully restored"
    cleanSellEscrow escrow.id "sell escrow markers were not fully removed"
  if escrow.status = .prepared then
    let tagged ← observe (taggedSellItems · escrow.id)
    if tagged.quantity < escrow.requestedQuantity then
      if tagged.quantity > 0 then restoreTaggedSellItems server.toPlatform escrow.id escrow.item
      onDb (cancelSellEscrow escrow.id)
    else
      onDb (markSellEscrowTagged escrow.id tagged.quantity tagged.stackCount)
      finish tagged.stackCount
  else if escrow.status = .tagged then finish escrow.receiptCount
  else if escrow.status = .ordered then cleanSellEscrow escrow.id "sell escrow markers were not fully removed"
  else return ⟨⟩

def reconcileSellEscrows : Program Session Thrown PUnit := do
  let escrows ← onDb (transaction (unfinishedSellEscrows playerUuid))
  Program.forEach (reconcileSellEscrow server language) escrows

def sellTagged (escrow : SellEscrow) : Program Session Thrown ExecutionResult := do
  let tagged ← tagSellItems server.toPlatform escrow.item escrow.requestedQuantity escrow.id language
    (server.localizedItemName escrow.item language)
  let persisted ← observe (taggedSellItems · escrow.id)
  if persisted.quantity ≠ tagged.quantity ∨ persisted.stackCount ≠ tagged.stackCount then
    throw (.runtimeError "sell items were not fully tagged for escrow")
  onDb (markSellEscrowTagged escrow.id tagged.quantity tagged.stackCount)
  let result ← orderSellEscrow server language escrow.id tagged.stackCount
    "sell escrow receipt count does not match tagged stacks"
  cleanSellEscrow escrow.id "sell escrow markers were not fully cleared"
  return result

/-- What interrupts the sale is thrown again, unless the sale can be recovered at once. -/
def submitSellEscrow (settings : Settings) (request : OrderRequest) : Program Session Thrown ExecutionResult := do
  let escrow ← onDb (prepareSellEscrow settings request)
  tryCatch (sellTagged server language escrow) fun originalError =>
    tryCatch (do
      reconcileSellEscrows server language playerUuid
      onDb (executeSellEscrow escrow.id)) fun _ => throw originalError

end Selling

section Reconciling
variable (server : Server) (playerUuid : String)

def reconcileDeliveryMarker (claimId : Id) : Program Session Thrown PUnit := do
  let claim ← onDb (transaction (findDeliveryClaim claimId playerUuid))
  match claim with
  | none => clearDeliveryClaimTag claimId
  | some claim =>
    if claim.status = .applied then do
      clearDeliveryClaimTag claimId
      let remaining ← observe (taggedItemCount · claimId)
      if remaining ≠ 0 ∨ claim.cleaned = true then return ⟨⟩
      else onDb (markDeliveryClaimCleaned claimId)
    else if claim.status = .canceled then removeDeliveryClaimItems claimId
    else return ⟨⟩

def reconcileSellMarker (escrowId : Id) : Program Session Thrown PUnit := do
  let escrow ← onDb (transaction (findSellEscrow escrowId playerUuid))
  match escrow with
  | none => return ⟨⟩
  | some escrow =>
    if escrow.status = .ordered then do
      removeTaggedSellItems escrowId
      removeSellReceipts escrowId
      let cleared ← sellMarkersCleared escrowId
      if cleared = false then
        throw (.runtimeError ("sell escrow marker " ++ toString escrowId ++ " was not cleared"))
      if escrow.cleaned = true then return ⟨⟩ else onDb (markSellEscrowCleaned escrowId)
    else if escrow.status = .canceled then do
      restoreTaggedSellItems server.toPlatform escrowId escrow.item
      removeSellReceipts escrowId
      let cleared ← sellMarkersCleared escrowId
      if cleared = false then
        throw (.runtimeError ("canceled sell escrow marker " ++ toString escrowId ++ " was not cleared"))
    else return ⟨⟩

def reconcileInternalEscrowMarkers : Program Session Thrown PUnit := do
  let markers ← observe internalEscrowMarkers
  Program.forEach (reconcileDeliveryMarker playerUuid) markers.deliveryClaimIds
  Program.forEach (reconcileSellMarker server playerUuid)
    (members (markers.sellItemEscrowIds ++ markers.sellReceiptEscrowIds))

end Reconciling

section Delivering
variable (server : Server) (language : Language) (playerUuid : String)

/-- The claim is finished once none of its tags is left. -/
def finishClaim (claimId : Id) : Program Session Thrown PUnit := do
  let remaining ← observe (taggedItemCount · claimId)
  if remaining ≠ 0 then return ⟨⟩ else onDb (markDeliveryClaimCleaned claimId)

def cleanClaim (claimId : Id) (tagged : ℤ) : Program Session Thrown PUnit := do
  if tagged > 0 then clearDeliveryClaimTag claimId
  finishClaim claimId

/-- What the claim adds to the delivered total. -/
def settleClaim (claim : DeliveryClaim) : Program Session Thrown ℤ := do
  let tagged ← observe (taggedItemCount · claim.id)
  if claim.status = .prepared then
    let delivered := min tagged claim.quantity
    onDb (completeDeliveryClaim claim.id delivered)
    if delivered = 0 then return 0
    cleanClaim claim.id tagged
    return delivered
  else
    cleanClaim claim.id tagged
    return 0

def settleClaims : List DeliveryClaim → ℤ → Program Session Thrown ℤ
  | [], deliveredTotal => return deliveredTotal
  | claim :: claims, deliveredTotal => do
    let delivered ← settleClaim claim
    settleClaims claims (deliveredTotal + delivered)

/-- What is delivered, and whether something was left over. -/
def deliver (delivery : Delivery) (pending : ℤ) : Program Session Thrown (ℤ × Bool) := do
  let claim ← onDb (prepareDeliveryClaim delivery.id playerUuid pending)
  let items ← Program.ofExcept
    (splitStacks server.toPlatform server.maxStackSize delivery.item claim.quantity (some claim.id))
  let leftovers ← Program.step fun s =>
    ((server.addItem s.inventory items).2, { s with inventory := (server.addItem s.inventory items).1 })
  let delivered := itemCount items - itemCount leftovers
  onDb (completeDeliveryClaim claim.id delivered)
  if delivered > 0 then
    clearDeliveryClaimTag claim.id
    finishClaim claim.id
  return (max delivered 0, !leftovers.isEmpty)

def deliverAll : List Delivery → ℤ → Program Session Thrown ℤ
  | [], deliveredTotal => return deliveredTotal
  | delivery :: deliveries, deliveredTotal => do
    let pending := delivery.quantity - delivery.claimedQuantity - delivery.reservedQuantity
    if pending ≤ 0 then deliverAll deliveries deliveredTotal
    else
      let (delivered, full) ← deliver server playerUuid delivery pending
      if full = true then return deliveredTotal + delivered
      else deliverAll deliveries (deliveredTotal + delivered)

def claimDeliveries : Program Session Thrown ℤ := do
  reconcileInternalEscrowMarkers server playerUuid
  reconcileSellEscrows server language playerUuid
  let claims ← onDb (transaction (unfinishedDeliveryClaims playerUuid))
  let deliveredTotal ← settleClaims claims 0
  let deliveries ← onDb (transaction (pendingDeliveries playerUuid))
  deliverAll server playerUuid deliveries deliveredTotal

/-- What `claimDeliveries` begins with. -/
def recover : Program Session Thrown PUnit := do
  reconcileInternalEscrowMarkers server playerUuid
  reconcileSellEscrows server language playerUuid

theorem claimDeliveries_recovers : claimDeliveries server language playerUuid = (do
    recover server language playerUuid
    let claims ← onDb (transaction (unfinishedDeliveryClaims playerUuid))
    let deliveredTotal ← settleClaims claims 0
    let deliveries ← onDb (transaction (pendingDeliveries playerUuid))
    deliverAll server playerUuid deliveries deliveredTotal) :=
  (Program.bind_assoc _ _ _).symm

end Delivering

end EndstoneExchange.InventorySessions
