import EndstoneExchange.AccountOperations

/-!
# Frame listings

An item in a frame is offered at a fixed price. A paid listing is settled by
dropping the item for its buyer, who then picks it up.
-/
namespace EndstoneExchange.FrameListingOperations
open AutoIncrementTables KeyedTables AtomicTransactions.Transaction DurablePrograms ExchangeDomain
  ExchangeTransactions AccountOperations

structure FrameListing extends FrameListingRow where
  id : Id := 0
  deriving DecidableEq, Repr

structure FramePurchaseResult where
  listing : FrameListing
  buyerBalanceCents : Cents
  sellerBalanceCents : Cents
  deriving DecidableEq, Repr

def frameListingFromRow (id : Id) (row : FrameListingRow) : FrameListing := { row with id }

def updateListing (listingId : Id) (f : FrameListingRow → FrameListingRow) : Tx PUnit :=
  execute (Db.setListing · listingId f)

def unbindListing (listingId : Id) : Tx PUnit :=
  execute fun db => Db.setListingBindings db
    (db.frameListingBindings.filter fun _ id => id ≠ listingId)

/-- JOIN exchange_frame_listings l ON l.id=b.listing_id. -/
def boundListing (targetKey : String) (db : Db) : Option FrameListing := do
  let id ← db.frameListingBindings.find? targetKey
  let row ← db.frameListings.get? id
  return frameListingFromRow id row

def findBoundFrameListing (targetKey : String) : Tx (Option FrameListing) :=
  select (boundListing targetKey)

def listingAt (db : Db) (listingId : Id) : Option FrameListing :=
  (db.frameListings.get? listingId).map (frameListingFromRow listingId)

def findFrameListing (listingId : Id) : Tx (Option FrameListing) := select (listingAt · listingId)

/-- WHERE l.status IN ('PAID','DROPPED') ORDER BY l.id. -/
def unsettled (db : Db) : List FrameListing :=
  (db.frameListings.entries.filter fun e => e.2.status = .paid ∨ e.2.status = .dropped).map
    fun e => frameListingFromRow e.1 e.2

def unsettledFrameListings : Tx (List FrameListing) := select unsettled

def insertListing (listing : FrameListingRow) : Tx FrameListing := do
  let id ← select (·.frameListings.nextId)
  let row := { listing with status := .active, buyerUuid := none, buyerName := none }
  execute (Db.addListing · row)
  execute fun db => Db.setListingBindings db (db.frameListingBindings.insert listing.targetKey id)
  return frameListingFromRow id row

theorem insertListing_ok {db : Db} {listing : FrameListingRow} {r : FrameListing × Db} :
    insertListing listing db = .ok r ↔ (frameListingFromRow db.frameListings.nextId
      { listing with status := .active, buyerUuid := none, buyerName := none },
      Db.setListingBindings
        (Db.addListing db { listing with status := .active, buyerUuid := none, buyerName := none })
        (db.frameListingBindings.insert listing.targetKey db.frameListings.nextId)) = r := by
  simp only [insertListing, bind_ok, select_ok, execute_ok, pure_ok, exists_eq_left']
  rfl

def upsertFrameListingTx (listing : FrameListingRow) (administrator : Bool) : Tx FrameListing := do
  let existing ← select (boundListing listing.targetKey)
  match existing with
  | none => insertListing listing
  | some current =>
    throwIf (current.status ≠ .active) (.runtime "frame listing is already being settled")
    throwIf (administrator = false ∧ current.sellerUuid ≠ listing.sellerUuid)
      (.runtime "frame listing belongs to another seller")
    updateListing current.id fun l => { l with status := .canceled }
    unbindListing current.id
    insertListing listing

def upsertFrameListing (settings : Settings) (listing : FrameListingRow) (administrator : Bool) :
    Program Db Error FrameListing := do
  if listing.targetKey = "" ∨ listing.dimensionName = "" ∨ listing.sellerUuid = "" ∨
      listing.sellerName = "" ∨ listing.priceCents ≤ 0 ∨ listing.item.type = "" then
    throw (Error.runtime "frame listing is incomplete")
  ensureAccount settings listing.sellerUuid listing.sellerName
  transaction (upsertFrameListingTx listing administrator)

def cancelFrameListingTx (listingId : Id) (requesterUuid : String) (administrator : Bool) :
    Tx PUnit := do
  let listing ← selectOne (·.frameListings.get? listingId) (.runtime "frame listing does not exist")
  if listing.status = .canceled then return ⟨⟩
  else
    throwIf (listing.status ≠ .active) (.runtime "paid frame listing cannot be canceled")
    throwIf (administrator = false ∧ listing.sellerUuid ≠ requesterUuid)
      (.runtime "frame listing belongs to another seller")
    updateListing listingId fun l => { l with status := .canceled }
    unbindListing listingId

def cancelFrameListing (listingId : Id) (requesterUuid : String) (administrator : Bool) :
    Program Db Error PUnit :=
  transaction (cancelFrameListingTx listingId requesterUuid administrator)

def purchaseFrameListingTx (listingId : Id) (buyerUuid buyerName : String)
    (expectedPriceCents : Cents) : Tx FramePurchaseResult := do
  let listing ← selectOne (·.frameListings.get? listingId) (.runtime "frame listing does not exist")
  throwIf (listing.status ≠ .active) (.runtime "frame listing is no longer available")
  throwIf (listing.priceCents ≠ expectedPriceCents) (.runtime "frame listing price changed")
  throwIf (listing.sellerUuid = buyerUuid) (.runtime "seller cannot buy their own frame listing")
  let binding ← select fun db => db.frameListingBindings.rows.find? fun b => b.2 = listingId
  throwIf (binding.map Prod.fst ≠ some listing.targetKey)
    (.runtime "frame listing is no longer bound")
  let _ ← selectOne (·.accounts.find? buyerUuid) (.runtime "frame purchase account is missing")
  let _ ← selectOne (·.accounts.find? listing.sellerUuid)
    (.runtime "frame purchase account is missing")
  debit buyerUuid listing.priceCents .framePurchase (some (.frameListing listingId))
  credit listing.sellerUuid listing.priceCents .frameSale (some (.frameListing listingId))
  updateListing listingId fun l =>
    { l with status := .paid, buyerUuid := some buyerUuid, buyerName := some buyerName }
  let buyerBalanceCents ← lockedBalance buyerUuid
  let sellerBalanceCents ← lockedBalance listing.sellerUuid
  return { listing := frameListingFromRow listingId
             { listing with status := .paid, buyerUuid := some buyerUuid, buyerName := some buyerName }
           buyerBalanceCents, sellerBalanceCents }

def purchaseFrameListing (settings : Settings) (listingId : Id) (buyerUuid buyerName : String)
    (expectedPriceCents : Cents) : Program Db Error FramePurchaseResult := do
  if buyerUuid = "" ∨ buyerName = "" ∨ expectedPriceCents ≤ 0 then
    throw (Error.runtime "frame purchase identity is incomplete")
  ensureAccount settings buyerUuid buyerName
  transaction (purchaseFrameListingTx listingId buyerUuid buyerName expectedPriceCents)

def markFrameListingDroppedTx (listingId : Id) : Tx PUnit := do
  let listing ← selectOne (·.frameListings.get? listingId) (.runtime "frame listing does not exist")
  if listing.status = .dropped ∨ listing.status = .claimed then return ⟨⟩
  else
    throwIf (listing.status ≠ .paid) (.runtime "unpaid frame listing cannot be dropped")
    updateListing listingId fun l => { l with status := .dropped }

def markFrameListingDropped (listingId : Id) : Program Db Error PUnit :=
  transaction (markFrameListingDroppedTx listingId)

def completeFrameListingPickupTx (listingId : Id) : Tx PUnit := do
  let listing ← selectOne (·.frameListings.get? listingId) (.runtime "frame listing does not exist")
  if listing.status = .claimed then return ⟨⟩
  else
    throwIf (listing.status ≠ .paid ∧ listing.status ≠ .dropped)
      (.runtime "frame listing is not awaiting pickup")
    updateListing listingId fun l => { l with status := .claimed }
    unbindListing listingId

def completeFrameListingPickup (listingId : Id) : Program Db Error PUnit :=
  transaction (completeFrameListingPickupTx listingId)

end EndstoneExchange.FrameListingOperations
