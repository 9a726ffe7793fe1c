import EndstoneExchange.FrameGuard

/-!
# Frame flows

What players do at frames: exchanger toggles, price sticks, management and price
forms, purchases. Most flows wait for a structure capture of the frame, one at a
time for each target, and go on in its callback. The market index and the listing
index are separate, as are their binding tables.
-/
namespace EndstoneExchange.FrameFlows
open AutoIncrementTables KeyedTables AtomicTransactions.Transaction DurablePrograms ExchangeDomain
  ExchangeTransactions AccountOperations MarketOperations FrameListingOperations ClearingSteps
  ClearingRefinement ServiceRuns FrameListingLedger FrameGuard Relation

structure Player where
  uuid : String
  name : String
  isOp : Bool

structure Block where
  dimensionName : String
  x : ℤ
  y : ℤ
  z : ℤ

def blockTargetKey (block : Block) : String :=
  "block|" ++ (block.dimensionName ++ "|" ++ toString block.x ++ "|" ++ toString block.y ++ "|" ++
    toString block.z)

def actorTargetKey (dimensionName : String) (actorId : ℤ) : String :=
  "actor|" ++ (dimensionName ++ "|" ++ toString actorId)

structure FrameAddress extends Block where
  targetKey : String

def frameAddress (block : Block) : FrameAddress := { block with targetKey := blockTargetKey block }

def listingAddress (listing : FrameListing) : FrameAddress :=
  { dimensionName := listing.dimensionName, x := listing.blockX, y := listing.blockY, z := listing.blockZ,
    targetKey := listing.targetKey }

def sameItem (left right : ItemPrototype) : Bool :=
  decide (left.type = right.type ∧ left.data = right.data ∧ left.nbt = right.nbt)

/-- What a handler meets: the fates of its database calls, a loaded world, the clock and the answer
of dispatchCommand. -/
structure Site where
  faults : List Fault := []
  level : Bool := true
  serial : ℤ := 0
  dispatched : Bool := true

/-- The exceptions a callback receives: a message for the player, or any other. -/
inductive Failure
  | frameSaleBusy
  | worldNotLoaded
  | frameReadFailed
  | frameMissing
  | exception (what : String)

def frameStructureName (address : FrameAddress) (serial : ℤ) : String :=
  "exchange:frame_" ++ (toString address.x ++ "_" ++ toString address.y ++ "_" ++ toString address.z ++ "_" ++
    toString serial)

/-- A free target is captured under the structure's name; otherwise the callback fails at once. The mark
of a refused command is taken back before that. -/
def queueItemFrameCapture {σ : Type} (site : Site) (address : FrameAddress) (busy : Bool)
    (fail : Failure → σ) (schedule : String → σ) : σ :=
  if busy = true then fail .frameSaleBusy
  else if site.level = false then fail .worldNotLoaded
  else if site.dispatched = false then fail .frameReadFailed
  else schedule (frameStructureName address site.serial)

/-- What a structure capture was queued for. -/
inductive Callback
  | toggle
  | openPrice (existing : Option FrameListing)
  | savePrice (item : ItemPrototype) (existing : Option FrameListing) (sellerUuid sellerName : String)
      (priceCents : Cents)
  | review (listing : FrameListing)
  | purchase (listing : FrameListing)

structure Capture where
  address : FrameAddress
  playerUuid : String
  callback : Callback

structure PriceForm where
  playerUuid : String
  address : FrameAddress
  item : ItemPrototype
  existing : Option FrameListing

/-- `markets_`, `target_index_`, `pending_frame_captures_` and the forms that were sent. -/
structure Plugin where
  guard : Guard
  markets : Id → Option Market := fun _ => none
  targetIndex : String → Option Id := fun _ => none
  captures : String → Option Capture := fun _ => none
  priceForms : List PriceForm := []
  reviews : List (String × FrameListing) := []

section Markets

def Plugin.onGuard (p : Plugin) (f : Guard → Guard) : Plugin := { p with guard := f p.guard }

/-- The faults that the next calls meet. -/
def Plugin.meets (faults : List Fault) (p : Plugin) : Plugin := p.onGuard fun g => { g with faults }

/-- An exception is reported to the player and ends the handler. -/
def Plugin.call {α : Type} (p : Plugin) (x : Program Db Error α) (done : α → Plugin → Plugin) : Plugin :=
  match p.guard.attempt x with
  | (some a, guard) => done a { p with guard }
  | (none, guard) => { p with guard }

def indexMarket (market : Market) (p : Plugin) : Plugin :=
  { p with
    markets := Function.update p.markets market.id (some market)
    targetIndex := Function.update p.targetIndex market.targetKey (some market.id) }

def unindexMarket (marketId : Id) (p : Plugin) : Plugin :=
  match p.markets marketId with
  | none => p
  | some market =>
    { p with
      markets := Function.update p.markets marketId none
      targetIndex := Function.update p.targetIndex market.targetKey none }

/-- JOIN exchange_markets m ON m.id=b.market_id WHERE m.active=1 ORDER BY m.id. -/
def activeMarkets (db : Db) : List Market :=
  (db.markets.entries.filter fun e => e.2.active ∧ db.targetBindings.rows.any (·.2 = e.1)).map
    fun e => marketFromRow e.1 e.2

def restoreMarkets (p : Plugin) : Plugin :=
  (activeMarkets p.guard.db).foldl (fun p market => indexMarket market p)
    { p with markets := fun _ => none, targetIndex := fun _ => none }

def enabled (db : Db) : Plugin := restoreMarkets { guard := restoreFrameListingIndex db }

def deactivate (marketId : Id) (preserveOrders : Bool) (p : Plugin) : Plugin :=
  match p.markets marketId with
  | none => p
  | some _ =>
    p.call (if preserveOrders then closeMarket marketId else retireMarket marketId) fun _ =>
      unindexMarket marketId

def activate (settings : Settings) (market : Market) (p : Plugin) : Plugin :=
  p.call (activateMarket settings market) indexMarket

def blockMarket (address : FrameAddress) (item : ItemPrototype) (createdBy : String) : Market :=
  { targetKey := address.targetKey, targetKind := .block, dimensionName := address.dimensionName,
    blockX := address.x, blockY := address.y, blockZ := address.z, item, createdBy }

def actorMarket (dimensionName : String) (actorId : ℤ) (item : ItemPrototype) (createdBy : String) : Market :=
  { targetKey := actorTargetKey dimensionName actorId, targetKind := .actor, dimensionName,
    actorId := some actorId, item, createdBy }

/-- `tagged` is the market whose tag the actor carries. -/
def toggleActor (settings : Settings) (player : Player) (tagged : Option Id) (dimensionName : String)
    (actorId : ℤ) (prototype : Option ItemPrototype) (p : Plugin) : Plugin :=
  if player.isOp = false then p
  else
    match tagged, prototype with
    | some marketId, _ => deactivate marketId true p
    | none, none => p
    | none, some item => activate settings (actorMarket dimensionName actorId item player.uuid) p

def onBlockBreak (block : Block) (p : Plugin) : Plugin :=
  match p.targetIndex (blockTargetKey block) with
  | none => p
  | some marketId => deactivate marketId false p

end Markets

section Captures

/-- The players' callbacks only report a failure. A capture of the recovery passes at the target shows
as a refused command. -/
def Plugin.queue (site : Site) (address : FrameAddress) (playerUuid : String) (callback : Callback)
    (p : Plugin) : Plugin :=
  queueItemFrameCapture site address (p.captures address.targetKey).isSome (fun _ => p) fun _ =>
    { p with captures := Function.update p.captures address.targetKey (some ⟨address, playerUuid, callback⟩) }

/-- `prototype` is the item of the block itself; `onFrame` says whether that is a frame. -/
def toggleBlock (settings : Settings) (site : Site) (player : Player) (block : Block) (onFrame : Bool)
    (prototype : Option ItemPrototype) (p : Plugin) : Plugin :=
  if player.isOp = false then p
  else
    match p.targetIndex (blockTargetKey block) with
    | some marketId => deactivate marketId true p
    | none =>
      if onFrame then p.queue site (frameAddress block) player.uuid .toggle
      else
        match prototype with
        | none => p
        | some item => activate settings (blockMarket (frameAddress block) item player.uuid) p

/-- An active listing opens its management form one tick later. -/
def handlePriceStick (site : Site) (player : Player) (block : Block) (adopted : Bool) (p : Plugin) : Plugin :=
  if (p.targetIndex (blockTargetKey block)).isSome then p
  else
    match FrameGuard.handlePriceStick (blockTargetKey block) adopted p.guard with
    | (true, guard) => Plugin.queue site (frameAddress block) player.uuid (.openPrice none) { p with guard }
    | (false, guard) => { p with guard }

inductive Held | exchanger | priceStick | other
  deriving DecidableEq

def onRightClick (settings : Settings) (site : Site) (player : Player) (block : Block) (held : Held)
    (onFrame : Bool) (prototype : Option ItemPrototype) (adopted : Bool) (p : Plugin) : Plugin :=
  if held = .priceStick ∧ onFrame = true then handlePriceStick site player block adopted p
  else if (p.guard.index (blockTargetKey block)).isSome then
    p.onGuard (rightClick (blockTargetKey block) adopted)
  else if held = .exchanger then toggleBlock settings site player block onFrame prototype p
  else p

def onLeftClick (site : Site) (player : Player) (block : Block) (adopted : Bool) (p : Plugin) : Plugin :=
  match leftClick (blockTargetKey block) adopted p.guard with
  | (none, guard) => { p with guard }
  | (some listing, guard) =>
    if listing.sellerUuid = player.uuid then { p with guard }
    else Plugin.queue site (listingAddress listing) player.uuid (.review listing) { p with guard }

def changePrice (site : Site) (player : Player) (listing : FrameListing) (p : Plugin) : Plugin :=
  p.queue site (listingAddress listing) player.uuid (.openPrice (some listing))

/-- The seller of the listing that is changed, or else the player. -/
def submitPriceForm (site : Site) (player : Player) (form : PriceForm) (priceCents : Cents) (p : Plugin) :
    Plugin :=
  if player.uuid ≠ form.playerUuid then p
  else
    p.queue site form.address player.uuid
      (.savePrice form.item form.existing ((form.existing.map (·.sellerUuid)).getD player.uuid)
        ((form.existing.map (·.sellerName)).getD player.name) priceCents)

def confirmPurchase (site : Site) (player : Player) (listing : FrameListing) (p : Plugin) : Plugin :=
  p.queue site (listingAddress listing) player.uuid (.purchase listing)

def draftListing (address : FrameAddress) (item : ItemPrototype) (sellerUuid sellerName : String)
    (priceCents : Cents) : FrameListingRow :=
  { targetKey := address.targetKey, dimensionName := address.dimensionName, blockX := address.x,
    blockY := address.y, blockZ := address.z, sellerUuid, sellerName, priceCents, item }

/-- The callbacks check the captured item; `blockItem` is that of an empty frame. -/
def callBack (settings : Settings) (c : Capture) (player : Player) (item blockItem : Option ItemPrototype)
    (adopted : Bool) (p : Plugin) : Plugin :=
  match c.callback with
  | .toggle =>
    if (p.targetIndex c.address.targetKey).isSome then p
    else
      match item.or blockItem with
      | none => p
      | some prototype => activate settings (blockMarket c.address prototype c.playerUuid) p
  | .openPrice existing =>
    match item with
    | none => p
    | some item =>
      if existing.any (fun listing => !sameItem listing.item item) then p
      else { p with priceForms := ⟨c.playerUuid, c.address, item, existing⟩ :: p.priceForms }
  | .savePrice shown _ sellerUuid sellerName priceCents =>
    if ¬ item.any (sameItem shown) then p
    else if (p.targetIndex c.address.targetKey).isSome then p
    else p.onGuard (submitPrice settings (draftListing c.address shown sellerUuid sellerName priceCents)
      player.isOp)
  | .review listing =>
    p.call (transaction (findBoundFrameListing listing.targetKey)) fun found p =>
      match found with
      | none => p
      | some current =>
        if current.id = listing.id ∧ current.status = .active ∧ current.priceCents = listing.priceCents ∧
            item.any (sameItem listing.item) then
          { p with reviews := (c.playerUuid, current) :: p.reviews }
        else p
  | .purchase listing =>
    if item.any (sameItem listing.item) then
      p.onGuard (submitPurchase settings listing c.playerUuid player.name adopted)
    else p

/-- The player may have left, and the capture itself may have failed. -/
def completeItemFrameCapture (settings : Settings) (targetKey : String) (player : Option Player)
    (captured : Option (Option ItemPrototype)) (blockItem : Option ItemPrototype) (adopted : Bool)
    (p : Plugin) : Plugin :=
  match p.captures targetKey with
  | none => p
  | some c =>
    let freed := { p with captures := Function.update p.captures targetKey none }
    match player, captured with
    | some player, some item =>
      if player.uuid = c.playerUuid then callBack settings c player item blockItem adopted freed else freed
    | _, _ => freed

end Captures

/-- The events at frames, with what else can change markets or call the service between them. -/
inductive FrameEvent
  | leftClick (player : Player) (block : Block) (adopted : Bool)
  | rightClick (player : Player) (block : Block) (held : Held) (onFrame : Bool)
      (prototype : Option ItemPrototype) (adopted : Bool)
  | openManagement (player : Player) (listing : FrameListing)
  | changePrice (player : Player) (listing : FrameListing)
  | cancel (player : Player) (listing : FrameListing)
  | submitPrice (player : Player) (form : PriceForm) (priceCents : Cents)
  | confirmPurchase (player : Player) (listing : FrameListing)
  | captured (targetKey : String) (player : Option Player) (item : Option (Option ItemPrototype))
      (blockItem : Option ItemPrototype) (adopted : Bool)
  | pickUp (listingId : Id)
  | spawned (listingId : Id)
  | recover (adopted : Id → Bool)
  | toggleActor (player : Player) (tagged : Option Id) (dimensionName : String) (actorId : ℤ)
      (prototype : Option ItemPrototype)
  | actorRemoved (marketId : Id)
  | blockBreak (block : Block)
  | service (c : Call)
  | restarted

def FrameEvent.run (settings : Settings) (site : Site) : FrameEvent → Plugin → Plugin
  | leftClick player block adopted => onLeftClick site player block adopted
  | rightClick player block held onFrame prototype adopted =>
    onRightClick settings site player block held onFrame prototype adopted
  | openManagement player listing => fun p =>
    p.onGuard (openFrameManagementForm player.uuid player.isOp listing)
  | changePrice player listing => FrameFlows.changePrice site player listing
  | cancel player listing => fun p => p.onGuard (pressCancel listing player.uuid player.isOp)
  | submitPrice player form priceCents => submitPriceForm site player form priceCents
  | confirmPurchase player listing => FrameFlows.confirmPurchase site player listing
  | captured targetKey player item blockItem adopted =>
    completeItemFrameCapture settings targetKey player item blockItem adopted
  | pickUp listingId => fun p => p.onGuard (FrameGuard.pickUp listingId)
  | spawned listingId => fun p => p.onGuard fun g => g.call (markFrameListingDropped listingId) fun _ g => g
  | recover adopted => fun p => p.onGuard (recoverFrameListings adopted)
  | toggleActor player tagged dimensionName actorId prototype =>
    FrameFlows.toggleActor settings player tagged dimensionName actorId prototype
  | actorRemoved marketId => deactivate marketId false
  | blockBreak block => onBlockBreak block
  | service c => fun p => p.onGuard fun g => { g with db := c.leaves settings g.faults g.db }
  | restarted => fun p => enabled p.guard.db

/-- The faults end with the event that meets them. A process that stops is restarted next. -/
def FrameEvent.happens (settings : Settings) (e : FrameEvent) (site : Site) (p : Plugin) : Plugin :=
  (e.run settings site (p.meets site.faults)).meets []

/-- Buttons belong to forms that were sent; markets and listings change through the other events only. -/
def FrameEvent.Possible (p : Plugin) : FrameEvent → Prop
  | changePrice _ listing => listing ∈ p.guard.forms
  | cancel _ listing => listing ∈ p.guard.forms
  | submitPrice _ form _ => form ∈ p.priceForms
  | confirmPurchase player listing => (player.uuid, listing) ∈ p.reviews
  | service c => ¬ c.Allows .changeFrames ∧ ¬ c.Allows .changeMarkets
  | _ => True

/-- Runs of the plugin enabled on `db`, each event satisfying `ok` where it happens. -/
inductive FlowRun (settings : Settings) (ok : Plugin → FrameEvent → Prop) (db : Db) : Plugin → Prop
  | enabled (h : Reachable settings db) : FlowRun settings ok db (enabled db)
  | happened {p : Plugin} (h : FlowRun settings ok db p) (e : FrameEvent) (site : Site) (hp : e.Possible p)
      (he : ok (p.meets site.faults) e) : FlowRun settings ok db (e.happens settings site p)

section Tending
variable {settings : Settings} {g g' : Guard} {db db' : Db}

/-- Calls that neither list an item nor change a market. -/
def Tending (c : Call) : Prop := (∀ l a, c ≠ .upsertFrameListing l a) ∧ ¬ c.Allows .changeMarkets

/-- What tending calls make of a database. -/
def Tends (settings : Settings) : Db → Db → Prop :=
  ReflTransGen fun db db' => ∃ (c : Call) (faults : List Fault), Tending c ∧ db' = c.leaves settings faults db

/-- A handler that only tends to listings and sends no form. -/
structure Tended (settings : Settings) (g g' : Guard) : Prop where
  db : Tends settings g.db g'.db
  forms : g'.forms = g.forms

theorem Tended.refl (g : Guard) : Tended settings g g := ⟨.refl, rfl⟩

theorem Tended.trans {g₁ g₂ g₃ : Guard} (h : Tended settings g₁ g₂) (h' : Tended settings g₂ g₃) :
    Tended settings g₁ g₃ :=
  ⟨ReflTransGen.trans h.db h'.db, h'.forms.trans h.forms⟩

/-- A tending call, whatever its faults. -/
theorem attempt_tended {α : Type} {x : Program Db Error α} (c : Call) (hc : Tending c)
    (hx : (x g.faults g.db).2.2 = c.leaves settings g.faults g.db) : Tended settings g (g.attempt x).2 := by
  obtain ⟨fs, hr⟩ := g.attempt_guard x
  rw [hr]
  exact ⟨.single ⟨c, g.faults, hc, hx⟩, rfl⟩

/-- A call, and what its handler does with the result. -/
theorem Tended.call {α : Type} {x : Program Db Error α} {done : α → Guard → Guard}
    (h : Tended settings g (g.attempt x).2) (hdone : ∀ a g, Tended settings g (done a g)) :
    Tended settings g (g.call x done) := by
  rw [Guard.call]
  rcases hr : g.attempt x with ⟨- | a, g₁⟩
  · rw [hr] at h
    exact h
  · rw [hr] at h
    exact h.trans (hdone a g₁)

theorem select_tended {α : Type} (f : Db → α) (g : Guard) :
    Tended settings g (g.attempt (transaction (select f))).2 := by
  obtain ⟨fs, hr | hr⟩ := Guard.attempt_select_cases f g
  · rw [hr]
    exact ⟨.refl, rfl⟩
  · rw [hr]
    exact ⟨.refl, rfl⟩

theorem marked_tended (listingId : Id) (g : Guard) :
    Tended settings g (g.call (markFrameListingDropped listingId) fun _ g => g) :=
  (attempt_tended (.markFrameListingDropped listingId) ⟨by simp, id⟩ rfl).call fun _ g => .refl g

theorem openFrameManagementForm_db (playerUuid : String) (isOp : Bool) (listing : FrameListing) (g : Guard) :
    (openFrameManagementForm playerUuid isOp listing g).db = g.db := by
  rw [openFrameManagementForm, Guard.call, findBoundFrameListing]
  obtain ⟨fs, hr | hr⟩ := Guard.attempt_select_cases (boundListing listing.targetKey) g
  · rw [hr]
    cases boundListing listing.targetKey g.db with
    | none => rfl
    | some current =>
      dsimp only
      split_ifs <;> rfl
  · rw [hr]

theorem settleFrameListing_tended (adopted : Bool) (listing : FrameListing) (g : Guard) :
    Tended settings g (settleFrameListing adopted listing g) := by
  rw [settleFrameListing]
  split_ifs
  · exact ⟨.refl, rfl⟩
  · exact .refl g
  · exact marked_tended listing.id g
  · exact .refl g

theorem protected_tended (targetKey : String) (adopted : Bool) (listing : FrameListing) (g : Guard) :
    Tended settings g (settleFrameListing adopted listing (g.protect targetKey listing.id)) := by
  have hprotect : Tended settings g (g.protect targetKey listing.id) := ⟨.refl, rfl⟩
  exact hprotect.trans (settleFrameListing_tended adopted listing _)

theorem leftClick_tended (targetKey : String) (adopted : Bool) (g : Guard) :
    Tended settings g (FrameGuard.leftClick targetKey adopted g).2 := by
  rw [FrameGuard.leftClick]
  cases g.index targetKey with
  | none => exact .refl g
  | some id =>
    have hfound := (@select_tended settings) (listingAt · id) g
    dsimp only [findFrameListing]
    rcases hr : g.attempt (transaction (select (listingAt · id))) with ⟨- | - | listing, g₁⟩
    · rw [hr] at hfound
      exact hfound
    · rw [hr] at hfound
      exact hfound.trans ⟨.refl, rfl⟩
    · rw [hr] at hfound
      dsimp only
      split_ifs
      · exact hfound.trans ⟨.refl, rfl⟩
      · exact hfound.trans (settleFrameListing_tended adopted listing g₁)
      · exact hfound

theorem rightClick_tended (targetKey : String) (adopted : Bool) (g : Guard) :
    Tended settings g (FrameGuard.rightClick targetKey adopted g) := by
  rw [FrameGuard.rightClick]
  cases g.index targetKey with
  | none => exact .refl g
  | some id =>
    refine (select_tended (listingAt · id) g).call fun found g => ?_
    cases found with
    | none => exact .refl g
    | some listing =>
      dsimp only
      split_ifs
      · exact .refl g
      · exact settleFrameListing_tended adopted listing g

theorem handlePriceStick_tended (targetKey : String) (adopted : Bool) (g : Guard) :
    Tended settings g (FrameGuard.handlePriceStick targetKey adopted g).2 := by
  rw [FrameGuard.handlePriceStick]
  have hfound := (@select_tended settings) (boundListing targetKey) g
  rw [findBoundFrameListing]
  rcases hr : g.attempt (transaction (select (boundListing targetKey))) with ⟨- | - | listing, g₁⟩
  · rw [hr] at hfound
    exact hfound
  · rw [hr] at hfound
    exact hfound.trans ⟨.refl, rfl⟩
  · rw [hr] at hfound
    dsimp only
    split_ifs
    · exact hfound.trans (protected_tended targetKey adopted listing g₁)
    · exact hfound.trans ⟨.refl, rfl⟩

theorem pressCancel_tended (listing : FrameListing) (playerUuid : String) (isOp : Bool) (g : Guard) :
    Tended settings g (pressCancel listing playerUuid isOp g) :=
  (attempt_tended (.cancelFrameListing listing.id playerUuid isOp) ⟨by simp, id⟩ rfl).call
    fun _ _ => ⟨.refl, rfl⟩

theorem pickUp_tended (listingId : Id) (g : Guard) :
    Tended settings g (FrameGuard.pickUp listingId g) := by
  refine (attempt_tended (.markFrameListingDropped listingId) ⟨by simp, id⟩ rfl).call fun _ g => ?_
  refine (attempt_tended (.completeFrameListingPickup listingId) ⟨by simp, id⟩ rfl).call fun _ g => ?_
  refine (select_tended (listingAt · listingId) g).call fun found g => ?_
  cases found with
  | none => exact .refl _
  | some listing => exact ⟨.refl, rfl⟩

theorem submitPurchase_tended (listing : FrameListing) (buyerUuid buyerName : String) (adopted : Bool)
    (g : Guard) : Tended settings g (submitPurchase settings listing buyerUuid buyerName adopted g) := by
  refine (select_tended (boundListing listing.targetKey) g).call fun found g => ?_
  cases found with
  | none => exact .refl g
  | some current =>
    dsimp only
    split_ifs
    · exact .refl g
    · refine (attempt_tended (.purchaseFrameListing current.id buyerUuid buyerName listing.priceCents)
        ⟨by simp, id⟩ (discard_leaves _ _ _).symm).call fun result g => ?_
      exact protected_tended result.listing.targetKey adopted result.listing g

theorem recoverFrameListings_tended (adopted : Id → Bool) (g : Guard) :
    Tended settings g (recoverFrameListings adopted g) := by
  refine (select_tended unsettled g).call fun listings g => ?_
  induction listings generalizing g with
  | nil => exact .refl g
  | cons listing listings ih =>
    exact (protected_tended listing.targetKey (adopted listing.id) listing g).trans (ih _)

end Tending

section Bindings
variable {settings : Settings} {db db' : Db} {p : Plugin}

theorem Tends.later (h : Tends settings db db') : Later settings db db' :=
  ReflTransGen.mono (fun _ _ ⟨c, faults, _, hc⟩ => ⟨c, faults, hc⟩) _ _ h

private theorem open_of_moves {s s' : FrameListingStatus} (h : Moves s s') (ho : Open s') : Open s := by
  cases h with
  | pay => exact .inl rfl
  | drop => exact .inr (.inl rfl)
  | claim => simp [Open] at ho
  | claimPaid => simp [Open] at ho
  | cancel => simp [Open] at ho

/-- A target is bound anew only to a new listing. -/
theorem settles_binds (hI : FramesSound db) (h : Settles db db') {targetKey : String} {id : Id}
    (hf : db'.frameListingBindings.find? targetKey = some id) :
    db.frameListingBindings.find? targetKey = some id ∨ db.frameListings.get? id = none := by
  obtain ⟨row', hrow', ho, rfl⟩ := (h.1.bound _ _).mp hf
  cases hrow : db.frameListings.get? id with
  | none => exact .inr rfl
  | some row =>
    obtain ⟨row₁, hrow₁, hadv⟩ := h.2.old id row hrow
    obtain rfl : row₁ = row' := Option.some.inj (hrow₁.symm.trans hrow')
    refine .inl ((hI.bound _ _).mpr ⟨row, hrow, ?_, hadv.target.symm⟩)
    rcases hadv.status with hs | hm
    · exact hs ▸ ho
    · exact open_of_moves hm ho

/-- What a call leaves of the plugin, and what its handler then does with the result. -/
theorem Plugin.call_cases {α : Type} {x : Program Db Error α} (done : α → Plugin → Plugin)
    (h : (x p.guard.faults p.guard.db).2.2 = db') :
    ∃ q, (∃ faults, q = p.onGuard fun g => { g with db := db', faults }) ∧
      (p.call x done = q ∨ ∃ a, p.call x done = done a q) := by
  subst h
  obtain ⟨fs, hguard⟩ := p.guard.attempt_guard x
  refine ⟨_, ⟨fs, rfl⟩, ?_⟩
  rw [Plugin.call]
  rcases hr : p.guard.attempt x with ⟨- | a, guard⟩
  · rw [hr] at hguard
    obtain rfl : guard = _ := hguard
    exact .inl rfl
  · rw [hr] at hguard
    obtain rfl : guard = _ := hguard
    exact .inr ⟨a, rfl⟩

theorem Plugin.call_returned {α : Type} {x : Program Db Error α} {done : α → Plugin → Plugin} {a : α}
    (hf : p.guard.faults = []) (h : x [] p.guard.db = (.returned a, [], db')) :
    p.call x done = done a (p.onGuard fun g => { g with db := db' }) := by
  rw [Plugin.call, Guard.attempt_returned hf h]
  rfl

theorem Plugin.call_threw {α : Type} {x : Program Db Error α} {done : α → Plugin → Plugin} {e : Error}
    (hf : p.guard.faults = []) (h : x [] p.guard.db = (.threw e, [], db')) :
    p.call x done = p.onGuard fun g => { g with db := db' } := by
  rw [Plugin.call, Guard.attempt_threw hf h]
  rfl

theorem Plugin.queue_cases (site : Site) (address : FrameAddress) (playerUuid : String) (callback : Callback)
    (p : Plugin) :
    p.queue site address playerUuid callback = p ∨ p.queue site address playerUuid callback =
      { p with captures := Function.update p.captures address.targetKey (some ⟨address, playerUuid, callback⟩) } := by
  rw [Plugin.queue, queueItemFrameCapture]
  split_ifs
  · exact .inl rfl
  · exact .inl rfl
  · exact .inl rfl
  · exact .inr rfl

theorem submitPrice_leaves (draft : FrameListingRow) (isOp : Bool) (g : Guard) :
    (submitPrice settings draft isOp g).db =
      (Call.upsertFrameListing draft isOp).leaves settings g.faults g.db ∧
    (submitPrice settings draft isOp g).forms = g.forms := by
  have hleaves := discard_leaves (upsertFrameListing settings draft isOp) g.faults g.db
  obtain ⟨fs, hg⟩ := g.attempt_guard (upsertFrameListing settings draft isOp)
  rw [submitPrice, Guard.call]
  rcases hr : g.attempt (upsertFrameListing settings draft isOp) with ⟨- | saved, left⟩
  · rw [hr] at hg
    obtain rfl : left = _ := hg
    exact ⟨hleaves.symm, rfl⟩
  · rw [hr] at hg
    obtain rfl : left = _ := hg
    exact ⟨hleaves.symm, rfl⟩

theorem enabled_same (db : Db) :
    (enabled db).guard = restoreFrameListingIndex db ∧ (enabled db).captures = fun _ => none := by
  have hindexed : ∀ (markets : List Market) (q : Plugin),
      (markets.foldl (fun p market => indexMarket market p) q).guard = q.guard ∧
        (markets.foldl (fun p market => indexMarket market p) q).captures = q.captures := by
    intro markets
    induction markets with
    | nil => exact fun q => ⟨rfl, rfl⟩
    | cons market markets ih => exact fun q => ih (indexMarket market q)
  exact hindexed (activeMarkets db) { guard := restoreFrameListingIndex db }

end Bindings

section Changes
variable {settings : Settings} {queued : FrameAddress → Callback → Prop} {opened : Market → Prop} {p : Plugin}

/-- What a handler comes to: it tends to listings and may queue a capture, or it changes a market. -/
inductive Change (settings : Settings) (queued : FrameAddress → Callback → Prop) (opened : Market → Prop)
    (p : Plugin) : Plugin → Prop
  | tends {guard : Guard} (h : Tended settings p.guard guard) : Change settings queued opened p { p with guard }
  | queues {guard : Guard} (h : Tended settings p.guard guard) (site : Site) {address : FrameAddress}
      (playerUuid : String) {callback : Callback} (hq : queued address callback) :
      Change settings queued opened p (Plugin.queue site address playerUuid callback { p with guard })
  | activates {market : Market} (ho : opened market) :
      Change settings queued opened p (activate settings market p)
  | deactivates (id : Id) (preserveOrders : Bool) :
      Change settings queued opened p (deactivate id preserveOrders p)

theorem Change.nothing : Change settings queued opened p p := .tends (.refl p.guard)

/-- The captures an event may queue. -/
def FrameEvent.Queues (p : Plugin) : FrameEvent → FrameAddress → Callback → Prop
  | leftClick _ _ _, _, callback => ∃ listing, callback = .review listing
  | rightClick player block held _ _ _, address, callback => address = frameAddress block ∧
      (callback = .openPrice none ∨ callback = .toggle ∧ held = .exchanger ∧ player.isOp = true ∧
        p.guard.index (blockTargetKey block) = none)
  | changePrice _ listing, address, callback =>
    address = listingAddress listing ∧ callback = .openPrice (some listing)
  | submitPrice _ form _, address, callback => address = form.address ∧ ∃ sellerUuid sellerName priceCents,
      callback = .savePrice form.item form.existing sellerUuid sellerName priceCents ∧
      ∀ l, form.existing = some l → sellerUuid = l.sellerUuid
  | confirmPurchase _ listing, _, callback => callback = .purchase listing
  | _, _, _ => False

/-- The markets an event may open. -/
def FrameEvent.Opens (p : Plugin) : FrameEvent → Market → Prop
  | rightClick player block held _ _ _, market => market.targetKey = blockTargetKey block ∧
      held = .exchanger ∧ player.isOp = true ∧ p.guard.index (blockTargetKey block) = none ∧
      p.targetIndex (blockTargetKey block) = none
  | toggleActor _ _ dimensionName actorId _, market => market.targetKey = actorTargetKey dimensionName actorId
  | _, _ => False

/-- The events whose handlers only make such a change. -/
def FrameEvent.Direct : FrameEvent → Prop
  | openManagement _ _ | captured _ _ _ _ _ | service _ | restarted => False
  | _ => True

private theorem toggleBlock_change (site : Site) (player : Player) (block : Block) (onFrame : Bool)
    (prototype : Option ItemPrototype) (hq : player.isOp = true → queued (frameAddress block) .toggle)
    (ho : ∀ item, player.isOp = true → p.targetIndex (blockTargetKey block) = none →
      opened (blockMarket (frameAddress block) item player.uuid)) :
    Change settings queued opened p (toggleBlock settings site player block onFrame prototype p) := by
  unfold toggleBlock
  cases hi : p.targetIndex (blockTargetKey block) with
  | some marketId =>
    dsimp only
    split_ifs
    · exact .nothing
    · exact .deactivates marketId true
  | none =>
    cases prototype with
    | none =>
      split_ifs with hop
      · exact .nothing
      · exact .queues (.refl p.guard) site player.uuid (hq (by simpa using hop))
      · exact .nothing
    | some item =>
      split_ifs with hop
      · exact .nothing
      · exact .queues (.refl p.guard) site player.uuid (hq (by simpa using hop))
      · exact .activates (ho item (by simpa using hop) hi)

private theorem handlePriceStick_change (site : Site) (player : Player) (block : Block) (adopted : Bool)
    (hq : queued (frameAddress block) (.openPrice none)) :
    Change settings queued opened p (handlePriceStick site player block adopted p) := by
  have hseen := (@handlePriceStick_tended settings) (blockTargetKey block) adopted p.guard
  rw [handlePriceStick]
  split_ifs
  · exact .nothing
  · rcases hr : FrameGuard.handlePriceStick (blockTargetKey block) adopted p.guard with ⟨- | -, guard⟩
    · rw [hr] at hseen
      exact .tends hseen
    · rw [hr] at hseen
      exact .queues hseen site player.uuid hq

private theorem onRightClick_change (site : Site) (player : Player) (block : Block) (held : Held)
    (onFrame : Bool) (prototype : Option ItemPrototype) (adopted : Bool) (p : Plugin) :
    Change settings (FrameEvent.Queues p (.rightClick player block held onFrame prototype adopted))
      (FrameEvent.Opens p (.rightClick player block held onFrame prototype adopted)) p
      (onRightClick settings site player block held onFrame prototype adopted p) := by
  rw [onRightClick]
  split_ifs with hstick hlisted hexchanger
  · exact handlePriceStick_change site player block adopted ⟨rfl, .inl rfl⟩
  · exact .tends (rightClick_tended (blockTargetKey block) adopted p.guard)
  · have hindex : p.guard.index (blockTargetKey block) = none := by simpa using hlisted
    exact toggleBlock_change site player block onFrame prototype
      (fun hop => ⟨rfl, .inr ⟨rfl, hexchanger, hop, hindex⟩⟩) fun _ hop hi => ⟨rfl, hexchanger, hop, hindex, hi⟩
  · exact .nothing

private theorem onLeftClick_change (site : Site) (player : Player) (block : Block) (adopted : Bool)
    (hq : ∀ listing, queued (listingAddress listing) (.review listing)) :
    Change settings queued opened p (onLeftClick site player block adopted p) := by
  have hclicked := (@leftClick_tended settings) (blockTargetKey block) adopted p.guard
  rw [onLeftClick]
  rcases hr : leftClick (blockTargetKey block) adopted p.guard with ⟨- | listing, guard⟩
  · rw [hr] at hclicked
    exact .tends hclicked
  · rw [hr] at hclicked
    dsimp only
    split_ifs
    · exact .tends hclicked
    · exact .queues hclicked site player.uuid (hq listing)

/-- Whatever happens, a direct event makes one change. -/
theorem FrameEvent.change (e : FrameEvent) (site : Site) (p : Plugin) (hd : e.Direct) :
    Change settings (e.Queues p) (e.Opens p) p (e.run settings site p) := by
  cases e with
  | leftClick player block adopted =>
    exact onLeftClick_change site player block adopted fun listing => ⟨listing, rfl⟩
  | rightClick player block held onFrame prototype adopted =>
    exact onRightClick_change site player block held onFrame prototype adopted p
  | changePrice player listing => exact .queues (.refl p.guard) site player.uuid ⟨rfl, rfl⟩
  | cancel player listing => exact .tends (pressCancel_tended listing player.uuid player.isOp p.guard)
  | submitPrice player form priceCents =>
    change Change settings _ _ p (submitPriceForm site player form priceCents p)
    rw [submitPriceForm]
    split_ifs
    · exact .nothing
    · refine .queues (.refl p.guard) site player.uuid ⟨rfl, _, _, _, rfl, fun l hl => ?_⟩
      rw [hl]
      rfl
  | confirmPurchase player listing => exact .queues (.refl p.guard) site player.uuid rfl
  | pickUp listingId => exact .tends (pickUp_tended listingId p.guard)
  | spawned listingId => exact .tends (marked_tended listingId p.guard)
  | recover adopted => exact .tends (recoverFrameListings_tended adopted p.guard)
  | toggleActor player tagged dimensionName actorId prototype =>
    change Change settings _ _ p (FrameFlows.toggleActor settings player tagged dimensionName actorId prototype p)
    unfold FrameFlows.toggleActor
    split_ifs
    · exact .nothing
    · rcases tagged with - | marketId
      · cases prototype with
        | none => exact .nothing
        | some item => exact .activates rfl
      · exact .deactivates marketId true
  | actorRemoved marketId => exact .deactivates marketId false
  | blockBreak block =>
    change Change settings _ _ p (onBlockBreak block p)
    rw [onBlockBreak]
    cases p.targetIndex (blockTargetKey block) with
    | none => exact .nothing
    | some marketId => exact .deactivates marketId false
  | _ => exact hd.elim

/-- What a callback comes to: such a change, a form for the player, or a saved listing. -/
inductive Answer (settings : Settings) (c : Capture) (isOp : Bool) (p : Plugin) : Plugin → Prop
  | changes {q : Plugin} (h : Change settings (fun _ _ => False) (fun market =>
      market.targetKey = c.address.targetKey ∧ c.callback = .toggle ∧
        p.targetIndex c.address.targetKey = none) p q) : Answer settings c isOp p q
  | opensPrice (item : ItemPrototype) {existing : Option FrameListing} (hc : c.callback = .openPrice existing) :
      Answer settings c isOp p
        { p with priceForms := ⟨c.playerUuid, c.address, item, existing⟩ :: p.priceForms }
  | reviews {guard : Guard} (h : Tended settings p.guard guard) (listing : FrameListing) :
      Answer settings c isOp p { p with guard, reviews := (c.playerUuid, listing) :: p.reviews }
  | saves {item : ItemPrototype} {existing : Option FrameListing} {sellerUuid sellerName : String}
      {priceCents : Cents} (hc : c.callback = .savePrice item existing sellerUuid sellerName priceCents)
      (hi : p.targetIndex c.address.targetKey = none) : Answer settings c isOp p
        (p.onGuard (submitPrice settings (draftListing c.address item sellerUuid sellerName priceCents) isOp))

theorem callBack_answer (c : Capture) (player : Player) (item blockItem : Option ItemPrototype)
    (adopted : Bool) (p : Plugin) :
    Answer settings c player.isOp p (callBack settings c player item blockItem adopted p) := by
  rw [callBack]
  cases hc : c.callback with
  | toggle =>
    dsimp only
    split_ifs with hindex
    · exact .changes .nothing
    · cases item.or blockItem with
      | none => exact .changes .nothing
      | some prototype => exact .changes (.activates ⟨rfl, hc, by simpa using hindex⟩)
  | openPrice existing =>
    cases item with
    | none => exact .changes .nothing
    | some item =>
      dsimp only
      split_ifs
      · exact .changes .nothing
      · exact .opensPrice item hc
  | savePrice shown existing sellerUuid sellerName priceCents =>
    dsimp only
    split_ifs with hsame hindex
    · exact .changes .nothing
    · exact .saves hc (by simpa using hindex)
    · exact .changes .nothing
  | review listing =>
    have hread := (@select_tended settings) (boundListing listing.targetKey) p.guard
    dsimp only [Plugin.call, findBoundFrameListing]
    rcases hr : p.guard.attempt (transaction (select (boundListing listing.targetKey))) with
      ⟨- | - | current, guard⟩
    · rw [hr] at hread
      exact .changes (.tends hread)
    · rw [hr] at hread
      exact .changes (.tends hread)
    · rw [hr] at hread
      dsimp only
      split_ifs
      · exact .reviews hread current
      · exact .changes (.tends hread)
  | purchase listing =>
    dsimp only
    split_ifs
    · exact .changes (.tends (submitPurchase_tended listing c.playerUuid player.name adopted p.guard))
    · exact .changes .nothing

/-- A capture that is read no longer waits, and its player may get an answer. -/
theorem completeItemFrameCapture_cases (targetKey : String) (player : Option Player)
    (item : Option (Option ItemPrototype)) (blockItem : Option ItemPrototype) (adopted : Bool) (p : Plugin) :
    completeItemFrameCapture settings targetKey player item blockItem adopted p = p ∨
    ∃ c, p.captures targetKey = some c ∧
      (completeItemFrameCapture settings targetKey player item blockItem adopted p =
          { p with captures := Function.update p.captures targetKey none } ∨
        ∃ isOp, Answer settings c isOp { p with captures := Function.update p.captures targetKey none }
          (completeItemFrameCapture settings targetKey player item blockItem adopted p)) := by
  rw [completeItemFrameCapture]
  cases hc : p.captures targetKey with
  | none => exact .inl rfl
  | some c =>
    refine .inr ⟨c, rfl, ?_⟩
    cases player with
    | none => exact .inl rfl
    | some player =>
      cases item with
      | none => exact .inl rfl
      | some item =>
        dsimp only
        split_ifs
        · exact .inr ⟨player.isOp, callBack_answer c player item blockItem adopted _⟩
        · exact .inl rfl

end Changes

section Samples
variable {settings : Settings} {ok : Plugin → FrameEvent → Prop} {db : Db}

/-- The events can happen one after the other. -/
def Happen (settings : Settings) (ok : Plugin → FrameEvent → Prop) : List (FrameEvent × Site) → Plugin → Prop
  | [], _ => True
  | (e, site) :: events, p =>
    e.Possible p ∧ ok (p.meets site.faults) e ∧ Happen settings ok events (e.happens settings site p)

/-- The plugin after some events, enabled on the migrated database. -/
def afterEvents (settings : Settings) (events : List (FrameEvent × Site)) : Plugin :=
  events.foldl (fun p e => e.1.happens settings e.2 p) (enabled {})

theorem Happen.run {events : List (FrameEvent × Site)} {p : Plugin} (h : Happen settings ok events p)
    (hp : FlowRun settings ok db p) :
    FlowRun settings ok db (events.foldl (fun p e => e.1.happens settings e.2 p) p) := by
  induction events generalizing p with
  | nil => exact hp
  | cons e events ih => exact ih h.2.2 (hp.happened e.1 e.2 h.1 h.2.1)

theorem afterEvents_run {events : List (FrameEvent × Site)} (h : Happen settings ok events (enabled {})) :
    FlowRun settings ok {} (afterEvents settings events) :=
  h.run (.enabled ⟨[], .start⟩)

def sampleFrame : Block := ⟨"Overworld", 0, 64, 0⟩

def diamond : ItemPrototype := { type := "minecraft:diamond", name := "Diamond" }

def alice : Player := ⟨"alice", "alice", false⟩

def bob : Player := ⟨"bob", "bob", false⟩

def operator : Player := ⟨"operator", "operator", true⟩

/-- A capture of the sample frame ends while the diamond is in it. -/
def readDiamond (player : Player) : FrameEvent × Site :=
  (.captured (blockTargetKey sampleFrame) (some player) (some (some diamond)) none false, {})

/-- A player offers the diamond with the price stick. -/
def listDiamond (player : Player) (priceCents : Cents) : List (FrameEvent × Site) :=
  [(.rightClick player sampleFrame .priceStick true none false, {}), readDiamond player,
    (.submitPrice player ⟨player.uuid, frameAddress sampleFrame, diamond, none⟩ priceCents, {}),
    readDiamond player]

/-- The first listing, as its forms show it. -/
def shownListing : FrameListing :=
  { draftListing (frameAddress sampleFrame) diamond "alice" "alice" 500 with id := 1 }

/-- A player opens the management form of the first listing. -/
def manageListing (player : Player) : List (FrameEvent × Site) :=
  [(.rightClick player sampleFrame .priceStick true none false, {}), (.openManagement player shownListing, {})]

/-- The cancel button of such a form. -/
def cancelListing (player : Player) : FrameEvent × Site := (.cancel player shownListing, {})

end Samples
end EndstoneExchange.FrameFlows
