import EndstoneExchange.FrameListingLedger

/-!
# The frame guard

The plugin mirrors the frame bindings in memory to protect listed frames. Its
handlers act on listings captured when a form was opened or an item was dropped,
and release the guard by target key. The mirror is exact as long as no handler
finishes a settled listing again while its target is bound to a newer one.
-/
namespace EndstoneExchange.FrameGuard
open AutoIncrementTables KeyedTables AtomicTransactions.Transaction DurablePrograms ExchangeDomain
  ExchangeTransactions AccountOperations FrameListingOperations ClearingSteps ClearingRefinement
  ServiceRuns FrameListingLedger

/-- The database, `frame_listing_index_` and the listings that management forms hold; `faults` is what
the calls to come will meet. -/
structure Guard where
  db : Db
  index : String → Option Id
  forms : List FrameListing := []
  faults : List Fault := []

section Handlers

def Guard.erase (g : Guard) (targetKey : String) : Guard :=
  { g with index := Function.update g.index targetKey none }

def Guard.protect (g : Guard) (targetKey : String) (listingId : Id) : Guard :=
  { g with index := Function.update g.index targetKey (some listingId) }

/-- A service call, and its result unless it raises. -/
def Guard.attempt {α : Type} (g : Guard) (x : Program Db Error α) : Option α × Guard :=
  match x g.faults g.db with
  | (.returned a, faults, db) => (some a, { g with db, faults })
  | (_, faults, db) => (none, { g with db, faults })

/-- An exception is reported to the player and ends the handler. -/
def Guard.call {α : Type} (g : Guard) (x : Program Db Error α) (done : α → Guard → Guard) : Guard :=
  match g.attempt x with
  | (some a, g) => done a g
  | (none, g) => g

def restoreFrameListingIndex (db : Db) : Guard :=
  { db, index := fun targetKey => (boundListing targetKey db).map (·.id) }

/-- The drop is found or spawned at once where `adopted`; otherwise a later callback spawns it. -/
def settleFrameListing (adopted : Bool) (listing : FrameListing) (g : Guard) : Guard :=
  if listing.status = .claimed ∨ listing.status = .canceled then g.erase listing.targetKey
  else if listing.status ≠ .paid ∧ listing.status ≠ .dropped then g
  else if adopted then g.call (markFrameListingDropped listing.id) fun _ g => g
  else g

/-- A left click on a frame. An active listing is returned for a purchase review. -/
def leftClick (targetKey : String) (adopted : Bool) (g : Guard) : Option FrameListing × Guard :=
  match g.index targetKey with
  | none => (none, g)
  | some id =>
    match g.attempt (transaction (findFrameListing id)) with
    | (none, g) => (none, g)
    | (some none, g) => (none, g.erase targetKey)
    | (some (some listing), g) =>
      if listing.status = .claimed ∨ listing.status = .canceled then (none, g.erase targetKey)
      else if listing.status ≠ .active then (none, settleFrameListing adopted listing g)
      else (some listing, g)

def rightClick (targetKey : String) (adopted : Bool) (g : Guard) : Guard :=
  match g.index targetKey with
  | none => g
  | some id => g.call (transaction (findFrameListing id)) fun found g =>
    match found with
    | none => g
    | some listing => if listing.status = .active then g else settleFrameListing adopted listing g

/-- Whether no listing is bound, so that a price is asked for. -/
def handlePriceStick (targetKey : String) (adopted : Bool) (g : Guard) : Bool × Guard :=
  match g.attempt (transaction (findBoundFrameListing targetKey)) with
  | (none, g) => (false, g)
  | (some none, g) => (true, g.erase targetKey)
  | (some (some listing), g) =>
    let g := g.protect targetKey listing.id
    (false, if listing.status ≠ .active then settleFrameListing adopted listing g else g)

/-- The form keeps the listing that is bound when it opens. -/
def openFrameManagementForm (playerUuid : String) (isOp : Bool) (listing : FrameListing) (g : Guard) :
    Guard :=
  g.call (transaction (findBoundFrameListing listing.targetKey)) fun found g =>
    match found with
    | none => g
    | some current =>
      if current.id ≠ listing.id ∨ current.status ≠ .active then g
      else if current.sellerUuid ≠ playerUuid ∧ isOp = false then g
      else { g with forms := current :: g.forms }

/-- The cancel button of a management form. -/
def pressCancel (listing : FrameListing) (playerUuid : String) (isOp : Bool) (g : Guard) : Guard :=
  g.call (cancelFrameListing listing.id playerUuid isOp) fun _ g => g.erase listing.targetKey

/-- A price was submitted and the framed item is still the same. -/
def submitPrice (settings : Settings) (draft : FrameListingRow) (isOp : Bool) (g : Guard) : Guard :=
  g.call (upsertFrameListing settings draft isOp) fun saved g => g.protect saved.targetKey saved.id

/-- A confirmed purchase; the currency transfers around it are service calls of their own. -/
def submitPurchase (settings : Settings) (listing : FrameListing) (buyerUuid buyerName : String)
    (adopted : Bool) (g : Guard) : Guard :=
  g.call (transaction (findBoundFrameListing listing.targetKey)) fun found g =>
    match found with
    | none => g
    | some current =>
      if current.id ≠ listing.id ∨ current.status ≠ .active ∨ current.priceCents ≠ listing.priceCents then g
      else g.call (purchaseFrameListing settings current.id buyerUuid buyerName listing.priceCents)
        fun result g => settleFrameListing adopted result.listing
          (g.protect result.listing.targetKey result.listing.id)

/-- A marked drop is picked up, or a marked stack is found in an inventory. -/
def pickUp (listingId : Id) (g : Guard) : Guard :=
  g.call (markFrameListingDropped listingId) fun _ g =>
    g.call (completeFrameListingPickup listingId) fun _ g =>
      g.call (transaction (findFrameListing listingId)) fun found g =>
        match found with
        | none => g
        | some listing => g.erase listing.targetKey

def recoverFrameListings (adopted : Id → Bool) (g : Guard) : Guard :=
  g.call (transaction unsettledFrameListings) fun listings g =>
    listings.foldl (fun g listing => settleFrameListing (adopted listing.id) listing
      (g.protect listing.targetKey listing.id)) g

inductive Handler
  | leftClick (targetKey : String) (adopted : Bool)
  | rightClick (targetKey : String) (adopted : Bool)
  | priceStick (targetKey : String) (adopted : Bool)
  | openManagement (playerUuid : String) (isOp : Bool) (listing : FrameListing)
  | cancel (listing : FrameListing) (playerUuid : String) (isOp : Bool)
  | price (draft : FrameListingRow) (isOp : Bool)
  | purchase (listing : FrameListing) (buyerUuid buyerName : String) (adopted : Bool)
  | pickUp (listingId : Id)
  | spawned (listingId : Id)
  | recover (adopted : Id → Bool)
  | service (c : Call) (faults : List Fault)

def Handler.run (settings : Settings) : Handler → Guard → Guard
  | leftClick targetKey adopted => fun g => (FrameGuard.leftClick targetKey adopted g).2
  | rightClick targetKey adopted => FrameGuard.rightClick targetKey adopted
  | priceStick targetKey adopted => fun g => (handlePriceStick targetKey adopted g).2
  | openManagement playerUuid isOp listing => openFrameManagementForm playerUuid isOp listing
  | cancel listing playerUuid isOp => pressCancel listing playerUuid isOp
  | price draft isOp => submitPrice settings draft isOp
  | purchase listing buyerUuid buyerName adopted =>
    submitPurchase settings listing buyerUuid buyerName adopted
  | pickUp listingId => FrameGuard.pickUp listingId
  | spawned listingId => fun g => g.call (markFrameListingDropped listingId) fun _ g => g
  | recover adopted => recoverFrameListings adopted
  | service c faults => fun g => { g with db := c.leaves settings faults g.db }

/-- What the plugin can handle: a cancel button belongs to a form, and only the handlers
above call the service's frame operations. -/
def Handler.Possible (g : Guard) : Handler → Prop
  | cancel listing _ _ => listing ∈ g.forms
  | service c _ => ¬ c.Allows .changeFrames
  | _ => True

/-- A listing that is canceled or claimed already is not finished again while its target is
bound to a newer one. -/
def Handler.Timely (g : Guard) : Handler → Prop
  | cancel listing _ _ => ∀ row, g.db.frameListings.get? listing.id = some row →
      row.status = .canceled → g.db.frameListingBindings.find? listing.targetKey = none
  | pickUp listingId => ∀ row, g.db.frameListings.get? listingId = some row →
      row.status = .claimed → g.db.frameListingBindings.find? row.targetKey = none
  | _ => True

end Handlers

/-- The index is the bindings. -/
def Agrees (g : Guard) : Prop := ∀ targetKey, g.index targetKey = g.db.frameListingBindings.find? targetKey

/-- Runs of the plugin from a restored index, each handler satisfying `ok` where it starts. -/
inductive GuardRun (settings : Settings) (ok : Guard → Handler → Prop) : Guard → Prop
  | restored {db : Db} (h : Reachable settings db) : GuardRun settings ok (restoreFrameListingIndex db)
  | handled {g : Guard} (h : GuardRun settings ok g) (a : Handler) (hp : a.Possible g) (ha : ok g a) :
      GuardRun settings ok (a.run settings g)

section Bindings
variable {db db' : Db} {listingId : Id} {row : FrameListingRow}

/-- A finished listing leaves its target unbound and every other target as it was. -/
structure Released (db db' : Db) (targetKey : String) : Prop where
  own : db'.frameListingBindings.find? targetKey = none
  others : ∀ other, other ≠ targetKey →
    db'.frameListingBindings.find? other = db.frameListingBindings.find? other

theorem find?_open (hI : FramesSound db) (hl : db.frameListings.get? listingId = some row)
    (ho : Open row.status) : db.frameListingBindings.find? row.targetKey = some listingId :=
  (hI.bound _ _).mpr ⟨row, hl, ho, rfl⟩

theorem released_unbind (hI : FramesSound db) (hl : db.frameListings.get? listingId = some row)
    (ho : Open row.status)
    (hb : db'.frameListingBindings = db.frameListingBindings.filter fun _ i => i ≠ listingId) :
    Released db db' row.targetKey := by
  have hbound := find?_open hI hl ho
  constructor
  · rw [hb, KeyedTable.find?_filter, hbound]
    simp
  · intro other hother
    rw [hb, KeyedTable.find?_filter]
    cases hf : db.frameListingBindings.find? other with
    | none => rfl
    | some i =>
      have hne : i ≠ listingId := by
        rintro rfl
        obtain ⟨l, hl', -, rfl⟩ := (hI.bound other i).mp hf
        obtain rfl : l = row := Option.some.inj (hl'.symm.trans hl)
        exact hother rfl
      simp [hne]

theorem released_same (hn : db.frameListingBindings.find? row.targetKey = none)
    (hb : db'.frameListingBindings = db.frameListingBindings) : Released db db' row.targetKey := by
  constructor
  · rw [hb, hn]
  · intro other _
    rw [hb]

theorem insertListing_binds {listing : FrameListingRow} {saved : FrameListing}
    (hf : db.frameListingBindings.find? listing.targetKey = none)
    (h : insertListing listing db = .ok (saved, db')) : saved.targetKey = listing.targetKey ∧
      ∀ t, db'.frameListingBindings.find? t =
        if t = listing.targetKey then some saved.id else db.frameListingBindings.find? t := by
  obtain ⟨rfl, rfl⟩ := Prod.mk.inj (insertListing_ok.mp h)
  exact ⟨rfl, KeyedTable.find?_insert _ hf⟩

/-- A saved price binds the listing's target to the new generation. -/
theorem upsertFrameListingTx_binds {listing : FrameListingRow} {administrator : Bool}
    {saved : FrameListing} (hI : FramesSound db)
    (h : upsertFrameListingTx listing administrator db = .ok (saved, db')) :
    ∀ t, db'.frameListingBindings.find? t =
      if t = saved.targetKey then some saved.id else db.frameListingBindings.find? t := by
  simp only [upsertFrameListingTx, bind_ok, select_ok, exists_eq_left'] at h
  cases hb : boundListing listing.targetKey db with
  | none =>
    simp only [hb] at h
    obtain ⟨ht, hbinds⟩ := insertListing_binds (boundListing_none hI hb) h
    rw [ht]
    exact hbinds
  | some current =>
    simp only [hb, updateListing, unbindListing, bind_ok, throwIf_ok, execute_ok, exists_eq_left',
      exists_and_left, and_assoc, not_not] at h
    obtain ⟨hs, -, hi⟩ := h
    obtain ⟨hf, hrow⟩ := boundListing_some hb
    obtain ⟨l, hl, -, htarget⟩ := (hI.bound _ _).mp hf
    obtain rfl : l = current.toFrameListingRow := Option.some.inj (hl.symm.trans hrow)
    have hreleased := @released_unbind _ (Db.setListingBindings
      (Db.setListing db current.id fun l => { l with status := .canceled })
      (db.frameListingBindings.filter fun _ i => i ≠ current.id)) _ _ hI hrow (.inl hs) rfl
    rw [htarget] at hreleased
    obtain ⟨ht, hbinds⟩ := insertListing_binds hreleased.own hi
    intro t
    rw [hbinds, ht]
    split_ifs with hne
    · rfl
    · exact hreleased.others t hne

private theorem cancelFrameListingTx_releases {requesterUuid : String} {administrator : Bool} {u : PUnit}
    (hI : FramesSound db) (hl : db.frameListings.get? listingId = some row)
    (h : cancelFrameListingTx listingId requesterUuid administrator db = .ok (u, db')) :
    row.status = .canceled ∧ db' = db ∨ Released db db' row.targetKey := by
  simp only [cancelFrameListingTx, updateListing, unbindListing, bind_ok, selectOne_ok, ite_ok,
    throwIf_ok, execute_ok, pure_ok, exists_eq_left', exists_and_left, exists_exists_and_eq_and,
    and_assoc, not_not] at h
  obtain ⟨l, hl', hcase⟩ := h
  obtain rfl : l = row := Option.some.inj (hl'.symm.trans hl)
  obtain ⟨hs, hr⟩ | ⟨-, hs, -, hr⟩ := hcase
  · exact .inl ⟨hs, (Prod.mk.inj hr).2.symm⟩
  · obtain ⟨-, rfl⟩ := Prod.mk.inj hr
    exact .inr (released_unbind hI hl (.inl hs) rfl)

private theorem completeFrameListingPickupTx_releases {u : PUnit} (hI : FramesSound db)
    (hl : db.frameListings.get? listingId = some row)
    (h : completeFrameListingPickupTx listingId db = .ok (u, db')) :
    row.status = .claimed ∧ db' = db ∨ Released db db' row.targetKey := by
  simp only [completeFrameListingPickupTx, updateListing, unbindListing, bind_ok, selectOne_ok, ite_ok,
    throwIf_ok, execute_ok, pure_ok, exists_eq_left', exists_and_left, exists_exists_and_eq_and,
    and_assoc, not_and_or, not_not] at h
  obtain ⟨l, hl', hcase⟩ := h
  obtain rfl : l = row := Option.some.inj (hl'.symm.trans hl)
  obtain ⟨hs, hr⟩ | ⟨-, hs, hr⟩ := hcase
  · exact .inl ⟨hs, (Prod.mk.inj hr).2.symm⟩
  · obtain ⟨-, rfl⟩ := Prod.mk.inj hr
    exact .inr (released_unbind hI hl (.inr hs) rfl)

/-- Marking a drop keeps the bindings; only a claimed listing is claimed afterwards. -/
theorem markFrameListingDroppedTx_marks {u : PUnit}
    (h : markFrameListingDroppedTx listingId db = .ok (u, db')) :
    db'.frameListingBindings = db.frameListingBindings ∧ ∃ row row',
      db.frameListings.get? listingId = some row ∧ db'.frameListings.get? listingId = some row' ∧
        row'.targetKey = row.targetKey ∧ (row'.status = .claimed → row.status = .claimed) := by
  simp only [markFrameListingDroppedTx, updateListing, bind_ok, selectOne_ok, ite_ok, throwIf_ok,
    execute_ok, pure_ok, exists_eq_left', exists_and_left, exists_exists_and_eq_and, and_assoc,
    not_not] at h
  obtain ⟨l, hl, ⟨-, hr⟩ | ⟨-, -, hr⟩⟩ := h
  · obtain ⟨-, rfl⟩ := Prod.mk.inj hr
    exact ⟨rfl, l, l, hl, hl, rfl, id⟩
  · obtain ⟨-, rfl⟩ := Prod.mk.inj hr
    refine ⟨rfl, l, { l with status := .dropped }, hl, ?_, rfl, fun h => absurd h (by simp)⟩
    rw [Db.setListing_frameListings, Table.get?_update_self, hl]
    rfl

theorem purchaseFrameListingTx_binds {buyerUuid buyerName : String} {price : Cents}
    {r : FramePurchaseResult} (hI : FramesSound db)
    (h : purchaseFrameListingTx listingId buyerUuid buyerName price db = .ok (r, db')) :
    db'.frameListingBindings = db.frameListingBindings ∧ r.listing.status = .paid ∧
      db.frameListingBindings.find? r.listing.targetKey = some r.listing.id := by
  simp only [purchaseFrameListingTx, updateListing, bind_ok, selectOne_ok, select_ok, throwIf_ok,
    execute_ok, debit_ok, credit_ok, lockedBalance_ok, pure_ok, exists_eq_left', exists_and_left,
    exists_exists_and_eq_and, and_assoc, not_not] at h
  obtain ⟨l, hl, hs, -, -, -, -, -, -, -, -, -, _, -, _, -, hr⟩ := h
  have hbound := find?_open hI hl (.inl hs)
  obtain ⟨rfl, rfl⟩ := Prod.mk.inj hr
  exact ⟨rfl, rfl, hbound⟩

end Bindings

section Calls
variable {settings : Settings} {α : Type} {x : Program Db Error α} {done : α → Guard → Guard} {g : Guard}

theorem Guard.attempt_returned {a : α} {db' : Db} (hf : g.faults = []) (h : x [] g.db = (.returned a, [], db')) :
    g.attempt x = (some a, { g with db := db' }) := by
  simp only [Guard.attempt, hf, h]

theorem Guard.attempt_threw {e : Error} {db' : Db} (hf : g.faults = []) (h : x [] g.db = (.threw e, [], db')) :
    g.attempt x = (none, { g with db := db' }) := by
  simp only [Guard.attempt, hf, h]

theorem Guard.call_returned {a : α} {db' : Db} (hf : g.faults = []) (h : x [] g.db = (.returned a, [], db')) :
    g.call x done = done a { g with db := db' } := by
  rw [Guard.call, Guard.attempt_returned hf h]

theorem Guard.call_threw {e : Error} {db' : Db} (hf : g.faults = []) (h : x [] g.db = (.threw e, [], db')) :
    g.call x done = { g with db := db' } := by
  rw [Guard.call, Guard.attempt_threw hf h]

/-- Without a fault a query returns what it selects. -/
theorem Guard.attempt_select (hf : g.faults = []) (f : Db → α) :
    g.attempt (transaction (select f)) = (some (f g.db), g) :=
  Guard.attempt_returned hf (transaction_returned rfl)

/-- Whatever its faults, a call changes nothing but the database. -/
theorem Guard.attempt_guard (x : Program Db Error α) (g : Guard) : ∃ fs,
    (g.attempt x).2 = { g with db := (x g.faults g.db).2.2, faults := fs } := by
  rw [Guard.attempt]
  rcases x g.faults g.db with ⟨a | e | _, fs, db⟩
  · exact ⟨fs, rfl⟩
  · exact ⟨fs, rfl⟩
  · exact ⟨fs, rfl⟩

/-- A query that fails changes nothing. -/
theorem Guard.attempt_select_cases (f : Db → α) (g : Guard) : ∃ fs,
    g.attempt (transaction (select f)) = (some (f g.db), { g with faults := fs }) ∨
      g.attempt (transaction (select f)) = (none, { g with faults := fs }) := by
  rw [Guard.attempt]
  cases hfaults : g.faults with
  | nil => exact ⟨[], .inl rfl⟩
  | cons fault fs =>
    refine ⟨fs, ?_⟩
    cases fault with
    | proceed => exact .inl rfl
    | _ => exact .inr rfl

theorem Guard.call_select (hf : g.faults = []) (f : Db → α) :
    g.call (transaction (select f)) done = done (f g.db) g := by
  rw [Guard.call, Guard.attempt_select hf]

/-- An account is opened first, which no listing notices. -/
theorem ensured_cases (body : Tx α) (playerUuid playerName : String) (db : Db) :
    (∃ db₁ a db', SameFrames db db₁ ∧ body db₁ = .ok (a, db') ∧
      (ensureAccount settings playerUuid playerName >>= fun _ => transaction body) [] db =
        (.returned a, [], db')) ∨
    ∃ e db', SameFrames db db' ∧
      (ensureAccount settings playerUuid playerName >>= fun _ => transaction body) [] db =
        (.threw e, [], db') := by
  rw [ensureAccount]
  split_ifs with hu
  · exact .inr ⟨_, db, .refl db, rfl⟩
  · obtain ⟨u, db₁, hok, hrun⟩ | ⟨e, -, hrun⟩ :=
      transaction_cases (ensureAccountTx settings playerUuid playerName) db
    · have hsteps := (@ensureAccountTx_steps settings (fun _ => False)) hok
      have hsame := sameFrames_steps hsteps id
      rw [Program.bind_returned hrun]
      obtain ⟨a, db', hbody, hret⟩ | ⟨e, -, hthrew⟩ := transaction_cases body db₁
      · exact .inl ⟨db₁, a, db', hsame, hbody, hret⟩
      · exact .inr ⟨e, db₁, hsame, hthrew⟩
    · exact .inr ⟨e, db, .refl db, Program.bind_error hrun⟩

theorem upsertFrameListing_cases (listing : FrameListingRow) (administrator : Bool) (db : Db) :
    (∃ db₁ saved db', SameFrames db db₁ ∧ upsertFrameListingTx listing administrator db₁ = .ok (saved, db') ∧
      upsertFrameListing settings listing administrator [] db = (.returned saved, [], db')) ∨
    ∃ e db', SameFrames db db' ∧
      upsertFrameListing settings listing administrator [] db = (.threw e, [], db') := by
  rw [upsertFrameListing]
  split_ifs with hc
  · exact .inr ⟨_, db, .refl db, rfl⟩
  · exact ensured_cases _ _ _ db

private theorem purchaseFrameListing_cases (listingId : Id) (buyerUuid buyerName : String) (price : Cents) (db : Db) :
    (∃ db₁ r db', SameFrames db db₁ ∧
      purchaseFrameListingTx listingId buyerUuid buyerName price db₁ = .ok (r, db') ∧
      purchaseFrameListing settings listingId buyerUuid buyerName price [] db = (.returned r, [], db')) ∨
    ∃ e db', SameFrames db db' ∧
      purchaseFrameListing settings listingId buyerUuid buyerName price [] db = (.threw e, [], db') := by
  rw [purchaseFrameListing]
  split_ifs with hc
  · exact .inr ⟨_, db, .refl db, rfl⟩
  · exact ensured_cases _ _ _ db

theorem discard_leaves (x : Program Db Error α) (faults : List Fault) (db : Db) :
    ((do let _ ← x : Program Db Error PUnit) faults db).2.2 = (x faults db).2.2 := by
  rcases hx : x faults db with ⟨a | e | _, fs, db'⟩
  · rw [Program.bind_returned hx]
    rfl
  · rw [Program.bind_error hx]
  · change (Program.bind x _ faults db).2.2 = db'
    rw [Program.bind, hx]

end Calls

section Steps
variable {settings : Settings} {g : Guard}

/-- What every state of a timely run satisfies. -/
structure Guarded (settings : Settings) (g : Guard) : Prop where
  reachable : Reachable settings g.db
  forms : ∀ l ∈ g.forms, ∃ row, g.db.frameListings.get? l.id = some row ∧ row.targetKey = l.targetKey
  agrees : Agrees g
  faultless : g.faults = []

/-- A call of the service, with the index its handler leaves. -/
theorem Guarded.reindexed (h : Guarded settings g) (c : Call) {faults : List Fault} {db' : Db}
    (hc : c.leaves settings faults g.db = db') {index : String → Option Id}
    (ha : ∀ t, index t = db'.frameListingBindings.find? t) :
    Guarded settings { g with db := db', index := index } := by
  subst hc
  refine ⟨h.reachable.call c faults, fun l hl => ?_, ha, h.faultless⟩
  obtain ⟨row, hrow, ht⟩ := h.forms l hl
  obtain ⟨row', hrow', hadv⟩ := (Call.settles c faults h.reachable.escrowsPlaceable
    (reachable_framesSound h.reachable)).2.old _ _ hrow
  exact ⟨row', hrow', hadv.target.trans ht⟩

theorem Guarded.kept (h : Guarded settings g) (c : Call) {faults : List Fault} {db' : Db}
    (hc : c.leaves settings faults g.db = db')
    (hb : db'.frameListingBindings = g.db.frameListingBindings) : Guarded settings { g with db := db' } :=
  h.reindexed c hc fun t => (h.agrees t).trans (by rw [hb])

theorem Guarded.released (h : Guarded settings g) (c : Call) {faults : List Fault} {db' : Db}
    (hc : c.leaves settings faults g.db = db') {targetKey : String} (hr : Released g.db db' targetKey) :
    Guarded settings (Guard.erase { g with db := db' } targetKey) := by
  refine h.reindexed c hc fun t => ?_
  rw [Function.update_apply]
  split_ifs with ht
  · rw [ht, hr.own]
  · rw [h.agrees, hr.others t ht]

theorem Guarded.protected (h : Guarded settings g) {targetKey : String} {id : Id}
    (hf : g.db.frameListingBindings.find? targetKey = some id) : g.protect targetKey id = g := by
  have hindex : Function.update g.index targetKey (some id) = g.index := by
    rw [← hf, ← h.agrees]
    exact Function.update_eq_self targetKey g.index
  rw [Guard.protect, hindex]

theorem Guarded.unprotected (h : Guarded settings g) {targetKey : String}
    (hf : g.db.frameListingBindings.find? targetKey = none) : g.erase targetKey = g := by
  have hindex : Function.update g.index targetKey none = g.index := by
    rw [← hf, ← h.agrees]
    exact Function.update_eq_self targetKey g.index
  rw [Guard.erase, hindex]

theorem marked_guarded (h : Guarded settings g) (listingId : Id) :
    Guarded settings (g.call (markFrameListingDropped listingId) fun _ g => g) := by
  obtain ⟨u, db', hok, hrun⟩ | ⟨e, -, hrun⟩ :=
    transaction_cases (markFrameListingDroppedTx listingId) g.db
  · rw [markFrameListingDropped, Guard.call_returned h.faultless hrun]
    exact h.kept (.markFrameListingDropped listingId) (congrArg (·.2.2) hrun)
      (markFrameListingDroppedTx_marks hok).1
  · rw [markFrameListingDropped, Guard.call_threw h.faultless hrun]
    exact h

theorem settleFrameListing_guarded (h : Guarded settings g) (adopted : Bool) {listing : FrameListing}
    (hs : listing.status ≠ .claimed ∧ listing.status ≠ .canceled) :
    Guarded settings (settleFrameListing adopted listing g) := by
  rw [settleFrameListing, if_neg (by simp [hs])]
  split_ifs with hpaid hadopted
  · exact h
  · exact marked_guarded h listing.id
  · exact h

theorem open_unfinished {s : FrameListingStatus} (h : Open s) : s ≠ .claimed ∧ s ≠ .canceled := by
  rcases h with rfl | rfl | rfl <;> exact ⟨nofun, nofun⟩

/-- The listing found under a guarded target is open. -/
theorem Guarded.listingAt_open (h : Guarded settings g) {targetKey : String} {id : Id}
    (hi : g.index targetKey = some id) : ∃ listing, listingAt g.db id = some listing ∧ Open listing.status := by
  obtain ⟨row, hrow, ho, -⟩ :=
    ((reachable_framesSound h.reachable).bound targetKey id).mp ((h.agrees targetKey).symm.trans hi)
  exact ⟨frameListingFromRow id row, by rw [listingAt, hrow]; rfl, ho⟩

private theorem leftClick_guarded (h : Guarded settings g) (targetKey : String) (adopted : Bool) :
    Guarded settings (leftClick targetKey adopted g).2 := by
  cases hi : g.index targetKey with
  | none =>
    simp only [leftClick, hi]
    exact h
  | some id =>
    obtain ⟨listing, hlisting, ho⟩ := h.listingAt_open hi
    have hopen := open_unfinished ho
    simp only [leftClick, hi, findFrameListing, Guard.attempt_select h.faultless, hlisting, hopen, or_self, if_false]
    split_ifs
    · exact settleFrameListing_guarded h adopted hopen
    · exact h

private theorem rightClick_guarded (h : Guarded settings g) (targetKey : String) (adopted : Bool) :
    Guarded settings (rightClick targetKey adopted g) := by
  cases hi : g.index targetKey with
  | none =>
    simp only [rightClick, hi]
    exact h
  | some id =>
    obtain ⟨listing, hlisting, ho⟩ := h.listingAt_open hi
    simp only [rightClick, hi, findFrameListing, Guard.call_select h.faultless, hlisting]
    split_ifs
    · exact h
    · exact settleFrameListing_guarded h adopted (open_unfinished ho)

private theorem handlePriceStick_guarded (h : Guarded settings g) (targetKey : String) (adopted : Bool) :
    Guarded settings (handlePriceStick targetKey adopted g).2 := by
  have hI := reachable_framesSound h.reachable
  cases hb : boundListing targetKey g.db with
  | none =>
    simp only [handlePriceStick, findBoundFrameListing, Guard.attempt_select h.faultless, hb]
    rw [h.unprotected (boundListing_none hI hb)]
    exact h
  | some listing =>
    obtain ⟨hf, hrow⟩ := boundListing_some hb
    obtain ⟨row, hrow', ho, -⟩ := (hI.bound targetKey listing.id).mp hf
    obtain rfl : row = listing.toFrameListingRow := Option.some.inj (hrow'.symm.trans hrow)
    simp only [handlePriceStick, findBoundFrameListing, Guard.attempt_select h.faultless, hb]
    rw [h.protected hf]
    split_ifs
    · exact settleFrameListing_guarded h adopted (open_unfinished ho)
    · exact h

private theorem openFrameManagementForm_guarded (h : Guarded settings g) (playerUuid : String) (isOp : Bool)
    (listing : FrameListing) : Guarded settings (openFrameManagementForm playerUuid isOp listing g) := by
  cases hb : boundListing listing.targetKey g.db with
  | none =>
    simp only [openFrameManagementForm, findBoundFrameListing, Guard.call_select h.faultless, hb]
    exact h
  | some current =>
    simp only [openFrameManagementForm, findBoundFrameListing, Guard.call_select h.faultless, hb]
    split_ifs
    · exact h
    · exact h
    · refine ⟨h.reachable, fun l hl => ?_, h.agrees, h.faultless⟩
      rcases List.mem_cons.mp hl with rfl | hl
      · exact ⟨_, (boundListing_some hb).2, rfl⟩
      · exact h.forms l hl

private theorem submitPrice_guarded (h : Guarded settings g) (draft : FrameListingRow) (isOp : Bool) :
    Guarded settings (submitPrice settings draft isOp g) := by
  have hleaves : ∀ {r}, upsertFrameListing settings draft isOp [] g.db = r →
      (Call.upsertFrameListing draft isOp).leaves settings [] g.db = r.2.2 := by
    rintro r rfl
    exact discard_leaves _ _ _
  obtain ⟨db₁, saved, db', hsame, hok, hrun⟩ | ⟨e, db', hsame, hrun⟩ :=
    (@upsertFrameListing_cases settings) draft isOp g.db
  · have hbinds := upsertFrameListingTx_binds (hsame.sound (reachable_framesSound h.reachable)) hok
    rw [submitPrice, Guard.call_returned h.faultless hrun]
    refine h.reindexed (.upsertFrameListing draft isOp) (hleaves hrun) fun t => ?_
    rw [Function.update_apply, hbinds, h.agrees, hsame.bindings]
  · rw [submitPrice, Guard.call_threw h.faultless hrun]
    exact h.kept (.upsertFrameListing draft isOp) (hleaves hrun) hsame.bindings

private theorem submitPurchase_guarded (h : Guarded settings g) (listing : FrameListing)
    (buyerUuid buyerName : String) (adopted : Bool) :
    Guarded settings (submitPurchase settings listing buyerUuid buyerName adopted g) := by
  have hleaves : ∀ {id price r}, purchaseFrameListing settings id buyerUuid buyerName price [] g.db = r →
      (Call.purchaseFrameListing id buyerUuid buyerName price).leaves settings [] g.db = r.2.2 := by
    rintro id price r rfl
    exact discard_leaves _ _ _
  cases hb : boundListing listing.targetKey g.db with
  | none =>
    simp only [submitPurchase, findBoundFrameListing, Guard.call_select h.faultless, hb]
    exact h
  | some current =>
    simp only [submitPurchase, findBoundFrameListing, Guard.call_select h.faultless, hb]
    split_ifs
    · exact h
    · obtain ⟨db₁, r, db', hsame, hok, hrun⟩ | ⟨e, db', hsame, hrun⟩ :=
        (@purchaseFrameListing_cases settings) current.id buyerUuid buyerName listing.priceCents g.db
      · obtain ⟨hbinds, hpaid, hf⟩ :=
          purchaseFrameListingTx_binds (hsame.sound (reachable_framesSound h.reachable)) hok
        have hlater := h.kept (.purchaseFrameListing current.id buyerUuid buyerName listing.priceCents)
          (hleaves hrun) (hbinds.trans hsame.bindings)
        rw [Guard.call_returned h.faultless hrun, hlater.protected (by rw [← hf, hbinds])]
        exact settleFrameListing_guarded hlater adopted (by simp [hpaid])
      · rw [Guard.call_threw h.faultless hrun]
        exact h.kept (.purchaseFrameListing current.id buyerUuid buyerName listing.priceCents)
          (hleaves hrun) hsame.bindings

private theorem pressCancel_guarded (h : Guarded settings g) {listing : FrameListing} (hl : listing ∈ g.forms)
    {playerUuid : String} {isOp : Bool} (ht : (Handler.cancel listing playerUuid isOp).Timely g) :
    Guarded settings (pressCancel listing playerUuid isOp g) := by
  obtain ⟨row, hrow, htarget⟩ := h.forms listing hl
  obtain ⟨u, db', hok, hrun⟩ | ⟨e, -, hrun⟩ :=
    transaction_cases (cancelFrameListingTx listing.id playerUuid isOp) g.db
  · rw [pressCancel, cancelFrameListing, Guard.call_returned h.faultless hrun]
    refine h.released (.cancelFrameListing listing.id playerUuid isOp) (congrArg (·.2.2) hrun) ?_
    rw [← htarget]
    obtain ⟨hs, rfl⟩ | hreleased :=
      cancelFrameListingTx_releases (reachable_framesSound h.reachable) hrow hok
    · exact released_same (htarget ▸ ht row hrow hs) rfl
    · exact hreleased
  · rw [pressCancel, cancelFrameListing, Guard.call_threw h.faultless hrun]
    exact h

private theorem pickUp_guarded (h : Guarded settings g) {listingId : Id}
    (ht : (Handler.pickUp listingId).Timely g) : Guarded settings (pickUp listingId g) := by
  obtain ⟨u, db₁, hok, hrun⟩ | ⟨e, -, hrun⟩ :=
    transaction_cases (markFrameListingDroppedTx listingId) g.db
  · obtain ⟨hbinds, row, row₁, hrow, hrow₁, htarget, hclaimed⟩ := markFrameListingDroppedTx_marks hok
    have hmarked := h.kept (.markFrameListingDropped listingId) (congrArg (·.2.2) hrun) hbinds
    rw [pickUp, markFrameListingDropped, Guard.call_returned h.faultless hrun]
    obtain ⟨u', db', hok', hrun'⟩ | ⟨e, -, hrun'⟩ :=
      transaction_cases (completeFrameListingPickupTx listingId) db₁
    · obtain ⟨row', hrow', hadv⟩ := (completeFrameListingPickupTx_settles
        (reachable_framesSound hmarked.reachable) hok').2.old listingId row₁ hrow₁
      have hlisting : listingAt db' listingId = some (frameListingFromRow listingId row') := by
        rw [listingAt, hrow']
        rfl
      rw [completeFrameListingPickup, Guard.call_returned hmarked.faultless hrun']
      dsimp only
      rw [findFrameListing, Guard.call_select (g := { g with db := db' }) h.faultless]
      simp only [hlisting]
      refine hmarked.released (.completeFrameListingPickup listingId) (congrArg (·.2.2) hrun') ?_
      change Released db₁ db' row'.targetKey
      rw [hadv.target]
      obtain ⟨hs, rfl⟩ | hreleased :=
        completeFrameListingPickupTx_releases (reachable_framesSound hmarked.reachable) hrow₁ hok'
      · refine released_same ?_ rfl
        rw [hbinds, htarget]
        exact ht row hrow (hclaimed hs)
      · exact hreleased
    · rw [completeFrameListingPickup, Guard.call_threw hmarked.faultless hrun']
      exact hmarked
  · rw [pickUp, markFrameListingDropped, Guard.call_threw h.faultless hrun]
    exact h

private theorem settleFrameListing_bindings (hf : g.faults = []) (adopted : Bool) (listing : FrameListing) :
    (settleFrameListing adopted listing g).db.frameListingBindings = g.db.frameListingBindings := by
  rw [settleFrameListing]
  split_ifs
  · rfl
  · rfl
  · obtain ⟨u, db', hok, hrun⟩ | ⟨e, -, hrun⟩ :=
      transaction_cases (markFrameListingDroppedTx listing.id) g.db
    · rw [markFrameListingDropped, Guard.call_returned hf hrun]
      exact (markFrameListingDroppedTx_marks hok).1
    · rw [markFrameListingDropped, Guard.call_threw hf hrun]
  · rfl

/-- Settling bound listings one after the other; the bindings stay as they were. -/
theorem settle_foldl_guarded (adopted : Id → Bool) (listings : List FrameListing) (h : Guarded settings g)
    (hl : ∀ l ∈ listings, (l.status ≠ .claimed ∧ l.status ≠ .canceled) ∧
      g.db.frameListingBindings.find? l.targetKey = some l.id) :
    Guarded settings (listings.foldl (fun g listing => settleFrameListing (adopted listing.id) listing
      (g.protect listing.targetKey listing.id)) g) := by
  induction listings generalizing g with
  | nil => exact h
  | cons l listings ih =>
    obtain ⟨hs, hf⟩ := hl l (List.mem_cons_self ..)
    rw [List.foldl_cons, h.protected hf]
    refine ih (settleFrameListing_guarded h (adopted l.id) hs) fun l' hl' => ?_
    rw [settleFrameListing_bindings h.faultless]
    exact hl l' (List.mem_cons_of_mem _ hl')

private theorem recoverFrameListings_guarded (h : Guarded settings g) (adopted : Id → Bool) :
    Guarded settings (recoverFrameListings adopted g) := by
  rw [recoverFrameListings, unsettledFrameListings, Guard.call_select h.faultless]
  refine settle_foldl_guarded adopted _ h fun l hl => ?_
  obtain ⟨e, he, rfl⟩ := List.mem_map.mp hl
  rw [List.mem_filter, Table.mem_entries, decide_eq_true_eq] at he
  obtain ⟨hrow, hs⟩ := he
  have ho : Open e.2.status := .inr hs
  exact ⟨open_unfinished ho, find?_open (reachable_framesSound h.reachable) hrow ho⟩

/-- A timely handler leaves the guard as it should be. -/
theorem Guarded.run (h : Guarded settings g) (a : Handler) (hp : a.Possible g) (ht : a.Timely g) :
    Guarded settings (a.run settings g) := by
  cases a with
  | leftClick targetKey adopted => exact leftClick_guarded h targetKey adopted
  | rightClick targetKey adopted => exact rightClick_guarded h targetKey adopted
  | priceStick targetKey adopted => exact handlePriceStick_guarded h targetKey adopted
  | openManagement playerUuid isOp listing => exact openFrameManagementForm_guarded h playerUuid isOp listing
  | cancel => exact pressCancel_guarded h hp ht
  | price draft isOp => exact submitPrice_guarded h draft isOp
  | purchase listing buyerUuid buyerName adopted =>
    exact submitPurchase_guarded h listing buyerUuid buyerName adopted
  | pickUp => exact pickUp_guarded h ht
  | spawned listingId => exact marked_guarded h listingId
  | recover adopted => exact recoverFrameListings_guarded h adopted
  | service c faults =>
    have hsteps := (@Call.leaves_follows settings _ c faults h.reachable.escrowsPlaceable).1
    exact h.kept c rfl (sameFrames_steps hsteps hp).bindings

private theorem restored_guarded {db : Db} (h : Reachable settings db) :
    Guarded settings (restoreFrameListingIndex db) := by
  refine ⟨h, fun l hl => absurd hl List.not_mem_nil, fun t => ?_, rfl⟩
  have hI := reachable_framesSound h
  change (boundListing t db).map (·.id) = db.frameListingBindings.find? t
  cases hb : boundListing t db with
  | none => exact (boundListing_none hI hb).symm
  | some listing => exact (boundListing_some hb).1.symm

theorem GuardRun.guarded (h : GuardRun settings (fun g a => a.Timely g) g) : Guarded settings g := by
  induction h with
  | restored h => exact restored_guarded h
  | handled _ a hp ht ih => exact ih.run a hp ht

end Steps

section Stale
variable {settings : Settings} {g : Guard}

/-- Finishing a finished listing again only erases its target. -/
theorem pressCancel_canceled (hf : g.faults = []) {listing : FrameListing} {row : FrameListingRow}
    (hrow : g.db.frameListings.get? listing.id = some row) (hs : row.status = .canceled)
    (playerUuid : String) (isOp : Bool) :
    pressCancel listing playerUuid isOp g = g.erase listing.targetKey := by
  have hok : cancelFrameListingTx listing.id playerUuid isOp g.db = .ok (⟨⟩, g.db) := by
    simp only [cancelFrameListingTx, bind_ok, selectOne_ok]
    exact ⟨(row, g.db), ⟨row, hrow, rfl⟩, by rw [if_pos hs]; rfl⟩
  rw [pressCancel, cancelFrameListing, Guard.call_returned hf (transaction_returned hok)]

private theorem pickUp_claimed (hf : g.faults = []) {listingId : Id} {row : FrameListingRow}
    (hrow : g.db.frameListings.get? listingId = some row) (hs : row.status = .claimed) :
    pickUp listingId g = g.erase row.targetKey := by
  have hmark : markFrameListingDroppedTx listingId g.db = .ok (⟨⟩, g.db) := by
    simp only [markFrameListingDroppedTx, bind_ok, selectOne_ok]
    exact ⟨(row, g.db), ⟨row, hrow, rfl⟩, by rw [if_pos (.inr hs)]; rfl⟩
  have hpick : completeFrameListingPickupTx listingId g.db = .ok (⟨⟩, g.db) := by
    simp only [completeFrameListingPickupTx, bind_ok, selectOne_ok]
    exact ⟨(row, g.db), ⟨row, hrow, rfl⟩, by rw [if_pos hs]; rfl⟩
  have hlisting : listingAt g.db listingId = some (frameListingFromRow listingId row) := by
    rw [listingAt, hrow]
    rfl
  rw [pickUp, markFrameListingDropped, Guard.call_returned hf (transaction_returned hmark),
    completeFrameListingPickup, Guard.call_returned hf (transaction_returned hpick), findFrameListing,
    Guard.call_select hf]
  simp only [hlisting]
  rfl

theorem erase_agrees {targetKey : String} (h : Agrees (g.erase targetKey)) :
    g.db.frameListingBindings.find? targetKey = none := by
  have hindex := h targetKey
  exact hindex.symm.trans (Function.update_self ..)

/-- A handler that is not timely exposes a listed frame. -/
theorem timely_of_agrees (hf : g.faults = []) {a : Handler} (h : Agrees (a.run settings g)) : a.Timely g := by
  cases a with
  | cancel listing playerUuid isOp =>
    intro row hrow hs
    change Agrees (pressCancel listing playerUuid isOp g) at h
    rw [pressCancel_canceled hf hrow hs] at h
    exact erase_agrees h
  | pickUp listingId =>
    intro row hrow hs
    change Agrees (FrameGuard.pickUp listingId g) at h
    rw [pickUp_claimed hf hrow hs] at h
    exact erase_agrees h
  | _ => trivial

end Stale

/-- Along timely runs the index is the bindings, and it stays so exactly with a timely handler. -/
theorem guard_agrees {settings : Settings} {g : Guard} (h : GuardRun settings (fun g a => a.Timely g) g) :
    Agrees g ∧ ∀ a : Handler, a.Possible g → (Agrees (a.run settings g) ↔ a.Timely g) :=
  ⟨h.guarded.agrees, fun a hp => ⟨timely_of_agrees h.guarded.faultless, fun ht => (h.guarded.run a hp ht).agrees⟩⟩

/-- The guard after some handlers, from the index of the migrated database. -/
def afterHandlers (settings : Settings) (handlers : List Handler) : Guard :=
  handlers.foldl (fun g a => a.run settings g) (restoreFrameListingIndex {})

def listedFrame : FrameListing := { sampleListing with id := 1 }

def repricedFrame : FrameListing := { sampleListing with id := 2, priceCents := 700 }

/-- Alice lists her frame, opens its management form, and an operator saves a new price. -/
def repricedHandlers : List Handler :=
  [.price sampleListing false, .openManagement "alice" false listedFrame,
    .price { sampleListing with priceCents := 700 } true]

/-- Alice withdraws the new listing by a new form and lists the item once more, the buttons of her old form
being pressed in between; bob buys it, and two marked stacks are picked up. -/
def settledHandlers : List Handler :=
  repricedHandlers ++ [.openManagement "alice" false repricedFrame, .cancel repricedFrame "alice" false,
    .cancel listedFrame "alice" false, .price sampleListing false,
    .purchase { sampleListing with id := 3 } "bob" "bob" true, .pickUp 3, .pickUp 3]

/-- The handlers can run one after the other. -/
def Handled (settings : Settings) (ok : Guard → Handler → Prop) : List Handler → Guard → Prop
  | [], _ => True
  | a :: handlers, g => a.Possible g ∧ ok g a ∧ Handled settings ok handlers (a.run settings g)

theorem Handled.run {settings : Settings} {ok : Guard → Handler → Prop} {handlers : List Handler} {g : Guard}
    (h : Handled settings ok handlers g) (hg : GuardRun settings ok g) :
    GuardRun settings ok (handlers.foldl (fun g a => a.run settings g) g) := by
  induction handlers generalizing g with
  | nil => exact hg
  | cons a handlers ih => exact ih h.2.2 (hg.handled a h.1 h.2.1)

theorem afterHandlers_run {ok : Guard → Handler → Prop} {handlers : List Handler}
    (h : Handled sampleSettings ok handlers (restoreFrameListingIndex {})) :
    GuardRun sampleSettings ok (afterHandlers sampleSettings handlers) :=
  h.run (.restored ⟨[], .start⟩)

theorem guard_agrees_repriced :
    (afterHandlers sampleSettings repricedHandlers).index "frame" = some 2 ∧
      (afterHandlers sampleSettings settledHandlers).index "frame" = none ∧
      Agrees (afterHandlers sampleSettings settledHandlers) := by
  have hrun : GuardRun sampleSettings (fun g a => a.Timely g) (afterHandlers sampleSettings settledHandlers) := by
    refine afterHandlers_run ?_
    refine ⟨trivial, trivial, trivial, trivial, trivial, trivial, trivial, trivial, List.Mem.head _, ?_,
      List.Mem.tail _ (List.Mem.head _), fun _ _ _ => rfl, trivial, trivial, trivial, trivial, trivial, ?_,
      trivial, fun row hrow _ => ?_, trivial⟩
    · intro row hrow hs
      obtain rfl := Option.some.inj hrow
      cases hs
    · intro row hrow hs
      obtain rfl := Option.some.inj hrow
      cases hs
    · obtain rfl := Option.some.inj hrow
      rfl
  exact ⟨rfl, rfl, (guard_agrees hrun).1⟩

/-- The cancel button of the form from before the new price leaves the new listing unprotected. -/
theorem stale_cancel_exposes_listing : ∃ g, GuardRun sampleSettings (fun _ _ => True) g ∧
    g.db.frameListingBindings.find? "frame" = some 2 ∧
    (∃ l, g.db.frameListings.get? 2 = some l ∧ l.status = .active) ∧ g.index "frame" = none ∧
    ¬ Agrees g := by
  have hrepriced : GuardRun sampleSettings (fun _ _ => True) (afterHandlers sampleSettings repricedHandlers) :=
    afterHandlers_run ⟨trivial, trivial, trivial, trivial, trivial, trivial, trivial⟩
  have hform : listedFrame ∈ (afterHandlers sampleSettings repricedHandlers).forms := List.Mem.head _
  refine ⟨_, hrepriced.handled (.cancel listedFrame "alice" false) hform trivial, rfl, ⟨_, rfl, rfl⟩, rfl, ?_⟩
  intro h
  exact absurd (show none = some 2 from h "frame") nofun

end EndstoneExchange.FrameGuard
