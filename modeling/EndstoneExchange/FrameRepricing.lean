import EndstoneExchange.FrameFlows

/-!
# Repricing a listing

A price form keeps the listing it was opened for through two captures. The last
callback looks at the item and the target only, so the listing it replaces is the
one that was shown exactly if no newer one is active by then.
-/
namespace EndstoneExchange.FrameRepricing
open AutoIncrementTables KeyedTables AtomicTransactions.Transaction DurablePrograms ExchangeDomain
  ExchangeTransactions AccountOperations MarketOperations FrameListingOperations ClearingSteps
  ClearingRefinement ServiceRuns FrameListingLedger FrameGuard FrameFlows Relation

variable {settings : Settings} {ok : Plugin → FrameEvent → Prop} {db db' : Db} {p q : Plugin}

section Shown

/-- A listing as a form shows it: its row stays, and its target is bound to it or to newer ones. -/
def Shown (db : Db) (listing : FrameListing) : Prop :=
  ∃ row, db.frameListings.get? listing.id = some row ∧ row.targetKey = listing.targetKey ∧
    row.sellerUuid = listing.sellerUuid ∧
    ∀ id, db.frameListingBindings.find? listing.targetKey = some id → listing.id ≤ id

private theorem shown_bound {targetKey : String} {current : FrameListing} (hI : FramesSound db)
    (h : boundListing targetKey db = some current) : Shown db current ∧ current.targetKey = targetKey := by
  obtain ⟨hf, hrow⟩ := boundListing_some h
  obtain ⟨row, hrow', -, htarget⟩ := (hI.bound _ _).mp hf
  obtain rfl : row = current.toFrameListingRow := Option.some.inj (hrow'.symm.trans hrow)
  refine ⟨⟨_, hrow, rfl, rfl, fun id hid => ?_⟩, htarget⟩
  rw [htarget, hf] at hid
  exact (Option.some.inj hid).le

theorem Shown.settled {listing : FrameListing} (h : Shown db listing) (hI : FramesSound db)
    (hs : Settles db db') : Shown db' listing := by
  obtain ⟨row, hrow, htarget, hseller, hid⟩ := h
  obtain ⟨row', hrow', hadv⟩ := hs.2.old _ _ hrow
  refine ⟨row', hrow', hadv.target.trans htarget, hadv.seller.trans hseller, fun id hf => ?_⟩
  rcases settles_binds hI hs hf with hf | hnew
  · exact hid id hf
  · -- a listing that did not exist before got its id after all the others
    by_contra hlt
    obtain ⟨row₁, hrow₁, -⟩ := (hs.1.bound _ _).mp hf
    have hold := Table.get?_of_lt (Table.lt_nextId hrow₁).1 ((not_le.mp hlt).trans (Table.lt_nextId hrow).2)
    simp [hnew] at hold

theorem Shown.later {listing : FrameListing} (h : Shown db listing) (hl : Later settings db db')
    (hr : Reachable settings db) : Shown db' listing := by
  induction hl with
  | refl => exact h
  | @tail db₁ db₂ hl hc ih =>
    obtain ⟨c, faults, rfl⟩ := hc
    have hr₁ := Later.reachable hl hr
    exact ih.settled (reachable_framesSound hr₁)
      (Call.settles c faults hr₁.escrowsPlaceable (reachable_framesSound hr₁))

end Shown

section Elsewhere

/-- Nothing changed but the database and the two indexes. -/
structure Elsewhere (settings : Settings) (p q : Plugin) : Prop where
  later : Later settings p.guard.db q.guard.db
  forms : q.guard.forms = p.guard.forms
  priceForms : q.priceForms = p.priceForms
  captures : q.captures = p.captures

theorem Elsewhere.refl (p : Plugin) : Elsewhere settings p p := ⟨.refl, rfl, rfl, rfl⟩

theorem Elsewhere.trans {r : Plugin} (h : Elsewhere settings p q) (h' : Elsewhere settings q r) :
    Elsewhere settings p r :=
  ⟨ReflTransGen.trans h.later h'.later, h'.forms.trans h.forms, h'.priceForms.trans h.priceForms,
    h'.captures.trans h.captures⟩

theorem elsewhere_tended {guard : Guard} (h : Tended settings p.guard guard) :
    Elsewhere settings p { p with guard } :=
  ⟨h.db.later, h.forms, rfl, rfl⟩

theorem elsewhere_call {α : Type} {x : Program Db Error α} {done : α → Plugin → Plugin} (c : Call)
    (hx : (x p.guard.faults p.guard.db).2.2 = c.leaves settings p.guard.faults p.guard.db)
    (hdone : ∀ a q, Elsewhere settings q (done a q)) : Elsewhere settings p (p.call x done) := by
  obtain ⟨q, ⟨fs, hq⟩, hp⟩ := Plugin.call_cases done hx
  have hleft : Elsewhere settings p q := by
    rw [hq]
    exact ⟨Later.call c p.guard.faults rfl, rfl, rfl, rfl⟩
  rcases hp with hp | ⟨a, hp⟩
  · rw [hp]
    exact hleft
  · rw [hp]
    exact hleft.trans (hdone a q)

theorem activate_elsewhere (market : Market) (p : Plugin) :
    Elsewhere settings p (activate settings market p) :=
  elsewhere_call (.activateMarket market) (discard_leaves _ _ _).symm fun _ _ => ⟨.refl, rfl, rfl, rfl⟩

theorem deactivate_elsewhere (marketId : Id) (preserveOrders : Bool) (p : Plugin) :
    Elsewhere settings p (deactivate marketId preserveOrders p) := by
  have hunindex : ∀ (u : PUnit) (q : Plugin), Elsewhere settings q (unindexMarket marketId q) := by
    intro _ q
    rw [unindexMarket]
    cases q.markets marketId with
    | none => exact .refl q
    | some market => exact ⟨.refl, rfl, rfl, rfl⟩
  rw [deactivate]
  cases p.markets marketId with
  | none => exact .refl p
  | some market =>
    cases preserveOrders with
    | true => exact elsewhere_call (.closeMarket marketId) rfl hunindex
    | false => exact elsewhere_call (.retireMarket marketId) rfl hunindex

private theorem submitPrice_elsewhere (draft : FrameListingRow) (isOp : Bool) (p : Plugin) :
    Elsewhere settings p (p.onGuard (FrameGuard.submitPrice settings draft isOp)) := by
  obtain ⟨hdb, hforms⟩ := (@submitPrice_leaves settings) draft isOp p.guard
  exact ⟨Later.call (.upsertFrameListing draft isOp) p.guard.faults hdb.symm, hforms, rfl, rfl⟩

private theorem restoreMarkets_elsewhere (p : Plugin) : Elsewhere settings p (restoreMarkets p) := by
  have hindexed : ∀ (markets : List Market) (q : Plugin),
      Elsewhere settings q (markets.foldl (fun p market => indexMarket market p) q) := by
    intro markets
    induction markets with
    | nil => exact fun q => .refl q
    | cons market markets ih =>
      intro q
      have hindex : Elsewhere settings q (indexMarket market q) := ⟨.refl, rfl, rfl, rfl⟩
      exact hindex.trans (ih _)
  have hclear : Elsewhere settings p { p with markets := fun _ => none, targetIndex := fun _ => none } :=
    ⟨.refl, rfl, rfl, rfl⟩
  exact hclear.trans (hindexed _ _)

end Elsewhere

section Tracking

/-- A flow that was started from a listing goes on with that listing and its seller. -/
def Follows (db : Db) (targetKey : String) : Callback → Prop
  | .openPrice existing => ∀ l, existing = some l → Shown db l ∧ l.targetKey = targetKey
  | .savePrice _ existing sellerUuid _ _ => ∀ l, existing = some l →
      (Shown db l ∧ l.targetKey = targetKey) ∧ sellerUuid = l.sellerUuid
  | _ => True

theorem Follows.imp {targetKey : String} {callback : Callback} (h : Follows db targetKey callback)
    (hs : ∀ l, Shown db l → Shown db' l) : Follows db' targetKey callback := by
  cases callback with
  | openPrice existing => exact fun l hl => ⟨hs l (h l hl).1, (h l hl).2⟩
  | savePrice item existing sellerUuid sellerName priceCents =>
    exact fun l hl => ⟨⟨hs l (h l hl).1.1, (h l hl).1.2⟩, (h l hl).2⟩
  | _ => trivial

/-- Every listing that a form or a capture keeps is one that was shown. -/
structure Tracked (settings : Settings) (p : Plugin) : Prop where
  reachable : Reachable settings p.guard.db
  forms : ∀ l ∈ p.guard.forms, Shown p.guard.db l
  priceForms : ∀ f ∈ p.priceForms, ∀ l, f.existing = some l →
    Shown p.guard.db l ∧ l.targetKey = f.address.targetKey
  captures : ∀ targetKey c, p.captures targetKey = some c →
    c.address.targetKey = targetKey ∧ Follows p.guard.db targetKey c.callback

theorem Tracked.elsewhere (h : Tracked settings p) (he : Elsewhere settings p q) : Tracked settings q := by
  have hshown : ∀ l, Shown p.guard.db l → Shown q.guard.db l := fun l hl => hl.later he.later h.reachable
  refine ⟨Later.reachable he.later h.reachable, fun l hl => ?_, fun f hf l hl => ?_, fun key c hc => ?_⟩
  · rw [he.forms] at hl
    exact hshown l (h.forms l hl)
  · rw [he.priceForms] at hf
    obtain ⟨hl, hkey⟩ := h.priceForms f hf l hl
    exact ⟨hshown l hl, hkey⟩
  · rw [he.captures] at hc
    obtain ⟨hkey, hfollows⟩ := h.captures key c hc
    exact ⟨hkey, hfollows.imp hshown⟩

theorem Tracked.queued (h : Tracked settings p) (site : Site) (address : FrameAddress) (playerUuid : String)
    {callback : Callback} (hf : Follows p.guard.db address.targetKey callback) :
    Tracked settings (p.queue site address playerUuid callback) := by
  rcases p.queue_cases site address playerUuid callback with hp | hp
  · rw [hp]
    exact h
  · rw [hp]
    refine ⟨h.reachable, h.forms, h.priceForms, fun key c hc => ?_⟩
    simp only [Function.update_apply] at hc
    split_ifs at hc with hkey
    · obtain rfl := Option.some.inj hc
      exact ⟨hkey.symm, hkey ▸ hf⟩
    · exact h.captures key c hc

theorem Tracked.freed (h : Tracked settings p) (targetKey : String) :
    Tracked settings { p with captures := Function.update p.captures targetKey none } := by
  refine ⟨h.reachable, h.forms, h.priceForms, fun key c hc => ?_⟩
  simp only [Function.update_apply] at hc
  split_ifs at hc
  exact h.captures key c hc

theorem Tracked.managed (h : Tracked settings p) (playerUuid : String) (isOp : Bool)
    (listing : FrameListing) :
    Tracked settings (p.onGuard (openFrameManagementForm playerUuid isOp listing)) := by
  have hkept : ∀ fs, Tracked settings (p.meets fs) := fun fs => ⟨h.reachable, h.forms, h.priceForms, h.captures⟩
  obtain ⟨fs, hr | hr⟩ := Guard.attempt_select_cases (boundListing listing.targetKey) p.guard
  · simp only [Plugin.onGuard, openFrameManagementForm, Guard.call, findBoundFrameListing, hr]
    cases hb : boundListing listing.targetKey p.guard.db with
    | none => exact hkept fs
    | some current =>
      dsimp only
      split_ifs
      · exact hkept fs
      · exact hkept fs
      · refine ⟨h.reachable, fun l hl => ?_, h.priceForms, h.captures⟩
        rcases List.mem_cons.mp hl with rfl | hl
        · exact (shown_bound (reachable_framesSound h.reachable) hb).1
        · exact h.forms l hl
  · simp only [Plugin.onGuard, openFrameManagementForm, Guard.call, findBoundFrameListing, hr]
    exact hkept fs

theorem enabled_tracked (h : Reachable settings db) : Tracked settings (enabled db) := by
  have hfresh : Tracked settings { guard := restoreFrameListingIndex db } :=
    ⟨h, fun _ hl => absurd hl List.not_mem_nil, fun _ hf => absurd hf List.not_mem_nil,
      fun _ _ hc => absurd hc (by simp)⟩
  exact hfresh.elsewhere (restoreMarkets_elsewhere _)

private theorem Tracked.queues (h : Tracked settings p) {e : FrameEvent} (hp : e.Possible p)
    {address : FrameAddress} {callback : Callback} (hq : e.Queues p address callback) :
    Follows p.guard.db address.targetKey callback := by
  cases e with
  | leftClick player block adopted =>
    obtain ⟨listing, rfl⟩ := hq
    trivial
  | rightClick player block held onFrame prototype adopted =>
    obtain ⟨-, rfl | ⟨rfl, -⟩⟩ := hq
    · exact fun l hl => absurd hl (by simp)
    · trivial
  | changePrice player listing =>
    obtain ⟨rfl, rfl⟩ := hq
    intro l hl
    obtain rfl := Option.some.inj hl
    exact ⟨h.forms listing hp, rfl⟩
  | submitPrice player form priceCents =>
    obtain ⟨rfl, sellerUuid, sellerName, priceCents, rfl, hseller⟩ := hq
    exact fun l hl => ⟨h.priceForms form hp l hl, hseller l hl⟩
  | confirmPurchase player listing =>
    obtain rfl := hq
    trivial
  | _ => exact hq.elim

theorem Tracked.change {queued : FrameAddress → Callback → Prop} {opened : Market → Prop}
    (h : Tracked settings p)
    (hq : ∀ {address callback}, queued address callback → Follows p.guard.db address.targetKey callback)
    (hc : Change settings queued opened p q) : Tracked settings q := by
  cases hc with
  | tends ht => exact h.elsewhere (elsewhere_tended ht)
  | queues ht site playerUuid hqueued =>
    refine (h.elsewhere (elsewhere_tended ht)).queued site _ playerUuid ((hq hqueued).imp fun l hl => ?_)
    exact hl.later ht.db.later h.reachable
  | activates hopened => exact h.elsewhere (activate_elsewhere _ p)
  | deactivates id preserveOrders => exact h.elsewhere (deactivate_elsewhere id preserveOrders p)

theorem Tracked.answer {c : Capture} {isOp : Bool} (h : Tracked settings p)
    (hf : Follows p.guard.db c.address.targetKey c.callback) (ha : Answer settings c isOp p q) :
    Tracked settings q := by
  cases ha with
  | changes hc => exact h.change (fun hqueued => hqueued.elim) hc
  | opensPrice item hc =>
    refine ⟨h.reachable, h.forms, fun f hform => ?_, h.captures⟩
    rcases List.mem_cons.mp hform with rfl | hform
    · rw [hc] at hf
      exact hf
    · exact h.priceForms f hform
  | reviews ht listing => exact (h.elsewhere (elsewhere_tended ht)).elsewhere ⟨.refl, rfl, rfl, rfl⟩
  | saves hc hi => exact h.elsewhere (submitPrice_elsewhere _ isOp p)

private theorem captured_tracked (h : Tracked settings p) (targetKey : String) (player : Option Player)
    (item : Option (Option ItemPrototype)) (blockItem : Option ItemPrototype) (adopted : Bool) :
    Tracked settings (completeItemFrameCapture settings targetKey player item blockItem adopted p) := by
  obtain hsame | ⟨c, hc, hdone⟩ :=
    (@completeItemFrameCapture_cases settings) targetKey player item blockItem adopted p
  · rw [hsame]
    exact h
  · obtain ⟨rfl, hfollows⟩ := h.captures targetKey c hc
    have hfreed := h.freed c.address.targetKey
    rcases hdone with hsame | ⟨isOp, ha⟩
    · rw [hsame]
      exact hfreed
    · exact hfreed.answer hfollows ha

theorem Tracked.run (h : Tracked settings p) (e : FrameEvent) (site : Site) (hp : e.Possible p) :
    Tracked settings (e.run settings site p) := by
  cases e with
  | openManagement player listing => exact h.managed player.uuid player.isOp listing
  | captured targetKey player item blockItem adopted =>
    exact captured_tracked h targetKey player item blockItem adopted
  | service c => exact h.elsewhere ⟨Later.call c p.guard.faults rfl, rfl, rfl, rfl⟩
  | restarted => exact enabled_tracked h.reachable
  | _ => exact h.change (h.queues hp) (FrameEvent.change _ site p trivial)

theorem Tracked.met (h : Tracked settings p) (faults : List Fault) : Tracked settings (p.meets faults) :=
  h.elsewhere ⟨.refl, rfl, rfl, rfl⟩

private theorem flowRun_tracked (h : FlowRun settings ok db p) : Tracked settings p := by
  induction h with
  | enabled h => exact enabled_tracked h
  | happened _ e site hp _ ih => exact ((ih.met site.faults).run e site hp).met []

private theorem flowRun_faultless (h : FlowRun settings ok db p) : p.guard.faults = [] := by
  cases h with
  | enabled => exact congrArg Guard.faults (enabled_same db).1
  | happened => rfl

end Tracking

section Replacing

/-- An active listing that is canceled afterwards. -/
def Cancels (db db' : Db) (id : Id) : Prop :=
  (∃ row, db.frameListings.get? id = some row ∧ row.status = .active) ∧
    ∃ row', db'.frameListings.get? id = some row' ∧ row'.status = .canceled

/-- A saved price cancels the listing its target is bound to and no other. -/
theorem upsertFrameListingTx_cancels {draft : FrameListingRow} {administrator : Bool} {saved : FrameListing}
    (h : upsertFrameListingTx draft administrator db = .ok (saved, db')) :
    saved.sellerUuid = draft.sellerUuid ∧
      ∀ id, Cancels db db' id → db.frameListingBindings.find? draft.targetKey = some id := by
  simp only [upsertFrameListingTx, bind_ok, select_ok, exists_eq_left'] at h
  cases hb : boundListing draft.targetKey db with
  | none =>
    simp only [hb] at h
    obtain ⟨rfl, rfl⟩ := Prod.mk.inj (insertListing_ok.mp h)
    refine ⟨rfl, ?_⟩
    rintro id ⟨⟨row, hrow, ha⟩, row', hrow', hc⟩
    obtain rfl : row = row' := Option.some.inj ((Table.get?_insert_old _ hrow).symm.trans hrow')
    rw [ha] at hc
    cases hc
  | some current =>
    simp only [hb, updateListing, unbindListing, bind_ok, throwIf_ok, execute_ok, exists_eq_left',
      exists_and_left, and_assoc, not_not] at h
    obtain ⟨-, -, hi⟩ := h
    obtain ⟨rfl, rfl⟩ := Prod.mk.inj (insertListing_ok.mp hi)
    refine ⟨rfl, ?_⟩
    rintro id ⟨⟨row, hrow, ha⟩, row', hrow', hc⟩
    by_cases hid : id = current.id
    · rw [hid]
      exact (boundListing_some hb).1
    · have hold : (db.frameListings.update current.id fun l => { l with status := .canceled }).get? id =
          some row := (Table.get?_update_ne _ _ hid).trans hrow
      obtain rfl : row = row' := Option.some.inj ((Table.get?_insert_old _ hold).symm.trans hrow')
      rw [ha] at hc
      cases hc

private theorem upsertFrameListingTx_canceled {draft : FrameListingRow} {administrator : Bool} {saved : FrameListing}
    (hI : FramesSound db) (h : upsertFrameListingTx draft administrator db = .ok (saved, db')) {id : Id}
    {row : FrameListingRow} (hrow : db.frameListings.get? id = some row) (ha : row.status = .active)
    (ht : row.targetKey = draft.targetKey) : Cancels db db' id := by
  refine ⟨⟨row, hrow, ha⟩, ?_⟩
  have hbound : db.frameListingBindings.find? draft.targetKey = some id := ht ▸ find?_open hI hrow (.inl ha)
  simp only [upsertFrameListingTx, bind_ok, select_ok, exists_eq_left'] at h
  cases hb : boundListing draft.targetKey db with
  | none =>
    rw [boundListing_none hI hb] at hbound
    cases hbound
  | some current =>
    simp only [hb, updateListing, unbindListing, bind_ok, throwIf_ok, execute_ok, exists_eq_left',
      exists_and_left, and_assoc, not_not] at h
    obtain ⟨-, -, hi⟩ := h
    obtain ⟨-, rfl⟩ := Prod.mk.inj (insertListing_ok.mp hi)
    obtain rfl : current.id = id := Option.some.inj ((boundListing_some hb).1.symm.trans hbound)
    refine ⟨{ row with status := .canceled }, Table.get?_insert_old _ ?_, rfl⟩
    change (db.frameListings.update current.id _).get? current.id = _
    rw [Table.get?_update_self, hrow]
    rfl

/-- The last capture of a price form that was opened for a listing ends in a saved listing. -/
structure Reprices (settings : Settings) (p : Plugin) (targetKey : String) (listing : FrameListing)
    (player : Player) (item : ItemPrototype) (saved : FrameListing) : Prop where
  runs : ∃ address shown sellerUuid sellerName priceCents db',
    p.captures targetKey = some ⟨address, player.uuid,
      .savePrice shown (some listing) sellerUuid sellerName priceCents⟩ ∧
    sameItem shown item ∧ p.targetIndex address.targetKey = none ∧
    upsertFrameListing settings (draftListing address shown sellerUuid sellerName priceCents) player.isOp []
      p.guard.db = (.returned saved, [], db')

/-- The plugin once the capture was read. -/
def readCapture (settings : Settings) (targetKey : String) (player : Player) (item : ItemPrototype)
    (p : Plugin) : Plugin :=
  (FrameEvent.captured targetKey (some player) (some (some item)) none false).run settings {} p

/-- What the save of `listing`'s price form may cancel. -/
def ReplacesShown (db db' : Db) (listing saved : FrameListing) : Prop :=
  ∀ id, Cancels db db' id → id = listing.id ∧
    ∀ row, db.frameListings.get? id = some row → saved.sellerUuid = row.sellerUuid

def NoneNewer (db : Db) (listing : FrameListing) : Prop :=
  ∀ id row, db.frameListings.get? id = some row → row.targetKey = listing.targetKey →
    row.status = .active → id ≤ listing.id

private theorem read_saved {targetKey : String} {player : Player} {item shown : ItemPrototype}
    {address : FrameAddress} {existing : Option FrameListing} {sellerUuid sellerName : String}
    {priceCents : Cents} {saved : FrameListing} (hc : p.captures targetKey = some ⟨address, player.uuid,
      .savePrice shown existing sellerUuid sellerName priceCents⟩) (hs : sameItem shown item = true)
    (hf : p.targetIndex address.targetKey = none) (hfaults : p.guard.faults = [])
    (hrun : upsertFrameListing settings (draftListing address shown sellerUuid sellerName priceCents)
      player.isOp [] p.guard.db = (.returned saved, [], db')) :
    (readCapture settings targetKey player item p).guard.db = db' := by
  have hsaved : (FrameGuard.submitPrice settings (draftListing address shown sellerUuid sellerName priceCents)
      player.isOp p.guard).db = db' := by
    rw [FrameGuard.submitPrice, Guard.call_returned hfaults hrun]
    rfl
  simp only [readCapture, FrameEvent.run, completeItemFrameCapture, hc, if_true, callBack, hf,
    Option.any_some, hs, not_true, if_false, Option.isSome_none, Bool.false_eq_true]
  exact hsaved

/-- A price form replaces the listing it was opened for exactly if no newer one is active. -/
theorem reprice_replaces_shown (h : FlowRun settings ok db p) {targetKey : String} {listing : FrameListing}
    {player : Player} {item : ItemPrototype} {saved : FrameListing}
    (hr : Reprices settings p targetKey listing player item saved) :
    ReplacesShown p.guard.db (readCapture settings targetKey player item p).guard.db listing saved ↔
      NoneNewer p.guard.db listing := by
  have htracked := flowRun_tracked h
  obtain ⟨address, shown, sellerUuid, sellerName, priceCents, db', hc, hs, hf, hrun⟩ := hr.runs
  obtain ⟨hkey, hfollows⟩ := htracked.captures _ _ hc
  obtain ⟨⟨hshown, htarget⟩, hseller⟩ := hfollows listing rfl
  have hI := reachable_framesSound htracked.reachable
  rw [read_saved hc hs hf (flowRun_faultless h) hrun]
  obtain ⟨db₁, saved', db'', hsame, hok, hrun'⟩ | ⟨e, db'', -, hrun'⟩ :=
    (@upsertFrameListing_cases settings) (draftListing address shown sellerUuid sellerName priceCents)
      player.isOp p.guard.db
  · rw [hrun] at hrun'
    cases hrun'
    have hdraft : (draftListing address shown sellerUuid sellerName priceCents).targetKey =
        listing.targetKey := hkey.trans htarget.symm
    have hcancels : ∀ id, Cancels p.guard.db db' id ↔ Cancels db₁ db' id := by
      intro id
      rw [Cancels, Cancels, hsame.listings]
    constructor
    · intro hreplaces id row hrow ht ha
      have hcanceled := upsertFrameListingTx_canceled (hsame.sound hI) hok
        (by rw [hsame.listings]; exact hrow) ha (ht.trans hdraft.symm)
      exact (hreplaces id ((hcancels id).mpr hcanceled)).1.le
    · intro hnewer id hcanceled
      obtain ⟨hsold, hbound⟩ := upsertFrameListingTx_cancels hok
      have hfound := hbound id ((hcancels id).mp hcanceled)
      rw [hsame.bindings, hdraft] at hfound
      obtain ⟨⟨row, hrow, ha⟩, -⟩ := hcanceled
      obtain ⟨row₁, hrow₁, -, ht⟩ := (hI.bound _ _).mp hfound
      obtain rfl : row₁ = row := Option.some.inj (hrow₁.symm.trans hrow)
      obtain ⟨first, hfirst, -, hsame_seller, hid⟩ := hshown
      have heq : id = listing.id := le_antisymm (hnewer id row₁ hrow ht ha) (hid id hfound)
      refine ⟨heq, fun row hr => ?_⟩
      obtain rfl : first = row := by
        rw [heq, hfirst] at hr
        exact Option.some.inj hr
      rw [hsold, hsame_seller]
      exact hseller
  · rw [hrun] at hrun'
    cases hrun'

end Replacing

/-- The operator opens a price form for the listing that alice sells. -/
def repriceEvents : List (FrameEvent × Site) :=
  listDiamond alice 500 ++ manageListing operator ++
    [(.changePrice operator shownListing, {}), readDiamond operator]

def submitReprice : FrameEvent × Site :=
  (.submitPrice operator ⟨"operator", listingAddress shownListing, diamond, some shownListing⟩ 900, {})

/-- Meanwhile alice withdraws her listing and bob lists the same item. -/
def relistEvents : List (FrameEvent × Site) :=
  manageListing alice ++ [cancelListing alice] ++ listDiamond bob 700

def repriced (saved : Id) : FrameListing :=
  { draftListing (frameAddress sampleFrame) diamond "alice" "alice" 900 with id := saved }

theorem reprice_replaces_shown_sample :
    FlowRun sampleSettings (fun _ _ => True) {} (afterEvents sampleSettings (repriceEvents ++ [submitReprice])) ∧
    NoneNewer (afterEvents sampleSettings (repriceEvents ++ [submitReprice])).guard.db shownListing ∧
    ReplacesShown (afterEvents sampleSettings (repriceEvents ++ [submitReprice])).guard.db
      (readCapture sampleSettings (blockTargetKey sampleFrame) operator diamond
        (afterEvents sampleSettings (repriceEvents ++ [submitReprice]))).guard.db shownListing (repriced 2) := by
  have hrun : FlowRun sampleSettings (fun _ _ => True) {}
      (afterEvents sampleSettings (repriceEvents ++ [submitReprice])) := by
    refine afterEvents_run ?_
    exact ⟨trivial, trivial, trivial, trivial, List.Mem.head _, trivial, trivial, trivial, trivial, trivial,
      trivial, trivial, List.Mem.head _, trivial, trivial, trivial, List.Mem.head _, trivial, trivial⟩
  have hnewer : NoneNewer (afterEvents sampleSettings (repriceEvents ++ [submitReprice])).guard.db
      shownListing := by
    intro id row hrow _ _
    have hlt := (Table.lt_nextId hrow).2
    exact Nat.le_of_lt_succ hlt
  refine ⟨hrun, hnewer, (reprice_replaces_shown hrun ⟨?_⟩).mpr hnewer⟩
  exact ⟨_, _, _, _, _, _, rfl, rfl, rfl, rfl⟩

/-- The operator's form is submitted for alice's withdrawn listing and takes bob's item from him. -/
theorem reprice_cancels_newer : ∃ p, FlowRun sampleSettings (fun _ _ => True) {} p ∧
    Reprices sampleSettings p (blockTargetKey sampleFrame) shownListing operator diamond (repriced 3) ∧
    (∃ row, p.guard.db.frameListings.get? 2 = some row ∧ row.status = .active ∧ row.sellerUuid = "bob") ∧
    (∃ row, (readCapture sampleSettings (blockTargetKey sampleFrame) operator diamond p).guard.db.frameListings.get?
      2 = some row ∧ row.status = .canceled) ∧
    (∃ row, (readCapture sampleSettings (blockTargetKey sampleFrame) operator diamond p).guard.db.frameListings.get?
      3 = some row ∧ row.status = .active ∧ row.sellerUuid = "alice") ∧
    ¬ ReplacesShown p.guard.db (readCapture sampleSettings (blockTargetKey sampleFrame) operator diamond p).guard.db
      shownListing (repriced 3) := by
  refine ⟨afterEvents sampleSettings (repriceEvents ++ relistEvents ++ [submitReprice]), ?_, ⟨?_⟩,
    ⟨_, rfl, rfl, rfl⟩, ⟨_, rfl, rfl⟩, ⟨_, rfl, rfl, rfl⟩, ?_⟩
  · refine afterEvents_run ?_
    exact ⟨trivial, trivial, trivial, trivial, List.Mem.head _, trivial, trivial, trivial, trivial, trivial,
      trivial, trivial, List.Mem.head _, trivial, trivial, trivial, trivial, trivial, trivial, trivial,
      List.Mem.head _, trivial, trivial, trivial, trivial, trivial, List.Mem.head _, trivial, trivial, trivial,
      List.Mem.tail _ (List.Mem.head _), trivial, trivial⟩
  · exact ⟨_, _, _, _, _, _, rfl, rfl, rfl, rfl⟩
  · intro hreplaces
    exact absurd (hreplaces 2 ⟨⟨_, rfl, rfl⟩, _, rfl, rfl⟩).1 (by decide)

end EndstoneExchange.FrameRepricing
