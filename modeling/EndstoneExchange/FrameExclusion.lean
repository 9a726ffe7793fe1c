import EndstoneExchange.FrameFlows
import EndstoneExchange.MarketLifecycle

/-!
# Frames are markets or listings

Neither binding table knows of the other. A save looks at the market index, a toggle
at the listing index when the exchanger is used and at the market index when its
capture is read; in between the capture keeps every save away from the frame. The
indexes miss what was bound by a call whose acknowledgement was lost.
-/
namespace EndstoneExchange.FrameExclusion
open AutoIncrementTables KeyedTables AtomicTransactions.Transaction DurablePrograms ExchangeDomain
  ExchangeTransactions AccountOperations MarketOperations FrameListingOperations ClearingSteps
  ClearingRefinement ServiceRuns FrameListingLedger FrameGuard FrameFlows MarketLifecycle Relation

variable {settings : Settings} {db db' : Db} {p : Plugin} {key : String}

section Listings

/-- Nothing is listed at the target. -/
def Unlisted (key : String) (db : Db) : Prop := db.frameListingBindings.find? key = none

theorem find?_unbound {bindings : KeyedTable String Id} (keep : String → Id → Bool)
    (h : bindings.find? key = none) : (bindings.filter keep).find? key = none := by
  rw [KeyedTable.find?_filter, h]
  rfl

private theorem cancelFrameListingTx_unlisted {listingId : Id} {requesterUuid : String} {administrator : Bool}
    {u : PUnit} (h : cancelFrameListingTx listingId requesterUuid administrator db = .ok (u, db'))
    (hn : Unlisted key db) : Unlisted key db' := by
  simp only [cancelFrameListingTx, updateListing, unbindListing, bind_ok, selectOne_ok, ite_ok,
    throwIf_ok, execute_ok, pure_ok, exists_eq_left', exists_and_left, exists_exists_and_eq_and,
    and_assoc, not_not] at h
  obtain ⟨l, -, ⟨-, hr⟩ | ⟨-, -, -, hr⟩⟩ := h
  · obtain ⟨-, rfl⟩ := Prod.mk.inj hr
    exact hn
  · obtain ⟨-, rfl⟩ := Prod.mk.inj hr
    exact find?_unbound _ hn

private theorem completeFrameListingPickupTx_unlisted {listingId : Id} {u : PUnit}
    (h : completeFrameListingPickupTx listingId db = .ok (u, db')) (hn : Unlisted key db) :
    Unlisted key db' := by
  simp only [completeFrameListingPickupTx, updateListing, unbindListing, bind_ok, selectOne_ok, ite_ok,
    throwIf_ok, execute_ok, pure_ok, exists_eq_left', exists_and_left, exists_exists_and_eq_and,
    and_assoc, not_and_or, not_not] at h
  obtain ⟨l, -, ⟨-, hr⟩ | ⟨-, -, hr⟩⟩ := h
  · obtain ⟨-, rfl⟩ := Prod.mk.inj hr
    exact hn
  · obtain ⟨-, rfl⟩ := Prod.mk.inj hr
    exact find?_unbound _ hn

/-- A transaction that settles the listings and lists nothing at the target. -/
theorem unlisted_transaction {α : Type} {body : Tx α}
    (hs : ∀ db a db', FramesSound db → body db = .ok (a, db') → Settles db db')
    (hn : ∀ db a db', FramesSound db → body db = .ok (a, db') → Unlisted key db → Unlisted key db') :
    Keeps (fun db => FramesSound db ∧ Unlisted key db) (transaction body) :=
  Keeps.atomic fun db a db' hI hb => ⟨(hs db a db' hI.1 hb).1, hn db a db' hI.1 hb hI.2⟩

theorem unlisted_ensured (playerUuid playerName : String) :
    Keeps (fun db => FramesSound db ∧ Unlisted key db) (ensureAccount settings playerUuid playerName) := by
  refine Keeps.guard fun _ => Keeps.atomic fun db a db' hI hb => ?_
  have hsteps := (@ensureAccountTx_steps settings (fun _ => False)) hb
  have hsame := sameFrames_steps hsteps id
  refine ⟨hsame.sound hI.1, ?_⟩
  rw [Unlisted, hsame.bindings]
  exact hI.2

private theorem tending_unlisted {c : Call} (hc : Tending c) (faults : List Fault) (hr : Reachable settings db)
    (hn : Unlisted key db) : Unlisted key (c.leaves settings faults db) := by
  have hI := reachable_framesSound hr
  have hother : ¬ c.Allows .changeFrames → Unlisted key (c.leaves settings faults db) := by
    intro ha
    have hsame := sameFrames_steps (@Call.leaves_follows settings _ c faults hr.escrowsPlaceable).1 ha
    rw [Unlisted, hsame.bindings]
    exact hn
  have hfinal : Keeps (fun db => FramesSound db ∧ Unlisted key db) (c.run settings) →
      Unlisted key (c.leaves settings faults db) := fun h => (h.final faults ⟨hI, hn⟩).2
  cases c with
  | upsertFrameListing listing administrator => exact absurd rfl (hc.1 listing administrator)
  | cancelFrameListing =>
    exact hfinal (unlisted_transaction (fun _ _ _ hI hb => cancelFrameListingTx_settles hI hb)
      fun _ _ _ _ hb => cancelFrameListingTx_unlisted hb)
  | purchaseFrameListing =>
    refine hfinal (Keeps.bind (Keeps.guard fun _ => ?_) fun _ => Keeps.pure)
    refine Keeps.bind (unlisted_ensured _ _) fun _ => ?_
    refine unlisted_transaction (fun _ _ _ hI hb => purchaseFrameListingTx_settles hI hb)
      fun _ _ _ hI hb hn => ?_
    rw [Unlisted, (purchaseFrameListingTx_binds hI hb).1]
    exact hn
  | markFrameListingDropped =>
    refine hfinal (unlisted_transaction (fun _ _ _ hI hb => markFrameListingDroppedTx_settles hI hb)
      fun _ _ _ hI hb hn => ?_)
    rw [Unlisted, (markFrameListingDroppedTx_marks hb).1]
    exact hn
  | completeFrameListingPickup =>
    exact hfinal (unlisted_transaction (fun _ _ _ hI hb => completeFrameListingPickupTx_settles hI hb)
      fun _ _ _ _ hb => completeFrameListingPickupTx_unlisted hb)
  | _ => exact hother id

theorem insertListing_target {listing : FrameListingRow} {saved : FrameListing}
    (h : insertListing listing db = .ok (saved, db')) : saved.targetKey = listing.targetKey := by
  obtain ⟨rfl, -⟩ := Prod.mk.inj (insertListing_ok.mp h)
  rfl

private theorem upsertFrameListingTx_target {draft : FrameListingRow} {administrator : Bool} {saved : FrameListing}
    (h : upsertFrameListingTx draft administrator db = .ok (saved, db')) :
    saved.targetKey = draft.targetKey := by
  simp only [upsertFrameListingTx, bind_ok, select_ok, exists_eq_left'] at h
  cases hb : boundListing draft.targetKey db with
  | none =>
    simp only [hb] at h
    exact insertListing_target h
  | some current =>
    simp only [hb, updateListing, unbindListing, bind_ok, throwIf_ok, execute_ok, exists_eq_left',
      exists_and_left, and_assoc, not_not] at h
    exact insertListing_target h.2.2

/-- A listing is saved at its own target only. -/
theorem upsertFrameListing_unlisted {draft : FrameListingRow} {isOp : Bool} (hk : draft.targetKey ≠ key)
    (faults : List Fault) (hr : Reachable settings db) (hn : Unlisted key db) :
    Unlisted key ((Call.upsertFrameListing draft isOp).leaves settings faults db) := by
  have hkeeps : Keeps (fun db => FramesSound db ∧ Unlisted key db)
      ((Call.upsertFrameListing draft isOp).run settings) := by
    refine Keeps.bind (Keeps.guard fun hc => ?_) fun _ => Keeps.pure
    have hprice : 0 < draft.priceCents := by
      simp only [not_or, not_le] at hc
      exact hc.2.2.2.2.1
    refine Keeps.bind (unlisted_ensured _ _) fun _ => ?_
    refine unlisted_transaction (fun _ _ _ hI hb => upsertFrameListingTx_settles hI hprice hb)
      fun _ _ _ hI hb hn => ?_
    rw [Unlisted, upsertFrameListingTx_binds hI hb, upsertFrameListingTx_target hb, if_neg (Ne.symm hk)]
    exact hn
  exact (hkeeps.final faults ⟨reachable_framesSound hr, hn⟩).2

/-- Tending leaves the markets alone and lists nothing. -/
theorem Tends.spares (h : Tends settings db db') (hr : Reachable settings db) :
    Reachable settings db' ∧ db'.targetBindings = db.targetBindings ∧
      (Unlisted key db → Unlisted key db') := by
  induction h with
  | refl => exact ⟨hr, rfl, id⟩
  | @tail db₁ db₂ _ hstep ih =>
    obtain ⟨c, faults, hc, rfl⟩ := hstep
    obtain ⟨hr₁, hbindings, hunlisted⟩ := ih
    have hsame := sameMarkets_steps (@Call.leaves_follows settings _ c faults hr₁.escrowsPlaceable).1 hc.2
    exact ⟨hr₁.call c faults, hsame.bindings.trans hbindings,
      fun hn => tending_unlisted hc faults hr₁ (hunlisted hn)⟩

end Listings

section Markets

/-- A reachable database with these target bindings. -/
structure Rebound (settings : Settings) (db : Db) (binds : String → Option Id) : Prop where
  reachable : Reachable settings db
  bindings : ∀ target, db.targetBindings.find? target = binds target

private theorem rebound_call (c : Call) (faults : List Fault) {binds : String → Option Id}
    (hr : Reachable settings db) (hc : c.leaves settings faults db = db')
    (hb : ∀ target, db'.targetBindings.find? target = binds target) : Rebound settings db' binds :=
  ⟨hc ▸ hr.call c faults, hb⟩

theorem activateMarketTx_binds {market : Market} {r : Id × Bool} (hI : Lifecycle settings db)
    (h : activateMarketTx settings market db = .ok (r, db')) : ∀ target,
      db'.targetBindings.find? target =
        if target = market.targetKey then some r.1 else db.targetBindings.find? target := by
  simp only [activateMarketTx, bind_ok, select_ok, selectOne_ok, throwIf_ok, exists_eq_left',
    exists_and_left, exists_exists_and_eq_and, and_assoc, not_or, not_not] at h
  obtain ⟨hnew, ⟨bookId, db₁⟩, hbook, book, -, -, -, -, hrest⟩ := h
  have hfree : db.targetBindings.find? market.targetKey = none := by simpa using hnew
  obtain ⟨-, books, rfl⟩ := upsertBook_ok hbook hI.books
  cases hres : resumableMarket { db with books } market bookId with
  | some i =>
    simp only [hres, switchMarket, bind_ok, execute_ok, pure_ok, exists_eq_left'] at hrest
    obtain ⟨⟨u, db₂⟩, hbind, hr⟩ := hrest
    obtain ⟨rfl, rfl⟩ := Prod.mk.inj hr
    rw [bindTarget_ok hbind]
    exact KeyedTable.find?_insert i hfree
  | none =>
    simp only [hres, bind_ok, select_ok, execute_ok, pure_ok, exists_eq_left'] at hrest
    obtain ⟨⟨u, db₂⟩, hbind, hr⟩ := hrest
    obtain ⟨rfl, rfl⟩ := Prod.mk.inj hr
    rw [bindTarget_ok hbind]
    exact KeyedTable.find?_insert _ hfree

/-- An activation binds its target to the market it returns, or does nothing. -/
theorem activateMarket_cases (hr : Reachable settings db) (market : Market) :
    (∃ activated db', activateMarket settings market [] db = (.returned activated, [], db') ∧
      activated.targetKey = market.targetKey ∧ Rebound settings db' fun target =>
        if target = market.targetKey then some activated.id else db.targetBindings.find? target) ∨
    ∃ e, activateMarket settings market [] db = (.threw e, [], db) := by
  by_cases hc : market.targetKey = "" ∨ market.dimensionName = "" ∨ market.item.type = "" ∨
      market.item.name = "" ∨ market.createdBy = ""
  · rw [activateMarket, if_pos hc]
    exact .inr ⟨_, rfl⟩
  · obtain ⟨⟨id, resumed⟩, db', hok, hrun⟩ | ⟨e, -, hrun⟩ := transaction_cases (activateMarketTx settings market) db
    · have hI' := activateMarketTx_lifecycle (reachable_lifecycle hr) hok
      have hbinds := activateMarketTx_binds (reachable_lifecycle hr) hok
      obtain ⟨row, hrow, -, htarget⟩ := (hI'.targets.bound _ _).mp ((hbinds market.targetKey).trans (if_pos rfl))
      have hfound : findMarket id db' = .ok (some (marketFromRow id row), db') := by
        simp only [findMarket, select_ok, hrow, Option.map_some]
      have hreturned : activateMarket settings market [] db = (.returned (marketFromRow id row), [], db') := by
        rw [activateMarket, if_neg hc]
        refine (Program.bind_returned hrun).trans ?_
        exact Program.bind_returned (transaction_returned hfound)
      have hleaves := discard_leaves (activateMarket settings market) [] db
      rw [hreturned] at hleaves
      exact .inl ⟨_, db', hreturned, htarget,
        rebound_call (.activateMarket market) [] hr hleaves hbinds⟩
    · refine .inr ⟨e, ?_⟩
      rw [activateMarket, if_neg hc]
      exact Program.bind_error hrun

/-- A market that is closed or retired takes its own binding with it. -/
theorem find?_unbindTarget (hI : Lifecycle settings db) {id : Id} {m : MarketRow}
    (hm : db.markets.get? id = some m) (target : String) :
    (db.targetBindings.filter fun key i => ¬ (key = m.targetKey ∧ i = id)).find? target =
      if db.targetBindings.find? target = some id then none else db.targetBindings.find? target := by
  rw [KeyedTable.find?_filter]
  cases hf : db.targetBindings.find? target with
  | none => rfl
  | some i =>
    by_cases hi : i = id
    · subst hi
      obtain ⟨m', hm', -, rfl⟩ := (hI.targets.bound _ _).mp hf
      obtain rfl : m' = m := Option.some.inj (hm'.symm.trans hm)
      simp
    · simp [hi]

theorem closeMarketTx_unbinds {id : Id} {u : PUnit} (hI : Lifecycle settings db)
    (h : closeMarketTx id db = .ok (u, db')) (target : String) : db'.targetBindings.find? target =
      if db.targetBindings.find? target = some id then none else db.targetBindings.find? target := by
  simp only [closeMarketTx, bind_ok, selectOne_ok, ite_ok, execute_ok, select_ok, throwIf_ok, switchMarket,
    unbindTarget, exists_eq_left', exists_and_left, exists_exists_and_eq_and, and_assoc] at h
  obtain ⟨m, hm, ⟨-, hr⟩ | ⟨-, -, hr⟩⟩ := h
  · obtain ⟨-, rfl⟩ := Prod.mk.inj hr
    rw [Db.setBindings_targetBindings, KeyedTable.find?_filter]
    cases hf : db.targetBindings.find? target with
    | none => rfl
    | some i => by_cases hi : i = id <;> simp [hi]
  · obtain ⟨-, rfl⟩ := Prod.mk.inj hr
    exact find?_unbindTarget hI hm target

theorem retireMarketTx_unbinds {id : Id} {u : PUnit} (hI : Lifecycle settings db)
    (h : retireMarketTx id db = .ok (u, db')) (target : String) : db'.targetBindings.find? target =
      if db.targetBindings.find? target = some id then none else db.targetBindings.find? target := by
  simp only [retireMarketTx, bind_ok, selectOne_ok, execute_ok, select_ok, throwIf_ok, switchMarket,
    unbindTarget, exists_eq_left', exists_and_left, exists_exists_and_eq_and, and_assoc] at h
  obtain ⟨m₀, -, _, -, m, hm, -, ⟨u₁, db₁⟩, hclose, -, hr⟩ := h
  obtain ⟨-, rfl⟩ := Prod.mk.inj hr
  have hsteps := (@closeOrders_steps settings (fun _ => False)) hclose
    marketOrders_spec.1 marketOrders_spec.2
  have hsame := sameMarkets_steps hsteps fun h => h
  rw [Db.setMarket_targetBindings, Db.setBindings_targetBindings, hsame.bindings]
  exact find?_unbindTarget hI hm target

/-- An activation that may fail binds no other target. -/
theorem activateMarket_unbound {market : Market} (hk : market.targetKey ≠ key) (faults : List Fault)
    (hr : Reachable settings db) (hn : db.targetBindings.find? key = none) :
    ((Call.activateMarket market).leaves settings faults db).targetBindings.find? key = none := by
  have hkeeps : Keeps (fun db => Lifecycle settings db ∧ db.targetBindings.find? key = none)
      ((Call.activateMarket market).run settings) := by
    refine Keeps.bind (Keeps.guard fun _ => ?_) fun _ => Keeps.pure
    refine Keeps.bind (Keeps.atomic fun db a db' hI h => ⟨activateMarketTx_lifecycle hI.1 h, ?_⟩) fun ⟨id, _⟩ => ?_
    · rw [activateMarketTx_binds hI.1 h, if_neg (Ne.symm hk)]
      exact hI.2
    · have hquery : Keeps (fun db => Lifecycle settings db ∧ db.targetBindings.find? key = none)
          (transaction (findMarket id)) := by
        refine Keeps.atomic fun db a db' hI h => ?_
        obtain ⟨-, rfl⟩ := Prod.mk.inj (select_ok.mp h)
        exact hI
      refine hquery.bind fun found => ?_
      cases found with
      | none => exact Keeps.throw
      | some m => exact Keeps.pure
  exact (hkeeps.final faults ⟨reachable_lifecycle hr, hn⟩).2

private theorem closeMarket_unbound (id : Id) (faults : List Fault) (hr : Reachable settings db)
    (hn : db.targetBindings.find? key = none) :
    ((Call.closeMarket id).leaves settings faults db).targetBindings.find? key = none := by
  have hkeeps : Keeps (fun db => Lifecycle settings db ∧ db.targetBindings.find? key = none)
      ((Call.closeMarket id).run settings) := by
    refine Keeps.atomic fun db a db' hI h => ⟨closeMarketTx_lifecycle hI.1 h, ?_⟩
    simp [closeMarketTx_unbinds hI.1 h, hI.2]
  exact (hkeeps.final faults ⟨reachable_lifecycle hr, hn⟩).2

private theorem retireMarket_unbound (id : Id) (faults : List Fault) (hr : Reachable settings db)
    (hn : db.targetBindings.find? key = none) :
    ((Call.retireMarket id).leaves settings faults db).targetBindings.find? key = none := by
  have hkeeps : Keeps (fun db => Lifecycle settings db ∧ db.targetBindings.find? key = none)
      ((Call.retireMarket id).run settings) := by
    refine Keeps.atomic fun db a db' hI h => ⟨retireMarketTx_lifecycle hI.1 h, ?_⟩
    simp [retireMarketTx_unbinds hI.1 h, hI.2]
  exact (hkeeps.final faults ⟨reachable_lifecycle hr, hn⟩).2

/-- A deactivation unbinds its market, or does nothing. -/
theorem deactivateMarket_cases (hr : Reachable settings db) (id : Id) (preserveOrders : Bool) :
    (∃ u db', (if preserveOrders then closeMarket id else retireMarket id) [] db = (.returned u, [], db') ∧
      Rebound settings db' fun target =>
        if db.targetBindings.find? target = some id then none else db.targetBindings.find? target) ∨
    ∃ e, (if preserveOrders then closeMarket id else retireMarket id) [] db = (.threw e, [], db) := by
  have hI := reachable_lifecycle hr
  cases preserveOrders with
  | true =>
    obtain ⟨u, db', hok, hrun⟩ | ⟨e, -, hrun⟩ := transaction_cases (closeMarketTx id) db
    · exact .inl ⟨u, db', hrun, rebound_call (.closeMarket id) [] hr (congrArg (·.2.2) hrun)
        (closeMarketTx_unbinds hI hok)⟩
    · exact .inr ⟨e, hrun⟩
  | false =>
    obtain ⟨u, db', hok, hrun⟩ | ⟨e, -, hrun⟩ := transaction_cases (retireMarketTx id) db
    · exact .inl ⟨u, db', hrun, rebound_call (.retireMarket id) [] hr (congrArg (·.2.2) hrun)
        (retireMarketTx_unbinds hI hok)⟩
    · exact .inr ⟨e, hrun⟩

end Markets

section Exclusion

/-- At a target no listing is bound beside a market, and none while a toggle waits for its capture. -/
structure Excluded (settings : Settings) (key : String) (p : Plugin) : Prop where
  reachable : Reachable settings p.guard.db
  free : p.guard.db.targetBindings.find? key = none ∨ Unlisted key p.guard.db
  pending : ∀ c, p.captures key = some c → c.callback = .toggle → Unlisted key p.guard.db
  captures : ∀ target c, p.captures target = some c → c.address.targetKey = target

theorem Excluded.tended (h : Excluded settings key p) {guard : Guard} (ht : Tended settings p.guard guard) :
    Excluded settings key { p with guard } := by
  obtain ⟨hr, hbindings, hunlisted⟩ := @Tends.spares _ _ _ key ht.db h.reachable
  refine ⟨hr, ?_, fun c hc ht => hunlisted (h.pending c hc ht), h.captures⟩
  rw [hbindings]
  exact h.free.imp id hunlisted

theorem Excluded.queued (h : Excluded settings key p) (site : Site) (address : FrameAddress)
    (playerUuid : String) {callback : Callback}
    (hq : address.targetKey = key → callback = .toggle → Unlisted key p.guard.db) :
    Excluded settings key (p.queue site address playerUuid callback) := by
  rcases p.queue_cases site address playerUuid callback with hp | hp
  · rw [hp]
    exact h
  · rw [hp]
    refine ⟨h.reachable, h.free, fun c hc ht => ?_, fun target c hc => ?_⟩
    · simp only [Function.update_apply] at hc
      split_ifs at hc with hkey
      · obtain rfl := Option.some.inj hc
        exact hq hkey.symm ht
      · exact h.pending c hc ht
    · simp only [Function.update_apply] at hc
      split_ifs at hc with hkey
      · obtain rfl := Option.some.inj hc
        exact hkey.symm
      · exact h.captures target c hc

theorem Excluded.freed (h : Excluded settings key p) (target : String) :
    Excluded settings key { p with captures := Function.update p.captures target none } := by
  refine ⟨h.reachable, h.free, fun c hc ht => ?_, fun t c hc => ?_⟩
  · simp only [Function.update_apply] at hc
    split_ifs at hc
    exact h.pending c hc ht
  · simp only [Function.update_apply] at hc
    split_ifs at hc
    exact h.captures t c hc

private theorem unlisted_call (c : Call) (ha : ¬ c.Allows .changeFrames) (faults : List Fault)
    (hr : Reachable settings db) (hn : Unlisted key db) : Unlisted key (c.leaves settings faults db) := by
  have hsteps := (@Call.leaves_follows settings _ c faults hr.escrowsPlaceable).1
  rw [Unlisted, (sameFrames_steps hsteps ha).bindings]
  exact hn

/-- A market call that may fail, and what its handler does with the indexes. -/
theorem Excluded.call (h : Excluded settings key p) {α : Type} {x : Program Db Error α}
    {done : α → Plugin → Plugin} (c : Call) (ha : ¬ c.Allows .changeFrames)
    (hx : (x p.guard.faults p.guard.db).2.2 = c.leaves settings p.guard.faults p.guard.db)
    (hfree : (c.leaves settings p.guard.faults p.guard.db).targetBindings.find? key = none ∨
      Unlisted key p.guard.db)
    (hdone : ∀ a q, Excluded settings key q → Excluded settings key (done a q)) :
    Excluded settings key (p.call x done) := by
  have hunlisted : Unlisted key p.guard.db → Unlisted key (c.leaves settings p.guard.faults p.guard.db) :=
    unlisted_call c ha p.guard.faults h.reachable
  obtain ⟨q, ⟨fs, rfl⟩, hp⟩ := Plugin.call_cases done hx
  have hleft : Excluded settings key (p.onGuard fun g =>
      { g with db := c.leaves settings p.guard.faults p.guard.db, faults := fs }) :=
    ⟨h.reachable.call c _, hfree.imp id hunlisted, fun c hc ht => hunlisted (h.pending c hc ht), h.captures⟩
  rcases hp with hp | ⟨a, hp⟩
  · rw [hp]
    exact hleft
  · rw [hp]
    exact hdone a _ hleft

theorem Excluded.activated (h : Excluded settings key p) {market : Market}
    (ha : market.targetKey = key → Unlisted key p.guard.db) :
    Excluded settings key (activate settings market p) := by
  refine h.call (.activateMarket market) (fun h => h) (discard_leaves _ _ _).symm ?_
    fun m q hq => ⟨hq.reachable, hq.free, hq.pending, hq.captures⟩
  by_cases hk : market.targetKey = key
  · exact .inr (ha hk)
  · exact h.free.imp_left (activateMarket_unbound hk _ h.reachable)

theorem Excluded.deactivated (h : Excluded settings key p) (id : Id) (preserveOrders : Bool) :
    Excluded settings key (deactivate id preserveOrders p) := by
  have hunindex : ∀ (u : PUnit) q, Excluded settings key q → Excluded settings key (unindexMarket id q) := by
    intro u q hq
    rw [unindexMarket]
    cases q.markets id with
    | none => exact hq
    | some m => exact ⟨hq.reachable, hq.free, hq.pending, hq.captures⟩
  rw [deactivate]
  cases p.markets id with
  | none => exact h
  | some m =>
    cases preserveOrders with
    | true =>
      have hfree := h.free.imp_left (closeMarket_unbound id p.guard.faults h.reachable)
      exact h.call (.closeMarket id) (fun h => h) rfl hfree hunindex
    | false =>
      have hfree := h.free.imp_left (retireMarket_unbound id p.guard.faults h.reachable)
      exact h.call (.retireMarket id) (fun h => h) rfl hfree hunindex

/-- A listing is saved where no market is bound and no capture waits. -/
theorem Excluded.saved (h : Excluded settings key p) (draft : FrameListingRow) (isOp : Bool)
    (hd : draft.targetKey = key → p.guard.db.targetBindings.find? key = none ∧ p.captures key = none) :
    Excluded settings key (p.onGuard (submitPrice settings draft isOp)) := by
  have hdb : (p.onGuard (submitPrice settings draft isOp)).guard.db =
      (Call.upsertFrameListing draft isOp).leaves settings p.guard.faults p.guard.db :=
    (submitPrice_leaves draft isOp p.guard).1
  have hsteps := (@Call.leaves_follows settings _ (.upsertFrameListing draft isOp) p.guard.faults
    h.reachable.escrowsPlaceable).1
  have hmarkets := sameMarkets_steps hsteps fun h => h
  have hkept : draft.targetKey ≠ key → Unlisted key p.guard.db →
      Unlisted key ((Call.upsertFrameListing draft isOp).leaves settings p.guard.faults p.guard.db) :=
    fun hk => upsertFrameListing_unlisted hk _ h.reachable
  constructor
  case reachable =>
    rw [hdb]
    exact h.reachable.call _ _
  case free =>
    rw [hdb, hmarkets.bindings]
    by_cases hk : draft.targetKey = key
    · exact .inl (hd hk).1
    · exact h.free.imp id (hkept hk)
  case pending =>
    intro c hc ht
    rw [hdb]
    by_cases hk : draft.targetKey = key
    · have hwaits := hc.symm.trans (hd hk).2
      cases hwaits
    · exact hkept hk (h.pending c hc ht)
  case captures => exact h.captures

end Exclusion

section Indexing

/-- `target_index_` and `markets_` name the market that is bound at a target. -/
structure Indexed (key : String) (p : Plugin) : Prop where
  agrees : p.targetIndex key = p.guard.db.targetBindings.find? key
  known : ∀ id, p.targetIndex key = some id ↔ ∃ m, p.markets id = some m ∧ m.targetKey = key

theorem Indexed.congr {q : Plugin} (h : Indexed key p) (hi : q.targetIndex = p.targetIndex)
    (hm : q.markets = p.markets) (hb : q.guard.db.targetBindings = p.guard.db.targetBindings) :
    Indexed key q := by
  constructor
  · rw [hi, hb]
    exact h.agrees
  · rw [hi, hm]
    exact h.known

theorem Indexed.activated (h : Indexed key p) (hr : Reachable settings p.guard.db)
    (hf : p.guard.faults = []) {market : Market} (ha : market.targetKey = key → p.targetIndex key = none) :
    Indexed key (activate settings market p) := by
  obtain ⟨m, db', hrun, hkey, hre⟩ | ⟨e, hrun⟩ := activateMarket_cases hr market
  · rw [activate, Plugin.call_returned hf hrun]
    have hown := (hre.bindings market.targetKey).trans (if_pos rfl)
    by_cases hk : market.targetKey = key
    · have hnone := ha hk
      subst hk
      constructor
      · change Function.update p.targetIndex m.targetKey (some m.id) market.targetKey = _
        rw [hkey, Function.update_self]
        exact hown.symm
      · intro id
        change Function.update p.targetIndex m.targetKey (some m.id) market.targetKey = some id ↔
          ∃ n, Function.update p.markets m.id (some m) id = some n ∧ n.targetKey = market.targetKey
        rw [hkey, Function.update_self, Function.update_apply]
        split_ifs with hid
        · simp [hid, hkey]
        · have hother := (h.known id).not.mp (by simp [hnone])
          simpa [Ne.symm hid] using hother
    · have hsame : Function.update p.targetIndex m.targetKey (some m.id) key = p.targetIndex key :=
        Function.update_of_ne (by rw [hkey]; exact Ne.symm hk) _ _
      have hbound := (hre.bindings key).trans (if_neg (Ne.symm hk))
      refine ⟨hsame.trans (h.agrees.trans hbound.symm), fun id => ?_⟩
      change Function.update p.targetIndex m.targetKey (some m.id) key = some id ↔
        ∃ n, Function.update p.markets m.id (some m) id = some n ∧ n.targetKey = key
      rw [hsame, Function.update_apply]
      split_ifs with hid
      · -- the id just bound elsewhere cannot be the one of this target
        subst hid
        have hne : p.targetIndex key ≠ some m.id := by
          intro hf
          rw [h.agrees, ← hbound] at hf
          obtain ⟨row, hrow, -, ht⟩ := ((reachable_lifecycle hre.reachable).targets.bound _ _).mp hf
          obtain ⟨row', hrow', -, ht'⟩ := ((reachable_lifecycle hre.reachable).targets.bound _ _).mp hown
          obtain rfl : row = row' := Option.some.inj (hrow.symm.trans hrow')
          exact hk (ht'.symm.trans ht)
        simp [hne, hkey, hk]
      · exact h.known id
  · rw [activate, Plugin.call_threw hf hrun]
    exact h.congr rfl rfl rfl

theorem Indexed.deactivated (h : Indexed key p) (hr : Reachable settings p.guard.db)
    (hf : p.guard.faults = []) (id : Id) (preserveOrders : Bool) :
    Indexed key (deactivate id preserveOrders p) := by
  rw [deactivate]
  cases hm : p.markets id with
  | none => exact h
  | some m =>
    obtain ⟨u, db', hrun, hre⟩ | ⟨e, hrun⟩ := deactivateMarket_cases hr id preserveOrders
    · simp only [Plugin.call_returned hf hrun, unindexMarket, Plugin.onGuard, hm]
      by_cases hk : m.targetKey = key
      · have hindex : p.targetIndex key = some id := (h.known id).mpr ⟨m, hm, hk⟩
        have hgone : Function.update p.targetIndex m.targetKey none key = none := by
          rw [hk, Function.update_self]
        refine ⟨hgone.trans ((hre.bindings key).trans (if_pos (h.agrees.symm.trans hindex))).symm, fun i => ?_⟩
        change Function.update p.targetIndex m.targetKey none key = some i ↔
          ∃ n, Function.update p.markets id none i = some n ∧ n.targetKey = key
        rw [hgone, Function.update_apply]
        split_ifs with hi
        · simp
        · have hother := (h.known i).not.mp (by simpa [hindex] using Ne.symm hi)
          simpa using hother
      · have hne : p.targetIndex key ≠ some id := by
          intro hf
          obtain ⟨n, hn, ht⟩ := (h.known id).mp hf
          obtain rfl : n = m := Option.some.inj (hn.symm.trans hm)
          exact hk ht
        have hsame : Function.update p.targetIndex m.targetKey none key = p.targetIndex key :=
          Function.update_of_ne (Ne.symm hk) _ _
        refine ⟨hsame.trans (h.agrees.trans ((hre.bindings key).trans (if_neg (h.agrees ▸ hne))).symm),
          fun i => ?_⟩
        change Function.update p.targetIndex m.targetKey none key = some i ↔
          ∃ n, Function.update p.markets id none i = some n ∧ n.targetKey = key
        rw [hsame, Function.update_apply]
        split_ifs with hi
        · simpa [hi] using hne
        · exact h.known i
    · rw [Plugin.call_threw hf hrun]
      exact h.congr rfl rfl rfl

end Indexing

section Restoring

/-- The two indexes hold exactly these markets. -/
structure Restored (markets : List Market) (p : Plugin) : Prop where
  known : ∀ id m, p.markets id = some m ↔ m ∈ markets ∧ m.id = id
  targeted : ∀ key id, p.targetIndex key = some id ↔ ∃ m ∈ markets, m.targetKey = key ∧ m.id = id

theorem Restored.index {markets : List Market} (h : Restored markets p) {market : Market}
    (hnew : ∀ n ∈ markets, n.id ≠ market.id ∧ n.targetKey ≠ market.targetKey) :
    Restored (markets ++ [market]) (indexMarket market p) := by
  constructor
  · intro id m
    change Function.update p.markets market.id (some market) id = some m ↔ _
    rw [Function.update_apply, List.mem_append, List.mem_singleton]
    split_ifs with hid
    · constructor
      · rintro hm
        obtain rfl := Option.some.inj hm
        exact ⟨.inr rfl, hid.symm⟩
      · rintro ⟨hm | rfl, he⟩
        · exact absurd (he.trans hid) (hnew m hm).1
        · rfl
    · rw [h.known]
      constructor
      · rintro ⟨hm, he⟩
        exact ⟨.inl hm, he⟩
      · rintro ⟨hm | rfl, he⟩
        · exact ⟨hm, he⟩
        · exact absurd he.symm hid
  · intro key id
    change Function.update p.targetIndex market.targetKey (some market.id) key = some id ↔ _
    rw [Function.update_apply]
    split_ifs with hkey
    · constructor
      · intro hid
        exact ⟨market, by simp, hkey.symm, Option.some.inj hid⟩
      · rintro ⟨m, hm, ht, rfl⟩
        rcases List.mem_append.mp hm with hm | hm
        · exact absurd (ht.trans hkey) (hnew m hm).2
        · rw [List.mem_singleton.mp hm]
    · rw [h.targeted]
      constructor
      · rintro ⟨m, hm, he⟩
        exact ⟨m, List.mem_append_left _ hm, he⟩
      · rintro ⟨m, hm, ht, he⟩
        rcases List.mem_append.mp hm with hm | hm
        · exact ⟨m, hm, ht, he⟩
        · rw [List.mem_singleton.mp hm] at ht
          exact absurd ht.symm hkey

private theorem restored_foldl {markets : List Market}
    (h : markets.Pairwise fun a b => a.id ≠ b.id ∧ a.targetKey ≠ b.targetKey) (hp : Restored [] p) :
    Restored markets (markets.foldl (fun p market => indexMarket market p) p) := by
  induction markets using List.reverseRecOn with
  | nil => exact hp
  | append_singleton markets market ih =>
    obtain ⟨hmarkets, -, hnew⟩ := List.pairwise_append.mp h
    rw [List.foldl_append]
    exact (ih hmarkets).index fun n hn => hnew n hn market (List.mem_singleton_self market)

theorem mem_activeMarkets (hI : Lifecycle settings db) {market : Market} :
    market ∈ activeMarkets db ↔ ∃ row, db.markets.get? market.id = some row ∧ row.active = true ∧
      market = marketFromRow market.id row := by
  simp only [activeMarkets, List.mem_map, List.mem_filter, Table.mem_entries, decide_eq_true_eq, Prod.exists]
  constructor
  · rintro ⟨id, row, ⟨hrow, ha, -⟩, rfl⟩
    exact ⟨row, hrow, ha, rfl⟩
  · rintro ⟨row, hrow, ha, he⟩
    have hbound := (hI.targets.bound row.targetKey market.id).mpr ⟨row, hrow, ha, rfl⟩
    refine ⟨market.id, row, ⟨hrow, ha, ?_⟩, he.symm⟩
    rw [List.any_eq_true]
    exact ⟨_, KeyedTable.find?_eq_some_iff.mp hbound, by simp⟩

private theorem activeMarkets_pairwise (hI : Lifecycle settings db) :
    (activeMarkets db).Pairwise fun a b => a.id ≠ b.id ∧ a.targetKey ≠ b.targetKey := by
  have hids : (activeMarkets db).Pairwise fun a b => a.id ≠ b.id := by
    refine List.pairwise_map.mpr (List.Pairwise.filter _ ?_)
    exact (Table.entries_sorted db.markets).imp fun h => h.ne
  refine hids.imp_of_mem fun {a b} ha hb hne => ⟨hne, fun ht => hne ?_⟩
  obtain ⟨m, hm, hact, hma⟩ := (mem_activeMarkets hI).mp ha
  obtain ⟨n, hn, hact', hnb⟩ := (mem_activeMarkets hI).mp hb
  have htarget : n.targetKey = m.targetKey := by
    rw [hma, hnb] at ht
    exact ht.symm
  exact hI.targets.one_active hm hn hact hact' htarget

theorem enabled_excluded (hr : Reachable settings db)
    (hfree : db.targetBindings.find? key = none ∨ Unlisted key db) : Excluded settings key (enabled db) := by
  obtain ⟨hguard, hcaptures⟩ := enabled_same db
  refine ⟨?_, ?_, fun c hc => ?_, fun target c hc => ?_⟩
  · rw [hguard]
    exact hr
  · rw [hguard]
    exact hfree
  · simp [hcaptures] at hc
  · simp [hcaptures] at hc

/-- The plugin is enabled with the indexes of the database. -/
theorem enabled_indexed (hr : Reachable settings db) : Indexed key (enabled db) := by
  have hI := reachable_lifecycle hr
  have hrestored : Restored (activeMarkets db) (enabled db) := by
    refine restored_foldl (activeMarkets_pairwise hI) ⟨fun id m => ?_, fun key id => ?_⟩ <;> simp
  constructor
  · refine Option.ext fun id => ?_
    rw [hrestored.targeted, (enabled_same db).1]
    refine Iff.trans ?_ (hI.targets.bound key id).symm
    constructor
    · rintro ⟨m, hm, ht, rfl⟩
      obtain ⟨row, hrow, ha, he⟩ := (mem_activeMarkets hI).mp hm
      rw [he] at ht
      exact ⟨row, hrow, ha, ht⟩
    · rintro ⟨row, hrow, ha, ht⟩
      exact ⟨marketFromRow id row, (mem_activeMarkets hI).mpr ⟨row, hrow, ha, rfl⟩, ht, rfl⟩
  · intro id
    rw [hrestored.targeted]
    constructor
    · rintro ⟨m, hm, ht, he⟩
      exact ⟨m, (hrestored.known id m).mpr ⟨hm, he⟩, ht⟩
    · rintro ⟨m, hm, ht⟩
      obtain ⟨hmem, he⟩ := (hrestored.known id m).mp hm
      exact ⟨m, hmem, ht, he⟩

end Restoring

section Events
variable {frame : Block} {calm : Prop}

/-- Where nothing fails, the indexes name the bound market besides. -/
structure Exclusive (settings : Settings) (calm : Prop) (key : String) (p : Plugin) : Prop
    extends Excluded settings key p where
  indexed : calm → Indexed key p

theorem Exclusive.congr {q : Plugin} (h : Exclusive settings calm key p) (hdb : q.guard.db = p.guard.db)
    (hcaptures : q.captures = p.captures) (hindex : q.targetIndex = p.targetIndex)
    (hmarkets : q.markets = p.markets) : Exclusive settings calm key q :=
  ⟨⟨hdb ▸ h.reachable, hdb ▸ h.free, hcaptures ▸ hdb ▸ h.pending, hcaptures ▸ h.captures⟩,
    fun hc => (h.indexed hc).congr hindex hmarkets (congrArg Db.targetBindings hdb)⟩

theorem Exclusive.tended (h : Exclusive settings calm key p) {guard : Guard}
    (ht : Tended settings p.guard guard) : Exclusive settings calm key { p with guard } :=
  ⟨h.toExcluded.tended ht, fun hc =>
    (h.indexed hc).congr rfl rfl (@Tends.spares _ _ _ key ht.db h.reachable).2.1⟩

theorem Exclusive.queued (h : Exclusive settings calm key p) (site : Site) (address : FrameAddress)
    (playerUuid : String) {callback : Callback}
    (hq : address.targetKey = key → callback = .toggle → Unlisted key p.guard.db) :
    Exclusive settings calm key (p.queue site address playerUuid callback) := by
  refine ⟨h.toExcluded.queued site address playerUuid hq, fun hc => ?_⟩
  rcases p.queue_cases site address playerUuid callback with hp | hp
  · rw [hp]
    exact h.indexed hc
  · rw [hp]
    exact (h.indexed hc).congr rfl rfl rfl

theorem Exclusive.activated (h : Exclusive settings calm key p) (hf : calm → p.guard.faults = [])
    {market : Market} (ha : market.targetKey = key → p.targetIndex key = none ∧ Unlisted key p.guard.db) :
    Exclusive settings calm key (activate settings market p) :=
  ⟨h.toExcluded.activated fun hk => (ha hk).2,
    fun hc => (h.indexed hc).activated h.reachable (hf hc) fun hk => (ha hk).1⟩

theorem Exclusive.deactivated (h : Exclusive settings calm key p) (hf : calm → p.guard.faults = [])
    (id : Id) (preserveOrders : Bool) : Exclusive settings calm key (deactivate id preserveOrders p) :=
  ⟨h.toExcluded.deactivated id preserveOrders,
    fun hc => (h.indexed hc).deactivated h.reachable (hf hc) id preserveOrders⟩

theorem Exclusive.saved (h : Exclusive settings calm key p) (draft : FrameListingRow) (isOp : Bool)
    (hd : draft.targetKey = key → p.guard.db.targetBindings.find? key = none ∧ p.captures key = none) :
    Exclusive settings calm key (p.onGuard (submitPrice settings draft isOp)) := by
  refine ⟨h.toExcluded.saved draft isOp hd, fun hc => (h.indexed hc).congr rfl rfl ?_⟩
  have hsteps := (@Call.leaves_follows settings _ (.upsertFrameListing draft isOp) p.guard.faults
    h.reachable.escrowsPlaceable).1
  rw [Plugin.onGuard, (submitPrice_leaves draft isOp p.guard).1]
  exact (sameMarkets_steps hsteps fun h => h).bindings

theorem Exclusive.met (h : Exclusive settings calm key p) (faults : List Fault) :
    Exclusive settings calm key (p.meets faults) :=
  h.congr rfl rfl rfl rfl

/-- An operator who uses an exchanger on a listed frame finds it in the listing index. -/
def Shielded (frame : Block) (p : Plugin) : FrameEvent → Prop
  | .rightClick player block held _ _ _ => blockTargetKey block = blockTargetKey frame → held = .exchanger →
      player.isOp = true → p.guard.index (blockTargetKey frame) = none →
      p.guard.db.frameListingBindings.find? (blockTargetKey frame) = none
  | _ => True

/-- The last capture of a price form. -/
def Saves (c : Capture) : Prop := ∃ item existing sellerUuid sellerName priceCents,
  c.callback = .savePrice item existing sellerUuid sellerName priceCents

/-- A price that is saved for a market's frame finds the market in the market index. -/
def Recognized (frame : Block) (p : Plugin) : FrameEvent → Prop
  | .captured targetKey _ _ _ _ => targetKey = blockTargetKey frame → ∀ c, p.captures targetKey = some c →
      Saves c → p.targetIndex targetKey = none → p.guard.db.targetBindings.find? targetKey = none
  | _ => True

/-- Each index has the entry that its flow relies on. -/
def Protected (frame : Block) (p : Plugin) (e : FrameEvent) : Prop := Shielded frame p e ∧ Recognized frame p e

private theorem actorTargetKey_ne (dimensionName : String) (actorId : ℤ) (block : Block) :
    actorTargetKey dimensionName actorId ≠ blockTargetKey block := by
  intro h
  have hfirst := congrArg (fun key : String => key.toList.head?) h
  simp [actorTargetKey, blockTargetKey, String.toList_append] at hfirst

/-- A toggle is queued, and a market opened, only where no listing is bound. -/
private theorem Shielded.queues {e : FrameEvent} (hs : Shielded frame p e) {address : FrameAddress}
    {callback : Callback} (hq : e.Queues p address callback) (hk : address.targetKey = blockTargetKey frame)
    (ht : callback = .toggle) : Unlisted (blockTargetKey frame) p.guard.db := by
  subst ht
  cases e with
  | rightClick player block held onFrame prototype adopted =>
    obtain ⟨rfl, hprice | ⟨-, hheld, hop, hindex⟩⟩ := hq
    · cases hprice
    · exact hs hk hheld hop (hk ▸ hindex)
  | _ => simp [FrameEvent.Queues] at hq

private theorem Shielded.opens {e : FrameEvent} (hs : Shielded frame p e) {market : Market}
    (ho : e.Opens p market) (hk : market.targetKey = blockTargetKey frame) :
    p.targetIndex (blockTargetKey frame) = none ∧ Unlisted (blockTargetKey frame) p.guard.db := by
  cases e with
  | rightClick player block held onFrame prototype adopted =>
    obtain ⟨hkey, hheld, hop, hindex, hi⟩ := ho
    have hsame : blockTargetKey block = blockTargetKey frame := hkey.symm.trans hk
    exact ⟨hsame ▸ hi, hs hsame hheld hop (hsame ▸ hindex)⟩
  | toggleActor player tagged dimensionName actorId prototype =>
    exact absurd (ho.symm.trans hk) (actorTargetKey_ne dimensionName actorId frame)
  | _ => exact ho.elim

theorem Exclusive.change {queued : FrameAddress → Callback → Prop} {opened : Market → Prop} {q : Plugin}
    (h : Exclusive settings calm key p) (hf : calm → p.guard.faults = [])
    (hq : ∀ {address callback}, queued address callback → address.targetKey = key → callback = .toggle →
      Unlisted key p.guard.db)
    (ho : ∀ {market}, opened market → market.targetKey = key →
      p.targetIndex key = none ∧ Unlisted key p.guard.db)
    (hc : Change settings queued opened p q) : Exclusive settings calm key q := by
  cases hc with
  | tends ht => exact h.tended ht
  | queues ht site playerUuid hqueued =>
    refine (h.tended ht).queued site _ playerUuid fun hk htoggle => ?_
    exact (@Tends.spares _ _ _ key ht.db h.reachable).2.2 (hq hqueued hk htoggle)
  | activates hopened => exact h.activated hf (ho hopened)
  | deactivates id preserveOrders => exact h.deactivated hf id preserveOrders

private theorem managed_exclusive (h : Exclusive settings calm key p) (playerUuid : String) (isOp : Bool)
    (listing : FrameListing) :
    Exclusive settings calm key (p.onGuard (openFrameManagementForm playerUuid isOp listing)) :=
  h.congr (openFrameManagementForm_db playerUuid isOp listing p.guard) rfl rfl rfl

/-- A callback runs when its capture no longer waits. -/
theorem Exclusive.answer {c : Capture} {isOp : Bool} {q : Plugin} (h : Exclusive settings calm key p)
    (hf : calm → p.guard.faults = []) (hfreed : c.address.targetKey = key → p.captures key = none)
    (hn : c.address.targetKey = key → c.callback = .toggle → Unlisted key p.guard.db)
    (hs : c.address.targetKey = key → Saves c → p.targetIndex key = none →
      p.guard.db.targetBindings.find? key = none)
    (ha : Answer settings c isOp p q) : Exclusive settings calm key q := by
  cases ha with
  | changes hc =>
    refine h.change hf (fun hqueued => hqueued.elim) (fun hopened hk => ?_) hc
    obtain ⟨hkey, htoggle, hi⟩ := hopened
    have hsame : c.address.targetKey = key := hkey.symm.trans hk
    exact ⟨hsame ▸ hi, hn hsame htoggle⟩
  | opensPrice item hc => exact h.congr rfl rfl rfl rfl
  | reviews ht listing => exact (h.tended ht).congr rfl rfl rfl rfl
  | saves hc hi => exact h.saved _ isOp fun hk => ⟨hs hk ⟨_, _, _, _, _, hc⟩ (hk ▸ hi), hfreed hk⟩

private theorem captured_exclusive (h : Exclusive settings calm key p) (hf : calm → p.guard.faults = [])
    (targetKey : String) (player : Option Player) (item : Option (Option ItemPrototype))
    (blockItem : Option ItemPrototype) (adopted : Bool)
    (hs : targetKey = key → ∀ c, p.captures targetKey = some c → Saves c → p.targetIndex targetKey = none →
      p.guard.db.targetBindings.find? targetKey = none) :
    Exclusive settings calm key
      (completeItemFrameCapture settings targetKey player item blockItem adopted p) := by
  obtain hsame | ⟨c, hc, hdone⟩ :=
    (@completeItemFrameCapture_cases settings) targetKey player item blockItem adopted p
  · rw [hsame]
    exact h
  · obtain rfl := h.captures targetKey c hc
    have hfreed : Exclusive settings calm key
        { p with captures := Function.update p.captures c.address.targetKey none } :=
      ⟨h.toExcluded.freed c.address.targetKey, fun hc => (h.indexed hc).congr rfl rfl rfl⟩
    rcases hdone with hsame | ⟨isOp, ha⟩
    · rw [hsame]
      exact hfreed
    · refine hfreed.answer hf (fun hk => ?_) (fun hk ht => ?_) (fun hk hsaves hi => ?_) ha
      · change Function.update p.captures c.address.targetKey none key = none
        rw [hk, Function.update_self]
      · exact h.pending c (hk ▸ hc) ht
      · subst hk
        exact hs rfl c hc hsaves hi

theorem Exclusive.run (h : Exclusive settings calm (blockTargetKey frame) p) (e : FrameEvent) (site : Site)
    (hp : e.Possible p) (hf : calm → p.guard.faults = []) (hs : Shielded frame p e)
    (hr : calm ∨ Recognized frame p e) :
    Exclusive settings calm (blockTargetKey frame) (e.run settings site p) := by
  cases e with
  | openManagement player listing => exact managed_exclusive h player.uuid player.isOp listing
  | captured targetKey player item blockItem adopted =>
    refine captured_exclusive h hf targetKey player item blockItem adopted fun hk c hc hsaves hi => ?_
    rcases hr with hcalm | hr
    · subst hk
      exact (h.indexed hcalm).agrees.symm.trans hi
    · exact hr hk c hc hsaves hi
  | service c =>
    have hsteps := (@Call.leaves_follows settings _ c p.guard.faults h.reachable.escrowsPlaceable).1
    have hmarkets := sameMarkets_steps hsteps hp.2
    have hunlisted : Unlisted (blockTargetKey frame) p.guard.db →
        Unlisted (blockTargetKey frame) (c.leaves settings p.guard.faults p.guard.db) :=
      unlisted_call c hp.1 p.guard.faults h.reachable
    have hfree := h.free
    rw [← hmarkets.bindings] at hfree
    exact ⟨⟨h.reachable.call c _, hfree.imp id hunlisted, fun c hc ht => hunlisted (h.pending c hc ht),
      h.captures⟩, fun hc => (h.indexed hc).congr rfl rfl hmarkets.bindings⟩
  | restarted => exact ⟨enabled_excluded h.reachable h.free, fun _ => enabled_indexed h.reachable⟩
  | _ => exact h.change hf hs.queues hs.opens (FrameEvent.change _ site p trivial)

theorem flowRun_exclusive {ok : Plugin → FrameEvent → Prop} (h : FlowRun settings ok db p)
    (hok : ∀ p e, ok p e → (calm → p.guard.faults = []) ∧ Shielded frame p e ∧ (calm ∨ Recognized frame p e))
    (hfree : db.targetBindings.find? (blockTargetKey frame) = none ∨ Unlisted (blockTargetKey frame) db) :
    Exclusive settings calm (blockTargetKey frame) p := by
  induction h with
  | enabled hr => exact ⟨enabled_excluded hr hfree, fun _ => enabled_indexed hr⟩
  | happened _ e site hp he ih =>
    obtain ⟨hf, hs, hr⟩ := hok _ e he
    exact ((ih.met site.faults).run e site hp hf hs hr).met []

/-- Where no call of a handler fails, the market index always has its entry. -/
theorem faultless_recognized {ok : Plugin → FrameEvent → Prop} (h : FlowRun settings ok db p)
    (hok : ∀ p e, ok p e → p.guard.faults = [] ∧ Shielded frame p e)
    (hfree : db.targetBindings.find? (blockTargetKey frame) = none ∨ Unlisted (blockTargetKey frame) db) :
    FlowRun settings (Protected frame) db p := by
  induction h with
  | enabled hr => exact .enabled hr
  | happened h e site hp he ih =>
    have hexclusive : Exclusive settings True (blockTargetKey frame) _ :=
      flowRun_exclusive h (fun p e he => ⟨fun _ => (hok p e he).1, (hok p e he).2, .inl trivial⟩) hfree
    refine ih.happened e site hp ⟨(hok _ e he).2, ?_⟩
    cases e with
    | captured targetKey player item blockItem adopted =>
      rintro rfl c - - hi
      exact (hexclusive.indexed trivial).agrees.symm.trans hi
    | _ => trivial

end Events

/-- Along runs in which each index has the entry that its flow relies on, a frame is never a market
and a listing. -/
theorem frame_exclusion {frame : Block} (h : FlowRun settings (Protected frame) db p)
    (hfree : db.targetBindings.find? (blockTargetKey frame) = none ∨
      db.frameListingBindings.find? (blockTargetKey frame) = none) :
    ¬ ((p.guard.db.targetBindings.find? (blockTargetKey frame)).isSome ∧
      (p.guard.db.frameListingBindings.find? (blockTargetKey frame)).isSome) := by
  have hexclusive : Exclusive settings False (blockTargetKey frame) p :=
    flowRun_exclusive h (fun p e he => ⟨False.elim, he.1, .inr he.2⟩) hfree
  rintro ⟨hmarket, hlisting⟩
  rcases hexclusive.free with hnone | hunlisted
  · rw [hnone] at hmarket
    cases hmarket
  · rw [hunlisted] at hlisting
    cases hlisting

def useExchanger (player : Player) : FrameEvent × Site :=
  (.rightClick player sampleFrame .exchanger true none false, {})

/-- The frame becomes a market at the second try, is closed again and is listed. -/
def toggledEvents : List (FrameEvent × Site) :=
  [useExchanger operator, ((readDiamond operator).1, { faults := [.failBefore] }), useExchanger operator,
    readDiamond operator, useExchanger operator] ++ listDiamond alice 500

theorem frame_exclusion_toggled :
    ((afterEvents sampleSettings toggledEvents).guard.db.frameListingBindings.find?
      (blockTargetKey sampleFrame)).isSome ∧
    ¬ (((afterEvents sampleSettings toggledEvents).guard.db.targetBindings.find?
        (blockTargetKey sampleFrame)).isSome ∧
      ((afterEvents sampleSettings toggledEvents).guard.db.frameListingBindings.find?
        (blockTargetKey sampleFrame)).isSome) := by
  refine ⟨rfl, frame_exclusion (afterEvents_run ?_) (.inl rfl)⟩
  exact ⟨trivial, ⟨fun _ _ _ _ => rfl, trivial⟩, trivial, ⟨trivial, fun _ _ _ _ _ => rfl⟩,
    trivial, ⟨fun _ _ _ _ => rfl, trivial⟩, trivial, ⟨trivial, fun _ _ _ _ _ => rfl⟩,
    trivial, ⟨fun _ _ _ _ => rfl, trivial⟩, trivial, ⟨fun _ h _ _ => absurd h (by decide), trivial⟩,
    trivial, ⟨trivial, fun _ _ _ _ _ => rfl⟩, List.Mem.head _, ⟨trivial, trivial⟩,
    trivial, ⟨trivial, fun _ _ _ _ _ => rfl⟩, trivial⟩

/-- Alice withdraws her listing and lists the item again while the operator's form is open. -/
def exposedEvents : List (FrameEvent × Site) :=
  listDiamond alice 500 ++ manageListing operator ++ manageListing alice ++ [cancelListing alice] ++
    listDiamond alice 600 ++ [cancelListing operator]

/-- The frame becomes a market, but the market cannot be loaded again. -/
def lostEvents : List (FrameEvent × Site) :=
  [useExchanger operator, ((readDiamond operator).1, { faults := [.proceed, .failBefore] })]

/-- The operator's old cancel button hides the new listing, and the exchanger binds the frame twice; so
does alice's listing where the market index has missed the market. -/
theorem exchanger_binds_listed_frame :
    (∃ p, FlowRun sampleSettings (fun _ _ => True) {} p ∧
      p.guard.db.frameListingBindings.find? (blockTargetKey sampleFrame) = some 2 ∧
      p.guard.db.targetBindings.find? (blockTargetKey sampleFrame) = some 1 ∧
      (∃ l, p.guard.db.frameListings.get? 2 = some l ∧ l.status = .active) ∧
      (∃ m, p.guard.db.markets.get? 1 = some m ∧ m.active = true)) ∧
    ∃ p, FlowRun sampleSettings (Shielded sampleFrame) {} p ∧
      p.guard.db.frameListingBindings.find? (blockTargetKey sampleFrame) = some 1 ∧
      p.guard.db.targetBindings.find? (blockTargetKey sampleFrame) = some 1 ∧
      (∃ l, p.guard.db.frameListings.get? 1 = some l ∧ l.status = .active) ∧
      (∃ m, p.guard.db.markets.get? 1 = some m ∧ m.active = true) := by
  constructor
  · refine ⟨afterEvents sampleSettings (exposedEvents ++ [useExchanger operator, readDiamond operator]),
      afterEvents_run ?_, rfl, rfl, ⟨_, rfl, rfl⟩, ⟨_, rfl, rfl⟩⟩
    exact ⟨trivial, trivial, trivial, trivial, List.Mem.head _, trivial, trivial, trivial,
      trivial, trivial, trivial, trivial, trivial, trivial, trivial, trivial, List.Mem.head _, trivial,
      trivial, trivial, trivial, trivial, List.Mem.head _, trivial, trivial, trivial,
      List.Mem.tail _ (List.Mem.head _), trivial, trivial, trivial, trivial, trivial, trivial⟩
  · refine ⟨afterEvents sampleSettings (lostEvents ++ listDiamond alice 500),
      afterEvents_run ?_, rfl, rfl, ⟨_, rfl, rfl⟩, ⟨_, rfl, rfl⟩⟩
    exact ⟨trivial, fun _ _ _ _ => rfl, trivial, trivial, trivial, fun _ h _ _ => absurd h (by decide),
      trivial, trivial, List.Mem.head _, trivial, trivial, trivial, trivial⟩

end EndstoneExchange.FrameExclusion
