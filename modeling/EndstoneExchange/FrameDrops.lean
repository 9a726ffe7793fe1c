import EndstoneExchange.FrameListingLedger

/-!
# Drops of paid frame listings

A paid listing is settled by clearing its frame and dropping the marked item. The
passes know the status of the listing and the drops that are in sight; a drop
that is out of sight is made again.
-/
namespace EndstoneExchange.FrameDrops
open AutoIncrementTables KeyedTables AtomicTransactions.Transaction DurablePrograms ExchangeDomain
  ExchangeTransactions AccountOperations FrameListingOperations ClearingSteps ClearingRefinement
  ServiceRuns FrameListingLedger

/-- A structure capture in flight, for the callback of a settlement or of its verification. -/
inductive Capture
  | settlement (listingId : Id)
  | verification (listingId : Id)
  deriving DecidableEq

def Capture.listingId : Capture → Id
  | settlement listingId => listingId
  | verification listingId => listingId

/-- The database, the marked drops that getActors returns, `pending_frame_settlements_`, the
captures in flight and how many drops were created for each listing. -/
structure Settlement where
  db : Db
  actors : List Id := []
  pending : List Id := []
  captures : List Capture := []
  drops : Id → ℕ := fun _ => 0

/-- What a handler meets: a loaded chunk, a frame at the listing's place, a world that refuses
the change it attempts, and the faults of its database calls. -/
structure Site where
  loaded : Bool
  frame : Bool
  refused : Bool
  faults : List Fault

/-- What a capture reads: nothing, the listed item, or another one or none. -/
inductive Reading | failed | same | other

section Handlers
variable (settings : Settings) (site : Site)

def Settlement.settled (w : Settlement) (listingId : Id) : Settlement :=
  { w with pending := w.pending.filter (· ≠ listingId) }

/-- An exception of the call is only logged. -/
def Settlement.markDropped (w : Settlement) (listingId : Id) : Settlement :=
  { w with db := (Call.markFrameListingDropped listingId).leaves settings site.faults w.db }

def Settlement.dropItem (w : Settlement) (listingId : Id) : Settlement :=
  { w with actors := listingId :: w.actors, drops := Function.update w.drops listingId (w.drops listingId + 1) }

@[simp] theorem dropItem_self (w : Settlement) (listingId : Id) :
    (w.dropItem listingId).drops listingId = w.drops listingId + 1 := Function.update_self ..

@[simp] theorem dropItem_ne {id listingId : Id} (h : id ≠ listingId) (w : Settlement) :
    (w.dropItem listingId).drops id = w.drops id := Function.update_of_ne h ..

def spawnFrameSaleDrop (listingId : Id) (w : Settlement) : Settlement :=
  if listingId ∈ w.actors then (w.markDropped settings site listingId).settled listingId
  else if site.refused then w.settled listingId
  else ((w.dropItem listingId).markDropped settings site listingId).settled listingId

def settleFrameListing (listing : FrameListing) (w : Settlement) : Settlement :=
  if listing.status ≠ .paid ∧ listing.status ≠ .dropped then w
  else if listing.id ∈ w.actors then (w.markDropped settings site listing.id).settled listing.id
  else if listing.id ∈ w.pending then w
  else if site.loaded = false then w
  else if site.frame = false then spawnFrameSaleDrop settings site listing.id w
  else { w with pending := listing.id :: w.pending, captures := .settlement listing.id :: w.captures }

/-- The callback of settleFrameListing; a frame that still shows the item is cleared and read again. -/
def settlementCaptured (reading : Reading) (listingId : Id) (w : Settlement) : Settlement :=
  match reading with
  | .failed => w.settled listingId
  | .other => spawnFrameSaleDrop settings site listingId w
  | .same =>
    if site.frame = false then spawnFrameSaleDrop settings site listingId w
    else if site.refused then w.settled listingId
    else { w with captures := .verification listingId :: w.captures }

/-- The callback of verifyFrameClearedAndDrop. -/
def verificationCaptured (reading : Reading) (listingId : Id) (w : Settlement) : Settlement :=
  match reading with
  | .failed =>
    if site.frame = false then spawnFrameSaleDrop settings site listingId w else w.settled listingId
  | .same => w.settled listingId
  | .other => spawnFrameSaleDrop settings site listingId w

/-- A refused pickup, by the service or because the marker stays, leaves the drop in the world. -/
def onPlayerPickupItem (listingId : Id) (w : Settlement) : Settlement :=
  match (do markFrameListingDropped listingId; completeFrameListingPickup listingId : Program Db Error PUnit)
    site.faults w.db with
  | (.returned _, _, db) =>
    if site.refused then { w with db } else { w with db, actors := w.actors.erase listingId }
  | (_, _, db) => { w with db }

def recoverFrameListings (sites : Id → Site) (w : Settlement) : Settlement :=
  (unsettled w.db).foldl (fun w listing => settleFrameListing settings (sites listing.id) listing w) w

inductive Event
  | settle (site : Site) (listingId : Id)
  | recover (sites : Id → Site)
  | captured (site : Site) (reading : Reading) (capture : Capture)
  | pickUp (site : Site) (listingId : Id)
  | world (actors : List Id)
  | restart
  | service (c : Call) (faults : List Fault)

def Event.run : Event → Settlement → Settlement
  | settle site listingId => fun w =>
    match w.db.frameListings.get? listingId with
    | none => w
    | some row => settleFrameListing settings site (frameListingFromRow listingId row) w
  | recover sites => recoverFrameListings settings sites
  | captured site reading capture => fun w =>
    let w := { w with captures := w.captures.erase capture }
    match capture with
    | .settlement listingId => settlementCaptured settings site reading listingId w
    | .verification listingId => verificationCaptured settings site reading listingId w
  | pickUp site listingId => onPlayerPickupItem site listingId
  | world actors => fun w => { w with actors }
  | restart => fun w => { w with pending := [], captures := [] }
  | service c faults => fun w => { w with db := c.leaves settings faults w.db }

end Handlers

/-- The calls that the handlers above make themselves. -/
def Delivers : Call → Prop
  | .markFrameListingDropped _ => True
  | .completeFrameListingPickup _ => True
  | _ => False

/-- A callback belongs to a capture, a pickup to a drop in sight, and only drops that were
created come into sight. -/
def Event.Possible (w : Settlement) : Event → Prop
  | captured _ _ capture => capture ∈ w.captures
  | pickUp _ listingId => listingId ∈ w.actors
  | world actors => ∀ listingId ∈ actors, 0 < w.drops listingId
  | service c _ => ¬ Delivers c
  | _ => True

section Conditions
variable (w : Settlement)

/-- A pass that comes to drop the item of a listing at once. -/
def Reaches (site : Site) (listingId : Id) : Prop :=
  (∃ row, w.db.frameListings.get? listingId = some row ∧ (row.status = .paid ∨ row.status = .dropped)) ∧
    listingId ∉ w.pending ∧ site.loaded = true ∧ site.frame = false ∧ site.refused = false

/-- The readings after which a callback comes to drop the item. -/
def Capture.Reaches (site : Site) (reading : Reading) : Capture → Prop
  | settlement _ => (reading = .other ∨ reading = .same ∧ site.frame = false) ∧ site.refused = false
  | verification _ => (reading = .other ∨ reading = .failed ∧ site.frame = false) ∧ site.refused = false

/-- The listings whose item an event is about to drop, unless it sees a drop of them. -/
def Event.Reaches : Event → Id → Prop
  | settle site listingId => fun id => id = listingId ∧ FrameDrops.Reaches w site id
  | recover sites => fun id => FrameDrops.Reaches w (sites id) id
  | captured site reading capture => fun id => id = capture.listingId ∧ capture.Reaches site reading
  | _ => fun _ => False

/-- Where an item is about to be dropped, an earlier drop of its listing is in sight. -/
def Event.InSight (a : Event) : Prop := ∀ id, a.Reaches w id → 0 < w.drops id → id ∈ w.actors

end Conditions

/-- Runs from the migrated database, each event satisfying `ok` where it starts. -/
inductive DropRun (settings : Settings) (ok : Settlement → Event → Prop) : Settlement → Prop
  | start : DropRun settings ok { db := {} }
  | next {w : Settlement} (h : DropRun settings ok w) (a : Event) (hp : a.Possible w) (ha : ok w a) :
      DropRun settings ok (a.run settings w)

section Counts
variable {settings : Settings} {site : Site} {w w' w'' : Settlement} {id : Id} {c c' : Prop}

/-- A drop of the listing was created exactly where `c` holds. -/
def Counts (w w' : Settlement) (id : Id) (c : Prop) : Prop :=
  c ∧ w'.drops id = w.drops id + 1 ∨ ¬ c ∧ w'.drops id = w.drops id

theorem Counts.congr (h : Counts w w' id c) (hc : c ↔ c') : Counts w w' id c' := by
  rwa [Counts, hc] at h

theorem Counts.none (h : w'.drops id = w.drops id) (hc : ¬ c) : Counts w w' id c := .inr ⟨hc, h⟩

theorem spawnFrameSaleDrop_counts (listingId : Id) (w : Settlement) (id : Id) :
    Counts w (spawnFrameSaleDrop settings site listingId w) id
      (id = listingId ∧ id ∉ w.actors ∧ site.refused = false) := by
  rw [spawnFrameSaleDrop]
  split_ifs with hseen hrefused
  · exact .none rfl fun h => h.2.1 (h.1 ▸ hseen)
  · exact .none rfl fun h => by simp [hrefused] at h
  · by_cases hid : id = listingId
    · subst hid
      exact .inl ⟨⟨rfl, hseen, by simpa using hrefused⟩, Function.update_self ..⟩
    · exact .none (Function.update_of_ne hid ..) fun h => hid h.1

theorem settleFrameListing_counts (listing : FrameListing) (w : Settlement) (id : Id) :
    Counts w (settleFrameListing settings site listing w) id (id = listing.id ∧ id ∉ w.actors ∧
      (listing.status = .paid ∨ listing.status = .dropped) ∧ id ∉ w.pending ∧ site.loaded = true ∧
        site.frame = false ∧ site.refused = false) := by
  rw [settleFrameListing]
  split_ifs with hstatus hseen hpending hloaded hframe
  · exact .none rfl fun h => h.2.2.1.elim hstatus.1 hstatus.2
  · exact .none rfl fun h => h.2.1 (h.1 ▸ hseen)
  · exact .none rfl fun h => h.2.2.2.1 (h.1 ▸ hpending)
  · exact .none rfl fun h => by simp [hloaded] at h
  · have hopen := (not_and_or.mp hstatus).imp not_not.mp not_not.mp
    refine (spawnFrameSaleDrop_counts listing.id w id).congr ?_
    constructor
    · rintro ⟨rfl, hnot, hrefused⟩
      exact ⟨rfl, hnot, hopen, hpending, by simpa using hloaded, hframe, hrefused⟩
    · rintro ⟨rfl, hnot, -, -, -, -, hrefused⟩
      exact ⟨rfl, hnot, hrefused⟩
  · exact .none rfl fun h => hframe h.2.2.2.2.2.1

/-- What another listing's settlement leaves alone. -/
structure SameFor (id : Id) (w w' : Settlement) : Prop where
  actors : id ∈ w'.actors ↔ id ∈ w.actors
  pending : id ∈ w'.pending ↔ id ∈ w.pending
  drops : w'.drops id = w.drops id

private theorem spawnFrameSaleDrop_other {listingId : Id} (h : id ≠ listingId) (w : Settlement) :
    SameFor id w (spawnFrameSaleDrop settings site listingId w) := by
  rw [spawnFrameSaleDrop]
  split_ifs
  · exact ⟨.rfl, by simp [Settlement.settled, Settlement.markDropped, h], rfl⟩
  · exact ⟨.rfl, by simp [Settlement.settled, h], rfl⟩
  · exact ⟨by simp [Settlement.settled, Settlement.markDropped, Settlement.dropItem, h],
      by simp [Settlement.settled, Settlement.markDropped, Settlement.dropItem, h],
      Function.update_of_ne h ..⟩

private theorem settleFrameListing_other {listing : FrameListing} (h : id ≠ listing.id) (w : Settlement) :
    SameFor id w (settleFrameListing settings site listing w) := by
  rw [settleFrameListing]
  split_ifs
  · exact ⟨.rfl, .rfl, rfl⟩
  · exact ⟨.rfl, by simp [Settlement.settled, Settlement.markDropped, h], rfl⟩
  · exact ⟨.rfl, .rfl, rfl⟩
  · exact ⟨.rfl, .rfl, rfl⟩
  · exact spawnFrameSaleDrop_other h w
  · exact ⟨.rfl, by simp [h], rfl⟩

/-- A pass over listings with different ids counts each of them by itself. -/
theorem settle_foldl_counts (sites : Id → Site) (listings : List FrameListing)
    (hids : (listings.map (·.id)).Nodup) (hs : ∀ l ∈ listings, l.status = .paid ∨ l.status = .dropped)
    (w : Settlement) (id : Id) :
    Counts w (listings.foldl (fun w l => settleFrameListing settings (sites l.id) l w) w) id
      (id ∈ listings.map (·.id) ∧ id ∉ w.actors ∧ id ∉ w.pending ∧ (sites id).loaded = true ∧
        (sites id).frame = false ∧ (sites id).refused = false) := by
  induction listings generalizing w with
  | nil => exact .none rfl (by simp)
  | cons l listings ih =>
    rw [List.map_cons, List.nodup_cons] at hids
    have hrest := ih hids.2 (fun l hl => hs l (List.mem_cons_of_mem _ hl))
      (settleFrameListing settings (sites l.id) l w)
    rw [List.foldl_cons]
    by_cases hid : id = l.id
    · subst hid
      have hfirst := @settleFrameListing_counts settings (sites l.id) l w l.id
      have hcond := hs l (List.mem_cons_self ..)
      have hlater : ¬ (l.id ∈ listings.map (·.id)) := hids.1
      obtain ⟨⟨hin, -⟩, -⟩ | ⟨-, hdrops⟩ := hrest
      · exact absurd hin hlater
      · rw [Counts, hdrops]
        refine hfirst.congr ?_
        simp only [List.map_cons, List.mem_cons, true_or, true_and, hcond]
    · have hsame := @settleFrameListing_other settings (sites l.id) id l hid w
      rw [Counts, ← hsame.drops, ← hsame.actors, ← hsame.pending]
      refine hrest.congr ?_
      simp only [List.map_cons, List.mem_cons, hid, false_or]

private theorem mem_unsettled {db : Db} : id ∈ (unsettled db).map (·.id) ↔
    ∃ row, db.frameListings.get? id = some row ∧ (row.status = .paid ∨ row.status = .dropped) := by
  simp only [unsettled, List.map_map, List.mem_map, List.mem_filter, Prod.exists, Table.mem_entries,
    decide_eq_true_eq, Function.comp]
  constructor
  · rintro ⟨i, row, hrow, rfl⟩
    exact ⟨row, hrow⟩
  · rintro ⟨row, hrow⟩
    exact ⟨id, row, hrow, rfl⟩

private theorem unsettled_nodup (db : Db) : ((unsettled db).map (·.id)).Nodup := by
  have hids : (unsettled db).map (·.id) =
      (db.frameListings.entries.filter fun e => e.2.status = .paid ∨ e.2.status = .dropped).map Prod.fst := by
    rw [unsettled, List.map_map]
    rfl
  rw [hids]
  have hsorted := (db.frameListings.entries_sorted.filter
    fun e => e.2.status = .paid ∨ e.2.status = .dropped)
  exact (List.pairwise_map.mpr (hsorted.imp fun h => h)).imp fun h => h.ne

private theorem settlementCaptured_counts (reading : Reading) (listingId : Id) (w : Settlement) (id : Id) :
    Counts w (settlementCaptured settings site reading listingId w) id
      ((id = listingId ∧ (Capture.settlement listingId).Reaches site reading) ∧ id ∉ w.actors) := by
  cases reading with
  | failed => exact .none rfl fun h => by simp [Capture.Reaches] at h
  | other =>
    refine (spawnFrameSaleDrop_counts listingId w id).congr ?_
    simp only [Capture.Reaches, true_or, true_and]
    tauto
  | same =>
    rw [settlementCaptured]
    split_ifs with hframe
    · refine (spawnFrameSaleDrop_counts listingId w id).congr ?_
      simp only [Capture.Reaches, hframe, and_self, or_true, true_and]
      tauto
    · exact .none rfl fun h => by simp [Capture.Reaches, hframe] at h
    · exact .none rfl fun h => by simp [Capture.Reaches, hframe] at h

private theorem verificationCaptured_counts (reading : Reading) (listingId : Id) (w : Settlement) (id : Id) :
    Counts w (verificationCaptured settings site reading listingId w) id
      ((id = listingId ∧ (Capture.verification listingId).Reaches site reading) ∧ id ∉ w.actors) := by
  cases reading with
  | same => exact .none rfl fun h => by simp [Capture.Reaches] at h
  | other =>
    refine (spawnFrameSaleDrop_counts listingId w id).congr ?_
    simp only [Capture.Reaches, true_or, true_and]
    tauto
  | failed =>
    rw [verificationCaptured]
    split_ifs with hframe
    · refine (spawnFrameSaleDrop_counts listingId w id).congr ?_
      simp only [Capture.Reaches, hframe, and_self, or_true, true_and]
      tauto
    · exact .none rfl fun h => by simp [Capture.Reaches, hframe] at h

/-- Exactly the listings an event reaches without seeing a drop get another one. -/
theorem Event.counts (a : Event) (w : Settlement) (id : Id) :
    Counts w (a.run settings w) id (a.Reaches w id ∧ id ∉ w.actors) := by
  cases a with
  | settle site listingId =>
    cases hrow : w.db.frameListings.get? listingId with
    | none =>
      simp only [Event.run, hrow]
      refine .none rfl ?_
      rintro ⟨⟨rfl, ⟨row, hrow', -⟩, -⟩, -⟩
      rw [hrow] at hrow'
      cases hrow'
    | some row =>
      simp only [Event.run, hrow]
      refine (settleFrameListing_counts (frameListingFromRow listingId row) w id).congr ?_
      constructor
      · rintro ⟨rfl, hnot, hs, hrest⟩
        exact ⟨⟨rfl, ⟨row, hrow, hs⟩, hrest⟩, hnot⟩
      · rintro ⟨⟨rfl, ⟨row', hrow', hs⟩, hrest⟩, hnot⟩
        obtain rfl : row' = row := Option.some.inj (hrow'.symm.trans hrow)
        exact ⟨rfl, hnot, hs, hrest⟩
  | recover sites =>
    have hs : ∀ l ∈ unsettled w.db, l.status = .paid ∨ l.status = .dropped := by
      intro l hl
      obtain ⟨e, he, rfl⟩ := List.mem_map.mp hl
      exact of_decide_eq_true (List.mem_filter.mp he).2
    refine (settle_foldl_counts sites (unsettled w.db) (unsettled_nodup w.db) hs w id).congr ?_
    rw [mem_unsettled]
    constructor
    · rintro ⟨hrow, hnot, hrest⟩
      exact ⟨⟨hrow, hrest⟩, hnot⟩
    · rintro ⟨⟨hrow, hrest⟩, hnot⟩
      exact ⟨hrow, hnot, hrest⟩
  | captured site reading capture =>
    cases capture with
    | settlement listingId =>
      exact settlementCaptured_counts reading listingId
        { w with captures := w.captures.erase (.settlement listingId) } id
    | verification listingId =>
      exact verificationCaptured_counts reading listingId
        { w with captures := w.captures.erase (.verification listingId) } id
  | pickUp site listingId =>
    refine .none ?_ fun h => h.1
    change (onPlayerPickupItem site listingId w).drops id = w.drops id
    rw [onPlayerPickupItem]
    split
    · split_ifs <;> rfl
    · rfl
  | _ => exact .none rfl fun h => h.1

end Counts

section Records
variable {settings : Settings} {db db' start : Db} {id : Id}

/-- The listing has been recorded as dropped. -/
def Dropped (db : Db) (id : Id) : Prop := ∃ row, db.frameListings.get? id = some row ∧
  (row.status = .dropped ∨ row.status = .claimed)

/-- No listing was recorded as dropped since `start`, except `ids`. -/
def NoneDropped (except : Id → Prop) (start db : Db) : Prop :=
  ∀ id, Dropped db id → Dropped start id ∨ except id

variable {except : Id → Prop}

theorem NoneDropped.refl (db : Db) : NoneDropped except db db := fun _ h => .inl h

theorem NoneDropped.same (h : NoneDropped except start db) (hl : db'.frameListings = db.frameListings) :
    NoneDropped except start db' := by
  intro id hd
  rw [Dropped, hl] at hd
  exact h id hd

theorem NoneDropped.insert (h : NoneDropped except start db) {row : FrameListingRow}
    (hs : row.status = .active) (hl : db'.frameListings = db.frameListings.insert row) :
    NoneDropped except start db' := by
  rintro id ⟨r, hr, hd⟩
  rw [hl] at hr
  rcases Table.get?_insert_cases hr with ⟨-, rfl⟩ | ⟨-, hr⟩
  · rw [hs] at hd
    simp at hd
  · exact h id ⟨r, hr, hd⟩

theorem NoneDropped.update (h : NoneDropped except start db) {listingId : Id}
    {f : FrameListingRow → FrameListingRow}
    (hf : (∀ r, (f r).status ≠ .dropped ∧ (f r).status ≠ .claimed) ∨ except listingId)
    (hl : db'.frameListings = db.frameListings.update listingId f) : NoneDropped except start db' := by
  rintro id ⟨r, hr, hd⟩
  rw [hl] at hr
  rcases Table.get?_update_cases hr with ⟨rfl, r', -, rfl⟩ | ⟨-, hr⟩
  · rcases hf with hf | hf
    · exact absurd hd (not_or.mpr (hf r'))
    · exact .inr hf
  · exact h id ⟨r, hr, hd⟩

theorem transaction_noneDropped {α : Type} {body : Tx α}
    (h : ∀ db a db', NoneDropped except start db → body db = .ok (a, db') → NoneDropped except start db') :
    Keeps (NoneDropped except start) (transaction body) := Keeps.atomic h

theorem ensureAccount_noneDropped (playerUuid playerName : String) :
    Keeps (NoneDropped except start) (ensureAccount settings playerUuid playerName) := by
  refine Keeps.guard fun _ => Keeps.atomic fun db a db' hd hb => ?_
  have hsteps := @ensureAccountTx_steps settings (fun _ => False) _ _ _ _ _ hb
  exact hd.same (sameFrames_steps hsteps id).listings

theorem markFrameListingDropped_noneDropped (listingId : Id) :
    Keeps (NoneDropped (· = listingId) start) (markFrameListingDropped listingId) := by
  refine transaction_noneDropped fun db a db' hd h => ?_
  simp only [markFrameListingDroppedTx, updateListing, bind_ok, selectOne_ok, ite_ok, throwIf_ok,
    execute_ok, pure_ok, exists_eq_left', exists_and_left, exists_exists_and_eq_and, and_assoc,
    not_not] at h
  obtain ⟨l, -, ⟨-, hr⟩ | ⟨-, -, hr⟩⟩ := h
  · obtain ⟨-, rfl⟩ := Prod.mk.inj hr
    exact hd
  · obtain ⟨-, rfl⟩ := Prod.mk.inj hr
    exact hd.update (.inr rfl) rfl

private theorem completeFrameListingPickup_noneDropped (listingId : Id) :
    Keeps (NoneDropped (· = listingId) start) (completeFrameListingPickup listingId) := by
  refine transaction_noneDropped fun db a db' hd h => ?_
  simp only [completeFrameListingPickupTx, updateListing, unbindListing, bind_ok, selectOne_ok, ite_ok,
    throwIf_ok, execute_ok, pure_ok, exists_eq_left', exists_and_left, exists_exists_and_eq_and,
    and_assoc, not_and_or, not_not] at h
  obtain ⟨l, -, ⟨-, hr⟩ | ⟨-, -, hr⟩⟩ := h
  · obtain ⟨-, rfl⟩ := Prod.mk.inj hr
    exact hd
  · obtain ⟨-, rfl⟩ := Prod.mk.inj hr
    exact hd.update (.inr rfl) rfl

private theorem upsertFrameListingTx_noneDropped {listing : FrameListingRow} {administrator : Bool}
    {l : FrameListing} (hd : NoneDropped except start db)
    (h : upsertFrameListingTx listing administrator db = .ok (l, db')) : NoneDropped except start db' := by
  simp only [upsertFrameListingTx, bind_ok, select_ok, exists_eq_left'] at h
  cases hb : boundListing listing.targetKey db with
  | none =>
    simp only [hb] at h
    obtain ⟨-, rfl⟩ := Prod.mk.inj (insertListing_ok.mp h)
    exact hd.insert rfl rfl
  | some current =>
    simp only [hb, updateListing, unbindListing, bind_ok, throwIf_ok, execute_ok, exists_eq_left',
      exists_and_left, and_assoc] at h
    obtain ⟨-, -, hi⟩ := h
    obtain ⟨-, rfl⟩ := Prod.mk.inj (insertListing_ok.mp hi)
    have hcanceled : NoneDropped except start
        (Db.setListing db current.id fun l => { l with status := .canceled }) :=
      hd.update (.inl (by simp)) rfl
    exact hcanceled.insert rfl rfl

private theorem cancelFrameListingTx_noneDropped {listingId : Id} {requesterUuid : String} {administrator : Bool}
    {u : PUnit} (hd : NoneDropped except start db)
    (h : cancelFrameListingTx listingId requesterUuid administrator db = .ok (u, db')) :
    NoneDropped except start db' := by
  simp only [cancelFrameListingTx, updateListing, unbindListing, bind_ok, selectOne_ok, ite_ok,
    throwIf_ok, execute_ok, pure_ok, exists_eq_left', exists_and_left, exists_exists_and_eq_and,
    and_assoc] at h
  obtain ⟨l, -, ⟨-, hr⟩ | ⟨-, -, -, hr⟩⟩ := h
  · obtain ⟨-, rfl⟩ := Prod.mk.inj hr
    exact hd
  · obtain ⟨-, rfl⟩ := Prod.mk.inj hr
    exact hd.update (.inl (by simp)) rfl

private theorem purchaseFrameListingTx_noneDropped {listingId : Id} {buyerUuid buyerName : String} {price : Cents}
    {r : FramePurchaseResult} (hd : NoneDropped except start db)
    (h : purchaseFrameListingTx listingId buyerUuid buyerName price db = .ok (r, db')) :
    NoneDropped except start db' := by
  simp only [purchaseFrameListingTx, updateListing, bind_ok, selectOne_ok, select_ok, throwIf_ok,
    execute_ok, debit_ok, credit_ok, lockedBalance_ok, pure_ok, exists_eq_left', exists_and_left,
    exists_exists_and_eq_and, and_assoc, not_not] at h
  obtain ⟨l, -, -, -, -, -, -, -, -, -, -, -, _, -, _, -, hr⟩ := h
  obtain ⟨-, rfl⟩ := Prod.mk.inj hr
  exact hd.update (.inl (by simp)) rfl

/-- Only the handlers' own calls record a drop. -/
theorem service_noneDropped {c : Call} (hc : ¬ Delivers c) (faults : List Fault)
    (hp : EscrowsPlaceable db) : NoneDropped except db (c.leaves settings faults db) := by
  have hother : ¬ c.Allows .changeFrames → NoneDropped except db (c.leaves settings faults db) := fun ha =>
    (NoneDropped.refl db).same
      (sameFrames_steps (@Call.leaves_follows settings _ c faults hp).1 ha).listings
  have hdone : ∀ {α : Type} {x : Program Db Error α}, Keeps (NoneDropped except db) x →
      Keeps (NoneDropped except db) (do let _ ← x) := fun h => h.bind fun _ => Keeps.pure
  cases c with
  | upsertFrameListing listing administrator =>
    refine Keeps.final (hdone (Keeps.guard fun _ => ?_)) faults (.refl db)
    exact (ensureAccount_noneDropped _ _).bind fun _ =>
      transaction_noneDropped fun _ _ _ hd h => upsertFrameListingTx_noneDropped hd h
  | cancelFrameListing =>
    exact Keeps.final (transaction_noneDropped fun _ _ _ hd h => cancelFrameListingTx_noneDropped hd h)
      faults (.refl db)
  | purchaseFrameListing =>
    refine Keeps.final (hdone (Keeps.guard fun _ => ?_)) faults (.refl db)
    exact (ensureAccount_noneDropped _ _).bind fun _ =>
      transaction_noneDropped fun _ _ _ hd h => purchaseFrameListingTx_noneDropped hd h
  | markFrameListingDropped => exact absurd trivial hc
  | completeFrameListingPickup => exact absurd trivial hc
  | _ => exact hother id

end Records

section Runs
variable {settings : Settings} {site : Site} {w : Settlement} {listingId : Id}

/-- Drops in sight and listings recorded as dropped have had their drop created. -/
structure Sighted (w : Settlement) : Prop where
  placeable : EscrowsPlaceable w.db
  actors : ∀ id ∈ w.actors, 0 < w.drops id
  dropped : ∀ id, Dropped w.db id → 0 < w.drops id

/-- New records of drops belong to listings whose drop exists. -/
theorem Sighted.recorded (h : Sighted w) {db : Db} (hp : EscrowsPlaceable db)
    (hd : NoneDropped (· = listingId) w.db db) (hone : 0 < w.drops listingId) : Sighted { w with db } := by
  refine ⟨hp, h.actors, fun id hid => ?_⟩
  obtain hold | rfl := hd id hid
  · exact h.dropped id hold
  · exact hone

theorem Sighted.settled (h : Sighted w) (listingId : Id) : Sighted (w.settled listingId) :=
  ⟨h.placeable, h.actors, h.dropped⟩

theorem Sighted.markDropped (h : Sighted w) (hone : 0 < w.drops listingId) :
    Sighted (w.markDropped settings site listingId) :=
  h.recorded (@Call.leaves_follows settings _ (.markFrameListingDropped listingId) site.faults h.placeable).2
    ((markFrameListingDropped_noneDropped listingId).final site.faults (.refl w.db)) hone

theorem Sighted.dropItem (h : Sighted w) (listingId : Id) : Sighted (w.dropItem listingId) := by
  have hgrows : ∀ id, 0 < w.drops id → 0 < (w.dropItem listingId).drops id := by
    intro id hid
    by_cases he : id = listingId
    · rw [he, dropItem_self]
      exact Nat.succ_pos _
    · rwa [dropItem_ne he]
  refine ⟨h.placeable, fun id hid => ?_, fun id hid => hgrows id (h.dropped id hid)⟩
  rcases List.mem_cons.mp hid with rfl | hid
  · rw [dropItem_self]
    exact Nat.succ_pos _
  · exact hgrows id (h.actors id hid)

theorem Sighted.spawn (h : Sighted w) (listingId : Id) :
    Sighted (spawnFrameSaleDrop settings site listingId w) := by
  rw [spawnFrameSaleDrop]
  split_ifs with hseen
  · exact (h.markDropped (h.actors _ hseen)).settled listingId
  · exact h.settled listingId
  · have hdrop := h.dropItem listingId
    exact (hdrop.markDropped (hdrop.actors _ (List.mem_cons_self ..))).settled listingId

theorem Sighted.settle (h : Sighted w) (listing : FrameListing) :
    Sighted (settleFrameListing settings site listing w) := by
  rw [settleFrameListing]
  split_ifs with _ hseen
  · exact h
  · exact (h.markDropped (h.actors _ hseen)).settled listing.id
  · exact h
  · exact h
  · exact h.spawn listing.id
  · exact ⟨h.placeable, h.actors, h.dropped⟩

theorem Sighted.settle_foldl (h : Sighted w) (sites : Id → Site) (listings : List FrameListing) :
    Sighted (listings.foldl (fun w l => settleFrameListing settings (sites l.id) l w) w) := by
  induction listings generalizing w with
  | nil => exact h
  | cons l listings ih => exact ih (h.settle l)

theorem Sighted.pickUp (h : Sighted w) (hseen : listingId ∈ w.actors) :
    Sighted (onPlayerPickupItem site listingId w) := by
  have hfollows : Keeps (Follows sampleSettings (fun _ => True) w.db)
      (do markFrameListingDropped listingId; completeFrameListingPickup listingId : Program Db Error PUnit) :=
    (transaction_follows fun _ _ _ _ => markFrameListingDroppedTx_steps trivial).bind fun _ =>
      transaction_follows fun _ _ _ _ => completeFrameListingPickupTx_steps trivial
  have hrecords : Keeps (NoneDropped (· = listingId) w.db)
      (do markFrameListingDropped listingId; completeFrameListingPickup listingId : Program Db Error PUnit) :=
    (markFrameListingDropped_noneDropped listingId).bind fun _ =>
      completeFrameListingPickup_noneDropped listingId
  have hfinal := (hfollows.and hrecords).final site.faults ⟨⟨.refl, h.placeable⟩, .refl w.db⟩
  have hdb := h.recorded hfinal.1.2 hfinal.2 (h.actors _ hseen)
  rw [onPlayerPickupItem]
  split
  · rename_i hrun
    rw [hrun] at hdb
    split_ifs
    · exact hdb
    · exact ⟨hdb.placeable, fun id hid => hdb.actors id (List.mem_of_mem_erase hid), hdb.dropped⟩
  · rename_i hrun
    rw [hrun] at hdb
    exact hdb

/-- Every possible event keeps the drops in sight and on record known. -/
theorem Sighted.run (h : Sighted w) (a : Event) (hp : a.Possible w) : Sighted (a.run settings w) := by
  cases a with
  | settle site listingId =>
    cases hrow : w.db.frameListings.get? listingId with
    | none =>
      simp only [Event.run, hrow]
      exact h
    | some row =>
      simp only [Event.run, hrow]
      exact h.settle _
  | recover sites => exact h.settle_foldl sites _
  | captured site reading capture =>
    have hrest : Sighted { w with captures := w.captures.erase capture } := ⟨h.placeable, h.actors, h.dropped⟩
    cases capture with
    | settlement listingId =>
      cases reading with
      | failed => exact hrest.settled listingId
      | other => exact hrest.spawn listingId
      | same =>
        simp only [Event.run, settlementCaptured]
        split_ifs
        · exact hrest.spawn listingId
        · exact hrest.settled listingId
        · exact ⟨h.placeable, h.actors, h.dropped⟩
    | verification listingId =>
      cases reading with
      | same => exact hrest.settled listingId
      | other => exact hrest.spawn listingId
      | failed =>
        simp only [Event.run, verificationCaptured]
        split_ifs
        · exact hrest.spawn listingId
        · exact hrest.settled listingId
  | pickUp site listingId => exact h.pickUp hp
  | world actors => exact ⟨h.placeable, hp, h.dropped⟩
  | restart => exact ⟨h.placeable, h.actors, h.dropped⟩
  | service c faults =>
    refine ⟨(@Call.leaves_follows settings _ c faults h.placeable).2, h.actors, fun id hid => ?_⟩
    obtain hold | hnone := @service_noneDropped settings _ (fun _ => False) c hp faults h.placeable id hid
    · exact h.dropped id hold
    · exact hnone.elim

private theorem sighted_start : Sighted { db := {} } :=
  ⟨fun _ _ he => by simp at he, nofun, fun _ ⟨_, hrow, _⟩ => by simp at hrow⟩

theorem DropRun.sighted {ok : Settlement → Event → Prop} (h : DropRun settings ok w) : Sighted w := by
  induction h with
  | start => exact sighted_start
  | next _ a hp _ ih => exact ih.run a hp

/-- One drop at most for every listing. -/
def Once (w : Settlement) : Prop := ∀ id, w.drops id ≤ 1

theorem once_iff_inSight (h : Once w) (a : Event) : Once (a.run settings w) ↔ a.InSight w := by
  constructor
  · intro hnext id hreach hone
    by_contra hnot
    have htwice := hnext id
    obtain ⟨-, hdrops⟩ | ⟨hno, -⟩ := @Event.counts settings a w id
    · omega
    · exact hno ⟨hreach, hnot⟩
  · intro hsight id
    obtain ⟨⟨hreach, hnot⟩, hdrops⟩ | ⟨-, hdrops⟩ := @Event.counts settings a w id
    · have hzero : w.drops id = 0 := Nat.eq_zero_of_not_pos fun hone => hnot (hsight id hreach hone)
      rw [hdrops, hzero]
    · rw [hdrops]
      exact h id

theorem DropRun.once (h : DropRun settings (fun w a => a.InSight w) w) : Once w := by
  induction h with
  | start => exact fun _ => Nat.zero_le 1
  | next _ a _ ha ih => exact (once_iff_inSight ih a).mpr ha

/-- As long as earlier drops are in sight where an item is about to be dropped, every listing is
dropped at most once, exactly once when that is on record, and no longer than that. -/
theorem item_dropped_once (h : DropRun settings (fun w a => a.InSight w) w) :
    (∀ id, w.drops id ≤ 1 ∧ (Dropped w.db id → w.drops id = 1)) ∧
      ∀ a : Event, a.Possible w → ((∀ id, (a.run settings w).drops id ≤ 1) ↔ a.InSight w) := by
  refine ⟨fun id => ⟨h.once id, fun hd => ?_⟩, fun a _ => once_iff_inSight h.once a⟩
  exact Nat.le_antisymm (h.once id) (h.sighted.dropped id hd)

end Runs

/-- A chunk that is loaded around a place where the frame is gone. -/
def brokenFrame : Site := { loaded := true, frame := false, refused := false, faults := [] }

def afterEvents (settings : Settings) (events : List Event) : Settlement :=
  events.foldl (fun w a => a.run settings w) { db := {} }

/-- Alice's frame is bought by bob and its item is dropped. -/
def soldEvents : List Event := soldCalls.map (Event.service · []) ++ [.settle brokenFrame 1]

theorem sold_run (ok : Settlement → Event → Prop)
    (hok : ∀ w, (∀ id, w.drops id = 0) → ∀ a, ok w a) :
    DropRun sampleSettings ok (afterEvents sampleSettings soldEvents) := by
  have hlisted := (DropRun.start.next (.service (.upsertFrameListing sampleListing false) []) id
    (hok _ (fun _ => rfl) _) : DropRun sampleSettings ok _)
  have hpaid := hlisted.next (.service (.purchaseFrameListing 1 "bob" "bob" 500) []) id
    (hok _ (fun _ => rfl) _)
  exact hpaid.next (.settle brokenFrame 1) trivial (hok _ (fun _ => rfl) _)

/-- The next recovery pass comes to the dropped item again and sees it. -/
def seenEvents : List Event := soldEvents ++ [.recover fun _ => brokenFrame]

theorem item_dropped_once_sold :
    (Event.recover fun _ => brokenFrame).Reaches (afterEvents sampleSettings soldEvents) 1 ∧
      Dropped (afterEvents sampleSettings seenEvents).db 1 ∧
      (afterEvents sampleSettings seenEvents).drops 1 = 1 := by
  have hrun := sold_run (fun w a => a.InSight w) fun w hzero a id _ hone =>
    absurd hone (by rw [hzero]; exact lt_irrefl 0)
  have hreaches : (Event.recover fun _ => brokenFrame).Reaches (afterEvents sampleSettings soldEvents) 1 :=
    ⟨⟨_, rfl, .inr rfl⟩, List.not_mem_nil, rfl, rfl, rfl⟩
  have hsight : (Event.recover fun _ => brokenFrame).InSight (afterEvents sampleSettings soldEvents) := by
    intro id _ hone
    by_cases hid : id = 1
    · subst hid
      exact List.Mem.head _
    · have hnone : (afterEvents sampleSettings soldEvents).drops id = 0 := Function.update_of_ne hid ..
      rw [hnone] at hone
      exact absurd hone (lt_irrefl 0)
  have hseen : DropRun sampleSettings (fun w a => a.InSight w) (afterEvents sampleSettings seenEvents) :=
    hrun.next (.recover fun _ => brokenFrame) trivial hsight
  have hdropped : Dropped (afterEvents sampleSettings seenEvents).db 1 := ⟨_, rfl, .inl rfl⟩
  exact ⟨hreaches, hdropped, ((item_dropped_once hseen).1 1).2 hdropped⟩

/-- The drop goes out of sight, and the next recovery pass creates it again. -/
theorem recovery_duplicates_drop : ∃ w, DropRun sampleSettings (fun _ _ => True) w ∧
    Dropped w.db 1 ∧ w.drops 1 = 1 ∧ (Event.recover fun _ => brokenFrame).Possible w ∧
      ((Event.recover fun _ => brokenFrame).run sampleSettings w).drops 1 = 2 := by
  have hsold := sold_run (fun _ _ => True) fun _ _ _ => trivial
  have hunloaded := hsold.next (.world []) nofun trivial
  exact ⟨_, hunloaded, ⟨_, rfl, .inl rfl⟩, rfl, trivial, rfl⟩

end EndstoneExchange.FrameDrops
