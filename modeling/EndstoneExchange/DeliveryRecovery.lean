import EndstoneExchange.DeliveryConservation

/-!
# Recovering claims

Every part of `claimDeliveries` keeps what the claims conserve, at each of its calls and
wherever it is stopped. Once no claim is open, nothing is tagged and nothing reserved.
-/
namespace EndstoneExchange.DeliveryRecovery
open AutoIncrementTables AtomicTransactions.Transaction DurablePrograms ExchangeDomain ExchangeTransactions
  NbtCodec DeliveryOperations DeliveryReservations SellEscrowOperations InventorySessions InventoryLoops
  DeliveryConservation LocalizedMessages
open InventoryEscrow hiding tagSellItems tagStacks restoreTaggedSellItems replaceTaggedSellItemsWithReceipts Tagged
open ServiceRuns hiding Follows Run
open AsciiNumerals (decimal)

variable {server : Server} {settings : Settings} {playerUuid : String} {start s : Session} {room : ℕ} {id : Id}

/-- What holds at every exception and every stop. -/
def Safe (server : Server) (settings : Settings) (playerUuid : String) (start : Session) : Session → Prop :=
  Sound server settings playerUuid start 0

/-- Facts about the database that outlive the steps of a claim. -/
def Lasting (K : Db → Prop) : Prop := ∀ db db', Follows db db' → K db → K db'

/-- All stacks with the tag of a claim may lose it. -/
def Quiet (id : Id) (s : Session) : Prop := ∀ item ∈ s.inventory.items, (kind item).mark = some id → IsApplied s.db id

/-- A sound session of which the database satisfies `K`. -/
def Keeping (server : Server) (settings : Settings) (playerUuid : String) (start : Session) (room : ℕ)
    (K : Db → Prop) (s : Session) : Prop := Sound server settings playerUuid start room s ∧ K s.db

theorem Keeping.safe {K : Db → Prop} (h : Keeping server settings playerUuid start room K s) :
    Safe server settings playerUuid start s := h.1.mono (Nat.zero_le _)

section Cleaning
variable {K : Db → Prop}

private theorem uncovers_visit {inventory inventory' : PlayerInventory} {slot : Slot}
    (h : visit (clearSlot id) slot inventory = .ok inventory') :
    List.Forall₂ (Uncovers id) inventory.items inventory'.items := by
  obtain ⟨hslots, hget⟩ := (puts_clearSlot id).visit h
  refine items_forall₂ hslots fun s => ?_
  rw [hget]
  by_cases hs : s = slot
  · subst hs
    rw [if_pos rfl]
    cases inventory.getItem s with
    | none => exact .none
    | some item => exact .some (.inr rfl)
  · rw [if_neg hs]
    cases inventory.getItem s with
    | none => exact .none
    | some item => exact .some (.inl rfl)

theorem Quiet.uncovered {inventory : PlayerInventory} (h : Quiet id s)
    (hitems : List.Forall₂ (Uncovers id) s.inventory.items inventory.items) : Quiet id { s with inventory } := by
  intro item hitem hmark
  obtain ⟨old, hold, hrel⟩ := mem_of_forall₂ hitems hitem
  rcases hrel.same.kind with hkind | hkind
  · exact h old hold (hkind ▸ hmark)
  · rw [hkind, cleared_mark] at hmark
    split_ifs at hmark
    exact h old hold hmark

/-- The tags come off slot by slot. -/
theorem clearDeliveryClaimTag_keeps :
    Keeps (fun s => Keeping server settings playerUuid start room K s ∧ Quiet id s) (clearDeliveryClaimTag id) := by
  refine forEachSlot_keeps fun slot s inventory hs hvisit => ?_
  have hitems := uncovers_visit hvisit
  exact ⟨⟨hs.1.1.cleared hs.2 hitems, hs.1.2⟩, hs.2.uncovered hitems⟩

theorem clearDeliveryClaimTag_rule : Triple
    (fun s => Keeping server settings playerUuid start room K s ∧ Quiet id s) (clearDeliveryClaimTag id)
    (fun _ => Keeping server settings playerUuid start room K) (fun _ => Safe server settings playerUuid start)
    (Safe server settings playerUuid start) :=
  clearDeliveryClaimTag_keeps.conseq (fun _ hs => hs) (fun _ _ hs => hs.1) (fun _ _ hs => hs.1.safe)
    fun _ hs => hs.1.safe

/-- A count of zero means that no stack has the tag. -/
theorem untagged_of_zero (h : Sound server settings playerUuid start room s)
    (hzero : taggedItemCount s.inventory id = 0) : ∀ item ∈ s.inventory.items, (kind item).mark ≠ some id :=
  h.stocked.absent (by rw [← taggedItemCount_holding, hzero])

theorem markDeliveryClaimCleaned_rule (hK : Lasting K) : Triple
    (fun s => Keeping server settings playerUuid start room K s ∧ taggedItemCount s.inventory id = 0)
    (onDb (markDeliveryClaimCleaned id)) (fun _ => Keeping server settings playerUuid start room K)
    (fun _ => Safe server settings playerUuid start) (Safe server settings playerUuid start) := by
  refine transaction_rule (fun s hs => hs.1.safe) fun s u db hs hb => ?_
  obtain ⟨hsound, hfollows⟩ := hs.1.1.cleaned (untagged_of_zero hs.1.1 hs.2) hb
  have hkeeping : Keeping server settings playerUuid start room K { s with db } :=
    ⟨hsound, hK _ _ hfollows hs.1.2⟩
  exact ⟨hkeeping, hkeeping.safe⟩

theorem finishClaim_rule (hK : Lasting K) : Triple (Keeping server settings playerUuid start room K)
    (finishClaim id) (fun _ => Keeping server settings playerUuid start room K)
    (fun _ => Safe server settings playerUuid start) (Safe server settings playerUuid start) := by
  refine Triple.bind (R := fun remaining s => Keeping server settings playerUuid start room K s ∧
    remaining = taggedItemCount s.inventory id) (observe_rule (fun _ hs => hs.safe) fun _ hs => ⟨hs, rfl⟩)
    fun remaining => ?_
  split_ifs with hremaining
  · exact Triple.pure fun s hs => hs.1
  · refine (markDeliveryClaimCleaned_rule hK).conseq (fun s hs => ⟨hs.1, ?_⟩) (fun _ _ hs => hs)
      (fun _ _ hs => hs) fun _ hs => hs
    rw [← hs.2]
    exact not_not.mp hremaining

theorem cleanClaim_rule (hK : Lasting K) (tagged : ℤ) : Triple
    (fun s => Keeping server settings playerUuid start room K s ∧ Quiet id s) (cleanClaim id tagged)
    (fun _ => Keeping server settings playerUuid start room K) (fun _ => Safe server settings playerUuid start)
    (Safe server settings playerUuid start) := by
  rw [cleanClaim]
  split_ifs with htagged
  · exact Triple.bind clearDeliveryClaimTag_rule fun _ => finishClaim_rule hK
  · exact (finishClaim_rule hK).conseq (fun s hs => hs.1) (fun _ _ hs => hs) (fun _ _ hs => hs) fun _ hs => hs

end Cleaning

section Markers

private theorem quiet_of_applied {status : DeliveryClaimStatus} {db : Db} {inventory : PlayerInventory}
    (h : ∃ c, db.deliveryClaims.get? id = some c ∧ c.status = status) (hs : status = .applied) :
    Quiet id ⟨db, inventory⟩ := by
  obtain ⟨c, hc, hstatus⟩ := h
  exact fun _ _ _ => ⟨c, hc, hstatus.trans hs⟩

/-- What `findDeliveryClaim` finds. -/
theorem findDeliveryClaim_spec {db : Db} {claim : Option DeliveryClaim}
    (h : (do
      let claim ← db.deliveryClaims.get? id
      if claim.playerUuid = playerUuid then deliveryClaimFromRow db (id, claim) else none) = claim) :
    (∀ c, claim = some c → ∃ row, db.deliveryClaims.get? id = some row ∧ row.status = c.status) ∧
    (claim = none → ∀ row r proto, db.deliveryClaims.get? id = some row → row.playerUuid = playerUuid →
      db.deliveries.get? row.deliveryId = some r → marketItem db r.marketId = some proto → False) := by
  subst h
  cases hrow : db.deliveryClaims.get? id with
  | none => exact ⟨fun c hc => (by cases hc), fun _ row _ _ hrow' => by cases hrow'⟩
  | some row =>
    by_cases hplayer : row.playerUuid = playerUuid
    · simp only [Option.bind_eq_bind, Option.bind_some, if_pos hplayer]
      cases hr : db.deliveries.get? row.deliveryId with
      | none =>
        simp only [deliveryClaimFromRow, hr]
        refine ⟨fun c hc => (by cases hc), fun _ row' r proto hrow' _ hr' => ?_⟩
        cases hrow'
        rw [hr] at hr'
        cases hr'
      | some r =>
        cases hproto : marketItem db r.marketId with
        | none =>
          simp only [deliveryClaimFromRow, hr, Option.bind_eq_bind, Option.bind_some, hproto]
          refine ⟨fun c hc => (by cases hc), fun _ row' r' proto hrow' _ hr' hproto' => ?_⟩
          cases hrow'
          cases hr.symm.trans hr'
          rw [hproto] at hproto'
          cases hproto'
        | some proto =>
          simp only [deliveryClaimFromRow, hr, Option.bind_eq_bind, Option.bind_some, hproto]
          refine ⟨fun c hc => ?_, fun hnone => by cases hnone⟩
          cases hc
          exact ⟨row, rfl, rfl⟩
    · simp only [Option.bind_eq_bind, Option.bind_some, if_neg hplayer]
      refine ⟨fun c hc => (by cases hc), fun _ row' r proto hrow' hplayer' => ?_⟩
      cases hrow'
      exact absurd hplayer' hplayer

theorem reconcileDeliveryMarker_rule : Triple (Sound server settings playerUuid start room)
    (reconcileDeliveryMarker playerUuid id) (fun _ => Sound server settings playerUuid start room)
    (fun _ => Safe server settings playerUuid start) (Safe server settings playerUuid start) := by
  have hsafe : ∀ s, Sound server settings playerUuid start room s → Safe server settings playerUuid start s :=
    fun s hs => hs.mono (Nat.zero_le _)
  have htrue : Lasting fun _ => True := fun _ _ _ _ => trivial
  refine Triple.bind (R := fun claim s => Sound server settings playerUuid start room s ∧
    (∀ c, claim = some c → ∃ row, s.db.deliveryClaims.get? id = some row ∧ row.status = c.status) ∧
    (claim = none → ∀ item ∈ s.inventory.items, (kind item).mark ≠ some id))
    (select_rule hsafe fun s hs => ⟨hs, ?_⟩) fun claim => ?_
  · obtain ⟨hsome, hnone⟩ := @findDeliveryClaim_spec playerUuid id s.db _ rfl
    refine ⟨hsome, fun hmissing item hitem hmark => ?_⟩
    obtain ⟨c, r, proto, -, hc, hplayer, -, hr, hproto, -⟩ := hs.tagged item hitem id hmark
    exact hnone hmissing c r proto hc hplayer hr hproto
  · cases claim with
    | none =>
      refine (clearDeliveryClaimTag_rule (K := fun _ => True)).conseq (fun s hs => ⟨⟨hs.1, trivial⟩, ?_⟩)
        (fun _ _ hs => hs.1) (fun _ _ hs => hs) fun _ hs => hs
      exact fun item hitem hmark => absurd hmark (hs.2.2 rfl item hitem)
    | some claim =>
      dsimp only
      split_ifs with happlied hcanceled
      · refine Triple.bind (R := fun _ => Keeping server settings playerUuid start room fun _ => True)
          (clearDeliveryClaimTag_rule.conseq (fun s hs => ⟨⟨hs.1, trivial⟩, ?_⟩) (fun _ _ hs => hs)
            (fun _ _ hs => hs) fun _ hs => hs) fun _ => ?_
        · exact quiet_of_applied (hs.2.1 claim rfl) happlied
        · refine Triple.bind (R := fun remaining s => Keeping server settings playerUuid start room
            (fun _ => True) s ∧ remaining = taggedItemCount s.inventory id)
            (observe_rule (fun _ hs => hs.safe) fun _ hs => ⟨hs, rfl⟩) fun remaining => ?_
          split_ifs with hstop
          · exact Triple.pure fun s hs => hs.1.1
          · refine (markDeliveryClaimCleaned_rule htrue).conseq (fun s hs => ⟨hs.1, ?_⟩) (fun _ _ hs => hs.1)
              (fun _ _ hs => hs) fun _ hs => hs
            rw [← hs.2]
            exact not_not.mp fun hne => hstop (.inl hne)
      · -- A canceled claim has delivered nothing, so there is nothing to take out.
        refine (forEachSlot_keeps (I := fun s => Sound server settings playerUuid start room s ∧
          ∀ item ∈ s.inventory.items, (kind item).mark ≠ some id) fun slot s inventory hs hvisit => ?_).conseq
          (fun s hs => ⟨hs.1, ?_⟩) (fun _ _ hs => hs.1) (fun _ _ hs => hsafe _ hs.1) fun _ hs => hsafe _ hs.1
        · have hsame : inventory = s.inventory := by
            rw [visit] at hvisit
            cases hitem : s.inventory.getItem slot with
            | none => rw [hitem] at hvisit; cases hvisit; rfl
            | some item =>
              rw [hitem] at hvisit
              cases hvisit
              exact if_neg (hs.2 item (mem_items_of_getItem hitem))
          rw [hsame]
          exact hs
        · intro item hitem hmark
          obtain ⟨row, hrow, hstatus⟩ := hs.2.1 claim rfl
          rcases hs.1.unfinished hitem hmark hrow with hprepared | ⟨happlied', -⟩
          · rw [hstatus, hcanceled] at hprepared
            cases hprepared
          · rw [hstatus] at happlied'
            exact happlied happlied'
      · exact Triple.pure fun s hs => hs.1

theorem reconcileSellMarker_rule {escrowId : Id} (h : Stranger playerUuid start escrowId) :
    Triple (Sound server settings playerUuid start room) (reconcileSellMarker server playerUuid escrowId)
      (fun _ => Sound server settings playerUuid start room) (fun _ => Safe server settings playerUuid start)
      (Safe server settings playerUuid start) := by
  refine Triple.bind (R := fun escrow s => Sound server settings playerUuid start room s ∧ escrow = none)
    (select_rule (fun s hs => hs.mono (Nat.zero_le _)) fun s hs => ⟨hs, ?_⟩) fun escrow => ?_
  · rw [hs.escrows]
    cases he : start.db.sellEscrows.get? escrowId with
    | none => rfl
    | some e => exact if_neg (h e he)
  · cases escrow with
    | none => exact Triple.pure fun s hs => hs.1
    | some escrow =>
      intro fs s hs
      cases hs.2

theorem reconcileInternalEscrowMarkers_rule : Triple (Sound server settings playerUuid start room)
    (reconcileInternalEscrowMarkers server playerUuid) (fun _ => Sound server settings playerUuid start room)
    (fun _ => Safe server settings playerUuid start) (Safe server settings playerUuid start) := by
  have hsafe : ∀ s, Sound server settings playerUuid start room s → Safe server settings playerUuid start s :=
    fun s hs => hs.mono (Nat.zero_le _)
  refine Triple.bind (R := fun markers s => Sound server settings playerUuid start room s ∧
    ∀ id ∈ members (markers.sellItemEscrowIds ++ markers.sellReceiptEscrowIds), Stranger playerUuid start id)
    (observe_rule hsafe fun s hs => ⟨hs, fun id hid => ?_⟩) fun markers => ?_
  · rw [mem_members, List.mem_append] at hid
    simp only [internalEscrowMarkers, mem_members, List.mem_filterMap] at hid
    rcases hid with ⟨item, hitem, hmark⟩ | ⟨item, hitem, hmark⟩
    · exact hs.strangers item hitem id (.inl hmark)
    · exact hs.strangers item hitem id (.inr hmark)
  · refine Triple.of_forall fun s hs => ?_
    have hstrangers := hs.2
    refine Triple.from_state (Triple.bind (P := Sound server settings playerUuid start room)
      (R := fun _ => Sound server settings playerUuid start room) ?_ fun _ => ?_) hs.1
    · exact Triple.forEach (R := fun _ => Sound server settings playerUuid start room)
        (fun _ _ => reconcileDeliveryMarker_rule) _
    · refine (Triple.forEach (R := fun ids s => Sound server settings playerUuid start room s ∧
        ∀ id ∈ ids, Stranger playerUuid start id) (fun id ids => ?_) _).conseq (fun s hs => ⟨hs, hstrangers⟩)
        (fun _ _ hs => hs.1) (fun _ _ hs => hs) fun _ hs => hs
      refine Triple.of_forall fun s hs => ?_
      have hrest : ∀ id ∈ ids, Stranger playerUuid start id := fun i hi => hs.2 i (List.mem_cons_of_mem _ hi)
      exact ((reconcileSellMarker_rule (hs.2 id List.mem_cons_self)).conseq (fun _ hs => hs)
        (fun _ s hs => ⟨hs, hrest⟩) (fun _ _ hs => hs) fun _ hs => hs).from_state hs.1

/-- The player has no sale to take up again. -/
def Finished (playerUuid : String) (db : Db) : Prop := ∀ i e, db.sellEscrows.get? i = some e →
  e.playerUuid = playerUuid → ¬ SellEscrowRow.Unfinished e

theorem reconcileSellEscrows_rule {language : Language} (h : Finished playerUuid start.db) :
    Triple (Sound server settings playerUuid start room) (reconcileSellEscrows server language playerUuid)
      (fun _ => Sound server settings playerUuid start room) (fun _ => Safe server settings playerUuid start)
      (Safe server settings playerUuid start) := by
  refine Triple.bind (R := fun escrows s => Sound server settings playerUuid start room s ∧ escrows = [])
    (select_rule (fun s hs => hs.mono (Nat.zero_le _)) fun s hs => ⟨hs, ?_⟩) fun escrows => ?_
  · have hnone : (s.db.sellEscrows.entries.filter fun e => e.2.playerUuid = playerUuid ∧
        SellEscrowRow.Unfinished e.2) = [] := by
      refine List.filter_eq_nil_iff.mpr fun e he hopen => ?_
      obtain ⟨hplayer, hunfinished⟩ := of_decide_eq_true hopen
      rw [hs.escrows] at he
      exact h e.1 e.2 (Table.mem_entries.mp he) hplayer hunfinished
    rw [hnone]
    rfl
  · refine Triple.of_forall fun s hs => ?_
    rw [hs.2]
    exact (Triple.pure fun s hs => hs).from_state hs.1

end Markers

section Settling
variable {K : Db → Prop} {db db' : Db}

theorem reachable_completed {delivered : ℤ} {u : PUnit} (h : Reachable settings db) (hq : ¬ delivered < 0)
    (hb : completeDeliveryClaimTx id delivered db = .ok (u, db')) : Reachable settings db' := by
  have hleaves : (Call.completeDeliveryClaim id delivered).leaves settings [] db = db' := by
    rw [Call.leaves, Call.run, completeDeliveryClaim, if_neg hq]
    exact congrArg (·.2.2) (transaction_returned hb)
  exact hleaves ▸ h.call _ []

/-- A claim of the player, of which as many items were put into the inventory as are tagged. -/
structure Known (playerUuid : String) (claim : DeliveryClaim) (db : Db) : Prop where
  row : ∃ c, db.deliveryClaims.get? claim.id = some c ∧ c.quantity = claim.quantity ∧
    (claim.status ≠ .prepared → c.status = .applied)

private theorem lasting_known (claim : DeliveryClaim) : Lasting (Known playerUuid claim) := by
  rintro db db' h ⟨c, hc, hquantity, happlied⟩
  obtain ⟨c', hc', hsame⟩ := h.claims _ c hc
  refine ⟨c', hc', hsame.quantity.trans hquantity, fun hne => ?_⟩
  have hs := happlied hne
  rw [(hsame.outcome (by rw [hs]; decide)).1, hs]

/-- The items of a claim are settled as they were counted. -/
theorem completeDeliveryClaim_rule (hdeliverable : Deliverable server.toPlatform playerUuid start)
    (hK : Lasting K) {delivered : ℤ} : Triple
    (fun s => Keeping server settings playerUuid start room K s ∧
      holding (fun k => k.mark = some id) s.inventory.items = delivered)
    (onDb (completeDeliveryClaim id delivered))
    (fun _ s => Keeping server settings playerUuid start room K s ∧ (delivered ≠ 0 → Quiet id s))
    (fun _ => Safe server settings playerUuid start) (Safe server settings playerUuid start) := by
  refine guarded_rule (fun s hs => hs.1.safe) fun hq s u db hs hb => ?_
  obtain ⟨⟨hsound, hkept⟩, hcount⟩ := hs
  have hreachable := reachable_completed hsound.reachable hq hb
  obtain ⟨c, hc, ⟨-, happlied, rfl⟩ | ⟨hprepared, -, r, hr, hdb⟩⟩ := completeDeliveryClaimTx_ok hb
  · have hkeeping : Keeping server settings playerUuid start room K { s with db := s.db } := ⟨hsound, hkept⟩
    exact ⟨⟨hkeeping, fun hne _ _ _ => ⟨c, hc, happlied hne⟩⟩, hkeeping.safe⟩
  · have hfollows : Follows s.db db := by
      have hdelivery : Follows s.db (Db.setDelivery s.db c.deliveryId (settledDelivery delivered c.quantity)) :=
        follows_setDelivery _ _ fun _ => ⟨rfl, rfl⟩
      rw [hdb]
      refine hdelivery.trans (follows_setClaim _ _ fun c' hc' => ?_)
      cases hc.symm.trans hc'
      exact sameClaim_settled delivered hprepared
    have hkeeping : Keeping server settings playerUuid start room K { s with db } :=
      ⟨hsound.settled hdeliverable hc hprepared hcount hr hdb hreachable, hK _ _ hfollows hkept⟩
    refine ⟨⟨hkeeping, fun hne _ _ _ => ⟨settledClaim delivered c, ?_, ?_⟩⟩, hkeeping.safe⟩
    · rw [hdb, Db.setClaim_deliveryClaims, Table.get?_update_self, Db.setDelivery_deliveryClaims, hc,
        Option.map_some]
    · rw [settledClaim, if_neg hne]

theorem settleClaim_rule (hdeliverable : Deliverable server.toPlatform playerUuid start) (hK : Lasting K)
    (claim : DeliveryClaim) : Triple
    (fun s => Keeping server settings playerUuid start room K s ∧ Known playerUuid claim s.db)
    (settleClaim claim) (fun _ => Keeping server settings playerUuid start room K)
    (fun _ => Safe server settings playerUuid start) (Safe server settings playerUuid start) := by
  refine Triple.bind (R := fun tagged s => (Keeping server settings playerUuid start room K s ∧
    Known playerUuid claim s.db) ∧ tagged = taggedItemCount s.inventory claim.id)
    (observe_rule (fun _ hs => hs.1.safe) fun _ hs => ⟨hs, rfl⟩) fun tagged => ?_
  by_cases hprepared : claim.status = .prepared
  · rw [if_pos hprepared]
    refine Triple.bind (R := fun _ s => Keeping server settings playerUuid start room K s ∧
      (min tagged claim.quantity ≠ 0 → Quiet claim.id s)) ?_ fun _ => ?_
    · -- The stacks of a prepared claim never exceed it.
      refine Triple.of_forall fun s hs => ?_
      obtain ⟨⟨hkeeping, c, hc, hquantity, -⟩, rfl⟩ := hs
      by_cases hmin : min (taggedItemCount s.inventory claim.id) claim.quantity =
          taggedItemCount s.inventory claim.id
      · rw [hmin]
        exact (completeDeliveryClaim_rule hdeliverable hK).from_state
          ⟨hkeeping, (taggedItemCount_holding _ _).symm⟩
      · refine (guarded_rule (P := (· = s)) (fun _ hs => hs ▸ hkeeping.safe) fun hq s' u db hs hb => ?_)
        subst hs
        obtain ⟨c', hc', hcases⟩ := completeDeliveryClaimTx_ok hb
        cases hc.symm.trans hc'
        rcases hcases with ⟨-, happlied, rfl⟩ | ⟨hs', -⟩
        · exact ⟨⟨hkeeping, fun hne _ _ _ => ⟨c, hc, happlied hne⟩⟩, hkeeping.safe⟩
        · have hbound := hkeeping.1.bounded _ c hc hs'
          rw [← taggedItemCount_holding, hquantity] at hbound
          exact absurd (min_eq_left hbound) hmin
    · split_ifs with hzero
      · exact Triple.pure fun s hs => hs.1
      · exact Triple.bind ((cleanClaim_rule hK tagged).conseq (fun s hs => ⟨hs.1, hs.2 hzero⟩)
          (fun _ _ hs => hs) (fun _ _ hs => hs) fun _ hs => hs) fun _ => Triple.pure fun _ hs => hs
  · rw [if_neg hprepared]
    refine Triple.bind ((cleanClaim_rule hK tagged).conseq (fun s hs => ⟨hs.1.1, ?_⟩)
      (fun _ _ hs => hs) (fun _ _ hs => hs) fun _ hs => hs) fun _ => Triple.pure fun _ hs => hs
    obtain ⟨c, hc, -, happlied⟩ := hs.1.2
    exact fun _ _ _ => ⟨c, hc, happlied hprepared⟩

theorem settleClaims_rule (hdeliverable : Deliverable server.toPlatform playerUuid start)
    (claims : List DeliveryClaim) (deliveredTotal : ℤ) : Triple
    (Keeping server settings playerUuid start room fun db => ∀ claim ∈ claims, Known playerUuid claim db)
    (settleClaims claims deliveredTotal) (fun _ => Sound server settings playerUuid start room)
    (fun _ => Safe server settings playerUuid start) (Safe server settings playerUuid start) := by
  induction claims generalizing deliveredTotal with
  | nil => exact Triple.pure fun s hs => hs.1
  | cons claim claims ih =>
    have hK : Lasting fun db => ∀ claim ∈ claims, Known playerUuid claim db := fun db db' h hknown c hc =>
      lasting_known c db db' h (hknown c hc)
    refine Triple.bind ((settleClaim_rule hdeliverable hK claim).conseq (fun s hs => ?_) (fun _ _ hs => hs)
      (fun _ _ hs => hs) fun _ hs => hs) fun delivered => ih _
    exact ⟨⟨hs.1, fun c hc => hs.2 c (List.mem_cons_of_mem _ hc)⟩, hs.2 claim List.mem_cons_self⟩

private theorem known_of_unfinished {claim : DeliveryClaim} (h : claim ∈ (db.deliveryClaims.entries.filter fun e =>
    e.2.playerUuid = playerUuid ∧ DeliveryClaimRow.Unfinished e.2).filterMap (deliveryClaimFromRow db)) :
    Known playerUuid claim db := by
  obtain ⟨⟨i, c⟩, hmem, hrow⟩ := List.mem_filterMap.mp h
  obtain ⟨hentry, hopen⟩ := List.mem_filter.mp hmem
  obtain ⟨-, hopen⟩ := of_decide_eq_true hopen
  rw [deliveryClaimFromRow] at hrow
  obtain ⟨r, hr, hrow⟩ := Option.bind_eq_some_iff.mp hrow
  obtain ⟨proto, hproto, hrow⟩ := Option.bind_eq_some_iff.mp hrow
  cases hrow
  refine ⟨c, Table.mem_entries.mp hentry, rfl, fun hne => ?_⟩
  rcases hopen with hs | ⟨hs, -⟩
  · exact absurd hs hne
  · exact hs

end Settling

section Delivering
variable {K : Db → Prop}

/-- A delivery of the player, with its item. -/
def Owed (playerUuid : String) (delivery : Delivery) (db : Db) : Prop :=
  ∃ r, db.deliveries.get? delivery.id = some r ∧ r.playerUuid = playerUuid ∧
    marketItem db r.marketId = some delivery.item

theorem lasting_owed (delivery : Delivery) : Lasting (Owed playerUuid delivery) := by
  rintro db db' h ⟨r, hr, hplayer, hproto⟩
  obtain ⟨r', hr', hplayer', hmarket⟩ := h.kept _ r hr
  refine ⟨r', hr', hplayer'.trans hplayer, ?_⟩
  rw [marketItem_congr h.markets, hmarket]
  exact hproto

theorem deliver_rule (hadds : Adds server) (hdeliverable : Deliverable server.toPlatform playerUuid start)
    (hK : Lasting K) (delivery : Delivery) {pending : ℤ} : Triple
    (fun s => Keeping server settings playerUuid start (room + 1) K s ∧ Owed playerUuid delivery s.db)
    (deliver server playerUuid delivery pending) (fun _ => Keeping server settings playerUuid start room K)
    (fun _ => Safe server settings playerUuid start) (Safe server settings playerUuid start) := by
  have howed := @lasting_owed playerUuid delivery
  refine Triple.bind (R := fun claim s => (Keeping server settings playerUuid start room K s ∧
    Owed playerUuid delivery s.db) ∧ Prepared playerUuid delivery.id claim s)
    (guarded_rule (fun s hs => hs.1.safe) fun hguard s claim db hs hb => ?_) fun claim => ?_
  · rw [not_or, not_le] at hguard
    obtain ⟨⟨hsound, hkept⟩, howes⟩ := hs
    obtain ⟨hsound', hprepared⟩ := hsound.prepared hguard.1 hguard.2 hb
    have hfollows : Follows s.db db := by
      obtain ⟨r, item, -, -, -, -, -, rfl⟩ := prepareDeliveryClaimTx_ok hb
      exact (follows_addClaim _ _).trans (follows_setDelivery _ _ fun _ => ⟨rfl, rfl⟩)
    have hkeeping : Keeping server settings playerUuid start room K { s with db } :=
      ⟨hsound', hK _ _ hfollows hkept⟩
    exact ⟨⟨⟨hkeeping, howed _ _ hfollows howes⟩, hprepared⟩, hkeeping.safe⟩
  · refine Triple.bind (R := fun items s => ((Keeping server settings playerUuid start room K s ∧
      Owed playerUuid delivery s.db) ∧ Prepared playerUuid delivery.id claim s) ∧
      splitStacks server.toPlatform server.maxStackSize delivery.item claim.quantity (some claim.id) = .ok items)
      (Triple.ofExcept (fun items s hok hs => ⟨hs, hok⟩) fun _ s _ hs => hs.1.1.safe) fun items => ?_
    refine Triple.bind (R := fun leftovers s => Keeping server settings playerUuid start room K s ∧
      holding (fun k => k.mark = some claim.id) s.inventory.items = itemCount items - itemCount leftovers)
      (Triple.step (fun s hs => hs.1.1.1.safe) fun s hs => ?_) fun leftovers => ?_
    · obtain ⟨⟨⟨hkeeping, r, hr, hplayer, hproto⟩, hprepared⟩, hsplit⟩ := hs
      obtain ⟨hsound, hcount⟩ := hkeeping.1.added hadds hdeliverable hprepared hr hplayer hproto hsplit
      exact ⟨⟨hsound, hkeeping.2⟩, hcount⟩
    · refine Triple.bind (completeDeliveryClaim_rule hdeliverable hK) fun _ => ?_
      split_ifs with hpos
      · refine Triple.bind ((clearDeliveryClaimTag_rule).conseq (fun s hs => ⟨hs.1, hs.2 hpos.ne'⟩)
          (fun _ _ hs => hs) (fun _ _ hs => hs) fun _ hs => hs) fun _ => ?_
        exact Triple.bind (finishClaim_rule hK) fun _ => Triple.pure fun _ hs => hs
      · exact Triple.pure fun s hs => hs.1

/-- Each delivery takes one identifier for its claim. -/
theorem deliverAll_rule (hadds : Adds server) (hdeliverable : Deliverable server.toPlatform playerUuid start)
    (deliveries : List Delivery) (deliveredTotal : ℤ) : Triple
    (Keeping server settings playerUuid start (deliveries.length + room) fun db =>
      ∀ delivery ∈ deliveries, Owed playerUuid delivery db)
    (deliverAll server playerUuid deliveries deliveredTotal) (fun _ => Sound server settings playerUuid start room)
    (fun _ => Safe server settings playerUuid start) (Safe server settings playerUuid start) := by
  induction deliveries generalizing deliveredTotal with
  | nil => exact Triple.pure fun s hs => hs.1.mono (Nat.le_add_left _ _)
  | cons delivery deliveries ih =>
    have hK : Lasting fun db => ∀ delivery ∈ deliveries, Owed playerUuid delivery db := fun db db' h howed d hd =>
      lasting_owed d db db' h (howed d hd)
    have hrest : ∀ s, Keeping server settings playerUuid start (deliveries.length + room + 1) (fun db =>
        ∀ d ∈ delivery :: deliveries, Owed playerUuid d db) s →
        Keeping server settings playerUuid start (deliveries.length + room + 1) (fun db =>
          ∀ d ∈ deliveries, Owed playerUuid d db) s := fun s hs =>
      ⟨hs.1, fun d hd => hs.2 d (List.mem_cons_of_mem _ hd)⟩
    have hlength : (delivery :: deliveries).length + room = deliveries.length + room + 1 := by
      rw [List.length_cons]
      omega
    rw [hlength, deliverAll]
    dsimp only
    split_ifs with hpending
    · exact (ih deliveredTotal).conseq (fun s hs => ⟨(hrest s hs).1.mono (Nat.le_succ _), (hrest s hs).2⟩)
        (fun _ _ hs => hs) (fun _ _ hs => hs) fun _ hs => hs
    · refine Triple.bind ((deliver_rule hadds hdeliverable hK delivery).conseq
        (fun s hs => ⟨hrest s hs, hs.2 delivery List.mem_cons_self⟩) (fun _ _ hs => hs) (fun _ _ hs => hs)
        fun _ hs => hs) fun outcome => ?_
      split_ifs with hfull
      · exact Triple.pure fun s hs => hs.1.mono (Nat.le_add_left _ _)
      · exact ih _

private theorem owed_of_pending {db : Db} {delivery : Delivery} (h : delivery ∈ (db.deliveries.entries.filter fun e =>
    e.2.playerUuid = playerUuid ∧ e.2.claimedQty + e.2.reservedQty < e.2.quantity).filterMap
      (deliveryFromRow db)) : Owed playerUuid delivery db := by
  obtain ⟨⟨i, r⟩, hmem, hrow⟩ := List.mem_filterMap.mp h
  obtain ⟨hentry, hopen⟩ := List.mem_filter.mp hmem
  obtain ⟨hplayer, -⟩ := of_decide_eq_true hopen
  rw [deliveryFromRow] at hrow
  obtain ⟨proto, hproto, rfl⟩ := Option.map_eq_some_iff.mp hrow
  exact ⟨r, Table.mem_entries.mp hentry, hplayer, hproto⟩

/-- No delivery is added while claims are worked off. -/
theorem pending_length (h : Sound server settings playerUuid start room s) :
    ((s.db.deliveries.entries.filter fun e => e.2.playerUuid = playerUuid ∧
      e.2.claimedQty + e.2.reservedQty < e.2.quantity).filterMap (deliveryFromRow s.db)).length ≤
        start.db.deliveries.nextId := by
  have hlist : ((s.db.deliveries.entries.filter fun e => e.2.playerUuid = playerUuid ∧
      e.2.claimedQty + e.2.reservedQty < e.2.quantity).filterMap (deliveryFromRow s.db)).length ≤
        s.db.deliveries.rows.length :=
    (List.length_filterMap_le _ _).trans ((List.length_filter_le _ _).trans (by simp [Table.entries]))
  refine hlist.trans ?_
  by_contra hmore
  rw [not_le, Table.nextId] at hmore
  obtain ⟨r, hr⟩ := Table.get?_of_lt (t := s.db.deliveries) (i := start.db.deliveries.nextId)
    (Nat.succ_pos _) (by rw [Table.nextId, Table.nextId]; omega)
  obtain ⟨r₀, hr₀, -⟩ := h.deliveries _ r hr
  rw [Table.get?_nextId] at hr₀
  cases hr₀

end Delivering

section Runs
variable {language : Language}

private theorem recover_safe (hfinished : Finished playerUuid start.db) :
    Triple (Sound server settings playerUuid start room) (recover server language playerUuid)
      (fun _ => Sound server settings playerUuid start room) (fun _ => Safe server settings playerUuid start)
      (Safe server settings playerUuid start) :=
  Triple.bind reconcileInternalEscrowMarkers_rule fun _ => reconcileSellEscrows_rule hfinished

theorem claimDeliveries_rule (hadds : Adds server) (hdeliverable : Deliverable server.toPlatform playerUuid start)
    (hfinished : Finished playerUuid start.db) : Triple
    (Sound server settings playerUuid start start.db.deliveries.nextId)
    (claimDeliveries server language playerUuid) (fun _ => Safe server settings playerUuid start)
    (fun _ => Safe server settings playerUuid start) (Safe server settings playerUuid start) := by
  have hsafe : ∀ s, Sound server settings playerUuid start start.db.deliveries.nextId s →
      Safe server settings playerUuid start s := fun s hs => hs.mono (Nat.zero_le _)
  rw [claimDeliveries_recovers]
  refine Triple.bind (recover_safe hfinished) fun _ => ?_
  refine Triple.bind (R := fun claims => Keeping server settings playerUuid start start.db.deliveries.nextId
    fun db => ∀ claim ∈ claims, Known playerUuid claim db)
    (select_rule hsafe fun s hs => ⟨hs, fun claim hclaim => known_of_unfinished hclaim⟩) fun claims => ?_
  refine Triple.bind (settleClaims_rule hdeliverable claims 0) fun deliveredTotal => ?_
  refine Triple.bind (R := fun deliveries => Keeping server settings playerUuid start (deliveries.length + 0)
    fun db => ∀ delivery ∈ deliveries, Owed playerUuid delivery db)
    (select_rule hsafe fun s hs => ⟨hs.mono (pending_length hs), fun d hd => owed_of_pending hd⟩)
    fun deliveries => ?_
  exact deliverAll_rule hadds hdeliverable deliveries deliveredTotal

/-- Claiming again and again, each time interrupted anywhere or not at all, while there are
identifiers for the claims. -/
inductive Run (server : Server) (language : Language) (playerUuid : String) (start : Session) : Session → Prop
  | start : Run server language playerUuid start start
  | claim {s : Session} (h : Run server language playerUuid start s)
      (hids : s.db.deliveryClaims.nextId + start.db.deliveries.nextId ≤ 2 ^ 64) (faults : List Fault) :
      Run server language playerUuid start (claimDeliveries server language playerUuid faults s).2.2

/-- A player with deliveries and without markers. Items that carry markers of sales are not the player's own. -/
structure Begins (server : Server) (settings : Settings) (playerUuid : String) (start : Session) : Prop where
  reachable : Reachable settings start.db
  ids : start.db.deliveryClaims.nextId ≤ 2 ^ 64
  stocked : Stocked start.inventory.items
  unmarked : ∀ item ∈ start.inventory.items, deliveryClaimId item = none
  strangers : ∀ item ∈ start.inventory.items, ∀ id, sellItemEscrowId item = some id ∨
    sellReceiptEscrowId item = some id → Stranger playerUuid start id
  finished : Finished playerUuid start.db
  deliverable : Deliverable server.toPlatform playerUuid start

theorem Begins.sound (h : Begins server settings playerUuid start) : Safe server settings playerUuid start start where
  reachable := h.reachable
  ids := h.ids
  markets := rfl
  escrows := rfl
  deliveries _ r hr := ⟨r, hr, rfl, rfl⟩
  stocked := h.stocked
  strangers := h.strangers
  tagged item hitem id hmark := by
    have hnone : (kind item).mark = none := h.unmarked item hitem
    rw [hnone] at hmark
    cases hmark
  bounded id c hc hs := by
    have hpos := ((reachable_exact h.reachable).claims id c hc).quantity_pos
    rw [holding_eq_zero fun item hitem hmark => ?_]
    · exact hpos.le
    · have hnone : (kind item).mark = none := h.unmarked item hitem
      rw [hnone] at hmark
      cases hmark
  conserved _ := rfl

theorem Run.safe (h : Run server language playerUuid start s) (hadds : Adds server)
    (hbegins : Begins server settings playerUuid start) : Safe server settings playerUuid start s := by
  induction h with
  | start => exact hbegins.sound
  | claim _ hids faults ih =>
    exact Triple.final (claimDeliveries_rule hadds hbegins.deliverable hbegins.finished) faults
      { ih with ids := hids }

/-- Without tags the items that count are the matching ones. -/
theorem worth_unmarked {prototype : ItemPrototype} (h : ∀ item ∈ s.inventory.items, (kind item).mark = none) :
    worth server.toPlatform playerUuid prototype s = matching server.toPlatform prototype s.inventory +
      undelivered server.toPlatform playerUuid prototype s.db := by
  rw [worth, matching_holding]
  refine congrArg (· + _) (holding_congr fun item hitem => ?_)
  rw [Counts, bare_of_unmarked (h item hitem)]
  exact and_iff_right fun id hmark => by rw [h item hitem] at hmark; cases hmark

/-- All of a player's items are in the inventory or still to be delivered. -/
structure Conserved (server : Server) (playerUuid : String) (start s : Session) : Prop where
  items : ∀ prototype, matching server.toPlatform prototype s.inventory +
      undelivered server.toPlatform playerUuid prototype s.db =
    matching server.toPlatform prototype start.inventory +
      undelivered server.toPlatform playerUuid prototype start.db
  unreserved : ∀ i r, s.db.deliveries.get? i = some r → r.playerUuid = playerUuid → r.reservedQty = 0
  unmarked : ∀ item ∈ s.inventory.items, deliveryClaimId item = none

theorem deliveries_conserved (hadds : Adds server) (hbegins : Begins server settings playerUuid start)
    (h : Run server language playerUuid start s) (hdone : ∀ i c, s.db.deliveryClaims.get? i = some c →
      c.playerUuid = playerUuid → ¬ DeliveryClaimRow.Unfinished c) : Conserved server playerUuid start s := by
  have hsound := h.safe hadds hbegins
  have hunmarked : ∀ item ∈ s.inventory.items, (kind item).mark = none := by
    intro item hitem
    cases hmark : (kind item).mark with
    | none => rfl
    | some id =>
      obtain ⟨c, _, _, _, hc, hplayer, hopen, -⟩ := hsound.tagged item hitem id hmark
      exact absurd hopen (hdone id c hc hplayer)
  constructor
  case items =>
    intro prototype
    rw [← worth_unmarked hunmarked, hsound.conserved prototype, worth_unmarked hbegins.unmarked]
  case unreserved =>
    intro i r hr hplayer
    rw [((reachable_exact hsound.reachable).deliveries i r hr).reserved_eq]
    refine Table.sum_eq_zero fun j c hc => if_neg ?_
    rintro ⟨rfl, hs⟩
    obtain ⟨r', hr', howner⟩ := (reachable_claimsKept hsound.reachable j c hc).owner
    cases hr.symm.trans hr'
    exact hdone j c hc (howner.symm.trans hplayer) (.inl hs)
  case unmarked => exact hunmarked

end Runs

section Sample

def insertFree (item : ItemStack) : List (Option ItemStack) → Option (List (Option ItemStack))
  | [] => none
  | none :: contents => some (some item :: contents)
  | some other :: contents => (insertFree item contents).map (some other :: ·)

/-- A server that puts every stack into a slot of its own. -/
def addToFreeSlots (inventory : PlayerInventory) : List ItemStack → PlayerInventory × List ItemStack
  | [] => (inventory, [])
  | item :: items =>
    match insertFree item inventory.contents with
    | some contents => addToFreeSlots { inventory with contents } items
    | none => ((addToFreeSlots inventory items).1, item :: (addToFreeSlots inventory items).2)

def sampleServer : Server where
  toPlatform := samplePlatform
  localizedItemName prototype _ := prototype.name
  maxStackSize _ := 64
  addItem := addToFreeSlots

private theorem insertFree_perm {item : ItemStack} {contents contents' : List (Option ItemStack)}
    (h : insertFree item contents = some contents') :
    contents'.reduceOption.Perm (item :: contents.reduceOption) := by
  induction contents generalizing contents' with
  | nil => cases h
  | cons slot contents ih =>
    cases slot with
    | none =>
      cases h
      rw [List.reduceOption_cons_of_some, List.reduceOption_cons_of_none]
    | some other =>
      obtain ⟨rest, hrest, rfl⟩ := Option.map_eq_some_iff.mp h
      rw [List.reduceOption_cons_of_some, List.reduceOption_cons_of_some]
      exact ((ih hrest).cons other).trans (.swap item other _)

theorem addToFreeSlots_perm (inventory : PlayerInventory) (items : List ItemStack) :
    ((addToFreeSlots inventory items).1.items ++ (addToFreeSlots inventory items).2).Perm
      (inventory.items ++ items) ∧ (addToFreeSlots inventory items).2.Sublist items := by
  induction items generalizing inventory with
  | nil => exact ⟨.refl _, .refl _⟩
  | cons item items ih =>
    rw [addToFreeSlots]
    cases hfree : insertFree item inventory.contents with
    | some contents =>
      obtain ⟨hperm, hsub⟩ := ih { inventory with contents }
      refine ⟨hperm.trans ?_, hsub.cons item⟩
      have hcontents : ({ inventory with contents } : PlayerInventory).items.Perm (item :: inventory.items) :=
        (insertFree_perm hfree).append_right _
      exact (hcontents.append_right items).trans List.perm_middle.symm
    | none =>
      obtain ⟨hperm, hsub⟩ := ih inventory
      exact ⟨List.perm_middle.trans ((hperm.cons item).trans List.perm_middle.symm), hsub.cons_cons item⟩

theorem holding_append (q : Kind → Prop) (items items' : List ItemStack) :
    holding q (items ++ items') = holding q items + holding q items' := by
  rw [holding, List.map_append, List.sum_append, holding, holding]

private theorem sampleServer_adds : Adds sampleServer := by
  constructor
  case within =>
    intro inventory items q _ hitems
    refine List.Sublist.sum_le_sum ((addToFreeSlots_perm inventory items).2.map _) fun n hn => ?_
    obtain ⟨item, hitem, rfl⟩ := List.mem_map.mp hn
    exact share_nonneg (hitems item hitem).le
  case conserved =>
    intro inventory items q _ _
    rw [← holding_append, ← holding_append]
    exact ((addToFreeSlots_perm inventory items).1.map _).sum_eq
  case stocked =>
    intro inventory items hinventory hitems
    have hall : Stocked ((addToFreeSlots inventory items).1.items ++ (addToFreeSlots inventory items).2) := by
      intro item hitem
      rcases List.mem_append.mp ((addToFreeSlots_perm inventory items).1.subset hitem) with hold | hnew
      · exact hinventory item hold
      · exact hitems item hnew
    exact ⟨fun item hitem => hall item (List.mem_append_left _ hitem),
      fun item hitem => hall item (List.mem_append_right _ hitem)⟩

/-- Bob bought four diamonds and has yet to take them. -/
def bob : Session where
  db := afterCalls sampleSettings [.activateMarket (diamondMarket "block"),
    .placeOrder (diamondOrder "alice" .sell .limit 400 4), .placeOrder (diamondOrder "bob" .buy .market 0 4)]
  inventory := ⟨[none, none], none⟩

/-- The server stops when the tagged diamonds are in the inventory. -/
def interruptedBob : Session :=
  (claimDeliveries sampleServer .english "bob" (List.replicate 6 .proceed ++ [.crash]) bob).2.2

def recoveredBob : Session := (claimDeliveries sampleServer .english "bob" [] interruptedBob).2.2

theorem bob_begins : Begins sampleServer sampleSettings "bob" bob where
  reachable := reachable_afterCalls _ _
  ids := by decide +kernel
  stocked _ hitem := by cases hitem
  unmarked _ hitem := by cases hitem
  strangers _ hitem := by cases hitem
  finished i e he := by
    have hnone : bob.db.sellEscrows = ⟨[]⟩ := by decide +kernel
    rw [hnone, Table.get?_empty] at he
    cases he
  deliverable id r hr _ item nbt hitem hnbt := by
    have hrows : ∀ row ∈ bob.db.deliveries.rows, marketItem bob.db row.marketId = some (ItemIdentity.diamond []) := by
      decide +kernel
    rw [hrows r (Table.mem_rows_iff.mpr ⟨id, hr⟩)] at hitem
    cases hitem
    cases hnbt
    exact ⟨rfl, rfl, rfl⟩

theorem deliveries_conserved_recovered : interruptedBob.inventory.items ≠ [] ∧
    (∃ c, interruptedBob.db.deliveryClaims.get? 1 = some c ∧ c.status = .prepared) ∧
    Conserved sampleServer "bob" bob recoveredBob := by
  have hrun : Run sampleServer .english "bob" bob recoveredBob :=
    (Run.start.claim (by decide +kernel) _).claim (by decide +kernel) _
  have htagged : interruptedBob.inventory.items.length = 1 := by decide +kernel
  have hprepared : (interruptedBob.db.deliveryClaims.get? 1).map (·.status) = some .prepared := by decide +kernel
  have hclean : ∀ c ∈ recoveredBob.db.deliveryClaims.rows, ¬ DeliveryClaimRow.Unfinished c := by decide +kernel
  refine ⟨fun hnone => (by rw [hnone] at htagged; cases htagged), Option.map_eq_some_iff.mp hprepared, ?_⟩
  exact deliveries_conserved sampleServer_adds bob_begins hrun fun i c hc _ =>
    hclean c (Table.mem_rows_iff.mpr ⟨i, hc⟩)

end Sample

end EndstoneExchange.DeliveryRecovery
