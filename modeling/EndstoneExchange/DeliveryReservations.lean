import EndstoneExchange.DeliveryOrigins

/-!
# Deliveries and their claims agree

The two running totals of a delivery are sums over its claims, so a claim is
settled once and no unit is handed out twice.
-/
namespace EndstoneExchange.DeliveryReservations
open AutoIncrementTables KeyedTables AtomicTransactions.Transaction DurablePrograms ExchangeDomain
  ExchangeTransactions DeliveryOperations ClearingSteps ServiceRuns DeliveryOrigins

/-- What a delivery's PREPARED claims keep reserved. -/
def reserved (db : Db) (deliveryId : Id) : ℤ :=
  db.deliveryClaims.sum fun c => if c.deliveryId = deliveryId ∧ c.status = .prepared then c.quantity else 0

/-- What a delivery's APPLIED claims handed out. -/
def applied (db : Db) (deliveryId : Id) : ℤ :=
  db.deliveryClaims.sum fun c => if c.deliveryId = deliveryId ∧ c.status = .applied then c.appliedQty else 0

/-- The units a claim holds or has handed out. -/
def handedOut (c : DeliveryClaimRow) : ℤ :=
  match c.status with
  | .prepared => c.quantity
  | .applied => c.appliedQty
  | .canceled => 0

/-- Two rows of one claim; only a PREPARED claim can change its outcome. -/
structure SameClaim (c c' : DeliveryClaimRow) : Prop where
  delivery : c'.deliveryId = c.deliveryId
  player : c'.playerUuid = c.playerUuid
  quantity : c'.quantity = c.quantity
  outcome : c.status ≠ .prepared → c'.status = c.status ∧ c'.appliedQty = c.appliedQty

structure ClaimSound (db : Db) (c : DeliveryClaimRow) : Prop where
  delivery : ∃ d, db.deliveries.get? c.deliveryId = some d
  quantity_pos : 0 < c.quantity
  applied_le : 0 ≤ c.appliedQty ∧ c.appliedQty ≤ c.quantity

structure DeliveryExact (db : Db) (id : Id) (d : DeliveryRow) : Prop where
  reserved_eq : d.reservedQty = reserved db id
  claimed_eq : d.claimedQty = applied db id
  nonneg : 0 ≤ d.reservedQty ∧ 0 ≤ d.claimedQty
  within : d.claimedQty + d.reservedQty ≤ d.quantity

structure Exact (db : Db) : Prop where
  claims : ∀ i c, db.deliveryClaims.get? i = some c → ClaimSound db c
  deliveries : ∀ i d, db.deliveries.get? i = some d → DeliveryExact db i d

variable {settings : Settings} {allow : Special → Prop} {d d' : Desk} {db db' : Db}

theorem SameClaim.refl (c : DeliveryClaimRow) : SameClaim c c := ⟨rfl, rfl, rfl, fun _ => ⟨rfl, rfl⟩⟩

theorem SameClaim.trans {c c' c'' : DeliveryClaimRow} (h : SameClaim c c') (h' : SameClaim c' c'') :
    SameClaim c c'' := by
  refine ⟨h'.delivery.trans h.delivery, h'.player.trans h.player, h'.quantity.trans h.quantity,
    fun hne => ?_⟩
  obtain ⟨hs, hq⟩ := h.outcome hne
  obtain ⟨hs', hq'⟩ := h'.outcome (hs ▸ hne)
  exact ⟨hs'.trans hs, hq'.trans hq⟩

section Claims

private theorem claim_kept (h : Step settings allow d d') {id : Id} {c : DeliveryClaimRow}
    (hc : d.db.deliveryClaims.get? id = some c) :
    ∃ c', d'.db.deliveryClaims.get? id = some c' ∧ SameClaim c c' := by
  have hset : ∀ {db : Db} {id' : Id} {c' : DeliveryClaimRow} {f : DeliveryClaimRow → DeliveryClaimRow},
      db.deliveryClaims.get? id = some c → db.deliveryClaims.get? id' = some c' → SameClaim c' (f c') →
        ∃ c', (db.deliveryClaims.update id' f).get? id = some c' ∧ SameClaim c c' := by
    intro db id' c' f hc hc' hf
    rw [Table.get?_update, hc]
    split_ifs with hid
    · subst hid
      obtain rfl : c = c' := Option.some.inj (hc.symm.trans hc')
      exact ⟨_, rfl, hf⟩
    · exact ⟨c, rfl, .refl c⟩
  cases h with
  | prepareClaim => exact ⟨c, Table.get?_insert_old _ hc, .refl c⟩
  | @settleClaim db claimId c' dl q hc' hs hd hq hl =>
    refine hset hc hc' ⟨?_, ?_, ?_, fun hne => absurd hs hne⟩ <;> unfold settledClaim <;> split_ifs <;> rfl
  | cleanClaim hc' hs => exact hset hc hc' ⟨rfl, rfl, rfl, fun _ => ⟨rfl, rfl⟩⟩
  | _ => exact ⟨c, hc, .refl c⟩

private theorem claim_steps (h : Steps settings allow d d') {id : Id} {c : DeliveryClaimRow}
    (hc : d.db.deliveryClaims.get? id = some c) :
    ∃ c', d'.db.deliveryClaims.get? id = some c' ∧ SameClaim c c' := by
  induction h with
  | refl => exact ⟨c, hc, .refl c⟩
  | tail _ hs ih =>
    obtain ⟨c₁, hc₁, h₁⟩ := ih
    obtain ⟨c₂, hc₂, h₂⟩ := claim_kept hs hc₁
    exact ⟨c₂, hc₂, h₁.trans h₂⟩

end Claims

section Totals

/-- Totals only depend on the claims. -/
theorem DeliveryExact.congr {id : Id} {r r' : DeliveryRow} (h : DeliveryExact db id r)
    (hc : db'.deliveryClaims = db.deliveryClaims) (hr : r'.reservedQty = r.reservedQty)
    (hq : r'.claimedQty = r.claimedQty) (hn : r'.quantity = r.quantity) : DeliveryExact db' id r' := by
  refine ⟨?_, ?_, by rw [hr, hq]; exact h.nonneg, by rw [hr, hq, hn]; exact h.within⟩
  · rw [hr, h.reserved_eq, reserved, reserved, hc]
  · rw [hq, h.claimed_eq, applied, applied, hc]

theorem Exact.congr (h : Exact db) (hc : db'.deliveryClaims = db.deliveryClaims)
    (hd : db'.deliveries = db.deliveries) : Exact db' := by
  refine ⟨fun i c hi => ?_, fun i r hi => ?_⟩
  · obtain ⟨hdelivery, hpos, hle⟩ := h.claims i c (hc ▸ hi)
    exact ⟨hd ▸ hdelivery, hpos, hle⟩
  · exact (h.deliveries i r (hd ▸ hi)).congr hc rfl rfl rfl

/-- A new delivery has no claims yet. -/
theorem Exact.deliver (h : Exact db) (playerUuid : String) (marketId : Id) (q : ℤ)
    (reason : DeliveryReason) : Exact (Db.deliver db playerUuid marketId q reason) := by
  by_cases hq : q ≤ 0
  · exact h.congr rfl (by rw [Db.deliver_deliveries, if_pos hq])
  · have hrows : (Db.deliver db playerUuid marketId q reason).deliveries =
        db.deliveries.insert { playerUuid, marketId, quantity := q, reason } := by
      rw [Db.deliver_deliveries, if_neg hq]
    refine ⟨fun i c hi => ?_, fun i r hi => ?_⟩
    · obtain ⟨⟨r, hr⟩, hpos, hle⟩ := h.claims i c hi
      exact ⟨⟨r, hrows ▸ Table.get?_insert_old _ hr⟩, hpos, hle⟩
    · rw [hrows] at hi
      rcases Table.get?_insert_cases hi with ⟨rfl, rfl⟩ | ⟨-, hi⟩
      · have hother : ∀ i c, db.deliveryClaims.get? i = some c → c.deliveryId ≠ db.deliveries.nextId := by
          intro i c hc
          obtain ⟨r, hr⟩ := (h.claims i c hc).delivery
          exact Table.ne_nextId hr
        refine ⟨?_, ?_, ⟨le_rfl, le_rfl⟩, by simp only; omega⟩
        · exact (Table.sum_eq_zero fun i c hc => if_neg fun he => hother i c hc he.1).symm
        · exact (Table.sum_eq_zero fun i c hc => if_neg fun he => hother i c hc he.1).symm
      · exact (h.deliveries i r hi).congr rfl rfl rfl rfl

/-- A claim reserves what it was prepared for. -/
theorem Exact.prepare (h : Exact db) {deliveryId : Id} {r : DeliveryRow} {q : ℤ}
    (hr : db.deliveries.get? deliveryId = some r) (hq : 0 < q)
    (hl : r.claimedQty + r.reservedQty + q ≤ r.quantity) : Exact (Db.setDelivery
      (Db.addClaim db { deliveryId, playerUuid := r.playerUuid, quantity := q }) deliveryId fun r =>
        { r with reservedQty := r.reservedQty + q }) := by
  generalize hnew : ({ deliveryId, playerUuid := r.playerUuid, quantity := q } : DeliveryClaimRow) = c₀
  have hexists : ∀ {i : Id}, (∃ r, db.deliveries.get? i = some r) →
      ∃ r', (db.deliveries.update deliveryId fun r => { r with reservedQty := r.reservedQty + q }).get? i =
        some r' := by
    rintro i ⟨r', hr'⟩
    obtain ⟨r₁, hr₁, -⟩ := Table.exists_get?_update (R := fun _ _ => True) (fun _ => trivial)
      (fun _ => trivial) hr' _
    exact ⟨r₁, hr₁⟩
  have hreserved : ∀ i, reserved (Db.addClaim db c₀) i =
      reserved db i + if deliveryId = i then q else 0 := by
    intro i
    simp [reserved, ← hnew]
  have happlied : ∀ i, applied (Db.addClaim db c₀) i = applied db i := by
    intro i
    simp [applied, ← hnew]
  refine ⟨fun i c hi => ?_, fun i r' hi => ?_⟩
  · rcases Table.get?_insert_cases hi with ⟨-, rfl⟩ | ⟨-, hi⟩
    · subst hnew
      exact ⟨hexists ⟨r, hr⟩, hq, le_rfl, hq.le⟩
    · obtain ⟨hdelivery, hpos, hle⟩ := h.claims i c hi
      exact ⟨hexists hdelivery, hpos, hle⟩
  · rcases Table.get?_update_cases hi with ⟨rfl, r₁, hr₁, rfl⟩ | ⟨hne, hi⟩
    · obtain rfl : r₁ = r := Option.some.inj (hr₁.symm.trans hr)
      obtain ⟨hres, hcl, ⟨hres0, hcl0⟩, hwithin⟩ := h.deliveries i r₁ hr
      refine ⟨?_, hcl.trans (happlied i).symm, ⟨add_nonneg hres0 hq.le, hcl0⟩, by simp only; omega⟩
      simp only [hres]
      exact ((hreserved i).trans (by rw [if_pos rfl])).symm
    · obtain ⟨hres, hcl, hnn, hwithin⟩ := h.deliveries i r' hi
      refine ⟨hres.trans ?_, hcl.trans (happlied i).symm, hnn, hwithin⟩
      exact ((hreserved i).trans (by rw [if_neg (Ne.symm hne), add_zero])).symm

/-- A settled claim gives up its reservation for what it handed out. -/
theorem Exact.settle (h : Exact db) {claimId : Id} {c : DeliveryClaimRow} {r : DeliveryRow} {q : ℤ}
    (hc : db.deliveryClaims.get? claimId = some c) (hs : c.status = .prepared)
    (hr : db.deliveries.get? c.deliveryId = some r) (hq : 0 ≤ q) (hl : q ≤ c.quantity) :
    Exact (Db.setClaim (Db.setDelivery db c.deliveryId (settledDelivery q c.quantity)) claimId
      (settledClaim q)) := by
  have hsound := h.claims claimId c hc
  have hdelivery : (settledClaim q c).deliveryId = c.deliveryId := by
    unfold settledClaim
    split_ifs <;> rfl
  have hexists : ∀ {i : Id}, (∃ r, db.deliveries.get? i = some r) →
      ∃ r', (db.deliveries.update c.deliveryId (settledDelivery q c.quantity)).get? i = some r' := by
    rintro i ⟨r', hr'⟩
    obtain ⟨r₁, hr₁, -⟩ := Table.exists_get?_update (R := fun _ _ => True) (fun _ => trivial)
      (fun _ => trivial) hr' _
    exact ⟨r₁, hr₁⟩
  have hreserved : ∀ i, reserved (Db.setClaim db claimId (settledClaim q)) i =
      reserved db i - if c.deliveryId = i then c.quantity else 0 := by
    intro i
    rw [reserved, Db.setClaim_deliveryClaims, Table.sum_update _ _ hc, hdelivery, ← reserved]
    have hstatus : (settledClaim q c).status ≠ .prepared := by
      unfold settledClaim
      split_ifs <;> simp
    simp [hs, hstatus, sub_eq_add_neg]
  have happlied : ∀ i, applied (Db.setClaim db claimId (settledClaim q)) i =
      applied db i + if c.deliveryId = i then q else 0 := by
    intro i
    rw [applied, Db.setClaim_deliveryClaims, Table.sum_update _ _ hc, hdelivery, ← applied]
    by_cases hq0 : q = 0 <;> simp [settledClaim, hs, hq0]
  refine ⟨fun i c' hi => ?_, fun i r' hi => ?_⟩
  · rcases Table.get?_update_cases hi with ⟨rfl, c₁, hc₁, rfl⟩ | ⟨-, hi⟩
    · obtain rfl : c₁ = c := Option.some.inj (hc₁.symm.trans hc)
      refine ⟨hdelivery ▸ hexists hsound.delivery, ?_, ?_⟩ <;> unfold settledClaim <;> split_ifs
      · exact hsound.quantity_pos
      · exact hsound.quantity_pos
      · exact ⟨le_rfl, hsound.quantity_pos.le⟩
      · exact ⟨hq, hl⟩
    · obtain ⟨hdel, hpos, hle⟩ := h.claims i c' hi
      exact ⟨hexists hdel, hpos, hle⟩
  · rcases Table.get?_update_cases hi with ⟨rfl, r₁, hr₁, rfl⟩ | ⟨hne, hi⟩
    · obtain rfl : r₁ = r := Option.some.inj (hr₁.symm.trans hr)
      obtain ⟨hres, hcl, ⟨hres0, hcl0⟩, hwithin⟩ := h.deliveries _ r₁ hr
      have hcovers : c.quantity ≤ r₁.reservedQty := by
        have hrest : 0 ≤ reserved (Db.setClaim db claimId (settledClaim q)) c.deliveryId := by
          refine Table.sum_nonneg fun j c' hj => ?_
          split_ifs with hp
          · rcases Table.get?_update_cases hj with ⟨rfl, c₁, hc₁, rfl⟩ | ⟨-, hj⟩
            · obtain rfl : c₁ = c := Option.some.inj (hc₁.symm.trans hc)
              have hsame : (settledClaim q c₁).quantity = c₁.quantity := by
                unfold settledClaim
                split_ifs <;> rfl
              rw [hsame]
              exact hsound.quantity_pos.le
            · exact (h.claims j c' hj).quantity_pos.le
          · exact le_rfl
        rw [hreserved, if_pos rfl, ← hres] at hrest
        linarith
      refine ⟨?_, ?_, ⟨?_, ?_⟩, ?_⟩
      · simp only [settledDelivery, hres]
        exact ((hreserved c.deliveryId).trans (by rw [if_pos rfl])).symm
      · simp only [settledDelivery, hcl]
        exact ((happlied c.deliveryId).trans (by rw [if_pos rfl])).symm
      · simp only [settledDelivery]
        omega
      · simp only [settledDelivery]
        omega
      · simp only [settledDelivery]
        omega
    · obtain ⟨hres, hcl, hnn, hwithin⟩ := h.deliveries i r' hi
      refine ⟨hres.trans ?_, hcl.trans ?_, hnn, hwithin⟩
      · exact ((hreserved i).trans (by rw [if_neg (Ne.symm hne), sub_zero])).symm
      · exact ((happlied i).trans (by rw [if_neg (Ne.symm hne), add_zero])).symm

private theorem exact_step (h : Step settings allow d d') (hI : Exact d.db) : Exact d'.db := by
  cases h with
  | @settleTrade db taker t => exact (hI.deliver t.buyerUuid t.marketId t.quantity .tradeBuy).congr rfl rfl
  | @closeMarket db orderId o =>
    exact (hI.deliver o.playerUuid o.marketId (if o.side = .buy then 0 else o.remainingQty)
      .marketRemainder).congr rfl rfl
  | @withdraw db orderId o refund returned =>
    exact (hI.deliver o.playerUuid o.marketId (if o.side = .buy then 0 else o.remainingQty)
      returned).congr rfl rfl
  | prepareClaim hr hq hl => exact hI.prepare hr hq hl
  | settleClaim hc hs hr hq hl => exact hI.settle hc hs hr hq hl
  | @cleanClaim db claimId c hc hs =>
    have hsame : ∀ w : DeliveryClaimRow → ℤ, (∀ c, w { c with cleaned := true } = w c) →
        (db.deliveryClaims.update claimId fun c => { c with cleaned := true }).sum w =
          db.deliveryClaims.sum w :=
      fun w hw => Table.sum_update_of_eq w _ _ _ fun c _ => hw c
    refine ⟨fun i c' hi => ?_, fun i r hi => ?_⟩
    · rcases Table.get?_update_cases hi with ⟨-, c₁, hc₁, rfl⟩ | ⟨-, hi⟩
      · obtain ⟨hdel, hpos, hle⟩ := hI.claims _ c₁ hc₁
        exact ⟨hdel, hpos, hle⟩
      · obtain ⟨hdel, hpos, hle⟩ := hI.claims i c' hi
        exact ⟨hdel, hpos, hle⟩
    · obtain ⟨hres, hcl, hnn, hwithin⟩ := hI.deliveries i r hi
      exact ⟨hres.trans (hsame _ fun _ => rfl).symm, hcl.trans (hsame _ fun _ => rfl).symm, hnn, hwithin⟩
  | @orderEscrow db escrowId orderId e =>
    exact (hI.deliver e.playerUuid e.marketId (e.taggedQty - e.requestedQty) .escrowExcess).congr rfl rfl
  | _ => exact hI.congr rfl rfl

theorem reachable_exact (h : Reachable settings db) : Exact db :=
  h.induct (I := fun d => Exact d.db) ⟨fun i c hc => by simp at hc, fun i r hr => by simp at hr⟩ exact_step

end Totals

section Completions

/-- What `completeDeliveryClaim` raises when a delivery does not cover its claim. -/
def reservationFailure : Error := .runtime "delivery reservation invariant failed"

theorem Exact.completes_raises (h : Exact db) {claimId : Id} {q : ℤ} (hq : 0 ≤ q) :
    RaisesOnly (· ≠ reservationFailure) (completeDeliveryClaimTx claimId q) db := by
  refine .bind (.selectOne (by decide)) fun c db₁ hc => ?_
  obtain ⟨c', hget, hp⟩ := selectOne_ok.mp hc
  obtain ⟨rfl, rfl⟩ := Prod.mk.inj hp
  refine .ite (fun _ => .throwIf fun _ => by decide) fun hs => ?_
  refine .bind (.throwIf fun _ => by decide) fun u db₁ hthrow => ?_
  obtain ⟨hle, hp⟩ := throwIf_ok.mp hthrow
  obtain ⟨-, rfl⟩ := Prod.mk.inj hp
  refine .bind (.selectOne (by decide)) fun r db₁ hr => ?_
  obtain ⟨r', hrow, hp⟩ := selectOne_ok.mp hr
  obtain ⟨rfl, rfl⟩ := Prod.mk.inj hp
  -- The totals after the settlement are those of a sound delivery again.
  have hsettled := h.settle hget (not_not.mp hs) hrow hq (not_lt.mp hle)
  have hrow' : (Db.setClaim (Db.setDelivery db c'.deliveryId (settledDelivery q c'.quantity)) claimId
      (settledClaim q)).deliveries.get? c'.deliveryId = some (settledDelivery q c'.quantity r') := by
    rw [Db.setClaim_deliveries, Db.setDelivery_deliveries, Table.get?_update_self, hrow, Option.map_some]
  have hnn := (hsettled.deliveries _ _ hrow').nonneg
  have hwithin := (hsettled.deliveries _ _ hrow').within
  simp only [settledDelivery] at hnn hwithin
  refine .bind (.throwIf fun hfail => ?_) fun _ _ _ => .bind .execute fun _ _ _ => .execute
  omega

private theorem complete_never_short (h : Exact db) (claimId : Id) (q : ℤ) (faults : List Fault) :
    (completeDeliveryClaim claimId q faults db).1 ≠ .threw reservationFailure := by
  have htriple : Triple (· = db) (completeDeliveryClaim claimId q) (fun _ _ => True)
      (fun e _ => e ≠ reservationFailure) (fun _ => True) := by
    refine Triple.guard (fun _ _ _ => by decide) fun hq => ?_
    refine Triple.atomic (fun _ _ => trivial) (fun _ _ => by decide)
      (fun _ _ _ _ _ => ⟨trivial, by decide⟩) fun s e hs he => ?_
    exact h.completes_raises (not_lt.mp hq) e (hs ▸ he)
  intro hthrew
  have hx := htriple faults db rfl
  simp only [Ends, hthrew] at hx
  exact hx rfl

/-- Completing a settled claim again: the same quantity changes nothing, another one raises. -/
theorem complete_again {claimId : Id} {c : DeliveryClaimRow} (hc : db.deliveryClaims.get? claimId = some c)
    (hs : c.status ≠ .prepared) (q : ℤ) (faults : List Fault) :
    (completeDeliveryClaim claimId q faults db).2.2 = db ∧
      (q = handedOut c → (completeDeliveryClaimTx claimId q db) = .ok (⟨⟩, db)) ∧
      (q ≠ handedOut c → ∃ e, completeDeliveryClaimTx claimId q db = .error e) := by
  have hrepeat : completeDeliveryClaimTx claimId q db = throwIf
      (¬ (c.status = .applied ∧ c.appliedQty = q ∨ c.status = .canceled ∧ q = 0))
      (.runtime "delivery claim was already completed differently") db := by
    have hget : selectOne (fun db : Db => db.deliveryClaims.get? claimId)
        (Error.runtime "delivery claim does not exist") db = .ok (c, db) := selectOne_ok.mpr ⟨c, hc, rfl⟩
    change (Except.bind _ _) = _
    rw [hget]
    simp only [Except.bind, ne_eq, hs, not_false_eq_true, if_true]
  have hkeeps : Keeps (· = db) (completeDeliveryClaim claimId q) := by
    refine Keeps.guard fun _ => Keeps.atomic fun s u s' hstart hb => ?_
    rw [hstart, hrepeat] at hb
    exact ((Prod.mk.inj (throwIf_ok.mp hb).2).2).symm
  refine ⟨hkeeps.final faults rfl, fun hq => ?_, fun hq => ?_⟩
  · rw [hrepeat]
    refine throwIf_ok.mpr ⟨not_not.mpr ?_, rfl⟩
    cases hst : c.status with
    | prepared => exact absurd hst hs
    | applied => exact .inl ⟨rfl, by simp [hq, handedOut, hst]⟩
    | canceled => exact .inr ⟨rfl, by simp [hq, handedOut, hst]⟩
  · refine ⟨_, hrepeat.trans (throwIf_error.mpr ⟨?_, rfl⟩)⟩
    rintro (⟨ha, he⟩ | ⟨hcan, he⟩)
    · exact hq (by simp [handedOut, ha, he])
    · exact hq (by simp [handedOut, hcan, he])

/-- The claims of a delivery share its units. -/
theorem Exact.shares (h : Exact db) {id : Id} {r : DeliveryRow} (hr : db.deliveries.get? id = some r) :
    (db.deliveryClaims.sum fun c => if c.deliveryId = id then handedOut c else 0) ≤ r.quantity := by
  obtain ⟨hres, hcl, -, hwithin⟩ := h.deliveries id r hr
  have hsplit : (db.deliveryClaims.sum fun c => if c.deliveryId = id then handedOut c else 0) =
      applied db id + reserved db id := by
    rw [applied, reserved, ← Table.sum_add]
    refine Table.sum_congr fun i c _ => ?_
    by_cases hd : c.deliveryId = id
    · cases hs : c.status <;> simp [hd, hs, handedOut]
    · simp [hd]
  rw [hsplit, ← hres, ← hcl]
  exact hwithin

end Completions

/-- Reservations and claims agree in every reachable state, the outcome of a claim is
final, and a completed claim is never completed differently. -/
theorem reservations_exact (h : Reachable settings db) :
    (∀ id r, db.deliveries.get? id = some r → DeliveryExact db id r ∧
      (db.deliveryClaims.sum fun c => if c.deliveryId = id then handedOut c else 0) ≤ r.quantity) ∧
    (∀ id c, db.deliveryClaims.get? id = some c → 0 ≤ c.appliedQty ∧ c.appliedQty ≤ c.quantity ∧
      ∀ (call : Call) faults, ∃ c',
        (call.leaves settings faults db).deliveryClaims.get? id = some c' ∧ SameClaim c c') ∧
    (∀ id c, db.deliveryClaims.get? id = some c → c.status ≠ .prepared → ∀ q faults,
      (completeDeliveryClaim id q faults db).2.2 = db ∧
      (q = handedOut c → completeDeliveryClaimTx id q db = .ok (⟨⟩, db)) ∧
      (q ≠ handedOut c → ∃ e, completeDeliveryClaimTx id q db = .error e)) ∧
    ∀ id q faults, (completeDeliveryClaim id q faults db).1 ≠ .threw reservationFailure := by
  have hexact := reachable_exact h
  refine ⟨fun id r hr => ⟨hexact.deliveries id r hr, hexact.shares hr⟩, fun id c hc => ?_,
    fun id c hc hs q faults => complete_again hc hs q faults, fun id => complete_never_short hexact id⟩
  obtain ⟨history, hrun⟩ := h
  have hsound := hexact.claims id c hc
  exact ⟨hsound.applied_le.1, hsound.applied_le.2, fun call faults =>
    claim_steps (hrun.leaves_steps call faults) hc⟩

/-- A delivery of four with one claim settled short and another still open. -/
theorem reservations_exact_open :
    let db := afterCalls sampleSettings [.activateMarket (diamondMarket "block"),
      .placeOrder (diamondOrder "alice" .sell .limit 400 4),
      .placeOrder (diamondOrder "bob" .buy .market 0 4), .prepareDeliveryClaim 1 "bob" 3,
      .completeDeliveryClaim 1 2, .prepareDeliveryClaim 1 "bob" 1]
    ∃ r, db.deliveries.get? 1 = some r ∧ r.claimedQty = 2 ∧ r.reservedQty = 1 ∧ DeliveryExact db 1 r := by
  intro db
  have hrow : ∃ r, db.deliveries.get? 1 = some r ∧ r.claimedQty = 2 ∧ r.reservedQty = 1 :=
    ⟨_, rfl, rfl, rfl⟩
  obtain ⟨r, hr, hc, hres⟩ := hrow
  exact ⟨r, hr, hc, hres, ((reservations_exact (reachable_afterCalls _ _)).1 1 r hr).1⟩
end EndstoneExchange.DeliveryReservations
