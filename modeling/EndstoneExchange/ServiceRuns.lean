import EndstoneExchange.ClearingRefinement

/-!
# Runs of the service

A run calls the public operations of the service one after the other, with any
arguments, starting from the migrated database. A call may raise at any of its
transactions, with or without the effect of the transaction that raised.
-/
namespace EndstoneExchange.ServiceRuns
open AutoIncrementTables KeyedTables AtomicTransactions.Transaction DurablePrograms ExchangeDomain
  ExchangeTransactions AccountOperations MarketOperations OrderMatching DeliveryOperations
  SellEscrowOperations EconomyTransferOperations FrameListingOperations ClearingSteps
  MatchingRefinement ClearingRefinement Relation

inductive Call
  | ensureAccount (playerUuid playerName : String)
  | addBalance (playerUuid playerName : String) (deltaCents : Cents)
  | activateMarket (market : Market)
  | closeMarket (marketId : Id)
  | retireMarket (marketId : Id)
  | placeOrder (request : OrderRequest)
  | cancelOrder (orderId : Id) (playerUuid : String) (administrator : Bool)
  | prepareDeliveryClaim (deliveryId : Id) (playerUuid : String) (quantity : ℤ)
  | completeDeliveryClaim (claimId : Id) (delivered : ℤ)
  | markDeliveryClaimCleaned (claimId : Id)
  | prepareSellEscrow (request : OrderRequest)
  | markSellEscrowTagged (escrowId : Id) (taggedQuantity receiptCount : ℤ)
  | executeSellEscrow (escrowId : Id)
  | cancelSellEscrow (escrowId : Id)
  | markSellEscrowCleaned (escrowId : Id)
  | prepareEconomyTransfer (playerUuid playerName : String) (direction : EconomyTransferDirection)
      (amountCents : Cents) (amountUnits : ℤ) (externalBalanceBeforeUnits : Option ℤ)
  | recordEconomyTransferAttempt (transferId : Id) (error : String)
  | markEconomyTransferExternalApplied (transferId : Id) (externalBalanceUnits : ℤ)
  | completeEconomyTransfer (transferId : Id)
  | failEconomyTransfer (transferId : Id) (error : String)
  | blockEconomyTransfer (transferId : Id) (error : String)
  | upsertFrameListing (listing : FrameListingRow) (administrator : Bool)
  | cancelFrameListing (listingId : Id) (requesterUuid : String) (administrator : Bool)
  | purchaseFrameListing (listingId : Id) (buyerUuid buyerName : String) (expectedPriceCents : Cents)
  | markFrameListingDropped (listingId : Id)
  | completeFrameListingPickup (listingId : Id)
  /-- Any of the operations that only read, `balance` to `unsettledFrameListings`. -/
  | inspect (answer : Db → Except Error PUnit)

/-- The program of a call; what it returns is left to the caller. -/
def Call.run (settings : Settings) : Call → Program Db Error PUnit
  | .ensureAccount uuid name => AccountOperations.ensureAccount settings uuid name
  | .addBalance uuid name delta => do let _ ← AccountOperations.addBalance settings uuid name delta
  | .activateMarket market => do let _ ← MarketOperations.activateMarket settings market
  | .closeMarket id => MarketOperations.closeMarket id
  | .retireMarket id => MarketOperations.retireMarket id
  | .placeOrder request => do let _ ← OrderMatching.placeOrder settings request
  | .cancelOrder id uuid administrator => OrderMatching.cancelOrder id uuid administrator
  | .prepareDeliveryClaim id uuid quantity => do
    let _ ← DeliveryOperations.prepareDeliveryClaim id uuid quantity
  | .completeDeliveryClaim id delivered => DeliveryOperations.completeDeliveryClaim id delivered
  | .markDeliveryClaimCleaned id => DeliveryOperations.markDeliveryClaimCleaned id
  | .prepareSellEscrow request => do let _ ← SellEscrowOperations.prepareSellEscrow settings request
  | .markSellEscrowTagged id tagged receipts =>
    SellEscrowOperations.markSellEscrowTagged id tagged receipts
  | .executeSellEscrow id => do let _ ← SellEscrowOperations.executeSellEscrow id
  | .cancelSellEscrow id => SellEscrowOperations.cancelSellEscrow id
  | .markSellEscrowCleaned id => SellEscrowOperations.markSellEscrowCleaned id
  | .prepareEconomyTransfer uuid name direction cents units before => do
    let _ ← EconomyTransferOperations.prepareEconomyTransfer settings uuid name direction cents units
      before
  | .recordEconomyTransferAttempt id error =>
    EconomyTransferOperations.recordEconomyTransferAttempt id error
  | .markEconomyTransferExternalApplied id units =>
    EconomyTransferOperations.markEconomyTransferExternalApplied id units
  | .completeEconomyTransfer id => do let _ ← EconomyTransferOperations.completeEconomyTransfer id
  | .failEconomyTransfer id error => do
    let _ ← EconomyTransferOperations.failEconomyTransfer id error
  | .blockEconomyTransfer id error => EconomyTransferOperations.blockEconomyTransfer id error
  | .upsertFrameListing listing administrator => do
    let _ ← FrameListingOperations.upsertFrameListing settings listing administrator
  | .cancelFrameListing id uuid administrator =>
    FrameListingOperations.cancelFrameListing id uuid administrator
  | .purchaseFrameListing id uuid name price => do
    let _ ← FrameListingOperations.purchaseFrameListing settings id uuid name price
  | .markFrameListingDropped id => FrameListingOperations.markFrameListingDropped id
  | .completeFrameListingPickup id => FrameListingOperations.completeFrameListingPickup id
  | .inspect answer => transaction fun db => (answer db).map fun u => (u, db)

/-- The database a call leaves behind under a schedule of faults. -/
def Call.leaves (c : Call) (settings : Settings) (faults : List Fault) (db : Db) : Db :=
  (c.run settings faults db).2.2

/-- A call of a run with the databases before and after it. -/
structure Event where
  call : Call
  before : Db
  after : Db

/-- The runs from the migrated database, with the calls made so far, oldest first. -/
inductive Run (settings : Settings) : List Event → Db → Prop
  | start : Run settings [] {}
  | call {history : List Event} {db : Db} (h : Run settings history db) (c : Call)
      (faults : List Fault) :
      Run settings (history ++ [⟨c, db, c.leaves settings faults db⟩]) (c.leaves settings faults db)

def Reachable (settings : Settings) (db : Db) : Prop := ∃ history, Run settings history db

/-- What further calls make of a database. -/
def Later (settings : Settings) : Db → Db → Prop :=
  ReflTransGen fun db db' => ∃ (c : Call) (faults : List Fault), db' = c.leaves settings faults db

/-- The special steps a call may make. -/
def Call.Allows : Call → Special → Prop
  | .addBalance .., .adjustBalance => True
  | .retireMarket id, .retireMarket id' => id = id'
  | .placeOrder request, .openSell => request.side = .sell
  | .markSellEscrowTagged id .., .tagEscrow id' => id = id'
  | .executeSellEscrow _, .openSell => True
  | .executeSellEscrow id, .orderEscrow id' => id = id'
  | .activateMarket _, .changeMarkets => True
  | .closeMarket _, .changeMarkets => True
  | .retireMarket _, .changeMarkets => True
  | .upsertFrameListing .., .changeFrames => True
  | .cancelFrameListing .., .changeFrames => True
  | .purchaseFrameListing .., .changeFrames => True
  | .markFrameListingDropped _, .changeFrames => True
  | .completeFrameListingPickup _, .changeFrames => True
  | _, _ => False

section Invariants
variable {settings : Settings} {allow : Special → Prop} {d d' : Desk} {db db' : Db}

private theorem escrowsPlaceable_step (h : Step settings allow d d') (hI : EscrowsPlaceable d.db) :
    EscrowsPlaceable d'.db := by
  have hset : ∀ {db : Db} {id : Id} {f : SellEscrowRow → SellEscrowRow}, EscrowsPlaceable db →
      (∀ e, escrowRequest (f e) = escrowRequest e) → EscrowsPlaceable (Db.setEscrow db id f) := by
    intro db id f hI hf i e he
    rw [Db.setEscrow_sellEscrows, Table.get?_update] at he
    split_ifs at he with hi
    · obtain ⟨e', he', rfl⟩ := Option.map_eq_some_iff.mp he
      rw [hf]
      exact hI i e' he'
    · exact hI i e he
  cases h with
  | prepareEscrow hm ha hq hs hp =>
    intro i e he
    rw [Db.addEscrow_sellEscrows, Table.get?_insert] at he
    split_ifs at he with hi
    · obtain rfl := Option.some.inj he
      exact ⟨hq, hp.1⟩
    · exact hI i e he
  | tagEscrow => exact hset hI fun _ => rfl
  | orderEscrow => exact hset hI fun _ => rfl
  | cancelEscrow => exact hset hI fun _ => rfl
  | cleanEscrow => exact hset hI fun _ => rfl
  | _ => exact hI

/-- An invariant of single steps holds along any number of them. -/
theorem Steps.induct {I : Desk → Prop} (hstep : ∀ {d d'}, Step settings allow d d' → I d → I d')
    (h : Steps settings allow d d') (hI : I d) : I d' := by
  induction h with
  | refl => exact hI
  | tail _ h ih => exact hstep h ih

end Invariants

section Refinement
variable {settings : Settings} {allow : Special → Prop} {start : Db}

/-- The states that clearing steps lead to from `start`. -/
def Follows (settings : Settings) (allow : Special → Prop) (start db : Db) : Prop :=
  Steps settings allow ⟨start, none⟩ ⟨db, none⟩ ∧ EscrowsPlaceable db

theorem Follows.step {db db' : Db} (h : Follows settings allow start db)
    (hs : Steps settings allow ⟨db, none⟩ ⟨db', none⟩) : Follows settings allow start db' :=
  ⟨h.1.trans hs, Steps.induct (I := fun d => EscrowsPlaceable d.db) escrowsPlaceable_step hs h.2⟩

theorem transaction_follows {α : Type} {body : Tx α}
    (h : ∀ db a db', EscrowsPlaceable db → body db = .ok (a, db') →
      Steps settings allow ⟨db, none⟩ ⟨db', none⟩) :
    Keeps (Follows settings allow start) (transaction body) :=
  Keeps.atomic fun db a db' hf hb => hf.step (h db a db' hf.2 hb)

/-- A transaction that only reads. -/
theorem query_follows {α : Type} {body : Tx α} (h : ∀ db a db', body db = .ok (a, db') → db' = db) :
    Keeps (Follows settings allow start) (transaction body) :=
  transaction_follows fun db a db' _ hb => by
    rw [h db a db' hb]

theorem select_follows {α : Type} (f : Db → α) :
    Keeps (Follows settings allow start) (transaction (select f)) :=
  query_follows fun _ _ _ h => ((Prod.mk.inj (select_ok.mp h)).2).symm

theorem discard_follows {α : Type} {x : Program Db Error α}
    (h : Keeps (Follows settings allow start) x) :
    Keeps (Follows settings allow start) (do let _ ← x) := h.bind fun _ => Keeps.pure

theorem ensureAccount_follows (playerUuid playerName : String) :
    Keeps (Follows settings allow start) (ensureAccount settings playerUuid playerName) :=
  Keeps.guard fun _ => transaction_follows fun _ _ _ _ => ensureAccountTx_steps

theorem placeable_of_checked {request : OrderRequest} {u : PUnit}
    (h : validateRequest settings request = .ok u) : Placeable request :=
  have hv := validateRequest_ok.mp h
  ⟨hv.quantity_pos, hv.price_pos⟩

theorem placeBuy_follows {request : OrderRequest} (hp : Placeable request) (hside : request.side = .buy) :
    Keeps (Follows settings allow start) (transaction (placeBuy request)) :=
  transaction_follows fun _ _ _ _ => placeBuy_steps hp hside

theorem placeSell_follows {request : OrderRequest} (hp : Placeable request)
    (hside : request.side = .sell) (ha : allow .openSell) :
    Keeps (Follows settings allow start) (transaction (placeSell request)) := by
  refine transaction_follows fun db r db' _ hb => ?_
  obtain ⟨hopen, hrest, -, -⟩ := (@placeSellLocked_steps _ _ _ settings allow) hp hside hb
  exact (hrest allow).head (hopen ha)

private theorem placeOrder_follows {request : OrderRequest} (ha : request.side = .sell → allow .openSell) :
    Keeps (Follows settings allow start) (placeOrder settings request) := by
  cases hv : validateRequest settings request with
  | error e =>
    simp only [placeOrder, hv]
    exact Triple.bind (R := fun _ _ => False) (Triple.throw fun _ h => h) fun _ _ _ h => h.elim
  | ok u =>
    simp only [placeOrder, hv]
    refine Keeps.pure.bind fun _ => (ensureAccount_follows _ _).bind fun _ => ?_
    cases hside : request.side with
    | buy => exact placeBuy_follows (placeable_of_checked hv) hside
    | sell => exact placeSell_follows (placeable_of_checked hv) hside (ha hside)

theorem executeSellEscrow_follows {escrowId : Id} (ho : allow .openSell)
    (ha : allow (.orderEscrow escrowId)) :
    Keeps (Follows settings allow start) (executeSellEscrow escrowId) := by
  refine transaction_follows fun db r db' hI hb => ?_
  obtain ⟨e, he, hcase⟩ := executeSellEscrowTx_ok hb
  rcases hcase with ⟨-, hr⟩ | ⟨hs, db₁, hplace, hr⟩
  · obtain rfl : db' = db := hr
    exact .refl
  · obtain ⟨hopen, hrest, hid, hescrows, p, hrow⟩ :=
      (@placeSellLocked_steps _ _ _ settings allow) (hI escrowId e he) rfl hplace
    have he₁ : db₁.sellEscrows.get? escrowId = some e := by rw [hescrows, he]
    have horder := (@Step.orderEscrow settings) ha he₁ hs hrow rfl ⟨rfl, rfl, rfl⟩
    have hid' : r.orderId = db.orders.nextId := hid
    simp only at hr
    subst hr
    rw [← hid'] at horder
    exact ((hrest allow).head (hopen ho)).tail horder

private theorem prepareSellEscrow_follows {request : OrderRequest} :
    Keeps (Follows settings allow start) (prepareSellEscrow settings request) := by
  cases hv : validateRequest settings request with
  | error e =>
    simp only [prepareSellEscrow, hv]
    exact Triple.bind (R := fun _ _ => False) (Triple.throw fun _ h => h) fun _ _ _ h => h.elim
  | ok u =>
    simp only [prepareSellEscrow, hv]
    refine Keeps.pure.bind fun _ => Keeps.guard fun _ => (ensureAccount_follows _ _).bind fun _ => ?_
    exact transaction_follows fun _ _ _ _ => prepareSellEscrowTx_steps (placeable_of_checked hv)

/-- Every call is made of clearing steps, wherever it stops. -/
theorem Call.run_follows (c : Call) :
    Keeps (Follows settings c.Allows start) (c.run settings) := by
  cases c with
  | ensureAccount => exact ensureAccount_follows _ _
  | addBalance =>
    refine discard_follows ((ensureAccount_follows _ _).bind fun _ => ?_)
    exact transaction_follows fun _ _ _ _ => addBalanceTx_steps trivial
  | activateMarket market =>
    refine discard_follows (Keeps.guard fun _ => ?_)
    refine (transaction_follows fun _ _ _ _ => activateMarketTx_steps trivial).bind fun ⟨id, _⟩ => ?_
    refine (select_follows _).bind fun found => ?_
    cases found with
    | none => exact Keeps.throw
    | some m => exact Keeps.pure
  | closeMarket => exact transaction_follows fun _ _ _ _ => closeMarketTx_steps trivial
  | retireMarket => exact transaction_follows fun _ _ _ _ => retireMarketTx_steps rfl trivial
  | placeOrder => exact discard_follows (placeOrder_follows fun h => h)
  | cancelOrder => exact transaction_follows fun _ _ _ _ => cancelOrderTx_steps
  | prepareDeliveryClaim =>
    refine discard_follows (Keeps.guard fun hq => ?_)
    exact transaction_follows fun _ _ _ _ =>
      prepareDeliveryClaimTx_steps (not_le.mp fun h => hq (.inl h))
  | completeDeliveryClaim =>
    exact Keeps.guard fun hq =>
      transaction_follows fun _ _ _ _ => completeDeliveryClaimTx_steps (not_lt.mp hq)
  | markDeliveryClaimCleaned =>
    exact transaction_follows fun _ _ _ _ => markDeliveryClaimCleanedTx_steps
  | prepareSellEscrow => exact discard_follows prepareSellEscrow_follows
  | markSellEscrowTagged =>
    exact Keeps.guard fun _ => transaction_follows fun _ _ _ _ => markSellEscrowTaggedTx_steps rfl
  | executeSellEscrow => exact discard_follows (executeSellEscrow_follows trivial rfl)
  | cancelSellEscrow => exact transaction_follows fun _ _ _ _ => cancelSellEscrowTx_steps
  | markSellEscrowCleaned => exact transaction_follows fun _ _ _ _ => markSellEscrowCleanedTx_steps
  | prepareEconomyTransfer =>
    refine discard_follows (Keeps.guard fun _ => Keeps.guard fun hq =>
      (ensureAccount_follows _ _).bind fun _ => ?_)
    refine (transaction_follows fun _ _ _ _ =>
      prepareEconomyTransferTx_steps (not_le.mp fun h => hq (.inl h))).bind fun id => ?_
    refine (select_follows _).bind fun found => ?_
    cases found with
    | none => exact Keeps.throw
    | some t => exact Keeps.pure
  | recordEconomyTransferAttempt =>
    refine (transaction_follows fun _ _ _ _ => recordAttemptTx_steps).bind fun recorded => ?_
    cases recorded with
    | true => exact Keeps.pure
    | false =>
      refine (select_follows _).bind fun transfer => ?_
      by_cases ht : transfer.all (·.status = .failed)
      · simp only [ht, if_true]
        exact Keeps.throw
      · simp only [ht]
        exact Keeps.pure
  | markEconomyTransferExternalApplied =>
    exact transaction_follows fun _ _ _ _ => markEconomyTransferExternalAppliedTx_steps
  | completeEconomyTransfer =>
    exact discard_follows (transaction_follows fun _ _ _ _ => completeEconomyTransferTx_steps)
  | failEconomyTransfer =>
    exact discard_follows (transaction_follows fun _ _ _ _ => failEconomyTransferTx_steps)
  | blockEconomyTransfer => exact transaction_follows fun _ _ _ _ => blockEconomyTransferTx_steps
  | upsertFrameListing =>
    refine discard_follows (Keeps.guard fun _ => (ensureAccount_follows _ _).bind fun _ => ?_)
    exact transaction_follows fun _ _ _ _ => upsertFrameListingTx_steps trivial
  | cancelFrameListing => exact transaction_follows fun _ _ _ _ => cancelFrameListingTx_steps trivial
  | purchaseFrameListing =>
    refine discard_follows (Keeps.guard fun _ => (ensureAccount_follows _ _).bind fun _ => ?_)
    exact transaction_follows fun _ _ _ _ => purchaseFrameListingTx_steps trivial
  | markFrameListingDropped =>
    exact transaction_follows fun _ _ _ _ => markFrameListingDroppedTx_steps trivial
  | completeFrameListingPickup =>
    exact transaction_follows fun _ _ _ _ => completeFrameListingPickupTx_steps trivial
  | inspect answer =>
    refine query_follows fun db a db' h => ?_
    cases ha : answer db with
    | error e => simp [ha, Except.map] at h
    | ok u =>
      simp only [ha, Except.map, Except.ok.injEq, Prod.mk.injEq] at h
      exact h.2.symm

end Refinement

section Reachability
variable {settings : Settings} {allow : Special → Prop} {history : List Event} {db : Db}

theorem Call.leaves_follows (c : Call) (faults : List Fault) (h : EscrowsPlaceable db) :
    Follows settings c.Allows db (c.leaves settings faults db) :=
  (Call.run_follows c).final faults ⟨.refl, h⟩

theorem Run.escrowsPlaceable (h : Run settings history db) : EscrowsPlaceable db := by
  induction h with
  | start => intro i e he; simp at he
  | call _ c faults ih => exact (c.leaves_follows faults ih).2

/-- The steps a call adds to a run. -/
theorem Run.leaves_steps (h : Run settings history db) (c : Call) (faults : List Fault) :
    Steps settings c.Allows ⟨db, none⟩ ⟨c.leaves settings faults db, none⟩ :=
  (c.leaves_follows faults h.escrowsPlaceable).1

/-- An invariant of the clearing steps a run allows holds in the states it reaches. -/
theorem Run.induct {I : Desk → Prop} (hstart : I ⟨{}, none⟩)
    (hstep : ∀ {d d'}, Step settings allow d d' → I d → I d') (h : Run settings history db)
    (hallow : ∀ e ∈ history, ∀ s, e.call.Allows s → allow s) : I ⟨db, none⟩ := by
  induction h with
  | start => exact hstart
  | call h c faults ih =>
    have hI := ih fun e he => hallow e (List.mem_append_left _ he)
    have hc : ∀ s, c.Allows s → allow s :=
      hallow ⟨c, _, _⟩ (List.mem_append_right _ (List.mem_singleton_self _))
    exact Steps.induct (fun hs => hstep (hs.mono hc)) (h.leaves_steps c faults) hI

theorem Reachable.induct {I : Desk → Prop} (hstart : I ⟨{}, none⟩)
    (hstep : ∀ {d d'}, Step settings (fun _ => True) d d' → I d → I d') (h : Reachable settings db) :
    I ⟨db, none⟩ := by
  obtain ⟨history, h⟩ := h
  exact h.induct hstart hstep fun _ _ _ _ => trivial

theorem Reachable.call (h : Reachable settings db) (c : Call) (faults : List Fault) :
    Reachable settings (c.leaves settings faults db) := by
  obtain ⟨history, h⟩ := h
  exact ⟨_, h.call c faults⟩

theorem Later.reachable (h : Later settings db db') (hr : Reachable settings db) :
    Reachable settings db' := by
  induction h with
  | refl => exact hr
  | tail _ hc ih =>
    obtain ⟨c, faults, rfl⟩ := hc
    exact ih.call c faults

theorem Later.call (c : Call) (faults : List Fault) (h : c.leaves settings faults db = db') :
    Later settings db db' := .single ⟨c, faults, h.symm⟩

theorem Reachable.escrowsPlaceable (h : Reachable settings db) : EscrowsPlaceable db := by
  obtain ⟨history, h⟩ := h
  exact h.escrowsPlaceable

/-- The database after some calls that meet no fault, from the migrated one. -/
def afterCalls (settings : Settings) (calls : List Call) : Db :=
  calls.foldl (fun db c => c.leaves settings [] db) {}

theorem run_afterCalls (settings : Settings) (calls : List Call) :
    ∃ history, Run settings history (afterCalls settings calls) ∧ history.map Event.call = calls := by
  induction calls using List.reverseRecOn with
  | nil => exact ⟨[], .start, rfl⟩
  | append_singleton calls c ih =>
    obtain ⟨history, h, hcalls⟩ := ih
    have hlast : afterCalls settings (calls ++ [c]) = c.leaves settings [] (afterCalls settings calls) := by
      simp only [afterCalls, List.foldl_append, List.foldl_cons, List.foldl_nil]
    rw [hlast]
    exact ⟨_, h.call c [], by simp only [List.map_append, hcalls, List.map_cons, List.map_nil]⟩

theorem reachable_afterCalls (settings : Settings) (calls : List Call) :
    Reachable settings (afterCalls settings calls) := by
  obtain ⟨history, h, -⟩ := run_afterCalls settings calls
  exact ⟨history, h⟩

end Reachability

section Sample

/-- The defaults of the configuration, with the fingerprint of a plain diamond. -/
def sampleSettings : Settings where
  initialBalanceCents := 1000000
  maxOrderQuantity := 640
  sha2 := fun _ => [0x6a, 0x9a, 0x71, 0xb8, 0x4f, 0xf5, 0x8c, 0x76, 0xb9, 0x57, 0x1e, 0xdb, 0x9f, 0x9a,
    0x90, 0x21, 0x57, 0x53, 0x44, 0xfd, 0xfb, 0x9d, 0x11, 0x73, 0x39, 0x86, 0x6b, 0xb7, 0x98, 0x80,
    0x04, 0x42]
  initialBalance_nonneg := by decide
  initialBalance_le := by decide
  maxOrderQuantity_pos := by decide

/-- UMoney mode requires an opening balance of zero. -/
def umoneySettings : Settings :=
  { sampleSettings with
    initialBalanceCents := 0, initialBalance_nonneg := le_rfl, initialBalance_le := by decide }

def diamondMarket (targetKey : String) : Market :=
  { targetKey, targetKind := .block, dimensionName := "Overworld",
    item := { type := "minecraft:diamond", name := "Diamond" }, createdBy := "op" }

/-- An order of `alice` or `bob` on the first market. -/
def diamondOrder (player : String) (side : Side) (type : ExchangeDomain.OrderType) (priceCents : Cents)
    (quantity : ℤ) : OrderRequest :=
  { marketId := 1, playerUuid := player, playerName := player, side, type, priceCents, quantity }

end Sample
end EndstoneExchange.ServiceRuns
