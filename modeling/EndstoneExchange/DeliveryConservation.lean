import EndstoneExchange.DeliveryReservations
import EndstoneExchange.InventoryLoops

/-!
# Claims conserve a player's items

Whatever interrupts the claims, the items of the inventory and those still to be delivered
are together the same. Tagged items count as delivered from the moment their claim is applied.
-/
namespace EndstoneExchange.DeliveryConservation
open AutoIncrementTables AtomicTransactions.Transaction DurablePrograms ExchangeDomain ExchangeTransactions
  NbtCodec DeliveryOperations DeliveryReservations SellEscrowOperations InventorySessions InventoryLoops
  ClearingSteps RowHistories DeliveryOrigins ServiceRuns
open InventoryEscrow hiding tagSellItems tagStacks restoreTaggedSellItems replaceTaggedSellItemsWithReceipts Tagged
open AsciiNumerals (decimal)

section Kinds

/-- What tells the stacks of an inventory apart, but for their amounts. -/
structure Kind where
  type : String
  data : ℤ
  nbt : Entries

def kind (item : ItemStack) : Kind := ⟨item.type, item.data, item.nbt⟩

def Kind.mark (k : Kind) : Option Id := markerId k.nbt deliveryClaimTag

/-- The kind without the tag of its claim. -/
def Kind.bare (k : Kind) : Kind :=
  if k.mark = none then k else { k with nbt := erase deliveryClaimTag k.nbt }

open scoped Classical in
noncomputable def share (q : Kind → Prop) (item : ItemStack) : ℤ := if q (kind item) then item.amount else 0

/-- How many items of some kinds there are. -/
noncomputable def holding (q : Kind → Prop) (items : List ItemStack) : ℤ := (items.map (share q)).sum

def Stocked (items : List ItemStack) : Prop := ∀ item ∈ items, 0 < item.amount

variable {q q' : Kind → Prop} {items items' : List ItemStack} {item : ItemStack} {k : Kind} {id : Id}

theorem bare_mark (k : Kind) : k.bare.mark = none := by
  unfold Kind.bare
  split_ifs with h
  · exact h
  · rw [Kind.mark, markerId, lookup_erase, if_pos rfl]

theorem bare_of_mark (h : k.mark = some id) : k.bare = { k with nbt := erase deliveryClaimTag k.nbt } := by
  rw [Kind.bare, if_neg (by simp [h])]

theorem bare_of_unmarked (h : k.mark = none) : k.bare = k := if_pos h

theorem share_pos (h : q (kind item)) : share q item = item.amount := if_pos h

theorem share_neg (h : ¬ q (kind item)) : share q item = 0 := if_neg h

theorem share_congr (h : q (kind item) ↔ q' (kind item)) : share q item = share q' item := by
  by_cases hq : q (kind item)
  · rw [share_pos hq, share_pos (h.mp hq)]
  · rw [share_neg hq, share_neg fun hq' => hq (h.mpr hq')]

theorem share_nonneg (h : 0 ≤ item.amount) : 0 ≤ share q item := by
  by_cases hq : q (kind item)
  · rwa [share_pos hq]
  · rw [share_neg hq]

theorem holding_cons (q : Kind → Prop) (item : ItemStack) (items : List ItemStack) :
    holding q (item :: items) = share q item + holding q items := by
  rw [holding, List.map_cons, List.sum_cons, holding]

theorem holding_congr (h : ∀ item ∈ items, q (kind item) ↔ q' (kind item)) :
    holding q items = holding q' items :=
  congrArg List.sum (List.map_congr_left fun item hitem => share_congr (h item hitem))

theorem holding_eq_zero (h : ∀ item ∈ items, ¬ q (kind item)) : holding q items = 0 := by
  rw [holding, List.map_congr_left fun item hitem => share_neg (h item hitem)]
  simp

private theorem holding_nonneg (h : ∀ item ∈ items, 0 ≤ item.amount) : 0 ≤ holding q items := by
  refine List.sum_nonneg fun n hn => ?_
  obtain ⟨item, hitem, rfl⟩ := List.mem_map.mp hn
  exact share_nonneg (h item hitem)

theorem Stocked.nonneg (h : Stocked items) : 0 ≤ holding q items := holding_nonneg fun item hitem => (h item hitem).le

/-- An amount can only be missing if no such stack is there. -/
theorem Stocked.absent (h : Stocked items) (hzero : holding q items ≤ 0) : ∀ item ∈ items, ¬ q (kind item) := by
  induction items with
  | nil => intro item hitem; cases hitem
  | cons item items ih =>
    have hrest : Stocked items := fun i hi => h i (List.mem_cons_of_mem _ hi)
    have htail : 0 ≤ holding q items := hrest.nonneg
    have hhead : 0 ≤ share q item := share_nonneg (h item List.mem_cons_self).le
    rw [holding_cons] at hzero
    intro i hi hq
    rcases List.mem_cons.mp hi with rfl | hi
    · have hpos := h i List.mem_cons_self
      rw [share_pos hq] at hzero
      linarith
    · exact ih hrest (by linarith) i hi hq

theorem holding_or (hdisjoint : ∀ item ∈ items, q (kind item) → ¬ q' (kind item)) :
    holding (fun k => q k ∨ q' k) items = holding q items + holding q' items := by
  induction items with
  | nil => rfl
  | cons item items ih =>
    have hone : share (fun k => q k ∨ q' k) item = share q item + share q' item := by
      by_cases hq : q (kind item)
      · rw [share_pos (.inl hq), share_pos hq, share_neg (hdisjoint item List.mem_cons_self hq), add_zero]
      · rw [share_neg hq, zero_add]
        exact share_congr (or_iff_right hq)
    rw [holding_cons, holding_cons q, holding_cons q', hone,
      ih fun i hi => hdisjoint i (List.mem_cons_of_mem _ hi)]
    ring

theorem total_filter {p : ItemStack → Bool} (h : ∀ item ∈ items, p item = true ↔ q (kind item)) :
    total (items.filter p) = holding q items := by
  induction items with
  | nil => rfl
  | cons item items ih =>
    have hitem := h item List.mem_cons_self
    rw [holding_cons, ← ih fun i hi => h i (List.mem_cons_of_mem _ hi)]
    by_cases hp : p item = true
    · rw [List.filter_cons_of_pos hp, share_pos (hitem.mp hp), total, total, List.map_cons, List.sum_cons]
    · rw [List.filter_cons_of_neg hp, share_neg fun hq => hp (hitem.mpr hq), zero_add]

theorem forall₂_mem {R : ItemStack → ItemStack → Prop} (h : List.Forall₂ R items items') :
    List.Forall₂ (fun a b => a ∈ items ∧ R a b) items items' := by
  induction h with
  | nil => exact .nil
  | cons hab _ ih =>
    refine .cons ⟨List.mem_cons_self, hab⟩ (ih.imp fun a b hmem => ?_)
    exact ⟨List.mem_cons_of_mem _ hmem.1, hmem.2⟩

theorem mem_of_forall₂ {R : ItemStack → ItemStack → Prop} (h : List.Forall₂ R items items')
    (hitem : item ∈ items') : ∃ a ∈ items, R a item := by
  induction h with
  | nil => cases hitem
  | cons hab _ ih =>
    rcases List.mem_cons.mp hitem with rfl | hitem
    · exact ⟨_, List.mem_cons_self, hab⟩
    · obtain ⟨a, hmem, hrel⟩ := ih hitem
      exact ⟨a, List.mem_cons_of_mem _ hmem, hrel⟩

theorem holding_le_of_forall₂ {R : ItemStack → ItemStack → Prop} (h : List.Forall₂ R items items')
    (hR : ∀ a b, a ∈ items → R a b → share q b ≤ share q' a) : holding q items' ≤ holding q' items := by
  refine List.Forall₂.sum_le_sum ?_
  rw [List.forall₂_map_left_iff, List.forall₂_map_right_iff]
  exact (forall₂_mem h).flip.imp fun b a hab => hR a b hab.1 hab.2

private theorem holding_eq_of_forall₂ {R : ItemStack → ItemStack → Prop} (h : List.Forall₂ R items items')
    (hR : ∀ a b, a ∈ items → R a b → share q b = share q' a) : holding q items' = holding q' items := by
  refine le_antisymm (holding_le_of_forall₂ h fun a b ha hab => (hR a b ha hab).le) ?_
  refine List.Forall₂.sum_le_sum ?_
  rw [List.forall₂_map_left_iff, List.forall₂_map_right_iff]
  exact (forall₂_mem h).imp fun a b hab => (hR a b hab.1 hab.2).ge

theorem taggedItemCount_holding (inventory : PlayerInventory) (id : Id) :
    taggedItemCount inventory id = holding (fun k => k.mark = some id) inventory.items := by
  rw [taggedItemCount_eq]
  exact total_filter fun item _ => decide_eq_true_iff

theorem itemCount_holding (items : List ItemStack) : itemCount items = holding (fun _ => True) items := by
  rw [itemCount, total, holding]
  exact congrArg List.sum (List.map_congr_left fun item _ => (share_pos trivial).symm)

end Kinds

section Claims
variable {settings : Settings} {allow : Special → Prop} {d d' : Desk} {db : Db}

/-- A claim belongs to the owner of its delivery; only an applied one can be cleaned. -/
structure ClaimKept (db : Db) (c : DeliveryClaimRow) : Prop where
  owner : ∃ r, db.deliveries.get? c.deliveryId = some r ∧ r.playerUuid = c.playerUuid
  uncleaned : c.status = .prepared → c.cleaned = false

def ClaimsKept (db : Db) : Prop := ∀ i c, db.deliveryClaims.get? i = some c → ClaimKept db c

private theorem claimsKept_step (h : Step settings allow d d') (hI : ClaimsKept d.db) : ClaimsKept d'.db := by
  have howner : ∀ {c : DeliveryClaimRow} {c' : DeliveryClaimRow}, c'.deliveryId = c.deliveryId →
      c'.playerUuid = c.playerUuid → ClaimKept d.db c →
        ∃ r, d'.db.deliveries.get? c'.deliveryId = some r ∧ r.playerUuid = c'.playerUuid := by
    intro c c' hd hp hc
    obtain ⟨r, hr, hplayer⟩ := hc.owner
    obtain ⟨r', hr', hsame⟩ := delivery_kept h hr
    exact ⟨r', hd ▸ hr', by rw [hsame.player, hplayer, hp]⟩
  have hsame : ∀ {i : Id} {c : DeliveryClaimRow}, d.db.deliveryClaims.get? i = some c → ClaimKept d'.db c :=
    fun hc => ⟨howner rfl rfl (hI _ _ hc), (hI _ _ hc).uncleaned⟩
  intro i c hc
  have hkept := fun {id : Id} {r : DeliveryRow} (hr : d.db.deliveries.get? id = some r) => delivery_kept h hr
  cases h with
  | prepareClaim hr =>
    rcases Table.get?_insert_cases hc with ⟨-, rfl⟩ | ⟨-, hc⟩
    · obtain ⟨r', hr', hdelivery⟩ := hkept hr
      exact ⟨⟨r', hr', hdelivery.player⟩, fun _ => rfl⟩
    · exact hsame hc
  | @settleClaim db claimId c₀ dl q hc₀ hs =>
    rcases Table.get?_update_cases hc with ⟨rfl, c₁, hc₁, rfl⟩ | ⟨-, hc⟩
    · refine ⟨howner (c := c₁) ?_ ?_ (hI _ _ hc₁), fun hprepared => ?_⟩
      · unfold settledClaim
        split_ifs <;> rfl
      · unfold settledClaim
        split_ifs <;> rfl
      · unfold settledClaim at hprepared
        split_ifs at hprepared
    · exact hsame hc
  | @cleanClaim db claimId c₀ hc₀ hs =>
    rcases Table.get?_update_cases hc with ⟨rfl, c₁, hc₁, rfl⟩ | ⟨-, hc⟩
    · obtain rfl := Option.some.inj (hc₁.symm.trans hc₀)
      refine ⟨howner (c := c₁) rfl rfl (hI _ _ hc₁), fun hprepared => ?_⟩
      exact absurd (hprepared.symm.trans hs) (by decide)
    · exact hsame hc
  | _ => exact hsame hc

theorem reachable_claimsKept (h : Reachable settings db) : ClaimsKept db :=
  h.induct (I := fun d => ClaimsKept d.db) (fun i c hc => by simp at hc) claimsKept_step

end Claims

section Values

/-- The stacks that match a prototype. -/
def Matches (platform : Platform) (prototype : ItemPrototype) (k : Kind) : Prop :=
  k.type = prototype.type ∧ k.data = prototype.data ∧ originalNbt platform prototype = .ok k.nbt

/-- How many items of an inventory match a prototype. -/
def matching (platform : Platform) (prototype : ItemPrototype) (inventory : PlayerInventory) : ℤ :=
  total (inventory.items.filter fun item => matchesPrototype platform prototype item = .ok true)

theorem matching_holding (platform : Platform) (prototype : ItemPrototype) (inventory : PlayerInventory) :
    matching platform prototype inventory = holding (Matches platform prototype) inventory.items := by
  refine total_filter fun item _ => decide_eq_true_iff.trans ?_
  cases hnbt : originalNbt platform prototype with
  | error e =>
    rw [matchesPrototype_error hnbt, Matches, hnbt]
    constructor
    · intro h; cases h
    · rintro ⟨-, -, h⟩; cases h
  | ok nbt =>
    rw [matchesPrototype_ok hnbt, Matches, hnbt, Except.ok.injEq, Except.ok.injEq]
    simp only [Bool.and_eq_true, beq_iff_eq, ItemIdentity.sameEntries_iff, kind, and_assoc]
    exact and_congr Iff.rfl (and_congr Iff.rfl eq_comm)

/-- Prototypes of one item. -/
def SameKind (platform : Platform) (prototype item : ItemPrototype) : Prop :=
  item.type = prototype.type ∧ item.data = prototype.data ∧
    originalNbt platform item = originalNbt platform prototype

open scoped Classical in
noncomputable def pendingOf (platform : Platform) (playerUuid : String) (prototype : ItemPrototype) (db : Db)
    (r : DeliveryRow) : ℤ :=
  if r.playerUuid = playerUuid ∧ ∃ item, marketItem db r.marketId = some item ∧ SameKind platform prototype item then
    r.quantity - r.claimedQty else 0

/-- What a player's deliveries of a prototype still owe. -/
noncomputable def undelivered (platform : Platform) (playerUuid : String) (prototype : ItemPrototype) (db : Db) : ℤ :=
  db.deliveries.sum (pendingOf platform playerUuid prototype db)

def IsApplied (db : Db) (claimId : Id) : Prop :=
  ∃ c, db.deliveryClaims.get? claimId = some c ∧ c.status = .applied

/-- The items that count for a player: the matching ones, and those that will match once the tag
of an applied claim is off. -/
def Counts (platform : Platform) (prototype : ItemPrototype) (db : Db) (k : Kind) : Prop :=
  (∀ id, k.mark = some id → IsApplied db id) ∧ Matches platform prototype k.bare

noncomputable def worth (platform : Platform) (playerUuid : String) (prototype : ItemPrototype) (s : Session) : ℤ :=
  holding (Counts platform prototype s.db) s.inventory.items + undelivered platform playerUuid prototype s.db

/-- A kind as the stacks of a claim that is not finished have it. -/
def Tagged (platform : Platform) (playerUuid : String) (db : Db) (claimId : Id) (k : Kind) : Prop :=
  ∃ c r item nbt, db.deliveryClaims.get? claimId = some c ∧ c.playerUuid = playerUuid ∧
    DeliveryClaimRow.Unfinished c ∧ db.deliveries.get? c.deliveryId = some r ∧
    marketItem db r.marketId = some item ∧ originalNbt platform item = .ok nbt ∧
    k = ⟨item.type, item.data, Reader.insertOrAssign deliveryClaimTag (.string (decimal claimId)) nbt⟩

/-- NBT that holds none of the markers. -/
structure Unreserved (nbt : Entries) : Prop where
  claim : nbt.lookup deliveryClaimTag = none
  sale : markerId nbt sellItemTag = none
  receipt : markerId nbt sellReceiptTag = none

end Values

section Invariant
variable {server : Server} {settings : Settings} {playerUuid : String} {start s : Session} {room room' : ℕ}
  {id : Id} {c : DeliveryClaimRow}

/-- An escrow that is not the player's. -/
def Stranger (playerUuid : String) (start : Session) (escrowId : Id) : Prop :=
  ∀ e, start.db.sellEscrows.get? escrowId = some e → e.playerUuid ≠ playerUuid

/-- A delivery as it was at the start. -/
def SameOwner (start : Session) (id : Id) (r : DeliveryRow) : Prop :=
  ∃ r₀, start.db.deliveries.get? id = some r₀ ∧ r.playerUuid = r₀.playerUuid ∧ r.marketId = r₀.marketId

/-- What a player's claims maintain since the start. There are identifiers for `room` more claims. -/
structure Sound (server : Server) (settings : Settings) (playerUuid : String) (start : Session) (room : ℕ)
    (s : Session) : Prop where
  reachable : Reachable settings s.db
  ids : s.db.deliveryClaims.nextId + room ≤ 2 ^ 64
  markets : s.db.markets = start.db.markets
  escrows : s.db.sellEscrows = start.db.sellEscrows
  deliveries : ∀ id r, s.db.deliveries.get? id = some r → SameOwner start id r
  stocked : Stocked s.inventory.items
  strangers : ∀ item ∈ s.inventory.items, ∀ id, sellItemEscrowId item = some id ∨
    sellReceiptEscrowId item = some id → Stranger playerUuid start id
  tagged : ∀ item ∈ s.inventory.items, ∀ id, (kind item).mark = some id →
    Tagged server.toPlatform playerUuid s.db id (kind item)
  bounded : ∀ id c, s.db.deliveryClaims.get? id = some c → c.status = .prepared →
    holding (fun k => k.mark = some id) s.inventory.items ≤ c.quantity
  conserved : ∀ prototype, worth server.toPlatform playerUuid prototype s =
    worth server.toPlatform playerUuid prototype start

/-- The items of the player's deliveries have NBT without markers. -/
def Deliverable (platform : Platform) (playerUuid : String) (start : Session) : Prop :=
  ∀ id r, start.db.deliveries.get? id = some r → r.playerUuid = playerUuid →
    ∀ item nbt, marketItem start.db r.marketId = some item → originalNbt platform item = .ok nbt → Unreserved nbt

theorem Sound.mono (h : Sound server settings playerUuid start room s) (hle : room' ≤ room) :
    Sound server settings playerUuid start room' s :=
  { h with ids := (Nat.add_le_add_left hle _).trans h.ids }

theorem marketItem_congr {db db' : Db} (h : db'.markets = db.markets) (marketId : Id) :
    marketItem db' marketId = marketItem db marketId := by rw [marketItem, marketItem, h]

/-- The kind of a tagged stack and of its claim's items. -/
theorem Sound.kind_of (h : Sound server settings playerUuid start room s)
    (hdeliverable : Deliverable server.toPlatform playerUuid start) {item : ItemStack}
    (hitem : item ∈ s.inventory.items) (hmark : (kind item).mark = some id) :
    ∃ c r proto nbt, s.db.deliveryClaims.get? id = some c ∧ c.playerUuid = playerUuid ∧
      DeliveryClaimRow.Unfinished c ∧ s.db.deliveries.get? c.deliveryId = some r ∧ r.playerUuid = playerUuid ∧
      marketItem s.db r.marketId = some proto ∧ originalNbt server.toPlatform proto = .ok nbt ∧
      (kind item).bare = ⟨proto.type, proto.data, nbt⟩ ∧ Unreserved nbt := by
  obtain ⟨c, r, proto, nbt, hc, hplayer, hunfinished, hr, hproto, hnbt, hkind⟩ := h.tagged item hitem id hmark
  obtain ⟨r₁, hr₁, howner⟩ := (reachable_claimsKept h.reachable id c hc).owner
  cases hr.symm.trans hr₁
  have hrplayer : r.playerUuid = playerUuid := howner.trans hplayer
  obtain ⟨r₀, hr₀, hplayer₀, hmarket₀⟩ := h.deliveries _ r hr
  have hunreserved : Unreserved nbt := hdeliverable _ r₀ hr₀ (hplayer₀ ▸ hrplayer) proto nbt
    (by rw [← hmarket₀, ← marketItem_congr h.markets]; exact hproto) hnbt
  refine ⟨c, r, proto, nbt, hc, hplayer, hunfinished, hr, hrplayer, hproto, hnbt, ?_, hunreserved⟩
  rw [bare_of_mark hmark, hkind]
  simp only [erase_insertOrAssign _ _ hunreserved.claim]

theorem Sound.matches_iff (h : Sound server settings playerUuid start room s)
    (hdeliverable : Deliverable server.toPlatform playerUuid start) {item : ItemStack}
    (hitem : item ∈ s.inventory.items) (hmark : (kind item).mark = some id) {r : DeliveryRow}
    {proto prototype : ItemPrototype} (hc : s.db.deliveryClaims.get? id = some c)
    (hr : s.db.deliveries.get? c.deliveryId = some r) (hproto : marketItem s.db r.marketId = some proto) :
    Matches server.toPlatform prototype (kind item).bare ↔ SameKind server.toPlatform prototype proto := by
  obtain ⟨c₁, r₁, proto₁, nbt, hc₁, -, -, hr₁, -, hproto₁, hnbt, hbare, -⟩ := h.kind_of hdeliverable hitem hmark
  cases hc.symm.trans hc₁
  cases hr.symm.trans hr₁
  cases hproto.symm.trans hproto₁
  rw [hbare, Matches, SameKind, hnbt]
  exact and_congr Iff.rfl (and_congr Iff.rfl eq_comm)

end Invariant

section Clearing
variable {server : Server} {settings : Settings} {playerUuid : String} {start s : Session} {room : ℕ} {id : Id}
  {inventory : PlayerInventory}

/-- The kind once the tag of a claim is off. -/
def Kind.cleared (id : Id) (k : Kind) : Kind := if k.mark = some id then k.bare else k

theorem cleared_mark (id : Id) (k : Kind) : (k.cleared id).mark = if k.mark = some id then none else k.mark := by
  unfold Kind.cleared
  split_ifs
  · exact bare_mark k
  · rfl

private theorem cleared_bare (id : Id) (k : Kind) : (k.cleared id).bare = k.bare := by
  unfold Kind.cleared
  split_ifs
  · exact bare_of_unmarked (bare_mark k)
  · rfl

/-- The stack as it was, or without the tag of a claim. -/
def Uncovers (id : Id) (item item' : ItemStack) : Prop := item' = item ∨ item' = (clearTag id item).getD item

structure SameButTag (id : Id) (item item' : ItemStack) : Prop where
  amount : item'.amount = item.amount
  kind : kind item' = kind item ∨ kind item' = (kind item).cleared id
  sale : sellItemEscrowId item' = sellItemEscrowId item
  receipt : sellReceiptEscrowId item' = sellReceiptEscrowId item

theorem Uncovers.same {item item' : ItemStack} (h : Uncovers id item item') : SameButTag id item item' := by
  rcases h with rfl | rfl
  · exact ⟨rfl, .inl rfl, rfl, rfl⟩
  · have hmark : (kind item).mark = deliveryClaimId item := rfl
    rw [clearTag_eq]
    split_ifs with hid
    · refine ⟨rfl, .inr ?_, ?_, ?_⟩
      · rw [Kind.cleared, if_pos (hmark.trans hid)]
        exact (bare_of_mark (hmark.trans hid)).symm
      · simp only [Option.getD_some, sellItemEscrowId, markerId, lookup_erase]
        rw [if_neg (by decide)]
      · simp only [Option.getD_some, sellReceiptEscrowId, markerId, lookup_erase]
        rw [if_neg (by decide)]
    · exact ⟨rfl, .inl rfl, rfl, rfl⟩

/-- The tag of an applied claim can be taken off, and a tag that is nowhere. -/
theorem Sound.cleared (h : Sound server settings playerUuid start room s)
    (happlied : ∀ item ∈ s.inventory.items, (kind item).mark = some id → IsApplied s.db id)
    (hitems : List.Forall₂ (Uncovers id) s.inventory.items inventory.items) :
    Sound server settings playerUuid start room { s with inventory } := by
  constructor
  case reachable => exact h.reachable
  case ids => exact h.ids
  case markets => exact h.markets
  case escrows => exact h.escrows
  case deliveries => exact h.deliveries
  case stocked =>
    intro item hitem
    obtain ⟨old, hold, hrel⟩ := mem_of_forall₂ hitems hitem
    rw [hrel.same.amount]
    exact h.stocked old hold
  case strangers =>
    intro item hitem
    obtain ⟨old, hold, hrel⟩ := mem_of_forall₂ hitems hitem
    rw [hrel.same.sale, hrel.same.receipt]
    exact h.strangers old hold
  case tagged =>
    intro item hitem i hmark
    obtain ⟨old, hold, hrel⟩ := mem_of_forall₂ hitems hitem
    rcases hrel.same.kind with hkind | hkind
    · rw [hkind] at hmark ⊢
      exact h.tagged old hold i hmark
    · rw [hkind, cleared_mark] at hmark
      split_ifs at hmark with hid
      rw [hkind, Kind.cleared, if_neg hid]
      exact h.tagged old hold i hmark
  case bounded =>
    intro i c hc hs
    refine le_trans (holding_le_of_forall₂ hitems fun a b ha hab => ?_) (h.bounded i c hc hs)
    have hnonneg := (h.stocked a ha).le
    rcases hab.same.kind with hkind | hkind
    · have heq : share (fun k => k.mark = some i) b = share (fun k => k.mark = some i) a := by
        rw [share, share, hkind, hab.same.amount]
      exact heq.le
    · by_cases hmark : (kind b).mark = some i
      · rw [hkind, cleared_mark] at hmark
        split_ifs at hmark with hid
        rw [share_pos (by rw [hkind, cleared_mark, if_neg hid]; exact hmark), share_pos hmark, hab.same.amount]
      · rw [share_neg hmark]
        exact share_nonneg hnonneg
  case conserved =>
    intro prototype
    rw [← h.conserved, worth, worth]
    refine congrArg (· + _) (holding_eq_of_forall₂ hitems fun a b ha hab => ?_)
    have hcounts : Counts server.toPlatform prototype s.db (kind b) ↔
        Counts server.toPlatform prototype s.db (kind a) := by
      rcases hab.same.kind with hkind | hkind
      · rw [hkind]
      · rw [hkind, Counts, Counts, cleared_bare]
        refine and_congr ⟨fun hmarks i hmark => ?_, fun hmarks i hmark => ?_⟩ Iff.rfl
        · by_cases hid : (kind a).mark = some id
          · obtain rfl := Option.some.inj (hid.symm.trans hmark)
            exact happlied a ha hid
          · exact hmarks i (by rw [cleared_mark, if_neg hid]; exact hmark)
        · rw [cleared_mark] at hmark
          split_ifs at hmark
          exact hmarks i hmark
    by_cases hq : Counts server.toPlatform prototype s.db (kind a)
    · rw [share_pos (hcounts.mpr hq), share_pos hq, hab.same.amount]
    · rw [share_neg fun hb => hq (hcounts.mp hb), share_neg hq]

end Clearing

section Transactions
variable {db db' : Db} {claimId deliveryId : Id} {quantity delivered : ℤ} {playerUuid : String}

theorem prepareDeliveryClaimTx_ok {claim : DeliveryClaim}
    (h : prepareDeliveryClaimTx deliveryId playerUuid quantity db = .ok (claim, db')) :
    ∃ r item, db.deliveries.get? deliveryId = some r ∧ marketItem db r.marketId = some item ∧
      r.playerUuid = playerUuid ∧ claim.id = db.deliveryClaims.nextId ∧ claim.item = item ∧
      db' = Db.setDelivery (Db.addClaim db { deliveryId, playerUuid, quantity := claim.quantity }) deliveryId
        fun d => { d with reservedQty := d.reservedQty + claim.quantity } := by
  simp only [prepareDeliveryClaimTx, bind_ok, selectOne_ok, select_ok, throwIf_ok, execute_ok, pure_ok,
    exists_eq_left', exists_and_left, exists_exists_and_eq_and, and_assoc, not_not] at h
  obtain ⟨r, hr, item, hitem, hplayer, -, hresult⟩ := h
  obtain ⟨rfl, rfl⟩ := Prod.mk.inj hresult
  exact ⟨r, item, hr, hitem, hplayer, rfl, rfl, rfl⟩

theorem completeDeliveryClaimTx_ok {u : PUnit} (h : completeDeliveryClaimTx claimId delivered db = .ok (u, db')) :
    ∃ c, db.deliveryClaims.get? claimId = some c ∧
      (c.status ≠ .prepared ∧ (delivered ≠ 0 → c.status = .applied) ∧ db' = db ∨
        c.status = .prepared ∧ delivered ≤ c.quantity ∧
        ∃ r, db.deliveries.get? c.deliveryId = some r ∧ db' =
          Db.setClaim (Db.setDelivery db c.deliveryId (settledDelivery delivered c.quantity)) claimId
            (settledClaim delivered)) := by
  simp only [completeDeliveryClaimTx, bind_ok, selectOne_ok, ite_ok, throwIf_ok, execute_ok, exists_eq_left',
    exists_and_left, exists_exists_and_eq_and, and_assoc, not_not, not_lt] at h
  obtain ⟨c, hc, ⟨hs, hsame, hresult⟩ | ⟨hs, hle, r, hr, -, hresult⟩⟩ := h
  · obtain ⟨-, rfl⟩ := Prod.mk.inj hresult
    refine ⟨c, hc, .inl ⟨hs, fun hne => ?_, rfl⟩⟩
    rcases hsame with ⟨happlied, -⟩ | ⟨-, hzero⟩
    · exact happlied
    · exact absurd hzero hne
  · obtain ⟨-, rfl⟩ := Prod.mk.inj hresult
    exact ⟨c, hc, .inr ⟨hs, hle, r, hr, rfl⟩⟩

private theorem markDeliveryClaimCleanedTx_ok {u : PUnit} (h : markDeliveryClaimCleanedTx claimId db = .ok (u, db')) :
    ∃ c, db.deliveryClaims.get? claimId = some c ∧ c.status = .applied ∧
      db' = Db.setClaim db claimId fun c => { c with cleaned := true } := by
  simp only [markDeliveryClaimCleanedTx, bind_ok, selectOne_ok, throwIf_ok, execute_ok, exists_eq_left',
    exists_and_left, exists_exists_and_eq_and, and_assoc, not_not] at h
  obtain ⟨c, hc, hs, hresult⟩ := h
  obtain ⟨-, rfl⟩ := Prod.mk.inj hresult
  exact ⟨c, hc, hs, rfl⟩

/-- The same markets, escrows, deliveries and claims, and perhaps new claims. -/
structure Follows (db db' : Db) : Prop where
  markets : db'.markets = db.markets
  escrows : db'.sellEscrows = db.sellEscrows
  old : ∀ id r', db'.deliveries.get? id = some r' →
    ∃ r, db.deliveries.get? id = some r ∧ r'.playerUuid = r.playerUuid ∧ r'.marketId = r.marketId
  kept : ∀ id r, db.deliveries.get? id = some r →
    ∃ r', db'.deliveries.get? id = some r' ∧ r'.playerUuid = r.playerUuid ∧ r'.marketId = r.marketId
  claims : ∀ id c, db.deliveryClaims.get? id = some c →
    ∃ c', db'.deliveryClaims.get? id = some c' ∧ SameClaim c c'

theorem Follows.trans {db₁ : Db} (h : Follows db db₁) (h' : Follows db₁ db') : Follows db db' := by
  refine ⟨h'.markets.trans h.markets, h'.escrows.trans h.escrows, fun id r hr => ?_, fun id r hr => ?_,
    fun id c hc => ?_⟩
  · obtain ⟨r₁, hr₁, hp₁, hm₁⟩ := h'.old id r hr
    obtain ⟨r₂, hr₂, hp₂, hm₂⟩ := h.old id r₁ hr₁
    exact ⟨r₂, hr₂, hp₁.trans hp₂, hm₁.trans hm₂⟩
  · obtain ⟨r₁, hr₁, hp₁, hm₁⟩ := h.kept id r hr
    obtain ⟨r₂, hr₂, hp₂, hm₂⟩ := h'.kept id r₁ hr₁
    exact ⟨r₂, hr₂, hp₂.trans hp₁, hm₂.trans hm₁⟩
  · obtain ⟨c₁, hc₁, hs₁⟩ := h.claims id c hc
    obtain ⟨c₂, hc₂, hs₂⟩ := h'.claims id c₁ hc₁
    exact ⟨c₂, hc₂, hs₁.trans hs₂⟩

theorem follows_setDelivery (db : Db) (id : Id) {f : DeliveryRow → DeliveryRow}
    (hf : ∀ r, (f r).playerUuid = r.playerUuid ∧ (f r).marketId = r.marketId) :
    Follows db (Db.setDelivery db id f) := by
  refine ⟨rfl, rfl, fun i r hr => ?_, fun i r hr => ?_, fun i c hc => ⟨c, hc, .refl c⟩⟩
  · rcases Table.get?_update_cases hr with ⟨rfl, r', hr', rfl⟩ | ⟨-, hr⟩
    · exact ⟨r', hr', hf r'⟩
    · exact ⟨r, hr, rfl, rfl⟩
  · exact Table.exists_get?_update (R := fun a b => b.playerUuid = a.playerUuid ∧ b.marketId = a.marketId)
      (fun _ => ⟨rfl, rfl⟩) hf hr _

theorem follows_setClaim (db : Db) (id : Id) {f : DeliveryClaimRow → DeliveryClaimRow}
    (hf : ∀ c, db.deliveryClaims.get? id = some c → SameClaim c (f c)) : Follows db (Db.setClaim db id f) := by
  refine ⟨rfl, rfl, fun i r hr => ⟨r, hr, rfl, rfl⟩, fun i r hr => ⟨r, hr, rfl, rfl⟩, fun i c hc => ?_⟩
  rw [Db.setClaim_deliveryClaims, Table.get?_update, hc]
  split_ifs with hid
  · exact ⟨f c, rfl, hf c (hid ▸ hc)⟩
  · exact ⟨c, rfl, .refl c⟩

theorem follows_addClaim (db : Db) (c : DeliveryClaimRow) : Follows db (Db.addClaim db c) :=
  ⟨rfl, rfl, fun _ r hr => ⟨r, hr, rfl, rfl⟩, fun _ r hr => ⟨r, hr, rfl, rfl⟩,
    fun _ c hc => ⟨c, Table.get?_insert_old _ hc, .refl c⟩⟩

theorem sameClaim_settled (delivered : ℤ) {c : DeliveryClaimRow} (hs : c.status = .prepared) :
    SameClaim c (settledClaim delivered c) := by
  unfold settledClaim
  split_ifs
  · exact ⟨rfl, rfl, rfl, fun hne => absurd hs hne⟩
  · exact ⟨rfl, rfl, rfl, fun hne => absurd hs hne⟩

end Transactions

section Following
variable {server : Server} {settings : Settings} {playerUuid : String} {start s : Session} {room room' : ℕ}
  {id deliveryId : Id} {c : DeliveryClaimRow} {db' : Db}

theorem Sound.follows (h : Sound server settings playerUuid start room s) (hf : Follows s.db db')
    (hreachable : Reachable settings db') (hids : db'.deliveryClaims.nextId + room' ≤ 2 ^ 64)
    (hopen : ∀ item ∈ s.inventory.items, ∀ id c, (kind item).mark = some id →
      db'.deliveryClaims.get? id = some c → DeliveryClaimRow.Unfinished c)
    (hbounded : ∀ id c, db'.deliveryClaims.get? id = some c → c.status = .prepared →
      holding (fun k => k.mark = some id) s.inventory.items ≤ c.quantity)
    (hworth : ∀ prototype, worth server.toPlatform playerUuid prototype { s with db := db' } =
      worth server.toPlatform playerUuid prototype s) :
    Sound server settings playerUuid start room' { s with db := db' } := by
  constructor
  case reachable => exact hreachable
  case ids => exact hids
  case markets => exact hf.markets.trans h.markets
  case escrows => exact hf.escrows.trans h.escrows
  case deliveries =>
    intro i r hr
    obtain ⟨r₁, hr₁, hplayer, hmarket⟩ := hf.old i r hr
    obtain ⟨r₀, hr₀, hplayer₀, hmarket₀⟩ := h.deliveries i r₁ hr₁
    exact ⟨r₀, hr₀, hplayer.trans hplayer₀, hmarket.trans hmarket₀⟩
  case stocked => exact h.stocked
  case strangers => exact h.strangers
  case tagged =>
    intro item hitem i hmark
    obtain ⟨c, r, proto, nbt, hc, hplayer, -, hr, hproto, hnbt, hkind⟩ := h.tagged item hitem i hmark
    obtain ⟨c', hc', hsame⟩ := hf.claims i c hc
    obtain ⟨r', hr', -, hmarket⟩ := hf.kept _ r hr
    refine ⟨c', r', proto, nbt, hc', hsame.player.trans hplayer, hopen item hitem i c' hmark hc', ?_, ?_, hnbt,
      hkind⟩
    · rw [hsame.delivery]
      exact hr'
    · rw [marketItem_congr hf.markets, hmarket]
      exact hproto
  case bounded => exact hbounded
  case conserved => intro prototype; rw [hworth, h.conserved]

/-- The worth of a session whose deliveries owe the same. -/
theorem worth_congr {prototype : ItemPrototype} (happlied : ∀ item ∈ s.inventory.items, ∀ id,
    (kind item).mark = some id → (IsApplied db' id ↔ IsApplied s.db id))
    (hpending : undelivered server.toPlatform playerUuid prototype db' =
      undelivered server.toPlatform playerUuid prototype s.db) :
    worth server.toPlatform playerUuid prototype { s with db := db' } =
      worth server.toPlatform playerUuid prototype s := by
  rw [worth, worth, hpending]
  refine congrArg (· + _) (holding_congr fun item hitem => and_congr ?_ Iff.rfl)
  exact forall_congr' fun id => ⟨fun h hmark => (happlied item hitem id hmark).mp (h hmark),
    fun h hmark => (happlied item hitem id hmark).mpr (h hmark)⟩

theorem isApplied_congr {db db' : Db} (h : db'.deliveryClaims.get? id = db.deliveryClaims.get? id) :
    IsApplied db' id ↔ IsApplied db id := by rw [IsApplied, IsApplied, h]

private theorem unfinished_kept {db : Db} {c c' : DeliveryClaimRow} (h : db.deliveryClaims.get? id = some c)
    (h' : db.deliveryClaims.get? id = some c') (hopen : DeliveryClaimRow.Unfinished c) :
    DeliveryClaimRow.Unfinished c' := by
  cases h.symm.trans h'
  exact hopen

/-- The claim of a tagged stack is not finished. -/
theorem Sound.unfinished (h : Sound server settings playerUuid start room s) {item : ItemStack}
    (hitem : item ∈ s.inventory.items) (hmark : (kind item).mark = some id)
    (hc : s.db.deliveryClaims.get? id = some c) : DeliveryClaimRow.Unfinished c := by
  obtain ⟨c', _, _, _, hc', -, hopen, -⟩ := h.tagged item hitem id hmark
  exact unfinished_kept hc' hc hopen

theorem undelivered_update {platform : Platform} {prototype : ItemPrototype} {db : Db}
    {f : DeliveryRow → DeliveryRow} (hf : ∀ r, (f r).playerUuid = r.playerUuid ∧ (f r).marketId = r.marketId ∧
      (f r).quantity = r.quantity ∧ (f r).claimedQty = r.claimedQty) :
    undelivered platform playerUuid prototype (Db.setDelivery db deliveryId f) =
      undelivered platform playerUuid prototype db := by
  refine Table.sum_update_of_eq _ _ _ _ fun r _ => ?_
  obtain ⟨hp, hm, hq, hc⟩ := hf r
  change pendingOf platform playerUuid prototype db (f r) = pendingOf platform playerUuid prototype db r
  rw [pendingOf, pendingOf, hp, hm, hq, hc]

/-- A claim is prepared: it has an identifier of its own, which no stack is tagged by. -/
structure Prepared (playerUuid : String) (deliveryId : Id) (claim : DeliveryClaim) (s : Session) : Prop where
  lt : claim.id < 2 ^ 64
  pos : 0 < claim.quantity
  unmarked : ∀ item ∈ s.inventory.items, (kind item).mark ≠ some claim.id
  row : ∃ c, s.db.deliveryClaims.get? claim.id = some c ∧ c.playerUuid = playerUuid ∧ c.status = .prepared ∧
    c.quantity = claim.quantity ∧ c.deliveryId = deliveryId

theorem Sound.prepared {claim : DeliveryClaim} {pending : ℤ}
    (h : Sound server settings playerUuid start (room + 1) s) (hpending : 0 < pending) (hplayer : playerUuid ≠ "")
    (hb : prepareDeliveryClaimTx deliveryId playerUuid pending s.db = .ok (claim, db')) :
    Sound server settings playerUuid start room { s with db := db' } ∧
      Prepared playerUuid deliveryId claim { s with db := db' } := by
  have hreachable : Reachable settings db' := by
    have hleaves : (Call.prepareDeliveryClaim deliveryId playerUuid pending).leaves settings [] s.db = db' := by
      have hrun : prepareDeliveryClaim deliveryId playerUuid pending [] s.db = (.returned claim, [], db') := by
        rw [prepareDeliveryClaim, if_neg (by simp [hplayer, hpending])]
        exact transaction_returned hb
      rw [Call.leaves, Call.run, Program.bind_returned hrun]
      rfl
    exact hleaves ▸ h.reachable.call _ []
  obtain ⟨r, proto, hr, hproto, hrplayer, hid, -, hdb⟩ := prepareDeliveryClaimTx_ok hb
  have hpos : 0 < claim.quantity := by
    have hexact := (reachable_exact hreachable).claims claim.id
      { deliveryId, playerUuid, quantity := claim.quantity } (by rw [hdb, hid]; exact Table.get?_insert_self _ _)
    exact hexact.quantity_pos
  have hfresh : ∀ item ∈ s.inventory.items, ∀ i, (kind item).mark = some i → i ≠ s.db.deliveryClaims.nextId := by
    intro item hitem i hmark
    obtain ⟨c, _, _, _, hc, -⟩ := h.tagged item hitem i hmark
    exact Table.ne_nextId hc
  have hids := h.ids
  have hclaims : db'.deliveryClaims =
      s.db.deliveryClaims.insert { deliveryId, playerUuid, quantity := claim.quantity } := by rw [hdb]; rfl
  have hget : ∀ i, i ≠ s.db.deliveryClaims.nextId → db'.deliveryClaims.get? i = s.db.deliveryClaims.get? i := by
    intro i hi
    rw [hclaims, Table.get?_insert, if_neg hi]
  refine ⟨h.follows ?_ hreachable ?_ ?_ ?_ fun prototype => ?_, ?_, hpos, ?_, ?_⟩
  · rw [hdb]
    exact (follows_addClaim _ _).trans (follows_setDelivery _ _ fun _ => ⟨rfl, rfl⟩)
  · rw [hclaims, Table.nextId_insert]
    omega
  · intro item hitem i c hmark hc
    rw [hget i (hfresh item hitem i hmark)] at hc
    exact h.unfinished hitem hmark hc
  · intro i c hc hs
    rw [hclaims] at hc
    rcases Table.get?_insert_cases hc with ⟨rfl, rfl⟩ | ⟨-, hc⟩
    · rw [holding_eq_zero fun item hitem hmark => hfresh item hitem _ hmark rfl]
      exact hpos.le
    · exact h.bounded i c hc hs
  · refine worth_congr (fun item hitem i hmark => isApplied_congr (hget i (hfresh item hitem i hmark))) ?_
    rw [hdb]
    exact undelivered_update fun _ => ⟨rfl, rfl, rfl, rfl⟩
  · have hlt : s.db.deliveryClaims.nextId < 2 ^ 64 := by omega
    rw [hid]
    exact hlt
  · intro item hitem hmark
    exact hfresh item hitem _ hmark hid
  · exact ⟨_, by rw [hclaims, hid]; exact Table.get?_insert_self _ _, rfl, rfl, rfl, rfl⟩

/-- The tags of a claim may be forgotten once they are off. -/
theorem Sound.cleaned {u : PUnit} (h : Sound server settings playerUuid start room s)
    (hnone : ∀ item ∈ s.inventory.items, (kind item).mark ≠ some id)
    (hb : markDeliveryClaimCleanedTx id s.db = .ok (u, db')) :
    Sound server settings playerUuid start room { s with db := db' } ∧ Follows s.db db' := by
  have hreachable : Reachable settings db' := by
    have hleaves : (Call.markDeliveryClaimCleaned id).leaves settings [] s.db = db' := by
      rw [Call.leaves, Call.run, markDeliveryClaimCleaned, transaction_returned hb]
    exact hleaves ▸ h.reachable.call _ []
  obtain ⟨c, hc, hs, hdb⟩ := markDeliveryClaimCleanedTx_ok hb
  have hfollows : Follows s.db db' := by
    rw [hdb]
    exact follows_setClaim _ _ fun _ _ => ⟨rfl, rfl, rfl, fun _ => ⟨rfl, rfl⟩⟩
  have hclaims : db'.deliveryClaims = s.db.deliveryClaims.update id fun c => { c with cleaned := true } := by
    rw [hdb]; rfl
  refine ⟨h.follows hfollows hreachable ?_ ?_ ?_ fun prototype => ?_, hfollows⟩
  · rw [hclaims, Table.nextId_update]
    exact h.ids
  · intro item hitem i c' hmark hc'
    rw [hclaims, Table.get?_update_ne _ _ fun hi => hnone item hitem (hmark.trans (congrArg some hi))] at hc'
    exact h.unfinished hitem hmark hc'
  · intro i c' hc' hs'
    rw [hclaims] at hc'
    rcases Table.get?_update_cases hc' with ⟨rfl, c₁, hc₁, rfl⟩ | ⟨-, hc'⟩
    · exact h.bounded _ c₁ hc₁ hs'
    · exact h.bounded i c' hc' hs'
  · refine worth_congr (fun item hitem i hmark => isApplied_congr ?_) (by rw [hdb]; rfl)
    rw [hclaims, Table.get?_update_ne _ _ fun hi => hnone item hitem (hmark.trans (congrArg some hi))]

theorem pendingOf_settled {platform : Platform} {prototype : ItemPrototype} {db : Db} {delivered prepared : ℤ}
    {r : DeliveryRow} {proto : ItemPrototype} (hplayer : r.playerUuid = playerUuid)
    (hproto : marketItem db r.marketId = some proto) :
    (SameKind platform prototype proto →
      pendingOf platform playerUuid prototype db (settledDelivery delivered prepared r) =
        pendingOf platform playerUuid prototype db r - delivered) ∧
    (¬ SameKind platform prototype proto →
      pendingOf platform playerUuid prototype db (settledDelivery delivered prepared r) =
        pendingOf platform playerUuid prototype db r) := by
  have hcond : (∃ item, marketItem db r.marketId = some item ∧ SameKind platform prototype item) ↔
      SameKind platform prototype proto := by
    constructor
    · rintro ⟨item, hitem, hsame⟩
      cases hproto.symm.trans hitem
      exact hsame
    · exact fun hsame => ⟨proto, hproto, hsame⟩
  constructor
  · intro hsame
    have hc := And.intro hplayer (hcond.mpr hsame)
    rw [pendingOf, pendingOf, if_pos hc]
    refine (if_pos hc).trans ?_
    rw [settledDelivery]
    ring
  · intro hother
    have hc : ¬ (r.playerUuid = playerUuid ∧
        ∃ item, marketItem db r.marketId = some item ∧ SameKind platform prototype item) :=
      fun h => hother (hcond.mp h.2)
    rw [pendingOf, pendingOf, if_neg hc]
    exact if_neg hc

/-- The tagged items count from now on, and the delivery owes as many less. -/
theorem Sound.settled_worth {prototype : ItemPrototype} (h : Sound server settings playerUuid start room s)
    (hdeliverable : Deliverable server.toPlatform playerUuid start) (hc : s.db.deliveryClaims.get? id = some c)
    (hs : c.status = .prepared) {delivered : ℤ}
    (hdelivered : holding (fun k => k.mark = some id) s.inventory.items = delivered) (hne : delivered ≠ 0)
    {r : DeliveryRow} (hr : s.db.deliveries.get? c.deliveryId = some r)
    (hothers : ∀ i, i ≠ id → db'.deliveryClaims.get? i = s.db.deliveryClaims.get? i)
    (happlied : IsApplied db' id)
    (hdeliveries : db'.deliveries = s.db.deliveries.update c.deliveryId (settledDelivery delivered c.quantity))
    (hmarkets : db'.markets = s.db.markets) :
    worth server.toPlatform playerUuid prototype { s with db := db' } =
      worth server.toPlatform playerUuid prototype s := by
  obtain ⟨item, hitem, hmark⟩ : ∃ item ∈ s.inventory.items, (kind item).mark = some id := by
    by_contra hnone
    refine hne (hdelivered.symm.trans (holding_eq_zero fun item hitem hmark => hnone ⟨item, hitem, hmark⟩))
  obtain ⟨c₁, r₁, proto, nbt, hc₁, -, -, hr₁, hrplayer, hproto, -⟩ := h.kind_of hdeliverable hitem hmark
  cases hc.symm.trans hc₁
  cases hr.symm.trans hr₁
  have hnot : ¬ IsApplied s.db id := by
    rintro ⟨c', hc', hs'⟩
    cases hc.symm.trans hc'
    rw [hs] at hs'
    cases hs'
  have hcounts : ∀ item ∈ s.inventory.items, Counts server.toPlatform prototype db' (kind item) ↔
      Counts server.toPlatform prototype s.db (kind item) ∨
        (kind item).mark = some id ∧ Matches server.toPlatform prototype (kind item).bare := by
    intro item _
    by_cases hown : (kind item).mark = some id
    · have hbefore : ¬ Counts server.toPlatform prototype s.db (kind item) := fun hcounted =>
        hnot (hcounted.1 id hown)
      rw [or_iff_right hbefore]
      refine ⟨fun hcounted => ⟨hown, hcounted.2⟩, fun hmatch => ⟨fun i hi => ?_, hmatch.2⟩⟩
      cases hown.symm.trans hi
      exact happlied
    · have hother : ¬ ((kind item).mark = some id ∧ Matches server.toPlatform prototype (kind item).bare) :=
        fun hboth => hown hboth.1
      rw [or_iff_left hother]
      refine and_congr (forall_congr' fun i => ?_) Iff.rfl
      refine forall_congr' fun hi => isApplied_congr (hothers i ?_)
      rintro rfl
      exact hown hi
  have hpending : undelivered server.toPlatform playerUuid prototype db' =
      undelivered server.toPlatform playerUuid prototype s.db +
        (pendingOf server.toPlatform playerUuid prototype s.db (settledDelivery delivered c.quantity r) -
          pendingOf server.toPlatform playerUuid prototype s.db r) := by
    have hcolumn : pendingOf server.toPlatform playerUuid prototype db' =
        pendingOf server.toPlatform playerUuid prototype s.db := by
      have hitems : marketItem db' = marketItem s.db := funext (marketItem_congr hmarkets)
      funext r
      rw [pendingOf, pendingOf, hitems]
    rw [undelivered, hdeliveries, hcolumn, Table.sum_update _ _ hr]
    rfl
  rw [worth, worth, hpending]
  dsimp only
  have hsplit := @holding_congr _ (fun k => Counts server.toPlatform prototype s.db k ∨
    k.mark = some id ∧ Matches server.toPlatform prototype k.bare) _ hcounts
  rw [hsplit, holding_or fun item _ hcounted hboth => hnot (hcounted.1 id hboth.1)]
  by_cases hkind : SameKind server.toPlatform prototype proto
  · have hall : holding (fun k => k.mark = some id ∧ Matches server.toPlatform prototype k.bare)
        s.inventory.items = delivered := by
      rw [← hdelivered]
      refine holding_congr fun item hitem => and_iff_left_of_imp fun hmark => ?_
      exact (h.matches_iff hdeliverable hitem hmark hc hr hproto).mpr hkind
    rw [hall, (pendingOf_settled hrplayer hproto).1 hkind]
    ring
  · have hnone : holding (fun k => k.mark = some id ∧ Matches server.toPlatform prototype k.bare)
        s.inventory.items = 0 := by
      refine holding_eq_zero fun item hitem hboth => hkind ?_
      exact (h.matches_iff hdeliverable hitem hboth.1 hc hr hproto).mp hboth.2
    rw [hnone, (pendingOf_settled hrplayer hproto).2 hkind]
    ring

/-- The items of a claim are settled as many as are tagged. -/
theorem Sound.settled (h : Sound server settings playerUuid start room s)
    (hdeliverable : Deliverable server.toPlatform playerUuid start) (hc : s.db.deliveryClaims.get? id = some c)
    (hs : c.status = .prepared) {delivered : ℤ}
    (hdelivered : holding (fun k => k.mark = some id) s.inventory.items = delivered) {r : DeliveryRow}
    (hr : s.db.deliveries.get? c.deliveryId = some r)
    (hdb : db' = Db.setClaim (Db.setDelivery s.db c.deliveryId (settledDelivery delivered c.quantity)) id
      (settledClaim delivered)) (hreachable : Reachable settings db') :
    Sound server settings playerUuid start room { s with db := db' } := by
  have hnonneg : 0 ≤ delivered := hdelivered ▸ h.stocked.nonneg
  have hclaims : db'.deliveryClaims = s.db.deliveryClaims.update id (settledClaim delivered) := by rw [hdb]; rfl
  have hothers : ∀ i, i ≠ id → db'.deliveryClaims.get? i = s.db.deliveryClaims.get? i := by
    intro i hi
    rw [hclaims, Table.get?_update_ne _ _ hi]
  have hself : db'.deliveryClaims.get? id = some (settledClaim delivered c) := by
    rw [hclaims, Table.get?_update_self, hc, Option.map_some]
  have habsent : delivered = 0 → ∀ item ∈ s.inventory.items, (kind item).mark ≠ some id := fun hzero =>
    h.stocked.absent (by rw [hdelivered, hzero])
  have happlied : delivered ≠ 0 → (settledClaim delivered c).status = .applied := by
    intro hne
    rw [settledClaim, if_neg hne]
  have hcleaned : delivered ≠ 0 → (settledClaim delivered c).cleaned = false := by
    intro hne
    rw [settledClaim, if_neg hne]
    exact (reachable_claimsKept h.reachable id c hc).uncleaned hs
  have hfollows : Follows s.db db' := by
    have hdelivery : Follows s.db (Db.setDelivery s.db c.deliveryId (settledDelivery delivered c.quantity)) :=
      follows_setDelivery _ _ fun _ => ⟨rfl, rfl⟩
    rw [hdb]
    refine hdelivery.trans (follows_setClaim _ _ fun c' hc' => ?_)
    cases hc.symm.trans hc'
    exact sameClaim_settled delivered hs
  refine h.follows hfollows hreachable ?_ ?_ ?_ fun prototype => ?_
  · rw [hclaims, Table.nextId_update]
    exact h.ids
  · intro item hitem i c' hmark hc'
    by_cases hi : i = id
    · subst hi
      cases hself.symm.trans hc'
      have hne : delivered ≠ 0 := fun hzero => habsent hzero item hitem hmark
      exact .inr ⟨happlied hne, hcleaned hne⟩
    · rw [hothers i hi] at hc'
      exact h.unfinished hitem hmark hc'
  · intro i c' hc' hs'
    by_cases hi : i = id
    · subst hi
      cases hself.symm.trans hc'
      unfold settledClaim at hs'
      split_ifs at hs'
    · rw [hothers i hi] at hc'
      exact h.bounded i c' hc' hs'
  · by_cases hzero : delivered = 0
    · refine worth_congr (fun item hitem i hmark => isApplied_congr (hothers i ?_)) ?_
      · rintro rfl
        exact habsent hzero item hitem hmark
      · rw [hdb]
        change undelivered _ _ _ (Db.setDelivery s.db c.deliveryId (settledDelivery delivered c.quantity)) = _
        exact undelivered_update (f := settledDelivery delivered c.quantity) fun r =>
          ⟨rfl, rfl, rfl, by simp [settledDelivery, hzero]⟩
    · exact h.settled_worth hdeliverable hc hs hdelivered hzero hr hothers
        ⟨_, hself, happlied hzero⟩ (by rw [hdb]; rfl) hfollows.markets

end Following

section Adding
variable {server : Server} {settings : Settings} {playerUuid : String} {start s : Session} {room : ℕ}
  {items items' : List ItemStack} {item : ItemStack} {k : Kind} {q : Kind → Prop}

/-- `addItem` inserts exactly what it does not return, and never makes stacks of another kind. -/
structure Adds (server : Server) : Prop where
  within : ∀ inventory items q, Stocked inventory.items → Stocked items →
    holding q (server.addItem inventory items).2 ≤ holding q items
  conserved : ∀ inventory items q, Stocked inventory.items → Stocked items →
    holding q (server.addItem inventory items).1.items + holding q (server.addItem inventory items).2 =
      holding q inventory.items + holding q items
  stocked : ∀ inventory items, Stocked inventory.items → Stocked items →
    Stocked (server.addItem inventory items).1.items ∧ Stocked (server.addItem inventory items).2

/-- The stacks of a claim, as they are put into the inventory. -/
structure ClaimStacks (claimId : Id) (quantity : ℤ) (k : Kind) (items : List ItemStack) : Prop where
  stocked : Stocked items
  kind : ∀ item ∈ items, kind item = k
  mark : k.mark = some claimId
  count : itemCount items = quantity

private theorem splitStacks_ok {proto : ItemPrototype} {quantity : ℤ} {claimId : Id} (hlt : claimId < 2 ^ 64)
    (hquantity : 0 ≤ quantity) (h : splitStacks server.toPlatform server.maxStackSize proto quantity (some claimId) =
      .ok items) : ∃ nbt, originalNbt server.toPlatform proto = .ok nbt ∧ ClaimStacks claimId quantity
        ⟨proto.type, proto.data, Reader.insertOrAssign deliveryClaimTag (.string (decimal claimId)) nbt⟩ items := by
  rw [splitStacks, sampleItem] at h
  cases hnbt : originalNbt server.toPlatform proto with
  | error e => rw [hnbt] at h; cases h
  | ok nbt =>
    rw [hnbt] at h
    cases h
    refine ⟨nbt, rfl, fun item hitem => ?_, fun item hitem => ?_, ?_, ?_⟩
    · obtain ⟨amount, hpos, rfl⟩ := mem_stacksOf hitem
      exact hpos
    · obtain ⟨amount, -, rfl⟩ := mem_stacksOf hitem
      rfl
    · exact (markerId_setMarker ⟨proto.type, proto.data, 1, nbt⟩ _ _ hlt).trans (if_pos rfl)
    · exact total_stacksOf (lt_of_lt_of_le one_pos (le_max_left _ _)) hquantity

theorem ClaimStacks.holding_of {claimId : Id} {quantity : ℤ} (h : ClaimStacks claimId quantity k items) (hq : q k) :
    holding q items = quantity := by
  rw [← h.count, itemCount_holding]
  exact holding_congr fun item hitem => iff_of_true (h.kind item hitem ▸ hq) trivial

theorem ClaimStacks.holding_none {claimId : Id} {quantity : ℤ} (h : ClaimStacks claimId quantity k items)
    (hq : ¬ q k) : holding q items = 0 :=
  holding_eq_zero fun item hitem hitem' => hq (h.kind item hitem ▸ hitem')

/-- What is there of other kinds stays as it was. -/
theorem Adds.others {inventory : PlayerInventory} {claimId : Id} {quantity : ℤ} (hadds : Adds server)
    (hstocked : Stocked inventory.items) (h : ClaimStacks claimId quantity k items) (hq : ¬ q k) :
    holding q (server.addItem inventory items).2 = 0 ∧
      holding q (server.addItem inventory items).1.items = holding q inventory.items := by
  have hwithin := hadds.within inventory items q hstocked h.stocked
  have hconserved := hadds.conserved inventory items q hstocked h.stocked
  have hnonneg : 0 ≤ holding q (server.addItem inventory items).2 :=
    (hadds.stocked inventory items hstocked h.stocked).2.nonneg
  rw [h.holding_none hq] at hwithin hconserved
  exact ⟨le_antisymm hwithin hnonneg, by linarith⟩

theorem Adds.kinds {inventory : PlayerInventory} {claimId : Id} {quantity : ℤ} (hadds : Adds server)
    (hstocked : Stocked inventory.items) (h : ClaimStacks claimId quantity k items)
    (hitem : item ∈ (server.addItem inventory items).1.items) :
    kind item = k ∨ ∃ old ∈ inventory.items, kind old = kind item := by
  by_cases hk : kind item = k
  · exact .inl hk
  · refine .inr ?_
    by_contra hnone
    have hsame := (hadds.others (q := (· = kind item)) hstocked h fun heq => hk heq.symm).2
    have hzero : holding (· = kind item) inventory.items = 0 :=
      holding_eq_zero fun old hold heq => hnone ⟨old, hold, heq⟩
    exact (hadds.stocked inventory items hstocked h.stocked).1.absent (q := (· = kind item))
      (by rw [hsame, hzero]) item hitem rfl

theorem Sound.added (h : Sound server settings playerUuid start room s) (hadds : Adds server)
    (hdeliverable : Deliverable server.toPlatform playerUuid start) {deliveryId : Id} {claim : DeliveryClaim}
    (hp : Prepared playerUuid deliveryId claim s) {r : DeliveryRow} {proto : ItemPrototype}
    (hr : s.db.deliveries.get? deliveryId = some r) (hplayer : r.playerUuid = playerUuid)
    (hproto : marketItem s.db r.marketId = some proto)
    (hsplit : splitStacks server.toPlatform server.maxStackSize proto claim.quantity (some claim.id) = .ok items) :
    Sound server settings playerUuid start room { s with inventory := (server.addItem s.inventory items).1 } ∧
      holding (fun k => k.mark = some claim.id) (server.addItem s.inventory items).1.items =
        itemCount items - itemCount (server.addItem s.inventory items).2 := by
  obtain ⟨nbt, hnbt, hstacks⟩ := splitStacks_ok hp.lt hp.pos.le hsplit
  obtain ⟨c, hc, hcplayer, hcs, hcq, hcd⟩ := hp.row
  obtain ⟨r₀, hr₀, hplayer₀, hmarket₀⟩ := h.deliveries _ r hr
  have hunreserved : Unreserved nbt := hdeliverable _ r₀ hr₀ (hplayer₀ ▸ hplayer) proto nbt
    (by rw [← hmarket₀, ← marketItem_congr h.markets]; exact hproto) hnbt
  have hothers : ∀ {q : Kind → Prop}, ¬ q _ → holding q (server.addItem s.inventory items).2 = 0 ∧
      holding q (server.addItem s.inventory items).1.items = holding q s.inventory.items := fun hq =>
    hadds.others h.stocked hstacks hq
  have hconserved := hadds.conserved s.inventory items (fun k => k.mark = some claim.id) h.stocked hstacks.stocked
  have hnone : holding (fun k => k.mark = some claim.id) s.inventory.items = 0 :=
    holding_eq_zero fun item hitem => hp.unmarked item hitem
  -- Nothing but stacks of the claim can be left over.
  have hleft : itemCount (server.addItem s.inventory items).2 =
      holding (fun k => k.mark = some claim.id) (server.addItem s.inventory items).2 := by
    have hrest := (hothers (q := fun k => k.mark ≠ some claim.id) (not_not.mpr hstacks.mark)).1
    have hsplit := @holding_or (fun k => k.mark = some claim.id) (fun k => k.mark ≠ some claim.id)
      (server.addItem s.inventory items).2 fun item _ hmark hne => hne hmark
    rw [hrest, add_zero] at hsplit
    rw [itemCount_holding, ← hsplit]
    exact holding_congr fun item _ => iff_of_true trivial (em _)
  have hcount : holding (fun k => k.mark = some claim.id) (server.addItem s.inventory items).1.items =
      itemCount items - itemCount (server.addItem s.inventory items).2 := by
    rw [hstacks.holding_of hstacks.mark, hnone] at hconserved
    rw [hstacks.count, hleft]
    linarith
  refine ⟨?_, hcount⟩
  constructor
  case reachable => exact h.reachable
  case ids => exact h.ids
  case markets => exact h.markets
  case escrows => exact h.escrows
  case deliveries => exact h.deliveries
  case stocked => exact (hadds.stocked s.inventory items h.stocked hstacks.stocked).1
  case strangers =>
    intro item hitem id hmarks
    rcases hadds.kinds h.stocked hstacks hitem with hkind | ⟨old, hold, hkind⟩
    · have hsale : sellItemEscrowId item = none := by
        change markerId (kind item).nbt sellItemTag = none
        rw [hkind]
        exact ((markerId_setMarker ⟨proto.type, proto.data, 1, nbt⟩ _ _ hp.lt).trans (if_neg (by decide))).trans
          hunreserved.sale
      have hreceipt : sellReceiptEscrowId item = none := by
        change markerId (kind item).nbt sellReceiptTag = none
        rw [hkind]
        exact ((markerId_setMarker ⟨proto.type, proto.data, 1, nbt⟩ _ _ hp.lt).trans (if_neg (by decide))).trans
          hunreserved.receipt
      rw [hsale, hreceipt] at hmarks
      rcases hmarks with hmarks | hmarks <;> cases hmarks
    · refine h.strangers old hold id ?_
      change markerId (kind old).nbt sellItemTag = some id ∨ markerId (kind old).nbt sellReceiptTag = some id
      rw [hkind]
      exact hmarks
  case tagged =>
    intro item hitem id hmark
    rcases hadds.kinds h.stocked hstacks hitem with hkind | ⟨old, hold, hkind⟩
    · rw [hkind, hstacks.mark] at hmark
      obtain rfl := Option.some.inj hmark
      rw [hkind]
      exact ⟨c, r, proto, nbt, hc, hcplayer, .inl hcs, hcd ▸ hr, hproto, hnbt, rfl⟩
    · rw [← hkind] at hmark ⊢
      exact h.tagged old hold id hmark
  case bounded =>
    intro id c' hc' hs'
    by_cases hid : id = claim.id
    · subst hid
      cases hc.symm.trans hc'
      have hnonneg : 0 ≤ holding (fun k => k.mark = some claim.id) (server.addItem s.inventory items).2 :=
        (hadds.stocked s.inventory items h.stocked hstacks.stocked).2.nonneg
      dsimp only
      rw [hcount, hstacks.count, hleft, hcq]
      linarith
    · dsimp only
      rw [(hothers (q := fun k => k.mark = some id) fun hmark => hid
        (Option.some.inj (hmark.symm.trans hstacks.mark))).2]
      exact h.bounded id c' hc' hs'
  case conserved =>
    intro prototype
    rw [← h.conserved, worth, worth]
    refine congrArg (· + _) (hothers fun hcounts => ?_).2
    obtain ⟨c', hc', hs'⟩ := hcounts.1 claim.id hstacks.mark
    cases hc.symm.trans hc'
    rw [hcs] at hs'
    cases hs'

end Adding

end EndstoneExchange.DeliveryConservation
