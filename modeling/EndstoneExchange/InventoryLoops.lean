import EndstoneExchange.InventorySessions
import Mathlib.Data.List.Forall2

/-!
# Rules for inventory sessions

A step at one slot changes that slot alone. Marks are put on stacks and taken off again
without a trace, and a claim's stacks hold as many items as the claim asks for.
-/
namespace EndstoneExchange.InventoryLoops
open DurablePrograms ExchangeDomain ExchangeTransactions NbtCodec InventorySessions LocalizedMessages
open InventoryEscrow hiding tagSellItems tagStacks restoreTaggedSellItems replaceTaggedSellItemsWithReceipts
open AsciiNumerals (decimal)

section Rules
variable {α : Type} {P I : Session → Prop} {Q : α → Session → Prop} {E : Thrown → Session → Prop}
  {C : Session → Prop}

theorem onDb_rule {x : Program Db Error α} (h : ∀ s, P s → Triple (· = s.db) x (fun a db => Q a { s with db })
    (fun e db => E (thrownOf e) { s with db }) fun db => C { s with db }) : Triple P (onDb x) Q E C :=
  Triple.mapError (Triple.zoom fun s hs => h s hs)

/-- A transaction that is lost is lost before or after it took effect. -/
theorem transaction_rule {tx : Tx α} (hI : ∀ s, P s → I s)
    (hok : ∀ s a db, P s → tx s.db = .ok (a, db) → Q a { s with db } ∧ I { s with db }) :
    Triple P (onDb (transaction tx)) Q (fun _ => I) I := by
  refine onDb_rule fun s hs => Triple.atomic ?_ ?_ ?_ ?_
  · rintro _ rfl
    exact hI s hs
  · rintro _ rfl
    exact hI s hs
  · rintro _ a db rfl hb
    exact hok s a db hs hb
  · rintro _ _ rfl _
    exact hI s hs

theorem guarded_rule {c : Prop} [Decidable c] {e : Error} {tx : Tx α} (hI : ∀ s, P s → I s)
    (hok : ¬ c → ∀ s a db, P s → tx s.db = .ok (a, db) → Q a { s with db } ∧ I { s with db }) :
    Triple P (onDb (do
      if c then throw e
      transaction tx)) Q (fun _ => I) I := by
  refine onDb_rule fun s hs => Triple.guard ?_ fun hc => ?_
  · rintro - _ rfl
    exact hI s hs
  · refine Triple.atomic ?_ ?_ ?_ ?_
    · rintro _ rfl
      exact hI s hs
    · rintro _ rfl
      exact hI s hs
    · rintro _ a db rfl hb
      exact hok hc s a db hs hb
    · rintro _ _ rfl _
      exact hI s hs

theorem select_rule {f : Db → α} (hI : ∀ s, P s → I s) (h : ∀ s, P s → Q (f s.db) s) :
    Triple P (onDb (transaction (AtomicTransactions.Transaction.select f))) Q (fun _ => I) I := by
  refine transaction_rule hI fun s a db hs hb => ?_
  obtain ⟨rfl, rfl⟩ := Prod.mk.inj (AtomicTransactions.Transaction.select_ok.mp hb)
  exact ⟨h s hs, hI s hs⟩

theorem observe_rule {f : PlayerInventory → α} (hI : ∀ s, P s → I s) (h : ∀ s, P s → Q (f s.inventory) s) :
    Triple P (observe f) Q (fun _ => I) I := Triple.step hI h

theorem visitSlot_rule {body : Slot → ItemStack → PlayerInventory → Except Thrown PlayerInventory} {slot : Slot}
    {R : Session → Prop} (hI : ∀ s, P s → I s)
    (h : ∀ s inventory, P s → visit body slot s.inventory = .ok inventory → R { s with inventory }) :
    Triple P (visitSlot body slot) (fun _ => R) (fun _ => I) I := by
  refine Triple.call hI (fun fault s a hs hok => ?_) fun fault s e hs herr => ?_
  · cases hvisit : visit body slot s.inventory with
    | error e => rw [hvisit] at hok; cases hok
    | ok inventory => exact h s inventory hs hvisit
  · cases hvisit : visit body slot s.inventory with
    | error e => exact hI s hs
    | ok inventory => rw [hvisit] at herr; cases herr

/-- Loop rule: `R slots` holds when the loop has yet to visit `slots`. -/
theorem forEachSlot_rule {body : Slot → ItemStack → PlayerInventory → Except Thrown PlayerInventory}
    {R : List Slot → Session → Prop} (hI : ∀ s, P s → I s) (hstart : ∀ s, P s → R s.inventory.slots s)
    (hR : ∀ slots s, R slots s → I s) (hstep : ∀ slot slots s inventory, R (slot :: slots) s →
      visit body slot s.inventory = .ok inventory → R slots { s with inventory }) :
    Triple P (forEachSlot body) (fun _ => R []) (fun _ => I) I := by
  refine Triple.bind (R := R) (observe_rule hI hstart) fun slots => ?_
  exact Triple.forEach (fun slot slots => visitSlot_rule (hR _) fun s inventory hs hvisit =>
    hstep slot slots s inventory hs hvisit) slots

/-- An invariant of each visit is one of the loop. -/
theorem forEachSlot_keeps {body : Slot → ItemStack → PlayerInventory → Except Thrown PlayerInventory}
    (h : ∀ slot s inventory, I s → visit body slot s.inventory = .ok inventory → I { s with inventory }) :
    Keeps I (forEachSlot body) :=
  forEachSlot_rule (R := fun _ => I) (fun _ hs => hs) (fun _ hs => hs) (fun _ _ hs => hs)
    fun slot _ s inventory hs hvisit => h slot s inventory hs hvisit

end Rules

section Slots
variable {inventory inventory' : PlayerInventory} {slot : Slot} {item : ItemStack}
  {body : Slot → ItemStack → PlayerInventory → Except Thrown PlayerInventory} {put : ItemStack → Option ItemStack}

theorem slots_clear : (clear inventory slot).slots = inventory.slots := by
  cases slot with
  | main index => simp [clear, PlayerInventory.slots]
  | offHand => rfl

theorem getItem_clear (slot' : Slot) :
    (clear inventory slot).getItem slot' = if slot' = slot then none else inventory.getItem slot' := by
  cases slot with
  | offHand => cases slot' <;> simp [clear, PlayerInventory.getItem]
  | main index =>
    cases slot' with
    | offHand => simp [clear, PlayerInventory.getItem]
    | main index' =>
      by_cases heq : index' = index
      · subst heq
        by_cases hlt : index' < inventory.contents.length
        · simp [clear, PlayerInventory.getItem, hlt]
        · simp [clear, PlayerInventory.getItem, hlt]
      · have hne : index ≠ index' := fun h => heq h.symm
        simp [clear, PlayerInventory.getItem, heq, List.getElem?_set_ne hne]

/-- `inventory'` differs in one slot. -/
structure PutAt (slot : Slot) (new : Option ItemStack) (inventory inventory' : PlayerInventory) : Prop where
  slots : inventory'.slots = inventory.slots
  getItem : ∀ s, inventory'.getItem s = if s = slot then new else inventory.getItem s

private theorem putAt_clear : PutAt slot none inventory (clear inventory slot) := ⟨slots_clear, getItem_clear⟩

theorem putAt_self (h : inventory.getItem slot = some item) : PutAt slot (some item) inventory inventory := by
  refine ⟨rfl, fun s => ?_⟩
  split_ifs with hs
  · rw [hs, h]
  · rfl

theorem putAt_setItem (h : inventory.getItem slot = some item) (new : ItemStack) :
    PutAt slot (some new) inventory (inventory.setItem slot new) :=
  ⟨PlayerInventory.slots_setItem, PlayerInventory.getItem_setItem (PlayerInventory.mem_slots_of_getItem h)⟩

/-- What a visit leaves in the slot it is at. -/
def Puts (put : ItemStack → Option ItemStack)
    (body : Slot → ItemStack → PlayerInventory → Except Thrown PlayerInventory) : Prop :=
  ∀ inventory slot item inventory', inventory.getItem slot = some item →
    body slot item inventory = .ok inventory' → PutAt slot (put item) inventory inventory'

theorem Puts.visit (h : Puts put body) (hvisit : visit body slot inventory = .ok inventory') :
    PutAt slot ((inventory.getItem slot).bind put) inventory inventory' := by
  rw [InventorySessions.visit] at hvisit
  cases hitem : inventory.getItem slot with
  | none =>
    rw [hitem] at hvisit
    cases hvisit
    refine ⟨rfl, fun s => ?_⟩
    split_ifs with hs
    · rw [hs, hitem]
      rfl
    · rfl
  | some item =>
    rw [hitem] at hvisit
    exact h inventory slot item inventory' hitem hvisit

theorem puts_clearSlot (claimId : Id) :
    Puts (fun item => some ((clearTag claimId item).getD item)) (clearSlot claimId) := by
  intro inventory slot item inventory' hitem hbody
  rw [clearSlot] at hbody
  dsimp only
  cases hclear : clearTag claimId item with
  | none =>
    rw [hclear] at hbody
    cases hbody
    exact putAt_self hitem
  | some cleared =>
    rw [hclear] at hbody
    cases hbody
    have hslot : slot ∈ (clear inventory slot).slots := by
      rw [slots_clear]
      exact PlayerInventory.mem_slots_of_getItem hitem
    refine ⟨PlayerInventory.slots_setItem.trans slots_clear, fun s => ?_⟩
    rw [PlayerInventory.getItem_setItem hslot, getItem_clear]
    split_ifs <;> rfl

theorem puts_removeSlot (markerOf : ItemStack → Option Id) (id : Id) :
    Puts (fun item => if markerOf item = some id then none else some item) (removeSlot markerOf id) := by
  intro inventory slot item inventory' hitem hbody
  cases hbody
  dsimp only
  split_ifs
  · exact putAt_clear
  · exact putAt_self hitem

theorem puts_restoreSlot (escrowId : Id) (nbt : Entries) :
    Puts (fun item => some (if sellItemEscrowId item = some escrowId then { item with nbt } else item))
      (restoreSlot escrowId nbt) := by
  intro inventory slot item inventory' hitem hbody
  cases hbody
  dsimp only
  split_ifs
  · exact putAt_setItem hitem _
  · exact putAt_self hitem

theorem puts_replaceSlot {platform : Platform} {escrowId : Id} {language : Language} {receipt : ItemStack}
    (h : sellReceipt platform escrowId language = .ok receipt) :
    Puts (fun item => some (if sellItemEscrowId item = some escrowId then receipt else item))
      (replaceSlot platform escrowId language) := by
  intro inventory slot item inventory' hitem hbody
  rw [replaceSlot, h] at hbody
  dsimp only
  split_ifs at hbody ⊢
  · cases hbody
    exact putAt_setItem hitem _
  · cases hbody
    exact putAt_self hitem

theorem items_eq_filterMap (inventory : PlayerInventory) :
    inventory.items = inventory.slots.filterMap inventory.getItem := by
  have hitem : ∀ slot, ((inventory.getItem slot).map fun item => (slot, item)).map Prod.snd =
      inventory.getItem slot := fun slot => by rw [Option.map_map]; exact Option.map_id'
  rw [PlayerInventory.items_eq, PlayerInventory.placed, List.map_filterMap]
  simp only [hitem]

/-- Slot by slot related inventories hold related stacks. -/
theorem items_forall₂ {R : ItemStack → ItemStack → Prop} (hslots : inventory'.slots = inventory.slots)
    (h : ∀ s, Option.Rel R (inventory.getItem s) (inventory'.getItem s)) :
    List.Forall₂ R inventory.items inventory'.items := by
  rw [items_eq_filterMap, items_eq_filterMap, hslots]
  exact List.rel_filterMap (R := Eq) (fun s _ hs => hs ▸ h s) (List.forall₂_same.mpr fun _ _ => rfl)

theorem getItem_of_mem_items (h : item ∈ inventory.items) : ∃ slot, inventory.getItem slot = some item := by
  rw [items_eq_filterMap] at h
  obtain ⟨slot, -, hitem⟩ := List.mem_filterMap.mp h
  exact ⟨slot, hitem⟩

end Slots

section Tags
variable {item : ItemStack} {claimId id : Id} {nbt : Entries}

theorem lookup_erase (key : Bytes) (nbt : Entries) (key' : Bytes) :
    (erase key nbt).lookup key' = if key' = key then none else nbt.lookup key' := by
  induction nbt with
  | nil => split_ifs <;> rfl
  | cons entry nbt ih =>
    rw [erase] at ih ⊢
    by_cases hentry : entry.1 = key
    · rw [List.filter_cons_of_neg (by simp [hentry]), ih, lookup_entry]
      split_ifs with h h' <;> simp_all
    · rw [List.filter_cons_of_pos (by simp [hentry]), lookup_entry, lookup_entry, ih]
      split_ifs with h h' <;> simp_all

private theorem deliveryClaimId_erase (item : ItemStack) :
    deliveryClaimId { item with nbt := erase deliveryClaimTag item.nbt } = none := by
  rw [deliveryClaimId, markerId, lookup_erase, if_pos rfl]

theorem clearTag_eq : clearTag claimId item = if deliveryClaimId item = some claimId then
    some { item with nbt := erase deliveryClaimTag item.nbt } else none := by
  by_cases h : deliveryClaimId item = some claimId
  · rw [clearTag, if_neg (not_not.mpr h), if_pos h]
    dsimp only
    rw [deliveryClaimId_erase, if_neg (not_not.mpr rfl)]
  · rw [clearTag, if_pos h, if_neg h]

/-- NBT without the key of the tag is restored by taking the tag off. -/
theorem erase_insertOrAssign (key : Bytes) (tag : Tag) (h : nbt.lookup key = none) :
    erase key (Reader.insertOrAssign key tag nbt) = nbt := by
  have herase : ∀ nbt : Entries, nbt.lookup key = none → erase key nbt = nbt := by
    intro nbt hnone
    refine List.filter_eq_self.mpr fun entry hentry => ?_
    have hne : entry.1 ≠ key := fun heq => by
      have hsame := List.lookup_eq_none_iff.mp hnone entry hentry
      rw [heq] at hsame
      simp at hsame
    exact decide_eq_true hne
  induction nbt with
  | nil => simp [Reader.insertOrAssign, erase]
  | cons entry nbt ih =>
    rw [lookup_entry] at h
    split_ifs at h with hkey
    rw [Reader.insertOrAssign]
    split_ifs with hlt heq
    · have hne : entry.1 ≠ key := fun heq => hkey heq.symm
      rw [erase, List.filter_cons_of_pos (by simpa using hne)]
      exact congrArg _ (ih h)
    · exact absurd heq.symm hkey
    · rw [erase, List.filter_cons_of_neg (by simp)]
      exact herase _ (by rw [lookup_entry, if_neg hkey, h])

theorem mem_members {ids : List Id} {id : Id} : id ∈ members ids ↔ id ∈ ids := by
  rw [members, (List.mergeSort_perm _ _).mem_iff, List.mem_dedup]

theorem taggedItemCount_eq (inventory : PlayerInventory) (claimId : Id) : taggedItemCount inventory claimId =
    total (inventory.items.filter (deliveryClaimId · = some claimId)) := by
  have hloop : ∀ (items : List ItemStack) (result : ℤ), items.foldl (fun result item =>
      if deliveryClaimId item = some claimId then result + item.amount else result) result =
        result + total (items.filter (deliveryClaimId · = some claimId)) := by
    intro items
    induction items with
    | nil => intro result; simp [total]
    | cons item items ih =>
      intro result
      rw [List.foldl_cons, ih]
      by_cases hs : deliveryClaimId item = some claimId
      · simp only [hs, if_true, decide_true, List.filter_cons_of_pos, total, List.map_cons, List.sum_cons]
        ring
      · simp only [hs, if_false, decide_false, Bool.false_eq_true, not_false_eq_true, List.filter_cons_of_neg]
  rw [taggedItemCount, hloop, zero_add]

theorem mem_stacksOf {sample : ItemStack} {stackSize remaining : ℤ}
    (h : item ∈ stacksOf sample stackSize remaining) : ∃ amount, 0 < amount ∧ item = { sample with amount } := by
  induction remaining using stacksOf.induct stackSize with
  | case1 remaining hpos ih =>
    rw [stacksOf, dif_pos hpos] at h
    rcases List.mem_cons.mp h with rfl | h
    · exact ⟨_, lt_min hpos.1 hpos.2, rfl⟩
    · exact ih h
  | case2 remaining hpos =>
    rw [stacksOf, dif_neg hpos] at h
    cases h

theorem total_stacksOf {sample : ItemStack} {stackSize remaining : ℤ} (hsize : 0 < stackSize)
    (h : 0 ≤ remaining) : total (stacksOf sample stackSize remaining) = remaining := by
  induction remaining using stacksOf.induct stackSize with
  | case1 remaining hpos ih =>
    rw [stacksOf, dif_pos hpos, total, List.map_cons, List.sum_cons]
    have hrest := ih (sub_nonneg.mpr (min_le_left _ _))
    rw [total] at hrest
    rw [hrest]
    exact add_sub_cancel _ _
  | case2 remaining hpos =>
    rw [stacksOf, dif_neg hpos]
    have hzero : remaining = 0 := le_antisymm (not_lt.mp fun hlt => hpos ⟨hlt, hsize⟩) h
    exact hzero.symm

end Tags

end EndstoneExchange.InventoryLoops
