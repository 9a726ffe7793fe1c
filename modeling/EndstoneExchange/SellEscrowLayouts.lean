import EndstoneExchange.InventoryLoops

/-!
# The inventory during a sale

While an escrow is worked off some stacks of the original inventory are tagged, replaced by
receipts or gone. Every other slot is as it was.
-/
namespace EndstoneExchange.SellEscrowLayouts
open ExchangeDomain NbtCodec InventorySessions InventoryLoops LocalizedMessages
open InventoryEscrow hiding tagSellItems tagStacks restoreTaggedSellItems replaceTaggedSellItemsWithReceipts

variable {platform : Platform} {prototype : ItemPrototype} {original inventory inventory' : PlayerInventory}
  {chosen : List (Slot × ItemStack)} {escrowId : Id} {slot : Slot} {item : ItemStack} {nbt : Entries}

/-- An inventory before a sale. -/
structure Untouched (escrowId : Id) (original : PlayerInventory) : Prop where
  fresh : Fresh escrowId original
  stocked : ∀ item ∈ original.items, 0 < item.amount
  unclaimed : ∀ item ∈ original.items, deliveryClaimId item = none

/-- Some stacks that can be sold. -/
def Choice (platform : Platform) (prototype : ItemPrototype) (original : PlayerInventory)
    (chosen : List (Slot × ItemStack)) : Prop :=
  ∃ nbt, Chosen prototype nbt original chosen ∧ (chosen ≠ [] → originalNbt platform prototype = .ok nbt)

/-- A receipt of the escrow, which bears no other marker. -/
structure IsReceipt (escrowId : Id) (item : ItemStack) : Prop where
  amount : item.amount = 1
  receipt : sellReceiptEscrowId item = some escrowId
  sale : sellItemEscrowId item = none
  claim : deliveryClaimId item = none

/-- What is in the slot of a stack that is to be sold: the tagged stack, or a receipt for it. -/
def Replaced (escrowId : Id) (item : ItemStack) (now : Option ItemStack) : Prop :=
  now = some (setMarker item sellItemTag escrowId) ∨ ∃ receipt, now = some receipt ∧ IsReceipt escrowId receipt

def Removed (escrowId : Id) (item : ItemStack) (now : Option ItemStack) : Prop :=
  Replaced escrowId item now ∨ now = none

/-- Where the chosen stacks were there is something else now. -/
structure Layout (now : ItemStack → Option ItemStack → Prop) (original : PlayerInventory)
    (chosen : List (Slot × ItemStack)) (inventory : PlayerInventory) : Prop where
  slots : inventory.slots = original.slots
  held : ∀ c ∈ chosen, now c.2 (inventory.getItem c.1)
  others : ∀ slot, slot ∉ chosen.map Prod.fst → inventory.getItem slot = original.getItem slot

section Choices

theorem choice_nil (platform : Platform) (prototype : ItemPrototype) (original : PlayerInventory) :
    Choice platform prototype original [] :=
  ⟨[], ⟨List.nodup_nil, by simp, by simp⟩, fun h => absurd rfl h⟩

theorem tagAll_nil (escrowId : Id) (original : PlayerInventory) : tagAll escrowId [] original = original := rfl

theorem tagAll_concat (escrowId : Id) (chosen : List (Slot × ItemStack)) (c : Slot × ItemStack)
    (original : PlayerInventory) : tagAll escrowId (chosen ++ [c]) original =
      (tagAll escrowId chosen original).setItem c.1 (setMarker c.2 sellItemTag escrowId) := by
  rw [tagAll, List.map_append, PlayerInventory.place, List.foldl_append]
  rfl

theorem Choice.sells (h : Choice platform prototype original chosen) {c : Slot × ItemStack} (hc : c ∈ chosen) :
    originalNbt platform prototype = .ok c.2.nbt ∧ isInternalEscrowItem c.2 = false := by
  obtain ⟨nbt, hchosen, hnbt⟩ := h
  have hsells := hchosen.sells c hc
  refine ⟨?_, ?_⟩
  · rw [sells_nbt hsells]
    exact hnbt (List.ne_nil_of_mem hc)
  · rw [InventoryEscrow.sells, Bool.and_eq_true, Bool.not_eq_true'] at hsells
    exact hsells.1

theorem Choice.unmarked (h : Choice platform prototype original chosen) {c : Slot × ItemStack} (hc : c ∈ chosen) :
    deliveryClaimId c.2 = none ∧ sellItemEscrowId c.2 = none ∧ sellReceiptEscrowId c.2 = none := by
  have hinternal := (h.sells hc).2
  simp only [isInternalEscrowItem, Bool.or_eq_false_iff, Option.isSome_eq_false_iff, Option.isNone_iff_eq_none]
    at hinternal
  exact ⟨hinternal.1.1, hinternal.1.2, hinternal.2⟩

theorem Choice.held (h : Choice platform prototype original chosen) {c : Slot × ItemStack} (hc : c ∈ chosen) :
    original.getItem c.1 = some c.2 := by
  obtain ⟨nbt, hchosen, -⟩ := h
  exact hchosen.held c hc

theorem Choice.filter (h : Choice platform prototype original chosen) (p : Slot × ItemStack → Bool) :
    Choice platform prototype original (chosen.filter p) := by
  obtain ⟨nbt, hchosen, hnbt⟩ := h
  refine ⟨nbt, ⟨(List.filter_sublist.map Prod.fst).nodup hchosen.keys, fun c hc => ?_, fun c hc => ?_⟩, fun hne => ?_⟩
  · exact hchosen.held c (List.mem_of_mem_filter hc)
  · exact hchosen.sells c (List.mem_of_mem_filter hc)
  · refine hnbt fun hnil => hne ?_
    rw [hnil, List.filter_nil]

theorem Choice.counted (h : Choice platform prototype original chosen) (hfresh : Fresh escrowId original) :
    taggedSellItems (tagAll escrowId chosen original) escrowId = ⟨total (chosen.map Prod.snd), chosen.length⟩ := by
  obtain ⟨nbt, hchosen, -⟩ := h
  exact hchosen.counted hfresh

theorem Choice.tagAll_spec (h : Choice platform prototype original chosen) (escrowId : Id) :
    (tagAll escrowId chosen original).slots = original.slots ∧
      (∀ c ∈ chosen, (tagAll escrowId chosen original).getItem c.1 = some (setMarker c.2 sellItemTag escrowId)) ∧
      ∀ slot, slot ∉ chosen.map Prod.fst → (tagAll escrowId chosen original).getItem slot = original.getItem slot := by
  obtain ⟨nbt, hchosen, -⟩ := h
  exact hchosen.place_spec

theorem Choice.layout (h : Choice platform prototype original chosen) :
    Layout (Replaced escrowId) original chosen (tagAll escrowId chosen original) := by
  obtain ⟨hslots, htagged, hothers⟩ := h.tagAll_spec escrowId
  exact ⟨hslots, fun c hc => .inl (htagged c hc), hothers⟩

theorem Layout.mono {now now' : ItemStack → Option ItemStack → Prop} (h : Layout now original chosen inventory)
    (himp : ∀ item new, now item new → now' item new) : Layout now' original chosen inventory :=
  ⟨h.slots, fun c hc => himp _ _ (h.held c hc), h.others⟩

end Choices

section Visits
variable {put : ItemStack → Option ItemStack} {now : ItemStack → Option ItemStack → Prop}

/-- A visit that respects what is known of the chosen slots, and leaves the original stacks alone. -/
theorem Layout.visited (h : Layout now original chosen inventory)
    (hput : PutAt slot ((inventory.getItem slot).bind put) inventory inventory')
    (hchosen : ∀ c ∈ chosen, ∀ new, now c.2 new → now c.2 (new.bind put))
    (hothers : ∀ slot item, original.getItem slot = some item → put item = some item) :
    Layout now original chosen inventory' := by
  refine ⟨hput.slots.trans h.slots, fun c hc => ?_, fun s hs => ?_⟩
  · rw [hput.getItem]
    split_ifs with heq
    · rw [← heq]
      exact hchosen c hc _ (h.held c hc)
    · exact h.held c hc
  · rw [hput.getItem]
    split_ifs with heq
    · rw [← heq, h.others s hs]
      cases hitem : original.getItem s with
      | none => rfl
      | some item => exact hothers s item hitem
    · exact h.others s hs

/-- Taking the tag off one slot. -/
theorem Choice.restored (h : Choice platform prototype original chosen) (hfresh : Fresh escrowId original)
    (hnbt : originalNbt platform prototype = .ok nbt)
    (hvisit : visit (restoreSlot escrowId nbt) slot (tagAll escrowId chosen original) = .ok inventory) :
    inventory = tagAll escrowId (chosen.filter fun c => c.1 ≠ slot) original := by
  obtain ⟨hslots, hget⟩ := (puts_restoreSlot escrowId nbt).visit hvisit
  obtain ⟨hsame, htagged, hothers⟩ := h.tagAll_spec escrowId
  obtain ⟨hsame', htagged', hothers'⟩ := (h.filter fun c => c.1 ≠ slot).tagAll_spec escrowId
  refine PlayerInventory.ext_getItem (hslots.trans (hsame.trans hsame'.symm)) fun s => ?_
  rw [hget]
  by_cases hs : s = slot
  · subst hs
    rw [if_pos rfl]
    have hnot : s ∉ (chosen.filter fun c => c.1 ≠ s).map Prod.fst := by
      rw [List.mem_map]
      rintro ⟨c, hc, rfl⟩
      exact of_decide_eq_true (List.mem_filter.mp hc).2 rfl
    rw [hothers' s hnot]
    by_cases hkey : s ∈ chosen.map Prod.fst
    · obtain ⟨c, hc, rfl⟩ := List.mem_map.mp hkey
      have hsame : c.2.nbt = nbt := Except.ok.inj ((h.sells hc).1.symm.trans hnbt)
      rw [htagged c hc, h.held hc, Option.bind_some, sellItemEscrowId_tag hfresh.lt, if_pos rfl, setMarker]
      rw [← hsame]
    · rw [hothers s hkey]
      cases hitem : original.getItem s with
      | none => rfl
      | some item => rw [Option.bind_some, if_neg (hfresh.tags s item hitem)]
  · rw [if_neg hs]
    by_cases hkey : s ∈ chosen.map Prod.fst
    · obtain ⟨c, hc, rfl⟩ := List.mem_map.mp hkey
      rw [htagged c hc, htagged' c (List.mem_filter.mpr ⟨hc, decide_eq_true hs⟩)]
    · rw [hothers s hkey, hothers' s fun hkey' => hkey ?_]
      obtain ⟨c, hc, rfl⟩ := List.mem_map.mp hkey'
      exact List.mem_map_of_mem (List.mem_of_mem_filter hc)

/-- The markers of a tagged stack. -/
theorem tag_markers (h : Choice platform prototype original chosen) (hlt : escrowId < 2 ^ 64)
    {c : Slot × ItemStack} (hc : c ∈ chosen) :
    sellItemEscrowId (setMarker c.2 sellItemTag escrowId) = some escrowId ∧
      sellReceiptEscrowId (setMarker c.2 sellItemTag escrowId) = none ∧
      deliveryClaimId (setMarker c.2 sellItemTag escrowId) = none := by
  obtain ⟨hclaim, -, hreceipt⟩ := h.unmarked hc
  refine ⟨sellItemEscrowId_tag hlt _, ?_, ?_⟩
  · exact (markerId_setMarker _ _ _ hlt).trans ((if_neg (by decide)).trans hreceipt)
  · exact (markerId_setMarker _ _ _ hlt).trans ((if_neg (by decide)).trans hclaim)

theorem Layout.replace (h : Layout (Replaced escrowId) original chosen inventory)
    (hchoice : Choice platform prototype original chosen) (hfresh : Fresh escrowId original) {language : Language}
    (hreceipts : ∀ receipt, sellReceipt platform escrowId language = .ok receipt → IsReceipt escrowId receipt)
    (hvisit : visit (replaceSlot platform escrowId language) slot inventory = .ok inventory') :
    Layout (Replaced escrowId) original chosen inventory' := by
  cases hreceipt : sellReceipt platform escrowId language with
  | error e =>
    have hsame : inventory' = inventory := by
      rw [visit] at hvisit
      cases hitem : inventory.getItem slot with
      | none => rw [hitem] at hvisit; cases hvisit; rfl
      | some item =>
        rw [hitem] at hvisit
        simp only [replaceSlot, hreceipt] at hvisit
        split_ifs at hvisit
        · cases hvisit
        · cases hvisit
          rfl
    exact hsame ▸ h
  | ok receipt =>
    refine h.visited ((puts_replaceSlot hreceipt).visit hvisit) (fun c hc new hnew => ?_) fun s item hitem => ?_
    · rcases hnew with rfl | ⟨old, rfl, hold⟩
      · rw [Option.bind_some, if_pos (tag_markers hchoice hfresh.lt hc).1]
        exact .inr ⟨receipt, rfl, hreceipts receipt hreceipt⟩
      · rw [Option.bind_some, hold.sale, if_neg (by simp)]
        exact .inr ⟨old, rfl, hold⟩
    · rw [if_neg (hfresh.tags s item hitem)]

/-- Both kinds of markers can be taken out. -/
theorem Layout.remove (h : Layout (Removed escrowId) original chosen inventory) (hfresh : Fresh escrowId original)
    {markerOf : ItemStack → Option Id} (hmarker : markerOf = sellItemEscrowId ∨ markerOf = sellReceiptEscrowId)
    (hvisit : visit (removeSlot markerOf escrowId) slot inventory = .ok inventory') :
    Layout (Removed escrowId) original chosen inventory' := by
  refine h.visited ((puts_removeSlot markerOf escrowId).visit hvisit) (fun c hc new hnew => ?_) fun s item hitem => ?_
  · rcases hnew with hnew | rfl
    · have hsome : ∃ item, new = some item := by
        rcases hnew with rfl | ⟨receipt, rfl, -⟩
        · exact ⟨_, rfl⟩
        · exact ⟨_, rfl⟩
      obtain ⟨item, rfl⟩ := hsome
      rw [Option.bind_some]
      split_ifs
      · exact .inr rfl
      · exact .inl hnew
    · exact .inr rfl
  · refine if_neg ?_
    rcases hmarker with rfl | rfl
    · exact hfresh.tags s item hitem
    · exact hfresh.receipts s item hitem

/-- Nothing the original inventory holds is in the way of the removals. -/
theorem Layout.gone (h : Layout (fun _ new => new = none) original chosen inventory)
    (hfresh : Fresh escrowId original) {markerOf : ItemStack → Option Id}
    (hmarker : markerOf = sellItemEscrowId ∨ markerOf = sellReceiptEscrowId)
    (hvisit : visit (removeSlot markerOf escrowId) slot inventory = .ok inventory') :
    Layout (fun _ new => new = none) original chosen inventory' := by
  refine h.visited ((puts_removeSlot markerOf escrowId).visit hvisit) (fun c hc new hnew => ?_) fun s item hitem => ?_
  · rw [hnew]
    rfl
  · refine if_neg ?_
    rcases hmarker with rfl | rfl
    · exact hfresh.tags s item hitem
    · exact hfresh.receipts s item hitem

end Visits

section Stacks

/-- A stack during a sale is an original one, or stands for one that is sold. -/
theorem Layout.stack (h : Layout (Removed escrowId) original chosen inventory)
    (hitem : item ∈ inventory.items) :
    item ∈ original.items ∨ ∃ c ∈ chosen, inventory.getItem c.1 = some item ∧
      (item = setMarker c.2 sellItemTag escrowId ∨ IsReceipt escrowId item) := by
  obtain ⟨s, hs⟩ := getItem_of_mem_items hitem
  by_cases hkey : s ∈ chosen.map Prod.fst
  · obtain ⟨c, hc, rfl⟩ := List.mem_map.mp hkey
    refine .inr ⟨c, hc, hs, ?_⟩
    have hnow := h.held c hc
    rw [hs] at hnow
    rcases hnow with (htag | ⟨receipt, heq, hreceipt⟩) | hnone
    · exact .inl (Option.some.inj htag)
    · exact .inr (Option.some.inj heq ▸ hreceipt)
    · cases hnone
  · rw [h.others s hkey] at hs
    exact .inl (mem_items_of_getItem hs)

theorem Layout.stocked (h : Layout (Removed escrowId) original chosen inventory)
    (hchoice : Choice platform prototype original chosen) (huntouched : Untouched escrowId original)
    (hitem : item ∈ inventory.items) : 0 < item.amount := by
  rcases h.stack hitem with hold | ⟨c, hc, -, rfl | hreceipt⟩
  · exact huntouched.stocked item hold
  · exact huntouched.stocked c.2 (mem_items_of_getItem (hchoice.held hc))
  · rw [hreceipt.amount]
    exact one_pos

theorem Layout.unclaimed (h : Layout (Removed escrowId) original chosen inventory)
    (hchoice : Choice platform prototype original chosen) (huntouched : Untouched escrowId original)
    (hitem : item ∈ inventory.items) : deliveryClaimId item = none := by
  rcases h.stack hitem with hold | ⟨c, hc, -, rfl | hreceipt⟩
  · exact huntouched.unclaimed item hold
  · exact (tag_markers hchoice huntouched.fresh.lt hc).2.2
  · exact hreceipt.claim

/-- Another marker than the escrow's own is on an original stack. -/
theorem Layout.marker (h : Layout (Removed escrowId) original chosen inventory)
    (hchoice : Choice platform prototype original chosen) (hfresh : Fresh escrowId original)
    (hitem : item ∈ inventory.items) {id : Id}
    (hmark : sellItemEscrowId item = some id ∨ sellReceiptEscrowId item = some id) :
    id = escrowId ∨ item ∈ original.items := by
  rcases h.stack hitem with hold | ⟨c, hc, -, rfl | hreceipt⟩
  · exact .inr hold
  · obtain ⟨hsale, hreceipt, -⟩ := tag_markers hchoice hfresh.lt hc
    rw [hsale, hreceipt] at hmark
    rcases hmark with hmark | hmark
    · exact .inl (Option.some.inj hmark).symm
    · cases hmark
  · rw [hreceipt.sale, hreceipt.receipt] at hmark
    rcases hmark with hmark | hmark
    · cases hmark
    · exact .inl (Option.some.inj hmark).symm

theorem nil_of_total {items : List ItemStack} (hpos : ∀ item ∈ items, 0 < item.amount) (h : total items = 0) :
    items = [] := by
  cases items with
  | nil => rfl
  | cons item items =>
    have hrest : 0 ≤ total items := List.sum_nonneg fun n hn => by
      obtain ⟨item, hitem, rfl⟩ := List.mem_map.mp hn
      exact (hpos item (List.mem_cons_of_mem _ hitem)).le
    have hitem := hpos item List.mem_cons_self
    rw [total, List.map_cons, List.sum_cons, ← total] at h
    omega

/-- If neither tags nor receipts are counted, the chosen stacks are gone. -/
theorem Layout.cleared (h : Layout (Removed escrowId) original chosen inventory)
    (hchoice : Choice platform prototype original chosen) (huntouched : Untouched escrowId original)
    (htagged : (taggedSellItems inventory escrowId).quantity = 0)
    (hreceipts : sellReceiptCount inventory escrowId = 0) :
    Layout (fun _ new => new = none) original chosen inventory := by
  rw [taggedSellItems_eq] at htagged
  rw [sellReceiptCount_eq] at hreceipts
  have hpos : ∀ p : ItemStack → Bool, ∀ item ∈ inventory.items.filter p, 0 < item.amount := fun p item hitem =>
    h.stocked hchoice huntouched (List.mem_of_mem_filter hitem)
  have hnotag := List.filter_eq_nil_iff.mp (nil_of_total (hpos _) htagged)
  have hnoreceipt := List.filter_eq_nil_iff.mp (nil_of_total (hpos _) hreceipts)
  refine ⟨h.slots, fun c hc => ?_, h.others⟩
  rcases h.held c hc with (htag | ⟨receipt, heq, hreceipt⟩) | hnone
  · refine absurd ?_ (hnotag _ (mem_items_of_getItem htag))
    exact decide_eq_true (tag_markers hchoice huntouched.fresh.lt hc).1
  · exact absurd (decide_eq_true hreceipt.receipt) (hnoreceipt _ (mem_items_of_getItem heq))
  · exact hnone

end Stacks

end EndstoneExchange.SellEscrowLayouts
