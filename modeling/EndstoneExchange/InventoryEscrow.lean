import EndstoneExchange.AsciiNumerals
import EndstoneExchange.GreedyPrefixes
import EndstoneExchange.ItemRequirements
import Mathlib.Data.List.ReduceOption
import Mathlib.Data.List.Sort

/-!
# Escrow of inventory items

The stacks that are to be sold are tagged in the player's inventory by a marker in their
NBT. Tags are taken off again, or give way to receipts once the order stands.
-/
namespace EndstoneExchange.InventoryEscrow
open ExchangeDomain NbtCodec ItemIdentity ItemRequirements GreedyPrefixes LocalizedMessages
open AsciiNumerals (ascii isSpace isDigit numeral decimal AllDigits isDigit_of_mem_decimal numeral_decimal
  decimal_ne_nil isSpace_of_isDigit)

section Markers

def deliveryClaimTag : Bytes := "__endstone_exchange_claim".toList.map ascii
def sellItemTag : Bytes := "__endstone_exchange_sell_item".toList.map ascii
def sellReceiptTag : Bytes := "__endstone_exchange_sell_receipt".toList.map ascii

/-- `std::stoull`: a number of 64 bits and what it leaves unread. A minus sign wraps around. -/
def stoull (text : Bytes) : Option (ℕ × Bytes) :=
  let body := text.dropWhile isSpace
  let unsigned := if body.head? = some (ascii '-') ∨ body.head? = some (ascii '+') then body.tail else body
  let digits := unsigned.takeWhile isDigit
  if digits = [] ∨ 2 ^ 64 ≤ numeral digits then none
  else some (if body.head? = some (ascii '-') then (2 ^ 64 - numeral digits) % 2 ^ 64 else numeral digits,
    unsigned.dropWhile isDigit)

def markerId (nbt : Entries) (marker : Bytes) : Option Id :=
  match nbt.lookup marker with
  | some (.string value) =>
    match stoull value with
    | some (id, []) => some id
    | _ => none
  | _ => none

structure ItemStack where
  type : String
  data : ℤ
  amount : ℤ
  nbt : Entries

def setMarker (item : ItemStack) (marker : Bytes) (id : Id) : ItemStack :=
  { item with nbt := Reader.insertOrAssign marker (.string (decimal id)) item.nbt }

def deliveryClaimId (item : ItemStack) : Option Id := markerId item.nbt deliveryClaimTag
def sellItemEscrowId (item : ItemStack) : Option Id := markerId item.nbt sellItemTag
def sellReceiptEscrowId (item : ItemStack) : Option Id := markerId item.nbt sellReceiptTag

def isInternalEscrowItem (item : ItemStack) : Bool :=
  (deliveryClaimId item).isSome || (sellItemEscrowId item).isSome || (sellReceiptEscrowId item).isSome

private theorem stoull_decimal {id : ℕ} (h : id < 2 ^ 64) : stoull (decimal id) = some (id, []) := by
  have hall : AllDigits (decimal id) := isDigit_of_mem_decimal
  have hblank : (decimal id).dropWhile isSpace = decimal id := by
    rw [List.dropWhile_eq_self_iff]
    intro hpos
    rw [isSpace_of_isDigit (hall _ (List.getElem_mem hpos))]
    exact Bool.false_ne_true
  have hsign : ∀ c, isDigit c = false → (decimal id).head? ≠ some c := by
    intro c hc hhead
    rw [hall c (List.mem_of_mem_head? hhead)] at hc
    cases hc
  have hminus := hsign (ascii '-') (by decide)
  have hplus := hsign (ascii '+') (by decide)
  simp only [stoull, hblank, hminus, hplus, or_self, if_false, List.takeWhile_eq_self_iff.mpr hall,
    List.dropWhile_eq_nil_iff.mpr hall, numeral_decimal, decimal_ne_nil, not_le.mpr h]

theorem lookup_entry (entry : Bytes × Tag) (entries : Entries) (key : Bytes) :
    (entry :: entries).lookup key = if key = entry.1 then some entry.2 else entries.lookup key := by
  rw [List.lookup_cons]
  cases h : key == entry.1
  · rw [if_neg (by simpa using h)]
  · rw [if_pos (by simpa using h)]

private theorem lookup_insertOrAssign (key : Bytes) (item : Tag) (entries : Entries) (key' : Bytes) :
    (Reader.insertOrAssign key item entries).lookup key' =
      if key' = key then some item else entries.lookup key' := by
  induction entries with
  | nil => exact lookup_entry (key, item) [] key'
  | cons entry entries ih =>
    obtain ⟨k, v⟩ := entry
    rw [Reader.insertOrAssign]
    by_cases hlt : k < key
    · rw [if_pos hlt, lookup_entry, ih, lookup_entry]
      by_cases hkey : key' = key
      · have hne : key' ≠ k := by
          rintro rfl
          rw [hkey] at hlt
          exact List.lt_irrefl _ hlt
        rw [if_neg hne, if_pos hkey, if_pos hkey]
      · rw [if_neg hkey, if_neg hkey]
    · rw [if_neg hlt]
      by_cases heq : k = key
      · subst heq
        rw [if_pos rfl, lookup_entry, lookup_entry]
        split_ifs <;> rfl
      · rw [if_neg heq, lookup_entry]

theorem markerId_setMarker (item : ItemStack) (marker marker' : Bytes) {id : Id} (h : id < 2 ^ 64) :
    markerId (setMarker item marker id).nbt marker' =
      if marker' = marker then some id else markerId item.nbt marker' := by
  rw [markerId, setMarker, lookup_insertOrAssign]
  split_ifs
  · dsimp only
    rw [stoull_decimal h]
  · rfl

end Markers

section Inventories

/-- The `int slot` of the loops: a slot of the contents, or `OffHandSlot`. -/
inductive Slot | main (index : ℕ) | offHand
  deriving DecidableEq

/-- `getContents` and `getItem` describe the same slots. -/
@[ext]
structure PlayerInventory where
  contents : List (Option ItemStack)
  offHand : Option ItemStack

namespace PlayerInventory
variable {inventory inventory' : PlayerInventory} {slot : Slot} {item : ItemStack}

def getItem (inventory : PlayerInventory) : Slot → Option ItemStack
  | .main index => inventory.contents[index]?.join
  | .offHand => inventory.offHand

def setItem (inventory : PlayerInventory) (slot : Slot) (item : ItemStack) : PlayerInventory :=
  match slot with
  | .main index => { inventory with contents := inventory.contents.set index (some item) }
  | .offHand => { inventory with offHand := some item }

/-- The slots in the order of the loops that write. -/
def slots (inventory : PlayerInventory) : List Slot :=
  (List.range inventory.contents.length).map .main ++ [.offHand]

/-- The stacks in the order of the loops over `getContents` and the offhand. -/
def items (inventory : PlayerInventory) : List ItemStack :=
  inventory.contents.reduceOption ++ inventory.offHand.toList

/-- The stacks in the order of the loops over `getItem`, with their slots. -/
def placed (inventory : PlayerInventory) : List (Slot × ItemStack) :=
  inventory.slots.filterMap fun slot => (inventory.getItem slot).map (slot, ·)

theorem slots_nodup : inventory.slots.Nodup := by
  refine List.nodup_append.mpr ⟨?_, List.nodup_singleton _, ?_⟩
  · exact List.nodup_range.map fun i j h => Slot.main.inj h
  · rintro slot hslot _ hlast rfl
    rw [List.mem_singleton.mp hlast] at hslot
    obtain ⟨_, -, hmain⟩ := List.mem_map.mp hslot
    cases hmain

theorem mem_slots_of_getItem (h : inventory.getItem slot = some item) : slot ∈ inventory.slots := by
  cases slot with
  | main index =>
    have hlt : index < inventory.contents.length := by
      by_contra hge
      rw [getItem, List.getElem?_eq_none (not_lt.mp hge)] at h
      cases h
    exact List.mem_append_left _ (List.mem_map_of_mem (List.mem_range.mpr hlt))
  | offHand => exact List.mem_append_right _ (List.mem_singleton_self _)

theorem mem_placed : (slot, item) ∈ inventory.placed ↔ inventory.getItem slot = some item := by
  rw [placed, List.mem_filterMap]
  constructor
  · rintro ⟨slot', -, h⟩
    obtain ⟨item', hitem, heq⟩ := Option.map_eq_some_iff.mp h
    obtain ⟨rfl, rfl⟩ := Prod.mk.inj heq
    exact hitem
  · intro h
    exact ⟨slot, mem_slots_of_getItem h, by rw [h]; rfl⟩

theorem placed_nodup : inventory.placed.Nodup := by
  refine inventory.slots_nodup.filterMap fun slot slot' entry h h' => ?_
  obtain ⟨_, -, rfl⟩ := Option.map_eq_some_iff.mp h
  obtain ⟨_, -, heq⟩ := Option.map_eq_some_iff.mp h'
  exact (congrArg Prod.fst heq).symm

theorem placed_keys_nodup : (inventory.placed.map Prod.fst).Nodup := by
  refine List.Nodup.map_on ?_ placed_nodup
  rintro ⟨slot, item⟩ h ⟨_, item'⟩ h' rfl
  exact congrArg (Prod.mk slot) (Option.some.inj ((mem_placed.mp h).symm.trans (mem_placed.mp h')))

private theorem filterMap_range (items : List (Option ItemStack)) :
    (List.range items.length).filterMap (fun index => items[index]?.join) = items.reduceOption := by
  induction items with
  | nil => rfl
  | cons item items ih =>
    rw [List.length_cons, List.range_succ_eq_map, List.filterMap_cons, List.filterMap_map]
    have hrest : (List.range items.length).filterMap ((fun index => (item :: items)[index]?.join) ∘ Nat.succ) =
        items.reduceOption := ih
    rw [hrest]
    cases item <;> rfl

/-- Both traversals meet the same stacks in the same order. -/
theorem items_eq : inventory.items = inventory.placed.map Prod.snd := by
  have hitem : ∀ slot, ((inventory.getItem slot).map fun item => (slot, item)).map Prod.snd =
      inventory.getItem slot := fun slot => by rw [Option.map_map]; exact Option.map_id'
  rw [placed, List.map_filterMap]
  simp only [hitem]
  rw [slots, List.filterMap_append, List.filterMap_map, items, ← filterMap_range]
  cases h : inventory.offHand <;> simp [getItem, h]

theorem slots_setItem : (inventory.setItem slot item).slots = inventory.slots := by
  cases slot with
  | main index => simp [slots, setItem]
  | offHand => rfl

theorem getItem_setItem (h : slot ∈ inventory.slots) (slot' : Slot) :
    (inventory.setItem slot item).getItem slot' = if slot' = slot then some item else inventory.getItem slot' := by
  cases slot with
  | offHand => cases slot' <;> simp [setItem, getItem]
  | main index =>
    have hlt : index < inventory.contents.length := by simpa [slots] using h
    cases slot' with
    | offHand => simp [setItem, getItem]
    | main index' =>
      by_cases heq : index' = index
      · subst heq
        simp [setItem, getItem, hlt]
      · have hne : index ≠ index' := fun h => heq h.symm
        simp [setItem, getItem, heq, List.getElem?_set_ne hne]

/-- An inventory is what its slots hold. -/
theorem ext_getItem (hslots : inventory.slots = inventory'.slots)
    (h : ∀ slot, inventory.getItem slot = inventory'.getItem slot) : inventory = inventory' := by
  have hlength : inventory.contents.length = inventory'.contents.length := by
    simpa [slots] using congrArg List.length hslots
  refine PlayerInventory.ext (List.ext_getElem hlength fun index hlt hlt' => ?_) (h .offHand)
  simpa [getItem, hlt, hlt'] using h (.main index)

/-- Stacks put into several slots. -/
def place (inventory : PlayerInventory) (cs : List (Slot × ItemStack)) : PlayerInventory :=
  cs.foldl (fun inventory c => inventory.setItem c.1 c.2) inventory

theorem place_spec {cs : List (Slot × ItemStack)} (hkeys : (cs.map Prod.fst).Nodup)
    (hslots : ∀ c ∈ cs, c.1 ∈ inventory.slots) :
    (inventory.place cs).slots = inventory.slots ∧ (∀ c ∈ cs, (inventory.place cs).getItem c.1 = some c.2) ∧
      ∀ slot, slot ∉ cs.map Prod.fst → (inventory.place cs).getItem slot = inventory.getItem slot := by
  induction cs generalizing inventory with
  | nil => exact ⟨rfl, by simp, fun _ _ => rfl⟩
  | cons c cs ih =>
    rw [List.map_cons, List.nodup_cons] at hkeys
    have hc := hslots c List.mem_cons_self
    have hrest : ∀ c' ∈ cs, c'.1 ∈ (inventory.setItem c.1 c.2).slots := by
      intro c' hc'
      rw [slots_setItem]
      exact hslots c' (List.mem_cons_of_mem _ hc')
    obtain ⟨hsame, hplaced, hothers⟩ := ih hkeys.2 hrest
    refine ⟨hsame.trans slots_setItem, fun c' hc' => ?_, fun slot hslot => ?_⟩
    · rcases List.mem_cons.mp hc' with rfl | hc'
      · exact (hothers _ hkeys.1).trans ((getItem_setItem hc _).trans (if_pos rfl))
      · exact hplaced c' hc'
    · rw [List.map_cons, List.mem_cons, not_or] at hslot
      exact (hothers slot hslot.2).trans ((getItem_setItem hc slot).trans (if_neg hslot.1))

/-- Given the slots of the stacks that pass a test, what the loops over the contents meet of them. -/
theorem filter_items_perm {p : ItemStack → Bool} {cs : List (Slot × ItemStack)}
    (hkeys : (cs.map Prod.fst).Nodup)
    (h : ∀ c : Slot × ItemStack, c ∈ cs ↔ inventory.getItem c.1 = some c.2 ∧ p c.2 = true) :
    (inventory.items.filter p).Perm (cs.map Prod.snd) := by
  rw [items_eq, List.filter_map]
  refine List.Perm.map _ ((List.perm_ext_iff_of_nodup (placed_nodup.filter _) hkeys.of_map).mpr fun c => ?_)
  rw [List.mem_filter, h, ← mem_placed]
  rfl

end PlayerInventory
end Inventories

section Tagging

/-- What the server and its library provide: the numbers of the tag types, `std::sort` by amount, texts of
bytes and floating values, and the NBT of a barrier whose name and lore are set. -/
structure Platform where
  types : TypeCodes
  sort : List (Slot × ItemStack) → List (Slot × ItemStack)
  sort_perm : ∀ candidates, (sort candidates).Perm candidates
  sort_ascending : ∀ candidates, (sort candidates).Pairwise fun c d => c.2.amount ≤ d.2.amount
  formats : TextFormats
  receiptNbt : String → List String → Option Entries

/-- The amounts of an inventory, and their sums, are far from the bounds of an `int`. -/
structure TaggedSellItems where
  quantity : ℤ := 0
  stackCount : ℤ := 0
  deriving DecidableEq, Repr

structure Collected where
  candidates : List (Slot × ItemStack) := []
  available : ℤ := 0
  sameType : ℤ := 0

def thrown : CodecError → Thrown
  | .runtime what => .runtimeError what
  | .outOfFuel => .runtimeError "the encoded NBT is nested too deep"

variable (platform : Platform)

def originalNbt (prototype : ItemPrototype) : Except Thrown Entries :=
  (if prototype.nbt = [] then .ok [] else decode platform.types prototype.nbt).mapError thrown

def matchesPrototype (prototype : ItemPrototype) (item : ItemStack) : Except Thrown Bool :=
  (matchesItemIdentity platform.types prototype item.type item.data item.nbt).mapError thrown

def count (prototype : ItemPrototype) (available : ℤ) (item : ItemStack) : Except Thrown ℤ := do
  if isInternalEscrowItem item then return available
  if ← matchesPrototype platform prototype item then return available + item.amount
  return available

def sellableItemCount (inventory : PlayerInventory) (prototype : ItemPrototype) : Except Thrown ℤ :=
  inventory.items.foldlM (count platform prototype) 0

def collect (prototype : ItemPrototype) (collected : Collected) (candidate : Slot × ItemStack) :
    Except Thrown Collected := do
  let item := candidate.2
  if isInternalEscrowItem item then return collected
  let sameType := if item.type = prototype.type then collected.sameType + item.amount else collected.sameType
  if ← matchesPrototype platform prototype item then
    return { candidates := collected.candidates ++ [candidate], available := collected.available + item.amount,
             sameType }
  return { collected with sameType }

/-- The loop over the sorted candidates. -/
def tagStacks (requested : ℤ) (escrowId : Id) :
    List (Slot × ItemStack) → TaggedSellItems → PlayerInventory → TaggedSellItems × PlayerInventory
  | [], result, inventory => (result, inventory)
  | (slot, item) :: candidates, result, inventory =>
    if result.quantity ≥ requested then (result, inventory)
    else tagStacks requested escrowId candidates ⟨result.quantity + item.amount, result.stackCount + 1⟩
      (inventory.setItem slot (setMarker item sellItemTag escrowId))

def insufficient (prototype : ItemPrototype) (requested : ℤ) (language : Language) (localizedItemName : String)
    (collected : Collected) : Thrown :=
  let itemName := if localizedItemName = "" then prototype.name else localizedItemName
  match describeItemRequirements platform.formats language platform.types prototype with
  | .error e => thrown e
  | .ok requirements =>
    let suffix := if requirements = "" then "" else "\n" ++ requirements
    .userError (tr language .inventoryInsufficient
      [toString collected.sameType, itemName, toString collected.available, toString requested, suffix])

/-- The outcome and the inventory that is left behind. -/
def tagSellItems (inventory : PlayerInventory) (prototype : ItemPrototype) (requested : ℤ) (escrowId : Id)
    (language : Language) (localizedItemName : String) : Except Thrown TaggedSellItems × PlayerInventory :=
  if requested ≤ 0 then (.error (.runtimeError "sell escrow quantity must be positive"), inventory)
  else
    match inventory.placed.foldlM (collect platform prototype) {} with
    | .error e => (.error e, inventory)
    | .ok collected =>
      if collected.available < requested then
        (.error (insufficient platform prototype requested language localizedItemName collected), inventory)
      else
        let (result, tagged) := tagStacks requested escrowId (platform.sort collected.candidates) {} inventory
        (.ok result, tagged)

def taggedSellItems (inventory : PlayerInventory) (escrowId : Id) : TaggedSellItems :=
  inventory.items.foldl (fun result item =>
    if sellItemEscrowId item = some escrowId then ⟨result.quantity + item.amount, result.stackCount + 1⟩
    else result) {}

/-- A loop over the slots that may replace the stack it finds. -/
def forSlots (replace : ItemStack → Except Thrown (Option ItemStack)) : List Slot → PlayerInventory →
    Except Thrown Unit × PlayerInventory
  | [], inventory => (.ok ⟨⟩, inventory)
  | slot :: slots, inventory =>
    match inventory.getItem slot with
    | none => forSlots replace slots inventory
    | some item =>
      match replace item with
      | .error e => (.error e, inventory)
      | .ok none => forSlots replace slots inventory
      | .ok (some item) => forSlots replace slots (inventory.setItem slot item)

def restoreTaggedSellItems (inventory : PlayerInventory) (escrowId : Id) (prototype : ItemPrototype) :
    Except Thrown Unit × PlayerInventory :=
  match originalNbt platform prototype with
  | .error e => (.error e, inventory)
  | .ok nbt =>
    forSlots (fun item => .ok (if sellItemEscrowId item = some escrowId then some { item with nbt } else none))
      inventory.slots inventory

def sellReceipt (escrowId : Id) (language : Language) : Except Thrown ItemStack :=
  match platform.receiptNbt (messageText language .receiptName) [messageText language .receiptLore] with
  | none => .error (.runtimeError "cannot create sell escrow receipt")
  | some nbt => .ok (setMarker ⟨"minecraft:barrier", 0, 1, nbt⟩ sellReceiptTag escrowId)

def replaceTaggedSellItemsWithReceipts (inventory : PlayerInventory) (escrowId : Id) (language : Language) :
    Except Thrown Unit × PlayerInventory :=
  forSlots (fun item =>
      if sellItemEscrowId item = some escrowId then (sellReceipt platform escrowId language).map some else .ok none)
    inventory.slots inventory

def sellReceiptCount (inventory : PlayerInventory) (escrowId : Id) : ℤ :=
  inventory.items.foldl (fun result item =>
    if sellReceiptEscrowId item = some escrowId then result + item.amount else result) 0

end Tagging

section Counting
variable {platform : Platform} {prototype : ItemPrototype} {inventory : PlayerInventory} {nbt : Entries}
  {e : Thrown} {item : ItemStack} {escrowId : Id} {requested : ℤ}

/-- An unmarked stack that matches the prototype. -/
def Sellable (platform : Platform) (prototype : ItemPrototype) (item : ItemStack) : Prop :=
  isInternalEscrowItem item = false ∧ matchesPrototype platform prototype item = .ok true

def sells (prototype : ItemPrototype) (nbt : Entries) (item : ItemStack) : Bool :=
  !isInternalEscrowItem item &&
    (item.type == prototype.type && item.data == prototype.data && sameEntries item.nbt nbt)

theorem originalNbt_eq : originalNbt platform prototype =
    (expectedNbt platform.types prototype).mapError thrown := rfl

theorem matchesPrototype_ok (h : originalNbt platform prototype = .ok nbt) :
    matchesPrototype platform prototype item =
      .ok (item.type == prototype.type && item.data == prototype.data && sameEntries item.nbt nbt) := by
  rw [originalNbt_eq] at h
  cases hd : expectedNbt platform.types prototype with
  | error e => rw [hd] at h; cases h
  | ok expected =>
    rw [hd] at h
    cases h
    rw [matchesPrototype, matchesItemIdentity, hd]
    rfl

theorem matchesPrototype_error (h : originalNbt platform prototype = .error e) :
    matchesPrototype platform prototype item = .error e := by
  rw [originalNbt_eq] at h
  cases hd : expectedNbt platform.types prototype with
  | ok expected => rw [hd] at h; cases h
  | error e' =>
    rw [hd] at h
    cases h
    rw [matchesPrototype, matchesItemIdentity, hd]
    rfl

private theorem sellable_of_sells (h : originalNbt platform prototype = .ok nbt)
    (hs : sells prototype nbt item = true) :
    Sellable platform prototype item := by
  rw [sells, Bool.and_eq_true, Bool.not_eq_true'] at hs
  exact ⟨hs.1, (matchesPrototype_ok h).trans (congrArg Except.ok hs.2)⟩

theorem sells_nbt (hs : sells prototype nbt item = true) : item.nbt = nbt := by
  simp only [sells, Bool.and_eq_true, sameEntries_iff] at hs
  exact hs.2.2

private theorem count_ok (h : originalNbt platform prototype = .ok nbt) (available : ℤ) (item : ItemStack) :
    count platform prototype available item =
      .ok (if sells prototype nbt item then available + item.amount else available) := by
  rw [count, matchesPrototype_ok h, sells]
  cases isInternalEscrowItem item
  · cases item.type == prototype.type && item.data == prototype.data && sameEntries item.nbt nbt <;> rfl
  · rfl

private theorem collect_ok (h : originalNbt platform prototype = .ok nbt) (collected : Collected)
    (c : Slot × ItemStack) :
    ∃ sameType, collect platform prototype collected c =
      .ok (if sells prototype nbt c.2 then
          ⟨collected.candidates ++ [c], collected.available + c.2.amount, sameType⟩
        else { collected with sameType }) := by
  rw [collect, matchesPrototype_ok h, sells]
  cases isInternalEscrowItem c.2
  · cases c.2.type == prototype.type && c.2.data == prototype.data && sameEntries c.2.nbt nbt
    · exact ⟨_, rfl⟩
    · exact ⟨_, rfl⟩
  · exact ⟨collected.sameType, rfl⟩

def total (items : List ItemStack) : ℤ := (items.map (·.amount)).sum

private theorem sellableItemCount_ok (h : originalNbt platform prototype = .ok nbt) :
    sellableItemCount platform inventory prototype =
      .ok (total (inventory.items.filter (sells prototype nbt))) := by
  have hloop : ∀ (items : List ItemStack) (available : ℤ), items.foldlM (count platform prototype) available =
      .ok (available + total (items.filter (sells prototype nbt))) := by
    intro items
    induction items with
    | nil => intro available; rw [List.filter_nil, total, List.map_nil, List.sum_nil, add_zero]; rfl
    | cons item items ih =>
      intro available
      rw [List.foldlM_cons, count_ok h]
      refine (ih _).trans (congrArg Except.ok ?_)
      by_cases hs : sells prototype nbt item
      · rw [if_pos hs, List.filter_cons_of_pos hs, total, total, List.map_cons, List.sum_cons, add_assoc]
      · rw [if_neg hs, List.filter_cons_of_neg hs]
  rw [sellableItemCount, hloop, zero_add]

/-- The candidates are the stacks that were counted. -/
theorem collected_ok (h : originalNbt platform prototype = .ok nbt) :
    ∃ sameType, inventory.placed.foldlM (collect platform prototype) {} =
      .ok ⟨inventory.placed.filter (sells prototype nbt ·.2),
        total (inventory.items.filter (sells prototype nbt)), sameType⟩ := by
  have hloop : ∀ (cs : List (Slot × ItemStack)) (collected : Collected), ∃ sameType,
      cs.foldlM (collect platform prototype) collected =
        .ok ⟨collected.candidates ++ cs.filter (sells prototype nbt ·.2),
          collected.available + total ((cs.map Prod.snd).filter (sells prototype nbt)), sameType⟩ := by
    intro cs
    induction cs with
    | nil =>
      intro collected
      refine ⟨collected.sameType, ?_⟩
      rw [List.filter_nil, List.append_nil, List.map_nil, List.filter_nil, total, List.map_nil, List.sum_nil,
        add_zero]
      rfl
    | cons c cs ih =>
      intro collected
      obtain ⟨sameType, hstep⟩ := collect_ok h collected c
      rw [List.foldlM_cons, hstep]
      by_cases hs : sells prototype nbt c.2
      · rw [if_pos hs]
        obtain ⟨last, hlast⟩ := ih ⟨collected.candidates ++ [c], collected.available + c.2.amount, sameType⟩
        refine ⟨last, hlast.trans ?_⟩
        rw [List.filter_cons_of_pos (by simpa using hs), List.map_cons, List.filter_cons_of_pos hs, total, total,
          List.map_cons, List.sum_cons, add_assoc, List.append_assoc]
        rfl
      · rw [if_neg hs]
        obtain ⟨last, hlast⟩ := ih { collected with sameType }
        refine ⟨last, hlast.trans ?_⟩
        rw [List.filter_cons_of_neg (by simpa using hs), List.map_cons, List.filter_cons_of_neg hs]
  obtain ⟨sameType, hcollected⟩ := hloop inventory.placed {}
  refine ⟨sameType, hcollected.trans ?_⟩
  rw [← PlayerInventory.items_eq, zero_add]
  rfl

/-- With a prototype that cannot be decoded both loops raise, or neither meets an unmarked stack. -/
theorem undecodable (h : originalNbt platform prototype = .error e) :
    (sellableItemCount platform inventory prototype = .error e ∧
      inventory.placed.foldlM (collect platform prototype) {} = .error e) ∨
    (sellableItemCount platform inventory prototype = .ok 0 ∧
      inventory.placed.foldlM (collect platform prototype) {} = .ok {}) := by
  have hcount : ∀ (available : ℤ) (item : ItemStack), count platform prototype available item =
      if isInternalEscrowItem item then .ok available else .error e := by
    intro available item
    rw [count, matchesPrototype_error h]
    cases isInternalEscrowItem item <;> rfl
  have hcollect : ∀ (collected : Collected) (c : Slot × ItemStack), collect platform prototype collected c =
      if isInternalEscrowItem c.2 then .ok collected else .error e := by
    intro collected c
    rw [collect, matchesPrototype_error h]
    cases isInternalEscrowItem c.2 <;> rfl
  rw [sellableItemCount, PlayerInventory.items_eq]
  induction inventory.placed with
  | nil => exact .inr ⟨rfl, rfl⟩
  | cons c cs ih =>
    rw [List.map_cons, List.foldlM_cons, List.foldlM_cons, hcount, hcollect]
    cases isInternalEscrowItem c.2
    · exact .inl ⟨rfl, rfl⟩
    · exact ih

theorem taggedSellItems_eq : taggedSellItems inventory escrowId =
    ⟨total (inventory.items.filter (sellItemEscrowId · = some escrowId)),
      (inventory.items.filter (sellItemEscrowId · = some escrowId)).length⟩ := by
  have hloop : ∀ (items : List ItemStack) (result : TaggedSellItems), items.foldl (fun result item =>
      if sellItemEscrowId item = some escrowId then ⟨result.quantity + item.amount, result.stackCount + 1⟩
      else result) result =
        ⟨result.quantity + total (items.filter (sellItemEscrowId · = some escrowId)),
          result.stackCount + (items.filter (sellItemEscrowId · = some escrowId)).length⟩ := by
    intro items
    induction items with
    | nil => intro result; simp [total]
    | cons item items ih =>
      intro result
      rw [List.foldl_cons, ih]
      by_cases hs : sellItemEscrowId item = some escrowId
      · simp only [hs, if_true, decide_true, List.filter_cons_of_pos, total, List.map_cons, List.sum_cons,
          List.length_cons, Nat.cast_add, Nat.cast_one, TaggedSellItems.mk.injEq]
        constructor <;> ring
      · simp only [hs, if_false, decide_false, Bool.false_eq_true, not_false_eq_true, List.filter_cons_of_neg]
  rw [taggedSellItems, hloop, zero_add, zero_add]

theorem sellReceiptCount_eq : sellReceiptCount inventory escrowId =
    total (inventory.items.filter (sellReceiptEscrowId · = some escrowId)) := by
  have hloop : ∀ (items : List ItemStack) (result : ℤ), items.foldl (fun result item =>
      if sellReceiptEscrowId item = some escrowId then result + item.amount else result) result =
        result + total (items.filter (sellReceiptEscrowId · = some escrowId)) := by
    intro items
    induction items with
    | nil => intro result; simp [total]
    | cons item items ih =>
      intro result
      rw [List.foldl_cons, ih]
      by_cases hs : sellReceiptEscrowId item = some escrowId
      · simp only [hs, if_true, decide_true, List.filter_cons_of_pos, total, List.map_cons, List.sum_cons]
        ring
      · simp only [hs, if_false, decide_false, Bool.false_eq_true, not_false_eq_true, List.filter_cons_of_neg]
  rw [sellReceiptCount, hloop, zero_add]

def tag (escrowId : Id) (c : Slot × ItemStack) : Slot × ItemStack := (c.1, setMarker c.2 sellItemTag escrowId)

/-- The loop tags a greedy prefix of the candidates. -/
theorem tagStacks_eq (cs : List (Slot × ItemStack)) (result : TaggedSellItems) (inventory : PlayerInventory) :
    tagStacks requested escrowId cs result inventory =
      (⟨result.quantity + total ((greedy (fun c => c.2.amount) requested result.quantity cs).map Prod.snd),
        result.stackCount + (greedy (fun c => c.2.amount) requested result.quantity cs).length⟩,
        inventory.place ((greedy (fun c => c.2.amount) requested result.quantity cs).map (tag escrowId))) := by
  induction cs generalizing result inventory with
  | nil => simp [tagStacks, greedy, total, PlayerInventory.place]
  | cons c cs ih =>
    obtain ⟨slot, item⟩ := c
    rw [tagStacks, greedy]
    split_ifs
    · simp [total, PlayerInventory.place]
    · rw [ih]
      simp only [total, List.map_cons, List.sum_cons, List.length_cons, Nat.cast_add, Nat.cast_one]
      refine Prod.ext (congrArg₂ TaggedSellItems.mk ?_ ?_) rfl
      · ring
      · ring

end Counting

section Rewriting
variable {inventory : PlayerInventory} {replace : ItemStack → Except Thrown (Option ItemStack)}
  {put : ItemStack → Option ItemStack}

private theorem forSlots_step (h : ∀ item, replace item = .ok (put item)) {slot : Slot} (hslot : slot ∈ inventory.slots)
    (slots : List Slot) : ∃ stepped : PlayerInventory,
      forSlots replace (slot :: slots) inventory = forSlots replace slots stepped ∧
      stepped.slots = inventory.slots ∧ ∀ s, stepped.getItem s =
        if s = slot then (inventory.getItem s).map fun item => (put item).getD item else inventory.getItem s := by
  rw [forSlots]
  cases hitem : inventory.getItem slot with
  | none =>
    refine ⟨inventory, rfl, rfl, fun s => ?_⟩
    split_ifs with hs
    · rw [hs, hitem, Option.map_none]
    · rfl
  | some item =>
    dsimp only
    rw [h item]
    cases hput : put item with
    | none =>
      refine ⟨inventory, rfl, rfl, fun s => ?_⟩
      split_ifs with hs
      · rw [hs, hitem, Option.map_some, hput, Option.getD_none]
      · rfl
    | some new =>
      refine ⟨inventory.setItem slot new, rfl, PlayerInventory.slots_setItem, fun s => ?_⟩
      rw [PlayerInventory.getItem_setItem hslot]
      split_ifs with hs
      · rw [hs, hitem, Option.map_some, hput, Option.getD_some]
      · rfl

/-- A loop whose replacements do not raise replaces the stacks of its slots. -/
theorem forSlots_spec (h : ∀ item, replace item = .ok (put item)) {slots : List Slot} (hnodup : slots.Nodup)
    (hslots : ∀ slot ∈ slots, slot ∈ inventory.slots) :
    ∃ settled, forSlots replace slots inventory = (.ok ⟨⟩, settled) ∧ settled.slots = inventory.slots ∧
      ∀ slot, settled.getItem slot = if slot ∈ slots then
        (inventory.getItem slot).map fun item => (put item).getD item else inventory.getItem slot := by
  induction slots generalizing inventory with
  | nil => exact ⟨inventory, rfl, rfl, fun slot => (if_neg List.not_mem_nil).symm⟩
  | cons slot slots ih =>
    rw [List.nodup_cons] at hnodup
    obtain ⟨stepped, hstep, hsame, hget⟩ := forSlots_step h (hslots slot List.mem_cons_self) slots
    have hrest : ∀ s ∈ slots, s ∈ stepped.slots := fun s hs => hsame ▸ hslots s (List.mem_cons_of_mem _ hs)
    obtain ⟨settled, hrun, hsettled, hlast⟩ := ih hnodup.2 hrest
    refine ⟨settled, hstep.trans hrun, hsettled.trans hsame, fun s => ?_⟩
    rw [hlast, hget]
    by_cases hs : s = slot
    · subst hs
      simp [hnodup.1]
    · simp [hs]

/-- A loop over all slots. -/
theorem forSlots_all (h : ∀ item, replace item = .ok (put item)) :
    ∃ settled, forSlots replace inventory.slots inventory = (.ok ⟨⟩, settled) ∧
      settled.slots = inventory.slots ∧
      ∀ slot, settled.getItem slot = (inventory.getItem slot).map fun item => (put item).getD item := by
  obtain ⟨settled, hrun, hsame, hget⟩ := forSlots_spec h PlayerInventory.slots_nodup fun _ hs => hs
  refine ⟨settled, hrun, hsame, fun slot => (hget slot).trans ?_⟩
  split_ifs with hslot
  · rfl
  · cases hitem : inventory.getItem slot with
    | none => rfl
    | some item => exact absurd (PlayerInventory.mem_slots_of_getItem hitem) hslot

end Rewriting

section Claims
variable {platform : Platform} {prototype : ItemPrototype} {inventory tagged : PlayerInventory} {nbt : Entries}
  {escrowId : Id} {requested available : ℤ} {result : TaggedSellItems}

/-- An identifier of 64 bits that no marker in the inventory holds. -/
structure Fresh (escrowId : Id) (inventory : PlayerInventory) : Prop where
  lt : escrowId < 2 ^ 64
  tags : ∀ slot item, inventory.getItem slot = some item → sellItemEscrowId item ≠ some escrowId
  receipts : ∀ slot item, inventory.getItem slot = some item → sellReceiptEscrowId item ≠ some escrowId

/-- The name and the lore can be set on a barrier, and put no tag into its NBT. -/
def Platform.MakesReceipts (platform : Platform) : Prop := ∀ name lore, ∃ nbt,
  platform.receiptNbt name lore = some nbt ∧ markerId nbt sellItemTag = none

/-- Some stacks of an inventory, each of which is to be tagged. -/
structure Chosen (prototype : ItemPrototype) (nbt : Entries) (inventory : PlayerInventory)
    (chosen : List (Slot × ItemStack)) : Prop where
  keys : (chosen.map Prod.fst).Nodup
  held : ∀ c ∈ chosen, inventory.getItem c.1 = some c.2
  sells : ∀ c ∈ chosen, sells prototype nbt c.2 = true

def tagAll (escrowId : Id) (chosen : List (Slot × ItemStack)) (inventory : PlayerInventory) : PlayerInventory :=
  inventory.place (chosen.map (tag escrowId))

section Chosen
variable {chosen : List (Slot × ItemStack)}

theorem tag_keys (escrowId : Id) (chosen : List (Slot × ItemStack)) :
    (chosen.map (tag escrowId)).map Prod.fst = chosen.map Prod.fst := by
  rw [List.map_map]
  rfl

theorem sellItemEscrowId_tag (hlt : escrowId < 2 ^ 64) (item : ItemStack) :
    sellItemEscrowId (setMarker item sellItemTag escrowId) = some escrowId := by
  rw [sellItemEscrowId, markerId_setMarker _ _ _ hlt, if_pos rfl]

theorem Chosen.place_spec (h : Chosen prototype nbt inventory chosen) :
    (tagAll escrowId chosen inventory).slots = inventory.slots ∧
      (∀ c ∈ chosen, (tagAll escrowId chosen inventory).getItem c.1 =
        some (setMarker c.2 sellItemTag escrowId)) ∧
      ∀ slot, slot ∉ chosen.map Prod.fst →
        (tagAll escrowId chosen inventory).getItem slot = inventory.getItem slot := by
  have hkeys : ((chosen.map (tag escrowId)).map Prod.fst).Nodup := by
    rw [tag_keys]
    exact h.keys
  have hslots : ∀ c ∈ chosen.map (tag escrowId), c.1 ∈ inventory.slots := by
    intro c hc
    obtain ⟨c, hmem, rfl⟩ := List.mem_map.mp hc
    exact PlayerInventory.mem_slots_of_getItem (h.held c hmem)
  obtain ⟨hsame, hplaced, hothers⟩ := PlayerInventory.place_spec hkeys hslots
  rw [tag_keys] at hothers
  exact ⟨hsame, fun c hc => hplaced _ (List.mem_map_of_mem hc), hothers⟩

/-- A tagged stack is a chosen one, with the marker. -/
theorem Chosen.tagged_iff (h : Chosen prototype nbt inventory chosen) (hfresh : Fresh escrowId inventory)
    (c : Slot × ItemStack) : c ∈ chosen.map (tag escrowId) ↔
      (tagAll escrowId chosen inventory).getItem c.1 = some c.2 ∧ sellItemEscrowId c.2 = some escrowId := by
  obtain ⟨-, hchosen, hothers⟩ := @Chosen.place_spec _ _ _ escrowId _ h
  constructor
  · intro hc
    obtain ⟨c, hmem, rfl⟩ := List.mem_map.mp hc
    exact ⟨hchosen c hmem, sellItemEscrowId_tag hfresh.lt _⟩
  · rintro ⟨hget, hid⟩
    by_cases hslot : c.1 ∈ chosen.map Prod.fst
    · obtain ⟨d, hd, hkey⟩ := List.mem_map.mp hslot
      rw [← hkey, hchosen d hd] at hget
      refine List.mem_map.mpr ⟨d, hd, Prod.ext hkey (Option.some.inj hget)⟩
    · rw [hothers c.1 hslot] at hget
      exact absurd hid (hfresh.tags c.1 c.2 hget)

theorem Chosen.counted (h : Chosen prototype nbt inventory chosen) (hfresh : Fresh escrowId inventory) :
    taggedSellItems (tagAll escrowId chosen inventory) escrowId =
      ⟨total (chosen.map Prod.snd), chosen.length⟩ := by
  have hperm := @PlayerInventory.filter_items_perm (tagAll escrowId chosen inventory)
    (sellItemEscrowId · = some escrowId) (chosen.map (tag escrowId)) (by rw [tag_keys]; exact h.keys)
    (by simpa using h.tagged_iff hfresh)
  rw [taggedSellItems_eq, hperm.length_eq, List.length_map, List.length_map, total, (hperm.map _).sum_eq, total]
  simp only [List.map_map]
  rfl

/-- A loop that replaces the tagged stacks replaces the chosen ones. -/
theorem Chosen.replaced (h : Chosen prototype nbt inventory chosen) (hfresh : Fresh escrowId inventory)
    {replace : ItemStack → Except Thrown (Option ItemStack)} {f : ItemStack → ItemStack}
    (hreplace : ∀ item, replace item =
      .ok (if sellItemEscrowId item = some escrowId then some (f item) else none)) :
    ∃ settled, forSlots replace (tagAll escrowId chosen inventory).slots (tagAll escrowId chosen inventory) =
        (.ok ⟨⟩, settled) ∧ settled.slots = inventory.slots ∧
      (∀ c ∈ chosen, settled.getItem c.1 = some (f (setMarker c.2 sellItemTag escrowId))) ∧
      ∀ slot, slot ∉ chosen.map Prod.fst → settled.getItem slot = inventory.getItem slot := by
  obtain ⟨hslots, hchosen, hothers⟩ := @Chosen.place_spec _ _ _ escrowId _ h
  obtain ⟨settled, hrun, hsame, hget⟩ := forSlots_all hreplace
  refine ⟨settled, hrun, hsame.trans hslots, fun c hc => ?_, fun slot hslot => ?_⟩
  · rw [hget, hchosen c hc, Option.map_some, sellItemEscrowId_tag hfresh.lt, if_pos rfl, Option.getD_some]
  · rw [hget, hothers slot hslot]
    cases hitem : inventory.getItem slot with
    | none => rfl
    | some item => rw [Option.map_some, if_neg (hfresh.tags slot item hitem), Option.getD_none]

theorem Chosen.restored (h : Chosen prototype nbt inventory chosen) (hfresh : Fresh escrowId inventory)
    (hnbt : originalNbt platform prototype = .ok nbt) :
    restoreTaggedSellItems platform (tagAll escrowId chosen inventory) escrowId prototype =
      (.ok ⟨⟩, inventory) := by
  have hreplace : ∀ item : ItemStack, (Except.ok (if sellItemEscrowId item = some escrowId then
      some { item with nbt } else none) : Except Thrown (Option ItemStack)) =
        .ok (if sellItemEscrowId item = some escrowId then some { item with nbt } else none) := fun _ => rfl
  obtain ⟨settled, hrun, hslots, hchosen, hothers⟩ := h.replaced hfresh hreplace
  rw [restoreTaggedSellItems, hnbt]
  refine hrun.trans (congrArg (Prod.mk _) (PlayerInventory.ext_getItem hslots fun slot => ?_))
  by_cases hslot : slot ∈ chosen.map Prod.fst
  · obtain ⟨c, hc, rfl⟩ := List.mem_map.mp hslot
    rw [hchosen c hc, h.held c hc, setMarker]
    have hsame : c.2.nbt = nbt := sells_nbt (h.sells c hc)
    rw [← hsame]
  · exact hothers slot hslot

theorem Chosen.receipts (h : Chosen prototype nbt inventory chosen) (hfresh : Fresh escrowId inventory)
    (hreceipts : platform.MakesReceipts) (language : Language) :
    ∃ settled, replaceTaggedSellItemsWithReceipts platform (tagAll escrowId chosen inventory) escrowId language =
        (.ok ⟨⟩, settled) ∧ sellReceiptCount settled escrowId = chosen.length ∧
      ∀ slot item, settled.getItem slot = some item → sellItemEscrowId item ≠ some escrowId := by
  obtain ⟨base, hbase, hnone⟩ :=
    hreceipts (messageText language .receiptName) [messageText language .receiptLore]
  obtain ⟨receipt, hreceipt, hamount, hid, htag⟩ : ∃ receipt : ItemStack,
      sellReceipt platform escrowId language = .ok receipt ∧ receipt.amount = 1 ∧
      sellReceiptEscrowId receipt = some escrowId ∧ sellItemEscrowId receipt = none := by
    refine ⟨_, by rw [sellReceipt, hbase], rfl, ?_, ?_⟩
    · rw [sellReceiptEscrowId, markerId_setMarker _ _ _ hfresh.lt, if_pos rfl]
    · rw [sellItemEscrowId, markerId_setMarker _ _ _ hfresh.lt, if_neg (by decide)]
      exact hnone
  have hreplace : ∀ item, (if sellItemEscrowId item = some escrowId then
      (sellReceipt platform escrowId language).map some else .ok none) =
        .ok (if sellItemEscrowId item = some escrowId then some receipt else none) := by
    intro item
    rw [hreceipt]
    split_ifs <;> rfl
  obtain ⟨settled, hrun, -, hchosen, hothers⟩ := h.replaced hfresh hreplace
  refine ⟨settled, hrun, ?_, fun slot item hitem => ?_⟩
  · have hkeys : ((chosen.map fun c => (c.1, receipt)).map Prod.fst).Nodup := by
      rw [List.map_map]
      exact h.keys
    have hperm := @PlayerInventory.filter_items_perm settled (sellReceiptEscrowId · = some escrowId)
      (chosen.map fun c => (c.1, receipt)) hkeys fun c => by
        rw [List.mem_map, decide_eq_true_eq]
        constructor
        · rintro ⟨d, hd, rfl⟩
          exact ⟨hchosen d hd, hid⟩
        · rintro ⟨hget, hcid⟩
          by_cases hslot : c.1 ∈ chosen.map Prod.fst
          · obtain ⟨d, hd, hkey⟩ := List.mem_map.mp hslot
            rw [← hkey, hchosen d hd] at hget
            exact ⟨d, hd, Prod.ext hkey (Option.some.inj hget)⟩
          · rw [hothers c.1 hslot] at hget
            exact absurd hcid (hfresh.receipts c.1 c.2 hget)
    rw [sellReceiptCount_eq, total, (hperm.map _).sum_eq]
    simp [Function.comp_def, hamount]
  · by_cases hslot : slot ∈ chosen.map Prod.fst
    · obtain ⟨c, hc, rfl⟩ := List.mem_map.mp hslot
      rw [hchosen c hc] at hitem
      obtain rfl := Option.some.inj hitem
      rw [htag]
      exact Option.some_ne_none _ |>.symm
    · rw [hothers slot hslot] at hitem
      exact hfresh.tags slot item hitem

end Chosen

/-- What tagging leaves of an inventory, and how it is undone. -/
structure Tagged (platform : Platform) (inventory : PlayerInventory) (prototype : ItemPrototype) (requested : ℤ)
    (escrowId : Id) (result : TaggedSellItems) (tagged : PlayerInventory) : Prop where
  slots : tagged.slots = inventory.slots
  marked : ∀ slot, tagged.getItem slot = inventory.getItem slot ∨
    ∃ item, inventory.getItem slot = some item ∧ Sellable platform prototype item ∧
      tagged.getItem slot = some (setMarker item sellItemTag escrowId)
  counted : taggedSellItems tagged escrowId = result
  enough : requested ≤ result.quantity
  fewest : ∀ slot item, tagged.getItem slot = some item → sellItemEscrowId item = some escrowId →
    (∀ slot' item', tagged.getItem slot' = some item' → sellItemEscrowId item' = some escrowId →
      item'.amount ≤ item.amount) → result.quantity - item.amount < requested
  restored : restoreTaggedSellItems platform tagged escrowId prototype = (.ok ⟨⟩, inventory)
  receipts : ∀ language, ∃ settled,
    replaceTaggedSellItemsWithReceipts platform tagged escrowId language = (.ok ⟨⟩, settled) ∧
      sellReceiptCount settled escrowId = result.stackCount ∧
      ∀ slot item, settled.getItem slot = some item → sellItemEscrowId item ≠ some escrowId

/-- The loop over the sorted candidates, where enough of them were counted. -/
theorem tagStacks_tagged (hfresh : Fresh escrowId inventory)
    (hreceipts : platform.MakesReceipts) (hnbt : originalNbt platform prototype = .ok nbt)
    (henough : requested ≤ total (inventory.items.filter (sells prototype nbt))) :
    Tagged platform inventory prototype requested escrowId
      (tagStacks requested escrowId (platform.sort (inventory.placed.filter (sells prototype nbt ·.2))) {}
        inventory).1
      (tagStacks requested escrowId (platform.sort (inventory.placed.filter (sells prototype nbt ·.2))) {}
        inventory).2 := by
  rw [tagStacks_eq]
  have hperm := platform.sort_perm (inventory.placed.filter (sells prototype nbt ·.2))
  have hascending := platform.sort_ascending (inventory.placed.filter (sells prototype nbt ·.2))
  generalize platform.sort (inventory.placed.filter (sells prototype nbt ·.2)) = sorted at hperm hascending
  have hinitial := greedy_initial (fun c : Slot × ItemStack => c.2.amount) requested 0 sorted
  have hmem : ∀ c ∈ greedy (fun c => c.2.amount) requested 0 sorted,
      c ∈ inventory.placed ∧ sells prototype nbt c.2 = true := fun c hc =>
    List.mem_filter.mp (hperm.mem_iff.mp (hinitial.subset hc))
  have hreach : requested ≤
      0 + ((greedy (fun c => c.2.amount) requested 0 sorted).map fun c => c.2.amount).sum := by
    refine greedy_reaches _ _ ?_
    have hsum : (sorted.map fun c => c.2.amount).sum = total (inventory.items.filter (sells prototype nbt)) := by
      rw [(hperm.map _).sum_eq, PlayerInventory.items_eq, List.filter_map, total, List.map_map]
      rfl
    rw [hsum, zero_add]
    exact henough
  have hwithout : ∀ c ∈ greedy (fun c => c.2.amount) requested 0 sorted,
      (∀ d ∈ greedy (fun c => c.2.amount) requested 0 sorted, d.2.amount ≤ c.2.amount) →
      0 + ((greedy (fun c => c.2.amount) requested 0 sorted).map fun c => c.2.amount).sum - c.2.amount <
        requested := fun c hc hmax => greedy_without_largest hascending hc hmax
  have hchosen : Chosen prototype nbt inventory (greedy (fun c => c.2.amount) requested 0 sorted) := by
    constructor
    case keys =>
      refine (hinitial.sublist.map Prod.fst).nodup ?_
      refine (hperm.map Prod.fst).nodup_iff.mpr ?_
      exact (List.filter_sublist.map Prod.fst).nodup PlayerInventory.placed_keys_nodup
    case held => exact fun c hc => PlayerInventory.mem_placed.mp (hmem c hc).1
    case sells => exact fun c hc => (hmem c hc).2
  change Tagged platform inventory prototype requested escrowId
    ⟨0 + total ((greedy (fun c => c.2.amount) requested 0 sorted).map Prod.snd),
      0 + (greedy (fun c => c.2.amount) requested 0 sorted).length⟩
    (tagAll escrowId (greedy (fun c => c.2.amount) requested 0 sorted) inventory)
  generalize greedy (fun c : Slot × ItemStack => c.2.amount) requested 0 sorted = chosen at *
  have htotal : (chosen.map fun c => c.2.amount).sum = total (chosen.map Prod.snd) := by
    rw [total, List.map_map]
    rfl
  rw [htotal] at hreach hwithout
  obtain ⟨hslots, hplaced, hothers⟩ := @Chosen.place_spec _ _ _ escrowId _ hchosen
  constructor
  case slots => exact hslots
  case marked =>
    intro slot
    by_cases hslot : slot ∈ chosen.map Prod.fst
    · obtain ⟨c, hc, rfl⟩ := List.mem_map.mp hslot
      exact .inr ⟨c.2, hchosen.held c hc, sellable_of_sells hnbt (hchosen.sells c hc), hplaced c hc⟩
    · exact .inl (hothers slot hslot)
  case counted => rw [hchosen.counted hfresh, zero_add, zero_add]
  case enough => exact hreach
  case fewest =>
    intro slot item hitem hid hmax
    obtain ⟨c, hc, heq⟩ := List.mem_map.mp ((hchosen.tagged_iff hfresh (slot, item)).mpr ⟨hitem, hid⟩)
    have hamount : item.amount = c.2.amount := congrArg (fun c => c.2.amount) heq.symm
    rw [hamount] at hmax ⊢
    refine hwithout c hc fun d hd => ?_
    obtain ⟨hget, hdid⟩ := (hchosen.tagged_iff hfresh _).mp (List.mem_map_of_mem hd)
    exact hmax d.1 (setMarker d.2 sellItemTag escrowId) hget hdid
  case restored => exact hchosen.restored hfresh hnbt
  case receipts =>
    intro language
    obtain ⟨settled, hrun, hreceiptCount, hnone⟩ := hchosen.receipts hfresh hreceipts language
    exact ⟨settled, hrun, hreceiptCount.trans (zero_add _).symm, hnone⟩

/-- Tagging raises exactly if too few items can be sold, and then touches nothing. -/
structure TagsExactly (platform : Platform) (inventory : PlayerInventory) (prototype : ItemPrototype)
    (requested : ℤ) (escrowId : Id) (run : Except Thrown TaggedSellItems × PlayerInventory) : Prop where
  throws : ∀ available, sellableItemCount platform inventory prototype = .ok available →
    ((∃ e, run.1 = .error e) ↔ available < requested)
  raised : ∀ e, sellableItemCount platform inventory prototype = .error e → ∃ e, run.1 = .error e
  unchanged : ∀ e, run.1 = .error e → run.2 = inventory
  tagged : ∀ result, run.1 = .ok result → Tagged platform inventory prototype requested escrowId result run.2

theorem TagsExactly.of_threw {e : Thrown}
    (h : ∀ available, sellableItemCount platform inventory prototype = .ok available → available < requested) :
    TagsExactly platform inventory prototype requested escrowId (.error e, inventory) := by
  constructor
  case throws => exact fun available havailable => iff_of_true ⟨e, rfl⟩ (h available havailable)
  case raised => exact fun _ _ => ⟨e, rfl⟩
  case unchanged => exact fun _ _ => rfl
  case tagged => intro _ hresult; cases hresult

theorem TagsExactly.of_tagged (hcount : sellableItemCount platform inventory prototype = .ok available)
    (henough : requested ≤ available)
    (h : Tagged platform inventory prototype requested escrowId result tagged) :
    TagsExactly platform inventory prototype requested escrowId (.ok result, tagged) := by
  constructor
  case throws =>
    intro available' havailable
    rw [hcount] at havailable
    obtain rfl := Except.ok.inj havailable
    refine ⟨fun hthrew => ?_, fun hshort => absurd hshort (not_lt.mpr henough)⟩
    obtain ⟨_, hthrew⟩ := hthrew
    cases hthrew
  case raised => intro _ hraised; rw [hcount] at hraised; cases hraised
  case unchanged => intro _ hthrew; cases hthrew
  case tagged =>
    intro result' hresult
    obtain rfl := Except.ok.inj hresult
    exact h

theorem tagSellItems_exact (hrequested : 1 ≤ requested) (hfresh : Fresh escrowId inventory)
    (hreceipts : platform.MakesReceipts) (language : Language) (localizedItemName : String) :
    TagsExactly platform inventory prototype requested escrowId
      (tagSellItems platform inventory prototype requested escrowId language localizedItemName) := by
  rw [tagSellItems, if_neg (by omega)]
  cases hnbt : originalNbt platform prototype with
  | error e =>
    rcases @undecodable platform prototype inventory e hnbt with ⟨hcount, hcollected⟩ | ⟨hcount, hcollected⟩
    · rw [hcollected]
      refine .of_threw fun available h => ?_
      rw [hcount] at h
      cases h
    · rw [hcollected]
      dsimp only
      rw [if_pos (show (0 : ℤ) < requested by omega)]
      refine .of_threw fun available h => ?_
      rw [hcount] at h
      obtain rfl := Except.ok.inj h
      omega
  | ok nbt =>
    obtain ⟨sameType, hcollected⟩ := @collected_ok platform prototype inventory nbt hnbt
    have hcount := @sellableItemCount_ok platform prototype inventory nbt hnbt
    rw [hcollected]
    dsimp only
    by_cases hshort : total (inventory.items.filter (sells prototype nbt)) < requested
    · rw [if_pos hshort]
      refine .of_threw fun available h => ?_
      rw [hcount] at h
      obtain rfl := Except.ok.inj h
      exact hshort
    · rw [if_neg hshort]
      exact .of_tagged hcount (not_lt.mp hshort) (tagStacks_tagged hfresh hreceipts hnbt (not_lt.mp hshort))

end Claims

section Sample

theorem mem_items_of_getItem {inventory : PlayerInventory} {slot : Slot} {item : ItemStack}
    (h : inventory.getItem slot = some item) : item ∈ inventory.items := by
  rw [PlayerInventory.items_eq]
  exact List.mem_map_of_mem (f := Prod.snd) (PlayerInventory.mem_placed.mpr h)

def samplePlatform : Platform where
  types := NbtRoundTrip.standardTypes
  sort candidates := candidates.mergeSort fun c d => c.2.amount ≤ d.2.amount
  sort_perm candidates := List.mergeSort_perm candidates _
  sort_ascending candidates := by
    have h := @List.pairwise_mergeSort _ (fun c d : Slot × ItemStack => decide (c.2.amount ≤ d.2.amount))
      (fun a b c hab hbc => by simp only [decide_eq_true_eq] at hab hbc ⊢; omega)
      (fun a b => by simp only [Bool.or_eq_true, decide_eq_true_eq]; omega) candidates
    simpa using h
  formats := ⟨fun bytes => String.ofList (bytes.map fun b => Char.ofNat b.toNat), fun _ => "", fun _ => ""⟩
  receiptNbt _ _ := some []

def diamonds (amount : ℤ) : ItemStack := ⟨"minecraft:diamond", 0, amount, []⟩

/-- Three stacks of diamonds, and one that another escrow has tagged. -/
def sampleInventory : PlayerInventory where
  contents := [some (diamonds 64), none, some (setMarker (diamonds 32) sellItemTag 3), some (diamonds 16)]
  offHand := some (diamonds 5)

private theorem sampleInventory_fresh : Fresh 7 sampleInventory := by
  have hitems : ∀ item ∈ sampleInventory.items,
      sellItemEscrowId item ≠ some 7 ∧ sellReceiptEscrowId item ≠ some 7 := by
    have hplain : ∀ amount, sellItemEscrowId (diamonds amount) = none ∧
        sellReceiptEscrowId (diamonds amount) = none := fun _ => ⟨rfl, rfl⟩
    have htagged : sellItemEscrowId (setMarker (diamonds 32) sellItemTag 3) = some 3 ∧
        sellReceiptEscrowId (setMarker (diamonds 32) sellItemTag 3) = none := by
      rw [sellItemEscrowId, sellReceiptEscrowId, markerId_setMarker _ _ _ (by decide),
        markerId_setMarker _ _ _ (by decide), if_pos rfl, if_neg (by decide)]
      exact ⟨rfl, rfl⟩
    intro item hitem
    simp only [PlayerInventory.items, sampleInventory, List.reduceOption_cons_of_some,
      List.reduceOption_cons_of_none, List.reduceOption_nil, Option.toList_some, List.mem_append, List.mem_cons,
      List.not_mem_nil, or_false] at hitem
    rcases hitem with (rfl | rfl | rfl) | rfl
    · simp [hplain]
    · simp [htagged]
    · simp [hplain]
    · simp [hplain]
  exact ⟨by decide, fun _ item h => (hitems item (mem_items_of_getItem h)).1,
    fun _ item h => (hitems item (mem_items_of_getItem h)).2⟩

theorem tagSellItems_exact_diamonds :
    TagsExactly samplePlatform sampleInventory (diamond []) 20 7
      (tagSellItems samplePlatform sampleInventory (diamond []) 20 7 .english "") :=
  tagSellItems_exact (by decide) sampleInventory_fresh (fun _ _ => ⟨[], rfl, rfl⟩) .english ""

end Sample

end EndstoneExchange.InventoryEscrow
