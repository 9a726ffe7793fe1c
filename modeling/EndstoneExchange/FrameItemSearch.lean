import EndstoneExchange.StructureNbt

/-!
# The item of a captured frame

The item is searched for in the tags of a saved structure, outer compounds before those
nested in them. A compound whose item is incomplete does not end the search.
-/
namespace EndstoneExchange.FrameItemSearch
open NbtCodec StructureNbt

section Search

def nameKey : Bytes := "Name".toUTF8.toList
def itemKey : Bytes := "Item".toUTF8.toList
def countKey : Bytes := "Count".toUTF8.toList
def damageKey : Bytes := "Damage".toUTF8.toList
def tagKey : Bytes := "tag".toUTF8.toList
def air : Bytes := "minecraft:air".toUTF8.toList

structure CapturedFrameItem where
  type : Bytes
  data : ℤ
  nbt : Entries

def numeric : Tag → Option ℤ
  | .byte value => some value.toNat
  | .short value => some value.toInt
  | .int value => some value.toInt
  | .long value => some value.toInt
  | _ => none

/-- The number under a key; anything else counts as zero. -/
def numberAt (compound : Entries) (key : Bytes) : ℤ :=
  match compound.lookup key with
  | some tag => (numeric tag).getD 0
  | none => 0

/-- `static_cast<int>` of 64 bits. -/
def toInt32 (n : ℤ) : ℤ := n.bmod (2 ^ 32)

/-- The `tag` child, empty unless it is a compound. -/
def nbtOf (item : Entries) : Entries :=
  match item.lookup tagKey with
  | some (.compound nbt) => nbt
  | _ => []

def itemFromCompound (compound : Entries) : Option CapturedFrameItem :=
  match compound.lookup itemKey with
  | some (.compound item) =>
    match item.lookup nameKey with
    | some (.string type) =>
      if numberAt item countKey ≤ 0 ∨ type = [] ∨ type = air then none
      else some { type, data := toInt32 (numberAt item damageKey), nbt := nbtOf item }
    | _ => none
  | _ => none

def tooDeep : CodecError := .runtime "mcstructure NBT nesting is too deep"

mutual

def findItem (depth : ℕ) (tag : Tag) : Except CodecError (Option CapturedFrameItem) :=
  if depth > 32 then throw tooDeep
  else
    match tag with
    | .compound compound =>
      match itemFromCompound compound with
      | some direct => return some direct
      | none => findEntries (depth + 1) compound
    | .list items => findItems (depth + 1) items
    | _ => return none

def findEntries (depth : ℕ) : List (Bytes × Tag) → Except CodecError (Option CapturedFrameItem)
  | [] => return none
  | entry :: entries => do
    match ← findItem depth entry.2 with
    | some nested => return some nested
    | none => findEntries depth entries

def findItems (depth : ℕ) : List Tag → Except CodecError (Option CapturedFrameItem)
  | [] => return none
  | item :: items => do
    match ← findItem depth item with
    | some nested => return some nested
    | none => findItems depth items

end

mutual

/-- The search only fails on what is nested too deep. -/
theorem findItem_error {d : ℕ} (tag : Tag) {e : CodecError} (h : findItem d tag = .error e) : e = tooDeep := by
  rw [findItem.eq_def] at h
  split at h
  · exact (Except.error.inj h).symm
  · cases tag with
    | compound compound =>
      simp only at h
      split at h
      · cases h
      · exact findEntries_error compound h
    | list items => exact findItems_error items h
    | _ => cases h

theorem findEntries_error {d : ℕ} (entries : List (Bytes × Tag)) {e : CodecError}
    (h : findEntries d entries = .error e) : e = tooDeep := by
  cases entries with
  | nil => cases h
  | cons entry entries =>
    rw [findEntries] at h
    cases hitem : findItem d entry.2 with
    | error e' =>
      rw [hitem] at h
      exact Except.error.inj h ▸ findItem_error entry.2 hitem
    | ok found =>
      rw [hitem] at h
      cases found with
      | some nested => cases h
      | none => exact findEntries_error entries h

theorem findItems_error {d : ℕ} (items : List Tag) {e : CodecError}
    (h : findItems d items = .error e) : e = tooDeep := by
  cases items with
  | nil => cases h
  | cons item items =>
    rw [findItems] at h
    cases hitem : findItem d item with
    | error e' =>
      rw [hitem] at h
      exact Except.error.inj h ▸ findItem_error item hitem
    | ok found =>
      rw [hitem] at h
      cases found with
      | some nested => cases h
      | none => exact findItems_error items h

end

end Search

section Preorder

mutual

/-- The compounds of a tag, outer ones first. -/
def compounds : Tag → List Entries
  | .compound compound => compound :: compoundsOfEntries compound
  | .list items => compoundsOfItems items
  | _ => []

def compoundsOfEntries : List (Bytes × Tag) → List Entries
  | [] => []
  | entry :: entries => compounds entry.2 ++ compoundsOfEntries entries

def compoundsOfItems : List Tag → List Entries
  | [] => []
  | item :: items => compounds item ++ compoundsOfItems items

end

mutual

/-- How many tags a tag is nested in at most. -/
def depth : Tag → ℕ
  | .compound compound => depthOfEntries compound
  | .list items => depthOfItems items
  | _ => 0

def depthOfEntries : List (Bytes × Tag) → ℕ
  | [] => 0
  | entry :: entries => max (depth entry.2 + 1) (depthOfEntries entries)

def depthOfItems : List Tag → ℕ
  | [] => 0
  | item :: items => max (depth item + 1) (depthOfItems items)

end

mutual

/-- The search takes the first compound in pre-order that holds an item. -/
theorem findItem_eq (d : ℕ) (tag : Tag) (h : d + depth tag ≤ 32) :
    findItem d tag = .ok ((compounds tag).findSome? itemFromCompound) := by
  have hd : ¬ d > 32 := by omega
  cases tag with
  | compound compound =>
    rw [findItem.eq_def, if_neg hd, compounds, List.findSome?_cons]
    cases hdirect : itemFromCompound compound with
    | some direct => simp only [hdirect]; rfl
    | none => simp only [hdirect]; exact findEntries_eq d compound h
  | list items =>
    rw [findItem.eq_def, if_neg hd]
    exact findItems_eq d items h
  | _ =>
    rw [findItem.eq_def, if_neg hd]
    rfl

theorem findEntries_eq (d : ℕ) (entries : List (Bytes × Tag)) (h : d + depthOfEntries entries ≤ 32) :
    findEntries (d + 1) entries = .ok ((compoundsOfEntries entries).findSome? itemFromCompound) := by
  cases entries with
  | nil => rfl
  | cons entry entries =>
    rw [depthOfEntries] at h
    rw [findEntries, findItem_eq (d + 1) entry.2 (by omega), compoundsOfEntries, List.findSome?_append]
    cases (compounds entry.2).findSome? itemFromCompound with
    | some nested => rfl
    | none => exact findEntries_eq d entries (by omega)

theorem findItems_eq (d : ℕ) (items : List Tag) (h : d + depthOfItems items ≤ 32) :
    findItems (d + 1) items = .ok ((compoundsOfItems items).findSome? itemFromCompound) := by
  cases items with
  | nil => rfl
  | cons item items =>
    rw [depthOfItems] at h
    rw [findItems, findItem_eq (d + 1) item (by omega), compoundsOfItems, List.findSome?_append]
    cases (compounds item).findSome? itemFromCompound with
    | some nested => rfl
    | none => exact findItems_eq d items (by omega)

end

end Preorder

section Depth

mutual

/-- The depth of the tree that is read, where the longs of a long array are nested in it. -/
def nestingDepth : Nbt → ℕ
  | .compound entries => nestingOfEntries entries
  | .list _ items => nestingOfItems items
  | .longArray value => if value = [] then 0 else 1
  | _ => 0

def nestingOfEntries : List (Bytes × Nbt) → ℕ
  | [] => 0
  | entry :: entries => max (nestingDepth entry.2 + 1) (nestingOfEntries entries)

def nestingOfItems : List Nbt → ℕ
  | [] => 0
  | item :: items => max (nestingDepth item + 1) (nestingOfItems items)

end

private theorem depthOfEntries_perm {entries entries' : Entries} (h : entries.Perm entries') :
    depthOfEntries entries = depthOfEntries entries' := by
  induction h with
  | nil => rfl
  | cons entry _ ih => rw [depthOfEntries, depthOfEntries, ih]
  | swap entry entry' entries => simp only [depthOfEntries, max_left_comm]
  | trans _ _ ih ih' => exact ih.trans ih'

private theorem depthOfItems_longs (value : List Int64) :
    depthOfItems (value.map .long) = if value = [] then 0 else 1 := by
  induction value with
  | nil => rfl
  | cons item value ih =>
    have hleaf : depth (.long item) = 0 := rfl
    rw [List.map_cons, depthOfItems, ih, hleaf, if_neg (List.cons_ne_nil _ _)]
    split_ifs <;> rfl

mutual

theorem depth_toTag (tag : Nbt) : depth tag.toTag = nestingDepth tag := by
  cases tag with
  | compound entries =>
    have hsort : (byKey (entryTags entries)).Perm (entryTags entries) := List.mergeSort_perm _ _
    rw [Nbt.toTag, depth, nestingDepth, depthOfEntries_perm hsort]
    exact depthOfEntries_entryTags entries
  | list _ items => exact depthOfItems_itemTags items
  | longArray value => exact depthOfItems_longs value
  | _ => rfl

theorem depthOfEntries_entryTags (entries : List (Bytes × Nbt)) :
    depthOfEntries (entryTags entries) = nestingOfEntries entries := by
  cases entries with
  | nil => rfl
  | cons entry entries =>
    rw [entryTags, depthOfEntries, nestingOfEntries, depth_toTag entry.2, depthOfEntries_entryTags entries]

theorem depthOfItems_itemTags (items : List Nbt) : depthOfItems (itemTags items) = nestingOfItems items := by
  cases items with
  | nil => rfl
  | cons item items =>
    rw [itemTags, depthOfItems, nestingOfItems, depth_toTag item, depthOfItems_itemTags items]

end

end Depth

section Capture
variable {compound item : Entries} {captured : CapturedFrameItem} {key : Bytes}

def IntegerAt (compound : Entries) (key : Bytes) (n : ℤ) : Prop :=
  ∃ tag, compound.lookup key = some tag ∧ numeric tag = some n

/-- A complete item: its name, its count and what goes with them. -/
structure Describes (item : Entries) (captured : CapturedFrameItem) : Prop where
  name : item.lookup nameKey = some (.string captured.type)
  nonempty : captured.type ≠ []
  not_air : captured.type ≠ air
  count : ∃ n, IntegerAt item countKey n ∧ 0 < n
  damage : (∃ n, IntegerAt item damageKey n ∧ captured.data = toInt32 n) ∨
    (∀ n, ¬ IntegerAt item damageKey n) ∧ captured.data = 0
  nbt : item.lookup tagKey = some (.compound captured.nbt) ∨
    (∀ nbt, item.lookup tagKey ≠ some (.compound nbt)) ∧ captured.nbt = []

/-- A compound whose `Item` child is a complete item. -/
def Holds (compound : Entries) (captured : CapturedFrameItem) : Prop :=
  ∃ item, compound.lookup itemKey = some (.compound item) ∧ Describes item captured

theorem numberAt_eq {n : ℤ} (h : IntegerAt compound key n) : numberAt compound key = n := by
  obtain ⟨tag, htag, hn⟩ := h
  rw [numberAt, htag]
  simp [hn]

private theorem numberAt_zero (h : ∀ n, ¬ IntegerAt compound key n) : numberAt compound key = 0 := by
  rw [numberAt]
  cases htag : compound.lookup key with
  | none => rfl
  | some tag =>
    cases hn : numeric tag with
    | none => simp [hn]
    | some n => exact absurd ⟨tag, htag, hn⟩ (h n)

theorem numberAt_cases (compound : Entries) (key : Bytes) :
    (∃ n, IntegerAt compound key n ∧ numberAt compound key = n) ∨
      (∀ n, ¬ IntegerAt compound key n) ∧ numberAt compound key = 0 := by
  by_cases h : ∃ n, IntegerAt compound key n
  · obtain ⟨n, hn⟩ := h
    exact .inl ⟨n, hn, numberAt_eq hn⟩
  · have hnone : ∀ n, ¬ IntegerAt compound key n := fun n hn => h ⟨n, hn⟩
    exact .inr ⟨hnone, numberAt_zero hnone⟩

theorem numberAt_pos : 0 < numberAt item key ↔ ∃ n, IntegerAt item key n ∧ 0 < n := by
  constructor
  · intro hpos
    obtain ⟨n, hn, heq⟩ | ⟨-, heq⟩ := numberAt_cases item key
    · exact ⟨n, hn, heq ▸ hpos⟩
    · exact absurd heq hpos.ne'
  · rintro ⟨n, hn, hpos⟩
    rwa [numberAt_eq hn]

theorem damage_eq_iff {data : ℤ} : data = toInt32 (numberAt item damageKey) ↔
    (∃ n, IntegerAt item damageKey n ∧ data = toInt32 n) ∨
      (∀ n, ¬ IntegerAt item damageKey n) ∧ data = 0 := by
  obtain ⟨n, hn, heq⟩ | ⟨hnone, heq⟩ := numberAt_cases item damageKey
  · rw [heq]
    constructor
    · exact fun hdata => .inl ⟨n, hn, hdata⟩
    · rintro (⟨n', hn', rfl⟩ | ⟨hnone, -⟩)
      · rw [← heq, numberAt_eq hn']
      · exact absurd hn (hnone n)
  · have hzero : toInt32 0 = 0 := rfl
    rw [heq, hzero]
    constructor
    · exact fun hdata => .inr ⟨hnone, hdata⟩
    · rintro (⟨n, hn, -⟩ | ⟨-, hdata⟩)
      · exact absurd hn (hnone n)
      · exact hdata

theorem nbt_eq_iff {nbt : Entries} : nbt = nbtOf item ↔ item.lookup tagKey = some (.compound nbt) ∨
    (∀ nbt', item.lookup tagKey ≠ some (.compound nbt')) ∧ nbt = [] := by
  by_cases h : ∃ nbt', item.lookup tagKey = some (.compound nbt')
  · obtain ⟨nbt', hnbt⟩ := h
    have heq : nbtOf item = nbt' := by rw [nbtOf, hnbt]
    rw [heq, hnbt]
    constructor
    · rintro rfl
      exact .inl rfl
    · rintro (hsame | ⟨hnone, -⟩)
      · injection hsame with hsame
        injection hsame with hsame
        exact hsame.symm
      · exact absurd rfl (hnone nbt')
  · have hnone : ∀ nbt', item.lookup tagKey ≠ some (.compound nbt') := fun nbt' hnbt => h ⟨nbt', hnbt⟩
    have heq : nbtOf item = [] := by
      rw [nbtOf]
      split
      · exact absurd ‹_› (hnone _)
      · rfl
    rw [heq]
    constructor
    · exact fun hnbt => .inr ⟨hnone, hnbt⟩
    · rintro (hnbt | ⟨-, hnbt⟩)
      · exact absurd hnbt (hnone nbt)
      · exact hnbt

theorem itemFromCompound_eq {type : Bytes} (hitem : compound.lookup itemKey = some (.compound item))
    (hname : item.lookup nameKey = some (.string type)) : itemFromCompound compound =
      if numberAt item countKey ≤ 0 ∨ type = [] ∨ type = air then none
      else some { type, data := toInt32 (numberAt item damageKey), nbt := nbtOf item } := by
  rw [itemFromCompound, hitem]
  dsimp only
  rw [hname]

theorem Describes.accepted (hitem : compound.lookup itemKey = some (.compound item))
    (h : Describes item captured) : itemFromCompound compound = some captured := by
  have hcount : ¬ numberAt item countKey ≤ 0 := not_le.mpr (numberAt_pos.mpr h.count)
  have hdamage := damage_eq_iff.mpr h.damage
  have hnbt := nbt_eq_iff.mpr h.nbt
  rw [itemFromCompound_eq hitem h.name, if_neg (not_or.mpr ⟨hcount, not_or.mpr ⟨h.nonempty, h.not_air⟩⟩),
    ← hdamage, ← hnbt]

private theorem describes_of_accepted {type : Bytes} (hitem : compound.lookup itemKey = some (.compound item))
    (hname : item.lookup nameKey = some (.string type)) (h : itemFromCompound compound = some captured) :
    Describes item captured := by
  rw [itemFromCompound_eq hitem hname] at h
  split at h
  · cases h
  · cases h
    rename_i hok
    obtain ⟨hcount, hnonempty, hair⟩ := not_or.mp hok |>.imp_right not_or.mp
    exact
      { name := hname
        nonempty := hnonempty
        not_air := hair
        count := numberAt_pos.mp (not_le.mp hcount)
        damage := damage_eq_iff.mp rfl
        nbt := nbt_eq_iff.mp rfl }

/-- Exactly the complete items are accepted. -/
theorem itemFromCompound_eq_some : itemFromCompound compound = some captured ↔ Holds compound captured := by
  constructor
  · intro h
    have hshape := h
    rw [itemFromCompound] at hshape
    split at hshape
    · split at hshape
      · exact ⟨_, ‹_›, describes_of_accepted ‹_› ‹_› h⟩
      · cases hshape
    · cases hshape
  · rintro ⟨item, hitem, h⟩
    exact h.accepted hitem

/-- The item of the first compound in pre-order that holds one, or nothing if none does. -/
structure FindsFirst (tag : Tag) (found : Option CapturedFrameItem) : Prop where
  first : ∀ captured, found = some captured ↔ ∃ before compound after,
    compounds tag = before ++ compound :: after ∧ Holds compound captured ∧
      ∀ earlier ∈ before, ∀ c, ¬ Holds earlier c
  nothing : found = none ↔ ∀ compound ∈ compounds tag, ∀ c, ¬ Holds compound c

theorem not_holds_iff : (∀ c, ¬ Holds compound c) ↔ itemFromCompound compound = none := by
  simp only [← itemFromCompound_eq_some, Option.eq_none_iff_forall_ne_some, ne_eq]

private theorem findSome_findsFirst (tag : Tag) : FindsFirst tag ((compounds tag).findSome? itemFromCompound) where
  first captured := by simp only [List.findSome?_eq_some_iff, itemFromCompound_eq_some, not_holds_iff]
  nothing := by simp only [List.findSome?_eq_none_iff, not_holds_iff]

/-- A structure is read as it was written, and the search finds the item it holds. -/
theorem captured_item_found {name : Bytes} {entries : List (Bytes × Nbt)} (hname : name.length ≤ 65535)
    (h : (Nbt.compound entries).WellFormed) :
    ∃ read, BedrockNbtReader.root (writeRoot name entries) = .ok read ∧
      Tag.compound read = (Nbt.compound entries).toTag ∧
      (nestingDepth (.compound entries) ≤ 32 → ∃ found, findItem 0 (.compound read) = .ok found ∧
        FindsFirst (.compound read) found) := by
  have hread := root_written hname h []
  rw [List.append_nil] at hread
  refine ⟨_, hread, rfl, fun hdepth => ⟨_, findItem_eq 0 _ ?_, findSome_findsFirst _⟩⟩
  rw [zero_add]
  exact (depth_toTag (.compound entries)).trans_le hdepth

/-- A framed item in the block entity data of a saved structure. -/
def frameStructure : List (Bytes × Nbt) :=
  [("structure".toUTF8.toList, .compound [("block_position_data".toUTF8.toList, .compound
    [("0".toUTF8.toList, .compound [("block_entity_data".toUTF8.toList, .compound
      [(itemKey, .compound
        [(countKey, .byte 1), (damageKey, .short 0), (nameKey, .string "minecraft:diamond".toUTF8.toList),
          (tagKey, .compound [("custom".toUTF8.toList, .string "preserved".toUTF8.toList)])])])])])])]

theorem captured_item_found_frame : ∃ read found,
    BedrockNbtReader.root (writeRoot [] frameStructure) = .ok read ∧
      findItem 0 (.compound read) = .ok found ∧ FindsFirst (.compound read) found := by
  have hwell : (Nbt.compound frameStructure).WellFormed := by
    simp only [frameStructure, Nbt.WellFormed, EntriesWellFormed, Nbt.type]
    decide +kernel
  obtain ⟨read, hread, -, hfound⟩ := @captured_item_found [] frameStructure (by decide) hwell
  obtain ⟨found, hfind, hfirst⟩ := hfound (by decide)
  exact ⟨read, found, hread, hfind, hfirst⟩

end Capture

end EndstoneExchange.FrameItemSearch
