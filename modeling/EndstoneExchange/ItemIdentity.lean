import EndstoneExchange.DelimitedText
import EndstoneExchange.NbtRoundTrip
import EndstoneExchange.MarketGenerations

/-!
# One identity of items

Order books compare a fingerprint, the service compares stored prototypes byte by
byte and inventories compare decoded NBT. All three tell the same items apart.
-/
namespace EndstoneExchange.ItemIdentity
open AutoIncrementTables KeyedTables AtomicTransactions.Transaction DurablePrograms ExchangeDomain
  ExchangeTransactions MarketOperations ClearingRefinement RowHistories ServiceRuns DeliveryOrigins MarketLifecycle
  MarketGenerations NbtCodec NbtRoundTrip DelimitedText Relation

section Tags

mutual

/-- Structural comparison; floating values by their bits. -/
def Tag.same : Tag → Tag → Bool
  | .empty, .empty => true
  | .byte a, .byte b => a == b
  | .short a, .short b => a == b
  | .int a, .int b => a == b
  | .long a, .long b => a == b
  | .float a, .float b => a == b
  | .double a, .double b => a == b
  | .string a, .string b => a == b
  | .byteArray a, .byteArray b => a == b
  | .intArray a, .intArray b => a == b
  | .list a, .list b => sameItems a b
  | .compound a, .compound b => sameEntries a b
  | _, _ => false

def sameItems : List Tag → List Tag → Bool
  | [], [] => true
  | a :: as, b :: bs => Tag.same a b && sameItems as bs
  | _, _ => false

def sameEntries : List (Bytes × Tag) → List (Bytes × Tag) → Bool
  | [], [] => true
  | a :: as, b :: bs => (a.1 == b.1 && Tag.same a.2 b.2) && sameEntries as bs
  | _, _ => false

end

mutual

theorem Tag.same_iff (a b : Tag) : Tag.same a b = true ↔ a = b := by
  cases a with
  | list as =>
    cases b with
    | list bs => rw [Tag.same, sameItems_iff as bs, Tag.list.injEq]
    | _ => simp [Tag.same]
  | compound as =>
    cases b with
    | compound bs => rw [Tag.same, sameEntries_iff as bs, Tag.compound.injEq]
    | _ => simp [Tag.same]
  | _ => cases b <;> simp [Tag.same]

theorem sameItems_iff (as bs : List Tag) : sameItems as bs = true ↔ as = bs := by
  cases as with
  | nil => cases bs <;> simp [sameItems]
  | cons a as =>
    cases bs with
    | nil => simp [sameItems]
    | cons b bs =>
      rw [sameItems, Bool.and_eq_true, Tag.same_iff a b, sameItems_iff as bs, List.cons.injEq]

theorem sameEntries_iff (as bs : List (Bytes × Tag)) : sameEntries as bs = true ↔ as = bs := by
  cases as with
  | nil => cases bs <;> simp [sameEntries]
  | cons a as =>
    cases bs with
    | nil => simp [sameEntries]
    | cons b bs =>
      obtain ⟨key, a⟩ := a
      rw [sameEntries, Bool.and_eq_true, Bool.and_eq_true, Tag.same_iff a b.2, sameEntries_iff as bs,
        List.cons.injEq, Prod.ext_iff, beq_iff_eq]

end

end Tags

section Comparisons

def sameItem (left right : ItemPrototype) : Bool :=
  left.type == right.type && left.data == right.data && left.nbt == right.nbt

theorem sameItem_iff {p q : ItemPrototype} : sameItem p q = true ↔ SameItem p q := by
  simp only [sameItem, Bool.and_eq_true, beq_iff_eq, and_assoc, SameItem]

/-- The compound a prototype stands for. -/
def expectedNbt (types : TypeCodes) (prototype : ItemPrototype) : Except CodecError Entries :=
  if prototype.nbt = [] then return [] else decode types prototype.nbt

private theorem expectedNbt_eq (types : TypeCodes) (prototype : ItemPrototype) :
    expectedNbt types prototype = decode types prototype.nbt := by
  rw [expectedNbt]
  split_ifs with h
  · rw [decode, if_pos h]
  · rfl

def matchesItemIdentity (types : TypeCodes) (prototype : ItemPrototype) (itemType : String) (itemData : ℤ)
    (itemNbt : Entries) : Except CodecError Bool := do
  let expected ← expectedNbt types prototype
  return itemType == prototype.type && itemData == prototype.data && sameEntries itemNbt expected

/-- Decoded and stored NBT tell the same items apart. -/
theorem matches_iff_same {types : TypeCodes} {p q : ItemPrototype} {t u : CompoundTag}
    (ht : t.Within) (hu : u.Within) (hp : encode types t = .ok p.nbt) (hq : encode types u = .ok q.nbt) :
    ∃ entries, decode types q.nbt = .ok entries ∧
      matchesItemIdentity types p q.type q.data entries = .ok (sameItem p q) := by
  obtain ⟨bytes, hbytes, hdecode, -, -, -⟩ := nbt_round_trip types t ht
  obtain rfl : bytes = p.nbt := Except.ok.inj (hbytes.symm.trans hp)
  obtain ⟨bytes', hbytes', hdecode', -, -, -⟩ := nbt_round_trip types u hu
  obtain rfl : bytes' = q.nbt := Except.ok.inj (hbytes'.symm.trans hq)
  refine ⟨u.entries, hdecode', ?_⟩
  have hnbt : u.entries = t.entries ↔ p.nbt = q.nbt := by
    refine ⟨fun he => ?_, fun he => ?_⟩
    · obtain rfl : u = t := CompoundTag.ext he
      exact Except.ok.inj (hp.symm.trans hq)
    · rw [he] at hdecode
      exact Except.ok.inj (hdecode'.symm.trans hdecode)
  have hsame : (q.type == p.type && q.data == p.data && sameEntries u.entries t.entries) = sameItem p q := by
    rw [Bool.eq_iff_iff, sameItem_iff]
    simp only [Bool.and_eq_true, beq_iff_eq, sameEntries_iff, hnbt, SameItem, and_assoc]
    rw [eq_comm, @eq_comm _ q.data]
  rw [matchesItemIdentity, expectedNbt_eq, hdecode, ← hsame]
  rfl

end Comparisons

section Fingerprints

/-- `CONCAT(CHAR_LENGTH(type),':',type,':',data,':',OCTET_LENGTH(nbt),':',nbt)`. -/
def preimage (item : ItemPrototype) : List UInt8 :=
  (toString item.type.length ++ ":" ++ item.type ++ ":" ++ toString item.data ++ ":" ++
    toString item.nbt.length ++ ":").toUTF8.toList ++ item.nbt

theorem itemHash_eq (settings : Settings) (item : ItemPrototype) :
    itemHash settings item = settings.sha2 (preimage item) := rfl

theorem preimage_eq (item : ItemPrototype) : preimage item =
    utf8 ((toString item.type.length).toList ++ [':']) ++ (utf8 item.type.toList ++ (utf8 [':'] ++
      (utf8 ((toString item.data).toList ++ [':']) ++
        (utf8 ((toString item.nbt.length).toList ++ [':']) ++ item.nbt)))) := by
  rw [preimage, toUTF8_toList]
  simp only [String.toList_append, utf8_append, List.append_assoc]
  rfl

/-- The character count frames the type, and neither number contains a colon. -/
theorem preimage_injective {p q : ItemPrototype} (h : preimage p = preimage q) : SameItem p q := by
  have hdigits : ∀ n : ℕ, ':' ∉ (toString n).toList := by
    intro n
    rw [toString_nat]
    exact not_mem_toDigits (by decide) n
  have hnumber : ∀ z : ℤ, ':' ∉ (toString z).toList := not_mem_toString_int (by decide) (by decide)
  rw [preimage_eq, preimage_eq] at h
  obtain ⟨hcount, htype⟩ := utf8_delimited (hdigits _) (hdigits _) h
  have hlength : p.type.toList.length = q.type.toList.length := by
    rw [toString_nat, toString_nat] at hcount
    rw [String.length_toList, String.length_toList]
    exact toDigits_inj hcount
  obtain ⟨hsame, hrest⟩ := utf8_counted hlength htype
  obtain ⟨hdata, hsize⟩ := utf8_delimited (hnumber _) (hnumber _) (List.append_cancel_left hrest)
  obtain ⟨-, hnbt⟩ := utf8_delimited (hdigits _) (hdigits _) hsize
  exact ⟨String.toList_injective hsame, toString_int_inj hdata, hnbt⟩

end Fingerprints

section Books
variable {settings : Settings} {db db' : Db} {id bookId : Id} {market : Market} {item : ItemPrototype}

def collision : Error := .runtime "item order-book fingerprint collision"

/-- The book is over the item. -/
def Covers (b : BookRow) (item : ItemPrototype) : Prop :=
  b.itemType = item.type ∧ b.itemData = item.data ∧ b.itemNbt = item.nbt

theorem Covers.same {b : BookRow} {p q : ItemPrototype} (hp : Covers b p) (hq : Covers b q) : SameItem p q :=
  ⟨hp.1.symm.trans hq.1, hp.2.1.symm.trans hq.2.1, hp.2.2.symm.trans hq.2.2⟩

/-- Books over one item are one book. -/
theorem catalogued_covers {books : Table BookRow} (hI : Catalogued settings books) {i j : Id} {b c : BookRow}
    {p q : ItemPrototype} (hb : books.get? i = some b) (hc : books.get? j = some c) (hbp : Covers b p)
    (hcq : Covers c q) (hs : SameItem p q) : i = j := by
  obtain ⟨ht, hd, hn⟩ := hs
  refine hI.unique i j b c hb hc ?_
  rw [hI.hash i b hb, hI.hash j c hc]
  simp only [itemHash, hbp.1, hbp.2.1, hbp.2.2, hcq.1, hcq.2.1, hcq.2.2, ht, hd, hn]

/-- The row that an upsert names is over the item. -/
theorem upsertBook_covers (hsha : Function.Injective settings.sha2) (hI : Catalogued settings db.books)
    (h : upsertBook settings item db = .ok (bookId, db')) :
    ∃ b, db'.books.get? bookId = some b ∧ Covers b item := by
  simp only [upsertBook, bind_ok, select_ok, exists_eq_left'] at h
  cases hf : findBook db (itemHash settings item) with
  | some i =>
    simp only [hf, pure_ok] at h
    obtain ⟨rfl, rfl⟩ := Prod.mk.inj h
    obtain ⟨b, hb, hhash⟩ := findBook_some hf
    rw [hI.hash _ b hb, itemHash_eq, itemHash_eq] at hhash
    exact ⟨b, hb, preimage_injective (hsha hhash)⟩
  | none =>
    simp only [hf, bind_ok, select_ok, execute_ok, pure_ok, exists_eq_left'] at h
    obtain ⟨rfl, rfl⟩ := Prod.mk.inj h
    exact ⟨_, Table.get?_insert_self _ _, rfl, rfl, rfl⟩

private theorem upsertBook_raises : RaisesOnly (· ≠ collision) (upsertBook settings item) db := by
  refine .bind .select fun existing _ _ => ?_
  cases existing with
  | some i => exact .pure
  | none => exact .bind .select fun _ _ _ => .bind .execute fun _ _ _ => .pure

theorem bindTarget_raises {targetKey : String} : RaisesOnly (· ≠ collision) (bindTarget targetKey id) db :=
  .bind .select fun _ _ _ => .bind (.throwIf fun _ => by decide) fun _ _ _ => .execute

private theorem activateMarketTx_raises (hsha : Function.Injective settings.sha2)
    (hI : Catalogued settings db.books) :
    RaisesOnly (· ≠ collision) (activateMarketTx settings market) db := by
  refine .bind .select fun _ db₁ hselect => .bind (.throwIf fun _ => by decide) fun _ db₂ hfree => ?_
  obtain ⟨-, rfl⟩ := Prod.mk.inj (select_ok.mp hselect)
  obtain ⟨-, rfl⟩ := Prod.mk.inj (throwIf_ok.mp hfree).2
  refine .bind upsertBook_raises fun bookId db₃ hbook => ?_
  obtain ⟨b, hb, hcovers⟩ := upsertBook_covers hsha hI hbook
  refine .bind (fun e he => ?_) fun book db₄ hselect => ?_
  · rw [(selectOne_error.mp he).1] at hb
    cases hb
  obtain ⟨book', hbook', hp⟩ := selectOne_ok.mp hselect
  obtain ⟨rfl, rfl⟩ := Prod.mk.inj hp
  obtain rfl : book' = b := Option.some.inj (hbook'.symm.trans hb)
  refine .bind (.throwIf fun hne => ?_) fun _ _ _ => .bind .select fun resumable _ _ => ?_
  · simp [hcovers.1, hcovers.2.1, hcovers.2.2] at hne
  cases resumable with
  | some i => exact .bind .execute fun _ _ _ => .bind bindTarget_raises fun _ _ _ => .pure
  | none =>
    exact .bind .select fun _ _ _ => .bind .execute fun _ _ _ => .bind bindTarget_raises fun _ _ _ => .pure

/-- The market in the row of a book over the item. -/
def Activated (item : ItemPrototype) (db : Db) (id : Id) : Prop :=
  ∃ m b, db.markets.get? id = some m ∧ db.books.get? m.bookId = some b ∧ Covers b item

private theorem activateMarketTx_activated {r : Id × Bool} (h : activateMarketTx settings market db = .ok (r, db')) :
    Activated market.item db' r.1 := by
  simp only [activateMarketTx, bind_ok, select_ok, selectOne_ok, throwIf_ok, exists_eq_left',
    exists_and_left, exists_exists_and_eq_and, and_assoc, not_or, not_not] at h
  obtain ⟨-, ⟨bookId, db₁⟩, -, book, hbook, ht, hd, hn, hrest⟩ := h
  cases hres : resumableMarket db₁ market bookId with
  | some i =>
    simp only [hres, switchMarket, bind_ok, execute_ok, pure_ok, exists_eq_left'] at hrest
    obtain ⟨⟨u, db₂⟩, hbind, hr⟩ := hrest
    obtain ⟨rfl, rfl⟩ := Prod.mk.inj hr
    rw [bindTarget_ok hbind]
    obtain ⟨⟨j, m⟩, hlast, rfl⟩ := Option.map_eq_some_iff.mp hres
    have hmem := List.mem_of_getLast? hlast
    simp only [List.mem_filter, decide_eq_true_eq] at hmem
    obtain ⟨hentry, -, -, -, -, rfl⟩ := hmem
    have hm := Table.mem_entries.mp hentry
    refine ⟨{ m with active := true, reopenable := false }, book, ?_, hbook, ht, hd, hn⟩
    rw [Db.setBindings_markets, Db.setMarket_markets, Table.get?_update_self, hm, Option.map_some]
  | none =>
    simp only [hres, bind_ok, select_ok, execute_ok, pure_ok, exists_eq_left'] at hrest
    obtain ⟨⟨u, db₂⟩, hbind, hr⟩ := hrest
    obtain ⟨rfl, rfl⟩ := Prod.mk.inj hr
    rw [bindTarget_ok hbind]
    exact ⟨_, book, Table.get?_insert_self _ _, hbook, ht, hd, hn⟩

/-- A market that activation returns is the row it activated. -/
theorem activateMarket_activated : Triple (fun _ => True) (activateMarket settings market)
    (fun a db => ∃ id m, db.markets.get? id = some m ∧ a = marketFromRow id m ∧
      Activated market.item db id) (fun _ _ => True) fun _ => True := by
  refine .guard (fun _ _ _ => trivial) fun _ => .bind (R := fun r db => Activated market.item db r.1) ?_ ?_
  · exact .atomic (fun _ _ => trivial) (fun _ _ => trivial)
      (fun db r db' _ h => ⟨activateMarketTx_activated h, trivial⟩) fun _ _ _ _ => trivial
  · rintro ⟨id, resumed⟩
    refine .bind (R := fun found db => Activated market.item db id ∧
      found = (db.markets.get? id).map (marketFromRow id)) ?_ fun found => ?_
    · refine .atomic (fun _ _ => trivial) (fun _ _ => trivial) (fun db found db' hact h => ?_)
        fun _ _ _ _ => trivial
      obtain ⟨rfl, rfl⟩ := Prod.mk.inj (select_ok.mp h)
      exact ⟨⟨hact, rfl⟩, trivial⟩
    · cases found with
      | none => exact .throw fun _ _ => trivial
      | some a =>
        refine .pure fun db h => ?_
        obtain ⟨m, hm, ha⟩ := Option.map_eq_some_iff.mp h.2.symm
        exact ⟨id, m, hm, ha.symm, h.1⟩

private theorem activateMarket_never_collides (hsha : Function.Injective settings.sha2) :
    Triple (fun db => Catalogued settings db.books) (activateMarket settings market) (fun _ _ => True)
      (fun e _ => e ≠ collision) fun _ => True := by
  refine .guard (fun _ _ _ => by decide) fun _ => .bind (R := fun _ _ => True) ?_ fun ⟨id, resumed⟩ => ?_
  · exact .atomic (fun _ _ => trivial) (fun _ _ => by decide) (fun _ _ _ _ _ => ⟨trivial, by decide⟩)
      fun db e hI he => activateMarketTx_raises hsha hI e he
  · refine .bind (R := fun _ _ => True) ?_ fun found => ?_
    · exact .atomic (fun _ _ => trivial) (fun _ _ => by decide) (fun _ _ _ _ _ => ⟨trivial, by decide⟩)
        fun db e _ he => (select_error.mp he).elim
    · cases found with
      | none => exact .throw fun _ _ => by cases resumed <;> decide
      | some a => exact .pure fun _ _ => trivial

end Books

section Identity
variable {settings : Settings} {types : TypeCodes} {p q : ItemPrototype}

/-- Two calls, anything between them, share a book when they are over one item. -/
theorem activateMarket_book {db db₁ db₂ db₃ : Db} {m n a b : Market} {fs fs' gs gs' : List Fault}
    (hr : Reachable settings db) (ha : activateMarket settings m fs db = (.returned a, gs, db₁))
    (hlater : Later settings db₁ db₂)
    (hb : activateMarket settings n fs' db₂ = (.returned b, gs', db₃)) :
    a.bookId = b.bookId ↔ SameItem m.item n.item := by
  have hcall : ∀ {market : Market} {faults rest : List Fault} {db db' : Db} {a : Market},
      activateMarket settings market faults db = (.returned a, rest, db') → Later settings db db' := by
    intro market faults rest db db' a h
    refine .single ⟨.activateMarket market, faults, ?_⟩
    have hrun : (Call.activateMarket market).run settings faults db = (.returned ⟨⟩, rest, db') :=
      Program.bind_returned h
    rw [Call.leaves, hrun]
  have hr₁ := (hcall ha).reachable hr
  have hafter : Later settings db₁ db₃ := hlater.trans (hcall hb)
  have hr₃ := hafter.reachable hr₁
  obtain ⟨i, mrow, hm, rfl, hactm⟩ : ∃ id row, db₁.markets.get? id = some row ∧ a = marketFromRow id row ∧
      Activated m.item db₁ id := by
    have h := @activateMarket_activated settings m fs db trivial
    rwa [ha] at h
  obtain ⟨j, nrow, hn, rfl, hactn⟩ : ∃ id row, db₃.markets.get? id = some row ∧ b = marketFromRow id row ∧
      Activated n.item db₃ id := by
    have h := @activateMarket_activated settings n fs' db₂ trivial
    rwa [hb] at h
  obtain ⟨mrow', b₁, hm', hb₁, hcover₁⟩ := hactm
  obtain rfl : mrow' = mrow := Option.some.inj (hm'.symm.trans hm)
  obtain ⟨nrow', c, hn', hc, hcoverc⟩ := hactn
  obtain rfl : nrow' = nrow := Option.some.inj (hn'.symm.trans hn)
  -- The first market still names the same book, over the same item, when the second is activated.
  obtain ⟨later, hl, hgen⟩ := later_generation hafter hr₁ hm
  have hbook : later.bookId = mrow'.bookId ∧ later.item = mrow'.item := by
    rw [hgen]
    exact ⟨rfl, rfl⟩
  obtain ⟨b₃, hb₃, hcover₃⟩ := reachable_itemsOfBooks hr₃ i later hl
  obtain ⟨b₀, hb₀, hcover₀⟩ := reachable_itemsOfBooks hr₁ i mrow' hm
  obtain rfl : b₀ = b₁ := Option.some.inj (hb₀.symm.trans hb₁)
  have hitem : Covers b₃ m.item := by
    rw [hbook.2] at hcover₃
    obtain ⟨ht, hd, hn⟩ := Covers.same hcover₀ hcover₁
    exact ⟨hcover₃.1.trans ht, hcover₃.2.1.trans hd, hcover₃.2.2.trans hn⟩
  rw [hbook.1] at hb₃
  refine ⟨fun he => ?_, fun hs => ?_⟩
  · change mrow'.bookId = nrow'.bookId at he
    rw [he] at hb₃
    obtain rfl : b₃ = c := Option.some.inj (hb₃.symm.trans hc)
    exact hitem.same hcoverc
  · exact catalogued_covers (reachable_lifecycle hr₃).books hb₃ hc hitem hcoverc hs

/-- What decides which items may stand for one another. -/
structure OneIdentity (settings : Settings) (types : TypeCodes) (p q : ItemPrototype) : Prop where
  book : ∀ db db₁ db₂ db₃ m n a b fs fs' gs gs', Reachable settings db → m.item = p → n.item = q →
    activateMarket settings m fs db = (.returned a, gs, db₁) → Later settings db₁ db₂ →
    activateMarket settings n fs' db₂ = (.returned b, gs', db₃) →
    (a.bookId = b.bookId ↔ sameItem p q = true)
  decoded : ∃ entries, decode types q.nbt = .ok entries ∧
    matchesItemIdentity types p q.type q.data entries = .ok (sameItem p q)
  fingerprint : ∀ i j : ItemPrototype, preimage i = preimage j → sameItem i j = true
  collides : ∀ db market fs, Reachable settings db → (activateMarket settings market fs db).1 ≠ .threw collision

/-- Fingerprint, stored bytes and decoded compounds agree. -/
theorem items_identified {t u : CompoundTag} (hsha : Function.Injective settings.sha2) (ht : t.Within)
    (hu : u.Within) (hp : encode types t = .ok p.nbt) (hq : encode types u = .ok q.nbt) :
    OneIdentity settings types p q := by
  refine ⟨?_, matches_iff_same ht hu hp hq, ?_, ?_⟩
  · rintro db db₁ db₂ db₃ m n a b fs fs' gs gs' hr rfl rfl ha hlater hb
    rw [sameItem_iff]
    exact activateMarket_book hr ha hlater hb
  · intro i j hsame
    exact sameItem_iff.mpr (preimage_injective hsame)
  · intro db market fs hr hthrew
    have h := @activateMarket_never_collides settings market hsha fs db (reachable_lifecycle hr).books
    unfold Ends at h
    rw [hthrew] at h
    exact h rfl

end Identity

section Sample

def diamond (nbt : Bytes) : ItemPrototype := { type := "minecraft:diamond", nbt, name := "Diamond" }

def blank : CompoundTag where
  entries := []
  keyed := by simp [Tag.Everywhere, EverywhereEntries, Tag.Keyed, Sorted]

private theorem blank_within : blank.Within := by
  simp [blank, CompoundTag.Within, Tag.Everywhere, EverywhereEntries, Tag.Within]

def sampleNbt : Bytes := [69, 88, 78, 66, 1, 10, 2, 0, 0, 0, 1, 0, 0, 0, 97, 2, 46, 251, 1, 0, 0, 0, 98, 9, 2, 0, 0, 0,
  4, 10, 0, 0, 0, 0, 0, 0, 0, 4, 236, 255, 255, 255, 255, 255, 255, 255]

def blankNbt : Bytes := [69, 88, 78, 66, 1, 10, 0, 0, 0, 0]

/-- The fingerprints of two diamonds; of no two inputs the same. -/
def fingerprintSettings : Settings :=
  { sampleSettings with
    sha2 := fun bytes =>
      if bytes = preimage (diamond sampleNbt) then
        [0x13, 0xaa, 0xc6, 0x4a, 0x8e, 0x90, 0x3b, 0x69, 0x42, 0xdf, 0x1b, 0x18, 0x3b, 0xbe, 0x13, 0x1b, 0x69, 0x05,
          0xdf, 0xa3, 0xe8, 0x25, 0xf2, 0xe4, 0x60, 0xa2, 0x4c, 0x4a, 0x2c, 0xab, 0x73, 0x2c]
      else if bytes = preimage (diamond blankNbt) then
        [0x6d, 0x1e, 0xf0, 0x5a, 0xf7, 0x09, 0xc1, 0x1c, 0xdf, 0x0e, 0xfb, 0x7e, 0xf6, 0xd5, 0x70, 0x29, 0x9a, 0xba,
          0x01, 0xfb, 0xbe, 0xfa, 0x04, 0x11, 0x52, 0x9f, 0xa9, 0x50, 0xb6, 0x3c, 0x28, 0xea]
      else 0 :: bytes }

private theorem fingerprintSettings_injective : Function.Injective fingerprintSettings.sha2 := by
  intro bytes bytes' h
  simp only [fingerprintSettings] at h
  split_ifs at h with hb hb' hc hb' hc <;> simp_all

theorem items_identified_diamonds :
    OneIdentity fingerprintSettings standardTypes (diamond sampleNbt) (diamond blankNbt) :=
  items_identified fingerprintSettings_injective sample_within blank_within rfl rfl

end Sample

end EndstoneExchange.ItemIdentity
