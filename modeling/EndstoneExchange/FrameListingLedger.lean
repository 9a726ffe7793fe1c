import EndstoneExchange.ServiceRuns

/-!
# The life of a frame listing

A target is bound to its one open listing, a listing has a buyer from its payment
on, and the ledger holds its two payment rows exactly then.
-/
namespace EndstoneExchange.FrameListingLedger
open AutoIncrementTables KeyedTables AtomicTransactions.Transaction DurablePrograms ExchangeDomain
  ExchangeTransactions AccountOperations FrameListingOperations ClearingSteps ClearingRefinement
  ServiceRuns Relation

variable {settings : Settings} {allow : Special → Prop} {d d' : Desk} {db db' : Db}

/-- A listing that occupies its target. -/
def Open (s : FrameListingStatus) : Prop := s = .active ∨ s = .paid ∨ s = .dropped

/-- A listing that was paid for. -/
def Sold (s : FrameListingStatus) : Prop := s = .paid ∨ s = .dropped ∨ s = .claimed

/-- The moves a listing's status can make. -/
inductive Moves : FrameListingStatus → FrameListingStatus → Prop
  | pay : Moves .active .paid
  | drop : Moves .paid .dropped
  | claim : Moves .dropped .claimed
  | claimPaid : Moves .paid .claimed
  | cancel : Moves .active .canceled

/-- The ledger rows booked under a listing's key. -/
def rowsOf (ledger : Table LedgerRow) (listingId : Id) : List LedgerRow :=
  ledger.rows.filter fun l => l.reference = some (.frameListing listingId)

/-- What the sale of a listing books: the buyer's payment and the seller's proceeds. -/
def saleRows (listingId : Id) (l : FrameListingRow) : List LedgerRow :=
  match l.buyerUuid with
  | some buyer => [⟨buyer, -l.priceCents, .framePurchase, some (.frameListing listingId)⟩,
      ⟨l.sellerUuid, l.priceCents, .frameSale, some (.frameListing listingId)⟩]
  | none => []

structure Sound (listings : Table FrameListingRow) (bindings : KeyedTable String Id)
    (ledger : Table LedgerRow) : Prop where
  bound : ∀ target id, bindings.find? target = some id ↔
    ∃ l, listings.get? id = some l ∧ Open l.status ∧ l.targetKey = target
  price : ∀ id l, listings.get? id = some l → 0 < l.priceCents
  buyer : ∀ id l, listings.get? id = some l → (l.buyerUuid.isSome ↔ Sold l.status)
  stranger : ∀ id l, listings.get? id = some l → l.buyerUuid ≠ some l.sellerUuid
  booked : ∀ id l, listings.get? id = some l → rowsOf ledger id = saleRows id l
  unbooked : ∀ id, listings.get? id = none → rowsOf ledger id = []

def FramesSound (db : Db) : Prop := Sound db.frameListings db.frameListingBindings db.balanceLedger

section Ledger

theorem rowsOf_insert (ledger : Table LedgerRow) (row : LedgerRow) (id : Id) :
    rowsOf (ledger.insert row) id =
      rowsOf ledger id ++ if row.reference = some (.frameListing id) then [row] else [] := by
  rw [rowsOf, rowsOf, Table.insert, List.filter_append, List.filter_singleton]
  by_cases h : row.reference = some (.frameListing id) <;> simp [h]

/-- Rows booked under other keys. -/
def Quiet (ledger ledger' : Table LedgerRow) : Prop := ∀ id, rowsOf ledger' id = rowsOf ledger id

theorem quiet_insert {ledger : Table LedgerRow} {row : LedgerRow}
    (h : ∀ id, row.reference ≠ some (.frameListing id)) : Quiet ledger (ledger.insert row) := by
  intro id
  rw [rowsOf_insert, if_neg (h id), List.append_nil]

theorem quiet_post {ledger : Table LedgerRow} {delta : Cents} {row : LedgerRow}
    (h : ∀ id, row.reference ≠ some (.frameListing id)) :
    Quiet ledger (if delta = 0 then ledger else ledger.insert row) := by
  split_ifs with h0
  · exact fun _ => rfl
  · exact quiet_insert h

theorem Quiet.trans {l₁ l₂ l₃ : Table LedgerRow} (h : Quiet l₁ l₂) (h' : Quiet l₂ l₃) : Quiet l₁ l₃ :=
  fun id => (h' id).trans (h id)

theorem rowsOf_post_own {playerUuid : String} {delta : Cents} {reason : LedgerReason} {id : Id}
    (h : delta ≠ 0) :
    rowsOf (Db.post db playerUuid delta reason (some (.frameListing id))).balanceLedger id =
      rowsOf db.balanceLedger id ++ [⟨playerUuid, delta, reason, some (.frameListing id)⟩] := by
  rw [Db.post_balanceLedger, if_neg h, rowsOf_insert, if_pos rfl]

theorem rowsOf_post_other {playerUuid : String} {delta : Cents} {reason : LedgerReason} {id other : Id}
    (h : other ≠ id) :
    rowsOf (Db.post db playerUuid delta reason (some (.frameListing id))).balanceLedger other =
      rowsOf db.balanceLedger other := by
  rw [Db.post_balanceLedger]
  split_ifs with h0
  · rfl
  · rw [rowsOf_insert, if_neg (by simp [h.symm]), List.append_nil]

end Ledger

section OtherCalls

/-- What steps that change no listing leave alone. -/
structure SameFrames (db db' : Db) : Prop where
  listings : db'.frameListings = db.frameListings
  bindings : db'.frameListingBindings = db.frameListingBindings
  ledger : Quiet db.balanceLedger db'.balanceLedger

theorem SameFrames.refl (db : Db) : SameFrames db db := ⟨rfl, rfl, fun _ => rfl⟩

theorem SameFrames.trans {db₁ db₂ db₃ : Db} (h : SameFrames db₁ db₂) (h' : SameFrames db₂ db₃) :
    SameFrames db₁ db₃ :=
  ⟨h'.listings.trans h.listings, h'.bindings.trans h.bindings, h.ledger.trans h'.ledger⟩

theorem SameFrames.sound (h : SameFrames db db') (hI : FramesSound db) : FramesSound db' where
  bound := by rw [h.listings, h.bindings]; exact hI.bound
  price := by rw [h.listings]; exact hI.price
  buyer := by rw [h.listings]; exact hI.buyer
  stranger := by rw [h.listings]; exact hI.stranger
  booked id l hl := by rw [h.ledger]; exact hI.booked id l (h.listings ▸ hl)
  unbooked id hl := by rw [h.ledger]; exact hI.unbooked id (h.listings ▸ hl)

private theorem sameFrames_step (h : Step settings allow d d') (ha : ¬ allow .changeFrames) :
    SameFrames d.db d'.db := by
  cases h with
  | openAccount => exact ⟨rfl, rfl, quiet_insert (by simp)⟩
  | adjustBalance => exact ⟨rfl, rfl, quiet_insert (by simp)⟩
  | openOrder => exact ⟨rfl, rfl, quiet_post (by simp)⟩
  | @settleTrade db taker t buy sell ht =>
    have hbuyer : Quiet db.balanceLedger (Db.post db t.buyerUuid (buyerDelta buy t.priceCents t.quantity)
      (buyerReason buy) (some (.order t.buyOrderId))).balanceLedger := quiet_post (by simp)
    exact ⟨rfl, rfl, hbuyer.trans (quiet_post (by simp))⟩
  | withdraw => exact ⟨rfl, rfl, quiet_post (by simp)⟩
  | prepareTransfer => exact ⟨rfl, rfl, quiet_post (by simp)⟩
  | completeTransfer => exact ⟨rfl, rfl, quiet_post (by simp)⟩
  | failTransfer => exact ⟨rfl, rfl, quiet_post (by simp)⟩
  | changeFrames _ _ hs => exact absurd hs ha
  | payFrame _ _ hs => exact absurd hs ha
  | _ => exact ⟨rfl, rfl, fun _ => rfl⟩

theorem sameFrames_steps (h : Steps settings allow d d') (ha : ¬ allow .changeFrames) :
    SameFrames d.db d'.db := by
  induction h with
  | refl => exact .refl _
  | tail _ h ih => exact ih.trans (sameFrames_step h ha)

end OtherCalls

section Rewrites
variable {listings : Table FrameListingRow} {bindings : KeyedTable String Id}
  {ledger : Table LedgerRow} {id : Id} {l : FrameListingRow}

private theorem sound_empty : Sound {} .empty {} where
  bound := by simp
  price := by simp
  buyer := by simp
  stranger := by simp
  booked := by simp
  unbooked _ _ := rfl

/-- Rewriting one open listing, with the ledger and bindings that go with its new row. -/
theorem Sound.rewrite (h : Sound listings bindings ledger) (hl : listings.get? id = some l)
    (hopen : Open l.status) {f : FrameListingRow → FrameListingRow} {bindings' : KeyedTable String Id}
    {ledger' : Table LedgerRow} (ht : (f l).targetKey = l.targetKey)
    (hp : (f l).priceCents = l.priceCents) (hb : (f l).buyerUuid.isSome ↔ Sold (f l).status)
    (hs : (f l).buyerUuid ≠ some (f l).sellerUuid) (hown : rowsOf ledger' id = saleRows id (f l))
    (hother : ∀ other, other ≠ id → rowsOf ledger' other = rowsOf ledger other)
    (hbound : ∀ target i, bindings'.find? target = some i ↔
      bindings.find? target = some i ∧ (i = id → Open (f l).status)) :
    Sound (listings.update id f) bindings' ledger' := by
  have hrow : ∀ {i : Id} {k : FrameListingRow}, (listings.update id f).get? i = some k →
      (i = id ∧ k = f l) ∨ (i ≠ id ∧ listings.get? i = some k) := by
    intro i k hk
    rcases Table.get?_update_cases hk with ⟨rfl, l', hl', rfl⟩ | ⟨hne, hk⟩
    · obtain rfl : l' = l := Option.some.inj (hl'.symm.trans hl)
      exact .inl ⟨rfl, rfl⟩
    · exact .inr ⟨hne, hk⟩
  constructor
  · intro target i
    rw [hbound, h.bound]
    constructor
    · rintro ⟨⟨k, hk, ho, hkey⟩, hi⟩
      by_cases hne : i = id
      · subst hne
        obtain rfl : k = l := Option.some.inj (hk.symm.trans hl)
        exact ⟨f k, by rw [Table.get?_update_self, hl]; rfl, hi rfl, ht.trans hkey⟩
      · exact ⟨k, by rw [Table.get?_update_ne _ _ hne, hk], ho, hkey⟩
    · rintro ⟨k, hk, ho, hkey⟩
      rcases hrow hk with ⟨rfl, rfl⟩ | ⟨hne, hk⟩
      · exact ⟨⟨l, hl, hopen, ht.symm.trans hkey⟩, fun _ => ho⟩
      · exact ⟨⟨k, hk, ho, hkey⟩, fun he => absurd he hne⟩
  · intro i k hk
    rcases hrow hk with ⟨rfl, rfl⟩ | ⟨-, hk⟩
    · rw [hp]
      exact h.price _ l hl
    · exact h.price i k hk
  · intro i k hk
    rcases hrow hk with ⟨rfl, rfl⟩ | ⟨-, hk⟩
    · exact hb
    · exact h.buyer i k hk
  · intro i k hk
    rcases hrow hk with ⟨rfl, rfl⟩ | ⟨-, hk⟩
    · exact hs
    · exact h.stranger i k hk
  · intro i k hk
    rcases hrow hk with ⟨rfl, rfl⟩ | ⟨hne, hk⟩
    · exact hown
    · rw [hother i hne]
      exact h.booked i k hk
  · intro i hi
    have hne : i ≠ id := by
      rintro rfl
      rw [Table.get?_update_self, hl] at hi
      cases hi
    rw [Table.get?_update_ne _ _ hne] at hi
    rw [hother i hne]
    exact h.unbooked i hi

/-- A change of status that books nothing. -/
theorem Sound.setStatus (h : Sound listings bindings ledger) (hl : listings.get? id = some l)
    (hopen : Open l.status) {s : FrameListingStatus} {bindings' : KeyedTable String Id}
    (hsold : Sold s ↔ Sold l.status)
    (hbound : ∀ target i, bindings'.find? target = some i ↔
      bindings.find? target = some i ∧ (i = id → Open s)) :
    Sound (listings.update id fun l => { l with status := s }) bindings' ledger :=
  h.rewrite hl hopen rfl rfl ((h.buyer id l hl).trans hsold.symm) (h.stranger id l hl)
    (h.booked id l hl) (fun _ _ => rfl) hbound

theorem find?_unbind {s : FrameListingStatus} (hs : ¬ Open s) (target : String) (i : Id) :
    (bindings.filter fun _ i => i ≠ id).find? target = some i ↔
      bindings.find? target = some i ∧ (i = id → Open s) := by
  rw [KeyedTable.find?_filter, Option.filter_eq_some_iff]
  simp [hs]

/-- A new listing on a free target. -/
theorem Sound.list (h : Sound listings bindings ledger) (hfree : bindings.find? l.targetKey = none)
    (hs : l.status = .active) (hb : l.buyerUuid = none) (hp : 0 < l.priceCents) :
    Sound (listings.insert l) (bindings.insert l.targetKey listings.nextId) ledger := by
  constructor
  · intro target i
    rw [KeyedTable.find?_insert listings.nextId hfree]
    constructor
    · intro hf
      split_ifs at hf with ht
      · obtain rfl := Option.some.inj hf
        exact ⟨l, Table.get?_insert_self _ _, .inl hs, ht.symm⟩
      · obtain ⟨k, hk, ho, hkey⟩ := (h.bound target i).mp hf
        exact ⟨k, Table.get?_insert_old _ hk, ho, hkey⟩
    · rintro ⟨k, hk, ho, hkey⟩
      rcases Table.get?_insert_cases hk with ⟨rfl, rfl⟩ | ⟨-, hk⟩
      · exact if_pos hkey.symm
      · have hf := (h.bound target i).mpr ⟨k, hk, ho, hkey⟩
        have hne : target ≠ l.targetKey := by
          rintro rfl
          rw [hfree] at hf
          cases hf
        rw [if_neg hne, hf]
  · intro i k hk
    rcases Table.get?_insert_cases hk with ⟨-, rfl⟩ | ⟨-, hk⟩
    · exact hp
    · exact h.price i k hk
  · intro i k hk
    rcases Table.get?_insert_cases hk with ⟨-, rfl⟩ | ⟨-, hk⟩
    · simp [hb, hs, Sold]
    · exact h.buyer i k hk
  · intro i k hk
    rcases Table.get?_insert_cases hk with ⟨-, rfl⟩ | ⟨-, hk⟩
    · simp [hb]
    · exact h.stranger i k hk
  · intro i k hk
    rcases Table.get?_insert_cases hk with ⟨rfl, rfl⟩ | ⟨-, hk⟩
    · rw [h.unbooked _ (Table.get?_nextId listings), saleRows, hb]
    · exact h.booked i k hk
  · intro i hi
    refine h.unbooked i ?_
    rw [Table.get?_insert] at hi
    split_ifs at hi
    exact hi

end Rewrites

section Movement

/-- Two rows of one listing, at most one move apart. -/
structure Advances (l l' : FrameListingRow) : Prop where
  status : l'.status = l.status ∨ Moves l.status l'.status
  target : l'.targetKey = l.targetKey
  seller : l'.sellerUuid = l.sellerUuid
  price : l'.priceCents = l.priceCents

theorem Advances.refl (l : FrameListingRow) : Advances l l := ⟨.inl rfl, rfl, rfl, rfl⟩

/-- Listings advance by at most one move and new ones are active. -/
structure Moved (listings listings' : Table FrameListingRow) : Prop where
  old : ∀ id l, listings.get? id = some l → ∃ l', listings'.get? id = some l' ∧ Advances l l'
  new : ∀ id l', listings.get? id = none → listings'.get? id = some l' → l'.status = .active

variable {listings : Table FrameListingRow} {id : Id} {l : FrameListingRow}

theorem Moved.refl (listings : Table FrameListingRow) : Moved listings listings :=
  ⟨fun _ l hl => ⟨l, hl, .refl l⟩, fun _ _ hn hl => by rw [hn] at hl; cases hl⟩

theorem moved_update (hl : listings.get? id = some l) {f : FrameListingRow → FrameListingRow}
    (hf : Advances l (f l)) : Moved listings (listings.update id f) := by
  constructor
  · intro i k hk
    by_cases hne : i = id
    · subst hne
      obtain rfl : k = l := Option.some.inj (hk.symm.trans hl)
      exact ⟨f k, by rw [Table.get?_update_self, hl]; rfl, hf⟩
    · exact ⟨k, by rw [Table.get?_update_ne _ _ hne, hk], .refl k⟩
  · intro i k hn hk
    rcases Table.get?_update_cases hk with ⟨rfl, l', hl', -⟩ | ⟨-, hk⟩
    · rw [hn] at hl'
      cases hl'
    · rw [hn] at hk
      cases hk

theorem Moved.insert {listings' : Table FrameListingRow} (h : Moved listings listings')
    (hs : l.status = .active) : Moved listings (listings'.insert l) := by
  constructor
  · intro i k hk
    obtain ⟨k', hk', ha⟩ := h.old i k hk
    exact ⟨k', Table.get?_insert_old _ hk', ha⟩
  · intro i k hn hk
    rcases Table.get?_insert_cases hk with ⟨-, rfl⟩ | ⟨-, hk⟩
    · exact hs
    · exact h.new i k hn hk

end Movement

section Transactions

/-- A transaction keeps the listings sound and moves each at most once. -/
def Settles (db db' : Db) : Prop := FramesSound db' ∧ Moved db.frameListings db'.frameListings

theorem Settles.refl (hI : FramesSound db) : Settles db db := ⟨hI, .refl _⟩

theorem boundListing_none (hI : FramesSound db) {target : String} (h : boundListing target db = none) :
    db.frameListingBindings.find? target = none := by
  cases hf : db.frameListingBindings.find? target with
  | none => rfl
  | some id =>
    obtain ⟨l, hl, -, -⟩ := (hI.bound target id).mp hf
    simp [boundListing, hf, hl] at h

theorem boundListing_some {target : String} {current : FrameListing}
    (h : boundListing target db = some current) :
    db.frameListingBindings.find? target = some current.id ∧
      db.frameListings.get? current.id = some current.toFrameListingRow := by
  simp only [boundListing, Option.bind_eq_bind, Option.bind_eq_some_iff, Option.pure_def,
    Option.some.injEq] at h
  obtain ⟨id, hf, row, hrow, rfl⟩ := h
  exact ⟨hf, hrow⟩

theorem upsertFrameListingTx_settles {listing : FrameListingRow} {administrator : Bool}
    {l : FrameListing} (hI : FramesSound db) (hp : 0 < listing.priceCents)
    (h : upsertFrameListingTx listing administrator db = .ok (l, db')) : Settles db db' := by
  simp only [upsertFrameListingTx, bind_ok, select_ok, exists_eq_left'] at h
  cases hb : boundListing listing.targetKey db with
  | none =>
    simp only [hb] at h
    obtain ⟨-, rfl⟩ := Prod.mk.inj (insertListing_ok.mp h)
    exact ⟨hI.list (l := { listing with status := .active, buyerUuid := none, buyerName := none })
      (boundListing_none hI hb) rfl rfl hp, (Moved.refl _).insert rfl⟩
  | some current =>
    simp only [hb, updateListing, unbindListing, bind_ok, throwIf_ok, execute_ok, exists_eq_left',
      exists_and_left, and_assoc, not_not] at h
    obtain ⟨hs, -, hi⟩ := h
    obtain ⟨-, rfl⟩ := Prod.mk.inj (insertListing_ok.mp hi)
    obtain ⟨hf, hrow⟩ := boundListing_some hb
    have hcanceled := hI.setStatus (s := .canceled) hrow (.inl hs) (by simp [Sold, hs])
      (@find?_unbind db.frameListingBindings current.id _ (by simp [Open]))
    refine ⟨hcanceled.list (l := { listing with status := .active, buyerUuid := none, buyerName := none })
      ?_ rfl rfl hp, (moved_update hrow ⟨.inr ?_, rfl, rfl, rfl⟩).insert rfl⟩
    · simp [KeyedTable.find?_filter, hf]
    · rw [hs]
      exact .cancel

theorem cancelFrameListingTx_settles {listingId : Id} {requesterUuid : String} {administrator : Bool}
    {u : PUnit} (hI : FramesSound db)
    (h : cancelFrameListingTx listingId requesterUuid administrator db = .ok (u, db')) :
    Settles db db' := by
  simp only [cancelFrameListingTx, updateListing, unbindListing, bind_ok, selectOne_ok, ite_ok,
    throwIf_ok, execute_ok, pure_ok, exists_eq_left', exists_and_left, exists_exists_and_eq_and,
    and_assoc, not_not] at h
  obtain ⟨l, hl, ⟨-, hr⟩ | ⟨-, hs, -, hr⟩⟩ := h
  · obtain ⟨-, rfl⟩ := Prod.mk.inj hr
    exact .refl hI
  · obtain ⟨-, rfl⟩ := Prod.mk.inj hr
    refine ⟨hI.setStatus hl (.inl hs) (by simp [Sold, hs]) (find?_unbind (by simp [Open])),
      moved_update hl ⟨.inr ?_, rfl, rfl, rfl⟩⟩
    rw [hs]
    exact .cancel

theorem purchaseFrameListingTx_settles {listingId : Id} {buyerUuid buyerName : String} {price : Cents}
    {r : FramePurchaseResult} (hI : FramesSound db)
    (h : purchaseFrameListingTx listingId buyerUuid buyerName price db = .ok (r, db')) :
    Settles db db' := by
  simp only [purchaseFrameListingTx, updateListing, bind_ok, selectOne_ok, select_ok, throwIf_ok,
    execute_ok, debit_ok, credit_ok, lockedBalance_ok, pure_ok, exists_eq_left', exists_and_left,
    exists_exists_and_eq_and, and_assoc, not_not] at h
  obtain ⟨l, hl, hs, -, hne, -, -, -, -, -, -, -, _, -, _, -, hr⟩ := h
  obtain ⟨-, rfl⟩ := Prod.mk.inj hr
  have hprice := hI.price listingId l hl
  have hrows : rowsOf db.balanceLedger listingId = [] := by
    have hunsold : l.buyerUuid = none := by
      have hbuyer := hI.buyer listingId l hl
      rw [hs] at hbuyer
      simpa [Sold] using hbuyer
    rw [hI.booked listingId l hl, saleRows, hunsold]
  refine ⟨hI.rewrite hl (.inl hs) rfl rfl (by simp [Sold]) (by simpa using Ne.symm hne) ?_ ?_ ?_,
    moved_update hl ⟨.inr ?_, rfl, rfl, rfl⟩⟩
  · change rowsOf (Db.post (Db.post db buyerUuid (-l.priceCents) .framePurchase _) l.sellerUuid
      l.priceCents .frameSale _).balanceLedger listingId = _
    rw [rowsOf_post_own hprice.ne', rowsOf_post_own (neg_ne_zero.mpr hprice.ne'), hrows]
    rfl
  · intro other hother
    change rowsOf (Db.post (Db.post db buyerUuid (-l.priceCents) .framePurchase _) l.sellerUuid
      l.priceCents .frameSale _).balanceLedger other = _
    rw [rowsOf_post_other hother, rowsOf_post_other hother]
  · intro target i
    simp [Open]
  · rw [hs]
    exact .pay

theorem markFrameListingDroppedTx_settles {listingId : Id} {u : PUnit} (hI : FramesSound db)
    (h : markFrameListingDroppedTx listingId db = .ok (u, db')) : Settles db db' := by
  simp only [markFrameListingDroppedTx, updateListing, bind_ok, selectOne_ok, ite_ok, throwIf_ok,
    execute_ok, pure_ok, exists_eq_left', exists_and_left, exists_exists_and_eq_and, and_assoc,
    not_not] at h
  obtain ⟨l, hl, ⟨-, hr⟩ | ⟨-, hs, hr⟩⟩ := h
  · obtain ⟨-, rfl⟩ := Prod.mk.inj hr
    exact .refl hI
  · obtain ⟨-, rfl⟩ := Prod.mk.inj hr
    refine ⟨hI.setStatus hl (.inr (.inl hs)) (by simp [Sold, hs]) fun target i => ?_,
      moved_update hl ⟨.inr ?_, rfl, rfl, rfl⟩⟩
    · simp [Open]
    · rw [hs]
      exact .drop

theorem completeFrameListingPickupTx_settles {listingId : Id} {u : PUnit} (hI : FramesSound db)
    (h : completeFrameListingPickupTx listingId db = .ok (u, db')) : Settles db db' := by
  simp only [completeFrameListingPickupTx, updateListing, unbindListing, bind_ok, selectOne_ok, ite_ok,
    throwIf_ok, execute_ok, pure_ok, exists_eq_left', exists_and_left, exists_exists_and_eq_and,
    and_assoc, not_and_or, not_not] at h
  obtain ⟨l, hl, ⟨-, hr⟩ | ⟨-, hs, hr⟩⟩ := h
  · obtain ⟨-, rfl⟩ := Prod.mk.inj hr
    exact .refl hI
  · obtain ⟨-, rfl⟩ := Prod.mk.inj hr
    refine ⟨hI.setStatus hl (.inr hs) ?_ (find?_unbind (by simp [Open])),
      moved_update hl ⟨.inr ?_, rfl, rfl, rfl⟩⟩
    · rcases hs with hs | hs <;> simp [Sold, hs]
    · rcases hs with hs | hs <;> rw [hs]
      · exact .claimPaid
      · exact .claim

end Transactions

section Calls

/-- Nothing was done to the listings of `start` yet. -/
def Still (start db : Db) : Prop := FramesSound db ∧ db.frameListings = start.frameListings

theorem Still.settles {start : Db} (h : Still start db) : Settles start db := ⟨h.1, h.2 ▸ .refl _⟩

variable {start : Db}

theorem transaction_settles {α : Type} {body : Tx α}
    (h : ∀ db a db', FramesSound db → body db = .ok (a, db') → Settles db db') :
    Triple (Still start) (transaction body) (fun _ => Settles start) (fun _ => Settles start)
      (Settles start) := by
  refine Triple.atomic (fun _ => Still.settles) (fun _ => Still.settles) ?_ fun _ _ hs _ => hs.settles
  intro db a db' hs hb
  have hdone := h db a db' hs.1 hb
  have hsettles : Settles start db' := ⟨hdone.1, hs.2 ▸ hdone.2⟩
  exact ⟨hsettles, hsettles⟩

theorem ensureAccount_still (playerUuid playerName : String) :
    Triple (Still start) (ensureAccount settings playerUuid playerName) (fun _ => Still start)
      (fun _ => Settles start) (Settles start) := by
  have hkeeps : Keeps (Still start) (ensureAccount settings playerUuid playerName) := by
    refine Keeps.guard fun _ => Keeps.atomic fun db a db' hs hb => ?_
    have hsteps := (@ensureAccountTx_steps settings (fun _ => False)) hb
    have hsame := sameFrames_steps hsteps id
    exact ⟨hsame.sound hs.1, hsame.listings.trans hs.2⟩
  exact Triple.conseq hkeeps (fun _ h => h) (fun _ _ h => h) (fun _ _ h => h.settles) fun _ h => h.settles

/-- Every call moves every listing at most once, wherever it stops. -/
theorem Call.settles (c : Call) (faults : List Fault) (hp : EscrowsPlaceable db) (hI : FramesSound db) :
    Settles db (c.leaves settings faults db) := by
  have hother : ¬ c.Allows .changeFrames → Settles db (c.leaves settings faults db) := by
    intro ha
    have hsame := sameFrames_steps (@Call.leaves_follows settings _ c faults hp).1 ha
    exact Still.settles ⟨hsame.sound hI, hsame.listings⟩
  have hfinal : Triple (Still db) (c.run settings) (fun _ => Settles db) (fun _ => Settles db)
      (Settles db) → Settles db (c.leaves settings faults db) :=
    fun h => h.final faults ⟨hI, rfl⟩
  have hdone : ∀ {α : Type} {x : Program Db Error α},
      Triple (Still db) x (fun _ => Settles db) (fun _ => Settles db) (Settles db) →
      Triple (Still db) (do let _ ← x) (fun _ => Settles db) (fun _ => Settles db) (Settles db) :=
    fun h => h.bind fun _ => Triple.pure fun _ h => h
  cases c with
  | upsertFrameListing listing administrator =>
    refine hfinal (hdone (Triple.guard (fun _ _ hs => hs.settles) fun hc => ?_))
    have hprice : 0 < listing.priceCents := by
      by_contra hle
      exact hc (.inr (.inr (.inr (.inr (.inl (not_lt.mp hle))))))
    exact (ensureAccount_still _ _).bind fun _ => transaction_settles fun _ _ _ hs hb =>
      upsertFrameListingTx_settles hs hprice hb
  | cancelFrameListing =>
    exact hfinal (transaction_settles fun _ _ _ hs hb => cancelFrameListingTx_settles hs hb)
  | purchaseFrameListing =>
    refine hfinal (hdone (Triple.guard (fun _ _ hs => hs.settles) fun _ => ?_))
    exact (ensureAccount_still _ _).bind fun _ => transaction_settles fun _ _ _ hs hb =>
      purchaseFrameListingTx_settles hs hb
  | markFrameListingDropped =>
    exact hfinal (transaction_settles fun _ _ _ hs hb => markFrameListingDroppedTx_settles hs hb)
  | completeFrameListingPickup =>
    exact hfinal (transaction_settles fun _ _ _ hs hb => completeFrameListingPickupTx_settles hs hb)
  | _ => exact hother id

theorem reachable_framesSound (h : Reachable settings db) : FramesSound db := by
  obtain ⟨history, h⟩ := h
  induction h with
  | start => exact sound_empty
  | call h c faults ih => exact (Call.settles c faults h.escrowsPlaceable ih).1

end Calls

section Refusals

/-- All that a refused call may have done is to open or rename an account. -/
def Refused (settings : Settings) (db db' : Db) : Prop :=
  db' = db ∨ ∃ playerUuid playerName, db' = Db.ensured db settings playerUuid playerName

theorem transaction_refused {α : Type} {body : Tx α} {e : Error} {fs : List Fault}
    (h : transaction body [] db = (.threw e, fs, db')) : db' = db := Program.atomic_threw h

theorem ensured_refused {α : Type} {body : Tx α} {playerUuid playerName : String} {e : Error}
    {fs : List Fault} (h : (ensureAccount settings playerUuid playerName >>= fun _ => transaction body) []
      db = (.threw e, fs, db')) : Refused settings db db' := by
  obtain hfirst | ⟨u, gs, db₁, hfirst, hsecond⟩ := Program.bind_threw h
  · rw [ensureAccount] at hfirst
    split_ifs at hfirst with hu
    · obtain ht | ⟨_, _, _, ht, -⟩ := Program.bind_threw hfirst
      · cases ht
        exact .inl rfl
      · cases ht
    · exact .inl (transaction_refused hfirst)
  · rw [ensureAccount] at hfirst
    split_ifs at hfirst with hu
    · cases hfirst
    · obtain ⟨hok, rfl⟩ := Program.atomic_ok hfirst
      obtain ⟨-, rfl⟩ := Prod.mk.inj (ensureAccountTx_ok.mp hok)
      exact .inr ⟨_, _, transaction_refused hsecond⟩

theorem discard_refused {α : Type} {x : Program Db Error α} {e : Error} {fs : List Fault}
    (h : (do let _ ← x) [] db = (.threw e, fs, db')) : x [] db = (.threw e, fs, db') := by
  obtain hfirst | ⟨_, _, _, -, hrest⟩ := Program.bind_threw h
  · exact hfirst
  · cases hrest

theorem Call.refused (c : Call) (ha : c.Allows .changeFrames) {e : Error} {fs : List Fault}
    (h : c.run settings [] db = (.threw e, fs, db')) : Refused settings db db' := by
  cases c with
  | upsertFrameListing listing administrator =>
    have hcall := discard_refused h
    rw [upsertFrameListing] at hcall
    split_ifs at hcall with hc
    · obtain ht | ⟨_, _, _, ht, -⟩ := Program.bind_threw hcall
      · cases ht
        exact .inl rfl
      · cases ht
    · exact ensured_refused hcall
  | purchaseFrameListing listingId buyerUuid buyerName price =>
    have hcall := discard_refused h
    rw [purchaseFrameListing] at hcall
    split_ifs at hcall with hc
    · obtain ht | ⟨_, _, _, ht, -⟩ := Program.bind_threw hcall
      · cases ht
        exact .inl rfl
      · cases ht
    · exact ensured_refused hcall
  | cancelFrameListing => exact .inl (transaction_refused h)
  | markFrameListingDropped => exact .inl (transaction_refused h)
  | completeFrameListingPickup => exact .inl (transaction_refused h)
  | _ => exact ha.elim

end Refusals

/-- Listings, bindings and their ledger rows as the service maintains them. -/
structure Maintained (settings : Settings) (db : Db) : Prop where
  bound : ∀ target, (db.frameListingBindings.find? target).isSome ↔
    ∃! id, ∃ l, db.frameListings.get? id = some l ∧ Open l.status ∧ l.targetKey = target
  names : ∀ target id, db.frameListingBindings.find? target = some id ↔
    ∃ l, db.frameListings.get? id = some l ∧ Open l.status ∧ l.targetKey = target
  moves : ∀ (c : Call) (faults : List Fault),
    Moved db.frameListings (c.leaves settings faults db).frameListings
  buyer : ∀ id l, db.frameListings.get? id = some l →
    (l.buyerUuid.isSome ↔ Sold l.status) ∧ l.buyerUuid ≠ some l.sellerUuid
  sold : ∀ id l, db.frameListings.get? id = some l → Sold l.status → ∃ buyer, l.buyerUuid = some buyer ∧
    rowsOf db.balanceLedger id = [⟨buyer, -l.priceCents, .framePurchase, some (.frameListing id)⟩,
      ⟨l.sellerUuid, l.priceCents, .frameSale, some (.frameListing id)⟩]
  unsold : ∀ id, (∀ l, db.frameListings.get? id = some l → ¬ Sold l.status) →
    rowsOf db.balanceLedger id = []
  refused : ∀ (c : Call) e fs db', c.Allows .changeFrames → c.run settings [] db = (.threw e, fs, db') →
    db'.frameListings = db.frameListings ∧ db'.frameListingBindings = db.frameListingBindings ∧
      Refused settings db db'

def sampleListing : FrameListingRow :=
  { targetKey := "frame", dimensionName := "Overworld", blockX := 0, blockY := 64, blockZ := 0,
    sellerUuid := "alice", sellerName := "alice", priceCents := 500,
    item := { type := "minecraft:diamond", name := "Diamond" } }

def soldCalls : List Call :=
  [.upsertFrameListing sampleListing false, .purchaseFrameListing 1 "bob" "bob" 500]

end EndstoneExchange.FrameListingLedger
