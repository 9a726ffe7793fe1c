import EndstoneExchange.MarketLifecycle

/-!
# Market generations

A market row keeps its book, target and item for good. Closing it pauses this
generation with everything it holds, and opening the same goods at the same target
resumes it.
-/
namespace EndstoneExchange.MarketGenerations
open AutoIncrementTables KeyedTables AtomicTransactions.Transaction DurablePrograms ExchangeDomain
  ExchangeTransactions AccountOperations MarketOperations ClearingSteps ClearingRefinement RowHistories
  ServiceRuns DeliveryOrigins TargetBindings MarketLifecycle Relation

variable {settings : Settings} {allow : Special → Prop} {d d' : Desk} {db db' : Db} {id : Id}
  {m : MarketRow}

section Identity

private theorem generation_step (h : Step settings allow d d') (hm : d.db.markets.get? id = some m) :
    ∃ m', d'.db.markets.get? id = some m' ∧ SameGeneration m m' := by
  cases h with
  | openMarket => exact ⟨m, Table.get?_insert_old _ hm, .refl m⟩
  | switchMarket => exact Table.exists_get?_update .refl (fun m => sameGeneration_flags m _ _) hm _
  | _ => exact ⟨m, hm, .refl m⟩

private theorem generation_steps (h : Steps settings allow d d') (hm : d.db.markets.get? id = some m) :
    ∃ m', d'.db.markets.get? id = some m' ∧ SameGeneration m m' := by
  induction h with
  | refl => exact ⟨m, hm, .refl m⟩
  | tail _ h ih =>
    obtain ⟨n, hn, hs⟩ := ih
    obtain ⟨k, hk, hs'⟩ := generation_step h hn
    exact ⟨k, hk, hs.trans hs'⟩

theorem later_generation (h : Later settings db db') (hr : Reachable settings db)
    (hm : db.markets.get? id = some m) :
    ∃ m', db'.markets.get? id = some m' ∧ SameGeneration m m' := by
  induction h with
  | refl => exact ⟨m, hm, .refl m⟩
  | @tail db₁ db₂ hlater hc ih =>
    obtain ⟨c, faults, rfl⟩ := hc
    obtain ⟨history, hrun⟩ := Later.reachable hlater hr
    obtain ⟨n, hn, hs⟩ := ih
    obtain ⟨k, hk, hs'⟩ := generation_steps (hrun.leaves_steps c faults) hn
    exact ⟨k, hk, hs.trans hs'⟩

end Identity

section Resuming

/-- Only markets and target bindings differ. -/
def Untouched (db db' : Db) : Prop :=
  { db' with markets := db.markets, targetBindings := db.targetBindings } = db

/-- What `activateMarket` asks of its argument. -/
def Complete (market : Market) : Prop :=
  ¬ (market.targetKey = "" ∨ market.dimensionName = "" ∨ market.item.type = "" ∨
    market.item.name = "" ∨ market.createdBy = "")

/-- The same target, kind and item. -/
structure Offers (market : Market) (m : MarketRow) : Prop where
  target : m.targetKey = market.targetKey
  kind : m.targetKind = market.targetKind
  item : SameItem m.item market.item

def Db.pause (db : Db) (id : Id) (m : MarketRow) : Db :=
  Db.setMarket (Db.setBindings db (db.targetBindings.filter fun key i => ¬ (key = m.targetKey ∧ i = id))) id
    fun m => { m with active := false, reopenable := true }

def Db.resume (db : Db) (id : Id) (targetKey : String) : Db :=
  Db.setBindings (Db.setMarket db id fun m => { m with active := true, reopenable := false })
    (db.targetBindings.insert targetKey id)

private theorem closeMarket_pauses (hI : Lifecycle settings db) (hm : db.markets.get? id = some m)
    (ha : m.active = true) :
    ∃ db', closeMarket id [] db = (.returned ⟨⟩, [], db') ∧ Untouched db db' ∧
      db'.markets.get? id = some { m with active := false, reopenable := true } ∧
      db'.targetBindings.find? m.targetKey = none := by
  have hbound : db.targetBindings.find? m.targetKey = some id := (hI.targets.bound _ _).mpr ⟨m, hm, ha, rfl⟩
  have hclose : closeMarketTx id db = .ok (⟨⟩, Db.pause db id m) := by
    simp only [closeMarketTx, bind_ok, selectOne_ok, ite_ok, execute_ok, select_ok, throwIf_ok, switchMarket,
      unbindTarget, exists_eq_left', exists_and_left, exists_exists_and_eq_and, and_assoc]
    exact ⟨m, hm, .inr ⟨by simp [ha], by simp [hbound], rfl⟩⟩
  have hrun : closeMarket id [] db = (.returned ⟨⟩, [], Db.pause db id m) := transaction_returned hclose
  refine ⟨_, hrun, rfl, ?_, ?_⟩
  · simp only [Db.pause, Db.setMarket_markets, Db.setBindings_markets, Table.get?_update_self, hm, Option.map_some]
  · simp [Db.pause, KeyedTable.find?_filter, hbound]

private theorem upsertBook_found {item : ItemPrototype} {bookId : Id}
    (h : findBook db (itemHash settings item) = some bookId) :
    upsertBook settings item db = .ok (bookId, db) := by
  simp only [upsertBook, bind_ok, select_ok, exists_eq_left', h, pure_ok]

/-- A paused market is resumed when its goods are offered again at its free target. -/
theorem activateMarket_resumes (hI : Lifecycle settings db) (hitems : ItemsOfBooks db) {market : Market}
    (hc : Complete market) (hm : db.markets.get? id = some m) (hr : m.reopenable = true)
    (hs : Offers market m) (hf : db.targetBindings.find? m.targetKey = none) :
    ∃ a db', activateMarket settings market [] db = (.returned a, [], db') ∧ a.id = id ∧
      Untouched db db' := by
  have ha : m.active = false := hI.targets.free hf hm rfl
  obtain ⟨b, hb, htype, hdata, hnbt⟩ := hitems id m hm
  have hhash : itemHash settings market.item = b.itemHash := by
    obtain ⟨ht, hd, hn⟩ := hs.item
    rw [hI.books.hash _ _ hb]
    simp only [itemHash, htype, hdata, hnbt, ht, hd, hn]
  have hbook : upsertBook settings market.item db = .ok (m.bookId, db) := by
    refine upsertBook_found ?_
    rw [hhash]
    exact hI.books.findBook hb
  have hmatch : ¬ (b.itemType ≠ market.item.type ∨ b.itemData ≠ market.item.data ∨
      b.itemNbt ≠ market.item.nbt) := by
    obtain ⟨ht, hd, hn⟩ := hs.item
    simp [htype, hdata, hnbt, ht, hd, hn]
  have hresume : resumableMarket db market m.bookId = some id :=
    resumableMarket_eq hI.targets hm hs.target hs.kind rfl ha hr
  have hfree : db.targetBindings.find? market.targetKey = none := hs.target ▸ hf
  have hunbound : ¬ ((db.targetBindings.find? market.targetKey).isSome ||
      db.targetBindings.rows.any (·.2 = id)) = true := by
    simp only [hfree, Option.isSome_none, Bool.false_or, List.any_eq_true, decide_eq_true_eq]
    rintro ⟨⟨target, i⟩, hrow, rfl⟩
    exact hI.targets.unbound hm ha target (KeyedTable.find?_eq_some_iff.mpr hrow)
  have hactivate : activateMarketTx settings market db = .ok ((id, true), Db.resume db id market.targetKey) := by
    simp only [activateMarketTx, bind_ok, select_ok, selectOne_ok, throwIf_ok, exists_eq_left',
      exists_and_left, exists_exists_and_eq_and, and_assoc]
    refine ⟨by simp [hfree], (m.bookId, db), hbook, b, hb, hmatch, ?_⟩
    simp only [hresume, switchMarket, bindTarget, bind_ok, select_ok, throwIf_ok, execute_ok, pure_ok,
      exists_eq_left']
    exact ⟨_, ⟨_, ⟨hunbound, rfl⟩, rfl⟩, rfl⟩
  have hfound : findMarket id (Db.resume db id market.targetKey) =
      .ok (some (marketFromRow id { m with active := true, reopenable := false }),
        Db.resume db id market.targetKey) := by
    simp only [findMarket, select_ok, Db.resume, Db.setBindings_markets, Db.setMarket_markets, Table.get?_update_self,
      hm, Option.map_some]
  refine ⟨marketFromRow id { m with active := true, reopenable := false },
    Db.resume db id market.targetKey, ?_, rfl, rfl⟩
  rw [activateMarket, if_neg hc]
  refine (Program.bind_returned (transaction_returned hactivate)).trans ?_
  exact Program.bind_returned (transaction_returned hfound)

end Resuming

section Bindings

def bindingMissing : Error := .runtime "active market target binding is missing"

private theorem closeOrders_raises {es : List (Id × OrderRow)} :
    RaisesOnly (· ≠ bindingMissing) (closeOrders es) db := by
  induction es generalizing db with
  | nil => exact .pure
  | cons e es ih =>
    refine .bind (.ite (fun _ => ?_) fun _ => .ite (fun _ => ?_) fun _ => ?_) fun _ _ _ => ih
    · exact .bind (credit_raises (by decide) (by decide) (by decide)) fun _ _ _ => .execute
    · exact .bind (.ite (fun _ => .pure) fun _ => .execute) fun _ _ _ => .execute
    · exact .execute

private theorem closeMarketTx_raises (hI : Lifecycle settings db) :
    RaisesOnly (· ≠ bindingMissing) (closeMarketTx id) db := by
  refine .bind (.selectOne (by decide)) fun m db₁ hselect => ?_
  obtain ⟨m', hm, hp⟩ := selectOne_ok.mp hselect
  obtain ⟨rfl, rfl⟩ := Prod.mk.inj hp
  refine .ite (fun _ => .execute) fun ha => .bind .select fun bound db₁ hb => ?_
  obtain ⟨rfl, -⟩ := Prod.mk.inj (select_ok.mp hb)
  refine .bind (.throwIf fun hne => ?_) fun _ _ _ => .bind .execute fun _ _ _ => .execute
  exact absurd ((hI.targets.bound _ _).mpr ⟨m', hm, by simpa using ha, rfl⟩) hne

private theorem retireMarketTx_raises (hI : Lifecycle settings db) :
    RaisesOnly (· ≠ bindingMissing) (retireMarketTx id) db := by
  refine .bind (.selectOne (by decide)) fun _ db₁ hselect => ?_
  obtain ⟨m₀, -, hp⟩ := selectOne_ok.mp hselect
  obtain ⟨-, rfl⟩ := Prod.mk.inj hp
  refine .bind (.selectOne (by decide)) fun _ db₁ hselect => ?_
  obtain ⟨b, -, hp⟩ := selectOne_ok.mp hselect
  obtain ⟨-, rfl⟩ := Prod.mk.inj hp
  refine .bind (.selectOne (by decide)) fun m db₁ hselect => ?_
  obtain ⟨m', hm, hp⟩ := selectOne_ok.mp hselect
  obtain ⟨rfl, rfl⟩ := Prod.mk.inj hp
  refine .bind (.throwIf fun _ => by decide) fun _ db₁ hguard => ?_
  obtain ⟨-, rfl⟩ := Prod.mk.inj (throwIf_ok.mp hguard).2
  refine .bind .select fun orders db₁ horders => ?_
  obtain ⟨rfl, rfl⟩ := Prod.mk.inj (select_ok.mp horders)
  refine .bind closeOrders_raises fun _ db₁ hclose => ?_
  have hsteps := (@closeOrders_steps settings (fun _ => False)) hclose
    marketOrders_spec.1 marketOrders_spec.2
  refine .bind .select fun bound db₂ hbound => .bind .execute fun _ _ _ => ?_
  obtain ⟨rfl, -⟩ := Prod.mk.inj (select_ok.mp hbound)
  refine .bind (.throwIf fun hne => ?_) fun _ _ _ => .execute
  rw [(sameMarkets_steps hsteps fun h => h).bindings] at hne
  exact absurd ((hI.targets.bound _ _).mpr ⟨m', hm, hne.1, rfl⟩) hne.2

end Bindings

/-- Markets, bindings and resting orders as the service maintains them. -/
structure Maintained (settings : Settings) (db : Db) : Prop where
  bound : ∀ target id, db.targetBindings.find? target = some id ↔
    ∃ m, db.markets.get? id = some m ∧ m.active = true ∧ m.targetKey = target
  one_active : ∀ i j m n, db.markets.get? i = some m → db.markets.get? j = some n →
    m.active = true → n.active = true → n.targetKey = m.targetKey → i = j
  exclusive : ∀ id m, db.markets.get? id = some m → ¬ (m.active = true ∧ m.reopenable = true)
  one_usable : ∀ i j m n, db.markets.get? i = some m → db.markets.get? j = some n → SameGoods m n →
    Usable m → Usable n → i = j
  identity : ∀ db', Later settings db db' → ∀ id m, db.markets.get? id = some m →
    ∃ m', db'.markets.get? id = some m' ∧ SameGeneration m m'
  resting : ∀ id o, db.orders.get? id = some o → o.Resting →
    ∃ m, db.markets.get? o.marketId = some m ∧ Usable m
  resumed : ∀ id m market, db.markets.get? id = some m → m.active = true → Complete market →
    Offers market m → ∃ db₁, closeMarket id [] db = (.returned ⟨⟩, [], db₁) ∧ Untouched db db₁ ∧
      db₁.markets.get? id = some { m with active := false, reopenable := true } ∧
      db₁.targetBindings.find? m.targetKey = none ∧
      ∀ db₂, Later settings db₁ db₂ →
        (∃ m₂, db₂.markets.get? id = some m₂ ∧ m₂.reopenable = true) →
        db₂.targetBindings.find? m.targetKey = none →
        ∃ a db₃, activateMarket settings market [] db₂ = (.returned a, [], db₃) ∧ a.id = id ∧
          Untouched db₂ db₃
  never_missing : ∀ id, closeMarketTx id db ≠ .error bindingMissing ∧
    retireMarketTx id db ≠ .error bindingMissing

theorem markets_maintained (h : Reachable settings db) : Maintained settings db := by
  have hI := reachable_lifecycle h
  refine ⟨hI.targets.bound, ?_, ?_, hI.targets.unique, ?_, ?_, ?_, ?_⟩
  · intro i j m n hm hn ha ha' ht
    exact hI.targets.one_active hm hn ha ha' ht
  · rintro id m hm ⟨ha, hr⟩
    rw [hI.targets.exclusive id m hm ha] at hr
    cases hr
  · intro db' hlater id m hm
    exact later_generation hlater h hm
  · intro id o ho hr
    exact hI.orders id o ho (.inl hr)
  · intro id m market hm ha hc hs
    obtain ⟨db₁, hclose, huntouched, hpaused, hfree⟩ := closeMarket_pauses hI hm ha
    refine ⟨db₁, hclose, huntouched, hpaused, hfree, ?_⟩
    rintro db₂ hlater ⟨m₂, hm₂, hr₂⟩ hfree₂
    have hreach₁ : Reachable settings db₁ := by
      have hleaves : (Call.closeMarket id).leaves settings [] db = db₁ := by
        rw [Call.leaves, Call.run, hclose]
      exact hleaves ▸ h.call (.closeMarket id) []
    have hreach₂ := hlater.reachable hreach₁
    obtain ⟨m', hm', hsame⟩ := later_generation hlater hreach₁ hpaused
    obtain rfl : m' = m₂ := Option.some.inj (hm'.symm.trans hm₂)
    rw [SameGeneration] at hsame
    have hs' : Offers market m' := by
      rw [hsame]
      exact ⟨hs.target, hs.kind, hs.item⟩
    have htarget : m'.targetKey = m.targetKey := by rw [hsame]
    rw [← htarget] at hfree₂
    exact activateMarket_resumes (reachable_lifecycle hreach₂) (reachable_itemsOfBooks hreach₂) hc hm₂
      hr₂ hs' hfree₂
  · intro id
    exact ⟨fun he => closeMarketTx_raises hI _ he rfl, fun he => retireMarketTx_raises hI _ he rfl⟩

/-- A market with a resting order, closed once. -/
def pausedCalls : List Call := [.activateMarket (diamondMarket "chest"),
  .placeOrder (diamondOrder "alice" .buy .limit 100 2), .closeMarket 1]

theorem markets_maintained_paused :
    (∃ m, (afterCalls sampleSettings pausedCalls).markets.get? 1 = some m ∧ m.active = false ∧
      m.reopenable = true) ∧
    Maintained sampleSettings (afterCalls sampleSettings pausedCalls) :=
  ⟨⟨_, rfl, rfl, rfl⟩, markets_maintained (reachable_afterCalls sampleSettings pausedCalls)⟩

end EndstoneExchange.MarketGenerations
