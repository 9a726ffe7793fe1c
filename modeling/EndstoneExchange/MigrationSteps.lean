import EndstoneExchange.SchemaMigrations
import Mathlib.Order.Interval.Finset.Nat

/-!
# The steps of a migration

What holds between any two statements of a migration, and that every statement keeps it, also
where it runs twice because its first acknowledgement was lost.
-/
namespace EndstoneExchange.MigrationSteps
open AutoIncrementTables KeyedTables DurablePrograms FaultlessRuns RecoverablePrograms ExchangeDomain SchemaMigrations
open ItemIdentity (preimage)

section Invariant

/-- What the migration to a version adds to the schema. -/
def added : ℕ → List SchemaObject
  | 1 => [.schemaVersions, .accounts, .markets, .orders, .trades, .deliveries]
  | 2 => [.targetBindings, .marketsTargetHistory]
  | 3 => [.deliveriesReservedQty, .deliveriesClaimsCheck, .deliveryClaims]
  | 4 => [.sellEscrows]
  | 5 => [.balanceLedger]
  | 6 => [.marketsReopenable]
  | 7 => [.books, .marketsBookId, .marketsBookIdNotNull, .marketsBookIndex, .marketsBookForeignKey]
  | 8 => [.economyTransfers]
  | 9 => [.frameListings, .frameListingBindings]
  | 10 => [.transfersBalanceBefore]
  | _ => []

/-- The active markets with their targets. -/
def activeTargets (markets : Table MarketColumns) : List (Id × String) :=
  (markets.entries.filter (·.2.active)).map fun e => (e.1, e.2.targetKey)

def rowsOf (ledger : Table LedgerColumns) (playerUuid : String) : List LedgerColumns :=
  ledger.rows.filter (·.playerUuid = playerUuid)

/-- The ledger rows of an account add up to its balance. -/
def Explained (ledger : Table LedgerColumns) (account : String × Cents) : Prop :=
  ((rowsOf ledger account.1).map (·.deltaCents)).sum = account.2

structure SameMarket (m m' : MarketColumns) : Prop where
  targetKey : m'.targetKey = m.targetKey
  item : m'.item = m.item
  active : m'.active = m.active
  reopenable : ∀ b, m.reopenable = some b → m'.reopenable = some b
  bookId : ∀ id, m.bookId = some id → m'.bookId = some id

structure SameDelivery (d d' : DeliveryColumns) : Prop where
  quantity : d'.quantity = d.quantity
  claimedQty : d'.claimedQty = d.claimedQty
  reservedQty : ∀ n, d.reservedQty = some n → d'.reservedQty = some n

def ClaimsFit (d : DeliveryColumns) : Prop :=
  0 ≤ d.claimedQty ∧ 0 ≤ d.reservedQty.getD 0 ∧ d.claimedQty + d.reservedQty.getD 0 ≤ d.quantity

/-- The versions were recorded in order, each when its objects were there. -/
structure VersionsSound (versions : Finset ℕ) (objects : Finset SchemaObject) : Prop where
  inOrder : ∃ n ≤ 10, versions = Finset.Icc 1 n
  recorded : ∀ k ∈ versions, ∀ o ∈ added k, o ∈ objects
  targetKey : 2 ∈ versions → .marketsTargetKey ∉ objects

variable (sha2 : List UInt8 → List UInt8) (start : Store)

structure TargetsSound (versions : Finset ℕ) (markets : Table MarketColumns) (bindings : KeyedTable String Id) :
    Prop where
  kept : 2 ∈ start.versions → bindings = start.targetBindings
  distinct : 2 ∉ start.versions → ∀ t ∈ activeTargets markets, ∀ u ∈ activeTargets markets, t.2 = u.2 → t = u
  pointing : 2 ∉ start.versions → ∀ row ∈ bindings.rows, (row.2, row.1) ∈ activeTargets markets
  bound : 2 ∉ start.versions → 2 ∈ versions → ∀ t ∈ activeTargets markets, bindings.find? t.2 = some t.1

structure DeliveriesSound (objects : Finset SchemaObject) (deliveries : Table DeliveryColumns) : Prop where
  same : List.Forall₂ SameDelivery start.deliveries.rows deliveries.rows
  fit : ∀ d ∈ deliveries.rows, ClaimsFit d
  reservedQty : ∀ d ∈ deliveries.rows, d.reservedQty = none ↔ .deliveriesReservedQty ∉ objects

structure LedgerSound (versions : Finset ℕ) (accounts : KeyedTable String Cents) (ledger : Table LedgerColumns) :
    Prop where
  same : accounts = start.accounts
  grown : start.balanceLedger.rows <+: ledger.rows
  kept : 5 ∈ start.versions → ledger = start.balanceLedger
  opened : 5 ∉ start.versions → ∀ a ∈ accounts.rows, rowsOf ledger a.1 = [] ∨ Explained ledger a
  explained : 5 ∉ start.versions → 5 ∈ versions → ∀ a ∈ accounts.rows, Explained ledger a

structure MarketsSound (objects : Finset SchemaObject) (markets : Table MarketColumns) : Prop where
  same : List.Forall₂ SameMarket start.markets.rows markets.rows
  reopenable : ∀ m ∈ markets.rows, m.reopenable = none ↔ .marketsReopenable ∉ objects
  noBookId : .marketsBookId ∉ objects → ∀ m ∈ markets.rows, m.bookId = none
  notNull : .marketsBookIdNotNull ∈ objects → ∀ m ∈ markets.rows, m.bookId ≠ none

structure BooksSound (markets : Table MarketColumns) (books : Table BookRow) : Prop where
  grown : start.books.rows <+: books.rows
  unique : (books.rows.map (·.itemHash)).Nodup
  assigned : ∀ m ∈ markets.rows, ∀ id, m.bookId = some id →
    ∃ b, books.get? id = some b ∧ b.itemHash = itemHash sha2 m.item

/-- What holds between any two statements of a migration that began at `start`. -/
structure Migrating (s : Store) : Prop where
  begun : start.versions ⊆ s.versions
  versions : VersionsSound s.versions s.objects
  targets : TargetsSound start s.versions s.markets s.targetBindings
  deliveries : DeliveriesSound start s.objects s.deliveries
  ledger : LedgerSound start s.versions s.accounts s.balanceLedger
  markets : MarketsSound start s.objects s.markets
  books : BooksSound sha2 start s.markets s.books

/-- A database that a release has left, or an interrupted migration. -/
structure Sound (s : Store) : Prop where
  versions : VersionsSound s.versions s.objects
  distinct : 2 ∉ s.versions → ∀ t ∈ activeTargets s.markets, ∀ u ∈ activeTargets s.markets, t.2 = u.2 → t = u
  pointing : 2 ∉ s.versions → ∀ row ∈ s.targetBindings.rows, (row.2, row.1) ∈ activeTargets s.markets
  claims : ∀ d ∈ s.deliveries.rows, ClaimsFit d
  reservedQty : ∀ d ∈ s.deliveries.rows, d.reservedQty = none ↔ .deliveriesReservedQty ∉ s.objects
  opened : 5 ∉ s.versions → ∀ a ∈ s.accounts.rows, rowsOf s.balanceLedger a.1 = [] ∨ Explained s.balanceLedger a
  reopenable : ∀ m ∈ s.markets.rows, m.reopenable = none ↔ .marketsReopenable ∉ s.objects
  noBookId : .marketsBookId ∉ s.objects → ∀ m ∈ s.markets.rows, m.bookId = none
  notNull : .marketsBookIdNotNull ∈ s.objects → ∀ m ∈ s.markets.rows, m.bookId ≠ none
  unique : (s.books.rows.map (·.itemHash)).Nodup
  assigned : ∀ m ∈ s.markets.rows, ∀ id, m.bookId = some id →
    ∃ b, s.books.get? id = some b ∧ b.itemHash = itemHash sha2 m.item

/-- No row of the start is lost, and no column of one changes once it has a value. -/
structure Preserved (s : Store) : Prop where
  accounts : s.accounts = start.accounts
  markets : List.Forall₂ SameMarket start.markets.rows s.markets.rows
  deliveries : List.Forall₂ SameDelivery start.deliveries.rows s.deliveries.rows
  books : start.books.rows <+: s.books.rows
  ledger : start.balanceLedger.rows <+: s.balanceLedger.rows

/-- The current schema, and everything that was to be derived. -/
structure Upgraded (s : Store) : Prop where
  versions : s.versions = Finset.Icc 1 10
  objects : ∀ o, o ∈ s.objects ↔ o ≠ .marketsTargetKey
  ledger : if 5 ∈ start.versions then s.balanceLedger = start.balanceLedger
    else ∀ a ∈ s.accounts.rows, Explained s.balanceLedger a
  bindings : if 2 ∈ start.versions then s.targetBindings = start.targetBindings
    else ∀ id key, s.targetBindings.find? key = some id ↔ (id, key) ∈ activeTargets s.markets
  columns : (∀ m ∈ s.markets.rows, m.reopenable ≠ none ∧ m.bookId ≠ none) ∧
    ∀ d ∈ s.deliveries.rows, d.reservedQty ≠ none
  grouped : ∀ m ∈ s.markets.rows, ∀ m' ∈ s.markets.rows,
    m.bookId = m'.bookId ↔ itemHash sha2 m.item = itemHash sha2 m'.item

end Invariant

section Objects
variable {sha2 : List UInt8 → List UInt8} {start s : Store}

theorem SameMarket.refl (m : MarketColumns) : SameMarket m m := ⟨rfl, rfl, rfl, fun _ h => h, fun _ h => h⟩

theorem SameDelivery.refl (d : DeliveryColumns) : SameDelivery d d := ⟨rfl, rfl, fun _ h => h⟩

theorem Sound.migrating (h : Sound sha2 s) : Migrating sha2 s s where
  begun := Finset.Subset.refl _
  versions := h.versions
  targets := ⟨fun _ => rfl, h.distinct, h.pointing, fun hnone hsome => absurd hsome hnone⟩
  deliveries := ⟨List.forall₂_same.mpr fun d _ => .refl d, h.claims, h.reservedQty⟩
  ledger := ⟨rfl, List.prefix_refl _, fun _ => rfl, h.opened, fun hnone hsome => absurd hsome hnone⟩
  markets := ⟨List.forall₂_same.mpr fun m _ => .refl m, h.reopenable, h.noBookId, h.notNull⟩
  books := ⟨List.prefix_refl _, h.unique, h.assigned⟩

theorem VersionsSound.first {versions : Finset ℕ} {objects : Finset SchemaObject} (h : VersionsSound versions objects)
    {k : ℕ} (hk : k ∈ versions) : 1 ∈ versions := by
  obtain ⟨n, -, rfl⟩ := h.inOrder
  rw [Finset.mem_Icc] at hk ⊢
  omega

theorem targetKey_not_added (k : ℕ) : .marketsTargetKey ∉ added k := by
  intro h
  unfold added at h
  split at h <;> simp at h

/-- The objects whose coming tells something about the rows. -/
def InRows (o : SchemaObject) : Prop :=
  o = .deliveriesReservedQty ∨ o = .marketsReopenable ∨ o = .marketsBookIdNotNull

instance (o : SchemaObject) : Decidable (InRows o) := inferInstanceAs (Decidable (_ ∨ _))

/-- Objects come, and the legacy key may go, without a change of the rows. -/
theorem Migrating.objects (h : Migrating sha2 start s) {objects : Finset SchemaObject}
    (hgrow : ∀ o ∈ s.objects, o ≠ .marketsTargetKey → o ∈ objects)
    (hkey : 2 ∈ s.versions → .marketsTargetKey ∉ objects) (hnew : ∀ o ∈ objects, InRows o → o ∈ s.objects) :
    Migrating sha2 start { s with objects } := by
  have hiff : ∀ o, InRows o → o ≠ .marketsTargetKey → (o ∉ objects ↔ o ∉ s.objects) := fun o ho hne =>
    not_congr ⟨fun hin => hnew o hin ho, fun hin => hgrow o hin hne⟩
  refine ⟨h.begun, ⟨h.versions.inOrder, fun k hk o ho => ?_, hkey⟩, h.targets, ⟨h.deliveries.same, h.deliveries.fit,
    fun d hd => ?_⟩, h.ledger, ⟨h.markets.same, fun m hm => ?_, fun hnone => ?_, fun hnull => ?_⟩, h.books⟩
  · exact hgrow o (h.versions.recorded k hk o ho) fun heq => targetKey_not_added k (heq ▸ ho)
  · exact (h.deliveries.reservedQty d hd).trans (hiff _ (.inl rfl) (by decide)).symm
  · exact (h.markets.reopenable m hm).trans (hiff _ (.inr (.inl rfl)) (by decide)).symm
  · exact h.markets.noBookId fun hin => hnone (hgrow _ hin (by decide))
  · exact h.markets.notNull (hnew _ hnull (.inr (.inr rfl)))

end Objects

section Rules
variable {sha2 : List UInt8 → List UInt8} {start : Store} {I P Q : Store → Prop} {f : Store → Except Error Store}

theorem execute_recoverable (hP : ∀ s, P s → I s) (hQ : ∀ s, Q s → I s) (hok : ∀ s, P s → ∃ s', f s = .ok s' ∧ Q s')
    (hagain : ∀ s s', Q s → f s = .ok s' → Q s') : Recoverable I P (execute f) fun _ => Q := by
  refine Recoverable.retry hP (fun _ => hQ) (fun s hs => ?_) fun _ s _ s' hs hf => ?_
  · obtain ⟨s', hf, hs'⟩ := hok s hs
    exact ⟨⟨⟩, s', by rw [hf]; rfl, hs'⟩
  · cases hfs : f s with
    | error e => rw [hfs] at hf; cases hf
    | ok t => rw [hfs] at hf; cases hf; exact hagain s _ hs hfs

private theorem query_recoverable {α : Type} (g : Store → α) (hP : ∀ s, P s → I s) :
    Recoverable I P (query g) fun a s => P s ∧ a = g s := by
  refine Recoverable.retry hP (fun _ s hs => hP s hs.1) (fun s hs => ⟨g s, s, rfl, hs, rfl⟩) fun _ s _ s' hs hf => ?_
  cases hf
  exact ⟨hs.1, rfl⟩

theorem execute_twice (hP : ∀ s, P s → I s) (hQ : ∀ s, Q s → P s) (hok : ∀ s, P s → ∃ s', f s = .ok s' ∧ Q s') :
    Recoverable I P (execute f) fun _ => Q := by
  refine execute_recoverable hP (fun s hs => hP s (hQ s hs)) hok fun s s' hs hf => ?_
  obtain ⟨t, ht, hQt⟩ := hok s (hQ s hs)
  cases hf.symm.trans ht
  exact hQt

/-- A question whose answer decides what runs. -/
theorem query_ite {α : Type} {g : Store → Bool} {x y : Program Store Error α} {R : α → Store → Prop}
    (hP : ∀ s, P s → I s) (hx : Recoverable I (fun s => P s ∧ g s = true) x R)
    (hy : Recoverable I (fun s => P s ∧ g s = false) y R) :
    Recoverable I P (do if (← query g) then x else y) R := by
  refine (query_recoverable g hP).bind fun answer => ?_
  cases answer with
  | true => exact hx.conseq (fun s hs => ⟨hs.1, hs.2.symm⟩) fun _ _ h => h
  | false => exact hy.conseq (fun s hs => ⟨hs.1, hs.2.symm⟩) fun _ _ h => h

/-- Where a statement is left out, its effect must be there. -/
theorem onlyIf_recoverable {c : Store → Prop} [DecidablePred c] (hP : ∀ s, P s → I s) (hQ : ∀ s, Q s → I s)
    (hskip : ∀ s, P s → ¬ c s → Q s) (hok : ∀ s, P s → c s → ∃ s', f s = .ok s' ∧ Q s')
    (hagain : ∀ s s', Q s → f s = .ok s' → Q s') :
    Recoverable I P (onlyIf (fun s => decide (c s)) f) fun _ => Q := by
  refine query_ite hP ?_ (Recoverable.pure fun s hs => hskip s hs.1 (of_decide_eq_false hs.2))
  exact execute_recoverable (fun s hs => hP s hs.1) hQ (fun s hs => hok s hs.1 (of_decide_eq_true hs.2)) hagain

private theorem needs_ok {objects : List SchemaObject} {s s' : Store} (h : needs objects f s = .ok s') :
    f s = .ok s' := by
  unfold needs at h
  split_ifs at h
  exact h

/-- A point of a migration: a fact about the state, and objects that are there. -/
structure At (sha2 : List UInt8 → List UInt8) (start : Store) (C : Store → Prop) (os : List SchemaObject) (s : Store) :
    Prop where
  migrating : Migrating sha2 start s
  fact : C s
  present : ∀ o ∈ os, o ∈ s.objects

variable {C D : Store → Prop} {os parents : List SchemaObject} {rows : Store → Except Error Store}

theorem At.needs {s : Store} (h : At sha2 start C os s) (hparents : ∀ o ∈ parents, o ∈ os) :
    needs parents rows s = rows s :=
  if_pos fun o ho => h.present o (hparents o ho)

theorem At.cons {s : Store} (h : At sha2 start C os s) {o : SchemaObject} (ho : o ∈ s.objects) :
    At sha2 start C (o :: os) s :=
  ⟨h.migrating, h.fact, List.forall_mem_cons.mpr ⟨ho, h.present⟩⟩

/-- The tables a new one refers to are there, and its parts say nothing about rows. -/
def Creatable (os parents : List SchemaObject) (table : SchemaObject) (parts : Finset SchemaObject) : Prop :=
  (∀ o ∈ parents, o ∈ os) ∧ (¬ InRows table ∧ table ≠ .marketsTargetKey) ∧ (∀ o ∈ parts, ¬ InRows o) ∧
    (.marketsTargetKey ∈ parts → table ∈ added 1)

instance (os parents : List SchemaObject) (table : SchemaObject) (parts : Finset SchemaObject) :
    Decidable (Creatable os parents table parts) := inferInstanceAs (Decidable (_ ∧ _))

theorem createTable_recoverable {table : SchemaObject} {parts : Finset SchemaObject}
    (hC : ∀ s, C s → C { s with objects := insert table (parts ∪ s.objects) })
    (hnew : Creatable os parents table parts) :
    Recoverable (Migrating sha2 start) (At sha2 start C os) (execute (createTable table parents parts))
      fun _ => At sha2 start C (table :: os) := by
  obtain ⟨hparents, htable, hparts, hkey⟩ := hnew
  have hok : ∀ s, At sha2 start C os s →
      ∃ s', createTable table parents parts s = .ok s' ∧ At sha2 start C (table :: os) s' := by
    intro s hs
    by_cases hin : table ∈ s.objects
    · exact ⟨s, by rw [createTable, if_pos hin], hs.cons hin⟩
    · refine ⟨_, by rw [createTable, if_neg hin, hs.needs hparents],
        hs.migrating.objects ?_ (fun htwo hmem => ?_) ?_, hC _ hs.fact, ?_⟩
      · exact fun o ho _ => Finset.mem_insert_of_mem (Finset.mem_union_right _ ho)
      · rcases Finset.mem_insert.mp hmem with heq | hmem
        · exact htable.2 heq.symm
        · rcases Finset.mem_union.mp hmem with hmem | hmem
          · exact hin (hs.migrating.versions.recorded 1 (hs.migrating.versions.first htwo) table (hkey hmem))
          · exact hs.migrating.versions.targetKey htwo hmem
      · intro o ho hrow
        rcases Finset.mem_insert.mp ho with rfl | ho
        · exact absurd hrow htable.1
        · exact (Finset.mem_union.mp ho).resolve_left fun hmem => hparts o hmem hrow
      · refine List.forall_mem_cons.mpr ⟨Finset.mem_insert_self _ _, fun o ho => ?_⟩
        exact Finset.mem_insert_of_mem (Finset.mem_union_right _ (hs.present o ho))
  refine execute_recoverable (fun s hs => hs.migrating) (fun s hs => hs.migrating) hok fun s s' hs hf => ?_
  rw [createTable, if_pos (hs.present table List.mem_cons_self)] at hf
  cases hf
  exact hs

/-- A statement that leaves the schema alone may run twice. -/
theorem rows_recoverable (hparents : ∀ o ∈ parents, o ∈ os) (hweaken : ∀ s, D s → C s)
    (hok : ∀ s, At sha2 start C os s →
      ∃ s', rows s = .ok s' ∧ s'.objects = s.objects ∧ Migrating sha2 start s' ∧ D s') :
    Recoverable (Migrating sha2 start) (At sha2 start C os) (execute (needs parents rows))
      fun _ => At sha2 start D os := by
  refine execute_twice (fun s hs => hs.migrating) (fun s hs => ⟨hs.migrating, hweaken s hs.fact, hs.present⟩)
    fun s hs => ?_
  obtain ⟨s', hrows, hobjects, hmigrating, hD⟩ := hok s hs
  exact ⟨s', by rw [hs.needs hparents, hrows], hmigrating, hD, hobjects ▸ hs.present⟩

/-- A new object is added once. -/
theorem column_recoverable {o : SchemaObject} {c : Store → Prop} [DecidablePred c]
    (hc : ∀ s, At sha2 start C os s → (c s ↔ o ∉ s.objects)) (hparents : ∀ o ∈ parents, o ∈ os)
    (hok : ∀ s, At sha2 start C os s → o ∉ s.objects → ∃ s', rows s = .ok s' ∧ s'.objects = s.objects ∧
      Migrating sha2 start { s' with objects := insert o s'.objects } ∧ C { s' with objects := insert o s'.objects }) :
    Recoverable (Migrating sha2 start) (At sha2 start C os)
      (onlyIf (fun s => decide (c s)) (addObject o (needs parents rows))) fun _ => At sha2 start C (o :: os) := by
  refine onlyIf_recoverable (fun s hs => hs.migrating) (fun s hs => hs.migrating)
    (fun s hs hnot => hs.cons (not_not.mp fun hout => hnot ((hc s hs).mpr hout)))
    (fun s hs hyes => ?_) fun s s' hs hf => ?_
  · have hout := (hc s hs).mp hyes
    obtain ⟨s', hrows, hobjects, hmigrating, hC'⟩ := hok s hs hout
    refine ⟨_, by rw [addObject, if_neg hout, hs.needs hparents, hrows]; rfl, hmigrating, hC', ?_⟩
    refine List.forall_mem_cons.mpr ⟨Finset.mem_insert_self _ _, fun p hp => Finset.mem_insert_of_mem ?_⟩
    exact hobjects ▸ hs.present p hp
  · rw [addObject, if_pos (hs.present o List.mem_cons_self)] at hf
    cases hf

/-- An object without rows of its own: an index or a constraint. -/
theorem addObject_recoverable {o : SchemaObject} (hC : ∀ s, C s → C { s with objects := insert o s.objects })
    (hparents : ∀ o ∈ parents, o ∈ os) (ho : ¬ InRows o ∧ o ≠ .marketsTargetKey)
    (hrows : ∀ s, At sha2 start C os s → rows s = .ok s) :
    Recoverable (Migrating sha2 start) (At sha2 start C os) (unlessPresent o (addObject o (needs parents rows)))
      fun _ => At sha2 start C (o :: os) := by
  refine column_recoverable (fun s _ => Iff.rfl) hparents fun s hs _ => ⟨s, hrows s hs, rfl, ?_, hC _ hs.fact⟩
  refine hs.migrating.objects (fun p hp _ => Finset.mem_insert_of_mem hp) (fun htwo hmem => ?_) fun p hp hrow => ?_
  · rcases Finset.mem_insert.mp hmem with heq | hmem
    · exact ho.2 heq.symm
    · exact hs.migrating.versions.targetKey htwo hmem
  · rcases Finset.mem_insert.mp hp with rfl | hp
    · exact absurd hrow ho.1
    · exact hp

theorem dropObject_recoverable (hC : ∀ s, C s → C { s with objects := s.objects.erase .marketsTargetKey })
    (hos : .marketsTargetKey ∉ os) :
    Recoverable (Migrating sha2 start) (At sha2 start C os)
      (onlyIf (fun s => decide (.marketsTargetKey ∈ s.objects)) (dropObject .marketsTargetKey))
      fun _ => At sha2 start (fun s => C s ∧ .marketsTargetKey ∉ s.objects) os := by
  refine onlyIf_recoverable (fun s hs => hs.migrating) (fun s hs => hs.migrating)
    (fun s hs hnot => ⟨hs.migrating, ⟨hs.fact, hnot⟩, hs.present⟩) (fun s hs hin => ?_) fun s s' hs hf => ?_
  · have hout : .marketsTargetKey ∉ s.objects.erase .marketsTargetKey := Finset.notMem_erase _ _
    refine ⟨_, by rw [dropObject, if_pos hin], hs.migrating.objects (fun o ho hne => Finset.mem_erase.mpr ⟨hne, ho⟩)
      (fun _ => hout) (fun o ho _ => Finset.mem_of_mem_erase ho), ⟨hC _ hs.fact, hout⟩, fun o ho => ?_⟩
    exact Finset.mem_erase.mpr ⟨fun heq => hos (heq ▸ ho), hs.present o ho⟩
  · rw [dropObject, if_neg hs.fact.2] at hf
    cases hf

/-- The objects of the versions up to `k`. -/
def upTo (k : ℕ) : List SchemaObject := (List.range (k + 1)).flatMap added

/-- Every active market is bound to its target. -/
def Bound (start s : Store) : Prop :=
  2 ∉ start.versions → ∀ t ∈ activeTargets s.markets, s.targetBindings.find? t.2 = some t.1

/-- The ledger explains every balance. -/
def Opened (start s : Store) : Prop := 5 ∉ start.versions → ∀ a ∈ s.accounts.rows, Explained s.balanceLedger a

/-- What must be there when a version is recorded. -/
structure Complete (start : Store) (k : ℕ) (s : Store) : Prop where
  objects : ∀ o ∈ added k, o ∈ s.objects
  targetKey : k = 2 → .marketsTargetKey ∉ s.objects
  bound : k = 2 → Bound start s
  explained : k = 5 → Opened start s

def Recorded (k : ℕ) (s : Store) : Prop := Finset.Icc 1 k ⊆ s.versions

theorem Migrating.record {s : Store} {k : ℕ} (h : Migrating sha2 start s) (hk : k + 1 ≤ 10) (hnew : k + 1 ∉ s.versions)
    (hversions : Recorded k s) (hcomplete : Complete start (k + 1) s) :
    Migrating sha2 start { s with versions := insert (k + 1) s.versions } := by
  have hexact : s.versions = Finset.Icc 1 k := by
    obtain ⟨n, -, hn⟩ := h.versions.inOrder
    have hle : n ≤ k := by
      by_contra hlt
      rw [hn, Finset.mem_Icc] at hnew
      omega
    refine Finset.Subset.antisymm (fun j hj => ?_) hversions
    rw [hn, Finset.mem_Icc] at hj
    exact Finset.mem_Icc.mpr ⟨hj.1, hj.2.trans hle⟩
  refine ⟨h.begun.trans (Finset.subset_insert _ _), ⟨⟨k + 1, hk, ?_⟩, fun j hj => ?_, fun htwo => ?_⟩,
    ⟨h.targets.kept, h.targets.distinct, h.targets.pointing, fun hstart htwo => ?_⟩, h.deliveries,
    ⟨h.ledger.same, h.ledger.grown, h.ledger.kept, h.ledger.opened, fun hstart hfive => ?_⟩, h.markets, h.books⟩
  · ext j
    simp only [hexact, Finset.mem_insert, Finset.mem_Icc]
    omega
  · rcases Finset.mem_insert.mp hj with rfl | hj
    · exact hcomplete.objects
    · exact h.versions.recorded j hj
  · rcases Finset.mem_insert.mp htwo with heq | htwo
    · exact hcomplete.targetKey heq.symm
    · exact h.versions.targetKey htwo
  · rcases Finset.mem_insert.mp htwo with heq | htwo
    · exact hcomplete.bound heq.symm hstart
    · exact h.targets.bound hstart htwo
  · rcases Finset.mem_insert.mp hfive with heq | hfive
    · exact hcomplete.explained heq.symm hstart
    · exact h.ledger.explained hstart hfive

/-- The state in which the body of the next migration runs. -/
def Next (k : ℕ) (s : Store) : Prop := Recorded k s ∧ k + 1 ∉ s.versions

theorem Next.congr {s s' : Store} {k : ℕ} (h : Next k s) (hversions : s'.versions = s.versions) : Next k s' := by
  unfold Next Recorded at h ⊢
  rwa [hversions]

theorem At.complete {s : Store} {k : ℕ} (h : At sha2 start (Next k) os s) (hos : ∀ o ∈ added (k + 1), o ∈ os)
    (hk : k + 1 ≠ 2 ∧ k + 1 ≠ 5) : Migrating sha2 start s ∧ Next k s ∧ Complete start (k + 1) s :=
  ⟨h.migrating, h.fact, fun o ho => h.present o (hos o ho), fun htwo => absurd htwo hk.1,
    fun htwo => absurd htwo hk.1, fun hfive => absurd hfive hk.2⟩

theorem migration_recoverable {k : ℕ} (hpos : 1 ≤ k) (hk : k + 1 ≤ 10) {body : Program Store Error PUnit}
    (hbody : Recoverable (Migrating sha2 start) (At sha2 start (Next k) (upTo k)) body
      fun _ s => Migrating sha2 start s ∧ Next k s ∧ Complete start (k + 1) s) :
    Recoverable (Migrating sha2 start) (fun s => Migrating sha2 start s ∧ Recorded k s) (migration (k + 1) body)
      fun _ s => Migrating sha2 start s ∧ Recorded (k + 1) s := by
  have hextend : ∀ s : Store, Recorded k s → k + 1 ∈ s.versions → Recorded (k + 1) s := by
    intro s hrecorded hin j hj
    rw [Finset.mem_Icc] at hj
    rcases Nat.lt_or_ge k j with hlt | hle
    · exact (show j = k + 1 by omega) ▸ hin
    · exact hrecorded (Finset.mem_Icc.mpr ⟨hj.1, hle⟩)
  have hthere : ∀ s, Migrating sha2 start s → Recorded k s → ∀ o ∈ upTo k, o ∈ s.objects := by
    intro s hs hrecorded o ho
    obtain ⟨j, hj, hadded⟩ := List.mem_flatMap.mp ho
    rw [List.mem_range] at hj
    rcases Nat.eq_zero_or_pos j with rfl | hj'
    · exact absurd hadded List.not_mem_nil
    · exact hs.versions.recorded j (hrecorded (Finset.mem_Icc.mpr ⟨hj', by omega⟩)) o hadded
  refine query_ite (fun s hs => hs.1)
    (Recoverable.pure fun s hs => ⟨hs.1.1, hextend s hs.1.2 (of_decide_eq_true hs.2)⟩) ?_
  have hstart := hbody.conseq (P := fun s => (Migrating sha2 start s ∧ Recorded k s) ∧
      decide (k + 1 ∈ s.versions) = false)
    (fun s hs => ⟨hs.1.1, ⟨hs.1.2, of_decide_eq_false hs.2⟩, hthere s hs.1.1 hs.1.2⟩) fun _ _ h => h
  refine hstart.bind fun _ => execute_recoverable (fun s hs => hs.1) (fun s hs => hs.1) (fun s hs => ?_)
    fun s s' hs hf => ?_
  · obtain ⟨hmigrating, ⟨hrecorded, hnew⟩, hcomplete⟩ := hs
    have hversions : .schemaVersions ∈ s.objects := hthere s hmigrating hrecorded _
      (List.mem_flatMap.mpr ⟨1, List.mem_range.mpr (by omega), List.mem_cons_self⟩)
    refine ⟨_, (if_pos fun o ho => List.mem_singleton.mp ho ▸ hversions).trans (if_neg hnew),
      hmigrating.record hk hnew hrecorded hcomplete, ?_⟩
    exact hextend _ (hrecorded.trans (Finset.subset_insert _ _)) (Finset.mem_insert_self _ _)
  · have hin : k + 1 ∈ s.versions := hs.2 (Finset.mem_Icc.mpr ⟨by omega, le_refl _⟩)
    cases (needs_ok hf).symm.trans (if_pos hin)

end Rules

section Rows
variable {sha2 : List UInt8 → List UInt8} {start s : Store}

theorem SameMarket.trans {m m' m'' : MarketColumns} (h : SameMarket m m') (h' : SameMarket m' m'') : SameMarket m m'' :=
  ⟨h'.targetKey.trans h.targetKey, h'.item.trans h.item, h'.active.trans h.active,
    fun b hb => h'.reopenable b (h.reopenable b hb), fun id hid => h'.bookId id (h.bookId id hid)⟩

theorem SameDelivery.trans {d d' d'' : DeliveryColumns} (h : SameDelivery d d') (h' : SameDelivery d' d'') :
    SameDelivery d d'' :=
  ⟨h'.quantity.trans h.quantity, h'.claimedQty.trans h.claimedQty, fun n hn => h'.reservedQty n (h.reservedQty n hn)⟩

theorem forall₂_map {α : Type} {R : α → α → Prop} (htrans : ∀ a b c, R a b → R b c → R a c) {xs ys : List α}
    {f : α → α} (h : List.Forall₂ R xs ys) (hf : ∀ y ∈ ys, R y (f y)) : List.Forall₂ R xs (ys.map f) := by
  induction h with
  | nil => exact .nil
  | cons hab _ ih =>
    rw [List.forall_mem_cons] at hf
    exact .cons (htrans _ _ _ hab hf.1) (ih hf.2)

/-- A rewrite that keeps targets and activity keeps the active targets. -/
theorem activeTargets_map {f : MarketColumns → MarketColumns}
    (hf : ∀ m, (f m).targetKey = m.targetKey ∧ (f m).active = m.active) (markets : Table MarketColumns) :
    activeTargets ⟨markets.rows.map f⟩ = activeTargets markets := by
  unfold activeTargets Table.entries
  rw [List.zipIdx_map, List.map_map, List.filter_map, List.filter_map, List.map_map, List.map_map]
  simp only [Function.comp_def, Prod.map_fst, Prod.map_snd, Prod.fst_swap, Prod.snd_swap, (hf _).1, (hf _).2, id]

theorem TargetsSound.map {versions : Finset ℕ} {markets : Table MarketColumns} {bindings : KeyedTable String Id}
    {f : MarketColumns → MarketColumns} (h : TargetsSound start versions markets bindings)
    (hf : ∀ m, (f m).targetKey = m.targetKey ∧ (f m).active = m.active) :
    TargetsSound start versions ⟨markets.rows.map f⟩ bindings := by
  have heq := activeTargets_map hf markets
  exact ⟨h.kept, heq ▸ h.distinct, heq ▸ h.pointing, heq ▸ h.bound⟩

private theorem activeTargets_ids {markets : Table MarketColumns} {t u : Id × String} (ht : t ∈ activeTargets markets)
    (hu : u ∈ activeTargets markets) (h : t.1 = u.1) : t = u := by
  unfold activeTargets at ht hu
  obtain ⟨⟨i, m⟩, hm, rfl⟩ := List.mem_map.mp ht
  obtain ⟨⟨j, n⟩, hn, rfl⟩ := List.mem_map.mp hu
  have hm' := Table.mem_entries.mp (List.mem_of_mem_filter hm)
  have hn' := Table.mem_entries.mp (List.mem_of_mem_filter hn)
  cases h
  cases hm'.symm.trans hn'
  rfl

/-- Every object of the schema and the rows after a statement. -/
theorem Migrating.change (h : Migrating sha2 start s) {s' : Store} (hversions : s'.versions = s.versions)
    (hgrow : ∀ o ∈ s.objects, o ≠ .marketsTargetKey → o ∈ s'.objects)
    (hkey : .marketsTargetKey ∈ s'.objects → .marketsTargetKey ∈ s.objects)
    (targets : TargetsSound start s'.versions s'.markets s'.targetBindings)
    (deliveries : DeliveriesSound start s'.objects s'.deliveries)
    (ledger : LedgerSound start s'.versions s'.accounts s'.balanceLedger)
    (markets : MarketsSound start s'.objects s'.markets) (books : BooksSound sha2 start s'.markets s'.books) :
    Migrating sha2 start s' := by
  refine ⟨hversions ▸ h.begun, ⟨hversions ▸ h.versions.inOrder, fun k hk o ho => ?_, fun htwo hmem => ?_⟩, targets,
    deliveries, ledger, markets, books⟩
  · exact hgrow o (h.versions.recorded k (hversions ▸ hk) o ho) fun heq => targetKey_not_added k (heq ▸ ho)
  · exact h.versions.targetKey (hversions ▸ htwo) (hkey hmem)

section Bindings
variable {all : List (Id × String)} {bindings : KeyedTable String Id} {e : Id × MarketColumns}

/-- A market is bound to its target, and no other binding moves. -/
theorem bindMarket_pointing (hkeys : ∀ t ∈ all, ∀ u ∈ all, t.2 = u.2 → t = u)
    (hids : ∀ t ∈ all, ∀ u ∈ all, t.1 = u.1 → t = u)
    (hpointing : ∀ key id, bindings.find? key = some id → (id, key) ∈ all) (he : (e.1, e.2.targetKey) ∈ all) :
    ∃ bindings', bindMarket bindings e = .ok bindings' ∧ bindings'.find? e.2.targetKey = some e.1 ∧
      (∀ key id, bindings.find? key = some id → bindings'.find? key = some id) ∧
      ∀ key id, bindings'.find? key = some id → (id, key) ∈ all := by
  have htaken : (bindings.rows.any fun row => row.1 ≠ e.2.targetKey ∧ row.2 = e.1) = false := by
    rw [List.any_eq_false]
    rintro ⟨key, id⟩ hrow htrue
    obtain ⟨hne, hid⟩ := of_decide_eq_true htrue
    have hin := hpointing key id (KeyedTable.find?_eq_some_iff.mpr hrow)
    exact hne (Prod.mk.inj (hids _ hin _ he hid)).2
  unfold bindMarket
  rw [htaken]
  cases hfind : bindings.find? e.2.targetKey with
  | some id =>
    obtain rfl : id = e.1 := (Prod.mk.inj (hkeys _ (hpointing _ _ hfind) _ he rfl)).1
    have hsame : ∀ key, (bindings.update e.2.targetKey fun _ => e.1).find? key = bindings.find? key := by
      intro key
      rw [KeyedTable.find?_update]
      split_ifs with hkey
      · rw [hkey, hfind]
        rfl
      · rfl
    refine ⟨_, rfl, by rw [hsame, hfind], fun key id h => by rw [hsame, h], fun key id h => hpointing key id ?_⟩
    rwa [hsame] at h
  | none =>
    refine ⟨_, rfl, ?_, fun key id h => ?_, fun key id h => ?_⟩
    · rw [if_neg Bool.false_ne_true, KeyedTable.find?_insert _ hfind, if_pos rfl]
    · have hne : key ≠ e.2.targetKey := fun heq => by rw [heq, hfind] at h; cases h
      rw [if_neg Bool.false_ne_true, KeyedTable.find?_insert _ hfind, if_neg hne, h]
    · rw [if_neg Bool.false_ne_true, KeyedTable.find?_insert _ hfind] at h
      split_ifs at h with hkey
      · cases h
        exact hkey ▸ he
      · exact hpointing key id h

private theorem bindMarkets_pointing (hkeys : ∀ t ∈ all, ∀ u ∈ all, t.2 = u.2 → t = u)
    (hids : ∀ t ∈ all, ∀ u ∈ all, t.1 = u.1 → t = u) (es : List (Id × MarketColumns))
    (hes : ∀ e ∈ es, (e.1, e.2.targetKey) ∈ all)
    (hpointing : ∀ key id, bindings.find? key = some id → (id, key) ∈ all) :
    ∃ bindings', es.foldlM bindMarket bindings = .ok bindings' ∧
      (∀ e ∈ es, bindings'.find? e.2.targetKey = some e.1) ∧
      (∀ key id, bindings.find? key = some id → bindings'.find? key = some id) ∧
      ∀ key id, bindings'.find? key = some id → (id, key) ∈ all := by
  induction es generalizing bindings with
  | nil => exact ⟨bindings, rfl, fun e he => absurd he List.not_mem_nil, fun _ _ h => h, hpointing⟩
  | cons e es ih =>
    rw [List.forall_mem_cons] at hes
    obtain ⟨mid, hmid, hbound, hkeep, hmidPointing⟩ := bindMarket_pointing hkeys hids hpointing hes.1
    obtain ⟨bindings', hrest, hrestBound, hrestKeep, hrestPointing⟩ := ih hes.2 hmidPointing
    refine ⟨bindings', ?_, List.forall_mem_cons.mpr ⟨hrestKeep _ _ hbound, hrestBound⟩,
      fun key id h => hrestKeep _ _ (hkeep _ _ h), hrestPointing⟩
    rw [List.foldlM_cons, hmid]
    exact hrest

end Bindings

section Columns

theorem DeliveriesSound.objects {objects objects' : Finset SchemaObject} {deliveries : Table DeliveryColumns}
    (h : DeliveriesSound start objects deliveries)
    (heq : .deliveriesReservedQty ∈ objects' ↔ .deliveriesReservedQty ∈ objects) :
    DeliveriesSound start objects' deliveries :=
  ⟨h.same, h.fit, fun d hd => (h.reservedQty d hd).trans (not_congr heq.symm)⟩

theorem mem_insert_ne {o p : SchemaObject} {objects : Finset SchemaObject} (hne : p ≠ o) :
    p ∈ insert o objects ↔ p ∈ objects := by
  rw [Finset.mem_insert, or_iff_right hne]

/-- A column is added to deliveries or to markets. -/
theorem Migrating.withObject (h : Migrating sha2 start s) {o : SchemaObject} (ho : o ≠ .marketsTargetKey)
    {deliveries : Table DeliveryColumns} {markets : Table MarketColumns}
    (htargets : TargetsSound start s.versions markets s.targetBindings)
    (hdeliveries : DeliveriesSound start (insert o s.objects) deliveries)
    (hmarkets : MarketsSound start (insert o s.objects) markets) (hbooks : BooksSound sha2 start markets s.books) :
    Migrating sha2 start { s with objects := insert o s.objects, deliveries, markets } :=
  h.change rfl (fun _ hp _ => Finset.mem_insert_of_mem hp) (fun hp => (mem_insert_ne ho.symm).mp hp) htargets hdeliveries
    h.ledger hmarkets hbooks

theorem Migrating.addReservedQty (h : Migrating sha2 start s) (hout : .deliveriesReservedQty ∉ s.objects) :
    Migrating sha2 start { s with
      objects := insert .deliveriesReservedQty s.objects
      deliveries := ⟨s.deliveries.rows.map fun d => { d with reservedQty := some 0 }⟩ } := by
  have hnone : ∀ d ∈ s.deliveries.rows, d.reservedQty = none := fun d hd => (h.deliveries.reservedQty d hd).mpr hout
  refine h.withObject (by decide) h.targets ⟨forall₂_map (fun _ _ _ => .trans) h.deliveries.same fun d hd => ?_, ?_, ?_⟩
    ⟨h.markets.same, fun m hm => ?_, fun hbook => ?_, fun hnull => ?_⟩ h.books
  · exact ⟨rfl, rfl, fun n hn => by rw [hnone d hd] at hn; cases hn⟩
  · rintro _ hmem
    obtain ⟨d, hd, rfl⟩ := List.mem_map.mp hmem
    have hfit := h.deliveries.fit d hd
    unfold ClaimsFit at hfit
    rw [hnone d hd] at hfit
    exact hfit
  · rintro _ hmem
    obtain ⟨d, hd, rfl⟩ := List.mem_map.mp hmem
    exact iff_of_false (by simp) (not_not.mpr (Finset.mem_insert_self _ _))
  · exact (h.markets.reopenable m hm).trans (not_congr (mem_insert_ne (by decide)).symm)
  · exact h.markets.noBookId fun hin => hbook (Finset.mem_insert_of_mem hin)
  · exact h.markets.notNull ((mem_insert_ne (by decide)).mp hnull)

theorem BooksSound.map {markets : Table MarketColumns} {books : Table BookRow} {f : MarketColumns → MarketColumns}
    (h : BooksSound sha2 start markets books) (hitem : ∀ m, (f m).item = m.item)
    (hbook : ∀ m ∈ markets.rows, ∀ id, (f m).bookId = some id →
      m.bookId = some id ∨ ∃ b, books.get? id = some b ∧ b.itemHash = itemHash sha2 m.item) :
    BooksSound sha2 start ⟨markets.rows.map f⟩ books := by
  refine ⟨h.grown, h.unique, fun m' hm' id hid => ?_⟩
  obtain ⟨m, hm, rfl⟩ := List.mem_map.mp hm'
  rw [hitem]
  exact (hbook m hm id hid).elim (h.assigned m hm id) fun hnew => hnew

theorem Migrating.addReopenable (h : Migrating sha2 start s) (hout : .marketsReopenable ∉ s.objects) :
    Migrating sha2 start { s with
      objects := insert .marketsReopenable s.objects
      markets := ⟨s.markets.rows.map fun m => { m with reopenable := some false }⟩ } := by
  have hnone : ∀ m ∈ s.markets.rows, m.reopenable = none := fun m hm => (h.markets.reopenable m hm).mpr hout
  refine h.withObject (by decide) (h.targets.map fun _ => ⟨rfl, rfl⟩) (h.deliveries.objects (mem_insert_ne (by decide)))
    ⟨forall₂_map (fun _ _ _ => .trans) h.markets.same fun m hm => ?_, ?_, ?_, ?_⟩
    (h.books.map (fun _ => rfl) fun _ _ _ => .inl)
  · exact ⟨rfl, rfl, rfl, fun b hb => (by rw [hnone m hm] at hb; cases hb), fun _ h => h⟩
  · rintro _ hmem
    obtain ⟨m, hm, rfl⟩ := List.mem_map.mp hmem
    exact iff_of_false (by simp) (not_not.mpr (Finset.mem_insert_self _ _))
  · rintro hbook _ hmem
    obtain ⟨m, hm, rfl⟩ := List.mem_map.mp hmem
    exact h.markets.noBookId (fun hin => hbook (Finset.mem_insert_of_mem hin)) m hm
  · rintro hnull _ hmem
    obtain ⟨m, hm, rfl⟩ := List.mem_map.mp hmem
    exact h.markets.notNull ((mem_insert_ne (by decide)).mp hnull) m hm

theorem Migrating.addBookId (h : Migrating sha2 start s) (hout : .marketsBookId ∉ s.objects) :
    Migrating sha2 start { s with
      objects := insert .marketsBookId s.objects
      markets := ⟨s.markets.rows.map fun m => { m with bookId := none }⟩ } := by
  have hsame : (s.markets.rows.map fun m => { m with bookId := none }) = s.markets.rows := by
    refine (List.map_congr_left fun m hm => ?_).trans (List.map_id _)
    rw [← h.markets.noBookId hout m hm, id]
  rw [hsame]
  refine h.withObject (by decide) h.targets (h.deliveries.objects (mem_insert_ne (by decide)))
    ⟨h.markets.same, fun m hm => ?_, fun hbook => ?_, fun hnull => ?_⟩ h.books
  · exact (h.markets.reopenable m hm).trans (not_congr (mem_insert_ne (by decide)).symm)
  · exact absurd (Finset.mem_insert_self _ _) hbook
  · exact h.markets.notNull ((mem_insert_ne (by decide)).mp hnull)

theorem Migrating.requireBookIds (h : Migrating sha2 start s) (hassigned : ∀ m ∈ s.markets.rows, m.bookId ≠ none) :
    Migrating sha2 start { s with objects := insert .marketsBookIdNotNull s.objects } := by
  refine h.withObject (by decide) h.targets (h.deliveries.objects (mem_insert_ne (by decide)))
    ⟨h.markets.same, fun m hm => ?_, fun hbook => ?_, fun _ => hassigned⟩ h.books
  · exact (h.markets.reopenable m hm).trans (not_congr (mem_insert_ne (by decide)).symm)
  · exact h.markets.noBookId fun hin => hbook (Finset.mem_insert_of_mem hin)

end Columns

theorem Migrating.bindActiveMarkets (h : Migrating sha2 start s) (htwo : 2 ∉ s.versions) :
    ∃ s', (do
        let targetBindings ← (activeEntries s).foldlM bindMarket s.targetBindings
        return { s with targetBindings } : Except Error Store) = .ok s' ∧ s'.objects = s.objects ∧
      s'.versions = s.versions ∧ Migrating sha2 start s' ∧ Bound start s' := by
  have hstart : 2 ∉ start.versions := fun hin => htwo (h.begun hin)
  have hactive : ∀ e ∈ activeEntries s, (e.1, e.2.targetKey) ∈ activeTargets s.markets :=
    fun e he => List.mem_map.mpr ⟨e, he, rfl⟩
  obtain ⟨bindings, hbind, hbound, -, hpointing⟩ := bindMarkets_pointing (h.targets.distinct hstart)
    (fun t ht u hu => activeTargets_ids ht hu) (activeEntries s) hactive fun key id hfind =>
      h.targets.pointing hstart (key, id) (KeyedTable.find?_eq_some_iff.mp hfind)
  have hall : ∀ t ∈ activeTargets s.markets, bindings.find? t.2 = some t.1 := by
    rintro _ ht
    obtain ⟨e, he, rfl⟩ := List.mem_map.mp ht
    exact hbound e he
  refine ⟨{ s with targetBindings := bindings }, by rw [hbind]; rfl, rfl, rfl, ?_, fun _ => hall⟩
  refine h.change rfl (fun _ ho _ => ho) (fun ho => ho) ⟨fun hin => absurd hin hstart, h.targets.distinct,
    fun _ row hrow => ?_, fun _ _ => hall⟩ h.deliveries h.ledger h.markets h.books
  exact hpointing row.1 row.2 (KeyedTable.find?_eq_some_iff.mpr hrow)

section OpeningBalances
variable {accounts : KeyedTable String Cents} {ledger : Table LedgerColumns} {a : String × Cents}

private theorem filter_key {l : List (String × Cents)} (hl : (l.map Prod.fst).Nodup) (ha : a ∈ l) :
    (l.filter fun b => b.1 = a.1) = [a] := by
  induction l with
  | nil => exact absurd ha List.not_mem_nil
  | cons b l ih =>
    rw [List.map_cons, List.nodup_cons] at hl
    rcases List.mem_cons.mp ha with rfl | ha
    · have hrest : (l.filter fun b => b.1 = a.1) = [] := List.filter_eq_nil_iff.mpr fun c hc hkey =>
        hl.1 (of_decide_eq_true hkey ▸ List.mem_map_of_mem hc)
      rw [List.filter_cons_of_pos (by simp), hrest]
    · have hne : b.1 ≠ a.1 := fun heq => hl.1 (heq ▸ List.mem_map_of_mem ha)
      rw [List.filter_cons_of_neg (by simpa using hne), ih hl.2 ha]

/-- INSERT .. SELECT of the accounts without a ledger row. -/
def opened (accounts : KeyedTable String Cents) (ledger : Table LedgerColumns) : Table LedgerColumns :=
  ⟨ledger.rows ++ (accounts.rows.filter fun a => ledger.rows.all (·.playerUuid ≠ a.1)).map
    fun a => ⟨a.1, a.2, "MIGRATION_OPENING_BALANCE"⟩⟩

private theorem opened_explained (ha : a ∈ accounts.rows) (h : rowsOf ledger a.1 = [] ∨ Explained ledger a) :
    Explained (opened accounts ledger) a := by
  have hrows : rowsOf (opened accounts ledger) a.1 = rowsOf ledger a.1 ++
      ([a].filter fun b => ledger.rows.all (·.playerUuid ≠ b.1)).map
        fun b => ⟨b.1, b.2, "MIGRATION_OPENING_BALANCE"⟩ := by
    rw [← filter_key accounts.nodup ha]
    unfold rowsOf opened
    rw [List.filter_append, List.filter_map, List.filter_filter, List.filter_filter]
    simp only [Function.comp_def, Bool.and_comm]
  unfold Explained
  rw [hrows]
  by_cases hnone : rowsOf ledger a.1 = []
  · have hall : (ledger.rows.all (·.playerUuid ≠ a.1)) = true := by
      rw [List.all_eq_true]
      intro row hrow
      simpa using List.filter_eq_nil_iff.mp hnone row hrow
    rw [hnone, List.filter_cons_of_pos (by exact hall)]
    simp
  · have hsome : ¬ (ledger.rows.all (·.playerUuid ≠ a.1)) = true := by
      intro hall
      rw [List.all_eq_true] at hall
      exact hnone (List.filter_eq_nil_iff.mpr fun row hrow hkey => of_decide_eq_true (hall row hrow)
        (of_decide_eq_true hkey))
    rw [List.filter_cons_of_neg (by exact hsome)]
    rw [List.filter_nil, List.map_nil, List.append_nil]
    exact h.resolve_left hnone

end OpeningBalances

theorem Migrating.recordOpeningBalances (h : Migrating sha2 start s) (hfive : 5 ∉ s.versions) :
    Migrating sha2 start { s with balanceLedger := opened s.accounts s.balanceLedger } ∧
      Opened start { s with balanceLedger := opened s.accounts s.balanceLedger } := by
  have hstart : 5 ∉ start.versions := fun hin => hfive (h.begun hin)
  have hall : ∀ a ∈ s.accounts.rows, Explained (opened s.accounts s.balanceLedger) a :=
    fun a ha => opened_explained ha (h.ledger.opened hstart a ha)
  refine ⟨h.change rfl (fun _ ho _ => ho) (fun ho => ho) h.targets h.deliveries ⟨h.ledger.same,
    h.ledger.grown.trans (List.prefix_append _ _), fun hin => absurd hin hstart, fun _ a ha => .inr (hall a ha),
    fun _ _ => hall⟩ h.markets h.books, fun _ => hall⟩

section Books

private theorem get?_of_prefix {α : Type} {t u : Table α} (h : t.rows <+: u.rows) {id : ℕ} {a : α}
    (ha : t.get? id = some a) :
    u.get? id = some a := by
  obtain ⟨rest, hrest⟩ := h
  cases id with
  | zero => cases ha
  | succ n =>
    exact (congrArg (·[n]?) hrest.symm).trans
      (List.getElem?_append_left (List.getElem?_eq_some_iff.mp ha).1 ▸ ha)

private theorem insertBooks_rows (ms : List MarketColumns) {books : Table BookRow}
    (h : (books.rows.map (·.itemHash)).Nodup) :
    books.rows <+: (ms.foldl (insertBook sha2) books).rows ∧
      ((ms.foldl (insertBook sha2) books).rows.map (·.itemHash)).Nodup ∧
      ∀ m ∈ ms, ∃ b ∈ (ms.foldl (insertBook sha2) books).rows, b.itemHash = itemHash sha2 m.item := by
  induction ms generalizing books with
  | nil => exact ⟨List.prefix_refl _, h, fun m hm => absurd hm List.not_mem_nil⟩
  | cons m ms ih =>
    have hone : books.rows <+: (insertBook sha2 books m).rows ∧
        ((insertBook sha2 books m).rows.map (·.itemHash)).Nodup ∧
        ∃ b ∈ (insertBook sha2 books m).rows, b.itemHash = itemHash sha2 m.item := by
      unfold insertBook
      split_ifs with hthere
      · obtain ⟨b, hb, hhash⟩ := List.any_eq_true.mp hthere
        exact ⟨List.prefix_refl _, h, b, hb, of_decide_eq_true hhash⟩
      · refine ⟨List.prefix_append _ _, ?_, _, List.mem_append_right _ List.mem_cons_self, rfl⟩
        have hnew : itemHash sha2 m.item ∉ books.rows.map (·.itemHash) := by
          intro hmem
          obtain ⟨b, hb, hhash⟩ := List.mem_map.mp hmem
          exact hthere (List.any_eq_true.mpr ⟨b, hb, decide_eq_true hhash⟩)
        unfold Table.insert
        rw [List.map_append, List.map_singleton, ← List.concat_eq_append]
        exact h.concat hnew
    obtain ⟨hgrown, hunique, hcovered⟩ := ih hone.2.1
    refine ⟨hone.1.trans hgrown, hunique, List.forall_mem_cons.mpr ⟨?_, hcovered⟩⟩
    obtain ⟨b, hb, hhash⟩ := hone.2.2
    exact ⟨b, hgrown.subset hb, hhash⟩

/-- Every market has a book. -/
def Covered (sha2 : List UInt8 → List UInt8) (s : Store) : Prop :=
  ∀ m ∈ s.markets.rows, ∃ b ∈ s.books.rows, b.itemHash = itemHash sha2 m.item

theorem Migrating.insertBooks (h : Migrating sha2 start s) :
    Migrating sha2 start { s with books := s.markets.rows.foldl (insertBook sha2) s.books } ∧
      Covered sha2 { s with books := s.markets.rows.foldl (insertBook sha2) s.books } := by
  obtain ⟨hgrown, hunique, hcovered⟩ := @insertBooks_rows sha2 s.markets.rows _ h.books.unique
  refine ⟨h.change rfl (fun _ ho _ => ho) (fun ho => ho) h.targets h.deliveries h.ledger h.markets
    ⟨h.books.grown.trans hgrown, hunique, fun m hm id hid => ?_⟩, hcovered⟩
  obtain ⟨b, hb, hhash⟩ := h.books.assigned m hm id hid
  exact ⟨b, get?_of_prefix hgrown hb, hhash⟩

theorem bookWith_some {books : Table BookRow} {hash : List UInt8} (h : ∃ b ∈ books.rows, b.itemHash = hash) :
    ∃ id b, bookWith books hash = some id ∧ books.get? id = some b ∧ b.itemHash = hash := by
  obtain ⟨b, hb, hhash⟩ := h
  obtain ⟨id, hid⟩ := Table.mem_rows_iff.mp hb
  have hsome : (books.entries.find? (·.2.itemHash = hash)).isSome :=
    List.find?_isSome.mpr ⟨(id, b), Table.mem_entries.mpr hid, decide_eq_true hhash⟩
  obtain ⟨e, he⟩ := Option.isSome_iff_exists.mp hsome
  refine ⟨e.1, e.2, by rw [bookWith, he]; rfl, Table.mem_entries.mp (List.mem_of_find?_eq_some he), ?_⟩
  simpa using List.find?_some he

/-- Every market has its book id. -/
def Assigned (s : Store) : Prop := ∀ m ∈ s.markets.rows, m.bookId ≠ none

theorem Migrating.assignBooks (h : Migrating sha2 start s) (hcovered : Covered sha2 s)
    (hcolumn : .marketsBookId ∈ s.objects) :
    Migrating sha2 start { s with markets := ⟨s.markets.rows.map fun m =>
        if m.bookId = none then { m with bookId := bookWith s.books (itemHash sha2 m.item) } else m⟩ } ∧
      Assigned { s with markets := ⟨s.markets.rows.map fun m =>
        if m.bookId = none then { m with bookId := bookWith s.books (itemHash sha2 m.item) } else m⟩ } := by
  have hassigned : Assigned { s with markets := ⟨s.markets.rows.map fun m =>
      if m.bookId = none then { m with bookId := bookWith s.books (itemHash sha2 m.item) } else m⟩ } := by
    rintro _ hmem
    obtain ⟨m, hm, rfl⟩ := List.mem_map.mp hmem
    obtain ⟨id, b, hid, -⟩ := bookWith_some (hcovered m hm)
    split_ifs with hnone
    · rw [hid]
      exact Option.some_ne_none id
    · exact hnone
  refine ⟨h.change rfl (fun _ ho _ => ho) (fun ho => ho) (h.targets.map fun m => ?_) h.deliveries h.ledger
    ⟨forall₂_map (fun _ _ _ => .trans) h.markets.same fun m hm => ?_, ?_, fun hout => absurd hcolumn hout,
      fun _ => hassigned⟩ (h.books.map (fun m => ?_) fun m hm id hid => ?_), hassigned⟩
  · split_ifs <;> exact ⟨rfl, rfl⟩
  · split_ifs with hnone
    · exact ⟨rfl, rfl, rfl, fun _ h => h, fun id hid => absurd (hnone.symm.trans hid) (Option.some_ne_none id).symm⟩
    · exact .refl m
  · rintro _ hmem
    obtain ⟨m, hm, rfl⟩ := List.mem_map.mp hmem
    rw [← h.markets.reopenable m hm]
    split_ifs <;> rfl
  · split_ifs <;> rfl
  · split_ifs at hid
    · obtain ⟨id', b, hid', hb, hhash⟩ := bookWith_some (hcovered m hm)
      cases hid'.symm.trans hid
      exact .inr ⟨b, hb, hhash⟩
    · exact .inl hid

end Books

end Rows

section Outcome
variable {sha2 : List UInt8 → List UInt8} {start s : Store}

theorem Migrating.preserved (h : Migrating sha2 start s) : Preserved start s :=
  ⟨h.ledger.same, h.markets.same, h.deliveries.same, h.books.grown, h.ledger.grown⟩

private theorem exists_added {o : SchemaObject} (ho : o ≠ .marketsTargetKey) : ∃ k ∈ Finset.Icc 1 10, o ∈ added k := by
  cases o <;> first | exact absurd rfl ho | decide

theorem BooksSound.id_inj {markets : Table MarketColumns} {books : Table BookRow}
    (h : BooksSound sha2 start markets books)
    {id id' : Id} {b b' : BookRow} (hb : books.get? id = some b) (hb' : books.get? id' = some b')
    (hhash : b.itemHash = b'.itemHash) : id = id' := by
  cases id with
  | zero => cases hb
  | succ i =>
    cases id' with
    | zero => cases hb'
    | succ j =>
      have hrow : books.rows[i]? = some b := hb
      have hrow' : books.rows[j]? = some b' := hb'
      refine congrArg Nat.succ ((List.getElem?_inj ?_ h.unique).mp ?_)
      · rw [List.length_map]
        exact (List.getElem?_eq_some_iff.mp hrow).1
      · rw [List.getElem?_map, List.getElem?_map, hrow, hrow']
        exact congrArg some hhash

/-- Two markets share a book id exactly where their items have one hash. -/
theorem BooksSound.grouped {markets : Table MarketColumns} {books : Table BookRow}
    (h : BooksSound sha2 start markets books) (hassigned : ∀ m ∈ markets.rows, m.bookId ≠ none) {m m' : MarketColumns}
    (hm : m ∈ markets.rows) (hm' : m' ∈ markets.rows) :
    m.bookId = m'.bookId ↔ itemHash sha2 m.item = itemHash sha2 m'.item := by
  obtain ⟨id, hid⟩ := Option.ne_none_iff_exists'.mp (hassigned m hm)
  obtain ⟨id', hid'⟩ := Option.ne_none_iff_exists'.mp (hassigned m' hm')
  obtain ⟨b, hb, hhash⟩ := h.assigned m hm id hid
  obtain ⟨b', hb', hhash'⟩ := h.assigned m' hm' id' hid'
  rw [hid, hid', ← hhash, ← hhash']
  refine ⟨fun heq => ?_, fun heq => congrArg some (h.id_inj hb hb' heq)⟩
  cases heq
  cases hb.symm.trans hb'
  rfl

theorem Migrating.upgraded (h : Migrating sha2 start s) (hall : Recorded 10 s) : Upgraded sha2 start s := by
  have hversions : s.versions = Finset.Icc 1 10 := by
    obtain ⟨n, hn, heq⟩ := h.versions.inOrder
    refine Finset.Subset.antisymm (fun k hk => ?_) hall
    rw [heq, Finset.mem_Icc] at hk
    exact Finset.mem_Icc.mpr ⟨hk.1, hk.2.trans hn⟩
  have hrecorded : ∀ k ∈ Finset.Icc 1 10, k ∈ s.versions := fun k hk => hversions ▸ hk
  have hthere : ∀ o, o ≠ .marketsTargetKey → o ∈ s.objects := by
    intro o ho
    obtain ⟨k, hk, hadded⟩ := exists_added ho
    exact h.versions.recorded k (hrecorded k hk) o hadded
  have hassigned := h.markets.notNull (hthere _ (by decide))
  refine ⟨hversions, fun o => ⟨?_, hthere o⟩, ?_, ?_, ⟨fun m hm => ⟨?_, hassigned m hm⟩, fun d hd => ?_⟩,
    fun m hm m' hm' => h.books.grouped hassigned hm hm'⟩
  · rintro hin rfl
    exact h.versions.targetKey (hrecorded 2 (by decide)) hin
  · split_ifs with hfive
    · exact h.ledger.kept hfive
    · exact h.ledger.explained hfive (hrecorded 5 (by decide))
  · split_ifs with htwo
    · exact h.targets.kept htwo
    · refine fun id key => ⟨fun hfind => ?_, fun hactive => ?_⟩
      · exact h.targets.pointing htwo (key, id) (KeyedTable.find?_eq_some_iff.mp hfind)
      · exact h.targets.bound htwo (hrecorded 2 (by decide)) _ hactive
  · exact fun hnone => (h.markets.reopenable m hm).mp hnone (hthere _ (by decide))
  · exact fun hnone => (h.deliveries.reservedQty d hd).mp hnone (hthere _ (by decide))

end Outcome

end EndstoneExchange.MigrationSteps
