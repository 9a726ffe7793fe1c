import EndstoneExchange.ItemIdentity
import EndstoneExchange.RecoverablePrograms

/-!
# Schema migrations

`Database::migrate` brings the schema of any earlier release, or an empty database, to the
current version. A definition statement commits by itself, so a run may stop between any two.
-/
namespace EndstoneExchange.SchemaMigrations
open AutoIncrementTables KeyedTables DurablePrograms RecoverablePrograms ExchangeDomain
open ItemIdentity (preimage)

section Schema

/-- The tables, and the columns, indexes and constraints that migrations add or drop. -/
inductive SchemaObject where
  | schemaVersions | accounts | markets | orders | trades | deliveries
  | targetBindings | deliveryClaims | sellEscrows | balanceLedger | books
  | economyTransfers | frameListings | frameListingBindings
  | marketsTargetKey | marketsTargetHistory | deliveriesReservedQty | deliveriesClaimsCheck
  | marketsReopenable | marketsBookId | marketsBookIdNotNull | marketsBookIndex | marketsBookForeignKey
  | transfersBalanceBefore
  deriving DecidableEq, Repr

/-- A market row; a column that does not exist yet, or is NULL, is `none`. -/
structure MarketColumns where
  targetKey : String
  item : ItemPrototype
  active : Bool
  reopenable : Option Bool := none
  bookId : Option Id := none
  deriving DecidableEq, Repr

structure DeliveryColumns where
  quantity : ℤ
  claimedQty : ℤ
  reservedQty : Option ℤ := none
  deriving DecidableEq, Repr

structure LedgerColumns where
  playerUuid : String
  deltaCents : Cents
  reason : String
  deriving DecidableEq, Repr

/-- The schema, and the rows that a migration reads or writes. -/
structure Store where
  objects : Finset SchemaObject := ∅
  versions : Finset ℕ := ∅
  accounts : KeyedTable String Cents := .empty
  markets : Table MarketColumns := {}
  deliveries : Table DeliveryColumns := {}
  targetBindings : KeyedTable String Id := .empty
  balanceLedger : Table LedgerColumns := {}
  books : Table BookRow := {}

end Schema

section Statements

def lost : Error := .database "lost connection to MySQL server"

/-- Outside of a transaction a statement whose connection is lost is sent once more. -/
def execute (statement : Store → Except Error Store) : Program Store Error PUnit :=
  retry lost fun s => (statement s).map (⟨⟩, ·)

def query {α : Type} (f : Store → α) : Program Store Error α := retry lost fun s => .ok (f s, s)

/-- A statement names tables and columns, or refers to them by a foreign key. -/
def needs (objects : List SchemaObject) (statement : Store → Except Error Store) (s : Store) : Except Error Store :=
  if ∀ o ∈ objects, o ∈ s.objects then statement s else .error (.database "doesn't exist")

/-- CREATE TABLE IF NOT EXISTS, with the tables it refers to and the parts that later migrations
look for. -/
def createTable (table : SchemaObject) (parents : List SchemaObject) (parts : Finset SchemaObject) (s : Store) :
    Except Error Store :=
  if table ∈ s.objects then .ok s
  else needs parents (fun s => .ok { s with objects := insert table (parts ∪ s.objects) }) s

/-- ALTER TABLE .. ADD and CREATE INDEX, with what the statement does to the rows. -/
def addObject (object : SchemaObject) (rows : Store → Except Error Store) (s : Store) : Except Error Store :=
  if object ∈ s.objects then .error (.database "duplicate name")
  else (rows s).map fun s => { s with objects := insert object s.objects }

def dropObject (object : SchemaObject) (s : Store) : Except Error Store :=
  if object ∈ s.objects then .ok { s with objects := s.objects.erase object } else .error (.database "can't drop")

def recordVersion (version : ℕ) : Store → Except Error Store :=
  needs [.schemaVersions] fun s =>
    if version ∈ s.versions then .error (.database "duplicate entry")
    else .ok { s with versions := insert version s.versions }

/-- INSERT IGNORE INTO exchange_schema_versions(version) VALUES (1). -/
def recordFirstVersion : Store → Except Error Store :=
  needs [.schemaVersions] fun s => .ok { s with versions := insert 1 s.versions }

/-- One row of INSERT .. ON DUPLICATE KEY UPDATE market_id=VALUES(market_id); both columns are
unique. -/
def bindMarket (bindings : KeyedTable String Id) (e : Id × MarketColumns) : Except Error (KeyedTable String Id) :=
  let taken := bindings.rows.any fun row => row.1 ≠ e.2.targetKey ∧ row.2 = e.1
  match bindings.find? e.2.targetKey with
  | some _ =>
    if taken then .error (.database "duplicate entry") else .ok (bindings.update e.2.targetKey fun _ => e.1)
  | none => .ok (if taken then bindings else bindings.insert e.2.targetKey e.1)

/-- SELECT target_key, id FROM exchange_markets WHERE active=1. -/
def activeEntries (s : Store) : List (Id × MarketColumns) := s.markets.entries.filter (·.2.active)

def bindActiveMarkets : Store → Except Error Store :=
  needs [.targetBindings, .markets] fun s => do
    let targetBindings ← (activeEntries s).foldlM bindMarket s.targetBindings
    return { s with targetBindings }

def addReservedQty : Store → Except Error Store :=
  needs [.deliveries] fun s =>
    .ok { s with deliveries := ⟨s.deliveries.rows.map fun d => { d with reservedQty := some 0 }⟩ }

def checkClaims : Store → Except Error Store :=
  needs [.deliveries, .deliveriesReservedQty] fun s =>
    if ∀ d ∈ s.deliveries.rows, 0 ≤ d.claimedQty ∧ 0 ≤ d.reservedQty.getD 0 ∧
        d.claimedQty + d.reservedQty.getD 0 ≤ d.quantity then .ok s
    else .error (.database "check constraint is violated")

/-- INSERT .. SELECT .. WHERE NOT EXISTS a ledger row of the account. -/
def recordOpeningBalances : Store → Except Error Store :=
  needs [.balanceLedger, .accounts] fun s =>
    .ok { s with balanceLedger := ⟨s.balanceLedger.rows ++
      (s.accounts.rows.filter fun a => s.balanceLedger.rows.all (·.playerUuid ≠ a.1)).map
        fun a => ⟨a.1, a.2, "MIGRATION_OPENING_BALANCE"⟩⟩ }

def addReopenable : Store → Except Error Store :=
  needs [.markets] fun s =>
    .ok { s with markets := ⟨s.markets.rows.map fun m => { m with reopenable := some false }⟩ }

variable (sha2 : List UInt8 → List UInt8)

def itemHash (item : ItemPrototype) : List UInt8 := sha2 (preimage item)

/-- One row of INSERT IGNORE INTO exchange_books. -/
def insertBook (books : Table BookRow) (m : MarketColumns) : Table BookRow :=
  if books.rows.any (·.itemHash = itemHash sha2 m.item) then books
  else books.insert ⟨m.item.type, m.item.data, m.item.nbt, m.item.name, itemHash sha2 m.item⟩

def insertBooks : Store → Except Error Store :=
  needs [.books, .markets] fun s => .ok { s with books := s.markets.rows.foldl (insertBook sha2) s.books }

def addBookId : Store → Except Error Store :=
  needs [.markets] fun s => .ok { s with markets := ⟨s.markets.rows.map fun m => { m with bookId := none }⟩ }

def bookWith (books : Table BookRow) (hash : List UInt8) : Option Id :=
  (books.entries.find? (·.2.itemHash = hash)).map Prod.fst

/-- UPDATE exchange_markets m JOIN exchange_books b .. SET m.book_id=b.id WHERE m.book_id IS NULL. -/
def assignBooks : Store → Except Error Store :=
  needs [.markets, .books, .marketsBookId] fun s =>
    .ok { s with markets := ⟨s.markets.rows.map fun m =>
      if m.bookId = none then { m with bookId := bookWith s.books (itemHash sha2 m.item) } else m⟩ }

def requireBookIds : Store → Except Error Store :=
  needs [.markets, .marketsBookId] fun s =>
    if s.markets.rows.any (·.bookId = none) then .error (.database "column cannot be null") else .ok s

def requireBooks : Store → Except Error Store :=
  needs [.markets, .marketsBookId, .books] fun s =>
    if s.markets.rows.all fun m => m.bookId.all fun id => (s.books.get? id).isSome then .ok s
    else .error (.database "foreign key constraint fails")

end Statements

section Migrations
variable (sha2 : List UInt8 → List UInt8)

/-- A statement that depends on what a query of the schema finds. -/
def onlyIf (condition : Store → Bool) (statement : Store → Except Error Store) : Program Store Error PUnit := do
  if (← query condition) then execute statement else return ⟨⟩

def unlessPresent (object : SchemaObject) (statement : Store → Except Error Store) : Program Store Error PUnit :=
  onlyIf (fun s => decide (object ∉ s.objects)) statement

def migration (version : ℕ) (body : Program Store Error PUnit) : Program Store Error PUnit := do
  if (← query fun s => decide (version ∈ s.versions)) then return ⟨⟩
  else do
    body
    execute (recordVersion version)

def version1 : List (Store → Except Error Store) :=
  [createTable .schemaVersions [] ∅, createTable .accounts [] ∅, createTable .markets [] {.marketsTargetKey},
    createTable .orders [.markets, .accounts] ∅, createTable .trades [.markets] ∅,
    createTable .deliveries [.markets] ∅, recordFirstVersion]

def version2 : Program Store Error PUnit := do
  execute (createTable .targetBindings [.markets] ∅)
  execute bindActiveMarkets
  onlyIf (fun s => decide (.marketsTargetKey ∈ s.objects)) (dropObject .marketsTargetKey)
  unlessPresent .marketsTargetHistory (addObject .marketsTargetHistory (needs [.markets] .ok))

def version3 : Program Store Error PUnit := do
  unlessPresent .deliveriesReservedQty (addObject .deliveriesReservedQty addReservedQty)
  unlessPresent .deliveriesClaimsCheck (addObject .deliveriesClaimsCheck checkClaims)
  execute (createTable .deliveryClaims [.deliveries] ∅)

def version4 : Program Store Error PUnit :=
  execute (createTable .sellEscrows [.markets, .accounts, .orders] ∅)

def version5 : Program Store Error PUnit := do
  execute (createTable .balanceLedger [.accounts] ∅)
  execute recordOpeningBalances

def version6 : Program Store Error PUnit :=
  unlessPresent .marketsReopenable (addObject .marketsReopenable addReopenable)

def version7 : Program Store Error PUnit := do
  execute (createTable .books [] ∅)
  execute (insertBooks sha2)
  unlessPresent .marketsBookId (addObject .marketsBookId addBookId)
  execute (assignBooks sha2)
  if (← query fun s => s.markets.rows.any (·.bookId = none)) then
    throw (.database "schema migration 7 could not assign every market to an order book")
  else do
    onlyIf (fun s => decide (.marketsBookId ∈ s.objects ∧ .marketsBookIdNotNull ∉ s.objects))
      (addObject .marketsBookIdNotNull requireBookIds)
    unlessPresent .marketsBookIndex (addObject .marketsBookIndex (needs [.markets, .marketsBookId] .ok))
    unlessPresent .marketsBookForeignKey (addObject .marketsBookForeignKey requireBooks)

def version8 : Program Store Error PUnit :=
  execute (createTable .economyTransfers [.accounts] {.transfersBalanceBefore})

def version9 : Program Store Error PUnit := do
  execute (createTable .frameListings [.accounts] ∅)
  execute (createTable .frameListingBindings [.frameListings] ∅)

def version10 : Program Store Error PUnit :=
  unlessPresent .transfersBalanceBefore (addObject .transfersBalanceBefore (needs [.economyTransfers] .ok))

/-- `Database::migrate`. -/
def migrate : Program Store Error PUnit := do
  Program.forEach execute version1
  migration 2 version2
  migration 3 version3
  migration 4 version4
  migration 5 version5
  migration 6 version6
  migration 7 (version7 sha2)
  migration 8 version8
  migration 9 version9
  migration 10 version10

end Migrations

end EndstoneExchange.SchemaMigrations
