import EndstoneExchange.DurablePrograms

/-!
# The database connection

One client handle, the session behind it and the server's data. The schedule
decides at every round trip whether the session is lost, before or after the server
acted. A lost session takes its open transaction with it.
-/
namespace EndstoneExchange.DatabaseConnections
open DurablePrograms

inductive DatabaseError where
  | notConnected
  | reconnectInTransaction
  | initFailed
  | connectionFailed
  | selectFailed
  | pingFailed
  | statementFailed (what : String)
  | resultFailed
  | alreadyActive
  deriving DecidableEq, Repr

/-- What `mysql_errno` says: a lost session, or an error of the statement itself. -/
inductive MySqlError where
  | disconnected
  | rejected (what : String)
  deriving DecidableEq, Repr

/-- `isDisconnectError`. -/
def MySqlError.isDisconnectError : MySqlError → Bool
  | disconnected => true
  | rejected _ => false

/-- A statement reads and writes the data, or is rejected without an effect. -/
inductive Sql (σ ρ : Type) where
  | statement (run : σ → Except String (ρ × σ))
  | startTransaction
  | commit
  | setup

/-- A null handle, a handle without a session, or a session and its open transaction. -/
inductive Handle (σ : Type) where
  | null
  | lost
  | live (work : Option σ)

structure Link (σ : Type) where
  committed : σ
  handle : Handle σ := .null
  inTransaction : Bool := false
  reconnecting : Bool := false
  /-- The number of sessions opened so far. -/
  session : ℕ := 0
  /-- The session of each executed statement and whether a transaction was open. -/
  executed : List (ℕ × Bool) := []

variable {σ ρ : Type}

abbrev Client (σ α : Type) := Program (Link σ) DatabaseError α

section Server

/-- The server acts on one statement. START TRANSACTION commits what is still open. -/
def serve (work : Option σ) (s : Link σ) : Sql σ ρ → Except MySqlError (Option ρ) × Link σ
  | .statement run =>
    match run (work.getD s.committed) with
    | .error what => (.error (.rejected what), s)
    | .ok (rows, data) =>
      let s := { s with executed := s.executed ++ [(s.session, work.isSome)] }
      match work with
      | some _ => (.ok (some rows), { s with handle := .live (some data) })
      | none => (.ok (some rows), { s with committed := data })
  | .startTransaction =>
    let data := work.getD s.committed
    (.ok none, { s with committed := data, handle := .live (some data) })
  | .commit => (.ok none, { s with committed := work.getD s.committed, handle := .live none })
  | .setup => (.ok none, s)

def lose (s : Link σ) : Link σ := { s with handle := .lost }

/-- `mysql_real_query`. -/
def mysqlRealQuery (sql : Sql σ ρ) : Client σ (Except MySqlError (Option ρ)) :=
  Program.call fun fault s =>
    match s.handle, fault with
    | .live work, .proceed => let r := serve work s sql; (.ok r.1, r.2)
    | .live work, .failAfter => (.ok (.error .disconnected), lose (serve work s sql).2)
    | .live _, _ => (.ok (.error .disconnected), lose s)
    | _, _ => (.ok (.error .disconnected), s)

/-- A round trip without an effect: `mysql_ping`, or the rows of a result. -/
def roundTrip : Client σ Bool :=
  Program.call fun fault s =>
    match s.handle, fault with
    | .live _, .proceed => (.ok true, s)
    | .live _, _ => (.ok false, lose s)
    | _, _ => (.ok false, s)

end Server

section Database

def ensureConnected : Client σ PUnit := fun fs s =>
  match s.handle with
  | .null => (.threw .notConnected, fs, s)
  | _ => (.returned ⟨⟩, fs, s)

def setReconnecting (reconnecting : Bool) : Client σ PUnit :=
  fun fs s => (.returned ⟨⟩, fs, { s with reconnecting })

def setInTransaction (inTransaction : Bool) : Client σ PUnit :=
  fun fs s => (.returned ⟨⟩, fs, { s with inTransaction })

def mayReconnect (error : MySqlError) : Client σ Bool :=
  fun fs s => (.returned (!s.inTransaction && !s.reconnecting && error.isDisconnectError), fs, s)

/-- `reconnecting` is set around the connection attempt, whatever comes of it. -/
def reconnect (connect : Client σ PUnit) : Client σ PUnit := do
  setReconnecting true
  try
    connect
    setReconnecting false
  catch error =>
    setReconnecting false
    throw error

/-- The shared body of `execute` and `query` up to the result. -/
def submit (connect : Client σ PUnit) (sql : Sql σ ρ) : Client σ (Option ρ) := do
  ensureConnected
  let answer ← mysqlRealQuery sql
  match answer with
  | .ok rows => return rows
  | .error error =>
    let retry ← mayReconnect error
    if retry then
      reconnect connect
      let answer ← mysqlRealQuery sql
      match answer with
      | .ok rows => return rows
      | .error _ => throw (DatabaseError.statementFailed "after reconnect")
    else throw (DatabaseError.statementFailed "")

/-- Opens a new session in place of the old one. -/
def openSession : Client σ PUnit :=
  Program.call fun fault s =>
    match fault with
    | .proceed =>
      (.ok ⟨⟩, { s with handle := .live none, session := s.session + 1, inTransaction := false })
    | _ => (.error .connectionFailed, { s with handle := .lost, inTransaction := false })

/-- Closes the handle and allocates a new one. -/
def resetHandle : Client σ PUnit :=
  Program.call fun fault s =>
    match fault with
    | .proceed => (.ok ⟨⟩, { s with handle := .lost })
    | _ => (.error .initFailed, { s with handle := .null })

def refuseInTransaction (error : DatabaseError) : Client σ PUnit := fun fs s =>
  if s.inTransaction then (.threw error, fs, s) else (.returned ⟨⟩, fs, s)

/-- `connect`, over the `execute` that its own statements use. -/
def connectWith (execute : Sql σ PUnit → Client σ (Option PUnit)) : Client σ PUnit := do
  refuseInTransaction .reconnectInTransaction
  resetHandle
  openSession
  let _ ← execute .setup
  let selected ← roundTrip
  if !selected then throw DatabaseError.selectFailed
  let _ ← execute .setup
  let _ ← execute .setup

/-- The connection attempt inside `execute`, `query` and `ping`: `reconnecting` is set, so its
statements never attempt another. -/
def connectAgain : Client σ PUnit := connectWith (submit (throw DatabaseError.connectionFailed))

def execute (sql : Sql σ ρ) : Client σ PUnit := do
  let _ ← submit connectAgain sql

def query (sql : Sql σ ρ) : Client σ (Option ρ) := do
  let rows ← submit connectAgain sql
  let fetched ← roundTrip
  if !fetched then throw DatabaseError.resultFailed
  return rows

def ping : Client σ PUnit := do
  ensureConnected
  let alive ← roundTrip
  if alive then return ⟨⟩
  else
    let retry ← mayReconnect .disconnected
    if retry then reconnect connectAgain
    else throw DatabaseError.pingFailed

def begin : Client σ PUnit := do
  refuseInTransaction .alreadyActive
  execute (ρ := PUnit) .startTransaction
  setInTransaction true

def commit : Client σ PUnit := do
  execute (ρ := PUnit) .commit
  setInTransaction false

/-- `mysql_rollback` may lose the session as well; its result is ignored. -/
def rollback : Client σ PUnit :=
  Program.call fun fault s =>
    match s.handle, fault with
    | .null, _ => (.ok ⟨⟩, s)
    | .live _, .proceed => (.ok ⟨⟩, { s with handle := .live none, inTransaction := false })
    | _, _ => (.ok ⟨⟩, { s with handle := .lost, inTransaction := false })

end Database

section Transactions

/-- The body of a transactional block. It sees the result of each call and may catch its
exceptions; a successful commit ends the block. -/
inductive Block (σ ρ α : Type) where
  | leave (result : Except DatabaseError α)
  | execute (sql : σ → Except String (ρ × σ)) (next : Except DatabaseError PUnit → Block σ ρ α)
  | query (sql : σ → Except String (ρ × σ)) (next : Except DatabaseError (Option ρ) → Block σ ρ α)
  | ping (next : Except DatabaseError PUnit → Block σ ρ α)
  | commit (result : α) (next : DatabaseError → Block σ ρ α)

variable {α : Type}

def attempt {β : Type} (x : Client σ β) : Client σ (Except DatabaseError β) :=
  tryCatch (x >>= fun b => pure (.ok b)) fun error => pure (.error error)

/-- The block after `begin`; leaving it without a commit rolls back. -/
def Block.run : Block σ ρ α → Client σ α
  | leave result => do
    rollback
    Program.ofExcept result
  | execute sql next => do
    let result ← attempt (DatabaseConnections.execute (.statement sql))
    (next result).run
  | query sql next => do
    let result ← attempt (DatabaseConnections.query (.statement sql))
    (next result).run
  | ping next => do
    let result ← attempt DatabaseConnections.ping
    (next result).run
  | commit result next => do
    let committed ← attempt DatabaseConnections.commit
    match committed with
    | .ok _ => return result
    | .error error => (next error).run

/-- `Transaction transaction(database_); ..` -/
def transactional (b : Block σ ρ α) : Client σ α := do
  begin
  b.run

end Transactions
end EndstoneExchange.DatabaseConnections
