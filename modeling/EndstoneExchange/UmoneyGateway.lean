import EndstoneExchange.TransferLedger

/-!
# Transfers against UMoney balances

A transfer remembers the balance it was prepared at, and every attempt infers from
the current balance whether its change has been made. The gateway may raise before
or after a change took effect.
-/
namespace EndstoneExchange.UmoneyGateway
open AutoIncrementTables KeyedTables AtomicTransactions.Transaction DurablePrograms ExchangeDomain
  ExchangeTransactions EconomyTransferOperations ServiceRuns

inductive UmoneyMutationDecision | apply | alreadyApplied | conflict | insufficient
  deriving DecidableEq, Repr

def decideUmoneyMutation (direction : EconomyTransferDirection)
    (amountUnits balanceBeforeUnits currentBalanceUnits : ℤ) : UmoneyMutationDecision :=
  let judge (expectedBalance : ℤ) : UmoneyMutationDecision :=
    if currentBalanceUnits = expectedBalance then .alreadyApplied
    else if currentBalanceUnits = balanceBeforeUnits then .apply
    else .conflict
  if amountUnits ≤ 0 then .conflict
  else match direction with
  | .deposit =>
    if balanceBeforeUnits < amountUnits then
      if currentBalanceUnits = balanceBeforeUnits then .insufficient else .conflict
    else judge (balanceBeforeUnits - amountUnits)
  | .withdraw =>
    if balanceBeforeUnits > maxCents - amountUnits then .conflict
    else judge (balanceBeforeUnits + amountUnits)

/-- The database, the UMoney balances by player name, and how many changes took effect for
each transfer. -/
structure Economy where
  db : Db
  money : String → Option ℤ
  applied : Id → ℕ := fun _ => 0

section Gateway

def onDb {α : Type} (x : Program Db Error α) : Program Economy Error α :=
  Program.zoom (·.db) (fun db s => { s with db }) x

@[simp] theorem onDb_money {α : Type} (x : Program Db Error α) (faults : List Fault) (s : Economy) :
    (onDb x faults s).2.2.money = s.money := rfl

@[simp] theorem onDb_applied {α : Type} (x : Program Db Error α) (faults : List Fault) (s : Economy) :
    (onDb x faults s).2.2.applied = s.applied := rfl

@[simp] theorem onDb_db {α : Type} (x : Program Db Error α) (faults : List Fault) (s : Economy) :
    (onDb x faults s).2.2.db = (x faults s.db).2.2 := rfl

/-- A balance outside int64 raises. -/
def balance (playerName : String) : Program Economy Error (Option ℤ) :=
  Program.call fun fault s =>
    if fault = .proceed ∧ (s.money playerName).all fun units => minCents ≤ units ∧ units ≤ maxCents then
      (.ok (s.money playerName), s)
    else (.error (.runtime "UMoney balance is not available"), s)

def Economy.changed (s : Economy) (transferId : Id) (playerName : String) (deltaUnits : ℤ) : Economy :=
  { s with
    money := Function.update s.money playerName ((s.money playerName).map (· + deltaUnits))
    applied := Function.update s.applied transferId (s.applied transferId + 1) }

/-- The change is durable or has no effect; either way the call may raise. -/
def change (transferId : Id) (playerName : String) (deltaUnits : ℤ) : Program Economy Error PUnit :=
  Program.call fun fault s =>
    if (s.money playerName).isNone then (.error (.runtime "UMoney player account does not exist"), s)
    else match fault with
    | .proceed => (.ok ⟨⟩, s.changed transferId playerName deltaUnits)
    | .failAfter => (.error (.runtime "sync UMoney money.json"), s.changed transferId playerName deltaUnits)
    | _ => (.error (.runtime "UMoney plugin is not loaded"), s)

end Gateway

section Processing

def what : Error → String
  | .runtime what => what
  | .database what => what

/-- The units a transfer adds to the player's UMoney balance. -/
def deltaUnits (t : EconomyTransferRow) : ℤ :=
  match t.direction with
  | .deposit => -t.amountUnits
  | .withdraw => t.amountUnits

def refuse (throwOnFailure : Bool) (error : String) : Program Economy Error Bool :=
  if throwOnFailure then throw (.runtime error) else pure false

def recordApplied (transferId : Id) (appliedBalance : ℤ) : Program Economy Error Bool := do
  onDb (markEconomyTransferExternalApplied transferId appliedBalance)
  let _ ← onDb (completeEconomyTransfer transferId)
  return true

def mismatch (text : String) (before current : ℤ) : String :=
  text ++ ": baseline=" ++ toString before ++ ", current=" ++ toString current

def applyChange (transfer : EconomyTransfer) (before : ℤ) : Program Economy Error Bool := do
  change transfer.id transfer.playerName (deltaUnits transfer.toEconomyTransferRow)
  let reloaded ← balance transfer.playerName
  match reloaded with
  | none => throw (.runtime "UMoney player account disappeared after direct mutation")
  | some appliedBalance =>
    if decideUmoneyMutation transfer.direction transfer.amountUnits before appliedBalance ≠
        .alreadyApplied then do
      let error := mismatch "UMoney post-mutation balance mismatch" before appliedBalance
      onDb (blockEconomyTransfer transfer.id error)
      throw (.runtime error)
    else recordApplied transfer.id appliedBalance

/-- One attempt of a prepared transfer. -/
def attempt (transfer : EconomyTransfer) (before : ℤ) (throwOnFailure : Bool) :
    Program Economy Error Bool := do
  let current ← balance transfer.playerName
  match current with
  | none => throw (.runtime "UMoney player account does not exist")
  | some current =>
    match decideUmoneyMutation transfer.direction transfer.amountUnits before current with
    | .insufficient => do
      let _ ← onDb (failEconomyTransfer transfer.id "insufficient UMoney balance")
      refuse throwOnFailure "insufficient UMoney balance"
    | .conflict => do
      let error := mismatch "UMoney balance conflict" before current
      onDb (blockEconomyTransfer transfer.id error)
      refuse throwOnFailure error
    | .alreadyApplied => recordApplied transfer.id current
    | .apply => applyChange transfer before

/-- The catch block of an attempt. -/
def noteFailure (transfer : EconomyTransfer) (throwOnFailure : Bool) (error : Error) :
    Program Economy Error Bool := do
  let current ← onDb (transaction (findEconomyTransfer transfer.id))
  if current.any (·.status = .prepared) then do
    onDb (recordEconomyTransferAttempt transfer.id (what error))
    if throwOnFailure then throw error else return false
  else if throwOnFailure then throw error else return false

def processEconomyTransfer (transfer : EconomyTransfer) (throwOnFailure : Bool) :
    Program Economy Error Bool :=
  match transfer.status with
  | .completed => pure true
  | .externalApplied => do
    let _ ← onDb (completeEconomyTransfer transfer.id)
    return true
  | .prepared =>
    match transfer.externalBalanceBeforeUnits with
    | none => do
      let error := "legacy transfer has no direct UMoney balance baseline"
      onDb (blockEconomyTransfer transfer.id error)
      refuse throwOnFailure error
    | some before => tryCatch (attempt transfer before throwOnFailure) (noteFailure transfer throwOnFailure)
  | _ => pure false

end Processing

section Funding
variable (settings : Settings)

def umoneyUnitCents : Cents := 100

inductive Message | economyPlayerMissing | economyInsufficient
  deriving DecidableEq, Repr

/-- `tr` is the text of a message in the player's language. -/
def fundDirectBalance (tr : Message → String) (playerUuid playerName : String) (requiredCents : Cents) :
    Program Economy Error PUnit :=
  if requiredCents ≤ 0 then pure ⟨⟩ else do
  let currentExchange ← onDb (AccountOperations.balance playerUuid)
  if currentExchange ≥ requiredCents then return ⟨⟩ else
  let shortage := requiredCents - currentExchange
  let amountUnits := shortage / umoneyUnitCents + if shortage % umoneyUnitCents = 0 then 0 else 1
  if amountUnits ≤ 0 ∨ amountUnits > maxCents / umoneyUnitCents then
    throw (.runtime "required UMoney funding is outside the supported range")
  else do
  let externalBalance ← balance playerName
  match externalBalance with
  | none => throw (.runtime (tr .economyPlayerMissing))
  | some externalBalance =>
    if externalBalance < amountUnits then throw (.runtime (tr .economyInsufficient)) else do
    let transfer ← onDb (prepareEconomyTransfer settings playerUuid playerName .deposit
      (amountUnits * umoneyUnitCents) amountUnits (some externalBalance))
    let processed ← processEconomyTransfer transfer true
    if processed = false then throw (.runtime "direct UMoney funding did not complete") else do
    let funded ← onDb (AccountOperations.balance playerUuid)
    if funded < requiredCents then throw (.runtime "direct UMoney funding did not complete")
    else return ⟨⟩

structure AccountBalance where
  playerUuid : String
  playerName : String
  balanceCents : Cents
  deriving DecidableEq, Repr

def settleAccount (account : AccountBalance) (amountUnits : ℤ) : Program Economy Error PUnit := do
  let externalBalance ← balance account.playerName
  match externalBalance with
  | none => pure ⟨⟩
  | some externalBalance => do
    let transfer ← onDb (prepareEconomyTransfer settings account.playerUuid account.playerName .withdraw
      (amountUnits * umoneyUnitCents) amountUnits (some externalBalance))
    let _ ← processEconomyTransfer transfer false

/-- `positiveBalances` is the page the query returns; its order by time of update is left open. -/
def sweepDirectBalances (positiveBalances : Db → List AccountBalance) : Program Economy Error PUnit := do
  let accounts ← onDb (transaction (select positiveBalances))
  Program.forEach (fun account =>
    let amountUnits := account.balanceCents / umoneyUnitCents
    if amountUnits ≤ 0 then pure ⟨⟩
    else tryCatch (settleAccount settings account amountUnits) fun _ => pure ⟨⟩) accounts

/-- The recovery pass of one tick. -/
def processEconomyTransfers (positiveBalances : Db → List AccountBalance) : Program Economy Error PUnit := do
  tryCatch (do
    let transfers ← onDb (transaction (pendingEconomyTransfers 100))
    Program.forEach (fun transfer =>
      tryCatch (do let _ ← processEconomyTransfer transfer false) fun _ => pure ⟨⟩) transfers)
    fun _ => pure ⟨⟩
  tryCatch (sweepDirectBalances settings positiveBalances) fun _ => pure ⟨⟩

end Funding

end EndstoneExchange.UmoneyGateway
