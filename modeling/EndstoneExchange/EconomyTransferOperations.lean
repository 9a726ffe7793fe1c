import EndstoneExchange.AccountOperations

/-!
# Transfers between UMoney and exchange accounts

A withdrawal reserves its amount when it is prepared and refunds it when it
fails. A deposit is credited when it completes.
-/
namespace EndstoneExchange.EconomyTransferOperations
open AutoIncrementTables KeyedTables AtomicTransactions.Transaction DurablePrograms ExchangeDomain
  ExchangeTransactions AccountOperations

structure EconomyTransfer extends EconomyTransferRow where
  id : Id
  deriving DecidableEq, Repr

def economyTransferFromRow (id : Id) (row : EconomyTransferRow) : EconomyTransfer := { row with id }

/-- `error.substr(0, 500)`. -/
def safeError (error : String) : List UInt8 := error.toUTF8.toList.take 500

def updateTransfer (transferId : Id) (f : EconomyTransferRow → EconomyTransferRow) : Tx PUnit :=
  execute (Db.setTransfer · transferId f)

def findEconomyTransfer (transferId : Id) : Tx (Option EconomyTransfer) :=
  select fun db => (db.economyTransfers.get? transferId).map (economyTransferFromRow transferId)

/-- The transfers recovery still works on, oldest first. -/
def pendingEconomyTransfers (limit : ℤ) : Tx (List EconomyTransfer) := do
  throwIf (limit ≤ 0 ∨ limit > 100) (.runtime "economy transfer query limit must be between 1 and 100")
  select fun db => ((db.economyTransfers.entries.filter fun e =>
    e.2.status = .prepared ∨ e.2.status = .externalApplied).take limit.toNat).map
      fun e => economyTransferFromRow e.1 e.2

def prepareEconomyTransferTx (playerUuid playerName : String) (direction : EconomyTransferDirection)
    (amountCents : Cents) (amountUnits : ℤ) (externalBalanceBeforeUnits : Option ℤ) : Tx Id := do
  let transferId ← select (·.economyTransfers.nextId)
  execute (Db.addTransfer ·
    { playerUuid, playerName, direction, amountCents, amountUnits, externalBalanceBeforeUnits })
  if direction = .withdraw then
    debit playerUuid amountCents .umoneyWithdrawReserved (some (.economyTransfer transferId))
  return transferId

def prepareEconomyTransfer (settings : Settings) (playerUuid playerName : String)
    (direction : EconomyTransferDirection) (amountCents : Cents) (amountUnits : ℤ)
    (externalBalanceBeforeUnits : Option ℤ) : Program Db Error EconomyTransfer := do
  if playerUuid = "" ∨ playerName = "" then
    throw (Error.runtime "economy transfer identity is incomplete")
  if amountCents ≤ 0 ∨ amountUnits ≤ 0 then
    throw (Error.runtime "economy transfer amount must be positive")
  ensureAccount settings playerUuid playerName
  let transferId ← transaction (prepareEconomyTransferTx playerUuid playerName direction amountCents
    amountUnits externalBalanceBeforeUnits)
  let transfer ← transaction (findEconomyTransfer transferId)
  match transfer with
  | some transfer => return transfer
  | none => throw (Error.runtime "prepared economy transfer could not be reloaded")

/-- The UPDATE of an attempt, with whether it matched a PREPARED row. -/
def recordAttemptTx (transferId : Id) (error : String) : Tx Bool := do
  let row ← select (·.economyTransfers.get? transferId)
  if (row.map (·.status)) = some .prepared then
    updateTransfer transferId fun t =>
      { t with attemptCount := t.attemptCount + 1, lastError := some (safeError error) }
    return true
  else return false

def recordEconomyTransferAttempt (transferId : Id) (error : String) : Program Db Error PUnit := do
  let recorded ← transaction (recordAttemptTx transferId error)
  if recorded = false then
    let transfer ← transaction (findEconomyTransfer transferId)
    if transfer.all (·.status = .failed) then
      throw (Error.runtime "prepared economy transfer does not exist")

def markEconomyTransferExternalAppliedTx (transferId : Id) (externalBalanceUnits : ℤ) : Tx PUnit := do
  let transfer ← selectOne (·.economyTransfers.get? transferId)
    (.runtime "economy transfer does not exist")
  throwIf (transfer.status = .failed ∨ transfer.status = .blocked)
    (.runtime "failed or blocked economy transfer cannot be applied")
  if transfer.status = .prepared then
    updateTransfer transferId fun t =>
      { t with
        status := .externalApplied
        externalBalanceUnits := some externalBalanceUnits
        attemptCount := t.attemptCount + 1
        lastError := none }

def markEconomyTransferExternalApplied (transferId : Id) (externalBalanceUnits : ℤ) :
    Program Db Error PUnit :=
  transaction (markEconomyTransferExternalAppliedTx transferId externalBalanceUnits)

def completeEconomyTransferTx (transferId : Id) : Tx Cents := do
  let transfer ← selectOne (·.economyTransfers.get? transferId)
    (.runtime "economy transfer does not exist")
  throwIf (transfer.status = .failed) (.runtime "failed economy transfer cannot be completed")
  if transfer.status = .completed then lockedBalance transfer.playerUuid
  else
    throwIf (transfer.status ≠ .externalApplied)
      (.runtime "economy transfer external operation is not applied")
    if transfer.direction = .deposit then
      credit transfer.playerUuid transfer.amountCents .umoneyDeposit
        (some (.economyTransfer transferId))
    updateTransfer transferId fun t => { t with status := .completed, lastError := none }
    lockedBalance transfer.playerUuid

def completeEconomyTransfer (transferId : Id) : Program Db Error Cents :=
  transaction (completeEconomyTransferTx transferId)

def failEconomyTransferTx (transferId : Id) (error : String) : Tx Cents := do
  let transfer ← selectOne (·.economyTransfers.get? transferId)
    (.runtime "economy transfer does not exist")
  throwIf (transfer.status = .externalApplied ∨ transfer.status = .completed ∨
    transfer.status = .blocked) (.runtime "applied economy transfer cannot be failed")
  if transfer.status = .prepared then
    if transfer.direction = .withdraw then
      credit transfer.playerUuid transfer.amountCents .umoneyWithdrawRefund
        (some (.economyTransfer transferId))
    updateTransfer transferId fun t =>
      { t with
        status := .failed
        attemptCount := t.attemptCount + 1
        lastError := some (safeError error) }
  lockedBalance transfer.playerUuid

def failEconomyTransfer (transferId : Id) (error : String) : Program Db Error Cents :=
  transaction (failEconomyTransferTx transferId error)

def blockEconomyTransferTx (transferId : Id) (error : String) : Tx PUnit := do
  let transfer ← selectOne (·.economyTransfers.get? transferId)
    (.runtime "prepared economy transfer does not exist")
  throwIf (transfer.status ≠ .prepared) (.runtime "prepared economy transfer does not exist")
  updateTransfer transferId fun t =>
    { t with
      status := .blocked
      attemptCount := t.attemptCount + 1
      lastError := some (safeError error) }

def blockEconomyTransfer (transferId : Id) (error : String) : Program Db Error PUnit :=
  transaction (blockEconomyTransferTx transferId error)

section Backing
variable (db : Db)

def Db.totalBalance : Cents := db.accounts.sum (·.balanceCents)

/-- The reserves of OPEN and PARTIAL orders. -/
def Db.openReserves : Cents := db.orders.sum fun o => if o.status.Live then o.reservedCents else 0

def Db.transferred (direction : EconomyTransferDirection) (status : EconomyTransferStatus → Bool) :
    Cents :=
  db.economyTransfers.sum fun t =>
    if t.direction = direction ∧ status t.status then t.amountCents else 0

/-- The database adds up decimals of any size. -/
def Db.unbacked : Cents :=
  Db.totalBalance db + Db.openReserves db +
    Db.transferred db .withdraw (fun s => s = .prepared ∨ s = .blocked) -
    Db.transferred db .deposit (fun s => s = .externalApplied ∨ s = .completed) +
    Db.transferred db .withdraw (fun s => s = .externalApplied ∨ s = .completed)

def economyBackingDeficit : Tx Cents := do
  let deficit ← select Db.unbacked
  cellInt64 deficit

/-- The start in UMoney mode refuses exchange value that no external money backs. -/
def checkBacking : Program Db Error PUnit := do
  let backingDeficit ← transaction economyBackingDeficit
  if backingDeficit > 0 then
    throw (Error.runtime ("UMoney mode refused " ++ toString backingDeficit ++
      " cents of unbacked legacy exchange value; " ++
      "migrate or reset existing balances and funded orders first"))

end Backing
end EndstoneExchange.EconomyTransferOperations
