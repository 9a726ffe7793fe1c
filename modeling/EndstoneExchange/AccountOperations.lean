import EndstoneExchange.ExchangeTransactions

/-! # Exchange accounts -/
namespace EndstoneExchange.AccountOperations
open AutoIncrementTables KeyedTables AtomicTransactions.Transaction DurablePrograms ExchangeDomain
  ExchangeTransactions

/-- INSERT IGNORE: an existing account only has its name refreshed. -/
def ensureAccountTx (settings : Settings) (playerUuid playerName : String) : Tx PUnit := do
  let existing ← select (·.accounts.find? playerUuid)
  if existing.isNone then
    execute (Db.addAccount · playerUuid ⟨playerName, settings.initialBalanceCents⟩)
    recordBalanceChange playerUuid settings.initialBalanceCents .accountOpened none
  else
    execute (Db.setAccount · playerUuid fun a => { a with playerName })

def ensureAccount (settings : Settings) (playerUuid playerName : String) : Program Db Error PUnit := do
  if playerUuid = "" then throw (Error.runtime "player UUID must not be empty")
  transaction (ensureAccountTx settings playerUuid playerName)

/-- What `ensureAccount` leaves behind; it never raises inside its transaction. -/
def Db.ensured (db : Db) (settings : Settings) (playerUuid playerName : String) : Db :=
  match db.accounts.find? playerUuid with
  | none => Db.addLedger (Db.addAccount db playerUuid ⟨playerName, settings.initialBalanceCents⟩)
      ⟨playerUuid, settings.initialBalanceCents, .accountOpened, none⟩
  | some _ => Db.setAccount db playerUuid fun a => { a with playerName }

theorem ensureAccountTx_ok {settings : Settings} {playerUuid playerName : String} {db : Db}
    {p : PUnit × Db} : ensureAccountTx settings playerUuid playerName db = .ok p ↔
      (⟨⟩, Db.ensured db settings playerUuid playerName) = p := by
  unfold ensureAccountTx Db.ensured
  cases h : db.accounts.find? playerUuid <;>
    simp [bind_ok, select_ok, execute_ok, recordBalanceChange, h]

def balance (playerUuid : String) : Program Db Error Cents := transaction (lockedBalance playerUuid)

def addBalanceTx (playerUuid : String) (deltaCents : Cents) : Tx Cents := do
  let current ← lockedBalance playerUuid
  throwIf (deltaCents < -current) (.runtime "balance cannot become negative")
  throwIf (deltaCents > 0 ∧ current > maxCents - deltaCents) (.runtime "balance is too large")
  addToBalance playerUuid deltaCents
  recordBalanceChange playerUuid deltaCents .adminAdjustment none
  return current + deltaCents

def addBalance (settings : Settings) (playerUuid playerName : String) (deltaCents : Cents) :
    Program Db Error Cents := do
  ensureAccount settings playerUuid playerName
  transaction (addBalanceTx playerUuid deltaCents)

theorem addBalanceTx_ok {playerUuid : String} {delta : Cents} {db : Db} {p : Cents × Db} :
    addBalanceTx playerUuid delta db = .ok p ↔
      ∃ a, db.accounts.find? playerUuid = some a ∧ 0 ≤ a.balanceCents + delta ∧
        (0 < delta → a.balanceCents + delta ≤ maxCents) ∧
        (a.balanceCents + delta, Db.addLedger (Db.setAccount db playerUuid fun a =>
          { a with balanceCents := a.balanceCents + delta })
          ⟨playerUuid, delta, .adminAdjustment, none⟩) = p := by
  simp only [addBalanceTx, bind_ok, lockedBalance_ok, throwIf_ok, execute_ok, addToBalance,
    recordBalanceChange, pure_ok, exists_exists_and_eq_and, and_assoc, exists_and_left, exists_eq_left',
    not_lt, not_and, gt_iff_lt, neg_le_iff_add_nonneg', le_sub_iff_add_le]

end EndstoneExchange.AccountOperations
