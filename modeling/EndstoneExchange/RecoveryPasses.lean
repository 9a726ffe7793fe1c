import EndstoneExchange.FaultlessRuns
import EndstoneExchange.UmoneyReconciliation

/-!
# Recovery passes without faults

A pass works on the first 100 pending transfers and then settles the first 100 positive
balances. Where its calls succeed each transfer is finished, unless its player has no
UMoney account: then only the attempt is noted.
-/
namespace EndstoneExchange.RecoveryPasses
open AutoIncrementTables KeyedTables AtomicTransactions.Transaction DurablePrograms FaultlessRuns
  ExchangeDomain ExchangeTransactions AccountOperations EconomyTransferOperations ClearingRefinement
  ServiceRuns TransferLedger UmoneyGateway UmoneyAttempts UmoneySaga UmoneyReconciliation

variable {settings : Settings}

section Passes

/-- What `pendingEconomyTransfers(100)` returns. -/
def pendingPage (db : Db) : List EconomyTransfer :=
  ((db.economyTransfers.entries.filter fun e =>
    e.2.status = .prepared ∨ e.2.status = .externalApplied).take 100).map
      fun e => economyTransferFromRow e.1 e.2

def processed (s : Economy) (transfer : EconomyTransfer) : Economy :=
  (processEconomyTransfer transfer false [] s).2.2

/-- The first half of a pass. -/
def recovered (s : Economy) : Economy := (pendingPage s.db).foldl processed s

/-- A pass in which no call meets a fault. `page` is what the query of the sweep returns. -/
def pass (settings : Settings) (page : Db → List AccountBalance) (s : Economy) : Economy :=
  (processEconomyTransfers settings page [] s).2.2

/-- Consecutive passes with no other activity. -/
def passes (settings : Settings) (page : ℕ → Db → List AccountBalance) : ℕ → Economy → Economy
  | 0, s => s
  | n + 1, s => pass settings (page n) (passes settings page n s)

end Passes

section Records
variable (s : Economy) (t : EconomyTransferRow)

/-- A pending transfer that a pass can finish. The others are PREPARED, with the balance they were
prepared at, for a player without a UMoney account. -/
def Finishable : Prop :=
  t.status = .externalApplied ∨
    t.status = .prepared ∧ (t.externalBalanceBeforeUnits = none ∨ (s.money t.playerName).isSome)

/-- An account that the sweep can settle. -/
def Settleable (a : AccountRow) : Prop :=
  umoneyUnitCents ≤ a.balanceCents ∧ (s.money a.playerName).isSome

/-- No transfer is left EXTERNAL_APPLIED, no player with a UMoney account has one PREPARED or an exchange
account with 100 cents or more. -/
structure Drained : Prop where
  transfers : ∀ id t, s.db.economyTransfers.get? id = some t →
    t.status ≠ .externalApplied ∧ (t.status = .prepared → s.money t.playerName = none)
  accounts : ∀ uuid a, s.db.accounts.find? uuid = some a → (s.money a.playerName).isSome →
    a.balanceCents < umoneyUnitCents

/-- The attempt comes to the completion of the transfer. -/
def Completes : Prop :=
  t.status = .externalApplied ∨ t.status = .prepared ∧ ∃ before current,
    t.externalBalanceBeforeUnits = some before ∧ s.money t.playerName = some current ∧
      (decideUmoneyMutation t.direction t.amountUnits before current = .apply ∨
        decideUmoneyMutation t.direction t.amountUnits before current = .alreadyApplied)

/-- The credit of a deposit stays below the limit of BIGINT. -/
def CreditFits : Prop :=
  t.direction = .deposit → Completes s t → ∀ a, s.db.accounts.find? t.playerUuid = some a →
    a.balanceCents + t.amountCents ≤ maxCents

/-- Every database call of the first half of a pass succeeds. -/
def CreditsFit : List EconomyTransfer → Economy → Prop
  | [], _ => True
  | transfer :: transfers, s =>
    CreditFits s transfer.toEconomyTransferRow ∧ CreditsFit transfers (processed s transfer)

/-- The constraints of the schema, the players the plugin knows and the range of UMoney's balances. -/
structure Constrained (s : Economy) : Prop where
  owners : ∀ id t, s.db.economyTransfers.get? id = some t → ∃ a, s.db.accounts.find? t.playerUuid = some a
  amounts : ∀ id t, s.db.economyTransfers.get? id = some t → 0 < t.amountCents
  players : ∀ uuid a, s.db.accounts.find? uuid = some a → uuid ≠ ""
  names : s.money "" = none
  range : ∀ name units, s.money name = some units → minCents ≤ units ∧ units ≤ maxCents

/-- What `positiveBalances(100)` may return; the order by time of update is left open. -/
structure IsPage (db : Db) (page : List AccountBalance) : Prop where
  rows : ∀ account ∈ page, ∃ a, db.accounts.find? account.playerUuid = some a ∧
    account = ⟨account.playerUuid, a.playerName, a.balanceCents⟩ ∧ umoneyUnitCents ≤ a.balanceCents
  nodup : (page.map (·.playerUuid)).Nodup
  limit : page.length ≤ 100
  full : page.length < 100 → ∀ uuid a, db.accounts.find? uuid = some a →
    umoneyUnitCents ≤ a.balanceCents → uuid ∈ page.map (·.playerUuid)

/-- Every database call of the pass succeeds, and the query of the sweep returns a page. -/
structure Unhindered (page : Db → List AccountBalance) (s : Economy) : Prop where
  credits : CreditsFit (pendingPage s.db) s
  page : IsPage (recovered s).db (page (recovered s).db)

/-- No page of the pass is full of records that cannot make progress while others wait behind it. -/
structure Unclogged (page : Db → List AccountBalance) (s : Economy) : Prop where
  transfers : (∃ id t, s.db.economyTransfers.get? id = some t ∧ Finishable s t) →
    ∃ transfer ∈ pendingPage s.db, Finishable s transfer.toEconomyTransferRow
  accounts : (∃ uuid a, (recovered s).db.accounts.find? uuid = some a ∧ Settleable (recovered s) a) →
    ∃ account ∈ page (recovered s).db, ((recovered s).money account.playerName).isSome

end Records

section Statements
variable {db : Db} {id : Id} {t : EconomyTransferRow} {a : AccountRow}

/-- Players and their names are the same in both databases. -/
def NamesKept (db db' : Db) : Prop :=
  ∀ uuid, (db'.accounts.find? uuid).map (·.playerName) = (db.accounts.find? uuid).map (·.playerName)

theorem NamesKept.of_accounts {db' : Db} (h : db'.accounts = db.accounts) : NamesKept db db' :=
  fun uuid => by rw [h]

theorem NamesKept.trans {db' db'' : Db} (h : NamesKept db db') (h' : NamesKept db' db'') :
    NamesKept db db'' := fun uuid => (h' uuid).trans (h uuid)

theorem NamesKept.of_find {db' : Db} (h : NamesKept db db') {uuid : String} {a' : AccountRow}
    (ha : db'.accounts.find? uuid = some a') :
    ∃ a, db.accounts.find? uuid = some a ∧ a.playerName = a'.playerName := by
  have hname := h uuid
  rw [ha] at hname
  exact Option.map_eq_some_iff.mp hname.symm

theorem NamesKept.symm {db' : Db} (h : NamesKept db db') : NamesKept db' db := fun uuid => (h uuid).symm

theorem NamesKept.post (playerUuid : String) (delta : Cents) (reason : LedgerReason)
    (reference : Option LedgerReference) : NamesKept db (Db.post db playerUuid delta reason reference) := by
  intro uuid
  rw [find?_post]
  split_ifs
  · rw [Option.map_map]
    rfl
  · rfl

/-- What a call makes of the accounts: only a deposit is credited. -/
structure Pays (t : EconomyTransferRow) (db db' : Db) : Prop where
  names : NamesKept db db'
  withdraw : t.direction = .withdraw → db'.accounts = db.accounts

theorem Pays.of_accounts {db' : Db} (h : db'.accounts = db.accounts) : Pays t db db' :=
  ⟨.of_accounts h, fun _ => h⟩

private theorem mark_succeeds (ht : db.economyTransfers.get? id = some t) (hs : t.status = .prepared) (units : ℤ) :
    ∃ db', markEconomyTransferExternalAppliedTx id units db = .ok (⟨⟩, db') ∧ db'.accounts = db.accounts ∧
      db'.economyTransfers.get? id = some { t with
        status := .externalApplied, externalBalanceUnits := some units
        attemptCount := t.attemptCount + 1, lastError := none } := by
  refine ⟨_, bind_ok.mpr ⟨_, selectOne_ok.mpr ⟨t, ht, rfl⟩, bind_ok.mpr
    ⟨_, throwIf_ok.mpr ⟨by simp [hs], rfl⟩, ite_ok.mpr (.inl ⟨hs, execute_ok.mpr rfl⟩)⟩⟩, rfl, ?_⟩
  rw [Db.setTransfer_economyTransfers, Table.get?_update_self, ht]
  rfl

private theorem block_succeeds (ht : db.economyTransfers.get? id = some t) (hs : t.status = .prepared)
    (error : String) : ∃ db', blockEconomyTransferTx id error db = .ok (⟨⟩, db') ∧
      db'.accounts = db.accounts ∧ ∀ t', db'.economyTransfers.get? id = some t' → t'.status = .blocked := by
  refine ⟨_, bind_ok.mpr ⟨_, selectOne_ok.mpr ⟨t, ht, rfl⟩, bind_ok.mpr
    ⟨_, throwIf_ok.mpr ⟨by simp [hs], rfl⟩, execute_ok.mpr rfl⟩⟩, rfl, fun t' ht' => ?_⟩
  rw [Db.setTransfer_economyTransfers, Table.get?_update_self, ht] at ht'
  obtain rfl := Option.some.inj ht'
  rfl

/-- A deposit that is refused has no amount reserved. -/
theorem fail_succeeds (ht : db.economyTransfers.get? id = some t) (hs : t.status = .prepared)
    (hdeposit : t.direction = .deposit) (ha : db.accounts.find? t.playerUuid = some a) (error : String) :
    ∃ c db', failEconomyTransferTx id error db = .ok (c, db') ∧ db'.accounts = db.accounts ∧
      ∀ t', db'.economyTransfers.get? id = some t' → t'.status = .failed := by
  obtain ⟨⟨c, db'⟩, hb, haccounts⟩ :
      ∃ p, failEconomyTransferTx id error db = .ok p ∧ p.2.accounts = db.accounts := by
    simp only [failEconomyTransferTx, updateTransfer, bind_ok, selectOne_ok, ite_ok, throwIf_ok, ht, hs,
      hdeposit, lockedBalance_ok, execute_ok, exists_eq_left', exists_and_left, and_assoc, Option.some.injEq,
      reduceCtorEq, false_and, false_or, not_false_eq_true, true_and, not_true_eq_false, or_false]
    exact ⟨_, ⟨a, ha, rfl⟩, rfl⟩
  exact ⟨c, db', hb, haccounts, fun t' ht' => (fail_turns (hs ▸ At.refl ht (.refl t)) hb).status_of ht'⟩

private theorem complete_succeeds (ht : db.economyTransfers.get? id = some t) (hs : t.status = .externalApplied)
    (ha : db.accounts.find? t.playerUuid = some a)
    (hfits : t.direction = .deposit → Creditable db t.playerUuid t.amountCents) :
    ∃ c db', completeEconomyTransferTx id db = .ok (c, db') ∧ Pays t db db' ∧
      ∀ t', db'.economyTransfers.get? id = some t' → t'.status = .completed := by
  obtain ⟨⟨c, db'⟩, hb, hpays⟩ : ∃ p, completeEconomyTransferTx id db = .ok p ∧ Pays t db p.2 := by
    cases hdirection : t.direction with
    | deposit =>
      have hkept : NamesKept db (Db.post db t.playerUuid t.amountCents .umoneyDeposit
          (some (.economyTransfer id))) := .post _ _ _ _
      obtain ⟨b, hb, -⟩ := hkept.symm.of_find ha
      simp only [completeEconomyTransferTx, updateTransfer, bind_ok, selectOne_ok, ite_ok, throwIf_ok, ht, hs,
        hdirection, credit_ok, lockedBalance_ok, execute_ok, exists_eq_left', exists_and_left, and_assoc,
        Option.some.injEq, reduceCtorEq, false_and, false_or, not_false_eq_true, true_and, not_true_eq_false,
        or_false, not_not]
      refine ⟨hfits hdirection, _, ⟨b, hb, rfl⟩, hkept, fun h => ?_⟩
      rw [hdirection] at h
      cases h
    | withdraw =>
      simp only [completeEconomyTransferTx, updateTransfer, bind_ok, selectOne_ok, ite_ok, throwIf_ok, ht, hs,
        hdirection, credit_ok, lockedBalance_ok, execute_ok, exists_eq_left', exists_and_left, and_assoc,
        Option.some.injEq, reduceCtorEq, false_and, false_or, not_false_eq_true, true_and, not_not]
      exact ⟨_, ⟨a, ha, rfl⟩, .of_accounts rfl⟩
  exact ⟨c, db', hb, hpays, fun t' ht' => (complete_turns (hs ▸ At.refl ht (.refl t)) hb).status_of ht'⟩

private theorem record_succeeds (ht : db.economyTransfers.get? id = some t) (hs : t.status = .prepared)
    (error : String) :
    ∃ db', recordAttemptTx id error db = .ok (true, db') ∧ db'.accounts = db.accounts := by
  refine ⟨_, bind_ok.mpr ⟨_, select_ok.mpr rfl, ite_ok.mpr (.inl ⟨by simp [ht, hs], bind_ok.mpr
    ⟨_, execute_ok.mpr rfl, pure_ok.mpr rfl⟩⟩)⟩, rfl⟩

end Statements

section Processing
variable {s : Economy} {id : Id} {t : EconomyTransferRow} {a : AccountRow} {before current : ℤ}

/-- A call of the pass that finishes transfer `id`. -/
def Finishes (s : Economy) (id : Id) (t : EconomyTransferRow) (s' : Economy) : Prop :=
  Pays t s.db s'.db ∧ ∀ t', s'.db.economyTransfers.get? id = some t' →
    t'.status ≠ .prepared ∧ t'.status ≠ .externalApplied

/-- A call of the pass that completes transfer `id`. -/
def Completed (s : Economy) (id : Id) (t : EconomyTransferRow) (done : Bool) (s' : Economy) : Prop :=
  done = true ∧ Pays t s.db s'.db ∧ ∀ t', s'.db.economyTransfers.get? id = some t' → t'.status = .completed

theorem Completed.finishes {done : Bool} {s' : Economy} (h : Completed s id t done s') : Finishes s id t s' := by
  refine ⟨h.2.1, fun t' ht' => ?_⟩
  rw [h.2.2 t' ht']
  simp

theorem onDb_succeeds {α : Type} {body : Tx α} {c : α} {db' : Db} {Q : α → Economy → Prop}
    (hb : body s.db = .ok (c, db')) (h : Q c { s with db := db' }) :
    Succeeds (onDb (transaction body)) s Q := .zoom (.atomic hb h)

theorem balance_succeeds {playerName : String}
    (hrange : ∀ units, s.money playerName = some units → minCents ≤ units ∧ units ≤ maxCents)
    {Q : Option ℤ → Economy → Prop} (h : Q (s.money playerName) s) :
    Succeeds (UmoneyGateway.balance playerName) s Q := by
  refine .call ?_ h
  rw [if_pos]
  refine ⟨rfl, ?_⟩
  cases hm : s.money playerName with
  | none => rfl
  | some units => simpa using hrange units hm

theorem completion_succeeds (ht : s.db.economyTransfers.get? id = some t) (hs : t.status = .externalApplied)
    (ha : s.db.accounts.find? t.playerUuid = some a)
    (hfits : t.direction = .deposit → Creditable s.db t.playerUuid t.amountCents) :
    Succeeds (do let _ ← onDb (completeEconomyTransfer id); return true) s (Completed s id t) := by
  obtain ⟨c, db', hb, hpays, hcompleted⟩ := complete_succeeds ht hs ha hfits
  exact (onDb_succeeds (Q := fun _ => Completed s id t true) hb ⟨rfl, hpays, hcompleted⟩).bind
    fun _ _ h => .pure h

theorem recordApplied_succeeds (ht : s.db.economyTransfers.get? id = some t) (hs : t.status = .prepared)
    (ha : s.db.accounts.find? t.playerUuid = some a)
    (hfits : t.direction = .deposit → Creditable s.db t.playerUuid t.amountCents) (units : ℤ) :
    Succeeds (recordApplied id units) s (Completed s id t) := by
  obtain ⟨db', hb, haccounts, ht'⟩ := mark_succeeds ht hs units
  refine (onDb_succeeds (Q := fun _ s' => s' = { s with db := db' }) hb rfl).bind fun _ s' h => ?_
  subst h
  have hcredit : t.direction = .deposit → Creditable db' t.playerUuid t.amountCents := by
    rw [Creditable, haccounts]
    exact hfits
  refine (completion_succeeds (s := { s with db := db' }) ht' rfl (a := a) ?_ hcredit).mono fun done s'' h => ?_
  · exact haccounts ▸ ha
  · obtain ⟨hdone, hpays, hcompleted⟩ := h
    have hmarked : Pays t s.db db' := .of_accounts haccounts
    exact ⟨hdone, ⟨hmarked.names.trans hpays.names, fun hw => (hpays.withdraw hw).trans haccounts⟩, hcompleted⟩

theorem blocked_succeeds (ht : s.db.economyTransfers.get? id = some t) (hs : t.status = .prepared)
    (error : String) : Succeeds (do onDb (blockEconomyTransfer id error); refuse false error) s
      fun _ => Finishes s id t := by
  obtain ⟨db', hb, haccounts, hblocked⟩ := block_succeeds ht hs error
  refine (onDb_succeeds (Q := fun _ => Finishes s id t) hb ⟨.of_accounts haccounts, fun t' ht' => ?_⟩).bind
    fun _ _ h => .pure h
  rw [hblocked t' ht']
  simp

theorem decide_range {direction : EconomyTransferDirection} {amount delta : ℤ}
    (hdelta : delta = if direction = .deposit then -amount else amount)
    (h : decideUmoneyMutation direction amount before current = .apply)
    (hrange : minCents ≤ current ∧ current ≤ maxCents) :
    minCents ≤ current + delta ∧ current + delta ≤ maxCents := by
  subst hdelta
  have hmin : minCents ≤ (0 : ℤ) := by decide
  cases direction <;> simp only [decideUmoneyMutation, reduceCtorEq, if_true, if_false] at h ⊢ <;>
    split_ifs at h
  all_goals constructor <;> linarith

private theorem decide_deposit {direction : EconomyTransferDirection} {units : ℤ}
    (h : decideUmoneyMutation direction units before current = .insufficient) : direction = .deposit := by
  cases direction with
  | deposit => rfl
  | withdraw =>
    simp only [decideUmoneyMutation] at h
    split_ifs at h

theorem Constrained.creditable (hs : Constrained s) (ht : s.db.economyTransfers.get? id = some t)
    (hfits : CreditFits s t) (hc : Completes s t) (hdirection : t.direction = .deposit) :
    Creditable s.db t.playerUuid t.amountCents := by
  obtain ⟨a, ha⟩ := hs.owners id t ht
  exact ⟨(hs.amounts id t ht).le, fun _ => ⟨a, ha, hfits hdirection hc a ha⟩⟩

theorem applyChange_succeeds (ht : s.db.economyTransfers.get? id = some t)
    (ha : s.db.accounts.find? t.playerUuid = some a) (hprepared : t.status = .prepared)
    (hm : s.money t.playerName = some current) (hrange : minCents ≤ current ∧ current ≤ maxCents)
    (hcredit : t.direction = .deposit → Creditable s.db t.playerUuid t.amountCents)
    (hd : decideUmoneyMutation t.direction t.amountUnits before current = .apply) :
    Succeeds (applyChange (economyTransferFromRow id t) before) s (Completed s id t) := by
  obtain ⟨-, happlied⟩ := decide_apply (deltaUnits_eq t) hd
  have hafter : (s.changed id t.playerName (deltaUnits t)).money t.playerName =
      some (current + deltaUnits t) := by
    simp [Economy.changed, hm]
  have hchange : Succeeds (change id t.playerName (deltaUnits t)) s
      fun _ s' => s' = s.changed id t.playerName (deltaUnits t) := by
    refine .call (a := ⟨⟩) ?_ rfl
    rw [if_neg (by simp [hm])]
  refine hchange.bind fun _ s' h => ?_
  subst h
  have hreload := @balance_succeeds (s.changed id t.playerName (deltaUnits t)) t.playerName
    (fun units hunits => ?_) (fun c s' => c = some (current + deltaUnits t) ∧
      s' = s.changed id t.playerName (deltaUnits t)) ⟨hafter, rfl⟩
  · refine hreload.bind fun c s' h => ?_
    obtain ⟨rfl, rfl⟩ := h
    simp only [economyTransferFromRow, happlied, ne_eq, not_true_eq_false, if_false]
    exact recordApplied_succeeds (s := s.changed id t.playerName (deltaUnits t)) ht hprepared ha hcredit _
  · obtain rfl := Option.some.inj (hafter.symm.trans hunits)
    exact decide_range (deltaUnits_eq t) hd hrange

private theorem attempt_succeeds (hs : Constrained s) (ht : s.db.economyTransfers.get? id = some t)
    (hprepared : t.status = .prepared) (hbefore : t.externalBalanceBeforeUnits = some before)
    (hm : s.money t.playerName = some current) (hfits : CreditFits s t) :
    Succeeds (attempt (economyTransferFromRow id t) before false) s fun _ => Finishes s id t := by
  obtain ⟨a, ha⟩ := hs.owners id t ht
  have hcredit := fun hd => hs.creditable ht hfits (.inr ⟨hprepared, before, current, hbefore, hm, hd⟩)
  refine (balance_succeeds (hs.range t.playerName) (Q := fun c s' => c = some current ∧ s = s')
    ⟨hm, rfl⟩).bind fun c s' h => ?_
  obtain ⟨rfl, rfl⟩ := h
  simp only [economyTransferFromRow]
  cases hd : decideUmoneyMutation t.direction t.amountUnits before current with
  | apply =>
    exact (applyChange_succeeds ht ha hprepared hm (hs.range _ _ hm) (hcredit (.inl hd)) hd).mono
      fun _ _ h => h.finishes
  | alreadyApplied =>
    exact (recordApplied_succeeds ht hprepared ha (hcredit (.inr hd)) current).mono fun _ _ h => h.finishes
  | conflict => exact blocked_succeeds ht hprepared _
  | insufficient =>
    obtain ⟨c, db', hb, haccounts, hfailed⟩ := fail_succeeds ht hprepared (decide_deposit hd) ha
      "insufficient UMoney balance"
    refine (onDb_succeeds (Q := fun _ => Finishes s id t) hb ⟨.of_accounts haccounts, fun t' ht' => ?_⟩).bind
      fun _ _ h => .pure h
    rw [hfailed t' ht']
    simp

/-- Where its calls succeed a pass finishes what can be finished. -/
theorem process_finishes (hs : Constrained s) (ht : s.db.economyTransfers.get? id = some t)
    (hf : Finishable s t) (hfits : CreditFits s t) :
    Succeeds (processEconomyTransfer (economyTransferFromRow id t) false) s fun _ => Finishes s id t := by
  obtain happlied | ⟨hprepared, hbaseline⟩ := hf
  · obtain ⟨a, ha⟩ := hs.owners id t ht
    simp only [processEconomyTransfer, economyTransferFromRow, happlied]
    exact (completion_succeeds ht happlied ha (hs.creditable ht hfits (.inl happlied))).mono fun _ _ h => h.finishes
  · cases hbefore : t.externalBalanceBeforeUnits with
    | none =>
      simp only [processEconomyTransfer, economyTransferFromRow, hprepared, hbefore]
      exact blocked_succeeds ht hprepared _
    | some before =>
      have hmoney : (s.money t.playerName).isSome := hbaseline.resolve_left (by simp [hbefore])
      obtain ⟨current, hm⟩ := Option.isSome_iff_exists.mp hmoney
      rw [process_eq hprepared hbefore]
      exact (attempt_succeeds hs ht hprepared hbefore hm hfits).tryCatch

/-- A transfer that cannot make progress only has its attempt noted. -/
theorem process_stuck (ht : s.db.economyTransfers.get? id = some t) (hprepared : t.status = .prepared)
    (hbefore : t.externalBalanceBeforeUnits = some before) (hm : s.money t.playerName = none) :
    Succeeds (processEconomyTransfer (economyTransferFromRow id t) false) s
      fun _ s' => s'.db.accounts = s.db.accounts := by
  rw [process_eq hprepared hbefore]
  have hraised : attempt (economyTransferFromRow id t) before false [] s =
      (.threw (.runtime "UMoney player account does not exist"), [], s) := by
    have hbalance : UmoneyGateway.balance t.playerName [] s = (.returned none, [], s) := by
      simp [UmoneyGateway.balance, Program.call, hm]
    exact Program.bind_returned hbalance
  refine .caught hraised ?_
  obtain ⟨db', hb, haccounts⟩ := record_succeeds ht hprepared
    (what (.runtime "UMoney player account does not exist"))
  refine (onDb_succeeds (Q := fun c s' => c = some (economyTransferFromRow id t) ∧ s = s')
    (select_ok.mpr rfl) ⟨congrArg (Option.map _) ht, rfl⟩).bind fun c s' h => ?_
  obtain ⟨rfl, rfl⟩ := h
  have hnoted : (some (economyTransferFromRow id t)).any (·.status = .prepared) := by
    simp [economyTransferFromRow, hprepared]
  rw [if_pos hnoted]
  have hrecord : Succeeds (recordEconomyTransferAttempt id
      (what (.runtime "UMoney player account does not exist"))) s.db fun _ db => db = db' :=
    Succeeds.bind (R := fun r db => r = true ∧ db = db') (.atomic hb ⟨rfl, rfl⟩) fun r db h => by
      obtain ⟨rfl, rfl⟩ := h
      exact .pure rfl
  refine Succeeds.bind (R := fun _ s' => s'.db = db') (.zoom (hrecord.mono fun _ _ h => h)) fun _ s' h => ?_
  exact .pure (h ▸ haccounts)

end Processing

section Frames
variable {s s' s'' : Economy} {id : Id} {t : EconomyTransferRow}

/-- What every part of a pass keeps: the players, their names and who has a UMoney account. No transfer that
can be finished is added. -/
structure Passed (s s' : Economy) : Prop where
  names : NamesKept s.db s'.db
  money : ∀ name, (s'.money name).isSome = (s.money name).isSome
  finishable : ∀ id t', s'.db.economyTransfers.get? id = some t' → Finishable s' t' →
    ∃ t, s.db.economyTransfers.get? id = some t ∧ Finishable s t
  constrained : Constrained s → Constrained s'

theorem Passed.refl (s : Economy) : Passed s s :=
  ⟨fun _ => rfl, fun _ => rfl, fun _ t ht hf => ⟨t, ht, hf⟩, fun h => h⟩

theorem Passed.trans (h : Passed s s') (h' : Passed s' s'') : Passed s s'' where
  names := h.names.trans h'.names
  money name := (h'.money name).trans (h.money name)
  finishable id t'' ht'' hf'' := by
    obtain ⟨t', ht', hf'⟩ := h'.finishable id t'' ht'' hf''
    exact h.finishable id t' ht' hf'
  constrained hs := h'.constrained (h.constrained hs)

/-- A transfer that was finished stays so. -/
theorem Passed.finished (h : Passed s s')
    (hf : ∀ t, s.db.economyTransfers.get? id = some t → ¬ Finishable s t) :
    ∀ t', s'.db.economyTransfers.get? id = some t' → ¬ Finishable s' t' := by
  intro t' ht' hf'
  obtain ⟨t, ht, hft⟩ := h.finishable id t' ht' hf'
  exact hf t ht hft

private theorem processed_range {status : EconomyTransferStatus} {k₀ k : ℕ} {m₀ m : Option ℤ}
    (h : Processed t k₀ m₀ status k m)
    (hrange : ∀ units, m₀ = some units → minCents ≤ units ∧ units ≤ maxCents) :
    ∀ units, m = some units → minCents ≤ units ∧ units ≤ maxCents := by
  cases h with
  | kept => exact hrange
  | completed => exact hrange
  | legacy => exact hrange
  | attempted _ _ hm hout =>
    intro units hunits
    obtain rfl := Option.some.inj hunits
    cases hout with
    | applied hd => exact decide_range (deltaUnits_eq t) hd (hrange _ hm)
    | untouched => exact hrange _ hm
    | recognised => exact hrange _ hm
    | refused => exact hrange _ hm
    | blocked => exact hrange _ hm

theorem money_leaves (h : Leaves settings s id t s') (name : String) :
    (s'.money name).isSome = (s.money name).isSome := by
  obtain ⟨status, k, m, hstage, hprocessed⟩ := h
  by_cases hname : name = t.playerName
  · rw [hname, hstage.balance, hprocessed.money, Option.isSome_map]
  · rw [hstage.money, Function.update_of_ne hname]

theorem Passed.of_leaves (ht : s.db.economyTransfers.get? id = some t) (hnames : NamesKept s.db s'.db)
    (h : Leaves settings s id t s') : Passed s s' := by
  have hmoney := money_leaves h
  obtain ⟨status, k, m, hstage, hprocessed⟩ := h
  have hrows : ∀ j t', s'.db.economyTransfers.get? j = some t' →
      ∃ u, s.db.economyTransfers.get? j = some u ∧ Advances u t' := by
    intro j t' ht'
    obtain ⟨u, hu⟩ : ∃ u, s.db.economyTransfers.get? j = some u := by
      by_cases hj : j = id
      · exact ⟨t, hj ▸ ht⟩
      · exact ⟨t', (hstage.row.others j hj).symm.trans ht'⟩
    obtain ⟨v, hv, hadvances⟩ := (history_steps hstage.steps j).1 u hu
    obtain rfl : v = t' := Option.some.inj (hv.symm.trans ht')
    exact ⟨u, hu, hadvances⟩
  refine ⟨hnames, hmoney, fun j t' ht' hf => ?_, fun hs => ⟨fun j t' ht' => ?_, fun j t' ht' => ?_,
    fun uuid a ha => ?_, ?_, fun name units hunits => ?_⟩⟩
  · by_cases hj : j = id
    · subst hj
      refine ⟨t, ht, ?_⟩
      obtain ⟨t'', ht'', hstatus, hsame⟩ := hstage.row.own
      obtain rfl : t' = t'' := Option.some.inj (ht'.symm.trans ht'')
      rw [Finishable, hstatus, hsame.before, hsame.playerName, hmoney] at hf
      cases hprocessed with
      | kept => exact hf
      | completed => simp at hf
      | legacy => simp at hf
      | attempted hprepared _ hm => exact .inr ⟨hprepared, .inr (by simp [hm])⟩
    · refine ⟨t', (hstage.row.others j hj).symm.trans ht', ?_⟩
      rw [Finishable, hmoney] at hf
      exact hf
  · obtain ⟨u, hu, hadvances⟩ := hrows j t' ht'
    obtain ⟨a, ha⟩ := hs.owners j u hu
    obtain ⟨b, hb, -⟩ := hnames.symm.of_find ha
    exact ⟨b, hadvances.player ▸ hb⟩
  · obtain ⟨u, hu, hadvances⟩ := hrows j t' ht'
    rw [hadvances.amount]
    exact hs.amounts j u hu
  · obtain ⟨b, hb, -⟩ := hnames.of_find ha
    exact hs.players uuid b hb
  · have hnone := hmoney ""
    rw [hs.names] at hnone
    exact Option.isNone_iff_eq_none.mp (Option.isSome_eq_false_iff.mp hnone)
  · by_cases hname : name = t.playerName
    · rw [hname, hstage.balance] at hunits
      exact processed_range hprocessed (hs.range t.playerName) units hunits
    · rw [hstage.money, Function.update_of_ne hname] at hunits
      exact hs.range name units hunits

/-- What recovery looks at in the transfers. -/
def outlook (db : Db) : List (EconomyTransferStatus × Option ℤ × String) :=
  db.economyTransfers.rows.map fun t => (t.status, t.externalBalanceBeforeUnits, t.playerName)

private theorem outlook_of_stage {k : ℕ} {m : Option ℤ} (ht : s.db.economyTransfers.get? id = some t)
    (h : Stage settings s id t t.status k m s') : outlook s'.db = outlook s.db := by
  refine List.ext_getElem? fun i => ?_
  rw [outlook, outlook, List.getElem?_map, List.getElem?_map]
  change (s'.db.economyTransfers.get? (i + 1)).map _ = (s.db.economyTransfers.get? (i + 1)).map _
  by_cases hi : i + 1 = id
  · obtain ⟨t', ht', hstatus, hsame⟩ := h.row.own
    rw [hi, ht, ht', Option.map_some, Option.map_some, hstatus, hsame.before, hsame.playerName]
  · rw [h.row.others _ hi]

/-- One transfer of a page. -/
structure Handles (s : Economy) (id : Id) (t : EconomyTransferRow) (s' : Economy) : Prop where
  passed : Passed s s'
  accounts : t.direction = .withdraw ∨ ¬ Finishable s t → s'.db.accounts = s.db.accounts
  outlook : ¬ Finishable s t → outlook s'.db = outlook s.db
  finished : Finishable s t → ∀ t', s'.db.economyTransfers.get? id = some t' → ¬ Finishable s' t'

theorem process_handles (settings : Settings) (hs : Constrained s)
    (ht : s.db.economyTransfers.get? id = some t)
    (hpending : t.status = .prepared ∨ t.status = .externalApplied) (hfits : CreditFits s t) :
    Succeeds (processEconomyTransfer (economyTransferFromRow id t) false) s
      fun _ s' => Handles s id t s' ∧ s' = processed s (economyTransferFromRow id t) := by
  have hleaves := process_leaves settings ht false []
  by_cases hf : Finishable s t
  · refine (process_finishes hs ht hf hfits).exact.mono fun _ s' h => ⟨?_, h.2⟩
    obtain ⟨⟨hpays, hfinished⟩, rfl⟩ := h
    refine ⟨.of_leaves ht hpays.names hleaves, fun h => h.elim hpays.withdraw fun h => absurd hf h,
      fun h => absurd hf h, fun _ t' ht' hf' => ?_⟩
    obtain ⟨hprepared, happlied⟩ := hfinished t' ht'
    exact hf'.elim happlied fun h => hprepared h.1
  · have hf' := not_or.mp hf
    have hprepared := hpending.resolve_right hf'.1
    simp only [hprepared, true_and, not_or] at hf'
    obtain ⟨before, hbefore⟩ := Option.ne_none_iff_exists'.mp hf'.2.1
    have hm := Option.not_isSome_iff_eq_none.mp hf'.2.2
    refine (process_stuck ht hprepared hbefore hm).exact.mono fun _ s' h => ⟨?_, h.2⟩
    obtain ⟨haccounts, rfl⟩ := h
    refine ⟨.of_leaves ht (.of_accounts haccounts) hleaves, fun _ => haccounts, fun _ => ?_,
      fun h => absurd h hf⟩
    obtain ⟨status, k, m, hstage, hprocessed⟩ := hleaves
    cases hprocessed with
    | kept => exact outlook_of_stage ht hstage
    | completed happlied =>
      rw [hprepared] at happlied
      cases happlied
    | legacy _ hnone => exact absurd hnone hf'.2.1
    | attempted _ _ hm => exact absurd (by simp [hm]) hf'.2.2

end Frames

end EndstoneExchange.RecoveryPasses
