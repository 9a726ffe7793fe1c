import EndstoneExchange.UmoneyReconciliation

/-!
# The exchange balance behind a deposit

From its preparation to its end a deposit moves its player's exchange balance once, when
it is completed.
-/
namespace EndstoneExchange.DepositBalances
open AutoIncrementTables KeyedTables AtomicTransactions.Transaction DurablePrograms ExchangeDomain
  ExchangeTransactions EconomyTransferOperations UmoneyGateway UmoneyAttempts UmoneyReconciliation

section Deposits
variable {id : Id} {playerUuid : String} {amount start : Cents} {db db' : Db}

def HasBalance (db : Db) (playerUuid : String) (cents : Cents) : Prop :=
  ∃ a, db.accounts.find? playerUuid = some a ∧ a.balanceCents = cents

/-- Deposit `id` of a player is the only thing to move the balance, on its completion. -/
def Deposited (id : Id) (playerUuid : String) (amount start : Cents) (db : Db) : Prop :=
  ∃ t, db.economyTransfers.get? id = some t ∧ t.direction = .deposit ∧ t.playerUuid = playerUuid ∧
    t.amountCents = amount ∧ HasBalance db playerUuid (start + if t.status = .completed then amount else 0)

theorem Deposited.update (h : Deposited id playerUuid amount start db) {f : EconomyTransferRow → EconomyTransferRow}
    (hf : ∀ t, db.economyTransfers.get? id = some t → (f t).direction = t.direction ∧
      (f t).playerUuid = t.playerUuid ∧ (f t).amountCents = t.amountCents ∧
      ((f t).status = .completed ↔ t.status = .completed)) :
    Deposited id playerUuid amount start (Db.setTransfer db id f) := by
  obtain ⟨t, ht, hdirection, huuid, hamount, hbalance⟩ := h
  obtain ⟨hd, hu, ha, hs⟩ := hf t ht
  refine ⟨f t, ?_, hd.trans hdirection, hu.trans huuid, ha.trans hamount, ?_⟩
  · rw [Db.setTransfer_economyTransfers, Table.get?_update_self, ht]
    rfl
  · simp only [hs]
    exact hbalance

private theorem mark_deposited {units : ℤ} {u : PUnit} (h : Deposited id playerUuid amount start db)
    (hb : markEconomyTransferExternalAppliedTx id units db = .ok (u, db')) :
    Deposited id playerUuid amount start db' := by
  simp only [markEconomyTransferExternalAppliedTx, updateTransfer, bind_ok, selectOne_ok, ite_ok, throwIf_ok,
    execute_ok, pure_ok, exists_eq_left', exists_and_left, exists_exists_and_eq_and, and_assoc] at hb
  obtain ⟨t, ht, -, ⟨hprepared, hr⟩ | ⟨-, hr⟩⟩ := hb
  · obtain ⟨-, rfl⟩ := Prod.mk.inj hr
    refine h.update fun t' ht' => ?_
    cases ht.symm.trans ht'
    simp [hprepared]
  · obtain ⟨-, rfl⟩ := Prod.mk.inj hr
    exact h

private theorem complete_deposited {c : Cents} (h : Deposited id playerUuid amount start db)
    (hb : completeEconomyTransferTx id db = .ok (c, db')) : Deposited id playerUuid amount start db' := by
  obtain ⟨t, ht, hdirection, huuid, hamount, a, ha, hbalance⟩ := h
  simp only [completeEconomyTransferTx, updateTransfer, bind_ok, selectOne_ok, ite_ok, throwIf_ok, credit_ok,
    lockedBalance_ok, execute_ok, exists_eq_left', exists_and_left, exists_exists_and_eq_and, and_assoc,
    not_not] at hb
  obtain ⟨t', ht', -, hcases⟩ := hb
  cases ht.symm.trans ht'
  obtain ⟨-, a', -, hr⟩ | ⟨hs, happlied, hcases⟩ := hcases
  · obtain ⟨-, rfl⟩ := Prod.mk.inj hr
    exact ⟨t, ht, hdirection, huuid, hamount, a, ha, hbalance⟩
  · obtain ⟨-, -, a', -, hr⟩ | ⟨hno, -⟩ := hcases
    · obtain ⟨-, rfl⟩ := Prod.mk.inj hr
      refine ⟨{ t with status := .completed, lastError := none }, ?_, hdirection, huuid, hamount, ?_⟩
      · rw [Db.setTransfer_economyTransfers, Db.post_economyTransfers, Table.get?_update_self, ht]
        rfl
      · refine ⟨{ a with balanceCents := a.balanceCents + amount }, ?_, ?_⟩
        · rw [Db.setTransfer_accounts, find?_post, huuid, if_pos rfl, ha, hamount]
          rfl
        · simp only [if_neg hs] at hbalance
          simp [hbalance]
    · exact absurd hdirection hno

private theorem fail_deposited {error : String} {c : Cents} (h : Deposited id playerUuid amount start db)
    (hb : failEconomyTransferTx id error db = .ok (c, db')) : Deposited id playerUuid amount start db' := by
  simp only [failEconomyTransferTx, updateTransfer, bind_ok, selectOne_ok, ite_ok, throwIf_ok, credit_ok,
    lockedBalance_ok, execute_ok, exists_eq_left', exists_and_left, exists_exists_and_eq_and, and_assoc]
    at hb
  obtain ⟨t, ht, -, ⟨hprepared, ⟨hwithdraw, -⟩ | ⟨-, a, -, hr⟩⟩ | ⟨-, a, -, hr⟩⟩ := hb
  · obtain ⟨t', ht', hdirection, -⟩ := h
    cases ht.symm.trans ht'
    cases hwithdraw.symm.trans hdirection
  · obtain ⟨-, rfl⟩ := Prod.mk.inj hr
    refine h.update fun t' ht' => ?_
    cases ht.symm.trans ht'
    simp [hprepared]
  · obtain ⟨-, rfl⟩ := Prod.mk.inj hr
    exact h

theorem block_deposited {error : String} {u : PUnit} (h : Deposited id playerUuid amount start db)
    (hb : blockEconomyTransferTx id error db = .ok (u, db')) : Deposited id playerUuid amount start db' := by
  simp only [blockEconomyTransferTx, updateTransfer, bind_ok, selectOne_ok, throwIf_ok, execute_ok,
    exists_eq_left', exists_and_left, exists_exists_and_eq_and, and_assoc, not_not] at hb
  obtain ⟨t, ht, hprepared, hr⟩ := hb
  obtain ⟨-, rfl⟩ := Prod.mk.inj hr
  refine h.update fun t' ht' => ?_
  cases ht.symm.trans ht'
  simp [hprepared]

private theorem record_deposited {error : String} {r : Bool} (h : Deposited id playerUuid amount start db)
    (hb : recordAttemptTx id error db = .ok (r, db')) : Deposited id playerUuid amount start db' := by
  simp only [recordAttemptTx, updateTransfer, bind_ok, select_ok, ite_ok, execute_ok, pure_ok,
    exists_eq_left'] at hb
  obtain ⟨-, hr⟩ | ⟨-, hr⟩ := hb
  · obtain ⟨-, rfl⟩ := Prod.mk.inj hr
    exact h.update fun t _ => ⟨rfl, rfl, rfl, Iff.rfl⟩
  · obtain ⟨-, rfl⟩ := Prod.mk.inj hr
    exact h

end Deposits

section Processing
variable {id : Id} {playerUuid : String} {amount start : Cents}

theorem deposited_keeps {α : Type} {body : Tx α}
    (hbody : ∀ {db a db'}, Deposited id playerUuid amount start db → body db = .ok (a, db') →
      Deposited id playerUuid amount start db') :
    Keeps (fun s : Economy => Deposited id playerUuid amount start s.db) (onDb (transaction body)) :=
  Triple.zoom fun _ hs => Triple.from_state
    (Keeps.atomic (I := Deposited id playerUuid amount start) fun _ _ _ h hb => hbody h hb) hs

private theorem change_deposited (transferId : Id) (playerName : String) (deltaUnits : ℤ) :
    Keeps (fun s : Economy => Deposited id playerUuid amount start s.db)
      (change transferId playerName deltaUnits) := by
  refine Triple.call (fun _ h => h) (fun fault s _ h _ => ?_) fun fault s _ h _ => ?_
  · split_ifs
    · exact h
    · cases fault <;> exact h
  · split_ifs
    · exact h
    · cases fault <;> exact h

theorem recordApplied_deposited (appliedBalance : ℤ) :
    Keeps (fun s : Economy => Deposited id playerUuid amount start s.db) (recordApplied id appliedBalance) :=
  (deposited_keeps mark_deposited).bind fun _ =>
    (deposited_keeps complete_deposited).bind fun _ => Keeps.pure

private theorem find_deposited (transferId : Id) : Keeps (fun s : Economy => Deposited id playerUuid amount start s.db)
    (onDb (transaction (findEconomyTransfer transferId))) :=
  read_keeps fun hb => (findEconomyTransfer_ok hb).1

private theorem applyChange_deposited (transfer : EconomyTransfer) (hid : transfer.id = id) (before : ℤ) :
    Keeps (fun s : Economy => Deposited id playerUuid amount start s.db) (applyChange transfer before) := by
  subst hid
  refine (change_deposited _ _ _).bind fun _ => (balance_keeps _).bind fun reloaded => ?_
  cases reloaded with
  | none => exact Keeps.throw
  | some appliedBalance =>
    dsimp only
    split_ifs
    · exact (deposited_keeps block_deposited).bind fun _ => Keeps.throw
    · exact recordApplied_deposited appliedBalance

private theorem attempt_deposited (transfer : EconomyTransfer) (hid : transfer.id = id) (before : ℤ)
    (throwOnFailure : Bool) : Keeps (fun s : Economy => Deposited id playerUuid amount start s.db)
      (attempt transfer before throwOnFailure) := by
  refine (balance_keeps _).bind fun current => ?_
  cases current with
  | none => exact Keeps.throw
  | some current =>
    dsimp only
    cases decideUmoneyMutation transfer.direction transfer.amountUnits before current with
    | apply => exact applyChange_deposited transfer hid before
    | alreadyApplied =>
      subst hid
      exact recordApplied_deposited current
    | conflict =>
      subst hid
      exact (deposited_keeps block_deposited).bind fun _ => refuse_keeps throwOnFailure _
    | insufficient =>
      subst hid
      exact (deposited_keeps fail_deposited).bind fun _ => refuse_keeps throwOnFailure _

private theorem recordAttempt_deposited (error : String) :
    Keeps (fun s : Economy => Deposited id playerUuid amount start s.db)
      (onDb (recordEconomyTransferAttempt id error)) := by
  have hrecord : Keeps (Deposited id playerUuid amount start) (transaction (recordAttemptTx id error)) :=
    Keeps.atomic fun _ _ _ h hb => record_deposited h hb
  have hfind : Keeps (Deposited id playerUuid amount start) (transaction (findEconomyTransfer id)) :=
    Keeps.atomic fun _ _ _ h hb => by rwa [(findEconomyTransfer_ok hb).1]
  have hcall : Keeps (Deposited id playerUuid amount start) (recordEconomyTransferAttempt id error) := by
    refine hrecord.bind fun recorded => ?_
    cases recorded with
    | true => exact Keeps.pure
    | false =>
      refine hfind.bind fun transfer => ?_
      by_cases ht : transfer.all (·.status = .failed)
      · simp only [ht, if_true]
        exact Keeps.throw
      · simp only [ht]
        exact Keeps.pure
  exact Triple.zoom fun _ hs => Triple.from_state hcall hs

private theorem noteFailure_deposited (transfer : EconomyTransfer) (hid : transfer.id = id) (throwOnFailure : Bool)
    (error : Error) : Keeps (fun s : Economy => Deposited id playerUuid amount start s.db)
      (noteFailure transfer throwOnFailure error) := by
  subst hid
  refine (find_deposited _).bind fun current => ?_
  by_cases hc : current.any (·.status = .prepared)
  · simp only [hc, if_true]
    refine (recordAttempt_deposited _).bind fun _ => ?_
    cases throwOnFailure with
    | true => exact Keeps.throw
    | false => exact Keeps.pure
  · simp only [hc]
    cases throwOnFailure with
    | true => exact Keeps.throw
    | false => exact Keeps.pure

/-- The player's exchange balance follows the deposit's status through an attempt. -/
theorem process_deposited {t : EconomyTransferRow} {before : ℤ} (ht : t.status = .prepared)
    (hbefore : t.externalBalanceBeforeUnits = some before) (throwOnFailure : Bool) :
    Keeps (fun s : Economy => Deposited id playerUuid amount start s.db)
      (processEconomyTransfer (economyTransferFromRow id t) throwOnFailure) := by
  have hid : (economyTransferFromRow id t).id = id := rfl
  rw [process_eq ht hbefore]
  exact (attempt_deposited _ hid before throwOnFailure).tryCatch fun error =>
    noteFailure_deposited _ hid throwOnFailure error

end Processing

end EndstoneExchange.DepositBalances
