import EndstoneExchange.UmoneyGateway

/-!
# Attempts of one transfer

Whatever raises and wherever the process stops, an attempt leaves the transfer's
status, the changes that took effect and the player's balance in step with each
other.
-/
namespace EndstoneExchange.UmoneyAttempts
open AutoIncrementTables KeyedTables AtomicTransactions.Transaction DurablePrograms ExchangeDomain
  ExchangeTransactions EconomyTransferOperations ClearingSteps ClearingRefinement ServiceRuns
  UmoneyGateway

variable {settings : Settings}

section Rows

/-- What no attempt changes in a transfer's row. -/
structure SameTransfer (t t' : EconomyTransferRow) : Prop where
  playerName : t'.playerName = t.playerName
  direction : t'.direction = t.direction
  units : t'.amountUnits = t.amountUnits
  before : t'.externalBalanceBeforeUnits = t.externalBalanceBeforeUnits

theorem SameTransfer.refl (t : EconomyTransferRow) : SameTransfer t t := ⟨rfl, rfl, rfl, rfl⟩

theorem SameTransfer.trans {t t' t'' : EconomyTransferRow} (h : SameTransfer t t')
    (h' : SameTransfer t' t'') : SameTransfer t t'' :=
  ⟨h'.playerName.trans h.playerName, h'.direction.trans h.direction, h'.units.trans h.units,
    h'.before.trans h.before⟩

/-- The table `start` with transfer `id` moved to a status, its terms being those of `t₀`. -/
structure At (start : Table EconomyTransferRow) (id : Id) (t₀ : EconomyTransferRow)
    (status : EconomyTransferStatus) (transfers : Table EconomyTransferRow) : Prop where
  own : ∃ t, transfers.get? id = some t ∧ t.status = status ∧ SameTransfer t₀ t
  others : ∀ j, j ≠ id → transfers.get? j = start.get? j
  next : transfers.nextId = start.nextId

variable {start transfers : Table EconomyTransferRow} {id : Id} {t₀ t : EconomyTransferRow}
  {status status' : EconomyTransferStatus} {db db' : Db}

theorem At.refl (h : start.get? id = some t) (hsame : SameTransfer t₀ t) : At start id t₀ t.status start :=
  ⟨⟨t, h, rfl, hsame⟩, fun _ _ => rfl, rfl⟩

theorem At.update (h : At start id t₀ status transfers) {f : EconomyTransferRow → EconomyTransferRow}
    (hf : ∀ t, t.status = status → SameTransfer t (f t) ∧ (f t).status = status') :
    At start id t₀ status' (transfers.update id f) := by
  obtain ⟨t, ht, hs, hsame⟩ := h.own
  obtain ⟨hkept, hs'⟩ := hf t hs
  refine ⟨⟨f t, by rw [Table.get?_update_self, ht]; rfl, hs', hsame.trans hkept⟩, fun j hj => ?_, ?_⟩
  · rw [Table.get?_update_ne _ _ hj, h.others j hj]
  · rw [Table.nextId_update, h.next]

theorem At.status_of (h : At start id t₀ status transfers) (ht : transfers.get? id = some t) :
    t.status = status := by
  obtain ⟨u, hu, hs, -⟩ := h.own
  obtain rfl : t = u := Option.some.inj (ht.symm.trans hu)
  exact hs

private theorem mark_turns {units : ℤ} {u : PUnit} (h : At start id t₀ .prepared db.economyTransfers)
    (hb : markEconomyTransferExternalAppliedTx id units db = .ok (u, db')) :
    At start id t₀ .externalApplied db'.economyTransfers := by
  simp only [markEconomyTransferExternalAppliedTx, updateTransfer, bind_ok, selectOne_ok, ite_ok, throwIf_ok,
    execute_ok, pure_ok, exists_eq_left', exists_and_left, exists_exists_and_eq_and, and_assoc] at hb
  obtain ⟨t, ht, -, ⟨-, hr⟩ | ⟨hs, -⟩⟩ := hb
  · obtain ⟨-, rfl⟩ := Prod.mk.inj hr
    exact h.update fun t _ => ⟨⟨rfl, rfl, rfl, rfl⟩, rfl⟩
  · exact absurd (h.status_of ht) hs

theorem complete_turns {c : Cents} (h : At start id t₀ .externalApplied db.economyTransfers)
    (hb : completeEconomyTransferTx id db = .ok (c, db')) :
    At start id t₀ .completed db'.economyTransfers := by
  simp only [completeEconomyTransferTx, updateTransfer, bind_ok, selectOne_ok, ite_ok, throwIf_ok, credit_ok,
    lockedBalance_ok, execute_ok, exists_eq_left', exists_and_left, exists_exists_and_eq_and, and_assoc,
    not_not] at hb
  obtain ⟨t, ht, -, ⟨hs, -⟩ | ⟨-, -, ⟨-, -, a, -, hr⟩ | ⟨-, a, -, hr⟩⟩⟩ := hb
  · have hturned := h.status_of ht
    rw [hs] at hturned
    cases hturned
  · obtain ⟨-, rfl⟩ := Prod.mk.inj hr
    rw [Db.setTransfer_economyTransfers, Db.post_economyTransfers]
    exact h.update fun t _ => ⟨⟨rfl, rfl, rfl, rfl⟩, rfl⟩
  · obtain ⟨-, rfl⟩ := Prod.mk.inj hr
    exact h.update fun t _ => ⟨⟨rfl, rfl, rfl, rfl⟩, rfl⟩

theorem fail_turns {error : String} {c : Cents} (h : At start id t₀ .prepared db.economyTransfers)
    (hb : failEconomyTransferTx id error db = .ok (c, db')) :
    At start id t₀ .failed db'.economyTransfers := by
  simp only [failEconomyTransferTx, updateTransfer, bind_ok, selectOne_ok, ite_ok, throwIf_ok, credit_ok,
    lockedBalance_ok, execute_ok, exists_eq_left', exists_and_left, exists_exists_and_eq_and, and_assoc]
    at hb
  obtain ⟨t, ht, -, ⟨-, ⟨-, -, a, -, hr⟩ | ⟨-, a, -, hr⟩⟩ | ⟨hs, -⟩⟩ := hb
  · obtain ⟨-, rfl⟩ := Prod.mk.inj hr
    rw [Db.setTransfer_economyTransfers, Db.post_economyTransfers]
    exact h.update fun t _ => ⟨⟨rfl, rfl, rfl, rfl⟩, rfl⟩
  · obtain ⟨-, rfl⟩ := Prod.mk.inj hr
    exact h.update fun t _ => ⟨⟨rfl, rfl, rfl, rfl⟩, rfl⟩
  · exact absurd (h.status_of ht) hs

private theorem block_turns {error : String} {u : PUnit} (h : At start id t₀ .prepared db.economyTransfers)
    (hb : blockEconomyTransferTx id error db = .ok (u, db')) :
    At start id t₀ .blocked db'.economyTransfers := by
  simp only [blockEconomyTransferTx, updateTransfer, bind_ok, selectOne_ok, throwIf_ok, execute_ok,
    exists_eq_left', exists_and_left, exists_exists_and_eq_and, and_assoc] at hb
  obtain ⟨-, -, -, hr⟩ := hb
  obtain ⟨-, rfl⟩ := Prod.mk.inj hr
  exact h.update fun t _ => ⟨⟨rfl, rfl, rfl, rfl⟩, rfl⟩

private theorem record_turns {error : String} {r : Bool} (h : At start id t₀ status db.economyTransfers)
    (hb : recordAttemptTx id error db = .ok (r, db')) : At start id t₀ status db'.economyTransfers := by
  simp only [recordAttemptTx, updateTransfer, bind_ok, select_ok, ite_ok, execute_ok, pure_ok,
    exists_eq_left'] at hb
  obtain ⟨-, hr⟩ | ⟨-, hr⟩ := hb
  · obtain ⟨-, rfl⟩ := Prod.mk.inj hr
    exact h.update fun t ht => ⟨⟨rfl, rfl, rfl, rfl⟩, ht⟩
  · obtain ⟨-, rfl⟩ := Prod.mk.inj hr
    exact h

end Rows

section Calls
variable {s₀ s : Economy} {id : Id} {t₀ t : EconomyTransferRow} {status status' : EconomyTransferStatus}
  {k : ℕ} {m : Option ℤ} {units : ℤ} {α : Type}

/-- Since `s₀` nothing moved but transfer `id`, its count of changes and its player's balance. -/
structure Stage (settings : Settings) (s₀ : Economy) (id : Id) (t₀ : EconomyTransferRow)
    (status : EconomyTransferStatus) (k : ℕ) (m : Option ℤ) (s : Economy) : Prop where
  steps : Steps settings (fun _ => True) ⟨s₀.db, none⟩ ⟨s.db, none⟩
  row : At s₀.db.economyTransfers id t₀ status s.db.economyTransfers
  applied : s.applied = Function.update s₀.applied id k
  money : s.money = Function.update s₀.money t₀.playerName m

theorem Stage.start (h : s₀.db.economyTransfers.get? id = some t) (hsame : SameTransfer t₀ t) :
    Stage settings s₀ id t₀ t.status (s₀.applied id) (s₀.money t₀.playerName) s₀ :=
  ⟨.refl, .refl h hsame, (Function.update_eq_self ..).symm, (Function.update_eq_self ..).symm⟩

theorem Stage.balance (h : Stage settings s₀ id t₀ status k m s) : s.money t₀.playerName = m := by
  rw [h.money, Function.update_self]

theorem Stage.count (h : Stage settings s₀ id t₀ status k m s) : s.applied id = k := by
  rw [h.applied, Function.update_self]

theorem Stage.changed (h : Stage settings s₀ id t₀ status k (some units) s) (deltaUnits : ℤ) :
    Stage settings s₀ id t₀ status (k + 1) (some (units + deltaUnits))
      (s.changed id t₀.playerName deltaUnits) := by
  refine ⟨h.steps, h.row, ?_, ?_⟩
  · change Function.update s.applied id (s.applied id + 1) = _
    rw [h.count, h.applied, Function.update_idem]
  · change Function.update s.money t₀.playerName ((s.money t₀.playerName).map (· + deltaUnits)) = _
    rw [h.balance, h.money, Function.update_idem]
    rfl

/-- A call that moves the transfer from one status to another, unless it raises before. -/
def Turns (settings : Settings) (s₀ : Economy) (id : Id) (t₀ : EconomyTransferRow) (k : ℕ) (m : Option ℤ)
    (status status' : EconomyTransferStatus) (x : Program Economy Error α) : Prop :=
  Triple (Stage settings s₀ id t₀ status k m) x (fun _ => Stage settings s₀ id t₀ status' k m)
    (fun _ s => Stage settings s₀ id t₀ status k m s ∨ Stage settings s₀ id t₀ status' k m s)
    (Stage settings s₀ id t₀ status k m)

theorem turn_triple {body : Tx α}
    (hsteps : ∀ {db a db'}, body db = .ok (a, db') → Steps settings (fun _ => True) ⟨db, none⟩ ⟨db', none⟩)
    (ht : ∀ {db a db'}, At s₀.db.economyTransfers id t₀ status db.economyTransfers →
      body db = .ok (a, db') → At s₀.db.economyTransfers id t₀ status' db'.economyTransfers) :
    Turns settings s₀ id t₀ k m status status' (onDb (transaction body)) := by
  refine Triple.zoom fun s hs => Triple.atomic ?_ ?_ ?_ ?_
  · rintro _ rfl
    exact hs
  · rintro _ rfl
    exact .inl hs
  · rintro db a db' rfl hb
    have hdone : Stage settings s₀ id t₀ status' k m { s with db := db' } :=
      ⟨hs.steps.trans (hsteps hb), ht hs.row hb, hs.applied, hs.money⟩
    exact ⟨hdone, .inr hdone⟩
  · rintro _ e rfl -
    exact .inl hs

theorem mark_triple (v : ℤ) : Turns settings s₀ id t₀ k m .prepared .externalApplied
    (onDb (markEconomyTransferExternalApplied id v)) :=
  turn_triple markEconomyTransferExternalAppliedTx_steps mark_turns

theorem complete_triple : Turns settings s₀ id t₀ k m .externalApplied .completed
    (onDb (completeEconomyTransfer id)) := turn_triple completeEconomyTransferTx_steps complete_turns

theorem fail_triple (error : String) : Turns settings s₀ id t₀ k m .prepared .failed
    (onDb (failEconomyTransfer id error)) := turn_triple failEconomyTransferTx_steps fail_turns

theorem block_triple (error : String) : Turns settings s₀ id t₀ k m .prepared .blocked
    (onDb (blockEconomyTransfer id error)) := turn_triple blockEconomyTransferTx_steps block_turns

/-- Nothing that happens to an attempt's note changes the stage. -/
theorem recordAttempt_keeps (error : String) :
    Keeps (Stage settings s₀ id t₀ status k m) (onDb (recordEconomyTransferAttempt id error)) := by
  refine Triple.zoom fun s hs => ?_
  have hkeeps : Keeps (fun db => Stage settings s₀ id t₀ status k m { s with db })
      (recordEconomyTransferAttempt id error) := by
    have hrecord : Keeps (fun db => Stage settings s₀ id t₀ status k m { s with db })
        (transaction (recordAttemptTx id error)) := Keeps.atomic fun db r db' h hb =>
      ⟨h.steps.trans (recordAttemptTx_steps hb), record_turns h.row hb, h.applied, h.money⟩
    have hfind : Keeps (fun db => Stage settings s₀ id t₀ status k m { s with db })
        (transaction (findEconomyTransfer id)) := Keeps.atomic fun db r db' h hb => by
      obtain ⟨-, rfl⟩ := Prod.mk.inj (select_ok.mp hb)
      exact h
    refine hrecord.bind fun recorded => ?_
    cases recorded with
    | true => exact Keeps.pure
    | false =>
      refine hfind.bind fun transfer => ?_
      by_cases ht : transfer.all (·.status = .failed)
      · simp only [ht, if_true]
        exact Keeps.throw
      · simp only [ht]
        exact Keeps.pure
  exact Triple.from_state hkeeps hs

private theorem find_keeps : Keeps (Stage settings s₀ id t₀ status k m)
    (onDb (transaction (findEconomyTransfer id))) := by
  refine Triple.conseq (turn_triple (fun hb => ?_) fun h hb => ?_) (fun _ h => h) (fun _ _ h => h)
    (fun _ _ h => h.elim (fun h => h) fun h => h) fun _ h => h
  · obtain ⟨-, rfl⟩ := Prod.mk.inj (select_ok.mp hb)
    exact .refl
  · obtain ⟨-, rfl⟩ := Prod.mk.inj (select_ok.mp hb)
    exact h

theorem balance_triple {P : Economy → Prop} (playerName : String) :
    Triple P (UmoneyGateway.balance playerName) (fun units s => P s ∧ s.money playerName = units)
      (fun _ => P) P := by
  refine Triple.call (fun _ h => h) (fun fault s a hs hok => ?_) fun fault s e hs herr => ?_
  · split_ifs at hok with h
    · rw [if_pos h]
      exact ⟨hs, Except.ok.inj hok⟩
  · split_ifs at herr with h
    rw [if_neg h]
    exact hs

theorem change_triple (deltaUnits : ℤ) :
    Triple (Stage settings s₀ id t₀ status k (some units))
      (change id t₀.playerName deltaUnits)
      (fun _ => Stage settings s₀ id t₀ status (k + 1) (some (units + deltaUnits)))
      (fun _ s => Stage settings s₀ id t₀ status k (some units) s ∨
        Stage settings s₀ id t₀ status (k + 1) (some (units + deltaUnits)) s)
      (Stage settings s₀ id t₀ status k (some units)) := by
  refine Triple.call (fun _ h => h) (fun fault s a hs hok => ?_) fun fault s e hs herr => ?_
  · have hsome : ¬ (s.money t₀.playerName).isNone := by simp [hs.balance]
    rw [if_neg hsome] at hok ⊢
    cases fault with
    | proceed => exact hs.changed deltaUnits
    | failBefore => cases hok
    | failAfter => cases hok
    | crash => cases hok
  · have hsome : ¬ (s.money t₀.playerName).isNone := by simp [hs.balance]
    rw [if_neg hsome] at herr ⊢
    cases fault with
    | proceed => cases herr
    | failBefore => exact .inl hs
    | failAfter => exact .inr (hs.changed deltaUnits)
    | crash => exact .inl hs

end Calls

section Attempts
variable {s₀ : Economy} {id : Id} {t₀ t u : EconomyTransferRow} {status : EconomyTransferStatus} {k₀ k : ℕ}
  {m : Option ℤ} {c before units : ℤ}

theorem decide_apply {direction : EconomyTransferDirection} {amount delta : ℤ}
    (hdelta : delta = if direction = .deposit then -amount else amount)
    (h : decideUmoneyMutation direction amount before c = .apply) :
    c = before ∧ decideUmoneyMutation direction amount before (c + delta) = .alreadyApplied := by
  subst hdelta
  cases direction <;> simp only [decideUmoneyMutation, reduceCtorEq, if_true, if_false] at h ⊢ <;>
    split_ifs at h ⊢ <;> simp_all
  all_goals omega

theorem deltaUnits_eq (t : EconomyTransferRow) :
    deltaUnits t = if t.direction = .deposit then -t.amountUnits else t.amountUnits := by
  unfold deltaUnits
  cases t.direction <;> rfl

/-- How an attempt may leave a prepared transfer, given its decision: the status, the count of
changes and the balance. -/
inductive Outcome (decision : UmoneyMutationDecision) (k₀ : ℕ) (c delta : ℤ) :
    EconomyTransferStatus → ℕ → ℤ → Prop
  | untouched : Outcome decision k₀ c delta .prepared k₀ c
  | applied (h : decision = .apply) {status : EconomyTransferStatus}
      (hs : status = .prepared ∨ status = .externalApplied ∨ status = .completed) :
      Outcome decision k₀ c delta status (k₀ + 1) (c + delta)
  | recognised (h : decision = .alreadyApplied) {status : EconomyTransferStatus}
      (hs : status = .externalApplied ∨ status = .completed) : Outcome decision k₀ c delta status k₀ c
  | refused (h : decision = .insufficient) : Outcome decision k₀ c delta .failed k₀ c
  | blocked (h : decision = .conflict) : Outcome decision k₀ c delta .blocked k₀ c

def Ended (settings : Settings) (s₀ : Economy) (id : Id) (t₀ : EconomyTransferRow)
    (decision : UmoneyMutationDecision) (k₀ : ℕ) (c : ℤ) (s : Economy) : Prop :=
  ∃ status k m, Stage settings s₀ id t₀ status k (some m) s ∧
    Outcome decision k₀ c (deltaUnits t₀) status k m

/-- A change that took effect, recorded as far as the transfer's status says. -/
def Recorded (settings : Settings) (s₀ : Economy) (id : Id) (t₀ : EconomyTransferRow) (k : ℕ) (m : ℤ)
    (s : Economy) : Prop :=
  ∃ status, (status = .prepared ∨ status = .externalApplied ∨ status = .completed) ∧
    Stage settings s₀ id t₀ status k (some m) s

theorem recordApplied_triple (appliedBalance : ℤ) :
    Triple (Stage settings s₀ id t₀ .prepared k (some units)) (recordApplied id appliedBalance)
      (fun _ => Recorded settings s₀ id t₀ k units) (fun _ => Recorded settings s₀ id t₀ k units)
      (Recorded settings s₀ id t₀ k units) := by
  refine Triple.bind (Triple.conseq (mark_triple appliedBalance) (fun _ h => h) (fun _ _ h => h)
    (fun _ s h => ?_) fun s h => ⟨_, .inl rfl, h⟩) fun _ => ?_
  · obtain h | h := h
    · exact ⟨_, .inl rfl, h⟩
    · exact ⟨_, .inr (.inl rfl), h⟩
  · refine Triple.bind (Triple.conseq complete_triple (fun _ h => h) (fun _ _ h => h)
      (fun _ s h => ?_) fun s h => ⟨_, .inr (.inl rfl), h⟩) fun _ =>
        Triple.pure fun s h => ⟨_, .inr (.inr rfl), h⟩
    obtain h | h := h
    · exact ⟨_, .inr (.inl rfl), h⟩
    · exact ⟨_, .inr (.inr rfl), h⟩

/-- A triple all of whose ends are the same. -/
theorem ended_of {x : Program Economy Error Bool} {P R : Economy → Prop}
    (h : Triple P x (fun _ => R) (fun _ => R) R) {E : Economy → Prop} (hE : ∀ s, R s → E s) :
    Triple P x (fun _ => E) (fun _ => E) E :=
  Triple.conseq h (fun _ hs => hs) (fun _ => hE) (fun _ => hE) hE

theorem refuse_keeps {I : Economy → Prop} (throwOnFailure : Bool) (error : String) :
    Keeps I (refuse throwOnFailure error) := by
  cases throwOnFailure with
  | true => exact Keeps.throw
  | false => exact Keeps.pure

variable {decision : UmoneyMutationDecision}

theorem Recorded.applied (hd : decision = .apply) {s : Economy}
    (h : Recorded settings s₀ id t₀ (k₀ + 1) (c + deltaUnits t₀) s) :
    Ended settings s₀ id t₀ decision k₀ c s := by
  obtain ⟨status, hs, hstage⟩ := h
  exact ⟨status, _, _, hstage, .applied hd hs⟩

theorem Recorded.recognised (hd : decision = .alreadyApplied) {s : Economy}
    (h : Recorded settings s₀ id t₀ k₀ c s) : Ended settings s₀ id t₀ decision k₀ c s := by
  obtain ⟨status, hs, hstage⟩ := h
  rcases hs with rfl | hs
  · exact ⟨_, _, _, hstage, .untouched⟩
  · exact ⟨status, _, _, hstage, .recognised hd hs⟩

theorem applyChange_triple (hd : decideUmoneyMutation t₀.direction t₀.amountUnits before c = .apply) :
    Triple (Stage settings s₀ id t₀ .prepared k₀ (some c))
      (applyChange (economyTransferFromRow id t₀) before)
      (fun _ => Ended settings s₀ id t₀ .apply k₀ c) (fun _ => Ended settings s₀ id t₀ .apply k₀ c)
      (Ended settings s₀ id t₀ .apply k₀ c) := by
  have hmoved : ∀ s, Stage settings s₀ id t₀ .prepared (k₀ + 1) (some (c + deltaUnits t₀)) s →
      Ended settings s₀ id t₀ .apply k₀ c s := fun s h => ⟨_, _, _, h, .applied rfl (.inl rfl)⟩
  refine Triple.bind (Triple.conseq (change_triple (deltaUnits t₀)) (fun _ h => h) (fun _ _ h => h)
    (fun _ s h => h.elim (fun h => ⟨_, _, _, h, .untouched⟩) (hmoved s)) fun s h =>
      ⟨_, _, _, h, .untouched⟩) fun _ => ?_
  refine Triple.bind (Triple.conseq (balance_triple t₀.playerName) (fun _ h => h) (fun _ _ h => h)
    (fun _ => hmoved) hmoved) fun reloaded => ?_
  refine Triple.of_forall fun s hs => ?_
  obtain rfl : some (c + deltaUnits t₀) = reloaded := hs.1.balance.symm.trans hs.2
  have hverified := (decide_apply (deltaUnits_eq t₀) hd).2
  have hrecord := ended_of (recordApplied_triple (c + deltaUnits t₀)) fun s h =>
    (Recorded.applied rfl h : Ended settings s₀ id t₀ .apply k₀ c s)
  simp only [economyTransferFromRow, hverified, ne_eq, not_true_eq_false, if_false]
  exact hrecord.from_state hs.1

theorem attempt_triple (throwOnFailure : Bool) :
    Triple (Stage settings s₀ id t₀ .prepared k₀ (some c))
      (attempt (economyTransferFromRow id t₀) before throwOnFailure)
      (fun _ => Ended settings s₀ id t₀
        (decideUmoneyMutation t₀.direction t₀.amountUnits before c) k₀ c)
      (fun _ => Ended settings s₀ id t₀
        (decideUmoneyMutation t₀.direction t₀.amountUnits before c) k₀ c)
      (Ended settings s₀ id t₀ (decideUmoneyMutation t₀.direction t₀.amountUnits before c) k₀ c) := by
  generalize hd : decideUmoneyMutation t₀.direction t₀.amountUnits before c = decision
  have huntouched : ∀ s, Stage settings s₀ id t₀ .prepared k₀ (some c) s →
      Ended settings s₀ id t₀ decision k₀ c s := fun s h => ⟨_, _, _, h, .untouched⟩
  refine Triple.bind (Triple.conseq (balance_triple t₀.playerName) (fun _ h => h) (fun _ _ h => h)
    (fun _ => huntouched) huntouched) fun current => ?_
  refine Triple.of_forall fun s hs => ?_
  obtain rfl : some c = current := hs.1.balance.symm.trans hs.2
  simp only [economyTransferFromRow, hd]
  cases decision with
  | apply => exact (applyChange_triple hd).from_state hs.1
  | alreadyApplied =>
    exact (ended_of (recordApplied_triple c) fun s h => Recorded.recognised rfl h).from_state hs.1
  | conflict =>
    have hblocked : ∀ s, Stage settings s₀ id t₀ .blocked k₀ (some c) s →
        Ended settings s₀ id t₀ .conflict k₀ c s := fun s h => ⟨_, _, _, h, .blocked rfl⟩
    refine Triple.from_state (Triple.bind (Triple.conseq (block_triple _) (fun _ h => h)
      (fun _ => hblocked) (fun _ s h => h.elim (huntouched s) (hblocked s)) huntouched) fun _ => ?_) hs.1
    exact refuse_keeps throwOnFailure _
  | insufficient =>
    have hfailed : ∀ s, Stage settings s₀ id t₀ .failed k₀ (some c) s →
        Ended settings s₀ id t₀ .insufficient k₀ c s := fun s h => ⟨_, _, _, h, .refused rfl⟩
    refine Triple.from_state (Triple.bind (Triple.conseq (fail_triple _) (fun _ h => h)
      (fun _ => hfailed) (fun _ s h => h.elim (huntouched s) (hfailed s)) huntouched) fun _ => ?_) hs.1
    exact refuse_keeps throwOnFailure _

theorem noteFailure_keeps (throwOnFailure : Bool) (error : Error) :
    Keeps (Stage settings s₀ id t₀ status k m)
      (noteFailure (economyTransferFromRow id t) throwOnFailure error) := by
  refine find_keeps.bind fun current => ?_
  by_cases hc : current.any (·.status = .prepared)
  · simp only [hc, if_true]
    refine (recordAttempt_keeps _).bind fun _ => ?_
    cases throwOnFailure with
    | true => exact Keeps.throw
    | false => exact Keeps.pure
  · simp only [hc]
    cases throwOnFailure with
    | true => exact Keeps.throw
    | false => exact Keeps.pure

private theorem noteFailure_ended (throwOnFailure : Bool) (error : Error) :
    Keeps (Ended settings s₀ id t₀ decision k₀ c)
      (noteFailure (economyTransferFromRow id t) throwOnFailure error) := by
  rintro fs s ⟨status, k, m, hs, ho⟩
  have hended : ∀ s, Stage settings s₀ id t₀ status k (some m) s → Ended settings s₀ id t₀ decision k₀ c s :=
    fun s h => ⟨status, k, m, h, ho⟩
  exact Triple.conseq (noteFailure_keeps throwOnFailure error) (fun _ h => h) (fun _ => hended)
    (fun _ => hended) hended fs s hs

/-- An attempt looks at nothing of a transfer that attempts change. -/
theorem attempt_congr (h : SameTransfer t₀ t) (throwOnFailure : Bool) :
    attempt (economyTransferFromRow id t) before throwOnFailure =
      attempt (economyTransferFromRow id t₀) before throwOnFailure := by
  cases t₀
  cases t
  obtain ⟨rfl, rfl, rfl, -⟩ := h
  rfl

theorem process_eq (hu : u.status = .prepared) (hbefore : u.externalBalanceBeforeUnits = some before)
    (throwOnFailure : Bool) :
    processEconomyTransfer (economyTransferFromRow id u) throwOnFailure =
      tryCatch (attempt (economyTransferFromRow id u) before throwOnFailure)
        (noteFailure (economyTransferFromRow id u) throwOnFailure) := by
  simp only [processEconomyTransfer, economyTransferFromRow, hu, hbefore]

/-- Wherever it stops, an attempt ends in one of its outcomes. -/
theorem process_prepared (hrow : s₀.db.economyTransfers.get? id = some t) (ht : SameTransfer t₀ t)
    (hs : t.status = .prepared) (hu : u.status = .prepared) (hsame : SameTransfer t₀ u)
    (hbefore : t₀.externalBalanceBeforeUnits = some before) (hmoney : s₀.money t₀.playerName = some c)
    (throwOnFailure : Bool) (faults : List Fault) :
    Ended settings s₀ id t₀ (decideUmoneyMutation t₀.direction t₀.amountUnits before c) (s₀.applied id) c
      (processEconomyTransfer (economyTransferFromRow id u) throwOnFailure faults s₀).2.2 := by
  have hstart := @Stage.start settings _ _ _ _ hrow ht
  rw [hs, hmoney] at hstart
  have htriple := Triple.tryCatch (@attempt_triple settings s₀ id t₀ (s₀.applied id) c before throwOnFailure)
    fun e => @noteFailure_ended settings s₀ id t₀ u _ _ _ throwOnFailure e
  rw [process_eq hu (hsame.before.trans hbefore), attempt_congr hsame]
  exact htriple.final faults hstart

end Attempts

end EndstoneExchange.UmoneyAttempts
