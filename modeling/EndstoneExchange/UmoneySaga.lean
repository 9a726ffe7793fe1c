import EndstoneExchange.UmoneyAttempts

/-!
# The saga of one transfer

A transfer that has its player's balance to itself is applied exactly once, however
often it is processed and whatever raises or stops on the way.
-/
namespace EndstoneExchange.UmoneySaga
open AutoIncrementTables KeyedTables AtomicTransactions.Transaction DurablePrograms ExchangeDomain
  ExchangeTransactions AccountOperations EconomyTransferOperations ClearingSteps ClearingRefinement
  ServiceRuns TransferLedger UmoneyGateway UmoneyAttempts

variable {settings : Settings}

section Settled
variable {id : Id} {t : EconomyTransferRow} {db db' : Db}

private theorem mark_settled {units : ℤ} {u : PUnit} (ht : db.economyTransfers.get? id = some t)
    (hs : t.status ≠ .prepared) (hb : markEconomyTransferExternalAppliedTx id units db = .ok (u, db')) :
    db' = db := by
  simp only [markEconomyTransferExternalAppliedTx, bind_ok, selectOne_ok, ht, throwIf_ok, Option.some.injEq,
    exists_eq_left', exists_and_left, and_assoc, hs, if_false, pure_ok] at hb
  exact (Prod.mk.inj hb.2).2.symm

private theorem fail_settled {error : String} {c : Cents} (ht : db.economyTransfers.get? id = some t)
    (hs : t.status ≠ .prepared) (hb : failEconomyTransferTx id error db = .ok (c, db')) : db' = db := by
  simp only [failEconomyTransferTx, bind_ok, selectOne_ok, ht, throwIf_ok, Option.some.injEq,
    exists_eq_left', exists_and_left, and_assoc, hs, if_false, lockedBalance_ok] at hb
  obtain ⟨-, a, -, hr⟩ := hb
  exact (Prod.mk.inj hr).2.symm

private theorem block_settled {error : String} {u : PUnit} (ht : db.economyTransfers.get? id = some t)
    (hs : t.status ≠ .prepared) (hb : blockEconomyTransferTx id error db = .ok (u, db')) : db' = db := by
  simp only [blockEconomyTransferTx, bind_ok, selectOne_ok, ht, throwIf_ok, Option.some.injEq,
    exists_eq_left', exists_and_left, and_assoc, not_not] at hb
  exact absurd hb.1 hs

private theorem complete_settled {c : Cents} (ht : db.economyTransfers.get? id = some t)
    (hs : t.status ≠ .externalApplied) (hb : completeEconomyTransferTx id db = .ok (c, db')) :
    db' = db := by
  simp only [completeEconomyTransferTx, bind_ok, selectOne_ok, ht, throwIf_ok, Option.some.injEq, ite_ok,
    lockedBalance_ok, exists_eq_left', exists_and_left, and_assoc, not_not] at hb
  obtain ⟨-, ⟨-, a, -, hr⟩ | ⟨-, h, -⟩⟩ := hb
  · exact (Prod.mk.inj hr).2.symm
  · exact absurd h hs

variable {s₀ : Economy} {t₀ u : EconomyTransferRow} {status : EconomyTransferStatus} {k : ℕ} {before c : ℤ}
  {m : Option ℤ}

/-- A transfer that was settled in `status`; it may have been completed since. -/
def Settled (settings : Settings) (s₀ : Economy) (id : Id) (t₀ : EconomyTransferRow)
    (status : EconomyTransferStatus) (k : ℕ) (m : Option ℤ) (s : Economy) : Prop :=
  ∃ status', (status' = status ∨ status = .externalApplied ∧ status' = .completed) ∧
    Stage settings s₀ id t₀ status' k m s

theorem settled_keeps {α : Type} {body : Tx α} (hs : status ≠ .prepared)
    (hbody : ∀ {db t a db'}, db.economyTransfers.get? id = some t → t.status ≠ .prepared →
      body db = .ok (a, db') → db' = db) :
    Keeps (Settled settings s₀ id t₀ status k m) (onDb (transaction body)) := by
  refine Triple.zoom fun s h => Triple.from_state (Keeps.atomic
    (I := fun db => Settled settings s₀ id t₀ status k m { s with db }) fun db a db' h hb => ?_) h
  obtain ⟨status', hstatus, hstage⟩ := h
  obtain ⟨t, ht, hts, -⟩ := hstage.row.own
  have hprepared : t.status ≠ .prepared := by
    rw [hts]
    rcases hstatus with rfl | ⟨-, rfl⟩
    · exact hs
    · simp
  obtain rfl := hbody ht hprepared hb
  exact ⟨status', hstatus, hstage⟩

theorem complete_keeps : Keeps (Settled settings s₀ id t₀ status k m) (onDb (completeEconomyTransfer id)) := by
  refine Triple.zoom fun s h => Triple.from_state (Keeps.atomic
    (I := fun db => Settled settings s₀ id t₀ status k m { s with db }) fun db a db' h hb => ?_) h
  obtain ⟨status', hstatus, hstage⟩ := h
  obtain ⟨t, ht, hts, -⟩ := hstage.row.own
  by_cases happlied : status' = .externalApplied
  · subst happlied
    have hwas : status = .externalApplied := by
      rcases hstatus with rfl | ⟨h, -⟩
      · rfl
      · exact h
    exact ⟨.completed, .inr ⟨hwas, rfl⟩, hstage.steps.trans (completeEconomyTransferTx_steps hb),
      complete_turns hstage.row hb, hstage.applied, hstage.money⟩
  · obtain rfl := complete_settled ht (hts ▸ happlied) hb
    exact ⟨status', hstatus, hstage⟩

theorem Settled.balance {s : Economy} (h : Settled settings s₀ id t₀ status k m s) :
    s.money t₀.playerName = m := by
  obtain ⟨_, -, hstage⟩ := h
  exact hstage.balance

private theorem recordApplied_settled (hs : status ≠ .prepared) (appliedBalance : ℤ) :
    Keeps (Settled settings s₀ id t₀ status k m) (recordApplied id appliedBalance) :=
  (settled_keeps hs mark_settled).bind fun _ => complete_keeps.bind fun _ => Keeps.pure

/-- No attempt with an old snapshot undoes what is settled. -/
theorem attempt_settled (hs : status ≠ .prepared)
    (hd : decideUmoneyMutation t₀.direction t₀.amountUnits before c ≠ .apply) (throwOnFailure : Bool) :
    Keeps (Settled settings s₀ id t₀ status k (some c))
      (attempt (economyTransferFromRow id t₀) before throwOnFailure) := by
  refine Triple.bind (balance_triple t₀.playerName) fun current => Triple.of_forall fun s h => ?_
  obtain rfl : some c = current := h.1.balance.symm.trans h.2
  refine Triple.from_state (P := Settled settings s₀ id t₀ status k (some c)) ?_ h.1
  simp only [economyTransferFromRow]
  cases hdecision : decideUmoneyMutation t₀.direction t₀.amountUnits before c with
  | apply => exact absurd hdecision hd
  | alreadyApplied => exact recordApplied_settled hs c
  | conflict => exact (settled_keeps hs block_settled).bind fun _ => refuse_keeps throwOnFailure _
  | insufficient => exact (settled_keeps hs fail_settled).bind fun _ => refuse_keeps throwOnFailure _

private theorem noteFailure_settled (throwOnFailure : Bool) (error : Error) :
    Keeps (Settled settings s₀ id t₀ status k m)
      (noteFailure (economyTransferFromRow id u) throwOnFailure error) := by
  rintro fs s ⟨status', hstatus, hstage⟩
  have hsettled : ∀ s, Stage settings s₀ id t₀ status' k m s → Settled settings s₀ id t₀ status k m s :=
    fun s h => ⟨status', hstatus, h⟩
  exact Triple.conseq (noteFailure_keeps throwOnFailure error) (fun _ h => h) (fun _ => hsettled)
    (fun _ => hsettled) hsettled fs s hstage

/-- A snapshot past PREPARED can only be completed. -/
theorem process_past (hu : u.status ≠ .prepared) (throwOnFailure : Bool) :
    Keeps (Settled settings s₀ id t₀ status k m)
      (processEconomyTransfer (economyTransferFromRow id u) throwOnFailure) := by
  cases hstatus : u.status with
  | prepared => exact absurd hstatus hu
  | externalApplied =>
    simp only [processEconomyTransfer, economyTransferFromRow, hstatus]
    exact complete_keeps.bind fun _ => Keeps.pure
  | completed =>
    simp only [processEconomyTransfer, economyTransferFromRow, hstatus]
    exact Keeps.pure
  | failed =>
    simp only [processEconomyTransfer, economyTransferFromRow, hstatus]
    exact Keeps.pure
  | blocked =>
    simp only [processEconomyTransfer, economyTransferFromRow, hstatus]
    exact Keeps.pure

/-- Processing a settled transfer, or a snapshot that is past PREPARED. -/
theorem process_settled (hsame : SameTransfer t₀ u) (hbefore : t₀.externalBalanceBeforeUnits = some before)
    (h : u.status ≠ .prepared ∨ status ≠ .prepared ∧
      decideUmoneyMutation t₀.direction t₀.amountUnits before c ≠ .apply) (throwOnFailure : Bool) :
    Keeps (Settled settings s₀ id t₀ status k (some c))
      (processEconomyTransfer (economyTransferFromRow id u) throwOnFailure) := by
  by_cases hu : u.status = .prepared
  · obtain hu' | ⟨hs, hd⟩ := h
    · exact absurd hu hu'
    · rw [process_eq hu (hsame.before.trans hbefore), attempt_congr hsame]
      exact (attempt_settled hs hd throwOnFailure).tryCatch fun e => noteFailure_settled throwOnFailure e
  · exact process_past hu throwOnFailure

end Settled

section Invariant
variable {id : Id} {t₀ t u : EconomyTransferRow} {before : ℤ} {s : Economy}

/-- How a transfer's status and the number of its changes go together, given the decision at its
baseline. -/
inductive Tally (decision : UmoneyMutationDecision) : EconomyTransferStatus → ℕ → Prop
  | prepared : Tally decision .prepared 0
  | applied (h : decision = .apply) {status : EconomyTransferStatus}
      (hs : status = .prepared ∨ status = .externalApplied ∨ status = .completed) : Tally decision status 1
  | failed (h : decision = .insufficient) : Tally decision .failed 0
  | blocked (h : decision = .conflict) : Tally decision .blocked 0

section Tallies
variable {decision : UmoneyMutationDecision} {status : EconomyTransferStatus} {k : ℕ}

theorem Tally.le (h : Tally decision status k) : k ≤ 1 := by
  cases h <;> simp

theorem Tally.of_applied (h : Tally decision status k) (hs : status = .completed ∨ status = .externalApplied) :
    k = 1 := by
  cases h <;> simp_all

theorem Tally.of_failed (h : Tally decision .failed k) : k = 0 := by
  cases h with
  | applied _ hs => simp at hs
  | failed => rfl

theorem Tally.of_blocked (h : Tally decision .blocked k) : decision = .conflict := by
  cases h with
  | applied _ hs => simp at hs
  | blocked h => exact h

end Tallies

/-- The state of a transfer that has its player's balance to itself. -/
structure Sound (id : Id) (t₀ : EconomyTransferRow) (before : ℤ) (s : Economy) : Prop where
  booked : Booked s.db
  row : ∃ t, s.db.economyTransfers.get? id = some t ∧ SameTransfer t₀ t ∧
    Tally (decideUmoneyMutation t₀.direction t₀.amountUnits before before) t.status (s.applied id)
  money : s.money t₀.playerName = some (before + s.applied id * deltaUnits t₀)

private theorem decide_baseline {direction : EconomyTransferDirection} {units : ℤ} (hu : 0 < units) :
    decideUmoneyMutation direction units before before ≠ .alreadyApplied := by
  cases direction <;> simp only [decideUmoneyMutation, ne_eq] <;> split_ifs <;> simp <;> omega

theorem Sound.of_stage {s₀ : Economy} {status : EconomyTransferStatus} {k : ℕ} {m : ℤ}
    (h : Sound id t₀ before s₀) (hstage : Stage settings s₀ id t₀ status k (some m) s)
    (htally : Tally (decideUmoneyMutation t₀.direction t₀.amountUnits before before) status k)
    (hm : m = before + k * deltaUnits t₀) : Sound id t₀ before s := by
  obtain ⟨t, ht, hts, hsame⟩ := hstage.row.own
  refine ⟨Steps.induct (I := fun d => Booked d.db) booked_step hstage.steps h.booked, ⟨t, ht, hsame, ?_⟩, ?_⟩
  · rw [hts, hstage.count]
    exact htally
  · rw [hstage.balance, hstage.count, hm]

/-- One call, with any snapshot of the transfer. -/
theorem Sound.process (settings : Settings) (h : Sound id t₀ before s) (hu : 0 < t₀.amountUnits)
    (hbefore : t₀.externalBalanceBeforeUnits = some before) (hsame : SameTransfer t₀ u)
    (throwOnFailure : Bool) (faults : List Fault) : Sound id t₀ before
      (processEconomyTransfer (economyTransferFromRow id u) throwOnFailure faults s).2.2 := by
  obtain ⟨t, ht, hsame', htally⟩ := h.row
  have hfresh := @decide_baseline before t₀.direction _ hu
  have hstart := @Stage.start settings _ _ _ _ ht hsame'
  rw [h.money] at hstart
  by_cases hcase : u.status = .prepared ∧ t.status = .prepared
  · obtain ⟨status, k, m, hstage, hout⟩ :=
      @process_prepared settings _ _ _ _ _ _ _ ht hsame' hcase.2 hcase.1 hsame hbefore h.money
        throwOnFailure faults
    rw [hcase.2] at htally
    generalize hk : s.applied id = k₀ at *
    cases htally with
    | prepared =>
      simp only [Nat.cast_zero, zero_mul, add_zero] at hout
      cases hout with
      | untouched => exact h.of_stage hstage .prepared (by simp)
      | applied hd hs => exact h.of_stage hstage (.applied hd hs) (by simp)
      | recognised hd => exact absurd hd hfresh
      | refused hd => exact h.of_stage hstage (.failed hd) (by simp)
      | blocked hd => exact h.of_stage hstage (.blocked hd) (by simp)
    | applied hd hs =>
      have hdone := (decide_apply (deltaUnits_eq t₀) hd).2
      simp only [Nat.cast_one, one_mul, hdone] at hout
      cases hout with
      | untouched => exact h.of_stage hstage (.applied hd hs) (by simp)
      | applied hd' => cases hd'
      | recognised _ hs' => exact h.of_stage hstage (.applied hd (.inr hs')) (by simp)
      | refused hd' => cases hd'
      | blocked hd' => cases hd'
  · have hcond : u.status ≠ .prepared ∨ t.status ≠ .prepared ∧ decideUmoneyMutation t₀.direction
        t₀.amountUnits before (before + s.applied id * deltaUnits t₀) ≠ .apply := by
      by_cases hus : u.status = .prepared
      · have hts : t.status ≠ .prepared := fun hts => hcase ⟨hus, hts⟩
        refine .inr ⟨hts, fun hd => ?_⟩
        generalize s.applied id = k at htally hd
        generalize t.status = status at htally hts
        cases htally with
        | prepared => exact hts rfl
        | applied h =>
          rw [Nat.cast_one, one_mul, (decide_apply (deltaUnits_eq t₀) h).2] at hd
          cases hd
        | failed h =>
          rw [Nat.cast_zero, zero_mul, add_zero, h] at hd
          cases hd
        | blocked h =>
          rw [Nat.cast_zero, zero_mul, add_zero, h] at hd
          cases hd
      · exact .inl hus
    have hkeeps : Keeps (Settled settings s id t₀ t.status (s.applied id) _)
        (processEconomyTransfer (economyTransferFromRow id u) throwOnFailure) :=
      process_settled hsame hbefore hcond throwOnFailure
    obtain ⟨status', hstatus, hstage⟩ := hkeeps.final faults ⟨t.status, .inl rfl, hstart⟩
    refine h.of_stage hstage ?_ rfl
    obtain rfl | ⟨hs, rfl⟩ := hstatus
    · exact htally
    · rw [hs] at htally
      generalize s.applied id = k at htally ⊢
      cases htally with
      | applied hd => exact .applied hd (.inr (.inr rfl))

end Invariant

section Preparing
variable {s : Economy} {playerUuid playerName : String} {direction : EconomyTransferDirection}
  {amountCents : Cents} {amountUnits : ℤ} {before : Option ℤ} {db₀ db db' : Db}

/-- What preparing a transfer leaves behind: nothing, or its row under the next id. -/
structure Preparing (settings : Settings) (db₀ : Db) (row : EconomyTransferRow) (db : Db) : Prop where
  steps : Steps settings (fun _ => True) ⟨db₀, none⟩ ⟨db, none⟩
  transfers : db.economyTransfers = db₀.economyTransfers ∨
    0 < row.amountUnits ∧ db.economyTransfers = db₀.economyTransfers.insert row

private theorem ensureAccountTx_transfers {u : PUnit}
    (hb : ensureAccountTx settings playerUuid playerName db = .ok (u, db')) :
    db'.economyTransfers = db.economyTransfers := by
  obtain ⟨-, rfl⟩ := Prod.mk.inj (ensureAccountTx_ok.mp hb)
  unfold Db.ensured
  cases db.accounts.find? playerUuid <;> rfl

private theorem prepareEconomyTransferTx_transfers {id : Id}
    (hb : prepareEconomyTransferTx playerUuid playerName direction amountCents amountUnits before db =
      .ok (id, db')) :
    db'.economyTransfers = db.economyTransfers.insert
      { playerUuid, playerName, direction, amountCents, amountUnits, externalBalanceBeforeUnits := before } := by
  cases direction with
  | deposit =>
    simp only [prepareEconomyTransferTx, bind_ok, select_ok, execute_ok, pure_ok, exists_eq_left',
      reduceCtorEq, if_false] at hb
    obtain ⟨-, rfl⟩ := Prod.mk.inj hb
    rfl
  | withdraw =>
    simp only [prepareEconomyTransferTx, bind_ok, select_ok, execute_ok, pure_ok, exists_eq_left',
      if_true, debit_ok, and_assoc, exists_and_left] at hb
    obtain ⟨-, hr⟩ := hb
    obtain ⟨-, rfl⟩ := Prod.mk.inj hr
    rw [Db.post_economyTransfers]
    rfl

theorem prepareEconomyTransfer_leaves (faults : List Fault) :
    Preparing settings s.db
      { playerUuid, playerName, direction, amountCents, amountUnits, externalBalanceBeforeUnits := before }
      (prepareEconomyTransfer settings playerUuid playerName direction amountCents amountUnits before
        faults s.db).2.2 := by
  generalize hrow : (
    { playerUuid, playerName, direction, amountCents, amountUnits
      externalBalanceBeforeUnits := before } : EconomyTransferRow) = row
  let Unprepared (db : Db) : Prop :=
    Steps settings (fun _ => True) ⟨s.db, none⟩ ⟨db, none⟩ ∧ db.economyTransfers = s.db.economyTransfers
  have hun : ∀ db, Unprepared db → Preparing settings s.db row db := fun db h => ⟨h.1, .inl h.2⟩
  have hensure : Keeps Unprepared (ensureAccount settings playerUuid playerName) :=
    Keeps.guard fun _ => Keeps.atomic fun db u db' h hb =>
      ⟨h.1.trans (ensureAccountTx_steps hb), (ensureAccountTx_transfers hb).trans h.2⟩
  have hprogram : Triple Unprepared
      (prepareEconomyTransfer settings playerUuid playerName direction amountCents amountUnits before)
      (fun _ => Preparing settings s.db row) (fun _ => Preparing settings s.db row)
      (Preparing settings s.db row) := by
    refine Triple.guard (fun _ => hun) fun _ => Triple.guard (fun _ => hun) fun hamount => ?_
    rw [not_or, not_le, not_le] at hamount
    refine Triple.bind (Triple.conseq hensure (fun _ h => h) (fun _ _ h => h) (fun _ => hun) hun) fun _ => ?_
    have hinsert : Triple Unprepared (transaction (prepareEconomyTransferTx playerUuid playerName direction
        amountCents amountUnits before)) (fun _ => Preparing settings s.db row)
        (fun _ => Preparing settings s.db row) (Preparing settings s.db row) := by
      refine Triple.atomic hun hun (fun db id db' h hb => ?_) fun db e h _ => hun db h
      have hdone : Preparing settings s.db row db' := by
        refine ⟨h.1.trans (prepareEconomyTransferTx_steps hamount.1 hb), .inr ⟨?_, ?_⟩⟩
        · rw [← hrow]
          exact hamount.2
        · rw [prepareEconomyTransferTx_transfers hb, h.2, hrow]
      exact ⟨hdone, hdone⟩
    refine Triple.bind hinsert fun id => ?_
    have hfind : Keeps (Preparing settings s.db row) (transaction (findEconomyTransfer id)) :=
      Keeps.atomic fun db r db' h hb => by
        obtain ⟨-, rfl⟩ := Prod.mk.inj (select_ok.mp hb)
        exact h
    refine Triple.bind hfind fun transfer => ?_
    cases transfer with
    | none => exact Triple.throw fun _ h => h
    | some transfer => exact Triple.pure fun _ h => h
  exact hprogram.final faults ⟨.refl, rfl⟩

end Preparing

section Runs
variable {id : Id} {t₀ : EconomyTransferRow} {before : ℤ} {s : Economy}

/-- The runs of transfer `id`, prepared with its player's true balance as baseline. It is processed
from any snapshot; what happens elsewhere leaves its row and that balance alone. -/
inductive Saga (settings : Settings) : Id → EconomyTransferRow → ℤ → Economy → Prop
  | prepared {s s' : Economy} {playerUuid playerName : String} {direction : EconomyTransferDirection}
      {amountCents : Cents} {amountUnits before : ℤ} {t₀ : EconomyTransferRow} (h : Reachable settings s.db)
      (hmoney : s.money playerName = some before) (hfresh : s.applied s.db.economyTransfers.nextId = 0)
      (faults : List Fault)
      (hs' : s' = (onDb (prepareEconomyTransfer settings playerUuid playerName direction amountCents
        amountUnits (some before)) faults s).2.2)
      (hrow : s'.db.economyTransfers.get? s.db.economyTransfers.nextId = some t₀) :
      Saga settings s.db.economyTransfers.nextId t₀ before s'
  | processed {id : Id} {t₀ t : EconomyTransferRow} {before : ℤ} {s : Economy}
      (h : Saga settings id t₀ before s) (ht : SameTransfer t₀ t) (throwOnFailure : Bool)
      (faults : List Fault) : Saga settings id t₀ before
        (processEconomyTransfer (economyTransferFromRow id t) throwOnFailure faults s).2.2
  | elsewhere {id : Id} {t₀ : EconomyTransferRow} {before : ℤ} {s s' : Economy}
      (h : Saga settings id t₀ before s) (hsteps : Steps settings (fun _ => True) ⟨s.db, none⟩ ⟨s'.db, none⟩)
      (hrow : s'.db.economyTransfers.get? id = s.db.economyTransfers.get? id)
      (hmoney : s'.money t₀.playerName = s.money t₀.playerName) (happlied : s'.applied id = s.applied id) :
      Saga settings id t₀ before s'

theorem Saga.sound (h : Saga settings id t₀ before s) :
    (0 < t₀.amountUnits ∧ t₀.externalBalanceBeforeUnits = some before) ∧ Sound id t₀ before s := by
  induction h with
  | @prepared s s' playerUuid playerName direction amountCents amountUnits before t₀ h hmoney hfresh faults
      hs' hrow =>
    subst hs'
    have hleaves := @prepareEconomyTransfer_leaves settings s playerUuid playerName direction amountCents
      amountUnits (some before) faults
    have hbooked : Booked s.db := h.induct (I := fun d => Booked d.db)
      ⟨fun id t ht => by simp at ht, fun i l id hi => by simp at hi⟩ booked_step
    obtain hkept | ⟨hunits, hinserted⟩ := hleaves.transfers
    · exact absurd rfl (Table.ne_nextId (hkept ▸ hrow))
    · have hrow' := hrow
      rw [onDb_db, hinserted, Table.get?_insert_self] at hrow'
      cases hrow'
      refine ⟨⟨hunits, rfl⟩, Steps.induct (I := fun d => Booked d.db) booked_step hleaves.steps hbooked,
        ⟨_, hrow, .refl _, ?_⟩, ?_⟩
      · rw [onDb_applied, hfresh]
        exact .prepared
      · rw [onDb_applied, onDb_money, hfresh]
        simpa using hmoney
  | processed h ht throwOnFailure faults ih =>
    exact ⟨ih.1, ih.2.process settings ih.1.1 ih.1.2 ht throwOnFailure faults⟩
  | elsewhere h hsteps hrow hmoney happlied ih =>
    refine ⟨ih.1, Steps.induct (I := fun d => Booked d.db) booked_step hsteps ih.2.booked, ?_, ?_⟩
    · rw [hrow, happlied]
      exact ih.2.row
    · rw [hmoney, happlied]
      exact ih.2.money

private theorem decide_blocked {direction : EconomyTransferDirection} {units : ℤ} (hu : 0 < units)
    (h : decideUmoneyMutation direction units before before = .conflict) :
    direction = .withdraw ∧ maxCents - units < before := by
  cases direction <;> simp only [decideUmoneyMutation] at h <;> split_ifs at h <;> simp_all
  all_goals omega

private theorem effect_failed {t : EconomyTransferRow} (h : t.status = .failed) : effect t = 0 := by
  unfold effect
  cases t.direction <;> simp [h]

/-- Whatever happens on the way, the change is made at most once, the final statuses tell whether it
was, a failed transfer's reserve is booked back, and only an overflow blocks. -/
theorem saga_exactly_once (h : Saga settings id t₀ before s) :
    ∃ t, s.db.economyTransfers.get? id = some t ∧ s.applied id ≤ 1 ∧
      s.money t₀.playerName = some (before + s.applied id * deltaUnits t₀) ∧
      (t.status = .completed ∨ t.status = .externalApplied → s.applied id = 1) ∧
      (t.status = .failed → s.applied id = 0 ∧ ledgerOfTransfer s.db id = 0) ∧
      (t.status = .blocked → t.direction = .withdraw ∧ maxCents - t.amountUnits < before) := by
  obtain ⟨⟨hunits, -⟩, hsound⟩ := h.sound
  obtain ⟨t, ht, hsame, htally⟩ := hsound.row
  have heffect := hsound.booked.effects id t ht
  refine ⟨t, ht, ?_, hsound.money, fun hs => ?_, fun hs => ⟨?_, ?_⟩, fun hs => ?_⟩
  · exact htally.le
  · exact htally.of_applied hs
  · exact (hs ▸ htally).of_failed
  · rw [heffect, effect_failed hs]
  · rw [hsame.direction, hsame.units]
    exact decide_blocked hunits (hs ▸ htally).of_blocked

/-- UMoney holds 1000 units of `alice`, and the exchange nothing. -/
def aliceEconomy : Economy where
  db := {}
  money := fun playerName => if playerName = "alice" then some 1000 else none

def aliceDeposit : EconomyTransferRow :=
  { playerUuid := "alice", playerName := "alice", direction := .deposit, amountCents := 500, amountUnits := 5,
    externalBalanceBeforeUnits := some 1000 }

/-- A deposit whose change raised after it took effect, the process stopping before a note of it, is
recognised and completed. -/
theorem saga_exactly_once_recognised :
    let s₀ := (onDb (prepareEconomyTransfer umoneySettings "alice" "alice" .deposit 500 5 (some 1000)) []
      aliceEconomy).2.2
    let s₁ := (processEconomyTransfer (economyTransferFromRow 1 aliceDeposit) true
      [.proceed, .failAfter, .crash] s₀).2.2
    let s := (processEconomyTransfer (economyTransferFromRow 1 aliceDeposit) false [] s₁).2.2
    ∃ t, s.db.economyTransfers.get? 1 = some t ∧ t.status = .completed ∧ s.applied 1 = 1 ∧
      s.money "alice" = some 995 := by
  intro s₀ s₁ s
  have hprepared : Saga umoneySettings 1 aliceDeposit 1000 s₀ :=
    @Saga.prepared umoneySettings aliceEconomy s₀ "alice" "alice" .deposit 500 5 1000 aliceDeposit
      ⟨[], .start⟩ rfl rfl [] rfl rfl
  have hstopped : Saga umoneySettings 1 aliceDeposit 1000 s₁ := hprepared.processed (.refl _) true _
  have hrecovered : Saga umoneySettings 1 aliceDeposit 1000 s := hstopped.processed (.refl _) false _
  obtain ⟨t, ht, -, hmoney, hcompleted, -⟩ := saga_exactly_once hrecovered
  have hrow : (s.db.economyTransfers.get? 1).map (·.status) = some .completed := rfl
  rw [ht] at hrow
  have hstatus : t.status = .completed := Option.some.inj hrow
  have happlied := hcompleted (.inl hstatus)
  refine ⟨t, ht, hstatus, happlied, ?_⟩
  rw [happlied] at hmoney
  exact hmoney

end Runs

end EndstoneExchange.UmoneySaga
