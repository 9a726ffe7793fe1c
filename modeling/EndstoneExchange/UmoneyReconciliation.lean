import EndstoneExchange.UmoneySaga

/-!
# Overlapping transfers of one player

Several transfers of a player share one UMoney balance. As long as no attempt mistakes
the changes of the others for its own, the balance is what the recorded transfers say.
-/
namespace EndstoneExchange.UmoneyReconciliation
open AutoIncrementTables KeyedTables AtomicTransactions.Transaction DurablePrograms ExchangeDomain
  ExchangeTransactions AccountOperations EconomyTransferOperations ClearingSteps ClearingRefinement
  ServiceRuns UmoneyGateway UmoneyAttempts UmoneySaga Relation

variable {settings : Settings}

section Processing
variable {s : Economy} {id : Id} {t : EconomyTransferRow} {before : ℤ}

/-- What a call may make of a transfer's status, count of changes and balance. -/
inductive Processed (t : EconomyTransferRow) (k₀ : ℕ) (m₀ : Option ℤ) :
    EconomyTransferStatus → ℕ → Option ℤ → Prop
  | kept : Processed t k₀ m₀ t.status k₀ m₀
  | completed (h : t.status = .externalApplied) : Processed t k₀ m₀ .completed k₀ m₀
  | legacy (h : t.status = .prepared) (hbefore : t.externalBalanceBeforeUnits = none) :
      Processed t k₀ m₀ .blocked k₀ m₀
  | attempted {before c m : ℤ} {status : EconomyTransferStatus} {k : ℕ} (h : t.status = .prepared)
      (hbefore : t.externalBalanceBeforeUnits = some before) (hm : m₀ = some c)
      (hout : Outcome (decideUmoneyMutation t.direction t.amountUnits before c) k₀ c (deltaUnits t) status
        k m) : Processed t k₀ m₀ status k (some m)

def Leaves (settings : Settings) (s : Economy) (id : Id) (t : EconomyTransferRow) (s' : Economy) : Prop :=
  ∃ status k m, Stage settings s id t status k m s' ∧
    Processed t (s.applied id) (s.money t.playerName) status k m

theorem Leaves.kept {s' : Economy}
    (h : Stage settings s id t t.status (s.applied id) (s.money t.playerName) s') :
    Leaves settings s id t s' := ⟨_, _, _, h, .kept⟩

private theorem process_legacy (hs : t.status = .prepared) (hbefore : t.externalBalanceBeforeUnits = none)
    (throwOnFailure : Bool) :
    Triple (Stage settings s id t .prepared (s.applied id) (s.money t.playerName))
      (processEconomyTransfer (economyTransferFromRow id t) throwOnFailure)
      (fun _ => Leaves settings s id t) (fun _ => Leaves settings s id t) (Leaves settings s id t) := by
  have hkept : ∀ s', Stage settings s id t .prepared (s.applied id) (s.money t.playerName) s' →
      Leaves settings s id t s' := fun s' h => .kept (hs ▸ h)
  have hblocked : ∀ s', Stage settings s id t .blocked (s.applied id) (s.money t.playerName) s' →
      Leaves settings s id t s' := fun s' h => ⟨_, _, _, h, .legacy hs hbefore⟩
  simp only [processEconomyTransfer, economyTransferFromRow, hs, hbefore]
  exact Triple.bind (Triple.conseq (block_triple _) (fun _ h => h) (fun _ => hblocked)
    (fun _ s' h => h.elim (hkept s') (hblocked s')) hkept) fun _ => refuse_keeps throwOnFailure _

/-- Without an account the attempt raises. -/
theorem process_missing (hs : t.status = .prepared) (hbefore : t.externalBalanceBeforeUnits = some before)
    (throwOnFailure : Bool) :
    Keeps (Stage settings s id t .prepared (s.applied id) none)
      (processEconomyTransfer (economyTransferFromRow id t) throwOnFailure) := by
  rw [process_eq hs hbefore]
  refine Keeps.tryCatch ?_ fun e => noteFailure_keeps throwOnFailure e
  refine Triple.bind (balance_triple t.playerName) fun current => Triple.of_forall fun s' h => ?_
  obtain rfl : none = current := h.1.balance.symm.trans h.2
  exact Triple.throw fun _ hs' => hs' ▸ h.1

/-- What any call leaves behind. -/
theorem process_leaves (settings : Settings) (ht : s.db.economyTransfers.get? id = some t)
    (throwOnFailure : Bool) (faults : List Fault) : Leaves settings s id t
      (processEconomyTransfer (economyTransferFromRow id t) throwOnFailure faults s).2.2 := by
  have hstart := @Stage.start settings _ _ _ _ ht (.refl t)
  by_cases hs : t.status = .prepared
  · rw [hs] at hstart
    cases hbefore : t.externalBalanceBeforeUnits with
    | none => exact (process_legacy hs hbefore throwOnFailure).final faults hstart
    | some before =>
      cases hm : s.money t.playerName with
      | none =>
        rw [hm] at hstart
        have hkept := (process_missing hs hbefore throwOnFailure).final faults hstart
        exact .kept (by rw [hs, hm]; exact hkept)
      | some c =>
        obtain ⟨status, k, m, hstage, hout⟩ := @process_prepared settings _ _ _ _ _ _ _ ht (.refl t) hs hs
          (.refl t) hbefore hm throwOnFailure faults
        exact ⟨status, k, some m, hstage, .attempted hs hbefore hm hout⟩
  · obtain ⟨status, hstatus, hstage⟩ :=
      (process_past hs throwOnFailure).final faults ⟨t.status, .inl rfl, hstart⟩
    obtain rfl | ⟨hs', rfl⟩ := hstatus
    · exact .kept hstage
    · exact ⟨_, _, _, hstage, .completed hs'⟩

/-- An attempt whose first call to the gateway does not answer changes nothing. -/
theorem process_unanswered (settings : Settings) (ht : s.db.economyTransfers.get? id = some t)
    (hs : t.status = .prepared) (hbefore : t.externalBalanceBeforeUnits = some before) {faults : List Fault}
    (hfault : faults.headD .proceed ≠ .proceed) (throwOnFailure : Bool) :
    Stage settings s id t t.status (s.applied id) (s.money t.playerName)
      (processEconomyTransfer (economyTransferFromRow id t) throwOnFailure faults s).2.2 := by
  have hstart := @Stage.start settings _ _ _ _ ht (.refl t)
  have hattempt : Ends (fun _ _ => False) (fun _ s' => s' = s) (· = s)
      (attempt (economyTransferFromRow id t) before throwOnFailure faults s) := by
    change Ends _ _ _ (Program.bind _ _ faults s)
    simp only [Program.bind, UmoneyGateway.balance, Program.call]
    cases hf : faults.headD .proceed with
    | proceed => exact absurd hf hfault
    | failBefore => simp [Ends]
    | failAfter => simp [Ends]
    | crash => simp [Ends]
  rw [process_eq hs hbefore]
  change Stage settings s id t t.status _ _ (Program.tryCatch _ _ faults s).2.2
  unfold Program.tryCatch
  rcases hr : attempt (economyTransferFromRow id t) before throwOnFailure faults s with ⟨a | e | _, fs, s'⟩ <;>
    rw [hr] at hattempt
  · exact hattempt.elim
  · obtain rfl : s' = s := hattempt
    exact (noteFailure_keeps throwOnFailure e).final fs hstart
  · obtain rfl : s' = s := hattempt
    exact hstart

end Processing

section Standings
variable {t : EconomyTransferRow} {status : EconomyTransferStatus} {k k₀ : ℕ} {m m₀ : Option ℤ} {before c : ℤ}

/-- The decision of an attempt at the transfer's own baseline. -/
def baselineDecision (t : EconomyTransferRow) : Option UmoneyMutationDecision :=
  t.externalBalanceBeforeUnits.map fun before =>
    decideUmoneyMutation t.direction t.amountUnits before before

/-- A change was made where the status says so, never where it says FAILED, and only on a baseline that
asks for it. -/
inductive Standing (decision : Option UmoneyMutationDecision) : EconomyTransferStatus → ℕ → Prop
  | untouched {status : EconomyTransferStatus}
      (hs : status = .prepared ∨ status = .failed ∨ status = .blocked) : Standing decision status 0
  | applied (h : decision = some .apply) {status : EconomyTransferStatus} (hs : status ≠ .failed) :
      Standing decision status 1

/-- What an attempt infers from the balance is what happened: AlreadyApplied only where its change was
made, Apply only where it was not. -/
def Inferred (s : Economy) (id : Id) (t : EconomyTransferRow) : Prop :=
  ∀ before current, t.externalBalanceBeforeUnits = some before → s.money t.playerName = some current →
    (decideUmoneyMutation t.direction t.amountUnits before current = .alreadyApplied → s.applied id = 1) ∧
    (decideUmoneyMutation t.direction t.amountUnits before current = .apply → s.applied id = 0)

private theorem decide_insufficient {direction : EconomyTransferDirection} {units : ℤ}
    (h : decideUmoneyMutation direction units before c = .insufficient) : c = before := by
  cases direction <;> simp only [decideUmoneyMutation] at h <;> split_ifs at h
  all_goals simp_all

/-- Along every outcome the balance moves with the count. -/
theorem Processed.money (h : Processed t k₀ m₀ status k m) :
    m = m₀.map (· + (k - k₀ : ℤ) * deltaUnits t) := by
  cases h with
  | kept => simp
  | completed => simp
  | legacy => simp
  | attempted _ _ hm hout =>
    subst hm
    cases hout <;> simp

theorem Standing.processed (h : Standing (baselineDecision t) t.status k₀)
    (hp : Processed t k₀ m₀ status k m) (hinferred : t.status = .prepared → ∀ before current,
      t.externalBalanceBeforeUnits = some before → m₀ = some current →
        (decideUmoneyMutation t.direction t.amountUnits before current = .alreadyApplied → k₀ = 1) ∧
        (decideUmoneyMutation t.direction t.amountUnits before current = .apply → k₀ = 0)) :
    Standing (baselineDecision t) status k := by
  have hblock : t.status = .prepared → Standing (baselineDecision t) .blocked k₀ := by
    intro hs
    rw [hs] at h
    cases h with
    | untouched => exact .untouched (.inr (.inr rfl))
    | applied hd => exact .applied hd (by simp)
  cases hp with
  | kept => exact h
  | completed hs =>
    rw [hs] at h
    cases h with
    | untouched hs => simp at hs
    | applied hd => exact .applied hd (by simp)
  | legacy hs => exact hblock hs
  | attempted hs hbefore hm hout =>
    obtain ⟨halready, happly⟩ := hinferred hs _ _ hbefore hm
    cases hout with
    | untouched => exact hs ▸ h
    | applied hd hs' =>
      have hk := happly hd
      subst hk
      refine .applied ?_ (by rcases hs' with rfl | rfl | rfl <;> simp)
      rw [baselineDecision, hbefore, ← hd, (decide_apply (deltaUnits_eq t) hd).1]
      rfl
    | recognised hd hs' =>
      have hk := halready hd
      subst hk
      cases h with
      | applied hd => exact .applied hd (by rcases hs' with rfl | rfl <;> simp)
    | refused hd =>
      obtain rfl := decide_insufficient hd
      cases h with
      | untouched => exact .untouched (.inr (.inl rfl))
      | applied happlied =>
        rw [baselineDecision, hbefore, Option.map_some, hd] at happlied
        simp at happlied
    | blocked => exact hblock hs

end Standings

section Moves
variable {n : String} {initial : ℤ} {s s' : Economy}

/-- What moves player `n`'s transfers and balance. `ok` restricts when a transfer, always the row at
hand, is processed under a schedule of faults. -/
inductive Move (settings : Settings) (n : String)
    (ok : Economy → Id → EconomyTransferRow → List Fault → Prop) : Economy → Economy → Prop
  | elsewhere {s s' : Economy} (hsteps : Steps settings (fun _ => True) ⟨s.db, none⟩ ⟨s'.db, none⟩)
      (htransfers : s'.db.economyTransfers = s.db.economyTransfers) (happlied : s'.applied = s.applied)
      (hmoney : s'.money n = s.money n) : Move settings n ok s s'
  | prepare {s : Economy} {playerUuid playerName : String} {direction : EconomyTransferDirection}
      {amountCents : Cents} {amountUnits : ℤ} {before : Option ℤ} {faults : List Fault} :
      Move settings n ok s (onDb (prepareEconomyTransfer settings playerUuid playerName direction amountCents
        amountUnits before) faults s).2.2
  | process {s : Economy} {id : Id} {t : EconomyTransferRow} {throwOnFailure : Bool} {faults : List Fault}
      (ht : s.db.economyTransfers.get? id = some t) (hok : ok s id t faults) :
      Move settings n ok s (processEconomyTransfer (economyTransferFromRow id t) throwOnFailure faults s).2.2

/-- No attempt of player `n`'s transfers that gets to see the balance is deceived by it. -/
def Undeceived (n : String) (s : Economy) (id : Id) (t : EconomyTransferRow) (faults : List Fault) : Prop :=
  t.playerName = n → t.status = .prepared → faults.headD .proceed = .proceed → Inferred s id t

/-- The units a transfer's changes added to player `n`'s balance. -/
def share (applied : Id → ℕ) (n : String) (id : Id) (t : EconomyTransferRow) : ℤ :=
  if t.playerName = n then applied id * deltaUnits t else 0

structure Balanced (n : String) (initial : ℤ) (s : Economy) : Prop where
  standing : ∀ id t, s.db.economyTransfers.get? id = some t → t.playerName = n →
    Standing (baselineDecision t) t.status (s.applied id)
  fresh : ∀ id, s.db.economyTransfers.nextId ≤ id → s.applied id = 0
  money : s.money n = some (initial + s.db.economyTransfers.keyedSum (share s.applied n))

private theorem deltaUnits_same {t t' : EconomyTransferRow} (h : SameTransfer t t') :
    deltaUnits t' = deltaUnits t := by
  rw [deltaUnits_eq, deltaUnits_eq, h.direction, h.units]

private theorem baselineDecision_same {t t' : EconomyTransferRow} (h : SameTransfer t t') :
    baselineDecision t' = baselineDecision t := by
  simp only [UmoneyReconciliation.baselineDecision, h.before, h.direction, h.units]

theorem Balanced.prepare (h : Balanced n initial s) {row : EconomyTransferRow} {db : Db}
    (hp : Preparing settings s.db row db) (hs : row.status = .prepared) :
    Balanced n initial { s with db } := by
  obtain hkept | ⟨-, hinserted⟩ := hp.transfers
  · refine ⟨fun id t ht => h.standing id t (hkept ▸ ht), ?_, ?_⟩
    · rw [hkept]
      exact h.fresh
    · rw [hkept]
      exact h.money
  · have hzero := h.fresh _ le_rfl
    refine ⟨fun id t ht hn => ?_, fun id hid => ?_, ?_⟩
    · rw [hinserted] at ht
      rcases Table.get?_insert_cases ht with ⟨rfl, rfl⟩ | ⟨-, ht⟩
      · rw [hzero]
        exact .untouched (.inl hs)
      · exact h.standing id t ht hn
    · rw [hinserted, Table.nextId_insert] at hid
      exact h.fresh id (Nat.le_of_succ_le hid)
    · rw [hinserted, Table.keyedSum_insert, h.money]
      simp [share, hzero]

/-- A call moves the balance of its transfer's player along with its count of changes. -/
theorem Balanced.stage (h : Balanced n initial s) {id : Id} {t : EconomyTransferRow}
    (ht : s.db.economyTransfers.get? id = some t) {status : EconomyTransferStatus} {k : ℕ} {m : Option ℤ}
    (hstage : Stage settings s id t status k m s')
    (hstanding : t.playerName = n → Standing (baselineDecision t) status k)
    (hm : m = (s.money t.playerName).map (· + (k - s.applied id : ℤ) * deltaUnits t)) :
    Balanced n initial s' := by
  obtain ⟨t', ht', hstatus, hsame⟩ := hstage.row.own
  refine ⟨fun j u hu hn => ?_, fun j hj => ?_, ?_⟩
  · by_cases hj : j = id
    · subst hj
      obtain rfl : t' = u := Option.some.inj (ht'.symm.trans hu)
      rw [baselineDecision_same hsame, hstatus, hstage.count]
      exact hstanding (hsame.playerName ▸ hn)
    · rw [hstage.row.others j hj] at hu
      rw [hstage.applied, Function.update_of_ne hj]
      exact h.standing j u hu hn
  · have hid := (Table.lt_nextId ht).2
    rw [hstage.row.next] at hj
    rw [hstage.applied, Function.update_of_ne (hid.trans_le hj).ne']
    exact h.fresh j hj
  · have hothers : ∀ j, j ≠ id → share s'.applied n j = share s.applied n j := by
      intro j hj
      funext u
      simp only [share, hstage.applied, Function.update_of_ne hj]
    rw [Table.keyedSum_others ht ht' hstage.row.next hstage.row.others hothers]
    by_cases hn : t.playerName = n
    · rw [← hn, hstage.balance, hm, hn, h.money]
      simp only [share, hsame.playerName, hn, if_true, deltaUnits_same hsame, hstage.count, Option.map_some,
        Option.some.injEq]
      ring
    · rw [hstage.money, Function.update_of_ne (Ne.symm hn), h.money]
      simp [share, hsame.playerName, hn]

theorem Balanced.process (settings : Settings) (h : Balanced n initial s) {id : Id} {t : EconomyTransferRow}
    (ht : s.db.economyTransfers.get? id = some t) (throwOnFailure : Bool) {faults : List Fault}
    (hok : Undeceived n s id t faults) : Balanced n initial
      (processEconomyTransfer (economyTransferFromRow id t) throwOnFailure faults s).2.2 := by
  by_cases hunanswered : t.status = .prepared ∧ t.externalBalanceBeforeUnits.isSome ∧
      faults.headD .proceed ≠ .proceed
  · obtain ⟨hs, hbefore, hfault⟩ := hunanswered
    obtain ⟨before, hbefore⟩ := Option.isSome_iff_exists.mp hbefore
    exact h.stage ht (process_unanswered settings ht hs hbefore hfault throwOnFailure)
      (h.standing id t ht) (by simp)
  · obtain ⟨status, k, m, hstage, hprocessed⟩ := process_leaves settings ht throwOnFailure faults
    refine h.stage ht hstage (fun hn => ?_) hprocessed.money
    refine (h.standing id t ht hn).processed hprocessed fun hs before current hbefore hc => ?_
    have hfault : faults.headD .proceed = .proceed := by
      by_contra hfault
      exact hunanswered ⟨hs, by simp [hbefore], hfault⟩
    exact hok hn hs hfault before current hbefore hc

theorem Balanced.move (h : Balanced n initial s) (hm : Move settings n (Undeceived n) s s') :
    Balanced n initial s' := by
  cases hm with
  | elsewhere hsteps htransfers happlied hmoney =>
    refine ⟨fun id t ht => ?_, ?_, ?_⟩
    · rw [happlied]
      exact h.standing id t (htransfers ▸ ht)
    · rw [htransfers, happlied]
      exact h.fresh
    · rw [htransfers, happlied, hmoney]
      exact h.money
  | prepare => exact h.prepare (prepareEconomyTransfer_leaves _) rfl
  | process ht hok => exact h.process settings ht _ hok

end Moves

section Functions
variable {n : String} {s₀ s : Economy} {α : Type}

/-- The states that any moves lead to. -/
def Moves (settings : Settings) (n : String) (s₀ s : Economy) : Prop :=
  ReflTransGen (Move settings n fun _ _ _ _ => True) s₀ s

/-- The transfer a program holds is the row at hand. -/
def Current (transfer : EconomyTransfer) (db : Db) : Prop :=
  ∃ t, db.economyTransfers.get? transfer.id = some t ∧ transfer = economyTransferFromRow transfer.id t

theorem ends_of {σ : Type} {R : σ → Prop} {r : DurablePrograms.Outcome Error α × List Fault × σ}
    (h : R r.2.2) : Ends (fun _ => R) (fun _ => R) R r := by
  unfold Ends
  cases r.1 <;> exact h

theorem findEconomyTransfer_ok {db db' : Db} {id : Id} {transfer : Option EconomyTransfer}
    (hb : findEconomyTransfer id db = .ok (transfer, db')) :
    db' = db ∧ transfer = (db.economyTransfers.get? id).map (economyTransferFromRow id) := by
  obtain ⟨rfl, rfl⟩ := Prod.mk.inj (select_ok.mp hb)
  exact ⟨rfl, rfl⟩

/-- Preparing returns the row it wrote. -/
theorem prepareEconomyTransfer_current {playerUuid playerName : String} {direction : EconomyTransferDirection}
    {amountCents : Cents} {amountUnits : ℤ} {before : Option ℤ} :
    Triple (fun _ => True) (prepareEconomyTransfer settings playerUuid playerName direction amountCents
      amountUnits before) Current (fun _ _ => True) (fun _ => True) := by
  have hany : ∀ {β : Type} (x : Program Db Error β),
      Triple (fun _ => True) x (fun _ _ => True) (fun _ _ => True) (fun _ => True) :=
    fun x fs db _ => ends_of (R := fun _ => True) trivial
  refine Triple.guard (fun _ _ _ => trivial) fun _ => Triple.guard (fun _ _ _ => trivial) fun _ => ?_
  refine Triple.bind (hany _) fun _ => Triple.bind (hany _) fun id => ?_
  have hfind : Triple (fun _ => True) (transaction (findEconomyTransfer id))
      (fun transfer db => transfer = (db.economyTransfers.get? id).map (economyTransferFromRow id))
      (fun _ _ => True) (fun _ => True) := by
    refine Triple.atomic (fun _ _ => trivial) (fun _ _ => trivial) (fun db transfer db' _ hb => ⟨?_, trivial⟩)
      fun _ _ _ _ => trivial
    obtain ⟨rfl, rfl⟩ := findEconomyTransfer_ok hb
    rfl
  refine Triple.bind hfind fun transfer => ?_
  cases transfer with
  | none => exact Triple.throw fun _ _ => trivial
  | some transfer =>
    refine Triple.pure fun db h => ?_
    obtain ⟨t, ht, rfl⟩ := Option.map_eq_some_iff.mp h.symm
    exact ⟨t, ht, rfl⟩

theorem prepare_moves {playerUuid playerName : String} {direction : EconomyTransferDirection}
    {amountCents : Cents} {amountUnits : ℤ} {before : Option ℤ} :
    Triple (Moves settings n s₀) (onDb (prepareEconomyTransfer settings playerUuid playerName direction
      amountCents amountUnits before)) (fun transfer s => Moves settings n s₀ s ∧ Current transfer s.db)
      (fun _ => Moves settings n s₀) (Moves settings n s₀) := by
  intro fs s h
  have hmoved : Moves settings n s₀ (onDb (prepareEconomyTransfer settings playerUuid playerName direction
      amountCents amountUnits before) fs s).2.2 := h.tail .prepare
  have hcurrent := @prepareEconomyTransfer_current settings playerUuid playerName direction amountCents
    amountUnits before fs s.db trivial
  simp only [onDb, Program.zoom] at hmoved ⊢
  rcases hr : prepareEconomyTransfer settings playerUuid playerName direction amountCents amountUnits before
    fs s.db with ⟨transfer | e | _, gs, db⟩ <;> rw [hr] at hcurrent hmoved
  · exact ⟨hmoved, hcurrent⟩
  · exact hmoved
  · exact hmoved

theorem process_moves (transfer : EconomyTransfer) (throwOnFailure : Bool) :
    Triple (fun s => Moves settings n s₀ s ∧ Current transfer s.db)
      (processEconomyTransfer transfer throwOnFailure)
      (fun _ => Moves settings n s₀) (fun _ => Moves settings n s₀) (Moves settings n s₀) := by
  rintro fs s ⟨h, t, ht, htransfer⟩
  rw [htransfer]
  exact ends_of (h.tail (.process ht trivial))

theorem balance_keeps {I : Economy → Prop} (playerName : String) : Keeps I (UmoneyGateway.balance playerName) :=
  Triple.conseq (balance_triple playerName) (fun _ h => h) (fun _ _ h => h.1) (fun _ _ h => h) fun _ h => h

/-- A transaction that only reads. -/
theorem read_keeps {I : Economy → Prop} {body : Tx α}
    (hbody : ∀ {db a db'}, body db = .ok (a, db') → db' = db) : Keeps I (onDb (transaction body)) := by
  refine Triple.zoom fun s hs => Triple.from_state
    (Keeps.atomic (I := fun db => I { s with db }) fun db a db' h hb => ?_) hs
  obtain rfl := hbody hb
  exact h

theorem exchangeBalance_keeps {I : Economy → Prop} (playerUuid : String) :
    Keeps I (onDb (AccountOperations.balance playerUuid)) :=
  read_keeps fun hb => by
    obtain ⟨a, -, hr⟩ := lockedBalance_ok.mp hb
    exact (Prod.mk.inj hr).2.symm

theorem fundDirectBalance_moves (tr : Message → String) (playerUuid playerName : String)
    (requiredCents : Cents) :
    Keeps (Moves settings n s₀) (fundDirectBalance settings tr playerUuid playerName requiredCents) := by
  unfold fundDirectBalance
  split_ifs
  · exact Keeps.pure
  refine (exchangeBalance_keeps playerUuid).bind fun currentExchange => ?_
  by_cases hfunded : currentExchange ≥ requiredCents
  · rw [if_pos hfunded]
    exact Keeps.pure
  rw [if_neg hfunded]
  dsimp only
  generalize (requiredCents - currentExchange) / umoneyUnitCents + _ = amountUnits
  split_ifs
  · exact Keeps.throw
  refine (balance_keeps playerName).bind fun externalBalance => ?_
  cases externalBalance with
  | none => exact Keeps.throw
  | some externalBalance =>
    dsimp only
    split_ifs
    · exact Keeps.throw
    refine Triple.bind prepare_moves fun transfer => ?_
    refine Triple.bind (process_moves transfer true) fun processed => ?_
    split_ifs
    · exact Keeps.throw
    refine Keeps.bind (exchangeBalance_keeps playerUuid) fun funded => ?_
    split_ifs
    · exact Keeps.throw
    · exact Keeps.pure

private theorem settleAccount_moves (account : AccountBalance) (amountUnits : ℤ) :
    Keeps (Moves settings n s₀) (settleAccount settings account amountUnits) := by
  refine (balance_keeps account.playerName).bind fun externalBalance => ?_
  cases externalBalance with
  | none => exact Keeps.pure
  | some externalBalance =>
    exact Triple.bind prepare_moves fun transfer =>
      Triple.bind (process_moves transfer false) fun _ => Keeps.pure

private theorem sweepDirectBalances_moves (positiveBalances : Db → List AccountBalance) :
    Keeps (Moves settings n s₀) (sweepDirectBalances settings positiveBalances) := by
  refine Keeps.bind (read_keeps fun hb => (Prod.mk.inj (select_ok.mp hb)).2.symm) fun accounts => ?_
  refine Triple.forEach (R := fun _ => Moves settings n s₀) (fun account _ => ?_) accounts
  dsimp only
  split_ifs
  · exact Keeps.pure
  · exact (settleAccount_moves account _).tryCatch fun _ => Keeps.pure

/-- The transfers still to come in a recovery pass. -/
def Pending (settings : Settings) (n : String) (s₀ : Economy) (transfers : List EconomyTransfer)
    (s : Economy) : Prop :=
  Moves settings n s₀ s ∧ (∀ transfer ∈ transfers, Current transfer s.db) ∧ (transfers.map (·.id)).Nodup

theorem pendingEconomyTransfers_ok {limit : ℤ} {transfers : List EconomyTransfer} {db db' : Db}
    (hb : pendingEconomyTransfers limit db = .ok (transfers, db')) :
    db' = db ∧ (∀ transfer ∈ transfers, Current transfer db) ∧ (transfers.map (·.id)).Nodup := by
  simp only [pendingEconomyTransfers, bind_ok, throwIf_ok, select_ok, exists_eq_left', and_assoc, exists_and_left] at hb
  obtain ⟨-, hb⟩ := hb
  obtain ⟨rfl, rfl⟩ := Prod.mk.inj hb
  refine ⟨rfl, fun transfer h => ?_, ?_⟩
  · obtain ⟨⟨id, t⟩, he, rfl⟩ := List.mem_map.mp h
    have hentry := List.mem_of_mem_filter (List.mem_of_mem_take he)
    exact ⟨t, Table.mem_entries.mp hentry, rfl⟩
  · have hsub := (List.take_sublist limit.toNat _).trans (db.economyTransfers.entries.filter_sublist
      (p := fun e => decide (e.2.status = .prepared ∨ e.2.status = .externalApplied)))
    have hsorted := (db.economyTransfers.entries_sorted.sublist hsub)
    rw [List.map_map]
    exact List.pairwise_map.mpr (hsorted.imp fun h => h.ne)

/-- A call leaves the rows of other transfers at hand. -/
theorem Leaves.current {s s' : Economy} {id : Id} {t : EconomyTransferRow} (h : Leaves settings s id t s')
    {other : EconomyTransfer} (hne : other.id ≠ id) (hcurrent : Current other s.db) : Current other s'.db := by
  obtain ⟨status, k, m, hstage, -⟩ := h
  obtain ⟨u, hu, hrow⟩ := hcurrent
  exact ⟨u, (hstage.row.others _ hne).trans hu, hrow⟩

/-- Processing one transfer leaves the other rows at hand. -/
theorem process_pending (transfer : EconomyTransfer) (transfers : List EconomyTransfer)
    (throwOnFailure : Bool) :
    Triple (Pending settings n s₀ (transfer :: transfers)) (processEconomyTransfer transfer throwOnFailure)
      (fun _ => Pending settings n s₀ transfers) (fun _ => Pending settings n s₀ transfers)
      (Pending settings n s₀ transfers) := by
  rintro fs s ⟨h, hcurrent, hnodup⟩
  rw [List.map_cons, List.nodup_cons] at hnodup
  obtain ⟨t, ht, htransfer⟩ := hcurrent transfer (List.mem_cons_self ..)
  rw [htransfer]
  have hleaves := process_leaves settings ht throwOnFailure fs
  refine ends_of ⟨h.tail (.process ht trivial), fun other hother => ?_, hnodup.2⟩
  have hne : other.id ≠ transfer.id := fun he => hnodup.1 (he ▸ List.mem_map_of_mem hother)
  exact hleaves.current hne (hcurrent other (List.mem_cons_of_mem _ hother))

private theorem processEconomyTransfers_moves (positiveBalances : Db → List AccountBalance) :
    Keeps (Moves settings n s₀) (processEconomyTransfers settings positiveBalances) := by
  refine Keeps.bind (Keeps.tryCatch ?_ fun _ => Keeps.pure) fun _ =>
    (sweepDirectBalances_moves positiveBalances).tryCatch fun _ => Keeps.pure
  have hread : Triple (Moves settings n s₀) (onDb (transaction (pendingEconomyTransfers 100)))
      (Pending settings n s₀) (fun _ => Moves settings n s₀) (Moves settings n s₀) := by
    refine Triple.zoom fun s h => Triple.atomic ?_ ?_ ?_ ?_
    · rintro _ rfl
      exact h
    · rintro _ rfl
      exact h
    · rintro db transfers db' rfl hb
      obtain ⟨rfl, hcurrent, hnodup⟩ := pendingEconomyTransfers_ok hb
      exact ⟨⟨h, hcurrent, hnodup⟩, h⟩
    · rintro _ e rfl -
      exact h
  refine Triple.bind hread fun transfers => ?_
  refine Triple.conseq (Triple.forEach (R := Pending settings n s₀) (E := fun _ => Moves settings n s₀)
    (C := Moves settings n s₀) (fun transfer rest => ?_) transfers) (fun _ h => h) (fun _ _ h => h.1)
    (fun _ _ h => h) fun _ h => h
  have hbody : Triple (Pending settings n s₀ (transfer :: rest))
      (do let _ ← processEconomyTransfer transfer false) (fun _ => Pending settings n s₀ rest)
      (fun _ => Pending settings n s₀ rest) (Moves settings n s₀) :=
    Triple.bind (Triple.conseq (process_pending transfer rest false) (fun _ h => h) (fun _ _ h => h)
      (fun _ _ h => h) fun _ h => h.1) fun _ => Triple.pure fun _ h => h
  exact hbody.tryCatch fun _ => Triple.pure fun _ h => h

end Functions

section Reconciliation
variable {n : String} {initial : ℤ} {s : Economy}

/-- The units a recorded transfer of player `n` added to the balance. -/
def recorded (n : String) (t : EconomyTransferRow) : ℤ :=
  if t.playerName = n ∧ (t.status = .externalApplied ∨ t.status = .completed) then deltaUnits t else 0

/-- Neither PREPARED nor BLOCKED transfers are left. -/
def AllSettled (n : String) (db : Db) : Prop :=
  ∀ id t, db.economyTransfers.get? id = some t → t.playerName = n → t.status ≠ .prepared ∧ t.status ≠ .blocked

theorem AllSettled.of_statuses {db : Db} (h : ∀ status ∈ db.economyTransfers.rows.map (·.status),
    status ≠ .prepared ∧ status ≠ .blocked) : AllSettled n db :=
  fun id _ ht _ => h _ (List.mem_map_of_mem (Table.mem_rows_iff.mpr ⟨id, ht⟩))

theorem Balanced.start {money : String → Option ℤ} (h : money n = some initial) :
    Balanced n initial { db := {}, money } := by
  refine ⟨fun id t ht => by simp at ht, fun _ _ => rfl, ?_⟩
  have hnone : ({} : Table EconomyTransferRow).keyedSum (share (fun _ => 0) n) = 0 := by
    rw [Table.keyedSum_congr (v := fun _ _ => 0) fun id a ha => by simp at ha, Table.keyedSum_const]
    rfl
  rw [hnone, add_zero]
  exact h

theorem Standing.recorded {decision : Option UmoneyMutationDecision} {status : EconomyTransferStatus}
    {k : ℕ} (h : Standing decision status k) :
    (status = .externalApplied ∨ status = .completed → k = 1) ∧ (status = .failed → k = 0) := by
  cases h with
  | untouched hs => rcases hs with rfl | rfl | rfl <;> simp
  | applied _ hs => exact ⟨fun _ => rfl, fun h => absurd h hs⟩

/-- Where no attempt is deceived, the recorded transfers were made once, the failed ones never, and once
all are settled the balance is what they add up to. -/
theorem balance_reconciled {money : String → Option ℤ} (hmoney : money n = some initial)
    (h : ReflTransGen (Move settings n (Undeceived n)) { db := {}, money } s) :
    (∀ id t, s.db.economyTransfers.get? id = some t → t.playerName = n →
      (t.status = .externalApplied ∨ t.status = .completed → s.applied id = 1) ∧
        (t.status = .failed → s.applied id = 0)) ∧
    (AllSettled n s.db → s.money n = some (initial + s.db.economyTransfers.sum (recorded n))) := by
  have hbalanced : Balanced n initial s := by
    induction h with
    | refl => exact .start hmoney
    | tail _ hm ih => exact ih.move hm
  refine ⟨fun id t ht hn => (hbalanced.standing id t ht hn).recorded, fun hsettled => ?_⟩
  rw [hbalanced.money, ← Table.keyedSum_const]
  congr 2
  refine Table.keyedSum_congr fun id t ht => ?_
  by_cases hn : t.playerName = n
  · obtain ⟨hprepared, hblocked⟩ := hsettled id t ht hn
    obtain ⟨hone, hzero⟩ := (hbalanced.standing id t ht hn).recorded
    simp only [share, recorded, hn, if_true, true_and]
    cases hs : t.status with
    | prepared => exact absurd hs hprepared
    | blocked => exact absurd hs hblocked
    | externalApplied => simp [hone (.inl hs)]
    | completed => simp [hone (.inr hs)]
    | failed => simp [hzero hs]
  · simp [share, recorded, hn]

def secondDeposit : EconomyTransferRow :=
  { aliceDeposit with amountCents := 300, amountUnits := 3, externalBalanceBeforeUnits := some 995 }

def preparedDeposit : Economy :=
  (onDb (prepareEconomyTransfer umoneySettings "alice" "alice" .deposit 500 5 (some 1000)) []
    aliceEconomy).2.2

/-- The change of the first deposit raised after it took effect, and the process stopped. -/
def stoppedDeposit : Economy :=
  (processEconomyTransfer (economyTransferFromRow 1 aliceDeposit) true [.proceed, .failAfter, .crash]
    preparedDeposit).2.2

/-- The second one is prepared before recovery finds the first. -/
def overlappingDeposits : Economy :=
  (onDb (prepareEconomyTransfer umoneySettings "alice" "alice" .deposit 300 3 (some 995)) []
    stoppedDeposit).2.2

def recognisedDeposit : Economy :=
  (processEconomyTransfer (economyTransferFromRow 1 aliceDeposit) false [] overlappingDeposits).2.2

theorem inferred_of {s : Economy} {id : Id} {t : EconomyTransferRow} {before current : ℤ}
    (hbefore : t.externalBalanceBeforeUnits = some before) (hcurrent : s.money t.playerName = some current)
    (ha : decideUmoneyMutation t.direction t.amountUnits before current = .alreadyApplied → s.applied id = 1)
    (hn : decideUmoneyMutation t.direction t.amountUnits before current = .apply → s.applied id = 0) :
    Inferred s id t := by
  intro b c hb hc
  obtain rfl : before = b := Option.some.inj (hbefore.symm.trans hb)
  obtain rfl : current = c := Option.some.inj (hcurrent.symm.trans hc)
  exact ⟨ha, hn⟩

private theorem recognisedDeposit_moves :
    ReflTransGen (Move umoneySettings "alice" (Undeceived "alice")) aliceEconomy recognisedDeposit := by
  have hprepared : Move umoneySettings "alice" (Undeceived "alice") aliceEconomy preparedDeposit := .prepare
  have hfirst : Undeceived "alice" preparedDeposit 1 aliceDeposit [.proceed, .failAfter, .crash] :=
    fun _ _ _ => inferred_of rfl (show preparedDeposit.money "alice" = some 1000 by decide +kernel)
      (fun h => absurd h (by decide)) fun _ => by decide +kernel
  have hstopped : Move umoneySettings "alice" (Undeceived "alice") preparedDeposit stoppedDeposit :=
    .process (by decide +kernel) hfirst
  have hjoined : Move umoneySettings "alice" (Undeceived "alice") stoppedDeposit overlappingDeposits := .prepare
  have hfound : Undeceived "alice" overlappingDeposits 1 aliceDeposit [] :=
    fun _ _ _ => inferred_of rfl (show overlappingDeposits.money "alice" = some 995 by decide +kernel)
      (fun _ => by decide +kernel) fun h => absurd h (by decide)
  have hrecognised : Move umoneySettings "alice" (Undeceived "alice") overlappingDeposits recognisedDeposit :=
    .process (by decide +kernel) hfound
  exact (((ReflTransGen.single hprepared).tail hstopped).tail hjoined).tail hrecognised

/-- Two deposits of `alice` overlap, the first of which met faults, and both are settled by recovery. -/
theorem balance_reconciled_deposit :
    let s := (processEconomyTransfer (economyTransferFromRow 2 secondDeposit) false [] recognisedDeposit).2.2
    AllSettled "alice" s.db ∧ s.db.economyTransfers.sum (recorded "alice") = -8 ∧
      s.money "alice" = some 992 := by
  intro s
  have hsecond : Undeceived "alice" recognisedDeposit 2 secondDeposit [] :=
    fun _ _ _ => inferred_of rfl (show recognisedDeposit.money "alice" = some 995 by decide +kernel)
      (fun h => absurd h (by decide)) fun _ => by decide +kernel
  have hmade : Move umoneySettings "alice" (Undeceived "alice") recognisedDeposit s :=
    .process (by decide +kernel) hsecond
  have hstatuses : s.db.economyTransfers.rows.map (·.status) = [.completed, .completed] := by decide +kernel
  have hsettled : AllSettled "alice" s.db := .of_statuses (by rw [hstatuses]; decide)
  have hsum : s.db.economyTransfers.sum (recorded "alice") = -8 := by decide +kernel
  have hbalance :=
    (@balance_reconciled umoneySettings "alice" 1000 s _ rfl (recognisedDeposit_moves.tail hmade)).2 hsettled
  rw [hsum] at hbalance
  exact ⟨hsettled, hsum, hbalance⟩

/-- The page `positiveBalances` reads when all accounts were updated at the same time. -/
def positiveBalances (db : Db) : List AccountBalance :=
  ((db.accounts.rows.filter fun e => umoneyUnitCents ≤ e.2.balanceCents).take 100).map fun e =>
    ⟨e.1, e.2.playerName, e.2.balanceCents⟩

/-- The gateway raises before the change of a deposit of 5 units, which stays PREPARED. -/
def failedFunding : Economy :=
  (fundDirectBalance umoneySettings (fun _ => "") "alice" "alice" 500
    [.proceed, .proceed, .proceed, .proceed, .proceed, .proceed, .failBefore]
    { aliceEconomy with db := afterCalls umoneySettings [.ensureAccount "alice" "alice"] }).2.2

/-- A second deposit of 5 units succeeds, and the recovery pass finds the first. -/
def recoveredFunding : Economy :=
  (processEconomyTransfers umoneySettings positiveBalances []
    (fundDirectBalance umoneySettings (fun _ => "") "alice" "alice" 500 [] failedFunding).2.2).2.2

private theorem recoveredFunding_moves : Moves umoneySettings "alice" aliceEconomy recoveredFunding := by
  have hsteps := (@Run.start umoneySettings).leaves_steps (.ensureAccount "alice" "alice") []
  have hstart : Moves umoneySettings "alice" aliceEconomy
      { aliceEconomy with db := afterCalls umoneySettings [.ensureAccount "alice" "alice"] } :=
    .single (.elsewhere (ReflTransGen.mono (fun _ _ h => h.mono fun _ _ => trivial) _ _ hsteps) rfl rfl rfl)
  have hfailed : Moves umoneySettings "alice" aliceEconomy failedFunding :=
    (fundDirectBalance_moves _ _ _ _).final _ hstart
  have hretried :=
    (@fundDirectBalance_moves umoneySettings _ _ (fun _ => "") "alice" "alice" 500).final [] hfailed
  exact (processEconomyTransfers_moves positiveBalances).final [] hretried

/-- Recovery takes the second deposit's change for the first's: both are recorded and paid out again,
but only one was made. -/
theorem deposit_mistaken : Moves umoneySettings "alice" aliceEconomy recoveredFunding ∧
    AllSettled "alice" recoveredFunding.db ∧ recoveredFunding.applied 1 = 0 ∧
      recoveredFunding.money "alice" ≠
        some (1000 + recoveredFunding.db.economyTransfers.sum (recorded "alice")) := by
  have hstatuses : recoveredFunding.db.economyTransfers.rows.map (·.status) =
      [.completed, .completed, .completed] := by decide +kernel
  have hmoney : recoveredFunding.money "alice" = some 1005 := by decide +kernel
  have hsum : recoveredFunding.db.economyTransfers.sum (recorded "alice") = 0 := by decide +kernel
  refine ⟨recoveredFunding_moves, .of_statuses (by rw [hstatuses]; decide), by decide +kernel, ?_⟩
  rw [hmoney, hsum]
  decide

end Reconciliation

end EndstoneExchange.UmoneyReconciliation
