import EndstoneExchange.CheckedIntegers
import EndstoneExchange.LocalizedMessages
import EndstoneExchange.DepositBalances
import EndstoneExchange.RecoveryPasses

/-!
# The spendable balance and funding from UMoney

A player may spend the exchange balance and the UMoney balance together. Funding moves
as many whole units from UMoney as a purchase is short of.
-/
namespace EndstoneExchange.SpendableFunding
open AutoIncrementTables KeyedTables AtomicTransactions.Transaction DurablePrograms FaultlessRuns
  ExchangeDomain ExchangeTransactions EconomyTransferOperations UmoneyGateway UmoneyAttempts
  UmoneyReconciliation DepositBalances CheckedIntegers

section Arithmetic

def spendableCents (exchangeBalance externalBalance : Cents) : Checked Error Cents := do
  if externalBalance > (← div int64Max umoneyUnitCents) ∨ externalBalance < (← div int64Min umoneyUnitCents) then
    raise (.runtime "UMoney balance is outside the supported range")
  else do
    let externalCents ← mul externalBalance umoneyUnitCents
    if externalCents > (← sub int64Max exchangeBalance) then
      raise (.runtime "combined UMoney balance is outside the supported range")
    else add externalCents exchangeBalance

def unsupportedFunding : Error := .runtime "required UMoney funding is outside the supported range"

def messageOf : UmoneyGateway.Message → LocalizedMessages.Message
  | .economyPlayerMissing => .economyPlayerMissing
  | .economyInsufficient => .economyInsufficient

def text (language : LocalizedMessages.Language) (message : UmoneyGateway.Message) : String :=
  LocalizedMessages.tr language (messageOf message) []

/-- The units a purchase is short of, computed as funding does. -/
def fundingUnits (currentExchange requiredCents : Cents) : Checked Error ℤ := do
  let shortage ← sub requiredCents currentExchange
  let quotient ← div shortage umoneyUnitCents
  let amountUnits ← add quotient (if (← mod shortage umoneyUnitCents) = 0 then 0 else 1)
  if amountUnits ≤ 0 ∨ amountUnits > (← div int64Max umoneyUnitCents) then raise unsupportedFunding
  else pure amountUnits

/-- The arithmetic of a whole transfer: the prepared amount, the UMoney balance it is judged by
and changed to, and the credited exchange balance. -/
def fundedBalances (currentExchange externalBalance requiredCents : Cents) (language : LocalizedMessages.Language) :
    Checked Error (Cents × ℤ) := do
  let amountUnits ← fundingUnits currentExchange requiredCents
  if externalBalance < amountUnits then raise (.runtime (text language .economyInsufficient))
  else do
    let amountCents ← mul amountUnits umoneyUnitCents
    let expected ← sub externalBalance amountUnits
    let _delta ← neg amountUnits
    let credited ← add currentExchange amountCents
    pure (credited, expected)

end Arithmetic

section Balances
variable {exchange external required spendable : ℤ}

theorem unit_limits : (div int64Max umoneyUnitCents : Checked Error ℤ) = .ok 92233720368547758 ∧
    (div int64Min umoneyUnitCents : Checked Error ℤ) = .ok (-92233720368547758) := ⟨rfl, rfl⟩

/-- A spendable balance is returned exactly if the sum of both balances fits. -/
theorem spendableCents_eq_ok (hexchange : 0 ≤ exchange) (hfits : Fits exchange) (hexternal : 0 ≤ external) :
    spendableCents exchange external = .ok spendable ↔
      exchange + external * 100 ≤ int64Max ∧ spendable = external * 100 + exchange := by
  have hmax : int64Max = 9223372036854775807 := rfl
  rw [spendableCents, unit_limits.1, unit_limits.2, ok_bind, ok_bind]
  by_cases hlarge : external > 92233720368547758
  · rw [if_pos (.inl hlarge)]
    exact iff_of_false (fun h => nomatch h) (by omega)
  · have hproduct : Fits (external * umoneyUnitCents) :=
      (show Fits int64Max by decide).of_nonneg (by unfold umoneyUnitCents; omega) (by unfold umoneyUnitCents; omega)
    have hdiff : Fits (int64Max - exchange) := fits_sub (by decide) hfits (by decide) hexchange
    have hrange : ¬ (external > 92233720368547758 ∨ external < -92233720368547758) := by omega
    rw [if_neg hrange, mul_of_fits hproduct, ok_bind, sub_of_fits hdiff, ok_bind]
    unfold umoneyUnitCents
    by_cases hsum : external * 100 > int64Max - exchange
    · rw [if_pos hsum]
      exact iff_of_false (fun h => nomatch h) (by omega)
    · have hfitsSum : Fits (external * 100 + exchange) :=
        (show Fits int64Max by decide).of_nonneg (by omega) (by omega)
      rw [if_neg hsum, add_of_fits hfitsSum, Except.ok.injEq]
      omega

/-- The units are the shortage rounded up. -/
def unitsShort (exchange required : ℤ) : ℤ :=
  (required - exchange) / umoneyUnitCents + if (required - exchange) % umoneyUnitCents = 0 then 0 else 1

theorem unitsShort_bounds (h : exchange < required) : 0 < unitsShort exchange required ∧
    required - exchange ≤ unitsShort exchange required * 100 ∧
    unitsShort exchange required * 100 < required - exchange + 100 := by
  unfold unitsShort umoneyUnitCents
  split_ifs with h <;> omega

theorem fundingUnits_eq (hexchange : 0 ≤ exchange) (hfits : Fits exchange) (hshort : exchange < required)
    (hrequired : Fits required) : fundingUnits exchange required =
      if unitsShort exchange required > int64Max / 100 then raise unsupportedFunding
      else .ok (unitsShort exchange required) := by
  have hpos := (unitsShort_bounds hshort).1
  have hdiff : Fits (required - exchange) := fits_sub hrequired hfits (by linarith) hexchange
  have hdiff0 : 0 ≤ required - exchange := by linarith
  have hunits : Fits (unitsShort exchange required) := hdiff.of_nonneg hpos.le (by
    have := (unitsShort_bounds hshort).2.2
    omega)
  rw [fundingUnits, sub_of_fits hdiff, ok_bind, div_of_nonneg hdiff hdiff0 (by decide), ok_bind,
    mod_of_nonneg hdiff hdiff0 (by decide), ok_bind, unit_limits.1]
  change (add _ _ >>= _) = _
  rw [add_of_fits (by exact hunits), ok_bind, ok_bind]
  change (if unitsShort exchange required ≤ 0 ∨ unitsShort exchange required > 92233720368547758 then _
    else _) = _
  simp only [not_le.mpr hpos, false_or]
  rfl

end Balances

section Program

/-- What a player with a UMoney account is shown. -/
def spendableBalance (playerUuid playerName : String) : Program Economy Error (Checked Error Cents) := do
  let exchangeBalance ← onDb (AccountOperations.balance playerUuid)
  let externalBalance ← balance playerName
  match externalBalance with
  | none => throw (.runtime "UMoney player account does not exist")
  | some externalBalance => return spendableCents exchangeBalance externalBalance

/-- The errors by which funding refuses a purchase before it prepares a transfer. -/
def IsRefusal (language : LocalizedMessages.Language) (e : Error) : Prop :=
  e = unsupportedFunding ∨ e = .runtime (text language .economyInsufficient)

/-- The errors of the calls funding makes up to then. -/
def callErrors : List String :=
  ["UMoney balance is not available", "economy transfer identity is incomplete",
    "economy transfer amount must be positive", "player UUID must not be empty"]

theorem not_isRefusal_call {language : LocalizedMessages.Language} {what : String} (h : what ∈ callErrors) :
    ¬ IsRefusal language (.runtime what) := by
  simp only [callErrors, List.mem_cons, List.not_mem_nil, or_false] at h
  rintro (heq | heq)
  · cases heq
    revert h
    decide
  · cases heq
    revert h
    cases language <;> decide

theorem not_isRefusal_database {language : LocalizedMessages.Language} {what : String} :
    ¬ IsRefusal language (.database what) := by
  rintro (heq | heq) <;> cases heq

end Program

section Reads
variable {s : Economy} {playerUuid playerName : String} {exchange external : ℤ}
  {language : LocalizedMessages.Language}

theorem exchangeBalance_reads (h : HasBalance s.db playerUuid exchange) :
    Triple (· = s) (onDb (AccountOperations.balance playerUuid)) (fun c s' => s' = s ∧ c = exchange)
      (fun e s' => s' = s ∧ ¬ IsRefusal language e) (· = s) := by
  obtain ⟨a, ha, rfl⟩ := h
  refine Triple.zoom ?_
  rintro _ rfl
  refine Triple.atomic ?_ ?_ ?_ ?_
  · rintro _ rfl
    rfl
  · rintro _ rfl
    exact ⟨rfl, not_isRefusal_database⟩
  · rintro _ c db' rfl hb
    obtain ⟨a', ha', hr⟩ := lockedBalance_ok.mp hb
    obtain ⟨rfl, rfl⟩ := Prod.mk.inj hr
    cases ha.symm.trans ha'
    exact ⟨⟨rfl, rfl⟩, rfl, not_isRefusal_database⟩
  · rintro _ e rfl hb
    have hok := lockedBalance_ok.mpr ⟨a, ha, rfl⟩
    cases hb.symm.trans hok

theorem externalBalance_reads (h : s.money playerName = some external) :
    Triple (· = s) (UmoneyGateway.balance playerName) (fun units s' => s' = s ∧ units = some external)
      (fun e s' => s' = s ∧ ¬ IsRefusal language e) (· = s) := by
  refine Triple.call (fun _ h => h) (fun fault s' a hs hok => ?_) fun fault s' e hs herr => ?_
  · subst hs
    split_ifs at hok ⊢ with hc
    exact ⟨rfl, (Except.ok.inj hok).symm.trans h⟩
  · subst hs
    split_ifs at herr ⊢ with hc
    cases herr
    exact ⟨rfl, not_isRefusal_call (by simp [callErrors])⟩

/-- The balance shown is the sum of the two balances read. -/
theorem spendableBalance_reads (h : HasBalance s.db playerUuid exchange)
    (hmoney : s.money playerName = some external) (faults : List Fault) {shown : Checked Error Cents}
    (hshown : (spendableBalance playerUuid playerName faults s).1 = .returned shown) :
    shown = spendableCents exchange external := by
  have htriple : Triple (· = s) (spendableBalance playerUuid playerName)
      (fun shown _ => shown = spendableCents exchange external) (fun _ _ => True) (fun _ => True) := by
    refine Triple.bind (Triple.conseq (@exchangeBalance_reads s playerUuid exchange .english h) (fun _ h => h)
      (fun _ _ h => h) (fun _ _ _ => trivial) fun _ _ => trivial) fun c => Triple.of_forall fun s' hs' => ?_
    obtain ⟨rfl, rfl⟩ := hs'
    refine Triple.bind (Triple.conseq (@externalBalance_reads _ playerName external .english hmoney) (fun _ h => h)
      (fun _ _ h => h) (fun _ _ _ => trivial) fun _ _ => trivial) fun units => Triple.of_forall fun s' hs' => ?_
    obtain ⟨rfl, rfl⟩ := hs'
    exact Triple.pure fun _ _ => rfl
  have hend := htriple faults s rfl
  rw [Ends, hshown] at hend
  exact hend

end Reads

section Preparing
variable {settings : Settings} {db : Db} {playerUuid playerName : String} {exchange : ℤ}
  {language : LocalizedMessages.Language}

/-- Nothing is prepared yet. -/
def Unprepared (start : Table EconomyTransferRow) (playerUuid : String) (exchange : ℤ) (db : Db) : Prop :=
  db.economyTransfers = start ∧ HasBalance db playerUuid exchange

theorem ensured_unprepared {start : Table EconomyTransferRow} (h : Unprepared start playerUuid exchange db) :
    Unprepared start playerUuid exchange (AccountOperations.Db.ensured db settings playerUuid playerName) := by
  obtain ⟨htransfers, a, ha, hbalance⟩ := h
  simp only [AccountOperations.Db.ensured, ha]
  refine ⟨htransfers, { a with playerName }, ?_, hbalance⟩
  rw [Db.setAccount_accounts, KeyedTable.find?_update, if_pos rfl, ha]
  rfl

/-- Preparing a deposit inserts its row and leaves the balance; before that no error is a refusal. -/
theorem prepare_deposit {start : Table EconomyTransferRow} {row : EconomyTransferRow} {units : ℤ}
    {before : Option ℤ} {cents : Cents} (hrow : row = ⟨playerUuid, playerName, .deposit, cents, units,
      .prepared, before, none, 0, none⟩) :
    Triple (Unprepared start playerUuid exchange)
      (prepareEconomyTransfer settings playerUuid playerName .deposit cents units before)
      (fun transfer db => Unprepared (start.insert row) playerUuid exchange db ∧
        transfer = economyTransferFromRow start.nextId row)
      (fun e db => Unprepared (start.insert row) playerUuid exchange db ∨
        Unprepared start playerUuid exchange db ∧ ¬ IsRefusal language e)
      (fun db => Unprepared (start.insert row) playerUuid exchange db ∨ Unprepared start playerUuid exchange db) := by
  have hcall : ∀ what ∈ callErrors, ¬ IsRefusal language (.runtime what) := fun _ => not_isRefusal_call
  have hensure : Triple (Unprepared start playerUuid exchange)
      (AccountOperations.ensureAccount settings playerUuid playerName)
      (fun _ => Unprepared start playerUuid exchange)
      (fun e db => Unprepared start playerUuid exchange db ∧ ¬ IsRefusal language e)
      (Unprepared start playerUuid exchange) := by
    refine Triple.guard (fun _ db h => ⟨h, hcall _ (by simp [callErrors])⟩) fun _ => ?_
    refine Triple.atomic (fun _ h => h) (fun _ h => ⟨h, not_isRefusal_database⟩) (fun db u db' h hb => ?_)
      fun db e h hb => ?_
    · obtain ⟨-, rfl⟩ := Prod.mk.inj (AccountOperations.ensureAccountTx_ok.mp hb)
      exact ⟨ensured_unprepared h, ensured_unprepared h, not_isRefusal_database⟩
    · cases hb.symm.trans (AccountOperations.ensureAccountTx_ok.mpr rfl)
  refine Triple.guard (fun _ db h => .inr ⟨h, hcall _ (by simp [callErrors])⟩) fun _ => ?_
  refine Triple.guard (fun _ db h => .inr ⟨h, hcall _ (by simp [callErrors])⟩) fun _ => ?_
  refine Triple.bind (Triple.conseq hensure (fun _ h => h) (fun _ _ h => h) (fun _ _ h => .inr h)
    fun _ h => .inr h) fun _ => ?_
  have hinsert : Triple (Unprepared start playerUuid exchange)
      (transaction (prepareEconomyTransferTx playerUuid playerName .deposit cents units before))
      (fun id db => Unprepared (start.insert row) playerUuid exchange db ∧ id = start.nextId)
      (fun e db => Unprepared (start.insert row) playerUuid exchange db ∨
        Unprepared start playerUuid exchange db ∧ ¬ IsRefusal language e)
      (fun db => Unprepared (start.insert row) playerUuid exchange db ∨ Unprepared start playerUuid exchange db) := by
    refine Triple.atomic (fun _ h => .inr h) (fun _ h => .inr ⟨h, not_isRefusal_database⟩)
      (fun db id db' h hb => ?_) fun db e h hb => ?_
    · simp only [prepareEconomyTransferTx, bind_ok, select_ok, execute_ok, pure_ok, exists_eq_left',
        reduceCtorEq, if_false] at hb
      obtain ⟨rfl, rfl⟩ := Prod.mk.inj hb
      have hdone : Unprepared (start.insert row) playerUuid exchange
          (Db.addTransfer db ⟨playerUuid, playerName, .deposit, cents, units, .prepared, before, none, 0, none⟩) :=
        ⟨by rw [Db.addTransfer_economyTransfers, h.1, hrow], h.2⟩
      exact ⟨⟨hdone, by rw [h.1]⟩, .inl hdone⟩
    · cases hb
  refine Triple.bind hinsert fun id => Triple.of_forall fun db h => ?_
  obtain ⟨hdone, rfl⟩ := h
  have hget : db.economyTransfers.get? start.nextId = some row := by rw [hdone.1, Table.get?_insert_self]
  have hfind : Triple (· = db) (transaction (findEconomyTransfer start.nextId))
      (fun transfer db' => db' = db ∧ transfer = some (economyTransferFromRow start.nextId row))
      (fun _ db' => db' = db) (· = db) := by
    refine Triple.atomic (fun _ h => h) (fun _ h => h) (fun db' transfer db'' h hb => ?_) fun _ _ h _ => h
    subst h
    obtain ⟨rfl, rfl⟩ := findEconomyTransfer_ok hb
    exact ⟨⟨rfl, by rw [hget]; rfl⟩, rfl⟩
  refine Triple.bind (Triple.conseq hfind (fun _ h => h) (fun _ _ h => h) (fun _ _ h => .inl (h ▸ hdone))
    fun _ h => .inl (h ▸ hdone)) fun transfer => Triple.of_forall fun db' h => ?_
  obtain ⟨rfl, rfl⟩ := h
  exact Triple.pure fun _ h => h ▸ ⟨hdone, rfl⟩

end Preparing

section Funding
variable {settings : Settings} {s : Economy} {playerUuid playerName : String} {exchange external required units : ℤ}
  {language : LocalizedMessages.Language}

def depositRow (playerUuid playerName : String) (units external : ℤ) : EconomyTransferRow :=
  ⟨playerUuid, playerName, .deposit, units * umoneyUnitCents, units, .prepared, some external, none, 0, none⟩

/-- The deposit is prepared; nothing else that funding looks at has moved since `s`. -/
structure Prepared (s : Economy) (playerUuid playerName : String) (exchange external units : ℤ) (s' : Economy) :
    Prop where
  db : Unprepared (s.db.economyTransfers.insert (depositRow playerUuid playerName units external)) playerUuid
    exchange s'.db
  money : s'.money = s.money

/-- The deposit has been worked on; both balances follow its status. -/
structure Worked (s : Economy) (playerUuid playerName : String) (exchange external units : ℤ) (s' : Economy) :
    Prop where
  deposited : Deposited s.db.economyTransfers.nextId playerUuid (units * umoneyUnitCents) exchange s'.db
  money : ∀ t, s'.db.economyTransfers.get? s.db.economyTransfers.nextId = some t → t.status = .completed →
    s'.money playerName = some (external - units)

theorem Prepared.get {s' : Economy} (h : Prepared s playerUuid playerName exchange external units s') :
    s'.db.economyTransfers.get? s.db.economyTransfers.nextId =
      some (depositRow playerUuid playerName units external) := by
  rw [h.db.1, Table.get?_insert_self]

theorem Prepared.worked {s' : Economy} (h : Prepared s playerUuid playerName exchange external units s') :
    Worked s playerUuid playerName exchange external units s' := by
  refine ⟨⟨_, h.get, rfl, rfl, rfl, ?_⟩, fun t ht hs => ?_⟩
  · rw [if_neg (by simp [depositRow]), add_zero]
    exact h.db.2
  · cases h.get.symm.trans ht
    cases hs

theorem prepare_economy (hbalance : HasBalance s.db playerUuid exchange) :
    Triple (· = s) (onDb (prepareEconomyTransfer settings playerUuid playerName .deposit
      (units * umoneyUnitCents) units (some external)))
      (fun transfer s' => Prepared s playerUuid playerName exchange external units s' ∧
        transfer = economyTransferFromRow s.db.economyTransfers.nextId
          (depositRow playerUuid playerName units external))
      (fun e s' => Worked s playerUuid playerName exchange external units s' ∨
        s'.db.economyTransfers = s.db.economyTransfers ∧ ¬ IsRefusal language e)
      (fun s' => Worked s playerUuid playerName exchange external units s' ∨
        s'.db.economyTransfers = s.db.economyTransfers) := by
  have hprepare := @prepare_deposit settings playerUuid playerName exchange language s.db.economyTransfers
    (depositRow playerUuid playerName units external) units (some external) (units * umoneyUnitCents) rfl
  refine Triple.zoom ?_
  rintro _ rfl
  refine Triple.conseq hprepare ?_ (fun transfer db h => ⟨⟨h.1, rfl⟩, h.2⟩) (fun e db h => ?_) fun db h => ?_
  · rintro _ rfl
    exact ⟨rfl, hbalance⟩
  · exact h.imp (fun h => Prepared.worked ⟨h, rfl⟩) fun h => ⟨h.1.1, h.2⟩
  · exact h.imp (fun h => Prepared.worked ⟨h, rfl⟩) fun h => h.1

theorem decide_funding (hunits : 0 < units) (hcovered : units ≤ external) :
    decideUmoneyMutation .deposit units external external = .apply := by
  have hle : ¬ units ≤ 0 := not_le.mpr hunits
  have hlt : ¬ external < units := not_lt.mpr hcovered
  have hne : external ≠ external - units := by omega
  simp [decideUmoneyMutation, hle, hlt, hne]

/-- However the attempt ends, a completed deposit has moved its units exactly once. -/
theorem process_worked (settings : Settings) {s' : Economy}
    (h : Prepared s playerUuid playerName exchange external units s')
    (hmoney : s.money playerName = some external) (hunits : 0 < units) (hcovered : units ≤ external)
    (faults : List Fault) : Worked s playerUuid playerName exchange external units
      (processEconomyTransfer (economyTransferFromRow s.db.economyTransfers.nextId
        (depositRow playerUuid playerName units external)) true faults s').2.2 := by
  refine ⟨(process_deposited rfl rfl true).final faults h.worked.deposited, fun t ht hs => ?_⟩
  have hcurrent : s'.money playerName = some external := by rw [h.money, hmoney]
  obtain ⟨status, k, m, hstage, hout⟩ := @process_prepared settings _ _ _ _ _ _ _ h.get (.refl _) rfl rfl
    (.refl _) rfl hcurrent true faults
  obtain rfl : t.status = status := hstage.row.status_of ht
  have hdecision : decideUmoneyMutation .deposit units external external = .apply :=
    decide_funding hunits hcovered
  refine hstage.balance.trans ?_
  rw [hs] at hout
  cases hout with
  | applied => exact congrArg some (sub_eq_add_neg external units).symm
  | recognised hrecognised => cases hdecision.symm.trans hrecognised

/-- What a return of funding promises once a transfer was needed. -/
def Covers (s : Economy) (playerUuid playerName : String) (exchange external units required : ℤ) (s' : Economy) :
    Prop :=
  Worked s playerUuid playerName exchange external units s' ∧ ∃ c, HasBalance s'.db playerUuid c ∧ required ≤ c

/-- The calls behind the decision to transfer. -/
theorem transfer_triple (hbalance : HasBalance s.db playerUuid exchange)
    (hmoney : s.money playerName = some external) (hunits : 0 < units) (hcovered : units ≤ external) :
    Triple (· = s) (do
      let transfer ← onDb (prepareEconomyTransfer settings playerUuid playerName .deposit
        (units * umoneyUnitCents) units (some external))
      let processed ← processEconomyTransfer transfer true
      if processed = false then throw (.runtime "direct UMoney funding did not complete") else do
      let funded ← onDb (AccountOperations.balance playerUuid)
      if funded < required then throw (.runtime "direct UMoney funding did not complete")
      else return PUnit.unit)
    (fun _ => Covers s playerUuid playerName exchange external units required)
    (fun e s' => Worked s playerUuid playerName exchange external units s' ∨
      s'.db.economyTransfers = s.db.economyTransfers ∧ ¬ IsRefusal language e)
    (fun s' => Worked s playerUuid playerName exchange external units s' ∨
      s'.db.economyTransfers = s.db.economyTransfers) := by
  refine Triple.bind (prepare_economy hbalance) fun transfer => Triple.of_forall fun s' h => ?_
  obtain ⟨hprepared, rfl⟩ := h
  have hprocess : Triple (· = s') (processEconomyTransfer (economyTransferFromRow s.db.economyTransfers.nextId
      (depositRow playerUuid playerName units external)) true)
      (fun _ => Worked s playerUuid playerName exchange external units)
      (fun _ => Worked s playerUuid playerName exchange external units)
      (Worked s playerUuid playerName exchange external units) := by
    rintro faults _ rfl
    exact ends_of (process_worked settings hprepared hmoney hunits hcovered faults)
  refine Triple.bind (Triple.conseq hprocess (fun _ h => h) (fun _ _ h => h) (fun _ _ h => .inl h)
    fun _ h => .inl h) fun processed => ?_
  split_ifs
  · exact Triple.throw fun _ h => .inl h
  refine Triple.bind (R := fun c s'' => Worked s playerUuid playerName exchange external units s'' ∧
    HasBalance s''.db playerUuid c) (Triple.of_forall fun s'' hworked => ?_) fun funded => ?_
  · obtain ⟨t, -, -, -, -, hc⟩ := hworked.deposited
    refine Triple.conseq (@exchangeBalance_reads s'' playerUuid _ language hc) (fun _ h => h) (fun c _ h => ?_)
      (fun _ _ h => .inl (h.1 ▸ hworked)) fun _ h => .inl (h ▸ hworked)
    obtain ⟨rfl, rfl⟩ := h
    exact ⟨hworked, hc⟩
  · split_ifs with hshort
    · exact Triple.throw fun _ h => .inl h.1
    · exact Triple.pure fun _ h => ⟨h.1, funded, h.2, not_lt.mp hshort⟩

variable {spendable : ℤ}

/-- A purchase exceeds the spendable balance exactly if the units it is short of are not there. -/
theorem short_iff (hshort : exchange < required) (hspendable : spendable = external * 100 + exchange) :
    spendable < required ↔ external < unitsShort exchange required := by
  have hbounds := unitsShort_bounds hshort
  omega

/-- The amount the model of funding computes is the shortage in units. -/
theorem fundDirectBalance_short (tr : UmoneyGateway.Message → String) (hrequired : 0 < required) :
    fundDirectBalance settings tr playerUuid playerName required = (do
      let currentExchange ← onDb (AccountOperations.balance playerUuid)
      if currentExchange ≥ required then pure ⟨⟩
      else if unitsShort currentExchange required ≤ 0 ∨
          unitsShort currentExchange required > maxCents / umoneyUnitCents then throw unsupportedFunding
      else do
        let externalBalance ← balance playerName
        match externalBalance with
        | none => throw (.runtime (tr .economyPlayerMissing))
        | some externalBalance =>
          if externalBalance < unitsShort currentExchange required then
            throw (.runtime (tr .economyInsufficient))
          else do
            let transfer ← onDb (prepareEconomyTransfer settings playerUuid playerName .deposit
              (unitsShort currentExchange required * umoneyUnitCents) (unitsShort currentExchange required)
              (some externalBalance))
            let processed ← processEconomyTransfer transfer true
            if processed = false then throw (.runtime "direct UMoney funding did not complete") else do
            let funded ← onDb (AccountOperations.balance playerUuid)
            if funded < required then throw (.runtime "direct UMoney funding did not complete")
            else return ⟨⟩ : Program Economy Error PUnit) := by
  rw [fundDirectBalance, if_neg (not_le.mpr hrequired)]
  rfl

private theorem fund_refuses (hbalance : HasBalance s.db playerUuid exchange)
    (hmoney : s.money playerName = some external)
    (hrequired : 0 < required) (hshort : exchange < required)
    (hunits : external < unitsShort exchange required) :
    Triple (· = s) (fundDirectBalance settings (text language) playerUuid playerName required)
      (fun _ _ => False) (fun _ s' => s' = s) (· = s) := by
  rw [fundDirectBalance_short _ hrequired]
  refine Triple.bind (Triple.conseq (@exchangeBalance_reads s playerUuid exchange language hbalance) (fun _ h => h)
    (fun _ _ h => h) (fun _ _ h => h.1) fun _ h => h) fun c => Triple.of_forall fun s' h => ?_
  obtain ⟨rfl, rfl⟩ := h
  rw [if_neg (not_le.mpr hshort)]
  split_ifs
  · exact Triple.throw fun _ h => h
  refine Triple.bind (Triple.conseq (@externalBalance_reads s' playerName external language hmoney) (fun _ h => h)
    (fun _ _ h => h) (fun _ _ h => h.1) fun _ h => h) fun u => Triple.of_forall fun s'' h => ?_
  obtain ⟨rfl, rfl⟩ := h
  dsimp only
  rw [if_pos hunits]
  exact Triple.throw fun _ h => h

private theorem fund_covered (hbalance : HasBalance s.db playerUuid exchange) (hrequired : 0 < required)
    (hcovered : required ≤ exchange) :
    Triple (· = s) (fundDirectBalance settings (text language) playerUuid playerName required)
      (fun _ s' => s' = s) (fun e s' => s' = s ∧ ¬ IsRefusal language e) (· = s) := by
  rw [fundDirectBalance_short _ hrequired]
  refine Triple.bind (@exchangeBalance_reads s playerUuid exchange language hbalance) fun c =>
    Triple.of_forall fun s' h => ?_
  obtain ⟨rfl, rfl⟩ := h
  rw [if_pos hcovered]
  exact Triple.pure fun _ h => h

private theorem fund_transfers (hbalance : HasBalance s.db playerUuid exchange)
    (hmoney : s.money playerName = some external) (hrequired : 0 < required) (hshort : exchange < required)
    (hunits : unitsShort exchange required ≤ external) (hlimit : external ≤ maxCents / umoneyUnitCents) :
    Triple (· = s) (fundDirectBalance settings (text language) playerUuid playerName required)
      (fun _ => Covers s playerUuid playerName exchange external (unitsShort exchange required) required)
      (fun e s' => Worked s playerUuid playerName exchange external (unitsShort exchange required) s' ∨
        s'.db.economyTransfers = s.db.economyTransfers ∧ ¬ IsRefusal language e)
      (fun s' => Worked s playerUuid playerName exchange external (unitsShort exchange required) s' ∨
        s'.db.economyTransfers = s.db.economyTransfers) := by
  have hpos := (unitsShort_bounds hshort).1
  rw [fundDirectBalance_short _ hrequired]
  refine Triple.bind (Triple.conseq (@exchangeBalance_reads s playerUuid exchange language hbalance) (fun _ h => h)
    (fun _ _ h => h) (fun _ _ h => .inr ⟨by rw [h.1], h.2⟩) fun _ h => .inr (by rw [h])) fun c =>
      Triple.of_forall fun s' h => ?_
  obtain ⟨rfl, rfl⟩ := h
  rw [if_neg (not_le.mpr hshort), if_neg (not_or.mpr ⟨not_le.mpr hpos, not_lt.mpr (hunits.trans hlimit)⟩)]
  refine Triple.bind (Triple.conseq (@externalBalance_reads s' playerName external language hmoney) (fun _ h => h)
    (fun _ _ h => h) (fun _ _ h => .inr ⟨by rw [h.1], h.2⟩) fun _ h => .inr (by rw [h])) fun u =>
      Triple.of_forall fun s'' h => ?_
  obtain ⟨rfl, rfl⟩ := h
  dsimp only
  rw [if_neg (not_lt.mpr hunits)]
  exact transfer_triple hbalance hmoney hpos hunits

/-- Where every call goes through, funding refuses with one of its own errors. -/
theorem fund_refuses_undisturbed (hbalance : HasBalance s.db playerUuid exchange)
    (hmoney : s.money playerName = some external) (hfits : minCents ≤ external ∧ external ≤ maxCents)
    (hrequired : 0 < required) (hshort : exchange < required) (hunits : external < unitsShort exchange required) :
    ∃ e, IsRefusal language e ∧
      fundDirectBalance settings (text language) playerUuid playerName required [] s = (.threw e, [], s) := by
  obtain ⟨a, ha, rfl⟩ := hbalance
  have hread : onDb (AccountOperations.balance playerUuid) [] s = (.returned a.balanceCents, [], s) := by
    rw [onDb, Program.zoom, AccountOperations.balance, transaction_returned (lockedBalance_ok.mpr ⟨a, ha, rfl⟩)]
  have hgateway : UmoneyGateway.balance playerName [] s = (.returned (some external), [], s) := by
    simp [UmoneyGateway.balance, Program.call, hmoney, hfits]
  rw [fundDirectBalance_short _ hrequired, Program.bind_returned hread, if_neg (not_le.mpr hshort)]
  split_ifs
  · exact ⟨_, .inl rfl, rfl⟩
  · rw [Program.bind_returned hgateway]
    dsimp only
    rw [if_pos hunits]
    exact ⟨_, .inr rfl, rfl⟩

/-- Where every call goes through, the deposit is prepared. -/
theorem prepare_performs (hbalance : HasBalance s.db playerUuid exchange) (huuid : playerUuid ≠ "")
    (hname : playerName ≠ "") (hunits : 0 < units) :
    Succeeds (onDb (prepareEconomyTransfer settings playerUuid playerName .deposit
      (units * umoneyUnitCents) units (some external))) s fun transfer s' =>
        Prepared s playerUuid playerName exchange external units s' ∧
          transfer = economyTransferFromRow s.db.economyTransfers.nextId
            (depositRow playerUuid playerName units external) := by
  have hcents : 0 < units * umoneyUnitCents := mul_pos hunits (by decide)
  have hsucceeds : Succeeds (prepareEconomyTransfer settings playerUuid playerName .deposit
      (units * umoneyUnitCents) units (some external)) s.db fun _ _ => True := by
    simp only [prepareEconomyTransfer, huuid, hname, or_self, if_false, not_le.mpr hcents, not_le.mpr hunits]
    refine Succeeds.bind (R := fun _ _ => True) ?_ fun _ db _ => ?_
    · simp only [AccountOperations.ensureAccount, huuid, if_false]
      exact .atomic (AccountOperations.ensureAccountTx_ok.mpr rfl) trivial
    have hprepare : prepareEconomyTransferTx playerUuid playerName .deposit (units * umoneyUnitCents) units
        (some external) db = .ok (db.economyTransfers.nextId,
          Db.addTransfer db (depositRow playerUuid playerName units external)) :=
      bind_ok.mpr ⟨_, select_ok.mpr rfl, bind_ok.mpr ⟨_, execute_ok.mpr rfl, bind_ok.mpr
        ⟨_, pure_ok.mpr rfl, pure_ok.mpr rfl⟩⟩⟩
    refine Succeeds.bind (R := fun id db' => db'.economyTransfers.get? id =
      some (depositRow playerUuid playerName units external)) (.atomic hprepare ?_) fun id db' h => ?_
    · rw [Db.addTransfer_economyTransfers, Table.get?_insert_self]
    · refine Succeeds.bind (R := fun transfer _ => transfer = some (economyTransferFromRow id
        (depositRow playerUuid playerName units external))) (.atomic (select_ok.mpr rfl) ?_) fun transfer _ h => ?_
      · exact congrArg (Option.map _) h
      · subst h
        exact .pure trivial
  have hzoomed : Succeeds (onDb (prepareEconomyTransfer settings playerUuid playerName .deposit
      (units * umoneyUnitCents) units (some external))) s fun _ _ => True := .zoom hsucceeds
  exact (hzoomed.strengthen (@prepare_economy settings s playerUuid playerName exchange external units .english
    hbalance)).mono fun _ _ h => h.2

/-- A prepared deposit that is covered is completed. -/
theorem process_performs (settings : Settings) {s' : Economy}
    (h : Prepared s playerUuid playerName exchange external units s')
    (hmoney : s.money playerName = some external) (hrange : minCents ≤ external ∧ external ≤ maxCents)
    (hunits : 0 < units) (hcovered : units ≤ external)
    (hfits : exchange + units * umoneyUnitCents ≤ maxCents) :
    Succeeds (processEconomyTransfer (economyTransferFromRow s.db.economyTransfers.nextId
      (depositRow playerUuid playerName units external)) true) s' fun done s'' => done = true ∧
        HasBalance s''.db playerUuid (exchange + units * umoneyUnitCents) ∧
        ∃ t, s''.db.economyTransfers.get? s.db.economyTransfers.nextId = some t ∧ t.status = .completed := by
  obtain ⟨a, ha, hexchange⟩ := h.db.2
  have hcurrent : s'.money playerName = some external := by rw [h.money, hmoney]
  have hcredit : Creditable s'.db playerUuid (units * umoneyUnitCents) :=
    ⟨(mul_pos hunits (by decide)).le, fun _ => ⟨a, ha, hexchange ▸ hfits⟩⟩
  have hattempt : Succeeds (attempt (economyTransferFromRow s.db.economyTransfers.nextId
      (depositRow playerUuid playerName units external)) external true) s'
      (RecoveryPasses.Completed s' s.db.economyTransfers.nextId
        (depositRow playerUuid playerName units external)) := by
    refine (RecoveryPasses.balance_succeeds (fun _ hm => ?_) (Q := fun c s'' => c = some external ∧ s' = s'')
      ⟨hcurrent, rfl⟩).bind fun c s'' hread => ?_
    · obtain rfl := Option.some.inj (hcurrent.symm.trans hm)
      exact hrange
    · obtain ⟨rfl, rfl⟩ := hread
      simp only [economyTransferFromRow, depositRow, decide_funding hunits hcovered]
      exact RecoveryPasses.applyChange_succeeds h.get ha rfl hcurrent hrange (fun _ => hcredit)
        (decide_funding hunits hcovered)
  rw [process_eq rfl rfl true]
  refine hattempt.tryCatch.exact.mono fun done s'' hrun => ?_
  obtain ⟨⟨hdone, -, hcompleted⟩, hlast⟩ := hrun
  have hworked := process_worked settings h hmoney hunits hcovered []
  rw [process_eq rfl rfl true, ← hlast] at hworked
  obtain ⟨t, ht, -, -, -, hbalance⟩ := hworked.deposited
  rw [if_pos (hcompleted t ht)] at hbalance
  exact ⟨hdone, hbalance, t, ht, hcompleted t ht⟩

/-- Where every call goes through, a purchase that is covered is funded. -/
theorem fund_performs (hbalance : HasBalance s.db playerUuid exchange) (hmoney : s.money playerName = some external)
    (huuid : playerUuid ≠ "") (hname : playerName ≠ "") (hrequired : 0 < required) (hshort : exchange < required)
    (hunits : unitsShort exchange required ≤ external) (hlimit : external ≤ maxCents / umoneyUnitCents)
    (hrange : minCents ≤ external ∧ external ≤ maxCents)
    (hfits : exchange + unitsShort exchange required * umoneyUnitCents ≤ maxCents) :
    Succeeds (fundDirectBalance settings (text language) playerUuid playerName required) s fun _ s' =>
      ∃ t, s'.db.economyTransfers.get? s.db.economyTransfers.nextId = some t ∧ t.status = .completed := by
  obtain ⟨hpos, hcovers, -⟩ := unitsShort_bounds hshort
  rw [fundDirectBalance_short _ hrequired]
  refine Succeeds.bind (R := fun c s' => c = exchange ∧ s = s') ?_ fun c s' h => ?_
  · obtain ⟨a, ha, rfl⟩ := hbalance
    exact RecoveryPasses.onDb_succeeds (lockedBalance_ok.mpr ⟨a, ha, rfl⟩) ⟨rfl, rfl⟩
  obtain ⟨rfl, rfl⟩ := h
  rw [if_neg (not_le.mpr hshort), if_neg (not_or.mpr ⟨not_le.mpr hpos, not_lt.mpr (hunits.trans hlimit)⟩)]
  refine (RecoveryPasses.balance_succeeds (fun _ hm => ?_) (Q := fun u s' => u = some external ∧ s = s')
    ⟨hmoney, rfl⟩).bind fun u s' h => ?_
  · obtain rfl := Option.some.inj (hmoney.symm.trans hm)
    exact hrange
  obtain ⟨rfl, rfl⟩ := h
  dsimp only
  rw [if_neg (not_lt.mpr hunits)]
  refine (prepare_performs hbalance huuid hname hpos).bind fun transfer s' h => ?_
  obtain ⟨hprepared, rfl⟩ := h
  refine (process_performs settings hprepared hmoney hrange hpos hunits hfits).bind fun done s'' h => ?_
  obtain ⟨rfl, ⟨a, ha, hfunded⟩, hcompleted⟩ := h
  rw [if_neg (by decide)]
  refine (RecoveryPasses.onDb_succeeds (Q := fun funded s₃ => funded = a.balanceCents ∧ s'' = s₃)
    (lockedBalance_ok.mpr ⟨a, ha, rfl⟩) ⟨rfl, rfl⟩).bind fun funded s₃ h => ?_
  obtain ⟨rfl, rfl⟩ := h
  have henough : required ≤ a.balanceCents := by
    rw [hfunded, umoneyUnitCents]
    linarith
  rw [if_neg (not_lt.mpr henough)]
  exact .pure hcompleted

end Funding

section Agreement
variable {exchange external required spendable : ℤ} {language : LocalizedMessages.Language}

/-- Without an overflow the whole transfer computes the two new balances, or is refused. -/
theorem fundedBalances_covered (hexchange : 0 ≤ exchange) (hfits : Fits exchange) (hshort : exchange < required)
    (hrequired : Fits required) (hsum : exchange + external * 100 ≤ int64Max)
    (hunits : unitsShort exchange required ≤ external) :
    fundedBalances exchange external required language =
      .ok (exchange + unitsShort exchange required * 100, external - unitsShort exchange required) := by
  have hpos := (unitsShort_bounds hshort).1
  have hmax : int64Max = 9223372036854775807 := rfl
  have hlimit : ¬ unitsShort exchange required > int64Max / 100 := by omega
  have fits : ∀ {n : ℤ}, 0 ≤ n → n ≤ int64Max → Fits n := fun h0 h =>
    (show Fits int64Max by decide).of_nonneg h0 h
  have hunitsFit : Fits (unitsShort exchange required) := fits hpos.le (by omega)
  have hneg : Fits (-unitsShort exchange required) := by simpa using fits_sub fits_zero hunitsFit le_rfl hpos.le
  have hproduct : Fits (unitsShort exchange required * umoneyUnitCents) :=
    fits (by unfold umoneyUnitCents; omega) (by unfold umoneyUnitCents; omega)
  have hcredit : Fits (exchange + unitsShort exchange required * umoneyUnitCents) :=
    fits (by unfold umoneyUnitCents; omega) (by unfold umoneyUnitCents; omega)
  rw [fundedBalances, fundingUnits_eq hexchange hfits hshort hrequired, if_neg hlimit, ok_bind,
    if_neg (not_lt.mpr hunits), mul_of_fits hproduct, ok_bind, sub_of_fits (fits (by omega) (by omega)), ok_bind,
    neg_of_fits hneg, ok_bind, add_of_fits hcredit, ok_bind]
  rfl

private theorem fundedBalances_refused (hexchange : 0 ≤ exchange) (hfits : Fits exchange) (hshort : exchange < required)
    (hrequired : Fits required) (hunits : external < unitsShort exchange required) :
    ∃ e, IsRefusal language e ∧ fundedBalances exchange external required language = raise e := by
  rw [fundedBalances, fundingUnits_eq hexchange hfits hshort hrequired]
  split_ifs with hlarge
  · exact ⟨_, .inl rfl, rfl⟩
  · rw [ok_bind, if_pos hunits]
    exact ⟨_, .inr rfl, rfl⟩

/-- The balances a completed funding leaves. -/
structure Funded (exchange external required spendable : ℤ) (language : LocalizedMessages.Language)
    (balance external' : ℤ) : Prop where
  covers : required ≤ balance
  close : exchange < required → balance < required + 100
  whole : 100 ∣ balance - exchange
  fell : external - external' = (balance - exchange) / 100
  shown : spendableCents balance external' = .ok spendable
  exact : exchange < required →
    fundedBalances exchange external required language = .ok (balance, external')

private theorem funded_covered (hexchange : 0 ≤ exchange) (hfits : Fits exchange) (hexternal : 0 ≤ external)
    (hshort : exchange < required) (hrequired : Fits required)
    (hshown : spendableCents exchange external = .ok spendable) (hunits : unitsShort exchange required ≤ external) :
    Funded exchange external required spendable language (exchange + unitsShort exchange required * 100)
      (external - unitsShort exchange required) := by
  obtain ⟨hsum, rfl⟩ := (spendableCents_eq_ok hexchange hfits hexternal).mp hshown
  obtain ⟨hpos, hle, hlt⟩ := unitsShort_bounds hshort
  have hbalance : Fits (exchange + unitsShort exchange required * 100) :=
    (show Fits int64Max by decide).of_nonneg (by omega) (by omega)
  refine ⟨by omega, fun _ => by omega, by omega, by omega, ?_,
    fun _ => fundedBalances_covered hexchange hfits hshort hrequired hsum hunits⟩
  exact (spendableCents_eq_ok (by omega) hbalance (by omega)).mpr ⟨by omega, by omega⟩

private theorem funded_idle (hcovered : required ≤ exchange)
    (hshown : spendableCents exchange external = .ok spendable) :
    Funded exchange external required spendable language exchange external :=
  ⟨hcovered, fun h => absurd hcovered (not_le.mpr h), by simp, by simp, hshown,
    fun h => absurd hcovered (not_le.mpr h)⟩

/-- Funding returned, or the transfer it prepared is completed. -/
def Completes (s : Economy) (r : DurablePrograms.Outcome Error PUnit × List Fault × Economy) : Prop :=
  r.1 = .returned ⟨⟩ ∨
    ∃ t, r.2.2.db.economyTransfers.get? s.db.economyTransfers.nextId = some t ∧ t.status = .completed

/-- How a run of funding agrees with the spendable balance shown before it. -/
structure AgreesWith (s : Economy) (playerUuid playerName : String) (exchange external required spendable : ℤ)
    (language : LocalizedMessages.Language) (faults : List Fault)
    (r : DurablePrograms.Outcome Error PUnit × List Fault × Economy) : Prop where
  refused : spendable < required → r.1 ≠ .returned ⟨⟩ ∧ r.2.2 = s ∧
    (faults = [] → ∃ e, IsRefusal language e ∧ r.1 = .threw e)
  allowed : required ≤ spendable → ∀ e, IsRefusal language e → r.1 = .threw e →
    r.2.2.db.economyTransfers ≠ s.db.economyTransfers
  performed : faults = [] → required ≤ spendable → (required ≤ exchange → r.1 = .returned ⟨⟩ ∧ r.2.2 = s) ∧
    (exchange < required → playerUuid ≠ "" → playerName ≠ "" → r.1 = .returned ⟨⟩ ∧
      ∃ t, r.2.2.db.economyTransfers.get? s.db.economyTransfers.nextId = some t ∧ t.status = .completed)
  funded : required ≤ spendable → Completes s r → ∃ balance external', HasBalance r.2.2.db playerUuid balance ∧
    r.2.2.money playerName = some external' ∧
    Funded exchange external required spendable language balance external'
  noOverflow : NoOverflow (spendableCents exchange external) ∧
    (exchange < required → NoOverflow (fundedBalances exchange external required language))

theorem Worked.prepared {s s' : Economy} {playerUuid playerName : String} {units : ℤ}
    (h : Worked s playerUuid playerName exchange external units s') :
    s'.db.economyTransfers ≠ s.db.economyTransfers := by
  obtain ⟨t, ht, -⟩ := h.deposited
  intro heq
  rw [heq, Table.get?_nextId] at ht
  cases ht

/-- A deposit that covers the purchase is completed. -/
theorem Covers.completed {s s' : Economy} {playerUuid playerName : String} {units : ℤ}
    (h : Covers s playerUuid playerName exchange external units required s') (hshort : exchange < required) :
    ∃ t, s'.db.economyTransfers.get? s.db.economyTransfers.nextId = some t ∧ t.status = .completed := by
  obtain ⟨hworked, c, ⟨a, ha, rfl⟩, hcovers⟩ := h
  obtain ⟨t, ht, -, -, -, a', ha', hc⟩ := hworked.deposited
  refine ⟨t, ht, by_contra fun hopen => ?_⟩
  cases ha.symm.trans ha'
  rw [if_neg hopen, add_zero] at hc
  linarith

theorem Worked.balances {s s' : Economy} {playerUuid playerName : String} {units : ℤ}
    (h : Worked s playerUuid playerName exchange external units s')
    (hdone : ∃ t, s'.db.economyTransfers.get? s.db.economyTransfers.nextId = some t ∧ t.status = .completed) :
    HasBalance s'.db playerUuid (exchange + units * 100) ∧ s'.money playerName = some (external - units) := by
  obtain ⟨t, ht, hs⟩ := hdone
  refine ⟨?_, h.money t ht hs⟩
  obtain ⟨t', ht', -, -, -, hbalance⟩ := h.deposited
  cases ht.symm.trans ht'
  rwa [if_pos hs] at hbalance

end Agreement

section Runs
variable {settings : Settings} {s : Economy} {playerUuid playerName : String}
  {exchange external required spendable : ℤ} {language : LocalizedMessages.Language}

private theorem agrees_refused (hbalance : HasBalance s.db playerUuid exchange) (hexchange : 0 ≤ exchange)
    (hfits : Fits exchange) (hmoney : s.money playerName = some external) (hexternal : 0 ≤ external)
    (hshown : spendableCents exchange external = .ok spendable) (hrequired : 0 < required)
    (hrequiredFits : Fits required) (habove : spendable < required) (faults : List Fault) :
    AgreesWith s playerUuid playerName exchange external required spendable language faults
      (fundDirectBalance settings (text language) playerUuid playerName required faults s) := by
  obtain ⟨hsum, hspendable⟩ := (spendableCents_eq_ok hexchange hfits hexternal).mp hshown
  have hshort : exchange < required := by omega
  have hunits := (short_iff hshort hspendable).mp habove
  have hrange : minCents ≤ external ∧ external ≤ maxCents := by
    have hmax : int64Max = 9223372036854775807 := rfl
    constructor
    · exact le_trans (by decide) hexternal
    · exact le_trans (show external ≤ int64Max by omega) (by decide)
  have hend := @fund_refuses settings s playerUuid playerName exchange external required language hbalance hmoney
    hrequired hshort hunits faults s rfl
  have hstate : (fundDirectBalance settings (text language) playerUuid playerName required faults s).1 ≠
      .returned ⟨⟩ ∧
      (fundDirectBalance settings (text language) playerUuid playerName required faults s).2.2 = s := by
    unfold Ends at hend
    cases hr : (fundDirectBalance settings (text language) playerUuid playerName required faults s).1 with
    | returned u => simp only [hr] at hend
    | threw e => simp only [hr] at hend; exact ⟨by simp, hend⟩
    | crashed => simp only [hr] at hend; exact ⟨by simp, hend⟩
  refine ⟨fun _ => ⟨hstate.1, hstate.2, fun hnone => ?_⟩, fun h => absurd habove (not_lt.mpr h),
    fun _ h => absurd habove (not_lt.mpr h), fun h => absurd habove (not_lt.mpr h), ?_, fun _ => ?_⟩
  · obtain ⟨e, he, hrun⟩ := @fund_refuses_undisturbed settings s playerUuid playerName exchange external
      required language hbalance hmoney hrange hrequired hshort hunits
    exact ⟨e, he, by rw [hnone, hrun]⟩
  · exact noOverflow_of_ok hshown
  · obtain ⟨e, -, he⟩ := @fundedBalances_refused exchange external required language hexchange hfits hshort
      hrequiredFits hunits
    exact noOverflow_of_raise he

private theorem agrees_covered (hbalance : HasBalance s.db playerUuid exchange) (hexchange : 0 ≤ exchange)
    (hmoney : s.money playerName = some external) (hexternal : 0 ≤ external)
    (hshown : spendableCents exchange external = .ok spendable) (hfits : Fits exchange)
    (hrequired : 0 < required) (hcovered : required ≤ exchange) (faults : List Fault) :
    AgreesWith s playerUuid playerName exchange external required spendable language faults
      (fundDirectBalance settings (text language) playerUuid playerName required faults s) := by
  obtain ⟨-, hspendable⟩ := (spendableCents_eq_ok hexchange hfits hexternal).mp hshown
  have hend := @fund_covered settings s playerUuid playerName exchange required language hbalance hrequired
    hcovered faults s rfl
  have hstate : (fundDirectBalance settings (text language) playerUuid playerName required faults s).2.2 = s := by
    unfold Ends at hend
    cases hr : (fundDirectBalance settings (text language) playerUuid playerName required faults s).1 with
    | returned u => simp only [hr] at hend; exact hend
    | threw e => simp only [hr] at hend; exact hend.1
    | crashed => simp only [hr] at hend; exact hend
  refine ⟨fun h => absurd h (by omega), fun _ e he hthrew => ?_, fun hnone _ => ⟨fun _ => ?_,
    fun h => absurd hcovered (not_le.mpr h)⟩, fun _ _ => ⟨exchange, external, ?_⟩, ?_,
    fun h => absurd hcovered (not_le.mpr h)⟩
  · rw [Ends, hthrew] at hend
    exact absurd he hend.2
  · obtain ⟨a, ha, rfl⟩ := hbalance
    subst hnone
    have hread : onDb (AccountOperations.balance playerUuid) [] s = (.returned a.balanceCents, [], s) := by
      rw [onDb, Program.zoom, AccountOperations.balance, transaction_returned (lockedBalance_ok.mpr ⟨a, ha, rfl⟩)]
    have hrun : fundDirectBalance settings (text language) playerUuid playerName required [] s =
        (.returned ⟨⟩, [], s) := by
      rw [fundDirectBalance_short _ hrequired, Program.bind_returned hread, if_pos hcovered]
      rfl
    rw [hrun]
    exact ⟨rfl, rfl⟩
  · rw [hstate]
    exact ⟨hbalance, hmoney, funded_idle hcovered hshown⟩
  · exact noOverflow_of_ok hshown

private theorem agrees_transferred (hbalance : HasBalance s.db playerUuid exchange) (hexchange : 0 ≤ exchange)
    (hfits : Fits exchange) (hmoney : s.money playerName = some external) (hexternal : 0 ≤ external)
    (hshown : spendableCents exchange external = .ok spendable) (hrequired : 0 < required)
    (hrequiredFits : Fits required) (hshort : exchange < required) (hwithin : required ≤ spendable)
    (faults : List Fault) :
    AgreesWith s playerUuid playerName exchange external required spendable language faults
      (fundDirectBalance settings (text language) playerUuid playerName required faults s) := by
  obtain ⟨hsum, hspendable⟩ := (spendableCents_eq_ok hexchange hfits hexternal).mp hshown
  have hunits : unitsShort exchange required ≤ external :=
    not_lt.mp fun h => absurd ((short_iff hshort hspendable).mpr h) (not_lt.mpr hwithin)
  have hlimit : external ≤ maxCents / umoneyUnitCents := by
    have hmax : int64Max = 9223372036854775807 := rfl
    have hquotient : maxCents / umoneyUnitCents = 92233720368547758 := rfl
    rw [hquotient]
    omega
  have hend := @fund_transfers settings s playerUuid playerName exchange external required language hbalance hmoney
    hrequired hshort hunits hlimit faults s rfl
  refine ⟨fun h => absurd hwithin (not_le.mpr h), fun _ e he hthrew => ?_,
    fun hnone _ => ⟨fun h => absurd h (not_le.mpr hshort), fun _ huuid hname => ?_⟩, fun _ hdone => ?_, ?_,
    fun _ => ?_⟩
  · rw [Ends, hthrew] at hend
    rcases hend with hworked | ⟨-, hno⟩
    · exact hworked.prepared
    · exact absurd he hno
  · have hrange : minCents ≤ external ∧ external ≤ maxCents :=
      ⟨le_trans (by decide) hexternal, hlimit.trans (by decide)⟩
    have hsumFits : exchange + unitsShort exchange required * umoneyUnitCents ≤ maxCents :=
      (show exchange + unitsShort exchange required * 100 ≤ int64Max by omega).trans (by decide)
    obtain ⟨u, s', hrun, t, ht, hs⟩ := @fund_performs settings s playerUuid playerName exchange external required
      language hbalance hmoney huuid hname hrequired hshort hunits hlimit hrange hsumFits
    rw [hnone, hrun]
    exact ⟨rfl, t, ht, hs⟩
  · have hunprepared : ∀ s' : Economy, s'.db.economyTransfers = s.db.economyTransfers →
        ¬ ∃ t, s'.db.economyTransfers.get? s.db.economyTransfers.nextId = some t ∧ t.status = .completed := by
      rintro s' hsame ⟨t, ht, -⟩
      rw [hsame, Table.get?_nextId] at ht
      cases ht
    have hworked : Worked s playerUuid playerName exchange external (unitsShort exchange required)
        (fundDirectBalance settings (text language) playerUuid playerName required faults s).2.2 ∧
        ∃ t, (fundDirectBalance settings (text language) playerUuid playerName required faults
          s).2.2.db.economyTransfers.get? s.db.economyTransfers.nextId = some t ∧ t.status = .completed := by
      unfold Ends at hend
      cases hr : (fundDirectBalance settings (text language) playerUuid playerName required faults s).1 with
      | returned u => simp only [hr] at hend; exact ⟨hend.1, hend.completed hshort⟩
      | threw e =>
        simp only [hr] at hend
        have hrow := hdone.resolve_left (by simp [hr])
        exact ⟨hend.resolve_right fun h => hunprepared _ h.1 hrow, hrow⟩
      | crashed =>
        simp only [hr] at hend
        have hrow := hdone.resolve_left (by simp [hr])
        exact ⟨hend.resolve_right fun h => hunprepared _ h hrow, hrow⟩
    obtain ⟨hnew, hunitsLeft⟩ := hworked.1.balances hworked.2
    exact ⟨_, _, hnew, hunitsLeft,
      funded_covered hexchange hfits hexternal hshort hrequiredFits hshown hunits⟩
  · exact noOverflow_of_ok hshown
  · exact noOverflow_of_ok (fundedBalances_covered hexchange hfits hshort hrequiredFits hsum hunits)

end Runs

/-- Funding refuses exactly the purchases above the spendable balance shown, and one that
completes leaves that balance as it is. -/
theorem funding_agrees_with_spendable {settings : Settings} {s : Economy} {playerUuid playerName : String}
    {exchange external required spendable : ℤ} (hbalance : HasBalance s.db playerUuid exchange)
    (hexchange : 0 ≤ exchange) (hfits : Fits exchange) (hmoney : s.money playerName = some external)
    (hexternal : 0 ≤ external) (reads : List Fault)
    (hshown : (spendableBalance playerUuid playerName reads s).1 = .returned (.ok spendable))
    (hrequired : 0 < required) (hrequiredFits : Fits required) (language : LocalizedMessages.Language)
    (faults : List Fault) :
    AgreesWith s playerUuid playerName exchange external required spendable language faults
      (fundDirectBalance settings (text language) playerUuid playerName required faults s) := by
  have hvalue := spendableBalance_reads hbalance hmoney reads hshown
  rcases lt_or_ge spendable required with habove | hwithin
  · exact agrees_refused hbalance hexchange hfits hmoney hexternal hvalue.symm hrequired hrequiredFits habove faults
  · rcases le_or_gt required exchange with hcovered | hshort
    · exact agrees_covered hbalance hexchange hmoney hexternal hvalue.symm hfits hrequired hcovered faults
    · exact agrees_transferred hbalance hexchange hfits hmoney hexternal hvalue.symm hrequired hrequiredFits hshort
        hwithin faults

/-- `alice` holds 1000 units in UMoney and an empty exchange account. -/
def unfundedEconomy : Economy :=
  { UmoneySaga.aliceEconomy with
    db := ServiceRuns.afterCalls ServiceRuns.umoneySettings [.ensureAccount "alice" "alice"] }

theorem funding_agrees_at_four_and_a_half_units :
    AgreesWith unfundedEconomy "alice" "alice" 0 1000 450 100000 .english []
      (fundDirectBalance ServiceRuns.umoneySettings (text .english) "alice" "alice" 450 [] unfundedEconomy) :=
  funding_agrees_with_spendable ⟨⟨"alice", 0⟩, rfl, rfl⟩ (by decide) (by decide) rfl (by decide) [] rfl (by decide)
    (by decide) .english []

end EndstoneExchange.SpendableFunding
