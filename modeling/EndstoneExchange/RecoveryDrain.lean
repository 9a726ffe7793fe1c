import EndstoneExchange.RecoveryPasses
import Mathlib.Data.Set.Card
import Mathlib.Order.WellFounded

/-!
# Draining the backlog

What cannot make progress stays on the pages that a pass fetches. Passes drain the rest as
long as no page is full of stuck records, and nothing behind a page that is.
-/
namespace EndstoneExchange.RecoveryDrain
open AutoIncrementTables KeyedTables AtomicTransactions.Transaction DurablePrograms FaultlessRuns
  ExchangeDomain ExchangeTransactions AccountOperations EconomyTransferOperations ServiceRuns
  UmoneyGateway UmoneyAttempts UmoneyReconciliation RecoveryPasses

variable {settings : Settings}

section Recovery
variable {s s' : Economy}

/-- The transfers `rest` of the page are still to come. -/
structure Recovering (s : Economy) (rest : List EconomyTransfer) (s' : Economy) : Prop where
  remaining : rest.foldl processed s' = recovered s
  passed : Passed s s'
  constrained : Constrained s'
  credits : CreditsFit rest s'
  current : ∀ transfer ∈ rest, Current transfer s'.db
  nodup : (rest.map (·.id)).Nodup
  subset : rest ⊆ pendingPage s.db
  finished : ∀ transfer ∈ pendingPage s.db, Finishable s transfer.toEconomyTransferRow →
    transfer ∈ rest ∨ ∀ t, s'.db.economyTransfers.get? transfer.id = some t → ¬ Finishable s' t
  idle : (∀ transfer ∈ pendingPage s.db, ¬ Finishable s transfer.toEconomyTransferRow) →
    s'.db.accounts = s.db.accounts ∧ outlook s'.db = outlook s.db

private theorem pendingPage_pending {db : Db} {transfer : EconomyTransfer} (h : transfer ∈ pendingPage db) :
    transfer.status = .prepared ∨ transfer.status = .externalApplied := by
  obtain ⟨e, he, rfl⟩ := List.mem_map.mp h
  exact of_decide_eq_true (List.mem_filter.mp (List.mem_of_mem_take he)).2

theorem pendingPage_current (db : Db) :
    (∀ transfer ∈ pendingPage db, Current transfer db) ∧ ((pendingPage db).map (·.id)).Nodup := by
  have hpage : pendingEconomyTransfers 100 db = .ok (pendingPage db, db) := rfl
  exact (pendingEconomyTransfers_ok hpage).2

theorem Recovering.start (hs : Constrained s) (hcredits : CreditsFit (pendingPage s.db) s) :
    Recovering s (pendingPage s.db) s := by
  obtain ⟨hcurrent, hnodup⟩ := pendingPage_current s.db
  exact ⟨rfl, .refl s, hs, hcredits, hcurrent, hnodup, fun _ h => h, fun _ h _ => .inl h,
    fun _ => ⟨rfl, rfl⟩⟩

theorem Recovering.next (settings : Settings) {transfer : EconomyTransfer} {rest : List EconomyTransfer}
    (h : Recovering s (transfer :: rest) s') :
    Succeeds (processEconomyTransfer transfer false) s' fun _ => Recovering s rest := by
  obtain ⟨t, ht, htransfer⟩ := h.current transfer (List.mem_cons_self ..)
  have hmem := h.subset (List.mem_cons_self ..)
  have hpending := pendingPage_pending hmem
  have hnodup := h.nodup
  rw [List.map_cons, List.nodup_cons] at hnodup
  generalize transfer.id = id at ht htransfer hnodup
  subst htransfer
  have hsame : Finishable s' t ↔ Finishable s t := by rw [Finishable, Finishable, h.passed.money]
  have hleaves := process_leaves settings ht false []
  refine (process_handles settings h.constrained ht hpending h.credits.1).mono fun _ s'' hp => ?_
  obtain ⟨hhandles, rfl⟩ := hp
  refine ⟨h.remaining, h.passed.trans hhandles.passed, hhandles.passed.constrained h.constrained, h.credits.2,
    fun other hother => ?_, hnodup.2, fun _ hother => h.subset (List.mem_cons_of_mem _ hother),
    fun other hother hf => ?_, fun hidle => ?_⟩
  · have hne : other.id ≠ id := fun he => hnodup.1 (he ▸ List.mem_map_of_mem hother)
    exact hleaves.current hne (h.current other (List.mem_cons_of_mem _ hother))
  · obtain hrest | hdone := h.finished other hother hf
    · obtain rfl | hrest := List.mem_cons.mp hrest
      · exact .inr (hhandles.finished (hsame.mpr hf))
      · exact .inl hrest
    · exact .inr (hhandles.passed.finished hdone)
  · have hstuck : ¬ Finishable s' t := fun hf => hidle _ hmem (hsame.mp hf)
    rw [hhandles.accounts (.inr hstuck), hhandles.outlook hstuck]
    exact h.idle hidle

theorem recovery_succeeds (settings : Settings) (hs : Constrained s)
    (hcredits : CreditsFit (pendingPage s.db) s) : Succeeds (do
      let transfers ← onDb (transaction (pendingEconomyTransfers 100))
      Program.forEach (fun transfer =>
        tryCatch (do let _ ← processEconomyTransfer transfer false) fun _ => pure ⟨⟩) transfers) s
      fun _ => Recovering s [] := by
  refine (onDb_succeeds (Q := fun transfers s' => transfers = pendingPage s.db ∧ s = s')
    (select_ok.mpr rfl) ⟨rfl, rfl⟩).bind fun transfers s' h => ?_
  obtain ⟨rfl, rfl⟩ := h
  refine Succeeds.forEach (R := Recovering s) (fun transfer rest s' h => ?_) (.start hs hcredits)
  have hbody : Succeeds (do let _ ← processEconomyTransfer transfer false) s' fun _ => Recovering s rest :=
    (h.next settings).bind fun _ _ h => .pure h
  exact hbody.tryCatch

end Recovery

section Sweep
variable {s s' : Economy} {uuid : String} {a : AccountRow} {units : ℤ}

/-- The withdrawal of an account's whole units. -/
def withdrawal (uuid playerName : String) (units : ℤ) (before : Option ℤ) : EconomyTransferRow :=
  { playerUuid := uuid, playerName, direction := .withdraw, amountCents := units * umoneyUnitCents
    amountUnits := units, externalBalanceBeforeUnits := before }

/-- The sweep's account has its name already. -/
theorem ensureAccount_succeeds {db : Db} (ha : db.accounts.find? uuid = some a) (huuid : uuid ≠ "") :
    Succeeds (ensureAccount settings uuid a.playerName) db fun _ db' =>
      db'.economyTransfers = db.economyTransfers ∧
        ∀ other, db'.accounts.find? other = db.accounts.find? other := by
  simp only [ensureAccount, huuid, if_false]
  refine .atomic (ensureAccountTx_ok.mpr rfl) ?_
  simp only [Db.ensured, ha, Db.setAccount_economyTransfers, Db.setAccount_accounts, true_and]
  intro other
  rw [KeyedTable.find?_update]
  split_ifs with h
  · rw [h, ha]
    rfl
  · rfl

private theorem prepare_succeeds {db : Db} (ha : db.accounts.find? uuid = some a) (huuid : uuid ≠ "")
    (hname : a.playerName ≠ "") (hunits : 0 < units) (hcovers : units * umoneyUnitCents ≤ a.balanceCents)
    (before : Option ℤ) :
    Succeeds (prepareEconomyTransfer settings uuid a.playerName .withdraw (units * umoneyUnitCents) units before)
      db fun transfer db' =>
        transfer = economyTransferFromRow db.economyTransfers.nextId
          (withdrawal uuid a.playerName units before) ∧
        db'.economyTransfers = db.economyTransfers.insert (withdrawal uuid a.playerName units before) ∧
        ∀ other, db'.accounts.find? other = if other = uuid then
          some { a with balanceCents := a.balanceCents - units * umoneyUnitCents }
            else db.accounts.find? other := by
  have hcents : 0 < units * umoneyUnitCents := mul_pos hunits (by decide)
  simp only [prepareEconomyTransfer, huuid, hname, or_self, if_false, not_le.mpr hcents, not_le.mpr hunits]
  refine (ensureAccount_succeeds ha huuid).bind fun _ db₁ h => ?_
  obtain ⟨htransfers, haccounts⟩ := h
  have hdebit : Debitable (Db.addTransfer db₁ (withdrawal uuid a.playerName units before)) uuid
      (units * umoneyUnitCents) := ⟨hcents.le, fun _ => ⟨a, (haccounts uuid).trans ha, hcovers⟩⟩
  have hprepare : prepareEconomyTransferTx uuid a.playerName .withdraw (units * umoneyUnitCents) units
      before db₁ = .ok (db₁.economyTransfers.nextId, Db.post
        (Db.addTransfer db₁ (withdrawal uuid a.playerName units before)) uuid (-(units * umoneyUnitCents))
        .umoneyWithdrawReserved (some (.economyTransfer db₁.economyTransfers.nextId))) :=
    bind_ok.mpr ⟨_, select_ok.mpr rfl, bind_ok.mpr ⟨_, execute_ok.mpr rfl, bind_ok.mpr
      ⟨_, debit_ok.mpr ⟨hdebit, rfl⟩, pure_ok.mpr rfl⟩⟩⟩
  refine Succeeds.bind (R := fun id db₂ => id = db.economyTransfers.nextId ∧
    db₂.economyTransfers = db.economyTransfers.insert (withdrawal uuid a.playerName units before) ∧
    ∀ other, db₂.accounts.find? other = if other = uuid then
      some { a with balanceCents := a.balanceCents - units * umoneyUnitCents } else db.accounts.find? other)
    (.atomic hprepare ⟨by rw [htransfers], ?_, fun other => ?_⟩) fun id db₂ h => ?_
  · rw [Db.post_economyTransfers, Db.addTransfer_economyTransfers, htransfers]
  · rw [find?_post, Db.addTransfer_accounts, haccounts]
    split_ifs with h
    · rw [h, ha]
      rfl
    · rfl
  · obtain ⟨rfl, hinserted, hposted⟩ := h
    refine Succeeds.bind (R := fun transfer db₃ => transfer = some (economyTransferFromRow
      db.economyTransfers.nextId (withdrawal uuid a.playerName units before)) ∧ db₂ = db₃)
      (.atomic (select_ok.mpr rfl) ⟨?_, rfl⟩) fun transfer db₃ h => ?_
    · rw [hinserted, Table.get?_insert_self]
      rfl
    · obtain ⟨rfl, rfl⟩ := h
      exact .pure ⟨rfl, hinserted, hposted⟩

/-- What the sweep makes of one account. -/
structure Settles (s : Economy) (uuid : String) (a : AccountRow) (s' : Economy) : Prop where
  passed : Passed s s'
  others : ∀ other, other ≠ uuid → s'.db.accounts.find? other = s.db.accounts.find? other
  own : ∃ a', s'.db.accounts.find? uuid = some a' ∧ a'.balanceCents ≤ a.balanceCents ∧
    ((s.money a.playerName).isSome → a'.balanceCents < umoneyUnitCents)

/-- The state after the sweep has prepared an account's withdrawal. -/
theorem prepared_constrained {db : Db} (hs : Constrained s) (ha : s.db.accounts.find? uuid = some a)
    (hunits : 0 < units) {before : Option ℤ}
    (hinserted : db.economyTransfers = s.db.economyTransfers.insert (withdrawal uuid a.playerName units before))
    (hnames : NamesKept s.db db) : Constrained { s with db } where
  owners id t ht := by
    have howner : ∃ b, s.db.accounts.find? t.playerUuid = some b := by
      rcases Table.get?_insert_cases (hinserted ▸ ht) with ⟨-, rfl⟩ | ⟨-, ht⟩
      · exact ⟨a, ha⟩
      · exact hs.owners id t ht
    obtain ⟨b, hb⟩ := howner
    obtain ⟨c, hc, -⟩ := hnames.symm.of_find hb
    exact ⟨c, hc⟩
  amounts id t ht := by
    rcases Table.get?_insert_cases (hinserted ▸ ht) with ⟨-, rfl⟩ | ⟨-, ht⟩
    · exact mul_pos hunits (by decide)
    · exact hs.amounts id t ht
  players other b hb := by
    obtain ⟨c, hc, -⟩ := hnames.of_find hb
    exact hs.players other c hc
  names := hs.names
  range := hs.range

private theorem settle_succeeds (hs : Constrained s) (ha : s.db.accounts.find? uuid = some a)
    (hpositive : umoneyUnitCents ≤ a.balanceCents) :
    Succeeds (settleAccount settings ⟨uuid, a.playerName, a.balanceCents⟩
      (a.balanceCents / umoneyUnitCents)) s fun _ => Settles s uuid a := by
  refine (balance_succeeds (hs.range a.playerName) (Q := fun c s' => c = s.money a.playerName ∧ s = s')
    ⟨rfl, rfl⟩).bind fun c s' h => ?_
  obtain ⟨rfl, rfl⟩ := h
  cases hm : s.money a.playerName with
  | none => exact .pure ⟨.refl s, fun _ _ => rfl, a, ha, le_rfl, by simp [hm]⟩
  | some current =>
    have hname : a.playerName ≠ "" := fun h => by simp [h, hs.names] at hm
    have hcents : (0 : ℤ) < umoneyUnitCents := by decide
    have hunits : 0 < a.balanceCents / umoneyUnitCents :=
      Int.lt_of_add_one_le ((Int.le_ediv_iff_mul_le hcents).mpr (by simpa using hpositive))
    have hcovers := Int.ediv_mul_le a.balanceCents hcents.ne'
    generalize hu : a.balanceCents / umoneyUnitCents = units at hunits hcovers
    have hleft : a.balanceCents - units * umoneyUnitCents < umoneyUnitCents := by
      have := Int.lt_ediv_add_one_mul_self a.balanceCents hcents
      rw [hu] at this
      linarith
    refine Succeeds.bind (R := fun transfer s₁ => ∃ db, s₁ = { s with db } ∧
      transfer = economyTransferFromRow s.db.economyTransfers.nextId
        (withdrawal uuid a.playerName units (some current)) ∧
      db.economyTransfers = s.db.economyTransfers.insert (withdrawal uuid a.playerName units (some current)) ∧
      ∀ other, db.accounts.find? other = if other = uuid then
        some { a with balanceCents := a.balanceCents - units * umoneyUnitCents } else s.db.accounts.find? other)
      (.zoom ((prepare_succeeds ha (hs.players uuid a ha) hname hunits hcovers (some current)).mono
        fun transfer db h => ⟨db, rfl, h⟩)) fun transfer s₁ h => ?_
    obtain ⟨db, rfl, rfl, hinserted, haccounts⟩ := h
    have hnames : NamesKept s.db db := by
      intro other
      rw [haccounts]
      split_ifs with h
      · rw [h, ha]
        rfl
      · rfl
    have hs₁ := prepared_constrained hs ha hunits hinserted hnames
    have ht : db.economyTransfers.get? s.db.economyTransfers.nextId =
        some (withdrawal uuid a.playerName units (some current)) := by
      rw [hinserted, Table.get?_insert_self]
    have hf : Finishable { s with db } (withdrawal uuid a.playerName units (some current)) :=
      .inr ⟨rfl, .inr (by rw [withdrawal, hm]; rfl)⟩
    refine (process_handles settings hs₁ ht (.inl rfl) fun h => by cases h).bind fun _ s₂ h => .pure ?_
    obtain ⟨hhandles, -⟩ := h
    have hsame : s₂.db.accounts = db.accounts := hhandles.accounts (.inl rfl)
    refine ⟨⟨hnames.trans hhandles.passed.names, hhandles.passed.money, fun id t ht₂ hf₂ => ?_,
      fun _ => hhandles.passed.constrained hs₁⟩, fun other hother => ?_, ?_⟩
    · obtain ⟨t₁, ht₁, hf₁⟩ := hhandles.passed.finishable id t ht₂ hf₂
      rcases Table.get?_insert_cases (hinserted ▸ ht₁) with ⟨rfl, -⟩ | ⟨-, ht₁⟩
      · exact absurd hf₂ (hhandles.finished hf t ht₂)
      · exact ⟨t₁, ht₁, hf₁⟩
    · rw [hsame, haccounts, if_neg hother]
    · refine ⟨_, by rw [hsame, haccounts, if_pos rfl], ?_, fun _ => hleft⟩
      have hpos := mul_pos hunits hcents
      simp only
      linarith

/-- The accounts `rest` of the page are still to come. -/
structure Sweeping (s : Economy) (page rest : List AccountBalance) (s' : Economy) : Prop where
  passed : Passed s s'
  constrained : Constrained s'
  rows : ∀ account ∈ rest, ∃ a, s'.db.accounts.find? account.playerUuid = some a ∧
    account = ⟨account.playerUuid, a.playerName, a.balanceCents⟩ ∧ umoneyUnitCents ≤ a.balanceCents
  nodup : (rest.map (·.playerUuid)).Nodup
  balances : ∀ uuid a', s'.db.accounts.find? uuid = some a' →
    ∃ a, s.db.accounts.find? uuid = some a ∧ a'.balanceCents ≤ a.balanceCents
  settled : ∀ account ∈ page, (s.money account.playerName).isSome → account ∈ rest ∨
    ∀ a, s'.db.accounts.find? account.playerUuid = some a → a.balanceCents < umoneyUnitCents

theorem Sweeping.start {page : List AccountBalance} (hs : Constrained s) (hpage : IsPage s.db page) :
    Sweeping s page page s :=
  ⟨.refl s, hs, hpage.rows, hpage.nodup, fun _ a ha => ⟨a, ha, le_rfl⟩, fun _ h _ => .inl h⟩

theorem Sweeping.next {page rest : List AccountBalance} {account : AccountBalance}
    (h : Sweeping s page (account :: rest) s') :
    Succeeds (settleAccount settings account (account.balanceCents / umoneyUnitCents)) s'
      fun _ => Sweeping s page rest := by
  obtain ⟨a, ha, haccount, hpositive⟩ := h.rows account (List.mem_cons_self ..)
  have hnodup := h.nodup
  rw [List.map_cons, List.nodup_cons] at hnodup
  have hsettle := @settle_succeeds settings _ _ _ h.constrained ha hpositive
  rw [haccount]
  refine hsettle.mono fun _ s'' hp => ?_
  obtain ⟨a', ha', hle, hless⟩ := hp.own
  refine ⟨h.passed.trans hp.passed, hp.passed.constrained h.constrained, fun other hother => ?_, hnodup.2,
    fun uuid b' hb' => ?_, fun other hother hmoney => ?_⟩
  · obtain ⟨b, hb, hrow⟩ := h.rows other (List.mem_cons_of_mem _ hother)
    have hne : other.playerUuid ≠ account.playerUuid := fun he => hnodup.1 (he ▸ List.mem_map_of_mem hother)
    exact ⟨b, (hp.others _ hne).trans hb, hrow⟩
  · by_cases huuid : uuid = account.playerUuid
    · subst huuid
      obtain rfl : b' = a' := Option.some.inj (hb'.symm.trans ha')
      obtain ⟨b, hb, hle'⟩ := h.balances _ a ha
      exact ⟨b, hb, hle.trans hle'⟩
    · rw [hp.others uuid huuid] at hb'
      exact h.balances uuid b' hb'
  · by_cases huuid : other.playerUuid = account.playerUuid
    · refine .inr fun b hb => ?_
      rw [huuid] at hb
      obtain rfl : b = a' := Option.some.inj (hb.symm.trans ha')
      obtain hrest | hdone := h.settled other hother hmoney
      · obtain rfl | hrest := List.mem_cons.mp hrest
        · refine hless ?_
          rw [h.passed.money]
          exact congrArg (fun account : AccountBalance => (s.money account.playerName).isSome) haccount ▸ hmoney
        · exact absurd (List.mem_map_of_mem hrest) (huuid ▸ hnodup.1)
      · exact hle.trans_lt (hdone a (huuid ▸ ha))
    · obtain hrest | hdone := h.settled other hother hmoney
      · obtain rfl | hrest := List.mem_cons.mp hrest
        · exact absurd rfl huuid
        · exact .inl hrest
      · refine .inr fun b hb => hdone b ?_
        rw [← hp.others _ huuid]
        exact hb

private theorem sweep_succeeds {page : Db → List AccountBalance} (hs : Constrained s)
    (hpage : IsPage s.db (page s.db)) :
    Succeeds (sweepDirectBalances settings page) s fun _ => Sweeping s (page s.db) [] := by
  refine (onDb_succeeds (Q := fun accounts s' => accounts = page s.db ∧ s = s')
    (select_ok.mpr rfl) ⟨rfl, rfl⟩).bind fun accounts s' h => ?_
  obtain ⟨rfl, rfl⟩ := h
  refine Succeeds.forEach (R := Sweeping s (page s.db)) (fun account rest s' h => ?_) (.start hs hpage)
  obtain ⟨a, ha, haccount, hpositive⟩ := h.rows account (List.mem_cons_self ..)
  have hcents : (0 : ℤ) < umoneyUnitCents := by decide
  have hunits : 0 < account.balanceCents / umoneyUnitCents := by
    rw [haccount]
    exact Int.lt_of_add_one_le ((Int.le_ediv_iff_mul_le hcents).mpr (by simpa using hpositive))
  dsimp only
  rw [if_neg (not_le.mpr hunits)]
  exact h.next.tryCatch

end Sweep

section Draining
variable {s : Economy} {page : Db → List AccountBalance}

/-- Both halves of a pass. -/
theorem pass_cases (hs : Constrained s) (h : Unhindered page s) :
    Recovering s [] (recovered s) ∧
      Sweeping (recovered s) (page (recovered s).db) [] (pass settings page s) := by
  have hrecovery := recovery_succeeds settings hs h.credits
  have hboth : Succeeds (processEconomyTransfers settings page) s fun _ s' =>
      Recovering s [] (recovered s) ∧ Sweeping (recovered s) (page (recovered s).db) [] s' := by
    refine (hrecovery.tryCatch).bind fun _ s' hr => ?_
    obtain rfl : s' = recovered s := hr.remaining
    exact ((sweep_succeeds hr.constrained h.page).mono fun _ s' hsweep => ⟨hr, hsweep⟩).tryCatch
  obtain ⟨-, hfinal⟩ := hboth.final
  exact hfinal

def waitingTransfers (s : Economy) : Set Id :=
  {id | ∃ t, s.db.economyTransfers.get? id = some t ∧ Finishable s t}

def waitingAccounts (s : Economy) : Set String :=
  {uuid | ∃ a, s.db.accounts.find? uuid = some a ∧ Settleable s a}

theorem waiting_of_page {transfer : EconomyTransfer} (h : transfer ∈ pendingPage s.db)
    (hf : Finishable s transfer.toEconomyTransferRow) : transfer.id ∈ waitingTransfers s := by
  obtain ⟨t, ht, hrow⟩ := (pendingPage_current s.db).1 transfer h
  rw [hrow] at hf
  exact ⟨t, ht, hf⟩

private theorem waitingTransfers_finite (s : Economy) : (waitingTransfers s).Finite := by
  refine (Set.finite_lt_nat s.db.economyTransfers.nextId).subset fun id hid => ?_
  obtain ⟨t, ht, -⟩ := hid
  exact (Table.lt_nextId ht).2

private theorem waitingAccounts_finite (s : Economy) : (waitingAccounts s).Finite := by
  refine (List.finite_toSet (s.db.accounts.rows.map Prod.fst)).subset fun uuid huuid => ?_
  obtain ⟨a, ha, -⟩ := huuid
  exact List.mem_map.mpr ⟨(uuid, a), KeyedTable.find?_eq_some_iff.mp ha, rfl⟩

private theorem drained_of_empty (htransfers : waitingTransfers s = ∅) (haccounts : waitingAccounts s = ∅) :
    Drained s := by
  refine ⟨fun id t ht => ?_, fun uuid a ha hmoney => ?_⟩
  · have hf : ¬ Finishable s t := fun hf => Set.eq_empty_iff_forall_notMem.mp htransfers id ⟨t, ht, hf⟩
    rw [Finishable, not_or, not_and, not_or] at hf
    exact ⟨hf.1, fun hs => Option.not_isSome_iff_eq_none.mp (hf.2 hs).2⟩
  · by_contra hle
    exact Set.eq_empty_iff_forall_notMem.mp haccounts uuid ⟨a, ha, not_lt.mp hle, hmoney⟩

theorem waiting_of_passed {s' : Economy} (h : Passed s s') : waitingTransfers s' ⊆ waitingTransfers s :=
  fun id ⟨t, ht, hf⟩ => h.finishable id t ht hf

theorem Sweeping.waiting_subset {accounts : List AccountBalance} {s' : Economy}
    (h : Sweeping s accounts [] s') : waitingAccounts s' ⊆ waitingAccounts s := by
  rintro uuid ⟨a', ha', hpositive, hmoney⟩
  obtain ⟨a, ha, hle⟩ := h.balances uuid a' ha'
  obtain ⟨b, hb, hname⟩ := h.passed.names.of_find ha'
  obtain rfl : a = b := Option.some.inj (ha.symm.trans hb)
  refine ⟨a, ha, hpositive.trans hle, ?_⟩
  rw [← h.passed.money, hname]
  exact hmoney

/-- What is left to be drained. -/
noncomputable def backlog (s : Economy) : ℕ × ℕ := ((waitingTransfers s).ncard, (waitingAccounts s).ncard)

/-- Where a transfer can be finished, an unclogged pass finishes one. -/
theorem pass_finishes (hs : Constrained s) (h : Unhindered page s) (hpages : Unclogged page s)
    (hwaiting : (waitingTransfers s).Nonempty) :
    (waitingTransfers (pass settings page s)).ncard < (waitingTransfers s).ncard := by
  obtain ⟨hr, hsweep⟩ := @pass_cases settings _ _ hs h
  obtain ⟨transfer, htransfer, hf⟩ := hpages.transfers hwaiting
  have hmem := waiting_of_page htransfer hf
  have hnot : transfer.id ∉ waitingTransfers (pass settings page s) := by
    intro hin
    obtain ⟨t, ht, hft⟩ := waiting_of_passed hsweep.passed hin
    obtain hrest | hdone := hr.finished transfer htransfer hf
    · cases hrest
    · exact hdone t ht hft
  have hsub := (waiting_of_passed hsweep.passed).trans (waiting_of_passed hr.passed)
  exact Set.ncard_lt_ncard ⟨hsub, fun hsuper => hnot (hsuper hmem)⟩ (waitingTransfers_finite s)

/-- Where no transfer can be finished but an account can be settled, an unclogged pass settles one. -/
theorem pass_settles (hs : Constrained s) (h : Unhindered page s) (hpages : Unclogged page s)
    (hdone : waitingTransfers s = ∅) (hwaiting : (waitingAccounts s).Nonempty) :
    waitingTransfers (pass settings page s) = ∅ ∧
      (waitingAccounts (pass settings page s)).ncard < (waitingAccounts s).ncard := by
  obtain ⟨hr, hsweep⟩ := @pass_cases settings _ _ hs h
  have hsub := (waiting_of_passed hsweep.passed).trans (waiting_of_passed hr.passed)
  refine ⟨Set.subset_empty_iff.mp (hdone ▸ hsub), ?_⟩
  have hidle : ∀ transfer ∈ pendingPage s.db, ¬ Finishable s transfer.toEconomyTransferRow :=
    fun transfer htransfer hf => Set.eq_empty_iff_forall_notMem.mp hdone _ (waiting_of_page htransfer hf)
  have hsame : waitingAccounts (recovered s) = waitingAccounts s := by
    ext uuid
    simp only [waitingAccounts, Settleable, Set.mem_ofPred_eq, (hr.idle hidle).1, hr.passed.money]
  have hleft : (waitingAccounts (recovered s)).Nonempty := hsame.symm ▸ hwaiting
  obtain ⟨account, haccount, hmoney⟩ := hpages.accounts hleft
  obtain ⟨a, ha, hrow, hpositive⟩ := h.page.rows account haccount
  have hmem : account.playerUuid ∈ waitingAccounts (recovered s) :=
    ⟨a, ha, hpositive, congrArg (fun account : AccountBalance =>
      ((recovered s).money account.playerName).isSome) hrow ▸ hmoney⟩
  have hnot : account.playerUuid ∉ waitingAccounts (pass settings page s) := by
    rintro ⟨b, hb, hle, -⟩
    obtain hrest | hsettled := hsweep.settled account haccount hmoney
    · cases hrest
    · exact absurd hle (not_le.mpr (hsettled b hb))
  rw [← hsame]
  exact Set.ncard_lt_ncard ⟨hsweep.waiting_subset, fun hsuper => hnot (hsuper hmem)⟩
    (waitingAccounts_finite _)

/-- As long as something is left to be drained, an unclogged pass drains part of it. -/
theorem pass_progress (hs : Constrained s) (h : Unhindered page s) (hpages : Unclogged page s)
    (hleft : ¬ Drained s) : Prod.Lex (· < ·) (· < ·) (backlog (pass settings page s)) (backlog s) := by
  rcases (waitingTransfers s).eq_empty_or_nonempty with hdone | hwaiting
  · have haccounts : (waitingAccounts s).Nonempty :=
      Set.nonempty_iff_ne_empty.mpr fun hempty => hleft (drained_of_empty hdone hempty)
    obtain ⟨hempty, hlt⟩ := @pass_settles settings _ _ hs h hpages hdone haccounts
    rw [Prod.lex_iff]
    exact .inr ⟨by simp only [backlog, hempty, hdone], hlt⟩
  · exact Prod.Lex.left _ _ (pass_finishes hs h hpages hwaiting)

private theorem passes_constrained {page : ℕ → Db → List AccountBalance} (hs : Constrained s)
    (hcalls : ∀ n, Unhindered (page n) (passes settings page n s)) (n : ℕ) :
    Constrained (passes settings page n s) := by
  induction n with
  | zero => exact hs
  | succ n ih => exact (pass_cases ih (hcalls n)).2.constrained

/-- Passes drain all that can be drained, as long as each has something to work on among the first 100. -/
theorem passes_drain {page : ℕ → Db → List AccountBalance} (hs : Constrained s)
    (hcalls : ∀ n, Unhindered (page n) (passes settings page n s))
    (hpages : ∀ n, Unclogged (page n) (passes settings page n s)) :
    ∃ n, Drained (passes settings page n s) := by
  by_contra hleft
  rw [not_exists] at hleft
  obtain ⟨n, hn⟩ := WellFounded.not_rel_apply_succ
    (r := Prod.Lex (· < · : ℕ → ℕ → Prop) (· < · : ℕ → ℕ → Prop))
    fun n => backlog (passes settings page n s)
  exact hn (pass_progress (passes_constrained hs hcalls n) (hcalls n) (hpages n) (hleft n))

end Draining

section Clogging
variable {s s₀ : Economy}

/-- Nothing on the page of pending transfers can be finished. -/
def Stuck (s : Economy) : Prop :=
  ∀ transfer ∈ pendingPage s.db, ¬ Finishable s transfer.toEconomyTransferRow

private theorem pendingPage_outlook (db : Db) :
    (pendingPage db).map (fun t => (t.status, t.externalBalanceBeforeUnits, t.playerName)) =
      ((outlook db).filter fun e => e.1 = .prepared ∨ e.1 = .externalApplied).take 100 := by
  have hrows : db.economyTransfers.rows = db.economyTransfers.entries.map Prod.snd := by
    rw [Table.entries, List.map_map]
    exact (List.zipIdx_map_fst 1 _).symm
  rw [outlook, hrows, List.map_map, List.filter_map, ← List.map_take, pendingPage, List.map_map]
  rfl

/-- Whether a page is stuck shows in what recovery looks at. -/
theorem stuck_iff : Stuck s ↔
    ∀ e ∈ ((outlook s.db).filter fun e => e.1 = .prepared ∨ e.1 = .externalApplied).take 100,
      ¬ (e.1 = .externalApplied ∨ e.1 = .prepared ∧ (e.2.1 = none ∨ (s.money e.2.2).isSome)) := by
  rw [← pendingPage_outlook, List.forall_mem_map]
  rfl

private theorem not_completes {t : EconomyTransferRow} (h : ¬ Finishable s t) : ¬ Completes s t := by
  rintro (happlied | ⟨hprepared, before, current, -, hm, -⟩)
  · exact h (.inl happlied)
  · exact h (.inr ⟨hprepared, .inr (by simp [hm])⟩)

private theorem creditsFit_stuck (settings : Settings) {rest : List EconomyTransfer}
    (hcurrent : ∀ transfer ∈ rest, Current transfer s.db) (hnodup : (rest.map (·.id)).Nodup)
    (hstuck : ∀ transfer ∈ rest, ¬ Finishable s transfer.toEconomyTransferRow) : CreditsFit rest s := by
  induction rest generalizing s with
  | nil => trivial
  | cons transfer rest ih =>
    rw [List.map_cons, List.nodup_cons] at hnodup
    obtain ⟨t, ht, htransfer⟩ := hcurrent transfer (List.mem_cons_self ..)
    refine ⟨fun _ hc => absurd hc (not_completes (hstuck transfer (List.mem_cons_self ..))), ?_⟩
    generalize transfer.id = id at ht htransfer hnodup
    subst htransfer
    have hleaves := process_leaves settings ht false []
    refine ih (fun other hother => ?_) hnodup.2 fun other hother hf => ?_
    · have hne : other.id ≠ id := fun he => hnodup.1 (he ▸ List.mem_map_of_mem hother)
      exact hleaves.current hne (hcurrent other (List.mem_cons_of_mem _ hother))
    · refine hstuck other (List.mem_cons_of_mem _ hother) ?_
      rw [Finishable, ← money_leaves hleaves]
      exact hf

/-- No transfer can be finished. -/
def Spent (s : Economy) : Prop := ∀ id t, s.db.economyTransfers.get? id = some t → ¬ Finishable s t

theorem Spent.stuck (h : Spent s) : Stuck s := by
  intro transfer htransfer
  obtain ⟨t, ht, hrow⟩ := (pendingPage_current s.db).1 transfer htransfer
  rw [hrow]
  exact h transfer.id t ht

/-- What passes on a stuck page leave as it was. -/
structure Clogged (s₀ s : Economy) : Prop where
  constrained : Constrained s
  looks : outlook s.db = outlook s₀.db
  accounts : s.db.accounts = s₀.db.accounts
  money : ∀ name, (s.money name).isSome = (s₀.money name).isSome

theorem Clogged.stuck (h : Clogged s₀ s) (hstuck : Stuck s₀) : Stuck s := by
  rw [stuck_iff, h.looks]
  simp only [h.money]
  exact stuck_iff.mp hstuck

theorem Clogged.spent (h : Clogged s₀ s) (hspent : Spent s₀) : Spent s := by
  intro id t ht hf
  have hmem : (t.status, t.externalBalanceBeforeUnits, t.playerName) ∈ outlook s.db :=
    List.mem_map_of_mem (Table.mem_rows_iff.mpr ⟨id, ht⟩)
  rw [h.looks] at hmem
  obtain ⟨u, hu, hlook⟩ := List.mem_map.mp hmem
  obtain ⟨j, hj⟩ := Table.mem_rows_iff.mp hu
  simp only [Prod.mk.injEq] at hlook
  obtain ⟨hstatus, hbefore, hname⟩ := hlook
  refine hspent j u hj ?_
  rwa [Finishable, hstatus, hbefore, hname, ← h.money]

/-- No account holds a whole UMoney unit. -/
def Swept (db : Db) : Prop := ∀ uuid a, db.accounts.find? uuid = some a → a.balanceCents < umoneyUnitCents

theorem positiveBalances_isPage (db : Db) : IsPage db (positiveBalances db) := by
  have hmem : ∀ e, e ∈ db.accounts.rows.filter (fun e => umoneyUnitCents ≤ e.2.balanceCents) ↔
      db.accounts.find? e.1 = some e.2 ∧ umoneyUnitCents ≤ e.2.balanceCents := by
    intro e
    rw [List.mem_filter, decide_eq_true_iff, KeyedTable.find?_eq_some_iff]
  have huuids : (positiveBalances db).map (·.playerUuid) =
      ((db.accounts.rows.filter fun e => umoneyUnitCents ≤ e.2.balanceCents).take 100).map Prod.fst := by
    rw [positiveBalances, List.map_map]
    rfl
  refine ⟨fun account haccount => ?_, ?_, ?_, fun hshort uuid a ha hle => ?_⟩
  · obtain ⟨e, he, rfl⟩ := List.mem_map.mp haccount
    obtain ⟨hrow, hle⟩ := (hmem e).mp (List.mem_of_mem_take he)
    exact ⟨e.2, hrow, rfl, hle⟩
  · rw [huuids]
    exact ((List.take_sublist 100 _).trans List.filter_sublist).map Prod.fst |>.nodup db.accounts.nodup
  · rw [positiveBalances, List.length_map]
    exact List.length_take_le 100 _
  · rw [positiveBalances, List.length_map, List.length_take, min_lt_iff] at hshort
    rw [huuids, List.take_of_length_le (by omega)]
    exact List.mem_map_of_mem ((hmem (uuid, a)).mpr ⟨ha, hle⟩)

theorem Swept.positiveBalances_eq {db : Db} (h : Swept db) : positiveBalances db = [] := by
  rw [positiveBalances, List.filter_eq_nil_iff.mpr, List.take_nil, List.map_nil]
  intro e he hle
  exact absurd (of_decide_eq_true hle) (not_le.mpr (h e.1 e.2 (KeyedTable.find?_eq_some_iff.mpr he)))

private theorem sweep_idle (settings : Settings) (h : Swept s.db) :
    Succeeds (sweepDirectBalances settings positiveBalances) s fun _ s' => s' = s := by
  refine (onDb_succeeds (Q := fun accounts s' => accounts = positiveBalances s.db ∧ s' = s)
    (select_ok.mpr rfl) ⟨rfl, rfl⟩).bind fun accounts s' haccounts => ?_
  obtain ⟨rfl, rfl⟩ := haccounts
  rw [h.positiveBalances_eq]
  exact .pure rfl

theorem pass_clogged (settings : Settings) (h : Clogged s₀ s) (hstuck : Stuck s₀) (hswept : Swept s₀.db) :
    Unhindered positiveBalances s ∧ Clogged s₀ (recovered s) ∧
      pass settings positiveBalances s = recovered s := by
  have hs := h.stuck hstuck
  obtain ⟨hcurrent, hnodup⟩ := pendingPage_current s.db
  have hcredits := creditsFit_stuck settings hcurrent hnodup hs
  have hrecovery := recovery_succeeds settings h.constrained hcredits
  have hpass : Succeeds (processEconomyTransfers settings positiveBalances) s fun _ s' =>
      Clogged s₀ s' ∧ s' = recovered s := by
    refine (hrecovery.tryCatch).bind fun _ s' hr => ?_
    obtain ⟨haccounts, houtlook⟩ := hr.idle hs
    have hclogged : Clogged s₀ s' := ⟨hr.constrained, houtlook.trans h.looks, haccounts.trans h.accounts,
      fun name => (hr.passed.money name).trans (h.money name)⟩
    have hleft : Swept s'.db := by
      rw [Swept, hclogged.accounts]
      exact hswept
    exact ((sweep_idle settings hleft).mono fun _ s'' he => ⟨he ▸ hclogged, he.trans hr.remaining⟩).tryCatch
  obtain ⟨-, hclogged, hsame⟩ := hpass.final
  exact ⟨⟨hcredits, positiveBalances_isPage _⟩, hsame ▸ hclogged, hsame⟩

theorem passes_clogged (settings : Settings) (hstuck : Stuck s₀) (hswept : Swept s₀.db) {k : ℕ}
    (h : Clogged s₀ (passes settings (fun _ => positiveBalances) k s)) (n : ℕ) :
    Clogged s₀ (passes settings (fun _ => positiveBalances) (k + n) s) := by
  induction n with
  | zero => exact h
  | succ n ih =>
    obtain ⟨-, hclogged, hsame⟩ := pass_clogged settings ih hstuck hswept
    rw [← Nat.add_assoc, passes, hsame]
    exact hclogged

theorem Clogged.refl (hs : Constrained s) : Clogged s s := ⟨hs, rfl, rfl, fun _ => rfl⟩

theorem Clogged.drained (h : Clogged s₀ s) (hd : Drained s) : Drained s₀ := by
  refine ⟨fun id t ht => ?_, fun uuid a ha hmoney => ?_⟩
  · have hmem : (t.status, t.externalBalanceBeforeUnits, t.playerName) ∈ outlook s₀.db :=
      List.mem_map_of_mem (Table.mem_rows_iff.mpr ⟨id, ht⟩)
    rw [← h.looks] at hmem
    obtain ⟨u, hu, hlook⟩ := List.mem_map.mp hmem
    obtain ⟨j, hj⟩ := Table.mem_rows_iff.mp hu
    simp only [Prod.mk.injEq] at hlook
    obtain ⟨hstatus, -, hname⟩ := hlook
    obtain ⟨happlied, hprepared⟩ := hd.transfers j u hj
    rw [← hstatus, ← hname]
    refine ⟨happlied, fun hs => ?_⟩
    have hnone := h.money u.playerName
    rw [hprepared hs] at hnone
    exact Option.not_isSome_iff_eq_none.mp (by rw [← hnone]; simp)
  · rw [← h.accounts] at ha
    rw [← h.money] at hmoney
    exact hd.accounts uuid a ha hmoney

/-- Behind a page that is stuck everything waits forever. -/
theorem clogged_never_drains (settings : Settings) (hs : Constrained s) (hstuck : Stuck s) (hswept : Swept s.db)
    (hleft : ¬ Drained s) (n : ℕ) :
    Unhindered positiveBalances (passes settings (fun _ => positiveBalances) n s) ∧
      ¬ Drained (passes settings (fun _ => positiveBalances) n s) := by
  have hclogged := passes_clogged settings hstuck hswept (k := 0) (.refl hs) n
  rw [Nat.zero_add] at hclogged
  exact ⟨(pass_clogged settings hclogged hstuck hswept).1, fun hd => hleft (hclogged.drained hd)⟩

end Clogging

section Sample
variable {s : Economy}

theorem constrained_of_rows (hrows : ∀ t ∈ s.db.economyTransfers.rows,
      (s.db.accounts.find? t.playerUuid).isSome ∧ 0 < t.amountCents)
    (hplayers : ∀ e ∈ s.db.accounts.rows, e.1 ≠ "") (hnames : s.money "" = none)
    (hrange : ∀ name units, s.money name = some units → minCents ≤ units ∧ units ≤ maxCents) :
    Constrained s where
  owners id t ht := Option.isSome_iff_exists.mp (hrows t (Table.mem_rows_iff.mpr ⟨id, ht⟩)).1
  amounts id t ht := (hrows t (Table.mem_rows_iff.mpr ⟨id, ht⟩)).2
  players _ _ ha := hplayers _ (KeyedTable.find?_eq_some_iff.mp ha)
  names := hnames
  range := hrange

theorem Swept.of_rows {db : Db} (h : ∀ e ∈ db.accounts.rows, e.2.balanceCents < umoneyUnitCents) : Swept db :=
  fun _ _ ha => h _ (KeyedTable.find?_eq_some_iff.mp ha)

theorem Swept.not_settleable (h : Swept s.db) :
    ¬ ∃ uuid a, s.db.accounts.find? uuid = some a ∧ Settleable s a := by
  rintro ⟨uuid, a, ha, hle, -⟩
  exact absurd hle (not_le.mpr (h uuid a ha))

/-- The credits of a page, one after the other. -/
def creditsFit : List EconomyTransfer → Economy → Bool
  | [], _ => true
  | transfer :: transfers, s =>
    (s.db.accounts.find? transfer.playerUuid).all (fun a => a.balanceCents + transfer.amountCents ≤ maxCents) &&
      creditsFit transfers (processed s transfer)

private theorem creditsFit_of_all {rest : List EconomyTransfer} (h : creditsFit rest s = true) : CreditsFit rest s := by
  induction rest generalizing s with
  | nil => trivial
  | cons transfer rest ih =>
    obtain ⟨hfits, hrest⟩ := Bool.and_eq_true_iff.mp h
    refine ⟨fun _ _ a ha => ?_, ih hrest⟩
    rw [ha] at hfits
    exact of_decide_eq_true hfits

/-- `alice` lost her UMoney account after her deposit was prepared, the change of `bob`'s has not been
made, `carol`'s has, and `dave` holds five units. -/
def backlogEconomy : Economy where
  db := afterCalls umoneySettings [.addBalance "dave" "dave" 500,
    .prepareEconomyTransfer "alice" "alice" .deposit 500 5 (some 1000),
    .prepareEconomyTransfer "bob" "bob" .deposit 300 3 (some 50),
    .prepareEconomyTransfer "carol" "carol" .deposit 200 2 (some 20), .markEconomyTransferExternalApplied 3 18]
  money name := if name = "bob" then some 50 else if name = "carol" then some 18
    else if name = "dave" then some 7 else none

/-- The deposits of `bob` and `carol` are completed and swept with `dave`'s balance. -/
def backlogPass : Economy := pass umoneySettings positiveBalances backlogEconomy

theorem backlog_constrained : Constrained backlogEconomy := by
  refine constrained_of_rows (by decide +kernel) (by decide +kernel) rfl fun name units h => ?_
  simp only [backlogEconomy] at h
  split_ifs at h <;> obtain rfl := Option.some.inj h <;> decide

theorem backlog_first : Unhindered positiveBalances backlogEconomy ∧ Unclogged positiveBalances backlogEconomy := by
  have happlied : ∃ transfer ∈ pendingPage backlogEconomy.db, transfer.status = .externalApplied := by
    decide +kernel
  obtain ⟨transfer, htransfer, hs⟩ := happlied
  have hswept : ∃ account ∈ positiveBalances (recovered backlogEconomy).db,
      ((recovered backlogEconomy).money account.playerName).isSome := by decide +kernel
  exact ⟨⟨creditsFit_of_all (by decide +kernel), positiveBalances_isPage _⟩,
    fun _ => ⟨transfer, htransfer, .inl hs⟩, fun _ => hswept⟩

/-- Of the transfers `alice`'s deposit is all that is left. -/
theorem backlogPass_spent : Spent backlogPass := by
  have hrows : ∀ t ∈ backlogPass.db.economyTransfers.rows, t.status ≠ .externalApplied ∧
      (t.status = .prepared → t.externalBalanceBeforeUnits ≠ none ∧ (backlogPass.money t.playerName).isSome = false) := by
    decide +kernel
  rintro id t ht (happlied | ⟨hprepared, hnone | hmoney⟩)
  · exact (hrows t (Table.mem_rows_iff.mpr ⟨id, ht⟩)).1 happlied
  · exact ((hrows t (Table.mem_rows_iff.mpr ⟨id, ht⟩)).2 hprepared).1 hnone
  · rw [((hrows t (Table.mem_rows_iff.mpr ⟨id, ht⟩)).2 hprepared).2] at hmoney
    cases hmoney

theorem backlogPass_swept : Swept backlogPass.db := .of_rows (by decide +kernel)

theorem backlog_later (n : ℕ) :
    Clogged backlogPass (passes umoneySettings (fun _ => positiveBalances) (n + 1) backlogEconomy) := by
  have hconstrained : Constrained backlogPass :=
    (pass_cases backlog_constrained backlog_first.1).2.constrained
  rw [Nat.add_comm]
  exact passes_clogged umoneySettings backlogPass_spent.stuck backlogPass_swept (k := 1) (.refl hconstrained) n

theorem backlog_unclogged (n : ℕ) :
    Unhindered positiveBalances (passes umoneySettings (fun _ => positiveBalances) n backlogEconomy) ∧
      Unclogged positiveBalances (passes umoneySettings (fun _ => positiveBalances) n backlogEconomy) := by
  cases n with
  | zero => exact backlog_first
  | succ n =>
    obtain ⟨hcalls, hclogged, -⟩ :=
      pass_clogged umoneySettings (backlog_later n) backlogPass_spent.stuck backlogPass_swept
    have hspent := (backlog_later n).spent backlogPass_spent
    have hswept : Swept (recovered (passes umoneySettings (fun _ => positiveBalances) (n + 1) backlogEconomy)).db := by
      rw [Swept, hclogged.accounts]
      exact backlogPass_swept
    exact ⟨hcalls, fun ⟨id, t, ht, hf⟩ => absurd hf (hspent id t ht), fun h => absurd h hswept.not_settleable⟩

/-- The passes finish the other transfers and sweep the accounts. -/
theorem passes_drain_backlog :
    ∃ n, Drained (passes umoneySettings (fun _ => positiveBalances) n backlogEconomy) :=
  passes_drain backlog_constrained (fun n => (backlog_unclogged n).1) fun n => (backlog_unclogged n).2

/-- A hundred deposits of `alice` were prepared and not made before she lost her UMoney account. One of
`bob` was made and not yet completed. -/
def cloggedCalls : List Call :=
  List.replicate 100 (.prepareEconomyTransfer "alice" "alice" .deposit 500 5 (some 1000)) ++
    [.prepareEconomyTransfer "bob" "bob" .deposit 500 5 (some 1000), .markEconomyTransferExternalApplied 101 995]

def cloggedEconomy : Economy where
  db := afterCalls umoneySettings cloggedCalls
  money name := if name = "bob" then some 995 else none

theorem cloggedEconomy_outlook : outlook cloggedEconomy.db =
    List.replicate 100 (.prepared, some 1000, "alice") ++ [(.externalApplied, some 1000, "bob")] := by
  decide +kernel

theorem cloggedEconomy_constrained : Constrained cloggedEconomy := by
  refine constrained_of_rows (by decide +kernel) (by decide +kernel) rfl fun name units h => ?_
  simp only [cloggedEconomy] at h
  split_ifs at h
  obtain rfl := Option.some.inj h
  decide

private theorem cloggedEconomy_stuck : Stuck cloggedEconomy := by
  rw [stuck_iff, cloggedEconomy_outlook]
  decide +kernel

private theorem cloggedEconomy_swept : Swept cloggedEconomy.db := .of_rows (by decide +kernel)

private theorem cloggedEconomy_left : ¬ Drained cloggedEconomy := by
  intro hd
  have hmem : (.externalApplied, some 1000, "bob") ∈ outlook cloggedEconomy.db := by
    rw [cloggedEconomy_outlook]
    exact List.mem_append_right _ (List.mem_singleton_self _)
  obtain ⟨t, ht, hlook⟩ := List.mem_map.mp hmem
  obtain ⟨id, hid⟩ := Table.mem_rows_iff.mp ht
  exact (hd.transfers id t hid).1 (Prod.mk.inj hlook).1

private theorem cloggedEconomy_db : cloggedEconomy.db = afterCalls umoneySettings cloggedCalls := by
  rw [cloggedEconomy]

private theorem cloggedEconomy_reachable : Reachable umoneySettings cloggedEconomy.db :=
  cloggedEconomy_db ▸ reachable_afterCalls umoneySettings cloggedCalls

/-- `bob`'s deposit stays EXTERNAL_APPLIED, however many passes there are. -/
theorem passes_drain_clogged : Reachable umoneySettings cloggedEconomy.db ∧ Constrained cloggedEconomy ∧
    ∀ n, Unhindered positiveBalances (passes umoneySettings (fun _ => positiveBalances) n cloggedEconomy) ∧
      ¬ Drained (passes umoneySettings (fun _ => positiveBalances) n cloggedEconomy) :=
  ⟨cloggedEconomy_reachable, cloggedEconomy_constrained, clogged_never_drains umoneySettings
    cloggedEconomy_constrained cloggedEconomy_stuck cloggedEconomy_swept cloggedEconomy_left⟩

end Sample
end EndstoneExchange.RecoveryDrain
