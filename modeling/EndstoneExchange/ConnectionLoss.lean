import EndstoneExchange.DatabaseConnections
import Mathlib.Data.List.Basic

/-!
# A lost connection never splits a transaction

Inside a block the flag keeps every call from reconnecting, so its statements all
run in one session's transaction, and what that session commits is the whole block.
-/
namespace EndstoneExchange.ConnectionLoss
open DurablePrograms DatabaseConnections

variable {σ ρ α : Type} {P C : Link σ → Prop} {E : DatabaseError → Link σ → Prop}

section Calls

theorem ensureConnected_triple {Q : Link σ → Prop} (hQ : ∀ s, P s → Q s)
    (hE : ∀ s, P s → s.handle = .null → E .notConnected s) :
    Triple P ensureConnected (fun _ => Q) E C := by
  intro fs s hs
  unfold ensureConnected
  cases hh : s.handle with
  | null => exact hE s hs hh
  | lost => exact hQ s hs
  | live work => exact hQ s hs

theorem setReconnecting_triple {reconnecting : Bool} {Q : Link σ → Prop}
    (h : ∀ s, P s → Q { s with reconnecting }) :
    Triple P (setReconnecting reconnecting) (fun _ => Q) E C := fun _ s hs => h s hs

theorem setInTransaction_triple {inTransaction : Bool} {Q : Link σ → Prop}
    (h : ∀ s, P s → Q { s with inTransaction }) :
    Triple P (setInTransaction inTransaction) (fun _ => Q) E C := fun _ s hs => h s hs

theorem refuseInTransaction_triple {error : DatabaseError} (h : ∀ s, P s → s.inTransaction = false) :
    Triple P (refuseInTransaction error) (fun _ => P) E C := by
  intro fs s hs
  simp only [refuseInTransaction, h s hs]
  exact hs

theorem mayReconnect_triple {error : MySqlError} :
    Triple P (mayReconnect error) (fun retry s => P s ∧
      retry = (!s.inTransaction && !s.reconnecting && error.isDisconnectError)) E C :=
  fun _ _ hs => ⟨hs, rfl⟩

private theorem serve_error {work : Option σ} {s : Link σ} {sql : Sql σ ρ} {error : MySqlError}
    (h : (serve work s sql).1 = .error error) :
    (serve work s sql).2 = s ∧ error.isDisconnectError = false := by
  cases sql with
  | statement run =>
    simp only [serve] at h ⊢
    cases hr : run (work.getD s.committed) with
    | error what =>
      simp only [hr] at h ⊢
      cases h
      exact ⟨trivial, rfl⟩
    | ok r =>
      simp only [hr] at h
      cases work <;> cases h
  | startTransaction => cases h
  | commit => cases h
  | setup => cases h

theorem mysqlRealQuery_triple {sql : Sql σ ρ} {A : Except MySqlError (Option ρ) → Link σ → Prop}
    (hserve : ∀ s work, P s → s.handle = .live work →
      A (serve work s sql).1 (serve work s sql).2 ∧
      A (.error .disconnected) (lose (serve work s sql).2) ∧ A (.error .disconnected) (lose s))
    (hdead : ∀ s, P s → (∀ work, s.handle ≠ .live work) → A (.error .disconnected) s)
    (hC : ∀ s, P s → C s) : Triple P (mysqlRealQuery sql) A E C := by
  refine Triple.call hC ?_ ?_
  · intro fault s a hs ha
    cases hh : s.handle with
    | null =>
      simp only [hh] at ha ⊢
      cases ha
      exact hdead s hs (by simp [hh])
    | lost =>
      simp only [hh] at ha ⊢
      cases ha
      exact hdead s hs (by simp [hh])
    | live work =>
      obtain ⟨hdone, hafter, hbefore⟩ := hserve s work hs hh
      cases fault <;> simp only [hh] at ha ⊢ <;> cases ha
      · exact hdone
      · exact hbefore
      · exact hafter
      · exact hbefore
  · intro fault s e hs he
    cases hh : s.handle <;> cases fault <;> simp [hh] at he

theorem roundTrip_triple {Q : Bool → Link σ → Prop}
    (hlive : ∀ s work, P s → s.handle = .live work → Q true s ∧ Q false (lose s))
    (hdead : ∀ s, P s → (∀ work, s.handle ≠ .live work) → Q false s) (hC : ∀ s, P s → C s) :
    Triple P roundTrip Q E C := by
  refine Triple.call hC ?_ ?_
  · intro fault s a hs ha
    cases hh : s.handle with
    | null =>
      simp only [hh] at ha ⊢
      cases ha
      exact hdead s hs (by simp [hh])
    | lost =>
      simp only [hh] at ha ⊢
      cases ha
      exact hdead s hs (by simp [hh])
    | live work =>
      obtain ⟨halive, hlost⟩ := hlive s work hs hh
      cases fault <;> simp only [hh] at ha ⊢ <;> cases ha
      · exact halive
      · exact hlost
      · exact hlost
      · exact hlost
  · intro fault s e hs he
    cases hh : s.handle <;> cases fault <;> simp [hh] at he

/-- A statement that may not reconnect, inside a transaction or a connection attempt. -/
theorem submit_once {connect : Client σ PUnit} {sql : Sql σ ρ} {Q : Option ρ → Link σ → Prop}
    {A : Except MySqlError (Option ρ) → Link σ → Prop} (hnull : ∀ s, P s → s.handle = .null → E .notConnected s)
    (hquery : Triple P (mysqlRealQuery sql) A E C)
    (hflag : ∀ error s, A (.error error) s → s.inTransaction = true ∨ s.reconnecting = true)
    (hok : ∀ rows s, A (.ok rows) s → Q rows s)
    (herr : ∀ error s, A (.error error) s → E (.statementFailed "") s) :
    Triple P (submit connect sql) Q E C := by
  refine Triple.bind (ensureConnected_triple (fun _ h => h) hnull) fun _ => ?_
  refine Triple.bind hquery fun answer => ?_
  cases answer with
  | ok rows => exact Triple.pure (hok rows)
  | error error =>
    refine Triple.bind mayReconnect_triple fun retry => ?_
    cases retry with
    | true =>
      refine Triple.of_forall fun s hs => ?_
      obtain ⟨hA, hretry⟩ := hs
      rcases hflag error s hA with h | h <;> simp [h] at hretry
    | false => exact Triple.throw fun s hs => herr error s hs.1

end Calls

section Reconnecting

/-- A fact about idle links that no connection attempt can disturb. -/
structure Stable (K : Link σ → Prop) : Prop where
  idle : ∀ s, K s → s.inTransaction = false
  quiet : ∀ s work, K s → s.handle = .live work → work = none
  flag : ∀ s reconnecting, K s → K { s with reconnecting }
  null : ∀ s, K s → K { s with handle := .null }
  lost : ∀ s, K s → K { s with handle := .lost }
  opened : ∀ s, K s → K { s with handle := .live none, session := s.session + 1 }

variable {K : Link σ → Prop}

/-- The state during a connection attempt. -/
def Attempting (K : Link σ → Prop) (s : Link σ) : Prop := K s ∧ s.reconnecting = true

def Ready (K : Link σ → Prop) (s : Link σ) : Prop := K s ∧ s.reconnecting = false

theorem Stable.unflagged (hK : Stable K) {s : Link σ} (hs : K s) {handle : Handle σ} {session : ℕ} :
    { s with handle, session, inTransaction := false } = { s with handle, session } := by
  have hidle := hK.idle s hs
  cases s
  simp_all

theorem setup_keeps (hK : Stable K) {connect : Client σ PUnit} :
    Keeps (Attempting K) (submit connect (.setup : Sql σ PUnit)) := by
  refine submit_once (A := fun _ => Attempting K) (fun _ hs _ => hs) ?_
    (fun _ s hs => .inr hs.2) (fun _ _ hs => hs) (fun _ _ hs => hs)
  refine mysqlRealQuery_triple (fun s work hs _ => ⟨hs, ?_, ?_⟩) (fun _ hs _ => hs) fun _ hs => hs
  · exact ⟨hK.lost s hs.1, hs.2⟩
  · exact ⟨hK.lost s hs.1, hs.2⟩

private theorem connectAgain_keeps (hK : Stable K) : Keeps (Attempting K) (connectAgain (σ := σ)) := by
  refine Keeps.bind (refuseInTransaction_triple fun s hs => hK.idle s hs.1) fun _ => ?_
  refine Keeps.bind (Triple.call (fun _ hs => hs) ?_ ?_) fun _ => ?_
  · intro fault s a hs ha
    cases fault <;> cases ha
    exact ⟨hK.lost s hs.1, hs.2⟩
  · intro fault s e hs he
    cases fault <;> cases he <;> exact ⟨hK.null s hs.1, hs.2⟩
  refine Keeps.bind (Triple.call (fun _ hs => hs) ?_ ?_) fun _ => ?_
  · intro fault s a hs ha
    cases fault <;> cases ha
    refine ⟨?_, hs.2⟩
    simp only [hK.unflagged hs.1]
    exact hK.opened s hs.1
  · intro fault s e hs he
    have hlost : Attempting K { s with handle := .lost, inTransaction := false } := by
      refine ⟨?_, hs.2⟩
      rw [@Stable.unflagged _ _ hK _ hs.1 _ s.session]
      exact hK.lost s hs.1
    cases fault <;> cases he <;> exact hlost
  refine Keeps.bind (setup_keeps hK) fun _ => ?_
  refine Keeps.bind (roundTrip_triple (fun s _ hs _ => ⟨hs, hK.lost s hs.1, hs.2⟩)
    (fun _ hs _ => hs) fun _ hs => hs) fun selected => ?_
  refine Keeps.guard fun _ => ?_
  exact Keeps.bind (setup_keeps hK) fun _ => Keeps.bind (setup_keeps hK) fun _ => Keeps.pure

theorem reconnect_ready (hK : Stable K) :
    Triple (Ready K) (reconnect connectAgain) (fun _ => Ready K) (fun _ => Ready K) K := by
  refine Triple.bind (setReconnecting_triple (Q := Attempting K)
    fun s hs => ⟨hK.flag s true hs.1, rfl⟩) fun _ => ?_
  refine (@Triple.tryCatch _ _ _ _ _ _ _ _ (fun _ => Attempting K)) ?_ fun error => ?_
  · refine Triple.bind (R := fun _ => Attempting K) ?_ fun _ => ?_
    · exact Triple.conseq (connectAgain_keeps hK) (fun _ h => h) (fun _ _ h => h) (fun _ _ h => h)
        fun _ h => h.1
    · exact setReconnecting_triple fun s hs => ⟨hK.flag s false hs.1, rfl⟩
  · refine Triple.bind (R := fun _ => Ready K) ?_ fun _ => Triple.throw fun _ h => h
    exact setReconnecting_triple fun s hs => ⟨hK.flag s false hs.1, rfl⟩

/-- A statement on an idle link is retried once on a fresh session. -/
theorem submit_ready (hK : Stable K) {sql : Sql σ ρ} {Q : Option ρ → Link σ → Prop}
    (hok : ∀ s rows, Ready K s → s.handle = .live none → (serve none s sql).1 = .ok rows →
      Q rows (serve none s sql).2)
    (hlost : ∀ s, Ready K s → s.handle = .live none → Ready K (lose (serve none s sql).2)) :
    Triple (Ready K) (submit connectAgain sql) Q (fun _ => Ready K) K := by
  have hquery : Triple (Ready K) (mysqlRealQuery sql)
      (fun answer s => match answer with | .error _ => Ready K s | .ok rows => Q rows s)
      (fun _ => Ready K) K := by
    refine mysqlRealQuery_triple (fun s work hs hh => ?_) (fun _ hs _ => hs) fun _ hs => hs.1
    obtain rfl := hK.quiet s work hs.1 hh
    refine ⟨?_, hlost s hs hh, hK.lost s hs.1, hs.2⟩
    cases hanswer : (serve none s sql).1 with
    | ok rows => exact hok s rows hs hh hanswer
    | error error =>
      rw [(serve_error hanswer).1]
      exact hs
  refine Triple.bind (ensureConnected_triple (fun _ h => h) fun _ hs _ => hs) fun _ => ?_
  refine Triple.bind hquery fun answer => ?_
  cases answer with
  | ok rows => exact Triple.pure fun _ h => h
  | error error =>
    refine Triple.bind mayReconnect_triple fun retry => ?_
    cases retry with
    | false => exact Triple.throw fun s hs => hs.1
    | true =>
      refine Triple.bind (R := fun _ => Ready K) ?_ fun _ => Triple.bind hquery fun answer => ?_
      · exact Triple.conseq (reconnect_ready hK) (fun _ h => h.1) (fun _ _ h => h) (fun _ _ h => h)
          fun _ h => h
      · cases answer with
        | ok rows => exact Triple.pure fun _ h => h
        | error error => exact Triple.throw fun _ h => h

end Reconnecting

section Idle

/-- No transaction is open on either side of the link. -/
structure Idle (s : Link σ) : Prop where
  inTransaction : s.inTransaction = false
  quiet : ∀ work, s.handle = .live work → work = none

/-- Idle, with nothing done since `start`. -/
structure Calm (start s : Link σ) : Prop extends Idle s where
  committed : s.committed = start.committed
  executed : s.executed = start.executed

theorem idle_stable : Stable (Idle (σ := σ)) where
  idle _ h := h.inTransaction
  quiet _ work h := h.quiet work
  flag _ _ h := ⟨h.inTransaction, h.quiet⟩
  null _ h := ⟨h.inTransaction, fun _ hw => by cases hw⟩
  lost _ h := ⟨h.inTransaction, fun _ hw => by cases hw⟩
  opened _ h := ⟨h.inTransaction, fun _ hw => by cases hw; rfl⟩

private theorem calm_stable (start : Link σ) : Stable (Calm start) where
  idle _ h := h.inTransaction
  quiet _ work h := h.quiet work
  flag _ _ h := ⟨⟨h.inTransaction, h.quiet⟩, h.committed, h.executed⟩
  null _ h := ⟨idle_stable.null _ h.toIdle, h.committed, h.executed⟩
  lost _ h := ⟨idle_stable.lost _ h.toIdle, h.committed, h.executed⟩
  opened _ h := ⟨idle_stable.opened _ h.toIdle, h.committed, h.executed⟩

end Idle

section Blocks
variable {start : Link σ} {w c : σ}

/-- Everything executed since `start` ran in the transaction of the present session. -/
def OneSession (start s : Link σ) : Prop :=
  ∃ n, s.executed = start.executed ++ List.replicate n (s.session, true)

/-- Inside a block, with its transaction open. -/
structure Alive (start : Link σ) (w : σ) (s : Link σ) : Prop where
  inTransaction : s.inTransaction = true
  reconnecting : s.reconnecting = false
  committed : s.committed = start.committed
  handle : s.handle = .live (some w)
  executed : OneSession start s

/-- Inside a block whose session is lost. -/
structure Dead (start : Link σ) (c : σ) (s : Link σ) : Prop where
  inTransaction : s.inTransaction = true
  reconnecting : s.reconnecting = false
  committed : s.committed = c
  handle : s.handle = .lost
  executed : OneSession start s

/-- After a block that left `c` behind. -/
structure Closed (start : Link σ) (c : σ → Prop) (s : Link σ) : Prop where
  idle : Idle s
  reconnecting : s.reconnecting = false
  committed : c s.committed
  executed : OneSession start s

theorem Closed.mono {c c' : σ → Prop} {s : Link σ} (h : Closed start c s) (hc : ∀ x, c x → c' x) :
    Closed start c' s := ⟨h.idle, h.reconnecting, hc _ h.committed, h.executed⟩

/-- The data a block can commit on an unbroken session: all its statements in order. -/
inductive Commits : Block σ ρ α → σ → σ → Prop
  | commit {result : α} {next : DatabaseError → Block σ ρ α} {w : σ} :
      Commits (.commit result next) w w
  | execute {sql : σ → Except String (ρ × σ)} {next : Except DatabaseError PUnit → Block σ ρ α}
      {rows : ρ} {w w' w'' : σ} (h : sql w = .ok (rows, w')) (hnext : Commits (next (.ok ⟨⟩)) w' w'') :
      Commits (.execute sql next) w w''
  | executeRejected {sql : σ → Except String (ρ × σ)}
      {next : Except DatabaseError PUnit → Block σ ρ α} {what : String} {w w' : σ}
      (h : sql w = .error what) (hnext : Commits (next (.error (.statementFailed ""))) w w') :
      Commits (.execute sql next) w w'
  | query {sql : σ → Except String (ρ × σ)} {next : Except DatabaseError (Option ρ) → Block σ ρ α}
      {rows : ρ} {w w' w'' : σ} (h : sql w = .ok (rows, w'))
      (hnext : Commits (next (.ok (some rows))) w' w'') : Commits (.query sql next) w w''
  | queryRejected {sql : σ → Except String (ρ × σ)}
      {next : Except DatabaseError (Option ρ) → Block σ ρ α} {what : String} {w w' : σ}
      (h : sql w = .error what) (hnext : Commits (next (.error (.statementFailed ""))) w w') :
      Commits (.query sql next) w w'
  | ping {next : Except DatabaseError PUnit → Block σ ρ α} {w w' : σ}
      (hnext : Commits (next (.ok ⟨⟩)) w w') : Commits (.ping next) w w'

theorem attempt_triple {β : Type} {x : Client σ β} {Q : β → Link σ → Prop}
    {E' : DatabaseError → Link σ → Prop} (h : Triple P x Q E C) :
    Triple P (attempt x) (fun result s => match result with | .ok b => Q b s | .error e => E e s) E' C := by
  rw [attempt]
  refine (@Triple.tryCatch _ _ _ _ _ _ _ _ E) (h.bind fun b => ?_) fun e => ?_
  · exact Triple.pure fun _ hs => hs
  · exact Triple.pure fun _ hs => hs

theorem submit_dead {connect : Client σ PUnit} {sql : Sql σ ρ} {Q : Option ρ → Link σ → Prop} :
    Triple (Dead start c) (submit connect sql) Q (fun _ => Dead start c) (fun s => s.committed = c) := by
  refine submit_once (A := fun answer s => (∃ e, answer = .error e) ∧ Dead start c s) (fun _ hs _ => hs)
    ?_ (fun _ s hs => .inl hs.2.inTransaction) (fun _ _ hs => ?_) fun _ _ hs => hs.2
  · refine mysqlRealQuery_triple (fun s work hs hh => ?_) (fun s hs _ => ⟨⟨_, rfl⟩, hs⟩)
      fun _ hs => hs.committed
    rw [hs.handle] at hh
    cases hh
  · obtain ⟨⟨e, he⟩, -⟩ := hs
    cases he

private theorem roundTrip_dead {C' : Link σ → Prop} (hC : ∀ s, Dead start c s → C' s) :
    Triple (Dead start c) roundTrip (fun alive s => alive = false ∧ Dead start c s) E C' := by
  refine roundTrip_triple (fun s work hs hh => ?_) (fun s hs _ => ⟨rfl, hs⟩) hC
  rw [hs.handle] at hh
  cases hh

theorem execute_dead {sql : Sql σ ρ} {Q : PUnit → Link σ → Prop} :
    Triple (Dead start c) (execute sql) Q (fun _ => Dead start c) (fun s => s.committed = c) :=
  Triple.bind (R := fun _ _ => False) submit_dead fun _ _ _ h => h.elim

private theorem query_dead {sql : Sql σ ρ} {Q : Option ρ → Link σ → Prop} :
    Triple (Dead start c) (query sql) Q (fun _ => Dead start c) (fun s => s.committed = c) :=
  Triple.bind (R := fun _ _ => False) submit_dead fun _ _ _ h => h.elim

private theorem ping_dead {Q : PUnit → Link σ → Prop} :
    Triple (Dead start c) ping Q (fun _ => Dead start c) (fun s => s.committed = c) := by
  refine Triple.bind (ensureConnected_triple (Q := Dead start c) (fun _ h => h) fun _ hs _ => hs) fun _ => ?_
  refine Triple.bind (roundTrip_dead fun _ hs => hs.committed) fun alive => ?_
  cases alive with
  | true => exact Triple.of_forall fun s hs => absurd hs.1 (by simp)
  | false =>
    refine Triple.bind mayReconnect_triple fun retry => ?_
    cases retry with
    | true =>
      refine Triple.of_forall fun s hs => ?_
      obtain ⟨⟨-, hdead⟩, hretry⟩ := hs
      simp [hdead.inTransaction] at hretry
    | false => exact Triple.throw fun _ hs => hs.1.2

private theorem rollback_dead : Triple (Dead start c) rollback (fun _ => Closed start (· = c)) E
    (fun s => s.committed = c) := by
  refine Triple.call (fun _ hs => hs.committed) ?_ ?_
  · intro fault s a hs ha
    simp only [hs.handle]
    exact ⟨⟨rfl, fun _ hw => by cases hw⟩, hs.reconnecting, hs.committed, hs.executed⟩
  · intro fault s e hs he
    cases fault <;> simp [hs.handle] at he

/-- A block whose session is lost does nothing more. -/
theorem run_dead (b : Block σ ρ α) : Triple (Dead start c) b.run (fun _ => Closed start (· = c))
    (fun _ => Closed start (· = c)) (fun s => s.committed = c) := by
  induction b with
  | leave result =>
    exact rollback_dead.bind fun _ => Triple.ofExcept (fun _ _ _ h => h) fun _ _ _ h => h
  | execute sql next ih =>
    refine Triple.bind (attempt_triple (execute_dead (Q := fun _ _ => False))) fun result => ?_
    cases result with
    | ok u => exact fun _ _ h => h.elim
    | error e => exact ih (.error e)
  | query sql next ih =>
    refine Triple.bind (attempt_triple (query_dead (Q := fun _ _ => False))) fun result => ?_
    cases result with
    | ok u => exact fun _ _ h => h.elim
    | error e => exact ih (.error e)
  | ping next ih =>
    refine Triple.bind (attempt_triple (ping_dead (Q := fun _ _ => False))) fun result => ?_
    cases result with
    | ok u => exact fun _ _ h => h.elim
    | error e => exact ih (.error e)
  | commit result next ih =>
    have hcommit : Triple (Dead start c) commit (fun _ _ => False) (fun _ => Dead start c)
        (fun s => s.committed = c) :=
      Triple.bind (R := fun _ _ => False) execute_dead fun _ _ _ h => h.elim
    rw [Block.run]
    refine Triple.bind (attempt_triple hcommit) fun committed => ?_
    cases committed with
    | ok u => exact fun _ _ h => h.elim
    | error e => exact ih e

theorem OneSession.more {s s' : Link σ} (h : OneSession start s)
    (he : s'.executed = s.executed ++ [(s.session, true)]) (hn : s'.session = s.session) :
    OneSession start s' := by
  obtain ⟨n, hlog⟩ := h
  refine ⟨n + 1, ?_⟩
  rw [he, hlog, hn, List.append_assoc, List.replicate_succ']

theorem Alive.lose {s : Link σ} (h : Alive start w s) : Dead start start.committed (lose s) :=
  ⟨h.inTransaction, h.reconnecting, h.committed, rfl, h.executed⟩

/-- What the open transaction answers to a statement. -/
def Answered (start : Link σ) (w : σ) (sql : σ → Except String (ρ × σ)) :
    Except MySqlError (Option ρ) → Link σ → Prop
  | .ok rows, s => ∃ r w', rows = some r ∧ sql w = .ok (r, w') ∧ Alive start w' s
  | .error _, s => Dead start start.committed s ∨ (∃ what, sql w = .error what) ∧ Alive start w s

theorem submit_alive {connect : Client σ PUnit} {sql : σ → Except String (ρ × σ)} :
    Triple (Alive start w) (submit connect (.statement sql))
      (fun rows s => ∃ r w', rows = some r ∧ sql w = .ok (r, w') ∧ Alive start w' s)
      (fun e s => Dead start start.committed s ∨
        e = .statementFailed "" ∧ (∃ what, sql w = .error what) ∧ Alive start w s)
      (fun s => s.committed = start.committed) := by
  refine submit_once (A := Answered start w sql) (fun s hs hh => ?_) ?_ (fun e s hs => ?_)
    (fun _ _ h => h) (fun _ _ h => h.imp_right fun h => ⟨rfl, h⟩)
  · rw [hs.handle] at hh
    cases hh
  · refine mysqlRealQuery_triple (fun s work hs hh => ?_) (fun s hs hdead => ?_) fun _ hs => hs.committed
    · obtain rfl : some w = work := by
        rw [hs.handle] at hh
        exact Handle.live.inj hh
      refine ⟨?_, ?_, .inl hs.lose⟩
      · cases hr : sql w with
        | error what =>
          simp only [serve, Option.getD_some, hr]
          exact .inr ⟨⟨what, hr⟩, hs⟩
        | ok r =>
          simp only [serve, Option.getD_some, hr]
          exact ⟨r.1, r.2, rfl, hr, hs.inTransaction, hs.reconnecting, hs.committed, rfl,
            hs.executed.more rfl rfl⟩
      · left
        cases hr : sql w with
        | error what =>
          simp only [serve, Option.getD_some, hr]
          exact hs.lose
        | ok r =>
          simp only [serve, Option.getD_some, hr]
          exact ⟨hs.inTransaction, hs.reconnecting, hs.committed, rfl, hs.executed.more rfl rfl⟩
    · exact absurd hs.handle (hdead _)
  · rcases hs with hs | ⟨-, hs⟩
    · exact .inl hs.inTransaction
    · exact .inl hs.inTransaction

theorem roundTrip_alive : Triple (Alive start w) roundTrip
    (fun alive s => if alive then Alive start w s else Dead start start.committed s) E
    (fun s => s.committed = start.committed) := by
  refine roundTrip_triple (fun s work hs hh => ?_) (fun s hs hdead => ?_) fun _ hs => hs.committed
  · simp only [if_true, Bool.false_eq_true, if_false]
    exact ⟨hs, hs.lose⟩
  · exact absurd hs.handle (hdead _)

private theorem query_alive {sql : σ → Except String (ρ × σ)} :
    Triple (Alive start w) (query (.statement sql))
      (fun rows s => ∃ r w', rows = some r ∧ sql w = .ok (r, w') ∧ Alive start w' s)
      (fun e s => Dead start start.committed s ∨
        e = .statementFailed "" ∧ (∃ what, sql w = .error what) ∧ Alive start w s)
      (fun s => s.committed = start.committed) := by
  refine Triple.bind submit_alive fun rows => Triple.of_forall fun s hs => ?_
  obtain ⟨r, w', rfl, hr, halive⟩ := hs
  refine Triple.bind (Triple.conseq ((@roundTrip_alive _ (fun _ _ => False) start) (w := w'))
    (fun _ h => h ▸ halive) (fun _ _ h => h) (fun _ _ h => h.elim) fun _ h => h) fun fetched => ?_
  cases fetched with
  | true => exact Triple.pure fun s' hs' => ⟨r, w', rfl, hr, hs'⟩
  | false =>
    refine Triple.bind (R := fun _ _ => False) (Triple.throw fun s' hs' => ?_) fun _ _ _ h => h.elim
    exact .inl hs'

private theorem ping_alive : Triple (Alive start w) ping (fun _ => Alive start w)
    (fun _ => Dead start start.committed) (fun s => s.committed = start.committed) := by
  refine Triple.bind (ensureConnected_triple (Q := Alive start w) (fun _ h => h) fun s hs hh => ?_)
    fun _ => ?_
  · rw [hs.handle] at hh
    cases hh
  refine Triple.bind roundTrip_alive fun alive => ?_
  cases alive with
  | true => exact Triple.pure fun _ hs => hs
  | false =>
    refine Triple.bind mayReconnect_triple fun retry => ?_
    cases retry with
    | true =>
      refine Triple.of_forall fun s hs => ?_
      obtain ⟨hdead, hretry⟩ := hs
      simp only [Bool.false_eq_true, if_false] at hdead
      simp [hdead.inTransaction] at hretry
    | false => exact Triple.throw fun _ hs => hs.1

private theorem rollback_alive : Triple (Alive start w) rollback (fun _ => Closed start (· = start.committed)) E
    (fun s => s.committed = start.committed) := by
  refine Triple.call (fun _ hs => hs.committed) ?_ ?_
  · intro fault s a hs ha
    simp only [hs.handle]
    cases fault
    · exact ⟨⟨rfl, fun _ hw => by cases hw; rfl⟩, hs.reconnecting, hs.committed, hs.executed⟩
    all_goals exact ⟨⟨rfl, fun _ hw => by cases hw⟩, hs.reconnecting, hs.committed, hs.executed⟩
  · intro fault s e hs he
    cases fault <;> simp [hs.handle] at he

/-- COMMIT takes effect or the session is lost, before or after it did. -/
theorem commit_alive : Triple (Alive start w) commit (fun _ => Closed start (· = w))
    (fun _ s => Dead start start.committed s ∨ Dead start w s)
    (fun s => s.committed = start.committed ∨ s.committed = w) := by
  have hsubmit : Triple (Alive start w) (submit connectAgain (.commit : Sql σ PUnit))
      (fun _ s => s.handle = .live none ∧ s.reconnecting = false ∧ s.committed = w ∧ OneSession start s)
      (fun _ s => Dead start start.committed s ∨ Dead start w s)
      (fun s => s.committed = start.committed ∨ s.committed = w) := by
    refine submit_once (A := fun answer s => match answer with
      | .ok _ => s.handle = .live none ∧ s.reconnecting = false ∧ s.committed = w ∧ OneSession start s
      | .error _ => Dead start start.committed s ∨ Dead start w s) (fun s hs hh => ?_) ?_
      (fun _ s hs => ?_) (fun _ _ h => h) (fun _ _ h => h)
    · rw [hs.handle] at hh
      cases hh
    · refine mysqlRealQuery_triple (fun s work hs hh => ?_) (fun s hs hdead => ?_)
        fun _ hs => .inl hs.committed
      · obtain rfl : some w = work := by
          rw [hs.handle] at hh
          exact Handle.live.inj hh
        refine ⟨⟨rfl, hs.reconnecting, rfl, hs.executed⟩, .inr ?_, .inl hs.lose⟩
        exact ⟨hs.inTransaction, hs.reconnecting, rfl, rfl, hs.executed⟩
      · exact absurd hs.handle (hdead _)
    · rcases hs with hs | hs
      · exact .inl hs.inTransaction
      · exact .inl hs.inTransaction
  have hexecute : Triple (Alive start w) (execute (.commit : Sql σ PUnit))
      (fun _ s => s.handle = .live none ∧ s.reconnecting = false ∧ s.committed = w ∧ OneSession start s)
      (fun _ s => Dead start start.committed s ∨ Dead start w s)
      (fun s => s.committed = start.committed ∨ s.committed = w) :=
    hsubmit.bind fun _ => Triple.pure fun _ h => h
  refine Triple.bind hexecute fun _ => setInTransaction_triple fun s hs => ?_
  obtain ⟨hhandle, hrec, hcom, hexec⟩ := hs
  refine ⟨⟨rfl, fun work hw => ?_⟩, hrec, hcom, hexec⟩
  have hw' : s.handle = .live work := hw
  rw [hhandle] at hw'
  exact (Handle.live.inj hw').symm

/-- What a block may leave committed, from the data `w` of its open transaction. -/
def Whole (start : Link σ) (b : Block σ ρ α) (w x : σ) : Prop := x = start.committed ∨ Commits b w x

/-- A block that ends as `Whole start b w` describes, whatever becomes of the session. -/
abbrev EndsWhole (start : Link σ) (b : Block σ ρ α) (w : σ) (P : Link σ → Prop) (x : Client σ α) : Prop :=
  Triple P x (fun _ => Closed start (Whole start b w)) (fun _ => Closed start (Whole start b w))
    (fun s => Whole start b w s.committed)

theorem run_lost (b b' : Block σ ρ α) :
    EndsWhole start b w (Dead start start.committed) b'.run :=
  Triple.conseq (run_dead b') (fun _ h => h) (fun _ _ h => h.mono fun _ => .inl)
    (fun _ _ h => h.mono fun _ => .inl) fun _ h => .inl h

/-- The rest of a block, once its next statement was answered. -/
theorem EndsWhole.next {b b' : Block σ ρ α} {w' : σ} (hc : ∀ x, Commits b' w' x → Commits b w x)
    (h : EndsWhole start b' w' (Alive start w') b'.run) :
    EndsWhole start b w (Alive start w') b'.run :=
  Triple.conseq h (fun _ h => h) (fun _ _ h => h.mono fun x => Or.imp_right (hc x))
    (fun _ _ h => h.mono fun x => Or.imp_right (hc x)) fun _ h => h.imp_right (hc _)

theorem run_alive (b : Block σ ρ α) (w : σ) : EndsWhole start b w (Alive start w) b.run := by
  induction b generalizing w with
  | leave result =>
    have hroll : Triple (Alive start w) rollback
        (fun _ => Closed start (Whole start (.leave result : Block σ ρ α) w))
        (fun _ => Closed start (Whole start (.leave result : Block σ ρ α) w))
        (fun s => Whole start (.leave result : Block σ ρ α) w s.committed) :=
      Triple.conseq (rollback_alive (E := fun _ _ => False)) (fun _ h => h)
        (fun _ _ h => h.mono fun _ => .inl) (fun _ _ h => h.elim) fun _ h => .inl h
    exact hroll.bind fun _ => Triple.ofExcept (fun _ _ _ h => h) fun _ _ _ h => h
  | execute sql next ih =>
    have hexecute : Triple (Alive start w) (execute (.statement sql))
        (fun _ s => ∃ r w', sql w = .ok (r, w') ∧ Alive start w' s)
        (fun e s => Dead start start.committed s ∨
          e = .statementFailed "" ∧ (∃ what, sql w = .error what) ∧ Alive start w s)
        (fun s => s.committed = start.committed) :=
      submit_alive.bind fun _ => Triple.pure fun _ ⟨r, w', _, hr, h⟩ => ⟨r, w', hr, h⟩
    refine Triple.bind (Triple.conseq (@attempt_triple _ _ _ _ _ _ _ (fun _ _ => False) hexecute) (fun _ h => h)
      (fun _ _ h => h) (fun _ _ h => h.elim) fun _ h => .inl h) fun result => ?_
    refine Triple.of_forall fun s hs => ?_
    cases result with
    | ok u =>
      obtain ⟨r, w', hr, halive⟩ := hs
      exact (EndsWhole.next (fun x hx => .execute hr hx) (ih (.ok u) w')).from_state halive
    | error e =>
      obtain hlost | ⟨rfl, ⟨what, hr⟩, halive⟩ := hs
      · exact (run_lost _ (next (.error e))).from_state hlost
      · exact (EndsWhole.next (fun x hx => .executeRejected hr hx) (ih _ w)).from_state halive
  | query sql next ih =>
    refine Triple.bind (Triple.conseq (@attempt_triple _ _ _ _ _ _ _ (fun _ _ => False) query_alive) (fun _ h => h)
      (fun _ _ h => h) (fun _ _ h => h.elim) fun _ h => .inl h) fun result => ?_
    refine Triple.of_forall fun s hs => ?_
    cases result with
    | ok rows =>
      obtain ⟨r, w', rfl, hr, halive⟩ := hs
      exact (EndsWhole.next (fun x hx => .query hr hx) (ih _ w')).from_state halive
    | error e =>
      obtain hlost | ⟨rfl, ⟨what, hr⟩, halive⟩ := hs
      · exact (run_lost _ (next (.error e))).from_state hlost
      · exact (EndsWhole.next (fun x hx => .queryRejected hr hx) (ih _ w)).from_state halive
  | ping next ih =>
    refine Triple.bind (Triple.conseq (@attempt_triple _ _ _ _ _ _ _ (fun _ _ => False) ping_alive) (fun _ h => h)
      (fun _ _ h => h) (fun _ _ h => h.elim) fun _ h => .inl h) fun result => ?_
    cases result with
    | ok u => exact EndsWhole.next (fun x hx => .ping hx) (ih (.ok u) w)
    | error e => exact run_lost _ (next (.error e))
  | commit result next ih =>
    have hwhole : ∀ x, x = w → Whole start (.commit result next) w x := by
      rintro x rfl
      exact .inr .commit
    rw [Block.run]
    refine Triple.bind (Triple.conseq (@attempt_triple _ _ _ _ _ _ _ (fun _ _ => False) commit_alive) (fun _ h => h)
      (fun _ _ h => h) (fun _ _ h => h.elim) fun _ h => h.elim .inl (hwhole _)) fun committed => ?_
    cases committed with
    | ok u => exact Triple.pure fun _ h => h.mono hwhole
    | error e =>
      refine Triple.of_forall fun s hs => ?_
      rcases hs with hlost | hlost
      · exact (run_lost _ (next e)).from_state hlost
      · refine Triple.conseq ((run_dead (next e)).from_state hlost) (fun _ h => h)
          (fun _ _ h => h.mono hwhole) (fun _ _ h => h.mono hwhole) fun _ h => hwhole _ h

end Blocks

section Sessions
variable {start : Link σ}

/-- START TRANSACTION, on a fresh session if the old one was lost. -/
theorem begin_alive : Triple (Ready (Calm start)) begin (fun _ => Alive start start.committed)
    (fun _ => Ready (Calm start)) (Calm start) := by
  refine Triple.bind (refuseInTransaction_triple fun s hs => hs.1.inTransaction) fun _ => ?_
  have hsubmit : Triple (Ready (Calm start)) (submit connectAgain (.startTransaction : Sql σ PUnit))
      (fun _ s => s.handle = .live (some start.committed) ∧ s.reconnecting = false ∧
        s.committed = start.committed ∧ s.executed = start.executed)
      (fun _ => Ready (Calm start)) (Calm start) := by
    refine submit_ready (calm_stable start) (fun s rows hs _ _ => ?_) fun s hs _ => ?_
    · have hcommitted : (none : Option σ).getD s.committed = start.committed := hs.1.committed
      refine ⟨?_, hs.2, hcommitted, hs.1.executed⟩
      simp only [serve, hcommitted]
    · exact ⟨⟨⟨hs.1.inTransaction, fun _ hw => by cases hw⟩, hs.1.committed, hs.1.executed⟩, hs.2⟩
  have hexecute : Triple (Ready (Calm start)) (execute (.startTransaction : Sql σ PUnit))
      (fun _ s => s.handle = .live (some start.committed) ∧ s.reconnecting = false ∧
        s.committed = start.committed ∧ s.executed = start.executed)
      (fun _ => Ready (Calm start)) (Calm start) := hsubmit.bind fun _ => Triple.pure fun _ h => h
  refine Triple.bind hexecute fun _ => setInTransaction_triple fun s hs => ?_
  obtain ⟨hhandle, hrec, hcom, hexec⟩ := hs
  exact ⟨rfl, hrec, hcom, hhandle, 0, by simpa using hexec⟩

/-- How a block leaves the link it started from. -/
def Atomic (start : Link σ) (b : Block σ ρ α) (s : Link σ) : Prop :=
  Closed start (Whole start b start.committed) s

theorem transactional_atomic (b : Block σ ρ α) (hidle : Idle start) (hrec : start.reconnecting = false) :
    Triple (· = start) (transactional b) (fun _ => Atomic start b) (fun _ => Atomic start b)
      (fun s => Whole start b start.committed s.committed) := by
  have hcalm : ∀ s, s = start → Ready (Calm start) s := by
    rintro s rfl
    exact ⟨⟨hidle, rfl, rfl⟩, hrec⟩
  refine Triple.bind (R := fun _ => Alive start start.committed) ?_ fun _ => run_alive b _
  refine Triple.conseq begin_alive hcalm (fun _ _ h => h) (fun _ s hs => ?_) fun s hs => .inl hs.committed
  exact ⟨hs.1.toIdle, hs.2, .inl hs.1.committed, 0, by simpa using hs.1.executed⟩

/-- The operations of the service on the database. -/
inductive Operation (σ ρ : Type) where
  | block (b : Block σ ρ PUnit)
  | execute (sql : σ → Except String (ρ × σ))
  | query (sql : σ → Except String (ρ × σ))
  | ping

def Operation.run : Operation σ ρ → Client σ PUnit
  | block b => transactional b
  | execute sql => DatabaseConnections.execute (.statement sql)
  | query sql => do let _ ← DatabaseConnections.query (.statement sql)
  | ping => DatabaseConnections.ping

/-- The links that operations reach from a migrated database, under any losses. -/
inductive Served (ρ : Type) : Link σ → Prop
  | connected (data : σ) (session : ℕ) : Served ρ { committed := data, handle := .live none, session }
  | operation {s : Link σ} (h : Served ρ s) (op : Operation σ ρ) (faults : List Fault)
      (hruns : (op.run faults s).1 ≠ .crashed) : Served ρ (op.run faults s).2.2

theorem autocommit_ready {sql : σ → Except String (ρ × σ)} :
    Triple (Ready Idle) (submit connectAgain (.statement sql)) (fun _ => Ready Idle)
      (fun _ => Ready Idle) Idle := by
  have hserve : ∀ s : Link σ, Ready Idle s → Ready Idle (serve none s (.statement sql)).2 := by
    intro s hs
    cases hr : sql s.committed with
    | error what =>
      simp only [serve, Option.getD_none, hr]
      exact hs
    | ok r =>
      simp only [serve, Option.getD_none, hr]
      exact ⟨⟨hs.1.inTransaction, hs.1.quiet⟩, hs.2⟩
  refine submit_ready idle_stable (fun s rows hs _ _ => hserve s hs) fun s hs _ => ?_
  exact ⟨idle_stable.lost _ (hserve s hs).1, (hserve s hs).2⟩

private theorem operation_ready (op : Operation σ ρ) {s : Link σ} (hs : Ready Idle s) (faults : List Fault)
    (hruns : (op.run faults s).1 ≠ .crashed) : Ready Idle (op.run faults s).2.2 := by
  have hends : Triple (· = s) op.run (fun _ => Ready Idle) (fun _ => Ready Idle) (fun _ => True) := by
    cases op with
    | block b =>
      exact Triple.conseq (transactional_atomic b hs.1 hs.2) (fun _ h => h)
        (fun _ _ h => ⟨h.idle, h.reconnecting⟩) (fun _ _ h => ⟨h.idle, h.reconnecting⟩) fun _ _ => trivial
    | execute sql =>
      have h := ((@autocommit_ready _ _ sql)).bind (f := fun _ => (pure ⟨⟩ : Client σ PUnit)) fun _ =>
        Triple.pure (Q := fun _ => Ready Idle) fun _ h => h
      exact Triple.conseq (h.from_state hs) (fun _ h => h) (fun _ _ h => h) (fun _ _ h => h)
        fun _ _ => trivial
    | query sql =>
      have hfetch : Triple (Ready Idle) (roundTrip (σ := σ)) (fun _ => Ready Idle) (fun _ => Ready Idle)
          Idle := roundTrip_triple (fun s _ hs _ => ⟨hs, idle_stable.lost s hs.1, hs.2⟩)
            (fun _ hs _ => hs) fun _ hs => hs.1
      have h : Triple (Ready Idle) (DatabaseConnections.query (.statement sql)) (fun _ => Ready Idle)
          (fun _ => Ready Idle) Idle :=
        autocommit_ready.bind fun _ => hfetch.bind fun _ => Triple.guard (fun _ _ h => h) fun _ =>
          Triple.pure fun _ h => h
      have h' := h.bind (f := fun _ => (pure ⟨⟩ : Client σ PUnit)) fun _ =>
        Triple.pure (Q := fun _ => Ready Idle) fun _ h => h
      exact Triple.conseq (h'.from_state hs) (fun _ h => h) (fun _ _ h => h) (fun _ _ h => h)
        fun _ _ => trivial
    | ping =>
      have h : Triple (Ready Idle) (DatabaseConnections.ping (σ := σ)) (fun _ => Ready Idle)
          (fun _ => Ready Idle) Idle := by
        refine Triple.bind (ensureConnected_triple (Q := Ready Idle) (fun _ h => h) fun _ hs _ => hs)
          fun _ => ?_
        refine Triple.bind (roundTrip_triple (Q := fun _ => Ready Idle)
          (fun s _ hs _ => ⟨hs, idle_stable.lost s hs.1, hs.2⟩) (fun _ hs _ => hs) fun _ hs => hs.1)
          fun alive => ?_
        cases alive with
        | true => exact Triple.pure fun _ h => h
        | false =>
          refine Triple.bind mayReconnect_triple fun retry => ?_
          cases retry with
          | true =>
            exact Triple.conseq (reconnect_ready idle_stable) (fun _ h => h.1) (fun _ _ h => h)
              (fun _ _ h => h) fun _ h => h
          | false => exact Triple.throw fun _ h => h.1
      exact Triple.conseq (h.from_state hs) (fun _ h => h) (fun _ _ h => h) (fun _ _ h => h)
        fun _ _ => trivial
  have hx := hends faults s rfl
  unfold Ends at hx
  cases hr : (op.run faults s).1 with
  | returned a =>
    rw [hr] at hx
    exact hx
  | threw e =>
    rw [hr] at hx
    exact hx
  | crashed => exact absurd hr hruns

private theorem served_ready {s : Link σ} (h : Served ρ s) : Ready Idle s := by
  induction h with
  | connected => exact ⟨⟨rfl, fun _ hw => by cases hw; rfl⟩, rfl⟩
  | operation _ op faults hruns ih => exact operation_ready op ih faults hruns

end Sessions

/-- After any operations and losses, `begin` is not refused, and a block leaves its whole effect
or none, its flags clear and all its statements in one session's transaction; should the
process stop inside it, its effect is still whole or absent. -/
theorem loss_never_splits {s : Link σ} (h : Served ρ s) (b : Block σ ρ α) (faults : List Fault) :
    s.inTransaction = false ∧
    Ends (fun _ => Atomic s b) (fun _ => Atomic s b) (fun s' => Whole s b s.committed s'.committed)
      (transactional b faults s) := by
  have hready := served_ready h
  exact ⟨hready.1.inTransaction, transactional_atomic b hready.1 hready.2 faults s rfl⟩

/-- Two increments in one block. -/
def twoSteps : Block ℕ ℕ PUnit :=
  .execute (fun n => .ok (n, n + 1)) fun first =>
    match first with
    | .error e => .leave (.error e)
    | .ok _ => .execute (fun n => .ok (n, n + 1)) fun second =>
      match second with
      | .error e => .leave (.error e)
      | .ok _ => .commit ⟨⟩ fun e => .leave (.error e)

def connectedLink : Link ℕ := { committed := 0, handle := .live none }

/-- The session is lost after the second statement. -/
theorem loss_never_splits_twoSteps :
    (transactional twoSteps [.proceed, .proceed, .failAfter] connectedLink).2.2.committed = 0 ∧
    connectedLink.inTransaction = false ∧
    Ends (fun _ => Atomic connectedLink twoSteps) (fun _ => Atomic connectedLink twoSteps)
      (fun s => Whole connectedLink twoSteps 0 s.committed)
      (transactional twoSteps [.proceed, .proceed, .failAfter] connectedLink) :=
  ⟨rfl, loss_never_splits (ρ := ℕ) (.connected 0 0) twoSteps [.proceed, .proceed, .failAfter]⟩

end EndstoneExchange.ConnectionLoss
