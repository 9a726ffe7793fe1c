import EndstoneExchange.BookSnapshots

/-!
# Hologram snapshots

A second thread with a connection of its own reads the books that the holograms show, one
statement after the other, while the server goes on with its calls. What is shown answers the
last question, and the server never waits for an answer.
-/
namespace EndstoneExchange.HologramSnapshots
open ExchangeDomain OrderMatching ServiceRuns DurablePrograms OrderBookQueries BookSnapshots

section Plugin

/-- What the query thread does next, with its locals: `topOfBooks`, then the shared state. -/
inductive Work where
  | connect (marketIds : List Id)
  | markets (marketIds : List Id)
  | bids (marketIds : List Id) (bookByMarket : Id → Option Id) (bookIds : List Id)
  | asks (marketIds : List Id) (bookByMarket : Id → Option Id) (bookIds : List Id) (byBook : Books)
  | trades (marketIds : List Id) (bookByMarket : Id → Option Id) (bookIds : List Id) (byBook : Books)
  | publish (books : Books)
  | report (error : Error)
  | finish

/-- One statement of `topOfBooks` over the database it meets. -/
def Work.query (db : Db) : Work → Except Error Work
  | .connect marketIds => return if marketIds = [] then .publish fun _ => none else .markets marketIds
  | .markets marketIds => do
    let bookIds := (marketIds.filterMap (Db.bookOf db)).dedup
    return if bookIds = [] then .publish fun id => if id ∈ marketIds then some {} else none
      else .bids marketIds (Db.bookOf db) bookIds
  | .bids marketIds bookByMarket bookIds => do
    let byBook ← pushLevels .buy (topLevels .buy bookIds db) fun _ => none
    return .asks marketIds bookByMarket bookIds byBook
  | .asks marketIds bookByMarket bookIds byBook => do
    let byBook ← pushLevels .sell (topLevels .sell bookIds db) byBook
    return .trades marketIds bookByMarket bookIds byBook
  | .trades marketIds bookByMarket bookIds byBook => do
    let byBook := setPrices (lastPrices bookIds db) byBook
    return .publish fun id => if id ∈ marketIds then some (((bookByMarket id).bind byBook).getD {}) else none
  | other => return other

/-- An exception of the connection, or of a value that was read, is reported. -/
def Work.next (failure : Option Error) (db : Db) (w : Work) : Work :=
  match failure with
  | some error => .report error
  | none =>
    match w.query db with
    | .ok w => w
    | .error error => .report error

structure SnapshotState where
  readySnapshot : Option Books := none
  error : Option Error := none
  queryRunning : Bool := false
  stopping : Bool := false
  /-- `query_thread.joinable()`. -/
  joinable : Bool := false

/-- The fields of the plugin that holograms depend on, and the query thread. -/
structure Plugin where
  db : Db
  ready : Bool := true
  hologramBooks : Books := fun _ => none
  hologramSnapshotState : Option SnapshotState := some {}
  worker : Option Work := none

/-- What happens, as the theorems below speak of it. -/
inductive Label where
  | changed (db : Db)
  | asked (marketIds : List Id)
  | showed (books : Books)

/-- `refreshHolograms`, with the keys of `markets_`; a display or the start of the thread may raise
an exception, and `none` is a `join` that waits. -/
def refreshHolograms (marketIds : List Id) (displays starts : Bool) (s : Plugin) : Option (List Label × Plugin) :=
  match s.ready, s.hologramSnapshotState with
  | true, some state =>
    let taken := { state with readySnapshot := none, error := none }
    let shown := { s with
      hologramBooks := state.readySnapshot.getD s.hologramBooks
      hologramSnapshotState := some taken }
    let labels := state.readySnapshot.toList.map Label.showed
    if (state.readySnapshot.isSome ∧ ¬ displays) ∨ marketIds = [] ∨ state.queryRunning then some (labels, shown)
    else if state.joinable ∧ s.worker.isSome then none
    else if starts then
      some (labels ++ [.asked marketIds], { shown with
        hologramSnapshotState := some { taken with queryRunning := true, joinable := true }
        worker := some (.connect marketIds) })
    else
      some (labels, { shown with hologramSnapshotState := some { taken with queryRunning := false, joinable := false } })
  | _, _ => some ([], s)

/-- The query thread goes on; `none` is the use of a state that is gone. -/
def work (failure : Option Error) (s : Plugin) : Option Plugin :=
  match s.worker, s.hologramSnapshotState with
  | none, _ => some s
  | some (.publish books), some state => some { s with
      hologramSnapshotState := some (if state.stopping then state else { state with readySnapshot := some books })
      worker := some .finish }
  | some (.report error), some state => some { s with
      hologramSnapshotState := some (if state.stopping then state else { state with error := some error })
      worker := some .finish }
  | some .finish, some state => some { s with
      hologramSnapshotState := some { state with queryRunning := false }
      worker := none }
  | some w, some _ => some { s with worker := some (w.next failure s.db) }
  | some _, none => none

/-- `onDisable` until it joins the query thread. -/
def disable (s : Plugin) : Plugin :=
  { s with
    ready := false
    hologramSnapshotState := s.hologramSnapshotState.map fun state => { state with stopping := true } }

/-- The rest of `onDisable`; `none` is the `join` that waits. -/
def join (s : Plugin) : Option Plugin :=
  if s.ready then some s
  else
    match s.hologramSnapshotState with
    | some state =>
      if state.joinable ∧ s.worker.isSome then none
      else some { s with hologramSnapshotState := none, hologramBooks := fun _ => none }
    | none => some s

inductive Event where
  | call (c : Call) (faults : List Fault)
  | refresh (marketIds : List Id) (displays starts : Bool)
  | work (failure : Option Error)
  | disable
  | join

variable (settings : Settings)

/-- The calls of the server change the database, and the thread reads it. -/
def step (s : Plugin) : Event → Option (List Label × Plugin)
  | .call c faults =>
    if s.ready then some ([.changed (c.leaves settings faults s.db)], { s with db := c.leaves settings faults s.db })
    else some ([], s)
  | .refresh marketIds displays starts => refreshHolograms marketIds displays starts s
  | .work failure => (work failure s).map ([], ·)
  | .disable => some ([], disable s)
  | .join => (join s).map ([], ·)

/-- The runs of the plugin, with what happened so far, oldest first. -/
inductive Run : List Label → Plugin → Prop
  | start {db : Db} (h : Reachable settings db) : Run [.changed db] { db }
  | step {trace labels : List Label} {s s' : Plugin} (h : Run trace s) (e : Event)
      (hs : step settings s e = some (labels, s')) : Run (trace ++ labels) s'

end Plugin

section Answers

def current (trace : List Label) : Db :=
  trace.foldl (fun db label => match label with | .changed db => db | _ => db) {}

/-- The databases that are read after a question, one after the other, while nothing else is asked
or shown. -/
inductive Reads (marketIds : List Id) : List Label → List Db → Prop
  | asked (trace : List Label) : Reads marketIds (trace ++ [.asked marketIds]) []
  | changed {trace : List Label} {dbs : List Db} (h : Reads marketIds trace dbs) (db : Db) :
      Reads marketIds (trace ++ [.changed db]) dbs
  | read {trace : List Label} {dbs : List Db} (h : Reads marketIds trace dbs) :
      Reads marketIds trace (dbs ++ [current trace])

def topLevelOf (side : Side) (bookId : Id) (db : Db) : List PriceLevel :=
  (levels side bookId db).head?.toList.map cappedLevel

/-- The best levels and the last price of a book, each of its own moment. -/
def bookAt (bids asks trades : Db) (bookId : Id) : OrderBook where
  bids := topLevelOf .buy bookId bids
  asks := topLevelOf .sell bookId asks
  lastPriceCents := (lastTrade bookId trades).map (·.2.priceCents)

/-- Books that answer the last question. -/
def Answered (trace : List Label) (books : Books) : Prop :=
  ∃ marketIds markets bids asks trades, Reads marketIds trace [markets, bids, asks, trades] ∧
    ∀ id, books id =
      if id ∈ marketIds then some (((Db.bookOf markets id).map (bookAt bids asks trades)).getD {}) else none

end Answers

section Queries
variable {settings : Settings} {side : Side} {db : Db} {bookIds : List Id} {books : Books} {bookId : Id}

theorem pushLevels_top (h : Reachable settings db) (side : Side) (bookIds : List Id) (books : Books) :
    ∃ books', pushLevels side (topLevels side bookIds db) books = .ok books' ∧ ∀ id ∈ bookIds,
      (books' id).getD {} = OrderBook.pushAll side ((books id).getD {}) (topLevelOf side id db) := by
  obtain ⟨books', hpush, hbooks⟩ := @pushLevels_ok side (topLevels side bookIds db) books fun row => topLevels_fit h
  refine ⟨books', hpush, fun id hid => ?_⟩
  rw [hbooks, topLevels_book hid, topLevelOf, levels_head?, List.map_map]
  rfl

private theorem setPrices_last (hbook : bookId ∈ bookIds) (hnone : ((books bookId).getD {}).lastPriceCents = none) :
    (setPrices (lastPrices bookIds db) books bookId).getD {} =
      { (books bookId).getD {} with lastPriceCents := (lastTrade bookId db).map (·.2.priceCents) } := by
  rw [setPrices_getD, lastPrices_book hbook]
  cases lastTrade bookId db with
  | none =>
    generalize (books bookId).getD {} = book at hnone ⊢
    cases book
    cases hnone
    rfl
  | some last => rfl

private theorem pushAll_buy (levels : List PriceLevel) : OrderBook.pushAll .buy {} levels = { bids := levels } := by
  have hpush : ∀ book : OrderBook, OrderBook.pushAll .buy book levels = { book with bids := book.bids ++ levels } := by
    induction levels with
    | nil => exact fun book => by rw [List.append_nil]; rfl
    | cons level levels ih =>
      intro book
      change OrderBook.pushAll .buy (OrderBook.push .buy level book) levels = _
      rw [ih]
      simp [OrderBook.push]
  exact hpush {}

private theorem pushAll_sell (bids levels : List PriceLevel) :
    OrderBook.pushAll .sell { bids } levels = { bids, asks := levels } := by
  have hpush : ∀ book : OrderBook, OrderBook.pushAll .sell book levels = { book with asks := book.asks ++ levels } := by
    induction levels with
    | nil => exact fun book => by rw [List.append_nil]; rfl
    | cons level levels ih =>
      intro book
      change OrderBook.pushAll .sell (OrderBook.push .sell level book) levels = _
      rw [ih]
      simp [OrderBook.push]
  exact hpush { bids }

end Queries

section Invariant
variable {settings : Settings} {trace : List Label} {marketIds : List Id} {books : Books} {w : Work}

/-- The book ids that the first query found. -/
def Found (marketIds : List Id) (markets : Db) (bookByMarket : Id → Option Id) (bookIds : List Id) : Prop :=
  bookByMarket = Db.bookOf markets ∧ bookIds = (marketIds.filterMap bookByMarket).dedup

/-- What the locals of the query thread hold. -/
def Working (trace : List Label) : Work → Prop
  | .connect marketIds | .markets marketIds => Reads marketIds trace []
  | .bids marketIds bookByMarket bookIds => ∃ markets, Reads marketIds trace [markets] ∧
      Found marketIds markets bookByMarket bookIds
  | .asks marketIds bookByMarket bookIds byBook => ∃ markets bids, Reads marketIds trace [markets, bids] ∧
      Found marketIds markets bookByMarket bookIds ∧
      ∀ id ∈ bookIds, (byBook id).getD {} = { bids := topLevelOf .buy id bids }
  | .trades marketIds bookByMarket bookIds byBook => ∃ markets bids asks, Reads marketIds trace [markets, bids, asks] ∧
      Found marketIds markets bookByMarket bookIds ∧
      ∀ id ∈ bookIds, (byBook id).getD {} = { bids := topLevelOf .buy id bids, asks := topLevelOf .sell id asks }
  | .publish books => Answered trace books
  | .report _ | .finish => True

theorem Answered.changed (h : Answered trace books) (db : Db) : Answered (trace ++ [.changed db]) books := by
  obtain ⟨marketIds, markets, bids, asks, trades, hreads, hbooks⟩ := h
  exact ⟨marketIds, markets, bids, asks, trades, hreads.changed db, hbooks⟩

theorem Working.changed (h : Working trace w) (db : Db) : Working (trace ++ [.changed db]) w := by
  cases w with
  | connect marketIds => exact Reads.changed h db
  | markets marketIds => exact Reads.changed h db
  | bids marketIds bookByMarket bookIds =>
    obtain ⟨markets, hreads, hfound⟩ := h
    exact ⟨markets, hreads.changed db, hfound⟩
  | asks marketIds bookByMarket bookIds byBook =>
    obtain ⟨markets, bids, hreads, hrest⟩ := h
    exact ⟨markets, bids, hreads.changed db, hrest⟩
  | trades marketIds bookByMarket bookIds byBook =>
    obtain ⟨markets, bids, asks, hreads, hrest⟩ := h
    exact ⟨markets, bids, asks, hreads.changed db, hrest⟩
  | publish books => exact Answered.changed h db
  | report error => trivial
  | finish => trivial

private theorem answered_markets (h : Reads marketIds trace [])
    (hnone : (marketIds.filterMap (Db.bookOf (current trace))).dedup = []) :
    Answered trace fun id => if id ∈ marketIds then some {} else none := by
  refine ⟨marketIds, _, _, _, _, h.read.read.read.read, fun id => ?_⟩
  by_cases hid : id ∈ marketIds
  · simp only [hid, if_true]
    cases hbook : Db.bookOf (current trace) id with
    | none => rfl
    | some bookId =>
      have hmem := List.mem_dedup.mpr (List.mem_filterMap.mpr ⟨id, hid, hbook⟩)
      rw [hnone] at hmem
      cases hmem
  · simp only [hid, if_false]

private theorem answered_trades {markets bids asks : Db} {bookByMarket : Id → Option Id} {bookIds : List Id}
    {byBook : Books}
    (hreads : Reads marketIds trace [markets, bids, asks]) (hfound : Found marketIds markets bookByMarket bookIds)
    (hbooks : ∀ id ∈ bookIds, (byBook id).getD {} =
      { bids := topLevelOf .buy id bids, asks := topLevelOf .sell id asks }) :
    Answered trace fun id => if id ∈ marketIds then
      some (((bookByMarket id).bind (setPrices (lastPrices bookIds (current trace)) byBook)).getD {}) else none := by
  obtain ⟨rfl, rfl⟩ := hfound
  refine ⟨marketIds, markets, bids, asks, _, hreads.read, fun id => ?_⟩
  by_cases hid : id ∈ marketIds
  · simp only [hid, if_true]
    cases hbook : Db.bookOf markets id with
    | none => rfl
    | some bookId =>
      have hmem := List.mem_dedup.mpr (List.mem_filterMap.mpr ⟨id, hid, hbook⟩)
      rw [Option.bind_some, setPrices_last hmem (by rw [hbooks bookId hmem]), hbooks bookId hmem]
      rfl
  · simp only [hid, if_false]

/-- A statement of the query thread reads the database of its moment, and fails only where the
connection does. -/
theorem Working.next (hreachable : Reachable settings (current trace)) (h : Working trace w) (failure : Option Error) :
    Working trace (w.next failure (current trace)) := by
  cases failure with
  | some error => trivial
  | none =>
    cases w with
    | connect marketIds =>
      by_cases hids : marketIds = []
      · have hnext : (Work.connect marketIds).next none (current trace) = .publish fun _ => none := by
          simp [Work.next, Work.query, hids, pure, Except.pure]
        rw [hnext]
        exact ⟨marketIds, _, _, _, _, (Reads.read h).read.read.read, fun id => by simp [hids]⟩
      · have hnext : (Work.connect marketIds).next none (current trace) = .markets marketIds := by
          simp [Work.next, Work.query, hids, pure, Except.pure]
        rw [hnext]
        exact h
    | markets marketIds =>
      by_cases hbooks : (marketIds.filterMap (Db.bookOf (current trace))).dedup = []
      · have hnext : (Work.markets marketIds).next none (current trace) =
            .publish fun id => if id ∈ marketIds then some {} else none := by
          simp [Work.next, Work.query, hbooks, pure, Except.pure]
        rw [hnext]
        exact answered_markets h hbooks
      · have hnext : (Work.markets marketIds).next none (current trace) = .bids marketIds (Db.bookOf (current trace))
            (marketIds.filterMap (Db.bookOf (current trace))).dedup := by
          simp [Work.next, Work.query, hbooks, pure, Except.pure]
        rw [hnext]
        exact ⟨_, Reads.read h, rfl, rfl⟩
    | bids marketIds bookByMarket bookIds =>
      obtain ⟨markets, hreads, hfound⟩ := h
      obtain ⟨byBook, hpush, hbids⟩ := pushLevels_top hreachable .buy bookIds fun _ => none
      have hnext : (Work.bids marketIds bookByMarket bookIds).next none (current trace) =
          .asks marketIds bookByMarket bookIds byBook := by
        simp [Work.next, Work.query, hpush, pure, Except.pure, bind, Except.bind]
      rw [hnext]
      exact ⟨markets, _, hreads.read, hfound, fun id hid => (hbids id hid).trans (pushAll_buy _)⟩
    | asks marketIds bookByMarket bookIds byBook =>
      obtain ⟨markets, bids, hreads, hfound, hbooks⟩ := h
      obtain ⟨byBook', hpush, hasks⟩ := pushLevels_top hreachable .sell bookIds byBook
      have hnext : (Work.asks marketIds bookByMarket bookIds byBook).next none (current trace) =
          .trades marketIds bookByMarket bookIds byBook' := by
        simp [Work.next, Work.query, hpush, pure, Except.pure, bind, Except.bind]
      rw [hnext]
      exact ⟨markets, bids, _, hreads.read, hfound, fun id hid => by rw [hasks id hid, hbooks id hid, pushAll_sell]⟩
    | trades marketIds bookByMarket bookIds byBook =>
      obtain ⟨markets, bids, asks, hreads, hfound, hbooks⟩ := h
      exact answered_trades hreads hfound hbooks
    | publish books => exact h
    | report error => trivial
    | finish => trivial

end Invariant

section Runs
variable {settings : Settings} {trace labels : List Label} {marketIds : List Id} {books : Books} {s s' : Plugin}
  {state : SnapshotState}

/-- Whatever was shown had answered the last question of its moment. -/
def Shown (trace : List Label) : Prop :=
  ∀ before books after, trace = before ++ .showed books :: after → Answered before books

theorem Shown.concat {label : Label} (h : Shown trace)
    (hlabel : ∀ books, label = .showed books → Answered trace books) :
    Shown (trace ++ [label]) := by
  intro before books after heq
  rcases List.eq_nil_or_concat after with rfl | ⟨earlier, last, rfl⟩
  · obtain ⟨rfl, hlast⟩ := List.append_inj' heq rfl
    exact hlabel books (List.singleton_inj.mp hlast)
  · rw [List.concat_eq_append, ← List.cons_append, ← List.append_assoc] at heq
    exact h before books earlier (List.append_inj_left' heq rfl)

structure Sound (settings : Settings) (trace : List Label) (s : Plugin) : Prop where
  shown : Shown trace
  db : current trace = s.db
  reachable : Reachable settings s.db
  working : ∀ w, s.worker = some w → Working trace w
  gone : s.hologramSnapshotState = none → s.worker = none ∧ s.ready = false
  running : ∀ state, s.hologramSnapshotState = some state → state.queryRunning = s.worker.isSome
  joinable : ∀ state, s.hologramSnapshotState = some state → s.worker.isSome → state.joinable
  ready : ∀ state books, s.hologramSnapshotState = some state → state.readySnapshot = some books →
    Answered trace books ∧ (s.worker = none ∨ s.worker = some .finish)

theorem current_concat (trace : List Label) (label : Label) :
    current (trace ++ [label]) = match label with | .changed db => db | _ => current trace :=
  List.foldl_concat ..

theorem Sound.call (h : Sound settings trace s) {db : Db} (hdb : Reachable settings db) :
    Sound settings (trace ++ [.changed db]) { s with db } where
  shown := h.shown.concat fun _ heq => nomatch heq
  db := current_concat ..
  reachable := hdb
  working := fun w hw => (h.working w hw).changed db
  gone := h.gone
  running := h.running
  joinable := h.joinable
  ready := fun state books hstate hbooks => ⟨(h.ready state books hstate hbooks).1.changed db,
    (h.ready state books hstate hbooks).2⟩

/-- The plugin takes the answer and shows it. -/
theorem Sound.take (h : Sound settings trace s) (hstate : s.hologramSnapshotState = some state) :
    Sound settings (trace ++ state.readySnapshot.toList.map .showed) { s with
      hologramBooks := state.readySnapshot.getD s.hologramBooks
      hologramSnapshotState := some { state with readySnapshot := none, error := none } } := by
  cases hready : state.readySnapshot with
  | none =>
    rw [Option.toList_none, List.map_nil, List.append_nil]
    exact ⟨h.shown, h.db, h.reachable, h.working, fun hnone => (nomatch hnone),
      fun _ heq => Option.some.inj heq ▸ h.running state hstate,
      fun _ heq => Option.some.inj heq ▸ h.joinable state hstate,
      fun _ _ heq hbooks => by rw [← Option.some.inj heq] at hbooks; cases hbooks⟩
  | some books =>
    obtain ⟨hanswered, hidle⟩ := h.ready state books hstate hready
    refine ⟨h.shown.concat fun _ heq => by cases heq; exact hanswered, (current_concat ..).trans h.db, h.reachable,
      fun w hw => ?_, fun hnone => (nomatch hnone), fun _ heq => Option.some.inj heq ▸ h.running state hstate,
      fun _ heq => Option.some.inj heq ▸ h.joinable state hstate,
      fun _ _ heq hbooks => by rw [← Option.some.inj heq] at hbooks; cases hbooks⟩
    rcases hidle with hnone | hfinish
    · cases hnone.symm.trans hw
    · cases hfinish.symm.trans hw
      trivial

theorem Sound.ask (h : Sound settings trace s) (hready : state.readySnapshot = none) (marketIds : List Id) :
    Sound settings (trace ++ [.asked marketIds]) { s with
      hologramSnapshotState := some { state with queryRunning := true, joinable := true }
      worker := some (.connect marketIds) } where
  shown := h.shown.concat fun _ heq => nomatch heq
  db := (current_concat ..).trans h.db
  reachable := h.reachable
  working := fun w hw => by cases hw; exact .asked trace
  gone := fun hnone => nomatch hnone
  running := fun _ heq => by rw [← Option.some.inj heq]; rfl
  joinable := fun _ heq _ => by rw [← Option.some.inj heq]
  ready := fun _ _ heq hbooks => by rw [← Option.some.inj heq, hready] at hbooks; cases hbooks

theorem refreshHolograms_sound (h : Sound settings trace s) (marketIds : List Id) (displays starts : Bool) :
    ∃ labels s', refreshHolograms marketIds displays starts s = some (labels, s') ∧
      Sound settings (trace ++ labels) s' := by
  unfold refreshHolograms
  split
  · rename_i state _ hstate
    have htaken := h.take hstate
    simp only
    split_ifs with hstop hwait hstarts
    · exact ⟨_, _, rfl, htaken⟩
    · rw [h.running state hstate] at hstop
      exact absurd (.inr (.inr hwait.2)) hstop
    · refine ⟨_, _, rfl, ?_⟩
      rw [← List.append_assoc]
      exact @Sound.ask settings _ _ { state with readySnapshot := none, error := none } htaken rfl marketIds
    · have hidle : s.worker.isSome = false := by
        rw [← h.running state hstate]
        exact Bool.eq_false_iff.mpr fun hrun => hstop (.inr (.inr hrun))
      refine ⟨_, _, rfl, htaken.shown, htaken.db, htaken.reachable, htaken.working, fun hnone => (nomatch hnone),
        fun _ heq => ?_, fun _ _ hworker => ?_, fun _ _ heq hbooks => ?_⟩
      · rw [← Option.some.inj heq]
        exact hidle.symm
      · exact absurd hworker (Bool.eq_false_iff.mp hidle)
      · rw [← Option.some.inj heq] at hbooks
        cases hbooks
  · exact ⟨[], s, rfl, by rwa [List.append_nil]⟩

/-- The thread goes on without a change of the shared state. -/
theorem Sound.next (h : Sound settings trace s) {w : Work} (hworker : s.worker = some w) (hbusy : w ≠ .finish)
    (failure : Option Error) : Sound settings trace { s with worker := some (w.next failure s.db) } where
  shown := h.shown
  db := h.db
  reachable := h.reachable
  working := fun _ heq => by
    cases heq
    rw [← h.db]
    exact (h.working w hworker).next (h.db ▸ h.reachable) failure
  gone := fun hnone => by cases (h.gone hnone).1.symm.trans hworker
  running := fun state hstate => (h.running state hstate).trans (by rw [hworker]; rfl)
  joinable := fun state hstate _ => h.joinable state hstate (by rw [hworker]; rfl)
  ready := fun state books hstate hbooks => by
    rcases (h.ready state books hstate hbooks).2 with hnone | hfinish
    · cases hnone.symm.trans hworker
    · cases hfinish.symm.trans hworker
      exact absurd rfl hbusy

theorem work_sound (h : Sound settings trace s) (failure : Option Error) :
    ∃ s', work failure s = some s' ∧ Sound settings trace s' := by
  unfold work
  split
  · exact ⟨s, rfl, h⟩
  · rename_i books state hworker hstate
    refine ⟨_, rfl, h.shown, h.db, h.reachable, fun _ heq => by cases heq; trivial, fun hnone => (nomatch hnone),
      fun st heq => ?_, fun st heq _ => ?_, fun st found heq hbooks => ?_⟩
    · have hrun := h.running state hstate
      rw [hworker] at hrun
      split_ifs at heq <;> (cases heq; exact hrun)
    · have hjoin := h.joinable state hstate (by rw [hworker]; rfl)
      split_ifs at heq <;> (cases heq; exact hjoin)
    · refine ⟨?_, .inr rfl⟩
      split_ifs at heq with hstop <;> cases heq
      · exact (h.ready state found hstate hbooks).1
      · cases hbooks
        exact h.working _ hworker
  · rename_i error state hworker hstate
    refine ⟨_, rfl, h.shown, h.db, h.reachable, fun _ heq => by cases heq; trivial, fun hnone => (nomatch hnone),
      fun st heq => ?_, fun st heq _ => ?_, fun st found heq hbooks => ?_⟩
    · have hrun := h.running state hstate
      rw [hworker] at hrun
      split_ifs at heq <;> (cases heq; exact hrun)
    · have hjoin := h.joinable state hstate (by rw [hworker]; rfl)
      split_ifs at heq <;> (cases heq; exact hjoin)
    · refine ⟨?_, .inr rfl⟩
      split_ifs at heq with hstop <;> cases heq <;> exact (h.ready state found hstate hbooks).1
  · rename_i state hworker hstate
    refine ⟨_, rfl, h.shown, h.db, h.reachable, fun _ heq => (nomatch heq), fun hnone => (nomatch hnone),
      fun _ heq => by rw [← Option.some.inj heq]; rfl, fun _ _ hsome => (nomatch hsome), fun _ books heq hbooks => ?_⟩
    rw [← Option.some.inj heq] at hbooks
    exact ⟨(h.ready state books hstate hbooks).1, .inl rfl⟩
  · rename_i w state _ _ hbusy hworker hstate
    exact ⟨_, rfl, h.next hworker (fun heq => hbusy heq) failure⟩
  · rename_i w hworker hnone
    cases (h.gone hnone).1.symm.trans hworker

private theorem disable_sound (h : Sound settings trace s) : Sound settings trace (disable s) := by
  refine ⟨h.shown, h.db, h.reachable, h.working, fun hnone => ⟨(h.gone (Option.map_eq_none_iff.mp hnone)).1, rfl⟩,
    fun _ heq => ?_, fun _ heq => ?_, fun _ books heq hbooks => ?_⟩
  · obtain ⟨state, hstate, rfl⟩ := Option.map_eq_some_iff.mp heq
    exact h.running state hstate
  · obtain ⟨state, hstate, rfl⟩ := Option.map_eq_some_iff.mp heq
    exact h.joinable state hstate
  · obtain ⟨state, hstate, rfl⟩ := Option.map_eq_some_iff.mp heq
    exact h.ready state books hstate hbooks

private theorem join_sound (h : Sound settings trace s) (hjoin : join s = some s') : Sound settings trace s' := by
  unfold join at hjoin
  split at hjoin
  · cases hjoin
    exact h
  · rename_i hready
    split at hjoin
    · rename_i state hstate
      split_ifs at hjoin with hwait
      cases hjoin
      have hidle : s.worker = none := by
        cases hworker : s.worker with
        | none => rfl
        | some w => exact absurd ⟨h.joinable state hstate (by rw [hworker]; rfl), by rw [hworker]; rfl⟩ hwait
      exact ⟨h.shown, h.db, h.reachable, h.working, fun _ => ⟨hidle, Bool.eq_false_iff.mpr hready⟩, fun _ heq => (nomatch heq),
        fun _ heq => (nomatch heq), fun _ _ heq => (nomatch heq)⟩
    · cases hjoin
      exact h

theorem Run.sound (h : Run settings trace s) : Sound settings trace s := by
  induction h with
  | start hdb =>
    refine ⟨(fun before _ after heq => ?_ : Shown _), rfl, hdb, fun _ heq => (nomatch heq), fun hnone => (nomatch hnone),
      fun _ heq => by rw [← Option.some.inj heq]; rfl, fun _ _ hsome => (nomatch hsome),
      fun _ _ heq hbooks => by rw [← Option.some.inj heq] at hbooks; cases hbooks⟩
    cases before with
    | nil => cases heq
    | cons _ before => cases before <;> cases heq
  | @step trace labels s s' h e hs ih =>
    cases e with
    | call c faults =>
      simp only [HologramSnapshots.step] at hs
      split_ifs at hs <;> cases hs
      · exact ih.call (ih.reachable.call c faults)
      · rwa [List.append_nil]
    | refresh marketIds displays starts =>
      obtain ⟨labels', t, hrefresh, hsound⟩ := refreshHolograms_sound ih marketIds displays starts
      cases hs.symm.trans hrefresh
      exact hsound
    | work failure =>
      obtain ⟨t, hwork, hsound⟩ := work_sound ih failure
      simp only [HologramSnapshots.step, hwork, Option.map_some] at hs
      cases hs
      rwa [List.append_nil]
    | disable =>
      cases hs
      rw [List.append_nil]
      exact disable_sound ih
    | join =>
      obtain ⟨t, hjoin, heq⟩ := Option.map_eq_some_iff.mp hs
      cases heq
      rw [List.append_nil]
      exact join_sound ih hjoin

/-- How many steps the query thread has left at most. -/
def Work.left : Work → ℕ
  | .connect _ => 7
  | .markets _ => 6
  | .bids .. => 5
  | .asks .. => 4
  | .trades .. => 3
  | .publish _ | .report _ => 2
  | .finish => 1

def left (s : Plugin) : ℕ := s.worker.elim 0 Work.left

private theorem next_left (failure : Option Error) (db : Db) (w : Work) (hbusy : 2 < w.left) :
    (w.next failure db).left < w.left := by
  cases failure with
  | some error => exact hbusy
  | none =>
    cases w with
    | connect marketIds =>
      by_cases hids : marketIds = [] <;> simp [Work.next, Work.query, hids, pure, Except.pure, Work.left]
    | markets marketIds =>
      by_cases hbooks : (marketIds.filterMap (Db.bookOf db)).dedup = [] <;>
        simp [Work.next, Work.query, hbooks, pure, Except.pure, Work.left]
    | bids marketIds bookByMarket bookIds =>
      cases hpush : pushLevels .buy (topLevels .buy bookIds db) fun _ => none <;>
        simp [Work.next, Work.query, hpush, pure, Except.pure, bind, Except.bind, Work.left]
    | asks marketIds bookByMarket bookIds byBook =>
      cases hpush : pushLevels .sell (topLevels .sell bookIds db) byBook <;>
        simp [Work.next, Work.query, hpush, pure, Except.pure, bind, Except.bind, Work.left]
    | trades marketIds bookByMarket bookIds byBook => exact Nat.lt_succ_self 2
    | publish books => exact absurd hbusy (lt_irrefl 2)
    | report error => exact absurd hbusy (lt_irrefl 2)
    | finish => exact absurd hbusy (by decide)

private theorem work_left {failure : Option Error} (hwork : work failure s = some s') : left s' ≤ left s - 1 := by
  unfold work at hwork
  split at hwork
  · rename_i hworker
    cases hwork
    rw [left, hworker]
    exact le_refl 0
  · rename_i hworker _
    cases hwork
    rw [left, left, hworker]
    exact le_refl 1
  · rename_i hworker _
    cases hwork
    rw [left, left, hworker]
    exact le_refl 1
  · cases hwork
    exact Nat.zero_le _
  · rename_i w _ hpublish hreport hfinish hworker _
    cases hwork
    have hbusy : 2 < w.left := by
      cases w with
      | publish books => exact absurd rfl (hpublish books)
      | report error => exact absurd rfl (hreport error)
      | finish => exact absurd rfl hfinish
      | _ => simp [Work.left]
    rw [left, left, hworker]
    exact Nat.le_sub_one_of_lt (next_left failure s.db w hbusy)
  · cases hwork

private theorem works_idle (failures : List (Option Error)) (h : Sound settings trace s)
    (hleft : left s ≤ failures.length) :
    ∃ s', failures.foldlM (fun s failure => work failure s) s = some s' ∧ s'.worker = none := by
  induction failures generalizing s with
  | nil =>
    refine ⟨s, rfl, ?_⟩
    cases hworker : s.worker with
    | none => rfl
    | some w =>
      rw [left, hworker] at hleft
      cases w <;> cases hleft
  | cons failure failures ih =>
    obtain ⟨t, hwork, hsound⟩ := work_sound h failure
    obtain ⟨s', hworks, hidle⟩ := ih hsound (by
      have := work_left hwork
      rw [List.length_cons] at hleft
      omega)
    exact ⟨s', by rw [List.foldlM_cons, hwork]; exact hworks, hidle⟩

private theorem left_le (s : Plugin) : left s ≤ 7 := by
  rw [left]
  cases s.worker with
  | none => exact Nat.zero_le 7
  | some w => cases w <;> simp [Work.left]

/-- What the holograms show answers the last question, each statement at its own moment; the server
never waits for the thread, the thread always ends, and then the next refresh asks again. -/
theorem snapshots_sound (h : Run settings trace s) :
    (∀ before books after, trace = before ++ .showed books :: after → Answered before books) ∧
      (∀ marketIds displays starts, (refreshHolograms marketIds displays starts s).isSome) ∧
      (∀ failures : List (Option Error), 7 ≤ failures.length →
        ∃ s', failures.foldlM (fun s failure => work failure s) s = some s' ∧ s'.worker = none) ∧
      (s.ready = true → s.worker = none → ∀ marketIds, marketIds ≠ [] →
        ∃ labels s', refreshHolograms marketIds true true s = some (labels ++ [.asked marketIds], s')) := by
  have hsound := h.sound
  refine ⟨hsound.shown, fun marketIds displays starts => ?_,
    fun failures hlength => works_idle failures hsound ((left_le s).trans hlength),
    fun hready hidle marketIds hids => ?_⟩
  · obtain ⟨labels, s', hrefresh, -⟩ := refreshHolograms_sound hsound marketIds displays starts
    rw [hrefresh]
    rfl
  · cases hstate : s.hologramSnapshotState with
    | none => cases (hsound.gone hstate).2.symm.trans hready
    | some state =>
      have hrunning : state.queryRunning = false := by rw [hsound.running state hstate, hidle]; rfl
      simp [refreshHolograms, hready, hstate, hids, hrunning, hidle]

/-- The events one after the other; one that has to wait is left out. -/
def afterEvents (settings : Settings) : List Event → List Label × Plugin → List Label × Plugin
  | [], r => r
  | e :: es, r =>
    match step settings r.2 e with
    | some (labels, s) => afterEvents settings es (r.1 ++ labels, s)
    | none => afterEvents settings es r

theorem run_afterEvents (es : List Event) {r : List Label × Plugin} (h : Run settings r.1 r.2) :
    Run settings (afterEvents settings es r).1 (afterEvents settings es r).2 := by
  induction es generalizing r with
  | nil => exact h
  | cons e es ih =>
    rw [afterEvents]
    cases hstep : step settings r.2 e with
    | none => exact ih h
    | some r' => exact ih (h.step e hstep)

end Runs

section Sample

/-- A buyer takes the only ask after the query thread has read the bids. -/
def lateBuyer : List Label × Plugin :=
  let db := afterCalls sampleSettings [.activateMarket (diamondMarket "block"),
    .placeOrder (diamondOrder "alice" .sell .limit 600 4)]
  afterEvents sampleSettings [.refresh [1] true true, .work none, .work none, .work none,
    .call (.placeOrder (diamondOrder "bob" .buy .limit 700 6)) [], .work none, .work none, .work none, .work none,
    .refresh [1] true true] ([.changed db], { db })

theorem snapshots_sound_of_lateBuyer :
    (∀ before books after, lateBuyer.1 = before ++ .showed books :: after → Answered before books) ∧
      (∀ marketIds displays starts, (refreshHolograms marketIds displays starts lateBuyer.2).isSome) ∧
      (∀ failures : List (Option Error), 7 ≤ failures.length →
        ∃ s', failures.foldlM (fun s failure => work failure s) lateBuyer.2 = some s' ∧ s'.worker = none) ∧
      (lateBuyer.2.ready = true → lateBuyer.2.worker = none → ∀ marketIds, marketIds ≠ [] →
        ∃ labels s', refreshHolograms marketIds true true lateBuyer.2 = some (labels ++ [.asked marketIds], s')) :=
  snapshots_sound (run_afterEvents _ (.start (reachable_afterCalls _ _)))

/-- Neither side was empty at any moment, but the two sides are read at different ones. -/
example : lateBuyer.2.hologramBooks 1 = some { lastPriceCents := some 600 } := by decide +kernel

end Sample

end EndstoneExchange.HologramSnapshots
