import EndstoneExchange.ConfigWriting
import EndstoneExchange.ServiceRuns
import EndstoneExchange.TradeDrafts
import Mathlib.Data.Finset.Insert
import Mathlib.Data.Multiset.AddSub

/-!
# Trade dialogs

A player is led from the trade form to the input form, to the review form and to the order.
Every form is opened by a task of the next tick, and at most one form of a player may be open.
Between any two steps the market, the books and the players online may change.
-/
namespace EndstoneExchange.TradeDialogs
open CheckedIntegers AsciiNumerals NearestGridPoints LocalizedMessages ExchangeDomain ExchangeTransactions TradeForm
  OrderBookQueries TradeDrafts
open ConfigFiles (Config load load_sound)

section Server

structure Player where
  uuid : String
  name : String
  uuid_ne : uuid ≠ ""
  name_ne : name ≠ ""
  deriving DecidableEq, Repr

inductive Task where
  | tradeForm (marketId : Id)
  | inputForm (marketId : Id) (draft : TradeDraft)
  | reviewForm (marketId : Id) (draft : TradeDraft)
  | submission (marketId : Id) (draft : TradeDraft)
  deriving DecidableEq, Repr

/-- A form that was sent, with what its callbacks hold; the review shows a total. -/
inductive Form where
  | trade (marketId : Id) (actions : List TradeAction) (defaultPrice : Cents)
  | input (marketId : Id) (draft : TradeDraft)
  | review (marketId : Id) (draft : TradeDraft) (total : Option Cents)
  deriving DecidableEq, Repr

/-- What a player is told instead of being led on. -/
inductive Notice where
  | tradePointClosed
  | matchingOrderGone
  | openFailed (e : Thrown)
  | inputInvalid (e : Thrown)
  | tradeFailed (e : Thrown)
  deriving DecidableEq, Repr

/-- What a handler finds when it runs: `markets_`, the database, and the exception of a call
that fails for another reason. -/
structure World where
  ready : Bool
  online : Player → Bool
  markets : Finset Id
  markets_ne : 0 ∉ markets
  db : Db
  failure : Option String := none
  language : Language

/-- `open_trade_forms_`, the scheduled tasks, the forms sent, the messages, and the requests
handed to the service. The confirmed drafts are only recorded. -/
structure Dialogs where
  openTradeForms : Finset String := ∅
  tasks : List (Player × Task) := []
  forms : List (Player × Form) := []
  notices : List (Player × Notice) := []
  orders : List OrderRequest := []
  confirmed : List (Player × Id × TradeDraft) := []
  deriving DecidableEq

end Server

section Handlers
variable (config : Config) (world : World)

def Dialogs.lock (player : Player) (s : Dialogs) : Dialogs :=
  { s with openTradeForms := insert player.uuid s.openTradeForms }

def Dialogs.unlock (player : Player) (s : Dialogs) : Dialogs :=
  { s with openTradeForms := s.openTradeForms.erase player.uuid }

def Dialogs.queue (player : Player) (task : Task) (s : Dialogs) : Dialogs :=
  { s with tasks := s.tasks ++ [(player, task)] }

def Dialogs.sendForm (player : Player) (form : Form) (s : Dialogs) : Dialogs :=
  { s with forms := s.forms ++ [(player, form)] }

def Dialogs.tell (player : Player) (notice : Notice) (s : Dialogs) : Dialogs :=
  { s with notices := s.notices ++ [(player, notice)] }

def Dialogs.confirm (player : Player) (marketId : Id) (draft : TradeDraft) (s : Dialogs) : Dialogs :=
  { s with confirmed := s.confirmed ++ [(player, marketId, draft)] }

def Dialogs.place (request : OrderRequest) (s : Dialogs) : Dialogs := { s with orders := s.orders ++ [request] }

/-- `try` and `catch`: an exception is handled, an overflow is not. -/
def attempt {α : Type} (body : Checked Thrown α) (handler : Thrown → α) : Checked Empty α :=
  match body with
  | .ok a => .ok a
  | .error (.raised e) => .ok (handler e)
  | .error .overflow => .error .overflow

def World.orderBook (marketId : Id) (depth : ℤ) : Checked Thrown OrderBook :=
  match world.failure, OrderBookQueries.orderBook marketId depth world.db with
  | some what, _ => raise (.runtimeError what)
  | none, .ok book => .ok book
  | none, .error (.runtime what) => raise (.runtimeError what)
  | none, .error (.database what) => raise (.runtimeError what)

def openTradeForm (player : Player) (marketId : Id) (s : Dialogs) : Checked Empty Dialogs :=
  if player.uuid ∈ s.openTradeForms then .ok s
  else
    let s := s.lock player
    if marketId ∉ world.markets then .ok ((s.unlock player).tell player .tradePointClosed)
    else
      attempt (do
          let book ← world.orderBook marketId config.market.orderBookDepth
          let defaultPrice ← defaultTradePrice config.market.priceMinCents config.market.priceMaxCents
            config.market.priceStepCents (referencePrice book)
          return s.sendForm player (.trade marketId (actionsOf book) defaultPrice))
        fun e => (s.unlock player).tell player (.openFailed e)

def openTradeInputForm (player : Player) (marketId : Id) (draft : TradeDraft) (s : Dialogs) : Checked Empty Dialogs :=
  if player.uuid ∈ s.openTradeForms then .ok s
  else
    let s := s.lock player
    if marketId ∉ world.markets then .ok ((s.unlock player).tell player .tradePointClosed)
    else
      attempt (do
          let book ← world.orderBook marketId 1
          if draft.action ∉ actionsOf book then
            return ((s.unlock player).tell player .matchingOrderGone).queue player (.tradeForm marketId)
          else return s.sendForm player (.input marketId draft))
        fun e => (s.unlock player).tell player (.openFailed e)

def openTradeReviewForm (player : Player) (marketId : Id) (draft : TradeDraft) (s : Dialogs) :
    Checked Empty Dialogs :=
  if player.uuid ∈ s.openTradeForms then .ok s
  else
    let s := s.lock player
    if marketId ∉ world.markets then .ok ((s.unlock player).tell player .tradePointClosed)
    else
      attempt (do
          let book ← world.orderBook marketId 1
          if draft.action ∉ actionsOf book then
            return ((s.unlock player).tell player .matchingOrderGone).queue player (.tradeForm marketId)
          else do
            let total ← reviewTotal draft
            return s.sendForm player (.review marketId draft total))
        fun e => (s.unlock player).tell player (.openFailed e)

/-- `submitTradeDraft` up to the request that it hands to the service. -/
def submittedRequest (player : Player) (marketId : Id) (draft : TradeDraft) : Checked Thrown OrderRequest := do
  checkDraft config.market world.language draft
  if marketId ∉ world.markets then raise (.userError (tr world.language .tradePointClosed []))
  else do
    if ¬ tradeActionUsesPrice draft.action then do
      let book ← world.orderBook marketId 1
      if draft.action ∉ actionsOf book then raise (.userError (tr world.language .matchingOrderGone []))
      else return draftRequest marketId player.uuid player.name draft
    else return draftRequest marketId player.uuid player.name draft

def submitTradeDraft (player : Player) (marketId : Id) (draft : TradeDraft) (s : Dialogs) : Checked Empty Dialogs :=
  attempt (do return s.place (← submittedRequest config world player marketId draft))
    fun e => s.tell player (.tradeFailed e)

def runTask (player : Player) (s : Dialogs) : Task → Checked Empty Dialogs
  | .tradeForm marketId => openTradeForm config world player marketId s
  | .inputForm marketId draft => openTradeInputForm world player marketId draft s
  | .reviewForm marketId draft => openTradeReviewForm world player marketId draft s
  | .submission marketId draft => submitTradeDraft config world player marketId draft s

/-- What a client does with a form. -/
inductive Answer where
  | close
  | button (index : ℕ)
  | text (response : Bytes)
  | selection (index : ℤ)
  deriving DecidableEq, Repr

/-- The callbacks of the forms; a callback that finds the plugin or the player gone only
releases the lock. -/
def answered (player : Player) (form : Form) (answer : Answer) (s : Dialogs) : Checked Empty Dialogs :=
  match form, answer with
  | .trade marketId actions defaultPrice, .button index =>
    match actions[index]? with
    | some action =>
      if world.ready ∧ world.online player then
        .ok (s.queue player (.inputForm marketId (openingDraft action defaultPrice)))
      else .ok s
    | none => .ok s
  | .input marketId draft, .text response =>
    if world.ready ∧ world.online player then
      attempt (do
          let updated ← submittedDraft config.market world.language draft response
          return s.queue player (.reviewForm marketId updated))
        fun e => (s.tell player (.inputInvalid e)).queue player (.inputForm marketId draft)
    else .ok s
  | .review marketId draft _, .selection index =>
    if world.ready ∧ world.online player then
      if index = 0 then .ok ((s.confirm player marketId draft).queue player (.submission marketId draft))
      else .ok (s.queue player (.inputForm marketId draft))
    else .ok s
  | _, _ => .ok s

inductive Event where
  | interact (player : Player) (marketId : Id)
  | task (index : ℕ) (world : World)
  | answer (index : ℕ) (answer : Answer) (world : World)
  | quit (player : Player)
  | join (player : Player) (world : World)

/-- A form is answered or closed once; the forms of a player who leaves are gone. -/
def handle (config : Config) (s : Dialogs) : Event → Checked Empty Dialogs
  | .interact player marketId => .ok (s.queue player (.tradeForm marketId))
  | .task index world =>
    match s.tasks[index]? with
    | none => .ok s
    | some (player, task) =>
      let s := { s with tasks := s.tasks.eraseIdx index }
      if world.ready ∧ world.online player then runTask config world player s task else .ok s
  | .answer index answer world =>
    match s.forms[index]? with
    | none => .ok s
    | some (player, form) =>
      answered config world player form answer
        (({ s with forms := s.forms.eraseIdx index } : Dialogs).unlock player)
  | .quit player => .ok (({ s with forms := s.forms.filter (·.1.uuid ≠ player.uuid) } : Dialogs).unlock player)
  | .join player world => .ok (if world.ready then s.unlock player else s)

/-- A player who joins has no form yet. -/
def Event.Possible (s : Dialogs) : Event → Prop
  | .join player _ => ∀ e ∈ s.forms, e.1.uuid ≠ player.uuid
  | _ => True

inductive Run (config : Config) : Dialogs → Dialogs → Prop where
  | refl {s : Dialogs} : Run config s s
  | step {s s' s'' : Dialogs} (event : Event) (hrun : Run config s s') (hpossible : event.Possible s')
      (hstep : handle config s' event = .ok s'') : Run config s s''

end Handlers

section Invariant
variable (config : Config)

def requested (e : Player × Id × TradeDraft) : OrderRequest := draftRequest e.2.1 e.1.uuid e.1.name e.2.2

def submissionOf : Player × Task → Option OrderRequest
  | (player, .submission marketId draft) => some (requested (player, marketId, draft))
  | _ => none

/-- The requests of the submissions that have not run yet. -/
def Dialogs.waiting (s : Dialogs) : Multiset OrderRequest := s.tasks.filterMap submissionOf

def Task.Legal : Task → Prop
  | .tradeForm _ => True
  | .inputForm _ draft | .reviewForm _ draft | .submission _ draft => TradeDrafts.Legal config.market draft

def totalOf (draft : TradeDraft) : Option Cents :=
  if tradeActionUsesPrice draft.action then some (draft.priceCents * draft.quantity) else none

def Form.Legal : Form → Prop
  | .trade _ _ defaultPrice =>
    defaultPrice ∈ grid config.market.priceMinCents config.market.priceMaxCents config.market.priceStepCents
  | .input _ draft => TradeDrafts.Legal config.market draft
  | .review _ draft total => TradeDrafts.Legal config.market draft ∧ total = totalOf draft

/-- Only an entry is the player's fault; between the forms a market or an order may be gone. -/
def Notice.Expected : Notice → Prop
  | .tradePointClosed | .matchingOrderGone => True
  | .openFailed e => ∃ what, e = .runtimeError what
  | .inputInvalid e => ∃ what, e = .userError what
  | .tradeFailed e => (∃ what, e = .runtimeError what) ∨
      ∃ language, e = .userError (tr language .tradePointClosed []) ∨
        e = .userError (tr language .matchingOrderGone [])

def Requested (request : OrderRequest) : Prop :=
  ∃ (player : Player) (marketId : Id) (draft : TradeDraft), marketId ≠ 0 ∧ TradeDrafts.Legal config.market draft ∧
    request = requested (player, marketId, draft)

/-- A lock belongs to the one open form of its player, drafts are legal, and orders were
confirmed. -/
structure Sound (s : Dialogs) : Prop where
  locked : ∀ uuid, uuid ∈ s.openTradeForms ↔ uuid ∈ s.forms.map (·.1.uuid)
  single : (s.forms.map (·.1.uuid)).Nodup
  tasks : ∀ e ∈ s.tasks, e.2.Legal config
  forms : ∀ e ∈ s.forms, e.2.Legal config
  notices : ∀ e ∈ s.notices, e.2.Expected
  orders : ∀ request ∈ s.orders, Requested config request
  placed : (s.orders : Multiset OrderRequest) + s.waiting ≤ s.confirmed.map requested

end Invariant

section Steps
variable {config : Config} {s : Dialogs} {player : Player} {marketId : Id} {draft : TradeDraft}

private theorem sound_start : Sound config {} where
  locked := fun uuid => by simp
  single := List.nodup_nil
  tasks := fun e he => absurd he List.not_mem_nil
  forms := fun e he => absurd he List.not_mem_nil
  notices := fun e he => absurd he List.not_mem_nil
  orders := fun request hrequest => absurd hrequest List.not_mem_nil
  placed := le_refl _

theorem forall_concat {α : Type} {p : α → Prop} {xs : List α} {x : α} (hxs : ∀ y ∈ xs, p y) (hx : p x) :
    ∀ y ∈ xs ++ [x], p y :=
  List.forall_mem_append.mpr ⟨hxs, List.forall_mem_singleton.mpr hx⟩

theorem Sound.tell {notice : Notice} (h : Sound config s) (hnotice : notice.Expected) :
    Sound config (s.tell player notice) :=
  ⟨h.locked, h.single, h.tasks, h.forms, forall_concat h.notices hnotice, h.orders, h.placed⟩

@[simp] theorem waiting_queue {task : Task} : (s.queue player task).waiting =
    s.waiting + ((submissionOf (player, task)).toList : Multiset OrderRequest) := by
  rw [Dialogs.waiting, Dialogs.queue, List.filterMap_append, ← Multiset.coe_add]
  cases hsubmission : submissionOf (player, task) <;> simp [Dialogs.waiting, hsubmission]

theorem Sound.queue {task : Task} (h : Sound config s) (htask : task.Legal config)
    (hother : submissionOf (player, task) = none) : Sound config (s.queue player task) := by
  refine ⟨h.locked, h.single, forall_concat h.tasks htask, h.forms, h.notices, h.orders, ?_⟩
  rw [waiting_queue, hother, Option.toList_none, Multiset.coe_nil, add_zero]
  exact h.placed

/-- A confirmation allows one order. -/
theorem Sound.confirm (h : Sound config s) (hdraft : Legal config.market draft) :
    Sound config ((s.confirm player marketId draft).queue player (.submission marketId draft)) := by
  refine ⟨h.locked, h.single, forall_concat h.tasks hdraft, h.forms, h.notices, h.orders, ?_⟩
  rw [waiting_queue]
  have hone : ((submissionOf (player, .submission marketId draft)).toList : Multiset OrderRequest) =
      {requested (player, marketId, draft)} := rfl
  have hconfirmed : (((s.confirm player marketId draft).queue player (.submission marketId draft)).confirmed.map
      requested : Multiset OrderRequest) = s.confirmed.map requested + {requested (player, marketId, draft)} := by
    simp [Dialogs.confirm, Dialogs.queue, ← Multiset.coe_add]
  rw [hone, hconfirmed, ← add_assoc]
  exact add_le_add_left h.placed _

theorem lock_unlock (hfree : player.uuid ∉ s.openTradeForms) : (s.lock player).unlock player = s := by
  rw [Dialogs.unlock, Dialogs.lock, Finset.erase_insert hfree]

theorem Sound.sendForm {form : Form} (h : Sound config s) (hfree : player.uuid ∉ s.openTradeForms)
    (hform : form.Legal config) : Sound config ((s.lock player).sendForm player form) := by
  refine ⟨fun uuid => ?_, ?_, h.tasks, forall_concat h.forms hform, h.notices, h.orders, h.placed⟩
  · simp only [Dialogs.sendForm, Dialogs.lock, List.map_append, List.mem_append, List.map_cons, List.map_nil,
      List.mem_singleton, Finset.mem_insert, h.locked uuid]
    exact or_comm
  · simp only [Dialogs.sendForm, Dialogs.lock, List.map_append, List.map_cons, List.map_nil]
    rw [List.nodup_append_comm, List.singleton_append, List.nodup_cons]
    exact ⟨fun hmem => hfree ((h.locked _).mpr hmem), h.single⟩

/-- An answer takes the form away and releases the lock. -/
theorem Sound.release {index : ℕ} {form : Form} (h : Sound config s) (hget : s.forms[index]? = some (player, form)) :
    Sound config (({ s with forms := s.forms.eraseIdx index } : Dialogs).unlock player) := by
  obtain ⟨hlt, hat⟩ := List.getElem?_eq_some_iff.mp hget
  have hperm : ((player, form) :: s.forms.eraseIdx index).Perm s.forms := hat ▸ List.getElem_cons_eraseIdx_perm hlt
  have huuids := hperm.map (·.1.uuid)
  have hnodup := huuids.nodup_iff.mpr h.single
  rw [List.map_cons, List.nodup_cons] at hnodup
  refine ⟨fun uuid => ?_, hnodup.2, h.tasks, fun e he => h.forms e (List.mem_of_mem_eraseIdx he), h.notices, h.orders,
    h.placed⟩
  have hmem := huuids.mem_iff (a := uuid)
  rw [List.map_cons, List.mem_cons] at hmem
  simp only [Dialogs.unlock, Finset.mem_erase, h.locked uuid, ← hmem]
  constructor
  · rintro ⟨hne, heq | hrest⟩
    · exact absurd heq hne
    · exact hrest
  · intro hrest
    exact ⟨fun heq => hnodup.1 (heq ▸ hrest), .inr hrest⟩

theorem Sound.quit (h : Sound config s) (player : Player) : Sound config
    (({ s with forms := s.forms.filter (·.1.uuid ≠ player.uuid) } : Dialogs).unlock player) := by
  refine ⟨fun uuid => ?_, ?_, h.tasks, fun e he => h.forms e (List.mem_of_mem_filter he), h.notices, h.orders,
    h.placed⟩
  · simp only [Dialogs.unlock, Finset.mem_erase, h.locked uuid, List.mem_map, List.mem_filter, decide_eq_true_eq]
    constructor
    · rintro ⟨hne, e, he, rfl⟩
      exact ⟨e, ⟨he, hne⟩, rfl⟩
    · rintro ⟨e, ⟨he, hne⟩, rfl⟩
      exact ⟨hne, e, he, rfl⟩
  · exact h.single.sublist (List.filter_sublist.map _)

theorem Sound.join (h : Sound config s) (hnone : ∀ e ∈ s.forms, e.1.uuid ≠ player.uuid) : s.unlock player = s := by
  have hfree : player.uuid ∉ s.openTradeForms := by
    rw [h.locked, List.mem_map]
    rintro ⟨e, he, heq⟩
    exact hnone e he heq
  rw [Dialogs.unlock, Finset.erase_eq_of_notMem hfree]

/-- A task runs once: a submission that is taken may place its order. -/
theorem Sound.take {index : ℕ} {task : Task} (h : Sound config s) (hget : s.tasks[index]? = some (player, task)) :
    task.Legal config ∧ Sound config { s with tasks := s.tasks.eraseIdx index } ∧
      (s.orders : Multiset OrderRequest) + ((submissionOf (player, task)).toList +
        Dialogs.waiting { s with tasks := s.tasks.eraseIdx index }) ≤ s.confirmed.map requested := by
  obtain ⟨hlt, hat⟩ := List.getElem?_eq_some_iff.mp hget
  have hperm : ((player, task) :: s.tasks.eraseIdx index).Perm s.tasks := hat ▸ List.getElem_cons_eraseIdx_perm hlt
  have hwaiting : s.waiting = (submissionOf (player, task)).toList +
      Dialogs.waiting { s with tasks := s.tasks.eraseIdx index } := by
    rw [Dialogs.waiting, ← Multiset.coe_eq_coe.mpr (hperm.filterMap submissionOf), List.filterMap_cons]
    cases submissionOf (player, task) <;> rfl
  have hplaced := h.placed
  rw [hwaiting] at hplaced
  refine ⟨h.tasks _ (List.mem_of_getElem? hget), ?_, hplaced⟩
  refine ⟨h.locked, h.single, fun e he => h.tasks e (List.mem_of_mem_eraseIdx he), h.forms, h.notices, h.orders, ?_⟩
  exact (add_le_add_right (Multiset.le_add_left _ _) _).trans hplaced

theorem Sound.place {request : OrderRequest} (h : Sound config s) (hrequest : Requested config request)
    (hplaced : (s.orders : Multiset OrderRequest) + ({request} + s.waiting) ≤ s.confirmed.map requested) :
    Sound config (s.place request) := by
  refine ⟨h.locked, h.single, h.tasks, h.forms, h.notices, forall_concat h.orders hrequest, ?_⟩
  rw [← add_assoc] at hplaced
  exact hplaced

end Steps

section Tasks
variable {config : Config} {world : World} {s : Dialogs} {player : Player} {marketId : Id} {draft : TradeDraft}

/-- What is known of both outcomes of a `try` is known of the whole. -/
theorem attempt_ok {α : Type} {body : Checked Thrown α} {handler : Thrown → α} {p : α → Prop}
    (h : (∃ a, body = .ok a ∧ p a) ∨ ∃ e, body = raise e ∧ p (handler e)) :
    ∃ a, attempt body handler = .ok a ∧ p a := by
  rcases h with ⟨a, rfl, ha⟩ | ⟨e, rfl, he⟩
  · exact ⟨a, rfl, ha⟩
  · exact ⟨handler e, rfl, he⟩

theorem orderBook_cases (world : World) (marketId : Id) (depth : ℤ) :
    (∃ book, world.orderBook marketId depth = .ok book) ∨
      ∃ what, world.orderBook marketId depth = raise (.runtimeError what) := by
  unfold World.orderBook
  split
  case h_2 => exact .inl ⟨_, rfl⟩
  all_goals exact .inr ⟨_, rfl⟩

theorem Sound.openFailed {e : Thrown} (h : Sound config s) (hfree : player.uuid ∉ s.openTradeForms)
    (he : ∃ what, e = .runtimeError what) :
    Sound config (((s.lock player).unlock player).tell player (.openFailed e)) := by
  rw [lock_unlock hfree]
  exact h.tell he

theorem Sound.closed (h : Sound config s) (hfree : player.uuid ∉ s.openTradeForms) :
    Sound config (((s.lock player).unlock player).tell player .tradePointClosed) := by
  rw [lock_unlock hfree]
  exact h.tell trivial

theorem Sound.gone (h : Sound config s) (hfree : player.uuid ∉ s.openTradeForms) :
    Sound config ((((s.lock player).unlock player).tell player .matchingOrderGone).queue player
      (.tradeForm marketId)) := by
  rw [lock_unlock hfree]
  exact Sound.queue (h.tell trivial) trivial rfl

private theorem openTradeForm_sound (htyped : config.Typed) (hsound : config.Sound) (h : Sound config s) :
    ∃ s', openTradeForm config world player marketId s = .ok s' ∧ Sound config s' := by
  unfold openTradeForm
  split_ifs with hlocked hmarket
  · exact ⟨s, rfl, h⟩
  · refine attempt_ok ?_
    rcases orderBook_cases world marketId config.market.orderBookDepth with ⟨book, heq⟩ | ⟨what, heq⟩
    · obtain ⟨price, hprice, hok⟩ := suggestion_legal htyped hsound (referencePrice book)
      refine .inl ⟨_, ?_, @Sound.sendForm _ _ _ (.trade marketId (actionsOf book) price) h hlocked hprice⟩
      rw [heq, ok_bind, hok]
      rfl
    · exact .inr ⟨_, by rw [heq, raise_bind], h.openFailed hlocked ⟨what, rfl⟩⟩
  · exact ⟨_, rfl, h.closed hlocked⟩

private theorem openTradeInputForm_sound (h : Sound config s) (hdraft : Legal config.market draft) :
    ∃ s', openTradeInputForm world player marketId draft s = .ok s' ∧ Sound config s' := by
  unfold openTradeInputForm
  split_ifs with hlocked hmarket
  · exact ⟨s, rfl, h⟩
  · refine attempt_ok ?_
    rcases orderBook_cases world marketId 1 with ⟨book, heq⟩ | ⟨what, heq⟩
    · rw [heq, ok_bind]
      split_ifs with haction
      · exact .inl ⟨_, rfl, @Sound.sendForm _ _ _ (.input marketId draft) h hlocked hdraft⟩
      · exact .inl ⟨_, rfl, h.gone hlocked⟩
    · exact .inr ⟨_, by rw [heq, raise_bind], h.openFailed hlocked ⟨what, rfl⟩⟩
  · exact ⟨_, rfl, h.closed hlocked⟩

private theorem openTradeReviewForm_sound (hsound : config.Sound) (h : Sound config s)
    (hdraft : Legal config.market draft) :
    ∃ s', openTradeReviewForm world player marketId draft s = .ok s' ∧ Sound config s' := by
  unfold openTradeReviewForm
  split_ifs with hlocked hmarket
  · exact ⟨s, rfl, h⟩
  · refine attempt_ok ?_
    rcases orderBook_cases world marketId 1 with ⟨book, heq⟩ | ⟨what, heq⟩
    · rw [heq, ok_bind]
      split_ifs with haction
      · refine .inl ⟨_, ?_, @Sound.sendForm _ _ _ (.review marketId draft (totalOf draft)) h hlocked ⟨hdraft, rfl⟩⟩
        rw [reviewTotal_legal hdraft hsound]
        rfl
      · exact .inl ⟨_, rfl, h.gone hlocked⟩
    · exact .inr ⟨_, by rw [heq, raise_bind], h.openFailed hlocked ⟨what, rfl⟩⟩
  · exact ⟨_, rfl, h.closed hlocked⟩

/-- A legal draft is refused only where the market or the matching orders are gone. -/
theorem submittedRequest_cases (htyped : config.Typed) (hsound : config.Sound) (hdraft : Legal config.market draft)
    (world : World) (player : Player) (marketId : Id) :
    (marketId ≠ 0 ∧ submittedRequest config world player marketId draft =
      .ok (requested (player, marketId, draft))) ∨
    ∃ e, (Notice.tradeFailed e).Expected ∧ submittedRequest config world player marketId draft = raise e := by
  unfold submittedRequest
  rw [checkDraft_legal hdraft htyped hsound, ok_bind]
  split_ifs with hmarket hprice
  · exact .inl ⟨fun hzero => world.markets_ne (hzero ▸ hmarket), rfl⟩
  · rcases orderBook_cases world marketId 1 with ⟨book, heq⟩ | ⟨what, heq⟩
    · rw [heq, ok_bind]
      split_ifs with haction
      · exact .inl ⟨fun hzero => world.markets_ne (hzero ▸ hmarket), rfl⟩
      · exact .inr ⟨_, .inr ⟨world.language, .inr rfl⟩, rfl⟩
    · exact .inr ⟨_, .inl ⟨what, rfl⟩, by rw [heq, raise_bind]⟩
  · exact .inr ⟨_, .inr ⟨world.language, .inl rfl⟩, rfl⟩

private theorem runTask_sound (htyped : config.Typed) (hsound : config.Sound) {task : Task} (h : Sound config s)
    (htask : task.Legal config) (hplaced : (s.orders : Multiset OrderRequest) +
      ((submissionOf (player, task)).toList + s.waiting) ≤ s.confirmed.map requested) :
    ∃ s', runTask config world player s task = .ok s' ∧ Sound config s' := by
  cases task with
  | tradeForm marketId => exact openTradeForm_sound htyped hsound h
  | inputForm marketId draft => exact openTradeInputForm_sound h htask
  | reviewForm marketId draft => exact openTradeReviewForm_sound hsound h htask
  | submission marketId draft =>
    refine attempt_ok ?_
    rcases submittedRequest_cases htyped hsound htask world player marketId with ⟨hmarket, heq⟩ | ⟨e, he, heq⟩
    · exact .inl ⟨_, by rw [heq]; rfl, h.place ⟨player, marketId, draft, hmarket, htask, rfl⟩ hplaced⟩
    · exact .inr ⟨e, by rw [heq]; rfl, h.tell he⟩

end Tasks

section Runs
variable {config : Config} {world : World} {s s' : Dialogs} {player : Player}

private theorem answered_sound (htyped : config.Typed) (hsound : config.Sound) {form : Form} {answer : Answer}
    (h : Sound config s) (hform : form.Legal config) :
    ∃ s', answered config world player form answer s = .ok s' ∧ Sound config s' := by
  unfold answered
  split
  case h_1 marketId actions defaultPrice index =>
    split
    case h_1 action _ =>
      split_ifs with hthere
      · exact ⟨_, rfl, h.queue (openingDraft_legal hsound action hform) rfl⟩
      · exact ⟨s, rfl, h⟩
    case h_2 => exact ⟨s, rfl, h⟩
  case h_2 marketId draft response =>
    split_ifs with hthere
    · refine attempt_ok ?_
      rcases submittedDraft_cases htyped hsound world.language draft response with
        ⟨updated, ⟨-, hupdated⟩, heq⟩ | ⟨what, heq⟩
      · exact .inl ⟨_, by rw [heq]; rfl, @Sound.queue _ _ _ (.reviewForm marketId updated) h hupdated rfl⟩
      · exact .inr ⟨_, by rw [heq]; rfl, Sound.queue (h.tell ⟨what, rfl⟩) hform rfl⟩
    · exact ⟨s, rfl, h⟩
  case h_3 marketId draft total index =>
    split_ifs with hthere hfirst
    · exact ⟨_, rfl, h.confirm hform.1⟩
    · exact ⟨_, rfl, h.queue hform.1 rfl⟩
    · exact ⟨s, rfl, h⟩
  case h_4 => exact ⟨s, rfl, h⟩

/-- Every event is handled without an overflow and keeps the invariant. -/
theorem handle_sound (htyped : config.Typed) (hsound : config.Sound) (h : Sound config s) (event : Event)
    (hpossible : event.Possible s) : ∃ s', handle config s event = .ok s' ∧ Sound config s' := by
  cases event with
  | interact player marketId => exact ⟨_, rfl, h.queue trivial rfl⟩
  | task index world =>
    cases hget : s.tasks[index]? with
    | none => exact ⟨s, by simp only [handle, hget], h⟩
    | some e =>
      obtain ⟨htask, htaken, hplaced⟩ := h.take hget
      simp only [handle, hget]
      split_ifs with hthere
      · exact runTask_sound htyped hsound htaken htask hplaced
      · exact ⟨_, rfl, htaken⟩
  | answer index answer world =>
    cases hget : s.forms[index]? with
    | none => exact ⟨s, by simp only [handle, hget], h⟩
    | some e =>
      simp only [handle, hget]
      exact answered_sound htyped hsound (h.release hget) (h.forms _ (List.mem_of_getElem? hget))
  | quit player => exact ⟨_, rfl, h.quit player⟩
  | join player world =>
    have hjoin : (if world.ready then s.unlock player else s) = s := by rw [h.join hpossible, ite_self]
    exact ⟨_, rfl, hjoin.symm ▸ h⟩

theorem Run.sound (htyped : config.Typed) (hsound : config.Sound) (hrun : Run config s s') (h : Sound config s) :
    Sound config s' := by
  induction hrun with
  | refl => exact h
  | step event _ hpossible hstep ih =>
    obtain ⟨s'', heq, hsound''⟩ := handle_sound htyped hsound ih event hpossible
    cases hstep.symm.trans heq
    exact hsound''

/-- In every run under a loaded configuration, whatever the clients send: no event overflows;
the players with a lock are those with an open form, and none has two; the total of a review is
exact; every order was confirmed, as often as it was placed, and is one that the service
takes; and only entries are refused as the player's fault. -/
theorem dialogs_sound {file : Option Bytes} {path : String} (hload : load file path = .ok config)
    (hrun : Run config {} s) :
    (∀ event : Event, event.Possible s → ∃ s', handle config s event = .ok s') ∧
    ((∀ uuid, uuid ∈ s.openTradeForms ↔ uuid ∈ s.forms.map (·.1.uuid)) ∧ (s.forms.map (·.1.uuid)).Nodup) ∧
    (∀ player marketId draft total, (player, .review marketId draft total) ∈ s.forms → total = totalOf draft) ∧
    (∀ request, s.orders.count request ≤ (s.confirmed.map requested).count request) ∧
    (∀ request ∈ s.orders, ∀ settings : Settings, settings.maxOrderQuantity = config.market.maxOrderQuantity →
      validateRequest settings request = .ok ⟨⟩) ∧
    ∀ e ∈ s.notices, e.2.Expected := by
  obtain ⟨htyped, hsound⟩ := load_sound hload
  have h := hrun.sound htyped hsound sound_start
  refine ⟨fun event hpossible => ?_, ⟨h.locked, h.single⟩, fun player marketId draft total hmem => (h.forms _ hmem).2,
    fun request => ?_, fun request hmem settings hmax => ?_, h.notices⟩
  · obtain ⟨s', heq, -⟩ := handle_sound htyped hsound h event hpossible
    exact ⟨s', heq⟩
  · have hle := Multiset.count_le_of_le request h.placed
    rw [Multiset.count_add, Multiset.coe_count, Multiset.coe_count] at hle
    omega
  · obtain ⟨player, marketId, draft, hmarket, hdraft, rfl⟩ := h.orders request hmem
    exact validateRequest_legal hdraft hsound hmax hmarket player.uuid_ne player.name_ne

end Runs

section Sample
open ServiceRuns (afterCalls sampleSettings diamondMarket)

def handleAll (config : Config) : Dialogs → List Event → Checked Empty Dialogs
  | s, [] => .ok s
  | s, event :: events => do handleAll config (← handle config s event) events

theorem Run.after {config : Config} {s s' s'' : Dialogs} (hrun : Run config s s') {events : List Event}
    (hpossible : ∀ event ∈ events, ∀ s : Dialogs, event.Possible s) (h : handleAll config s' events = .ok s'') :
    Run config s s'' := by
  induction events generalizing s' with
  | nil => cases h; exact hrun
  | cons event events ih =>
    rw [List.forall_mem_cons] at hpossible
    cases hstep : handle config s' event with
    | ok t =>
      rw [handleAll, hstep] at h
      exact ih (.step event hrun (hpossible.1 s') hstep) hpossible.2 h
    | error e =>
      rw [handleAll, hstep] at h
      cases h

def bob : Player := ⟨"bob", "Bob", by decide, by decide⟩

def openMarket : World :=
  { ready := true, online := fun _ => true, markets := {1}, markets_ne := by decide,
    db := afterCalls sampleSettings [.activateMarket (diamondMarket "block")], language := .english }

/-- A limit order of five at ten units, from the click to the service. -/
def bobsEvents : List Event :=
  [.interact bob 1, .task 0 openMarket, .answer 0 (.button 0) openMarket, .task 0 openMarket,
    .answer 0 (.text (ConfigFiles.text "[\"5\",\"10\"]")) openMarket, .task 0 openMarket,
    .answer 0 (.selection 0) openMarket, .task 0 openMarket]

def bobsOrder : OrderRequest :=
  { marketId := 1, playerUuid := "bob", playerName := "Bob", side := .buy, type := .limit, priceCents := 1000,
    quantity := 5 }

def bobsDialogs : Dialogs := { orders := [bobsOrder], confirmed := [(bob, 1, ⟨.limitBuy, 5, 1000⟩)] }

private theorem bobsRun : Run {} {} bobsDialogs := by
  refine @Run.after _ _ _ _ .refl bobsEvents ?_ (by decide +kernel)
  simp [bobsEvents, Event.Possible]

theorem dialogs_sound_of_bob : bobsDialogs.orders = [bobsOrder] ∧ (∀ request, bobsDialogs.orders.count request ≤
    (bobsDialogs.confirmed.map requested).count request) ∧ validateRequest sampleSettings bobsOrder = .ok ⟨⟩ := by
  obtain ⟨-, -, -, hcount, hvalid, -⟩ := dialogs_sound (ConfigWriting.load_writeTemplate "config.toml") bobsRun
  exact ⟨rfl, hcount, hvalid bobsOrder (List.mem_singleton.mpr rfl) sampleSettings (by decide)⟩

end Sample

end EndstoneExchange.TradeDialogs
