import EndstoneExchange.FrameFlows

/-!
# Pending markers of frame captures

A capture of a frame marks its target, the settlement of a paid listing marks the listing.
The server runs the tasks that end the captures one by one; between them every mark has
its task.
-/
namespace EndstoneExchange.PendingMarkers
open DurablePrograms ExchangeDomain FrameListingOperations
open FrameFlows (FrameAddress Failure queueItemFrameCapture listingAddress sameItem)

def frameCaptureMaxAttempts : ℕ := 3

abbrev Captured := Except Failure (Option ItemPrototype)

/-- The callbacks of settleFrameListing, of verifyFrameClearedAndDrop and of the other flows. What
the latter do are further calls of the run. -/
inductive Callback
  | settlement (listing : FrameListing)
  | verification (listing : FrameListing)
  | other

/-- A scheduled completeItemFrameCapture. -/
structure Task where
  address : FrameAddress
  structureName : String
  callback : Callback
  attempt : ℕ

def Task.target (t : Task) : String := t.address.targetKey

/-- `pending_frame_captures_`, `pending_frame_settlements_`, `frame_listing_index_`, the scheduled
tasks and the items that were dropped. -/
structure Plugin where
  db : Db
  ready : Bool := true
  captures : String → Option String := fun _ => none
  settlements : Finset Id := ∅
  index : String → Option Id := fun _ => none
  tasks : List Task := []
  drops : List Id := []

/-- What one handler meets besides: the place of the listing, and whether something throws. -/
structure Site extends FrameFlows.Site where
  dropInSight : Bool := false
  chunkLoaded : Bool := true
  frame : Bool := true
  refused : Bool := false

/-- Each handler that is entered on the way meets a site of its own. -/
abbrev Sites := ℕ → Site

def Sites.after (sites : Sites) : Sites := fun n => sites (n + 1)

section Handlers

def Plugin.settled (listingId : Id) (p : Plugin) : Plugin :=
  { p with settlements := p.settlements.erase listingId }

def Plugin.release (target : String) (p : Plugin) : Plugin :=
  { p with captures := Function.update p.captures target none }

/-- An exception of the call is caught where it is made. -/
def Plugin.markDropped (site : Site) (listingId : Id) (p : Plugin) : Plugin :=
  { p with db := (markFrameListingDropped listingId site.faults p.db).2.2 }

def Plugin.dropItem (listingId : Id) (p : Plugin) : Plugin := { p with drops := listingId :: p.drops }

/-- The handler of an exception forgets the listing as the return does. -/
def spawnFrameSaleDrop (sites : Sites) (listing : FrameListing) (p : Plugin) : Plugin :=
  if (sites 0).dropInSight then (p.markDropped (sites 0) listing.id).settled listing.id
  else if (sites 0).refused then p.settled listing.id
  else ((p.dropItem listing.id).markDropped (sites 0) listing.id).settled listing.id

/-- The callback of verifyFrameClearedAndDrop. -/
def verificationCaptured (sites : Sites) (listing : FrameListing) (captured : Captured) (p : Plugin) : Plugin :=
  match captured with
  | .error _ =>
    if (sites 0).frame = false then spawnFrameSaleDrop sites.after listing p else p.settled listing.id
  | .ok item =>
    if item.any (sameItem listing.item) then p.settled listing.id
    else spawnFrameSaleDrop sites.after listing p

def Callback.fail (sites : Sites) (failure : Failure) (p : Plugin) : Callback → Plugin
  | settlement listing => p.settled listing.id
  | verification listing => verificationCaptured sites listing (.error failure) p
  | other => p

/-- The mark of the target goes with a task that ends the capture. -/
def Plugin.queue (sites : Sites) (address : FrameAddress) (callback : Callback) (p : Plugin) : Plugin :=
  queueItemFrameCapture (sites 0).toSite address (p.captures address.targetKey).isSome
    (fun failure => callback.fail sites.after failure p) fun structureName =>
      { p with captures := Function.update p.captures address.targetKey (some structureName),
               tasks := p.tasks ++ [⟨address, structureName, callback, 1⟩] }

def verifyFrameClearedAndDrop (sites : Sites) (listing : FrameListing) (p : Plugin) : Plugin :=
  p.queue sites (listingAddress listing) (.verification listing)

/-- The callback of settleFrameListing: the frame is recreated empty and captured again. -/
def settlementCaptured (sites : Sites) (listing : FrameListing) (captured : Captured) (p : Plugin) : Plugin :=
  match captured with
  | .error failure => (Callback.settlement listing).fail sites failure p
  | .ok item =>
    if ¬ item.any (sameItem listing.item) then spawnFrameSaleDrop sites.after listing p
    else if (sites 0).frame = false then spawnFrameSaleDrop sites.after listing p
    else if (sites 0).refused then p.settled listing.id
    else verifyFrameClearedAndDrop sites.after listing p

def Callback.run (sites : Sites) (captured : Captured) (p : Plugin) : Callback → Plugin
  | settlement listing => settlementCaptured sites listing captured p
  | verification listing => verificationCaptured sites listing captured p
  | other => p

/-- The exceptions are the missing frame, and whatever encoding the item may throw. -/
def prototypeOf (site : Site) (captured : Option ItemPrototype) : Captured :=
  if site.frame = false then .error .frameMissing
  else if captured.isSome ∧ site.refused = true then .error (.exception "captured item cannot be encoded")
  else .ok captured

/-- `read` is what the structure reader returns or throws. -/
def completeItemFrameCapture (sites : Sites) (read : Except String (Option ItemPrototype)) (task : Task)
    (p : Plugin) : Plugin :=
  if p.captures task.target ≠ some task.structureName then p
  else if p.ready = false then p.release task.target
  else
    match read with
    | .error what =>
      if task.attempt < frameCaptureMaxAttempts ∧ (sites 0).dispatched = true then
        { p with tasks := p.tasks ++ [{ task with attempt := task.attempt + 1 }] }
      else task.callback.run sites.after (.error (.exception what)) (p.release task.target)
    | .ok captured => task.callback.run sites.after (prototypeOf (sites 0) captured) (p.release task.target)

def settleFrameListing (sites : Sites) (listing : FrameListing) (p : Plugin) : Plugin :=
  if p.ready = false then p
  else if listing.status = .claimed ∨ listing.status = .canceled then
    { p with index := Function.update p.index listing.targetKey none }
  else if listing.status ≠ .paid ∧ listing.status ≠ .dropped then p
  else if (sites 0).dropInSight then
    (if (sites 0).refused then p else p.markDropped (sites 0) listing.id).settled listing.id
  else if listing.id ∈ p.settlements then p
  else if (sites 0).chunkLoaded = false then p
  else if (sites 0).frame = false then spawnFrameSaleDrop sites.after listing p
  else
    Plugin.queue sites.after (listingAddress listing) (.settlement listing)
      { p with settlements := insert listing.id p.settlements }

end Handlers

/-- The states in which control is with the scheduler while the plugin stays enabled: it may run
any of its tasks, and the other handlers make calls and change the database. -/
inductive Run : Plugin → Prop
  | start (db : Db) : Run { db }
  | settle {p : Plugin} (h : Run p) (sites : Sites) (listing : FrameListing) :
      Run (settleFrameListing sites listing p)
  | queue {p : Plugin} (h : Run p) (sites : Sites) (address : FrameAddress) :
      Run (p.queue sites address .other)
  | verify {p : Plugin} (h : Run p) (sites : Sites) (listing : FrameListing) :
      Run (verifyFrameClearedAndDrop sites listing p)
  | spawn {p : Plugin} (h : Run p) (sites : Sites) (listing : FrameListing) :
      Run (spawnFrameSaleDrop sites listing p)
  | complete {p : Plugin} (h : Run p) (sites : Sites) (read : Except String (Option ItemPrototype))
      {before rest : List Task} {task : Task} (ht : p.tasks = before ++ task :: rest) :
      Run (completeItemFrameCapture sites read task { p with tasks := before ++ rest })
  | service {p : Plugin} (h : Run p) (db : Db) : Run { p with db }

section Effects
variable {sites : Sites} {listing : FrameListing} {id : Id} {p q : Plugin}

/-- The listing is forgotten; the captures and the tasks stay. -/
structure Forgets (id : Id) (p q : Plugin) : Prop where
  settlements : q.settlements = p.settlements.erase id
  captures : q.captures = p.captures
  tasks : q.tasks = p.tasks
  ready : q.ready = p.ready

/-- A target that was free is marked for a task, which is scheduled last. -/
structure Schedules (task : Task) (p q : Plugin) : Prop where
  free : p.captures task.target = none
  captures : q.captures = Function.update p.captures task.target (some task.structureName)
  tasks : q.tasks = p.tasks ++ [task]
  settlements : q.settlements = p.settlements
  ready : q.ready = p.ready

theorem spawnFrameSaleDrop_forgets : Forgets listing.id p (spawnFrameSaleDrop sites listing p) := by
  unfold spawnFrameSaleDrop
  split_ifs
  · exact ⟨rfl, rfl, rfl, rfl⟩
  · exact ⟨rfl, rfl, rfl, rfl⟩
  · exact ⟨rfl, rfl, rfl, rfl⟩

theorem verificationCaptured_forgets (sites : Sites) (listing : FrameListing) (captured : Captured)
    (p : Plugin) : Forgets listing.id p (verificationCaptured sites listing captured p) := by
  cases captured with
  | error _ =>
    rw [verificationCaptured]
    split_ifs
    · exact spawnFrameSaleDrop_forgets
    · exact ⟨rfl, rfl, rfl, rfl⟩
  | ok item =>
    rw [verificationCaptured]
    split_ifs
    · exact ⟨rfl, rfl, rfl, rfl⟩
    · exact spawnFrameSaleDrop_forgets

/-- The listing that a callback is for. -/
def Callback.For (id : Id) : Callback → Prop
  | settlement listing => listing.id = id
  | verification listing => listing.id = id
  | other => False

/-- What a callback that fails leaves behind. -/
def Callback.Failed (p q : Plugin) : Callback → Prop
  | settlement listing => Forgets listing.id p q
  | verification listing => Forgets listing.id p q
  | other => q = p

theorem Callback.fail_failed (callback : Callback) (failure : Failure) :
    callback.Failed p (callback.fail sites failure p) := by
  cases callback with
  | settlement _ => exact ⟨rfl, rfl, rfl, rfl⟩
  | verification _ =>
    rw [Callback.fail, Callback.Failed]
    exact verificationCaptured_forgets _ _ _ p
  | other => rfl

/-- A capture is scheduled, or its callback fails at once. -/
theorem queue_cases (sites : Sites) (address : FrameAddress) (callback : Callback) (p : Plugin) :
    (∃ name, Schedules ⟨address, name, callback, 1⟩ p (p.queue sites address callback)) ∨
      callback.Failed p (p.queue sites address callback) := by
  rw [Plugin.queue, queueItemFrameCapture]
  split_ifs with hbusy hlevel hdispatched
  · exact .inr (callback.fail_failed _)
  · exact .inr (callback.fail_failed _)
  · exact .inr (callback.fail_failed _)
  · have hfree : p.captures address.targetKey = none := by simpa using hbusy
    exact .inl ⟨_, hfree, rfl, rfl, rfl, rfl⟩

/-- What a settlement's callback leaves: it forgets the listing, or verifies the frame. -/
theorem settlementCaptured_cases (sites : Sites) (listing : FrameListing) (captured : Captured) (p : Plugin) :
    Forgets listing.id p (settlementCaptured sites listing captured p) ∨
      ∃ name, Schedules ⟨listingAddress listing, name, .verification listing, 1⟩ p
        (settlementCaptured sites listing captured p) := by
  cases captured with
  | error _ => exact .inl ⟨rfl, rfl, rfl, rfl⟩
  | ok item =>
    rw [settlementCaptured]
    split_ifs
    · exact .inl spawnFrameSaleDrop_forgets
    · exact .inl ⟨rfl, rfl, rfl, rfl⟩
    · exact (queue_cases sites.after _ (.verification listing) p).symm
    · exact .inl spawnFrameSaleDrop_forgets

end Effects

section Invariant
variable {sites : Sites} {settling : Id → Prop} {task : Task} {before rest : List Task} {id : Id} {p q : Plugin}

/-- A capture of the listing's frame whose callback is the listing's. -/
def Task.Serves (t : Task) (id : Id) : Prop :=
  ∃ listing : FrameListing, listing.id = id ∧ t.address = listingAddress listing ∧
    (t.callback = .settlement listing ∨ t.callback = .verification listing)

/-- Every mark has its task, but for the listings that a handler is settling. -/
structure Tidy (settling : Id → Prop) (p : Plugin) : Prop where
  ready : p.ready = true
  targets : (p.tasks.map Task.target).Nodup
  captured : ∀ target name, p.captures target = some name ↔
    ∃ t ∈ p.tasks, t.target = target ∧ t.structureName = name
  served : ∀ id ∈ p.settlements, ¬ settling id → ∃ t ∈ p.tasks, t.Serves id
  attempts : ∀ t ∈ p.tasks, t.attempt ≤ frameCaptureMaxAttempts

abbrev Quiet : Plugin → Prop := Tidy fun _ => False

theorem Tidy.quiet (h : Tidy settling p) (hs : ∀ id, ¬ settling id) : Quiet p where
  ready := h.ready
  targets := h.targets
  captured := h.captured
  served id hid _ := h.served id hid (hs id)
  attempts := h.attempts

theorem Tidy.forgets (h : Tidy settling p) (hq : Forgets id p q) (hs : ∀ i, settling i → i = id) : Quiet q := by
  constructor
  case ready => rw [hq.ready, h.ready]
  case targets => rw [hq.tasks]; exact h.targets
  case captured => rw [hq.captures, hq.tasks]; exact h.captured
  case served =>
    intro i hi _
    rw [hq.settlements, Finset.mem_erase] at hi
    rw [hq.tasks]
    exact h.served i hi.2 fun hsettling => hi.1 (hs i hsettling)
  case attempts => rw [hq.tasks]; exact h.attempts

theorem Tidy.schedules (h : Tidy settling p) (hq : Schedules task p q) (hs : ∀ i, settling i → task.Serves i)
    (ha : task.attempt ≤ frameCaptureMaxAttempts) : Quiet q := by
  have hnew : ∀ t ∈ p.tasks, t.target ≠ task.target := by
    intro t ht he
    have hmark := (h.captured t.target t.structureName).mpr ⟨t, ht, rfl, rfl⟩
    rw [he, hq.free] at hmark
    cases hmark
  constructor
  case ready => rw [hq.ready, h.ready]
  case targets =>
    rw [hq.tasks, List.map_append, List.map_singleton]
    refine List.nodup_append.mpr ⟨h.targets, by simp, ?_⟩
    rintro target hold _ hlast rfl
    obtain ⟨t, ht, rfl⟩ := List.mem_map.mp hold
    exact hnew t ht (List.mem_singleton.mp hlast)
  case captured =>
    intro target name
    rw [hq.captures, hq.tasks]
    by_cases he : target = task.target
    · subst he
      rw [Function.update_self]
      refine ⟨fun hname => ⟨task, by simp, rfl, Option.some.inj hname⟩, ?_⟩
      rintro ⟨t, ht, htarget, rfl⟩
      rcases List.mem_append.mp ht with ht | ht
      · exact absurd htarget (hnew t ht)
      · rw [List.mem_singleton.mp ht]
    · rw [Function.update_of_ne he, h.captured]
      refine ⟨fun ⟨t, ht, hname⟩ => ⟨t, List.mem_append_left _ ht, hname⟩, ?_⟩
      rintro ⟨t, ht, rfl, hname⟩
      rcases List.mem_append.mp ht with ht | ht
      · exact ⟨t, ht, rfl, hname⟩
      · exact absurd (congrArg Task.target (List.mem_singleton.mp ht)) he
  case served =>
    intro i hi _
    rw [hq.settlements] at hi
    rw [hq.tasks]
    by_cases hsettling : settling i
    · exact ⟨task, by simp, hs i hsettling⟩
    · obtain ⟨t, ht, hserves⟩ := h.served i hi hsettling
      exact ⟨t, List.mem_append_left _ ht, hserves⟩
  case attempts =>
    intro t ht
    rw [hq.tasks] at ht
    rcases List.mem_append.mp ht with ht | ht
    · exact h.attempts t ht
    · rw [List.mem_singleton.mp ht]
      exact ha

/-- A task that the scheduler has taken, and the mark of its target with it. -/
def Plugin.taken (p : Plugin) (tasks : List Task) (target : String) : Plugin :=
  ({ p with tasks } : Plugin).release target

theorem Tidy.taken (h : Quiet p) (ht : p.tasks = before ++ task :: rest) :
    Tidy task.Serves (p.taken (before ++ rest) task.target) := by
  have hperm : p.tasks.Perm (task :: (before ++ rest)) := ht ▸ List.perm_middle
  have htargets := (hperm.map Task.target).nodup_iff.mp h.targets
  rw [List.map_cons, List.nodup_cons] at htargets
  have hold : ∀ {t}, t ∈ before ++ rest → t ∈ p.tasks := fun hmem =>
    hperm.mem_iff.mpr (List.mem_cons_of_mem _ hmem)
  constructor
  case ready => exact h.ready
  case targets => exact htargets.2
  case captured =>
    intro target name
    change Function.update p.captures task.target none target = some name ↔ _
    by_cases he : target = task.target
    · subst he
      rw [Function.update_self]
      refine ⟨fun hname => (by cases hname), ?_⟩
      rintro ⟨t, ht', htarget, -⟩
      exact absurd (List.mem_map.mpr ⟨t, ht', htarget⟩) htargets.1
    · rw [Function.update_of_ne he, h.captured]
      refine ⟨?_, fun ⟨t, ht', hname⟩ => ⟨t, hold ht', hname⟩⟩
      rintro ⟨t, ht', rfl, hname⟩
      rcases List.mem_cons.mp (hperm.mem_iff.mp ht') with rfl | ht'
      · exact absurd rfl he
      · exact ⟨t, ht', rfl, hname⟩
  case served =>
    intro i hi hnot
    obtain ⟨t, ht', hserves⟩ := h.served i hi id
    rcases List.mem_cons.mp (hperm.mem_iff.mp ht') with rfl | ht'
    · exact absurd hserves hnot
    · exact ⟨t, ht', hserves⟩
  case attempts => exact fun t ht' => h.attempts t (hold ht')

theorem Tidy.failed {callback : Callback} (h : Tidy settling p) (hq : callback.Failed p q)
    (hs : ∀ i, settling i → callback.For i) : Quiet q := by
  cases callback with
  | settlement listing => exact h.forgets hq fun i hi => (hs i hi).symm
  | verification listing => exact h.forgets hq fun i hi => (hs i hi).symm
  | other =>
    obtain rfl : q = p := hq
    exact h.quiet fun i hi => hs i hi

theorem Task.Serves.for (h : task.Serves id) : task.callback.For id := by
  obtain ⟨listing, rfl, -, hc | hc⟩ := h
  · rw [hc]; rfl
  · rw [hc]; rfl

theorem Tidy.queued {address : FrameAddress} {callback : Callback} (h : Tidy settling p)
    (hs : ∀ i, settling i → ∀ name, (⟨address, name, callback, 1⟩ : Task).Serves i) :
    Quiet (p.queue sites address callback) := by
  rcases queue_cases sites address callback p with ⟨name, hq⟩ | hq
  · exact h.schedules hq (fun i hi => hs i hi name) (show 1 ≤ 3 by decide)
  · exact h.failed hq fun i hi => (hs i hi "").for

/-- A callback settles the listing it serves, or schedules a task that serves it. -/
theorem Tidy.run (h : Tidy task.Serves p) (captured : Captured) :
    Quiet (task.callback.run sites captured p) := by
  have hfor : ∀ i, task.Serves i → task.callback.For i := fun i => Task.Serves.for
  cases hc : task.callback with
  | settlement listing =>
    rw [hc] at hfor
    rcases settlementCaptured_cases sites listing captured p with hq | ⟨name, hq⟩
    · exact h.forgets hq fun i hi => (hfor i hi).symm
    · exact h.schedules hq (fun i hi => ⟨listing, hfor i hi, rfl, .inr rfl⟩) (show 1 ≤ 3 by decide)
  | verification listing =>
    rw [hc] at hfor
    exact h.forgets (verificationCaptured_forgets sites listing captured p) fun i hi => (hfor i hi).symm
  | other =>
    rw [hc] at hfor
    exact h.quiet hfor

/-- The task of a marked target is retried, or its callback is called. -/
theorem complete_cases (h : Quiet p) (ht : p.tasks = before ++ task :: rest) (sites : Sites)
    (read : Except String (Option ItemPrototype)) :
    (task.attempt < frameCaptureMaxAttempts ∧
      Schedules { task with attempt := task.attempt + 1 } (p.taken (before ++ rest) task.target)
        (completeItemFrameCapture sites read task { p with tasks := before ++ rest })) ∨
    ∃ captured, completeItemFrameCapture sites read task { p with tasks := before ++ rest } =
      task.callback.run sites.after captured (p.taken (before ++ rest) task.target) := by
  have hmark : p.captures task.target = some task.structureName :=
    (h.captured _ _).mpr ⟨task, by simp [ht], rfl, rfl⟩
  have hready : ¬ p.ready = false := by simp [h.ready]
  unfold completeItemFrameCapture
  rw [if_neg (by simpa using hmark), if_neg hready]
  cases read with
  | error what =>
    dsimp only
    split_ifs with hretry
    · refine .inl ⟨hretry.1, ?_, ?_, rfl, rfl, rfl⟩
      · exact Function.update_self ..
      · change p.captures = Function.update (Function.update p.captures task.target none) task.target
          (some task.structureName)
        rw [Function.update_idem, ← hmark, Function.update_eq_self]
    · exact .inr ⟨_, rfl⟩
  | ok captured => exact .inr ⟨_, rfl⟩

private theorem settleFrameListing_quiet (h : Quiet p) (listing : FrameListing) :
    Quiet (settleFrameListing sites listing p) := by
  unfold settleFrameListing
  split_ifs
  · exact h
  · exact ⟨h.ready, h.targets, h.captured, h.served, h.attempts⟩
  · exact h
  · exact @Tidy.forgets _ listing.id p _ h ⟨rfl, rfl, rfl, rfl⟩ fun _ hi => hi.elim
  · exact @Tidy.forgets _ listing.id p _ h ⟨rfl, rfl, rfl, rfl⟩ fun _ hi => hi.elim
  · exact h
  · exact h
  · exact h.forgets spawnFrameSaleDrop_forgets fun _ hi => hi.elim
  · have hmarked : Tidy (· = listing.id) { p with settlements := insert listing.id p.settlements } :=
      ⟨h.ready, h.targets, h.captured, fun i hi hne => h.served i (Finset.mem_of_mem_insert_of_ne hi hne) id,
        h.attempts⟩
    exact hmarked.queued fun i hi name => ⟨listing, hi.symm, rfl, .inl rfl⟩

/-- Whenever control is back with the scheduler. -/
theorem Run.quiet (h : Run p) : Quiet p := by
  induction h with
  | start db => exact ⟨rfl, by simp, by simp, by simp, by simp⟩
  | settle _ sites listing ih => exact settleFrameListing_quiet ih listing
  | queue _ sites address ih => exact ih.queued fun _ hi => hi.elim
  | verify _ sites listing ih => exact ih.queued fun _ hi => hi.elim
  | spawn _ sites listing ih => exact ih.forgets spawnFrameSaleDrop_forgets fun _ hi => hi.elim
  | @complete p _ sites read before rest task ht ih =>
    rcases complete_cases ih ht sites read with ⟨hlt, hq⟩ | ⟨captured, hq⟩
    · exact ih.taken ht |>.schedules hq (fun i hi => hi) hlt
    · rw [hq]
      exact (ih.taken ht).run captured
  | service _ db ih => exact ⟨ih.ready, ih.targets, ih.captured, ih.served, ih.attempts⟩

end Invariant

section Leaks
variable {task : Task} {id : Id} {p : Plugin}

/-- The end of a task: it is retried, a bounded number of times, or its callback is called. -/
def Ends (p : Plugin) (tasks : List Task) (task : Task) (q : Plugin) : Prop :=
  (task.attempt < frameCaptureMaxAttempts ∧ q.settlements = p.settlements ∧
    q.tasks = tasks ++ [{ task with attempt := task.attempt + 1 }]) ∨
  ∃ sites captured freed, q = task.callback.run sites captured freed ∧ freed.settlements = p.settlements ∧
    freed.tasks = tasks

/-- A callback that removes the listing or schedules another task for it. -/
def Task.Answers (t : Task) (id : Id) : Prop := ∀ sites captured q,
  id ∉ (t.callback.run sites captured q).settlements ∨
    ∃ t' : Task, t'.Serves id ∧ (t.callback.run sites captured q).tasks = q.tasks ++ [t']

/-- No listing and no target stays marked without the task that ends its capture. -/
structure NoneLeaked (p : Plugin) : Prop where
  settlements : ∀ id ∈ p.settlements, ∃ t ∈ p.tasks, t.Serves id ∧ t.Answers id
  ended : ∀ before t rest, p.tasks = before ++ t :: rest → ∀ sites read,
    Ends p (before ++ rest) t (completeItemFrameCapture sites read t { p with tasks := before ++ rest })
  captures : ∀ target name, p.captures target = some name →
    ∃ t : Task, p.tasks.filter (·.target = target) = [t] ∧ t.structureName = name

theorem Task.Serves.answers (h : task.Serves id) : task.Answers id := by
  intro sites captured q
  obtain ⟨listing, rfl, -, hc | hc⟩ := h
  · rw [hc]
    rcases settlementCaptured_cases sites listing captured q with hq | ⟨name, hq⟩
    · exact .inl (by rw [Callback.run, hq.settlements]; exact Finset.notMem_erase _ _)
    · exact .inr ⟨_, ⟨listing, rfl, rfl, .inr rfl⟩, hq.tasks⟩
  · rw [hc]
    have hq := verificationCaptured_forgets sites listing captured q
    exact .inl (by rw [Callback.run, hq.settlements]; exact Finset.notMem_erase _ _)

/-- Between two tasks nothing stays marked without its task. -/
theorem none_leaked (h : Run p) : NoneLeaked p := by
  have hquiet := h.quiet
  constructor
  case settlements =>
    intro i hi
    obtain ⟨t, ht, hserves⟩ := hquiet.served i hi fun h => h
    exact ⟨t, ht, hserves, hserves.answers⟩
  case ended =>
    intro before t rest ht sites read
    rcases complete_cases hquiet ht sites read with ⟨hlt, hq⟩ | ⟨captured, hq⟩
    · exact .inl ⟨hlt, hq.settlements, hq.tasks⟩
    · exact .inr ⟨_, _, _, hq, rfl, rfl⟩
  case captures =>
    intro target name hname
    obtain ⟨t, ht, rfl, hstructure⟩ := (hquiet.captured target name).mp hname
    refine ⟨t, ?_, hstructure⟩
    obtain ⟨before, rest, hsplit⟩ := List.append_of_mem ht
    have htargets := hquiet.targets
    rw [hsplit, List.map_append, List.map_cons, List.nodup_middle, List.nodup_cons] at htargets
    have hother : ∀ l : List Task, (∀ t' ∈ l, t' ∈ before ++ rest) →
        l.filter (·.target = t.target) = [] := by
      intro l hl
      refine List.filter_eq_nil_iff.mpr fun t' ht' he => htargets.1 ?_
      rw [← of_decide_eq_true he, ← List.map_append]
      exact List.mem_map_of_mem (hl t' ht')
    rw [hsplit, List.filter_append, List.filter_cons_of_pos (by simp),
      hother before fun t' ht' => List.mem_append_left _ ht',
      hother rest fun t' ht' => List.mem_append_right _ ht']
    rfl

/-- A paid listing whose frame still holds the item is being settled. -/
theorem none_leaked_settling :
    let listing : FrameListing := { FrameFlows.shownListing with status := .paid }
    let p := settleFrameListing (fun _ => {}) listing { db := {} }
    1 ∈ p.settlements ∧ NoneLeaked p :=
  ⟨by decide, none_leaked ((Run.start {}).settle _ _)⟩

end Leaks

end EndstoneExchange.PendingMarkers
