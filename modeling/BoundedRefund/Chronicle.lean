import BoundedRefund.Concurrent.Trail
import BoundedRefund.Concurrent.Triple
import BoundedRefund.Verdicts

/-!
# The trace of a run

The executor writes its events next to the database and not with it: an event is appended
before or after the transaction it is about.  A reader of the trace nevertheless learns what
the database holds, as long as no stage has raised anything but a lost response
(`trace_faithful`).

`Chronicle` is what holds between any two stages.  Most stages leave everything it speaks of
alone (`World.core`); what an execution does to both the trace and the database is said once
(`Chronicle.executed`).
-/

namespace BoundedRefund

open Concurrent Relational

/-! ## Reading a trace -/

/-- The event is about the permit. -/
def Event.Names (event : Event) (permitId : String) : Prop :=
  event.extra.lookup "permit_id" = some (.str permitId)

/-- There is an event of this type about the permit. -/
def Shows (events : List Event) (eventType : EventType) (permitId : String) : Prop :=
  ∃ event ∈ events, event.eventType = eventType ∧ event.Names permitId

/-- The last event is an attempt with the permit. -/
def Asked (events : List Event) (permitId : String) : Prop :=
  ∃ event, events.getLast? = some event ∧ event.eventType = .mutationAttempted ∧
    event.Names permitId

/-- The three events that answer an attempt. -/
def EventType.closes : EventType → Bool
  | .mutationCommitted | .mutationReplayed | .mutationRejected => true
  | _ => false

/-- The event is where it belongs. -/
structure Event.Placed (before : List Event) (event : Event) : Prop where
  attempted : event.eventType = .mutationAttempted → ∃ permitId, event.Names permitId
  /-- An answer follows an attempt with the same permit. -/
  asked : event.eventType.closes = true →
    ∃ permitId, Asked before permitId ∧ event.Names permitId
  /-- What follows an attempt is an answer. -/
  answers : ∀ permitId, Asked before permitId →
    event.eventType.closes = true ∧ event.Names permitId
  /-- A commit follows the issue of its permit, and no other commit of it. -/
  committed : event.eventType = .mutationCommitted → ∃ permitId, event.Names permitId ∧
    Shows before .permitIssued permitId ∧ ¬ Shows before .mutationCommitted permitId
  /-- A replay follows a commit. -/
  replayed : event.eventType = .mutationReplayed → ∃ permitId, event.Names permitId ∧
    Shows before .mutationCommitted permitId

/-- What the commits of a trace are about. -/
def committedResources (events : List Event) : List String :=
  (events.filter fun event => event.eventType = .mutationCommitted).map fun event =>
    event.resourceId

/-- **A faithful trace.**  Its commits are the rows of the log, in their order; every attempt
is answered at once; and every event is where it belongs. -/
structure Faithful (events : List Event) (rows : List MutationRow) : Prop where
  logged : committedResources events = rows.map MutationRow.resourceId
  answered : ∀ before event after, events = before ++ event :: after →
    event.eventType = .mutationAttempted → ∃ permitId answer rest, event.Names permitId ∧
      after = answer :: rest ∧ answer.eventType.closes = true ∧ answer.Names permitId
  placed : Each Event.Placed events

section Events

variable {events : List Event} {event : Event} {eventType : EventType} {permitId : String}

/-- What a trace shows it shows for good. -/
theorem Shows.append (h : Shows events eventType permitId) (later : List Event) :
    Shows (events ++ later) eventType permitId := by
  obtain ⟨e, hmem, he⟩ := h
  exact ⟨e, List.mem_append_left later hmem, he⟩

/-- A longer trace shows what it showed before, and its new event. -/
theorem shows_concat : Shows (events ++ [event]) eventType permitId ↔
    Shows events eventType permitId ∨ event.eventType = eventType ∧ event.Names permitId := by
  simp only [Shows, List.mem_append, List.mem_singleton, or_and_right, exists_or,
    exists_eq_left]

/-- A permit has just been asked about when the last event is its attempt. -/
theorem asked_concat : Asked (events ++ [event]) permitId ↔
    event.eventType = .mutationAttempted ∧ event.Names permitId := by
  simp only [Asked, List.getLast?_append, List.getLast?_singleton, Option.some_or,
    Option.some.injEq, exists_eq_left']

/-- An event names one permit. -/
theorem Event.Names.unique {other : String} (h : event.Names permitId)
    (h' : event.Names other) : permitId = other := by
  cases h.symm.trans h'
  rfl

/-- Only a commit adds a resource. -/
theorem committedResources_concat : committedResources (events ++ [event]) =
    committedResources events ++
      if event.eventType = .mutationCommitted then [event.resourceId] else [] := by
  unfold committedResources
  rw [List.filter_append, List.map_append]
  by_cases h : event.eventType = .mutationCommitted <;> simp [h]

end Events

/-! ## What is emitted -/

/-- The events of the run so far. -/
def World.events (v : World) : List Event := (v.own.session.audit.map AuditTrace.events).getD []

/-- The same trace has the same events. -/
theorem World.events_congr {v v' : World}
    (h : v'.own.session.audit = v.own.session.audit) : v'.events = v.events := by
  unfold World.events
  rw [h]

section Emissions

variable {v v' : World}

/-- An event stands at the end of the trace. -/
theorem run_emit_event {clock : Clock} {fields : EventFields} {res : Except PyError Unit}
    (haudit : v.own.session.audit.isSome = true)
    (h : (Py.emit clock fields).run v = (res, v')) :
    ∃ event : Event, event.toEventFields = fields ∧ v'.events = v.events ++ [event] := by
  obtain ⟨audit, haudit⟩ := Option.isSome_iff_exists.mp haudit
  rw [Py.emit, Py.run_touch, Prod.mk.injEq] at h
  obtain ⟨-, rfl⟩ := h
  simp only [World.events, Session.emit, haudit, Option.map_some, Option.getD_some,
    AuditTrace.emit]
  exact ⟨_, rfl, rfl⟩

section Executor

variable {e : Executor} {proposal : ActionProposal} {texts : TicketTexts}
variable {permit : Option ExecutionPermit}

/-- The permit an event of the executor is about. -/
def namedPermit (permit : Option ExecutionPermit) : String :=
  (permit.map ExecutionPermit.permitId).getD ""

/-- The resource an event of the executor is about. -/
def namedResource (permit : Option ExecutionPermit) (proposal : ActionProposal) : String :=
  (permit.map ExecutionPermit.resourceId).getD proposal.orderId

/-- So does one of the executor, and it names the permit. -/
theorem run_executor_emit_event {eventType : EventType} {result : Option ExecutionResult}
    {extra : List (String × PlainValue)} {u : Unit}
    (haudit : v.own.session.audit.isSome = true)
    (h : (e.emit eventType proposal permit result extra).run v = (.ok u, v')) :
    ∃ event : Event, v'.events = v.events ++ [event] ∧ event.eventType = eventType ∧
      event.Names (namedPermit permit) ∧
      event.resourceId = namedResource permit proposal := by
  have h := Py.run_own_bind h
  simp only [haudit, if_true] at h
  obtain ⟨_, -, he, -⟩ | ⟨target, -, h⟩ := Py.run_query_bind h
  · cases he
  obtain ⟨event, hfields, hevents⟩ := run_emit_event haudit h
  refine ⟨event, hevents, ?_, ?_, ?_⟩
  · rw [hfields]
  · unfold Event.Names
    rw [hfields]
    rfl
  · rw [hfields]
    rfl

/-- What the executor calls an answer. -/
def ExecutionResult.eventType (result : ExecutionResult) : EventType :=
  if result.fresh then .mutationCommitted
  else if result.committed then .mutationReplayed
  else .mutationRejected

/-- Every answer closes the attempt. -/
theorem ExecutionResult.eventType_closes (result : ExecutionResult) :
    result.eventType.closes = true := by
  unfold eventType
  split_ifs <;> rfl

/-- A commit is announced exactly when it is a fresh one. -/
theorem ExecutionResult.eventType_committed {result : ExecutionResult} :
    result.eventType = .mutationCommitted ↔ result.fresh = true := by
  unfold eventType
  split_ifs with hfresh hcommitted <;> simp [hfresh]

/-- The executor's answer is an event, unless that event could not be written. -/
theorem run_respond_event {result : ExecutionResult} {res : Except PyError ExecutionResult}
    (haudit : v.own.session.audit.isSome = true)
    (h : (e.respond proposal permit result).run v = (res, v')) :
    (∃ err, res = .error err ∧ v.shared.resolveTarget proposal = .error err) ∨
      ∃ event : Event, v'.events = v.events ++ [event] ∧ event.eventType = result.eventType ∧
        event.Names (namedPermit permit) ∧ event.resourceId = namedResource permit proposal := by
  unfold Executor.respond at h
  unfold ExecutionResult.eventType
  split_ifs at h ⊢ with hfresh hcommitted
  · obtain ⟨err, he, rfl⟩ | ⟨_, t, he, h⟩ := Py.run_bind_cases h
    · exact .inl ⟨err, rfl, (run_executor_emit_error he).1⟩
    right
    obtain ⟨event, hevents, hevent⟩ := run_executor_emit_event haudit he
    refine ⟨event, ?_, hevent⟩
    rw [← hevents]
    -- a response that is lost changes the injector alone
    have hlost : ∀ u : World, u.own.session.audit =
        (t.own.session.shouldTimeoutAfterCommit (str proposal.action)).2.audit →
        u.events = t.events := by
      intro u hu
      refine World.events_congr (hu.trans ?_)
      cases hi : t.own.session.injector <;> simp [Session.shouldTimeoutAfterCommit, hi]
    have h := Py.run_update_bind h
    split_ifs at h
    · cases permit <;> simp only [Py.run_throw, Prod.mk.injEq] at h <;> obtain ⟨-, rfl⟩ := h
      · exact hlost _ rfl
      · exact hlost _ rfl
    · rw [Py.run_pure, Prod.mk.injEq] at h
      obtain ⟨-, rfl⟩ := h
      exact hlost _ rfl
  all_goals
    obtain ⟨err, he, rfl⟩ | ⟨_, t, he, h⟩ := Py.run_bind_cases h
    · exact .inl ⟨err, rfl, (run_executor_emit_error he).1⟩
    rw [Py.run_pure, Prod.mk.injEq] at h
    obtain ⟨-, rfl⟩ := h
    exact .inr (run_executor_emit_event haudit he)

end Executor

end Emissions

/-! ## What the stages leave alone -/

/-- What the trace is compared with. -/
def World.core (v : World) :
    Database × Option AuditTrace × Nat × Option (String × ActionProposal) :=
  (v.shared, v.own.session.audit, v.own.session.sequence, v.own.session.lastExecution)

namespace Py

variable {α : Type} {γ : Type*} {g : World → γ}

theorem leaves_query (f : Database → Except PyError α) : (Py.query f).Leaves g :=
  Prog.Leaves.read _

theorem leaves_own (f : Session → α) : (Py.own f).Leaves g := Prog.Leaves.read _

theorem leaves_raising (r : Except PyError α) : (Py.raising r).Leaves g :=
  Prog.Leaves.ofExcept r

theorem leaves_update {f : Session → α × Session}
    (h : ∀ v : World, g ⟨v.shared, { v.own with session := (f v.own.session).2 }⟩ = g v) :
    (Py.update f).Leaves g :=
  Prog.Leaves.atomically h

theorem leaves_touch {f : Session → Session}
    (h : ∀ v : World, g ⟨v.shared, { v.own with session := f v.own.session }⟩ = g v) :
    (Py.touch f).Leaves g :=
  leaves_update h

/-- A transaction does not touch the run's own objects. -/
theorem leaves_transaction (t : Database → Except PyError (α × Database)) {g : Local → γ} :
    (Py.transaction t).Leaves fun v => g v.own := by
  refine Prog.Leaves.atomically fun v => ?_
  split <;> rfl

end Py

section Leaves

variable {e : Executor} {proposal : ActionProposal} {texts : TicketTexts}

/-- The trace as it stands. -/
def World.audit (v : World) : Option AuditTrace := v.own.session.audit

/-- Injected changes are no part of the trace. -/
theorem leaves_applyPreCommit (action : String) :
    (Py.applyPreCommit action).Leaves World.audit := by
  refine .bind (Py.leaves_update fun v => ?_) fun changes => ?_
  · cases hi : v.own.session.injector <;> simp [World.audit, Session.preCommit, hi]
  · induction changes with
    | nil => exact .ret ()
    | cons change changes ih =>
        exact .bind (Py.leaves_transaction _ (g := fun own => own.session.audit)) fun _ => ih

/-- The commit itself writes no event. -/
theorem leaves_commit (permit : ExecutionPermit) :
    (e.commit permit proposal texts).Leaves World.audit := by
  refine .bind (Py.leaves_raising _) fun auth => ?_
  refine .bind (Py.leaves_update fun _ => rfl) fun now => ?_
  refine .bind (by exact Py.leaves_touch fun _ => rfl) fun _ => ?_
  refine .tryCatch (Py.leaves_transaction _ (g := fun own => own.session.audit)) fun err => ?_
  cases err with
  | staleResource resourceId version => exact .ret _
  | _ => exact .fail _

/-- The checks and the commit tell nothing. -/
theorem leaves_runChecks (permit : Option ExecutionPermit) :
    (e.runChecks permit proposal texts).Leaves World.audit := by
  cases permit with
  | none => exact .ret _
  | some permit =>
      unfold Executor.runChecks
      dsimp only
      split_ifs with haction
      · exact .ret _
      refine .bind (Py.leaves_query _) fun target => ?_
      cases target with
      | none => exact .ret _
      | some target =>
          dsimp only
          split_ifs with hresource
          · exact .ret _
          refine .bind (Py.leaves_update fun _ => rfl) fun now => ?_
          refine .bind (Py.leaves_raising _) fun expiresAt => ?_
          split_ifs with hexpired
          · exact .ret _
          refine .bind (Py.leaves_query _) fun stored => ?_
          refine .bind (Py.leaves_raising _) fun answer => ?_
          cases answer with
          | some result => exact .ret _
          | none => exact .bind (leaves_applyPreCommit _) fun _ => leaves_commit permit

end Leaves

/-! ## Executions and their events -/

/-- The response to a commit was lost. -/
def PyError.Lost (err : PyError) : Prop := ∃ action key, err = .responseTimeout action key

/-- What is raised over a value is no lost response. -/
theorem not_lost {err : PyError} (h : ∃ message, err = .valueError message) : ¬ err.Lost := by
  obtain ⟨_, rfl⟩ := h
  rintro ⟨_, _, he⟩
  cases he

/-- An execution was answered by this result, or the response with it was lost. -/
def Answers (res : Except PyError ExecutionResult) (result : ExecutionResult) : Prop :=
  res = .ok result ∨ result.fresh = true ∧ ∃ err, res = .error err ∧ err.Lost

/-- What an execution tells: its attempt, and what it was answered. -/
def Recorded (permit : Option ExecutionPermit) (proposal : ActionProposal)
    (result : ExecutionResult) (events events' : List Event) : Prop :=
  ∃ asked answer : Event, events' = events ++ [asked] ++ [answer] ∧
    asked.eventType = .mutationAttempted ∧ asked.Names (namedPermit permit) ∧
    answer.eventType = result.eventType ∧ answer.Names (namedPermit permit) ∧
    answer.resourceId = namedResource permit proposal

section Executions

variable {e : Executor} {permitId : Option String} {proposal : ActionProposal}
variable {texts : TicketTexts} {v v' : World} {res : Except PyError ExecutionResult}
variable {result : ExecutionResult}

/-- No response is lost before there is one. -/
theorem runChecks_not_lost {permit : Option ExecutionPermit} {err : PyError}
    (h : (e.runChecks permit proposal texts).run v = (.error err, v')) : ¬ err.Lost := by
  have hcut := e.runChecks_eq permit proposal texts fun _ => pure
  rw [bind_pure] at hcut
  rw [hcut] at h
  obtain ⟨err', hchecks, he⟩ | ⟨checked, t, -, h⟩ := Py.run_bind_cases h
  · cases he
    obtain ⟨_, -, ⟨_, he, hassess⟩ | ⟨_, he, -⟩ | ⟨_, -, he, -⟩⟩ := run_checks hchecks
    · cases he
      exact not_lost (assess_raises hassess)
    · cases he
    · cases he
  cases checked with
  | answered permit result => cases h
  | cleared permit =>
      dsimp only at h
      rw [bind_pure] at h
      obtain ⟨-, hcommit⟩ := run_injectedCommit h
      cases hcommit with
      | spoiled err injected => exact not_lost (injectAll_raises injected)
      | refused err injected hne commit =>
          rintro ⟨_, _, rfl⟩
          exact commitAll_not_lost commit

/-- An execution that does not raise is told by two events. -/
theorem run_execute_recorded (haudit : v.own.session.audit.isSome = true)
    (h : (e.execute permitId proposal texts).run v = (res, v'))
    (hlost : ∀ err, res = .error err → err.Lost) :
    ∃ result, Answers res result ∧
      Recorded (v.shared.loadPermit permitId) proposal result v.events v'.events := by
  obtain ⟨_, he, -⟩ | ⟨permit, hload, h⟩ := Py.run_query_bind h
  · cases he
  cases hload
  obtain ⟨err, hemit, rfl⟩ | ⟨_, t, hemit, h⟩ := Py.run_bind_cases h
  · exact absurd (hlost err rfl)
      (not_lost (resolveTarget_raises (run_executor_emit_error hemit).1))
  obtain ⟨asked, hasked, hattempt, hnames, -⟩ := run_executor_emit_event haudit hemit
  have haudit := (run_executor_emit_ok hemit).audited.trans haudit
  obtain ⟨err, hchecks, rfl⟩ | ⟨result, u, hchecks, h⟩ := Py.run_bind_cases h
  · exact absurd (hlost err rfl) (runChecks_not_lost hchecks)
  have hleft : u.own.session.audit = t.own.session.audit := (leaves_runChecks _).run hchecks
  obtain ⟨-, -, ⟨err, rfl, hcause⟩ | ⟨hres, -⟩ | ⟨hfresh, -, -, herror⟩⟩ := run_respond h
  · exact absurd (hlost err rfl) (not_lost (resolveTarget_raises hcause))
  all_goals
    obtain ⟨err, rfl, hcause⟩ | ⟨answer, hanswer, hevent⟩ :=
      run_respond_event (by rw [hleft]; exact haudit) h
    · exact absurd (hlost err rfl) (not_lost (resolveTarget_raises hcause))
    refine ⟨result, ?_, asked, answer, ?_, hattempt, hnames, hevent⟩
  · exact .inl hres
  · rw [hanswer, World.events_congr hleft, hasked]
  · -- without a permit there is nothing to lose
    cases hpermit : v.shared.loadPermit permitId with
    | none =>
        rw [hpermit, Executor.runChecks, Py.run_pure, Prod.mk.injEq] at hchecks
        cases hchecks.1
        cases hfresh
    | some permit =>
        obtain rfl := herror permit hpermit
        exact .inr ⟨hfresh, _, rfl, _, _, rfl⟩
  · rw [hanswer, World.events_congr hleft, hasked]

/-- **What an execution does to the database**, told by the event of its answer.  A commit
spends the permit that was presented; a replay has found its record; nothing but a commit
writes. -/
theorem Executed.effect_of_answers (h : Executed e permitId proposal texts v v' res)
    (hanswers : Answers res result) :
    (result.eventType ≠ .mutationCommitted ∧
      Injected (v.own.session.due (str proposal.action)) v.shared v'.shared ∧
      (result.eventType = .mutationReplayed → ∃ permit,
        v.shared.loadPermit permitId = some permit ∧ v.shared.Stored permit.permitId)) ∨
    (result.eventType = .mutationCommitted ∧ ∃ permit target now mid,
      v.shared.loadPermit permitId = some permit ∧
      Clear v.shared (e.clock (v.own.session.readings + v.own.session.tick)) permit proposal
        target ∧
      Injected (v.own.session.due (str proposal.action)) v.shared mid ∧
      (e.execution permit proposal texts now).Commits mid v'.shared) := by
  cases h with
  | answered other shared assessed =>
      obtain hres | ⟨-, _, he, -⟩ := hanswers
      · cases hres
        left
        have hfresh := assess_not_fresh assessed
        refine ⟨?_, shared ▸ Injected.refl _ _, fun hreplayed => ?_⟩
        · rw [Ne, ExecutionResult.eventType_committed, hfresh]
          exact Bool.false_ne_true
        · rcases assess_eq_some assessed with ⟨_, _, rfl⟩ | ⟨permit, hload, hstored⟩
          · cases hreplayed
          · obtain ⟨record, hrecord, -⟩ := storedResult_eq_some hstored
            obtain ⟨-, -, row, hfind, hrow⟩ := Database.loadPermit_eq_some hload
            refine ⟨permit, hload, row, hfind, ?_⟩
            rw [← PermitRow.permit_idempotencyKey, hrow, hrecord]
            rfl
      · cases he
  | failed err shared cause =>
      obtain hres | ⟨-, _, he, hlost⟩ := hanswers
      · cases hres
      · cases he
        rcases cause with cause | cause
        · exact absurd hlost (not_lost (resolveTarget_raises cause))
        · exact absurd hlost (not_lost (assess_raises cause))
  | overtaken permit target now resourceId version loaded clear injected =>
      obtain hres | ⟨-, _, he, -⟩ := hanswers
      · cases hres
        refine .inl ⟨?_, Injected.of_injectAll injected, fun hreplayed => by cases hreplayed⟩
        rw [Ne, ExecutionResult.eventType_committed]
        exact Bool.false_ne_true
      · cases he
  | spoiled err permit target now r loaded clear injected cause =>
      obtain hres | ⟨-, _, he, hlost⟩ := hanswers
      · cases hres
      · cases he
        rcases cause with rfl | cause | ⟨-, cause, -⟩
        · exact absurd hlost (not_lost (injectAll_raises injected))
        · exact absurd hlost (not_lost (resolveTarget_raises cause))
        · obtain ⟨_, _, rfl⟩ := hlost
          exact absurd cause commitAll_not_lost
  | committed permit target now mid r loaded clear injected commits responded =>
      right
      refine ⟨?_, permit, target, now, mid, loaded, clear, Injected.of_injectAll injected,
        commits⟩
      obtain rfl | ⟨hfresh, -⟩ := hanswers
      · cases responded
        rfl
      · exact ExecutionResult.eventType_committed.mpr hfresh

end Executions

/-! ## Stored records -/

section Stored

variable {runId : String} {n : Nat} {db db' : Database} {permitId : String}

/-- Injected changes leave the stored results alone. -/
theorem Injected.stored {due : List StateChange} (h : Injected due db db') :
    db'.Stored permitId ↔ db.Stored permitId := by
  unfold Database.Stored
  rw [h.executionPermits, h.executionRecords]

/-- The issue of a permit stores nothing. -/
theorem Numbered.stored_of_issue (h : Numbered runId n db) {row : PermitRow}
    (hkey : row.idempotencyKey = idempotencyKeyFor runId (n + 1) row.action row.resourceId)
    (hins : db.insertPermit row = .ok db') (hstored : db'.Stored permitId) :
    db.Stored permitId := by
  obtain ⟨permits, hpermits, rfl⟩ := Database.insertPermit_eq_ok.mp hins
  obtain ⟨row', hfind, hrecord⟩ := hstored
  rw [show _ = _ from Table.find?_insert? hpermits permitId] at hfind
  split_ifs at hfind with hid
  · cases hfind
    have hfree := h.unstored row.action row.resourceId
    rw [← hkey, Database.storedResult, Option.map_eq_none_iff] at hfree
    simp [hfree] at hrecord
  · exact ⟨row', hfind, hrecord⟩

/-- A commit stores the record of its permit and of no other one. -/
theorem Numbered.stored_of_commits (h : Numbered runId n db) {x : Execution}
    (hload : db.loadPermit (some x.permit.permitId) = some x.permit) (hx : x.Commits db db')
    (hstored : db'.Stored permitId) : db.Stored permitId ∨ permitId = x.permit.permitId := by
  obtain ⟨row, hfind, hrecord⟩ := hstored
  rw [hx.executionPermits, Database.markUsed, Table.find?_update, Option.map_eq_some_iff] at hfind
  obtain ⟨row', hfind, hrow⟩ := hfind
  have hkey : row.idempotencyKey = row'.idempotencyKey := by
    rw [← hrow]
    split_ifs <;> rfl
  rw [hkey, Table.find?_insert? hx.executionRecords] at hrecord
  split_ifs at hrecord with hsame
  · -- two permits with one key have one number
    right
    obtain ⟨-, -, own, hown, hpermit⟩ := Database.loadPermit_eq_some hload
    obtain ⟨hmem, hid⟩ := Table.find?_eq_some.mp hown
    obtain ⟨hmem', hid'⟩ := Table.find?_eq_some.mp hfind
    obtain ⟨k, -, hk, hkKey⟩ := h.permits own hmem
    obtain ⟨k', -, hk', hkKey'⟩ := h.permits row' hmem'
    have hown' : own.idempotencyKey = row'.idempotencyKey := by
      rw [← PermitRow.permit_idempotencyKey, hpermit]
      exact hsame
    have hnumber := idempotencyKeyFor_sequence (hkKey.symm.trans (hown'.trans hkKey'))
    rw [← hid, ← hid', hk, hk', hnumber]
  · exact .inl ⟨row', hfind, hrecord⟩

end Stored

/-! ## The chronicle -/

/-- **What holds between two stages.**  The trace is faithful so far and nothing is under
way, the stored records are those of the commits it tells of, and the permit of the last
execution was announced. -/
structure Chronicle (r : Runner) (v : World) : Prop where
  audited : v.own.session.audit.isSome = true
  numbered : Numbered r.runId v.own.session.sequence v.shared
  own : ∀ row ∈ v.shared.mutationLog, row.runId = r.runId
  logged : committedResources v.events = v.shared.mutationLog.map MutationRow.resourceId
  placed : Each Event.Placed v.events
  settled : ∀ permitId, ¬ Asked v.events permitId
  stored : ∀ permitId, v.shared.Stored permitId ↔ Shows v.events .mutationCommitted permitId
  last : ∀ permitId proposal, v.own.session.lastExecution = some (permitId, proposal) →
    Shows v.events .permitIssued permitId

section Chronicle

variable {r : Runner} {v v' : World}

/-- At the beginning there is nothing to tell. -/
theorem Chronicle.start {db : Database} (hseeded : db.Seeded) (proposals : List RawProposal)
    (failures : FailureSpec) : Chronicle r ⟨db, r.start proposals failures⟩ where
  audited := rfl
  numbered := Numbered.seeded hseeded
  own := by simp [hseeded.mutationLog]
  logged := by
    rw [hseeded.mutationLog]
    rfl
  placed := each_nil
  settled permitId := by
    rintro ⟨event, hlast, -⟩
    cases hlast
  stored permitId := by
    constructor
    · rintro ⟨row, hfind, -⟩
      have hmem := (Table.find?_eq_some.mp hfind).1
      rw [hseeded.executionPermits] at hmem
      cases hmem
    · rintro ⟨event, hmem, -⟩
      cases hmem
  last permitId proposal hlast := by cases hlast

/-- Whatever leaves all of it alone keeps it. -/
theorem Chronicle.of_core (h : v'.core = v.core) (hv : Chronicle r v) : Chronicle r v' := by
  simp only [World.core, Prod.mk.injEq] at h
  obtain ⟨hshared, haudit, hsequence, hlast⟩ := h
  have hevents := World.events_congr haudit
  constructor
  · rw [haudit]
    exact hv.audited
  · rw [hsequence, hshared]
    exact hv.numbered
  · rw [hshared]
    exact hv.own
  · rw [hevents, hshared]
    exact hv.logged
  · rw [hevents]
    exact hv.placed
  · rw [hevents]
    exact hv.settled
  · rw [hevents, hshared]
    exact hv.stored
  · rw [hevents, hlast]
    exact hv.last

/-- The event of a stage, no part of an execution. -/
def EventType.aside (eventType : EventType) : Bool :=
  eventType ≠ .mutationAttempted && !eventType.closes

/-- An event aside opens no attempt and closes none. -/
theorem EventType.aside_ne {eventType : EventType} (h : eventType.aside = true) :
    eventType ≠ .mutationAttempted ∧ eventType.closes = false := by
  cases eventType <;> simp_all [EventType.aside, EventType.closes]

/-- Such an event may stand wherever nothing is under way. -/
theorem Event.placed_aside {events : List Event} {event : Event}
    (h : event.eventType.aside = true) (hsettled : ∀ permitId, ¬ Asked events permitId) :
    event.Placed events := by
  obtain ⟨hattempted, hcloses⟩ := EventType.aside_ne h
  refine ⟨fun he => absurd he hattempted, fun he => ?_,
    fun permitId hasked => absurd hasked (hsettled permitId), fun he => ?_, fun he => ?_⟩
  · simp [hcloses] at he
  · simp [he, EventType.closes] at hcloses
  · simp [he, EventType.closes] at hcloses

/-- An event of a stage keeps the chronicle. -/
theorem Chronicle.emitted (h : Chronicle r v) {clock : Clock} {fields : EventFields}
    (haside : fields.eventType.aside = true) {res : Except PyError Unit}
    (hrun : (Py.emit clock fields).run v = (res, v')) :
    Chronicle r v' ∧ ∃ event : Event, event.toEventFields = fields ∧
      v'.events = v.events ++ [event] := by
  obtain ⟨event, hfields, hevents⟩ := run_emit_event h.audited hrun
  obtain ⟨-, hticks⟩ := run_emit _ _ hrun
  refine ⟨?_, event, hfields, hevents⟩
  rw [← hfields] at haside
  obtain ⟨hattempted, hcloses⟩ := EventType.aside_ne haside
  have hcommitted : event.eventType ≠ .mutationCommitted := by
    intro he
    simp [he, EventType.closes] at hcloses
  constructor
  · exact hticks.audited.trans h.audited
  · rw [hticks.sequence, hticks.shared]
    exact h.numbered
  · rw [hticks.shared]
    exact h.own
  · rw [hevents, committedResources_concat, if_neg hcommitted, List.append_nil, hticks.shared]
    exact h.logged
  · rw [hevents, each_concat]
    exact ⟨h.placed, Event.placed_aside haside h.settled⟩
  · intro permitId
    rw [hevents, asked_concat]
    exact fun hasked => hattempted hasked.1
  · intro permitId
    rw [hevents, shows_concat, hticks.shared, h.stored permitId]
    simp [hcommitted]
  · intro permitId proposal hlast
    rw [hticks.lastExecution] at hlast
    rw [hevents]
    exact (h.last permitId proposal hlast).append _

/-- The attempt of an execution may stand wherever nothing is under way. -/
theorem Event.placed_asked {events : List Event} {asked : Event} {permitId : String}
    (hattempt : asked.eventType = .mutationAttempted) (hnames : asked.Names permitId)
    (hsettled : ∀ permitId, ¬ Asked events permitId) : asked.Placed events := by
  refine ⟨fun _ => ⟨permitId, hnames⟩, fun he => ?_,
    fun id hasked => absurd hasked (hsettled id), fun he => ?_, fun he => ?_⟩
  · simp [hattempt, EventType.closes] at he
  · simp [hattempt] at he
  · simp [hattempt] at he

/-- The answer may stand behind it, if it tells of a commit or of a replay only where there
was one. -/
theorem Event.placed_answer {events : List Event} {asked answer : Event} {permitId : String}
    (hattempt : asked.eventType = .mutationAttempted) (hasks : asked.Names permitId)
    (hcloses : answer.eventType.closes = true) (hnames : answer.Names permitId)
    (hcommitted : answer.eventType = .mutationCommitted →
      Shows events .permitIssued permitId ∧ ¬ Shows events .mutationCommitted permitId)
    (hreplayed : answer.eventType = .mutationReplayed →
      Shows events .mutationCommitted permitId) : answer.Placed (events ++ [asked]) where
  attempted _ := ⟨permitId, hnames⟩
  asked _ := ⟨permitId, asked_concat.mpr ⟨hattempt, hasks⟩, hnames⟩
  answers id hasked := by
    obtain rfl := hasks.unique (asked_concat.mp hasked).2
    exact ⟨hcloses, hnames⟩
  committed he := by
    obtain ⟨hissued, hfresh⟩ := hcommitted he
    refine ⟨permitId, hnames, hissued.append _, fun hshown => ?_⟩
    rcases shows_concat.mp hshown with hshown | ⟨heq, -⟩
    · exact hfresh hshown
    · cases hattempt.symm.trans heq
  replayed he := ⟨permitId, hnames, (hreplayed he).append _⟩

/-- **An execution keeps the chronicle**, unless it raises anything but a lost response. -/
theorem Chronicle.executed (h : Chronicle r v) {permitId : String} {proposal : ActionProposal}
    {texts : TicketTexts} {res : Except PyError ExecutionResult}
    (hissued : Shows v.events .permitIssued permitId)
    (hrun : (r.executor.execute (some permitId) proposal texts).run v = (res, v'))
    (hlost : ∀ err, res = .error err → err.Lost) :
    Chronicle r v' ∧ Shows v'.events .permitIssued permitId := by
  obtain ⟨result, hanswers, asked, answer, hevents, hattempt, hasks, htype, hnames, hresource⟩ :=
    run_execute_recorded h.audited hrun hlost
  obtain ⟨hsteady, hexecuted⟩ := run_execute hrun
  have hcloses : answer.eventType.closes = true := htype ▸ result.eventType_closes
  have hasked : asked.Placed v.events := Event.placed_asked hattempt hasks h.settled
  have hopen : asked.eventType ≠ .mutationCommitted := by simp [hattempt]
  -- what does not depend on whether the execution committed comes first
  suffices hcase : (∀ row ∈ v'.shared.mutationLog, row.runId = r.runId) ∧
      committedResources v'.events = v'.shared.mutationLog.map MutationRow.resourceId ∧
      answer.Placed (v.events ++ [asked]) ∧
      ∀ id, v'.shared.Stored id ↔ Shows v'.events .mutationCommitted id by
    obtain ⟨hown, hlogged, hplaced, hstored⟩ := hcase
    refine ⟨⟨hsteady.audited.trans h.audited, ?_, hown, hlogged, ?_, fun id => ?_, hstored,
      fun id proposal hlast => ?_⟩, ?_⟩
    · rw [hsteady.sequence]
      exact hexecuted.numbered h.numbered
    · rw [hevents, each_concat, each_concat]
      exact ⟨⟨h.placed, hasked⟩, hplaced⟩
    · rw [hevents, asked_concat]
      rintro ⟨heq, -⟩
      simp [heq, EventType.closes] at hcloses
    · rw [hsteady.lastExecution] at hlast
      rw [hevents, List.append_assoc]
      exact (h.last id proposal hlast).append _
    · rw [hevents, List.append_assoc]
      exact hissued.append _
  have named : ∀ {permit : ExecutionPermit}, v.shared.loadPermit (some permitId) = some permit →
      permitId = permit.permitId ∧
        namedPermit (v.shared.loadPermit (some permitId)) = permit.permitId := by
    intro permit hload
    rw [hload]
    exact ⟨Option.some.inj (Database.loadPermit_eq_some hload).1, rfl⟩
  obtain ⟨hcommitted, hinjected, hreplayed⟩ | ⟨hcommitted, permit, target, now, mid, hload,
    hclear, hinjected, hcommits⟩ := hexecuted.effect_of_answers hanswers
  · -- nothing is logged, and nothing stored
    rw [← htype] at hcommitted
    refine ⟨?_, ?_, ?_, fun id => ?_⟩
    · rw [hinjected.mutationLog]
      exact h.own
    · rw [hevents, committedResources_concat, committedResources_concat, if_neg hopen,
        if_neg hcommitted, List.append_nil, List.append_nil, hinjected.mutationLog]
      exact h.logged
    · refine Event.placed_answer hattempt hasks hcloses hnames (fun he => absurd he hcommitted)
        fun he => ?_
      obtain ⟨permit, hload, hstored⟩ := hreplayed (htype ▸ he)
      rw [(named hload).2]
      exact (h.stored _).mp hstored
    · rw [hevents, shows_concat, shows_concat, hinjected.stored, h.stored id]
      simp [hopen, hcommitted]
  · -- one row is logged, and one record stored
    rw [← htype] at hcommitted
    obtain ⟨hid, hnamed⟩ := named hload
    rw [hnamed] at hasks hnames
    have hmid : mid.loadPermit (some permit.permitId) = some permit := by
      rw [← hid, ← hload, Database.loadPermit, Database.loadPermit, hinjected.executionPermits]
    refine ⟨?_, ?_, ?_, fun id => ?_⟩
    · rw [hcommits.mutationLog, hinjected.mutationLog]
      intro row hrow
      rcases List.mem_append.mp hrow with hrow | hrow
      · exact h.own row hrow
      · rw [List.mem_singleton.mp hrow]
        rfl
    · rw [hevents, committedResources_concat, committedResources_concat, if_neg hopen,
        if_pos hcommitted, List.append_nil, hcommits.mutationLog, hinjected.mutationLog,
        List.map_append, h.logged, hresource, hload]
      rfl
    · refine Event.placed_answer hattempt hasks hcloses hnames
        (fun _ => ⟨hid ▸ hissued, fun hshown => ?_⟩) fun he => by cases hcommitted.symm.trans he
      have hstored : v.shared.Settled permitId := .inl (hid ▸ (h.stored _).mpr hshown)
      exact hstored.not_clear hload hclear
    · rw [hevents, shows_concat, shows_concat, ← h.stored id]
      have hnew : answer.Names id ↔ id = permit.permitId :=
        ⟨fun hother => hother.unique hnames, fun heq => heq ▸ hnames⟩
      simp only [hopen, hcommitted, true_and, false_and, or_false, hnew]
      constructor
      · intro hstored
        have hmidStored := (h.numbered.injected hinjected).stored_of_commits hmid hcommits hstored
        exact hmidStored.imp_left hinjected.stored.mp
      · rintro (hstored | rfl)
        · exact (hinjected.stored.mpr hstored).aging (Later.commits hcommits).aging
        · exact Database.stored_of_commits hmid (Later.commits hcommits).aging hcommits

end Chronicle

/-! ## Stage by stage -/

section Stages

variable {r : Runner} {α : Type}

/-- What is left of the chronicle when a stage raises. -/
def Broken (r : Runner) (err : PyError) (v : World) : Prop := err.Lost → Chronicle r v

/-- The chronicle, with a permit that was announced. -/
def Announced (r : Runner) (permitId : String) (v : World) : Prop :=
  Chronicle r v ∧ Shows v.events .permitIssued permitId

/-- A stage that keeps the chronicle. -/
def Keeps (r : Runner) (p : Py α) : Prop :=
  p.Triple (Chronicle r) (fun _ => Chronicle r) (Broken r)

/-- What touches nothing the chronicle speaks of keeps it. -/
theorem keeps_of_leaves {p : Py α} (h : p.Leaves World.core) : Keeps r p :=
  (h.triple fun _ _ heq => Chronicle.of_core heq).conseq (fun _ hv => hv) (fun _ _ hv => hv)
    fun _ _ hv _ => hv

theorem keeps_raising (e : Except PyError α) : Keeps r (Py.raising e) :=
  keeps_of_leaves (Py.leaves_raising e)

/-- Events aside may come at any time. -/
theorem keeps_emit (clock : Clock) {fields : EventFields} (h : fields.eventType.aside = true) :
    Keeps r (Py.emit clock fields) :=
  .of_run (fun _ _ _ hv hrun => (hv.emitted h hrun).1)
    fun _ _ _ hv hrun _ => (hv.emitted h hrun).1

/-- A note of the run. -/
theorem keeps_note {f : Session → Session}
    (h : ∀ v : World, World.core ⟨v.shared, { v.own with session := f v.own.session }⟩ = v.core) :
    Keeps r (Py.touch f) :=
  keeps_of_leaves (Py.leaves_touch h)

theorem keeps_callLearns (f : Call → Call) : Keeps r (Py.callLearns f) :=
  keeps_of_leaves (Prog.Leaves.modify fun _ => rfl)

/-- The issue of a permit stores nothing and tells nothing. -/
theorem keeps_issuePermit {request : PermitRequest} (hkey : request.idempotencyKey = none) :
    Keeps r (r.issuer.issuePermit request) := by
  -- an issue shows in the permits alone, and a failed one only takes its number
  have mono : ∀ {v v' : World}, Chronicle r v →
      v'.own = { v.own with session := { v.own.session with
        sequence := v.own.session.sequence + 1, readings := v.own.session.readings + 1 } } →
      Numbered r.runId (v.own.session.sequence + 1) v'.shared →
      v'.shared.mutationLog = v.shared.mutationLog →
      (∀ id, v'.shared.Stored id ↔ v.shared.Stored id) → Chronicle r v' := by
    intro v v' hv hown hnumbered hlog hstored
    have hevents : v'.events = v.events := World.events_congr (by rw [hown])
    refine ⟨by rw [hown]; exact hv.audited, by rw [hown]; exact hnumbered,
      by rw [hlog]; exact hv.own, by rw [hevents, hlog]; exact hv.logged,
      by rw [hevents]; exact hv.placed,
      by rw [hevents]; exact hv.settled, fun id => ?_, fun id proposal hlast => ?_⟩
    · rw [hevents, hstored id, hv.stored id]
    · rw [hown] at hlast
      rw [hevents]
      exact hv.last id proposal hlast
  refine .of_run (fun v permit v' hv hrun => ?_) (fun v err v' hv hrun _ => ?_)
  · obtain ⟨hown, ⟨_, he, -⟩ | ⟨he, hins⟩⟩ := run_issuePermit hrun
    · cases he
    cases he
    obtain ⟨permits, -, heq⟩ := Database.insertPermit_eq_ok.mp hins
    refine mono hv hown (hv.numbered.issue rfl ?_ hins) (by rw [heq]) fun id => ⟨?_, fun hs => ?_⟩
    · simp [ExecutionPermit.row, PermitIssuer.permitAt, hkey, textOr, Runner.issuer]
    · refine hv.numbered.stored_of_issue ?_ hins
      simp [ExecutionPermit.row, PermitIssuer.permitAt, hkey, textOr, Runner.issuer]
    · exact hs.aging (Later.insertPermit hins).aging
  · obtain ⟨hown, ⟨_, -, hshared, -⟩ | ⟨he, -⟩⟩ := run_issuePermit hrun
    · refine mono hv hown ?_ (by rw [hshared]) fun id => by rw [hshared]
      rw [hshared]
      exact hv.numbered.mono (Nat.le_succ _)
    · cases he

/-- The permit is announced. -/
theorem announce (clock : Clock) {fields : EventFields} {permitId : String}
    (htype : fields.eventType = .permitIssued)
    (hextra : fields.extra = [("permit_id", .str permitId)]) :
    (Py.emit clock fields).Triple (Chronicle r) (fun _ => Announced r permitId) (Broken r) := by
  have haside : fields.eventType.aside = true := by
    rw [htype]
    rfl
  refine .of_run (fun v _ v' hv hrun => ?_) fun _ _ _ hv hrun _ => (hv.emitted haside hrun).1
  obtain ⟨hv', event, hfields, hevents⟩ := hv.emitted haside hrun
  refine ⟨hv', event, ?_, ?_, ?_⟩
  · rw [hevents]
    exact List.mem_append_right _ (List.mem_singleton_self event)
  · rw [hfields, htype]
  · unfold Event.Names
    rw [hfields, hextra]
    rfl

/-- The execution of an announced permit. -/
theorem announced_execute (permitId : String) (proposal : ActionProposal) (texts : TicketTexts) :
    (r.executor.execute (some permitId) proposal texts).Triple (Announced r permitId)
      (fun _ => Announced r permitId) fun err v => err.Lost → Announced r permitId v := by
  refine .of_run (fun v result v' hv hrun => ?_) (fun v err v' hv hrun hlost => ?_)
  · exact hv.1.executed hv.2 hrun fun err he => by cases he
  · exact hv.1.executed hv.2 hrun fun err' he => by
      cases he
      exact hlost

/-- What leaves the core alone keeps a permit announced. -/
theorem announced_of_leaves {p : Py α} (h : p.Leaves World.core) (permitId : String) :
    p.Triple (Announced r permitId) (fun _ => Announced r permitId) (Broken r) := by
  refine (h.triple fun v v' heq hv => ?_).conseq (fun _ hv => hv) (fun _ _ hv => hv)
    fun _ _ hv _ => hv.1
  have haudit : v'.own.session.audit = v.own.session.audit :=
    congrArg (fun core => core.2.1) heq
  refine ⟨hv.1.of_core heq, ?_⟩
  rw [World.events_congr haudit]
  exact hv.2

namespace Keeps

variable {β : Type}

theorem ret (a : α) : Keeps r (pure a) := Prog.Triple.ret a fun _ h => h

theorem bind {p : Py α} {k : α → Py β} (hp : Keeps r p) (hk : ∀ a, Keeps r (k a)) :
    Keeps r (p >>= k) :=
  Prog.Triple.bind hp hk

end Keeps

/-! ### Executions -/

/-- The run remembers a permit that was announced. -/
theorem announced_remember (permitId : String) (proposal : ActionProposal) :
    (Py.touch fun s => { s with lastExecution := some (permitId, proposal) }).Triple
      (Announced r permitId) (fun _ => Announced r permitId) (Broken r) := by
  rintro v ⟨hv, hshown⟩
  rw [Py.run_touch]
  refine ⟨⟨hv.audited, hv.numbered, hv.own, hv.logged, hv.placed, hv.settled, hv.stored, ?_⟩,
    hshown⟩
  intro id other hlast
  cases hlast
  exact hshown

/-- A permit that was announced is presented, and once more where the response was lost. -/
theorem announced_executeWithRetry (permitId : String) (proposal : ActionProposal) :
    (r.executeWithRetry permitId proposal).Triple (Announced r permitId)
      (fun _ => Chronicle r) (Broken r) := by
  refine Prog.Triple.tryCatch ((announced_execute permitId proposal {}).conseq (fun _ h => h)
    (fun _ _ h => h.1) fun _ _ h => h) fun err => ?_
  cases err with
  | responseTimeout tool key =>
      refine Prog.Triple.bind ?_ fun _ => (announced_execute permitId proposal {}).conseq
        (fun _ h => h) (fun _ _ h => h.1) fun _ _ h hlost => (h hlost).1
      exact (announced_of_leaves (Py.leaves_touch fun _ => rfl) permitId).conseq
        (fun _ h => h ⟨tool, key, rfl⟩) (fun _ _ h => h) fun _ _ h => h
  | _ => exact Prog.Triple.fail _ fun _ h hlost => (h hlost).1

/-- A permit is announced before it is presented. -/
theorem keeps_executeAllowed (proposal : ActionProposal) (decision : PolicyResult)
    (attempt : Nat) : Keeps r (r.executeAllowed proposal decision attempt) := by
  refine (keeps_issuePermit rfl).bind fun permit => ?_
  refine (keeps_callLearns _).bind fun _ => ?_
  refine Prog.Triple.bind (announce r.clock rfl rfl) fun _ => ?_
  refine Prog.Triple.bind (announced_remember permit.permitId proposal) fun _ => ?_
  refine Prog.Triple.bind (announced_executeWithRetry permit.permitId proposal) fun result => ?_
  exact (keeps_callLearns _).bind fun _ => .ret _

/-- So is the permit of a ticket. -/
theorem keeps_escalate (orderId : String) (reason : ReasonCode) (detail : String) :
    Keeps r (r.escalate orderId reason detail) := by
  refine (keeps_of_leaves (Py.leaves_query _)).bind fun order => ?_
  cases order with
  | none => exact (keeps_note fun _ => rfl).bind fun _ => .ret _
  | some order =>
      refine (keeps_raising _).bind fun proposal => ?_
      refine (keeps_issuePermit rfl).bind fun permit => ?_
      refine Prog.Triple.bind (announce r.clock rfl rfl) fun _ => ?_
      refine Prog.Triple.bind ((announced_execute permit.permitId proposal _).conseq
        (fun _ h => h) (fun _ _ h => h.1) fun _ _ h hlost => (h hlost).1) fun result => ?_
      exact Keeps.ret _

/-- A permit presented on purpose was announced when it was issued. -/
theorem keeps_replay : Keeps r r.replay := by
  have hlast : (Py.own fun s => s.lastExecution).Triple (Chronicle r)
      (fun last v => Chronicle r v ∧
        ∀ id proposal, last = some (id, proposal) → Shows v.events .permitIssued id)
      (Broken r) := by
    intro v hv
    rw [Py.run_own]
    exact ⟨hv, hv.last⟩
  refine Prog.Triple.bind hlast fun last => ?_
  cases last with
  | none => exact Prog.Triple.ret _ fun _ h => h.1
  | some last =>
      obtain ⟨permitId, proposal⟩ := last
      refine Prog.Triple.bind ((announced_execute permitId proposal {}).conseq
        (fun _ h => ⟨h.1, h.2 permitId proposal rfl⟩) (fun _ _ h => h.1)
        fun _ _ h hlost => (h hlost).1) fun result => ?_
      exact keeps_note fun _ => rfl

/-! ### Reading and reporting -/

theorem leaves_readCall (tool : String) (arguments : List (String × PlainValue))
    (fetch : Database → Except PyError α) (made left : Nat) :
    (ReadTools.call tool arguments fetch made left).Leaves World.core := by
  induction left generalizing made with
  | zero => exact .fail _
  | succ left ih =>
      refine .bind (by exact Py.leaves_touch fun _ => rfl) fun _ => ?_
      refine .bind (Py.leaves_update fun v => ?_) fun fails => ?_
      · cases hi : v.own.session.injector <;> simp [World.core, Session.readShouldFail, hi]
      · split_ifs
        · exact ih (made + 1)
        · exact Py.leaves_query fetch

theorem leaves_recovering {read : Py (Option α)} (h : read.Leaves World.core) :
    (ReadTools.recovering read).Leaves World.core := by
  refine .tryCatch (.bind h fun _ => .ret _) fun err => ?_
  cases err with
  | readUnavailable tool attempts => exact .ret _
  | _ => exact .fail _

theorem leaves_optional {read : Py (Option α)} (needed : Bool) (h : read.Leaves World.core) :
    (ReadTools.optional needed read).Leaves World.core := by
  unfold ReadTools.optional
  split_ifs
  · exact leaves_recovering h
  · exact .ret _

/-- Reads write no event. -/
theorem leaves_snapshot (proposal : ActionProposal) :
    (r.snapshot proposal).Leaves World.core := by
  refine .bind (leaves_recovering (leaves_readCall _ _ _ _ _)) fun order => ?_
  refine .bind (leaves_optional _ (leaves_readCall _ _ _ _ _)) fun payment => ?_
  refine .bind (leaves_optional _ (leaves_readCall _ _ _ _ _)) fun shipment => ?_
  refine .bind ?_ fun refundPolicy => .bind (Py.leaves_update fun _ => rfl) fun now => .ret _
  unfold ReadTools.policyOf
  split
  · exact .ret _
  · exact leaves_optional _ (leaves_readCall _ _ _ _ _)

/-- The end of a run only looks. -/
theorem keeps_finish (planned : Planned) : Keeps r (r.finish planned) := by
  have hquery : ∀ {β : Type} (f : Database → Except PyError β), Keeps r (Py.query f) :=
    fun f => keeps_of_leaves (Py.leaves_query f)
  have hown : ∀ {β : Type} (f : Session → β), Keeps r (Py.own f) :=
    fun f => keeps_of_leaves (Py.leaves_own f)
  have hverify : Keeps r (r.verify planned.orderId) := by
    refine (hquery _).bind fun order => (hquery _).bind fun payment => ?_
    refine (hquery _).bind fun shipment => (hquery _).bind fun refunded => ?_
    exact (keeps_emit _ rfl).bind fun _ => .ret _
  refine hverify.bind fun finalState => ?_
  have hreport : Keeps r (r.report planned.outcome planned.reasonCode finalState) := by
    refine (hquery _).bind fun rows => (hquery _).bind fun refunds => ?_
    refine (hquery _).bind fun tickets => (hown _).bind fun toolCalls => ?_
    exact (hown _).bind fun recovered => (hown _).bind fun notes => .ret _
  exact hreport.bind fun report => (keeps_emit _ rfl).bind fun _ => .ret _

/-! ### The loops -/

/-- An attempt keeps the trace faithful. -/
theorem keeps_attempt (n : Nat) (orderId : String) : Keeps r (r.attempt n orderId) := by
  refine (keeps_of_leaves (Prog.Leaves.atomically fun _ => rfl)).bind fun raw => ?_
  refine (keeps_emit _ rfl).bind fun _ => ?_
  split
  · exact (keeps_emit _ rfl).bind fun _ => .ret _
  · refine (keeps_emit _ rfl).bind fun _ => ?_
    refine (keeps_of_leaves (leaves_snapshot _)).bind fun s => ?_
    refine (keeps_raising _).bind fun decision => ?_
    refine (keeps_callLearns _).bind fun _ => Keeps.bind ?_ fun step => .ret _
    unfold Runner.proceed
    split_ifs
    · exact (keeps_emit _ rfl).bind fun _ => .ret _
    · exact (keeps_emit _ rfl).bind fun _ => (keeps_escalate _ _ _).bind fun _ => .ret _
    · exact (keeps_emit _ rfl).bind fun _ => keeps_executeAllowed _ _ _

/-- So does a whole run. -/
theorem keeps_run : Keeps r r.run := by
  have hhand : ∀ planned, Keeps r (r.handOver planned) := by
    intro planned
    unfold Runner.handOver
    split
    · exact .ret _
    · exact (keeps_escalate _ _ _).bind fun _ => .ret _
  refine triple_run keeps_attempt (fun fields haside => keeps_emit _ ?_)
    (fun text => keeps_note fun _ => rfl) (fun _ h _ => h) hhand (fun _ => keeps_replay)
    keeps_finish
  rw [haside]
  rfl

end Stages

/-! ## The trace and the ledger -/

/-- What the chronicle says of the trace. -/
theorem Chronicle.faithful {r : Runner} {v : World} (h : Chronicle r v) :
    Faithful v.events (v.shared.mutationLogRows r.runId) where
  logged := by
    have hrows : v.shared.mutationLogRows r.runId = v.shared.mutationLog :=
      List.filter_eq_self.mpr fun row hrow => decide_eq_true (h.own row hrow)
    rw [hrows]
    exact h.logged
  answered before event after hevents hattempt := by
    obtain ⟨permitId, hnames⟩ := (h.placed before event after hevents).attempted hattempt
    obtain hlast | ⟨answer, rest, hafter, hanswer⟩ := h.placed.next hevents
    · exact absurd ⟨event, hlast, hattempt, hnames⟩ (h.settled permitId)
    · obtain ⟨hcloses, hanswerNames⟩ :=
        hanswer.answers permitId (asked_concat.mpr ⟨hattempt, hnames⟩)
      exact ⟨permitId, answer, rest, hnames, hafter, hcloses, hanswerNames⟩
  placed := h.placed

/-- **The trace is faithful to the ledger.**  Whatever is proposed and whatever fails, with
every option of the runner: a run on a database of its own that returns, or raises a lost
response, leaves a trace whose commits are the rows it has logged, in their order.  Every
attempt is answered at once and nothing else is; a commit comes after the issue of its
permit and is the only one of it; a replay comes after the commit it repeats. -/
theorem trace_faithful {r : Runner} {db : Database} {proposals : List RawProposal}
    {failures : FailureSpec} {res : Except PyError RunReport} {v' : World}
    (hseeded : db.Seeded)
    (hrun : r.run.run ⟨db, r.start proposals failures⟩ = (res, v'))
    (hstop : ∀ err, res = .error err → err.Lost) :
    Faithful v'.events (v'.shared.mutationLogRows r.runId) := by
  have hstart := Chronicle.start (r := r) hseeded proposals failures
  cases res with
  | ok report => exact (Prog.Triple.ok keeps_run hstart hrun).faithful
  | error err => exact (Prog.Triple.error keeps_run hstart hrun (hstop err rfl)).faithful

/-- A run that goes from one proposal to the next. -/
def chainedRunner : Runner where
  clock := FixedClock.now { base := defaultClockBase }
  runId := "run_first"
  scenarioId := "chained"
  defaultOrderId := "ord_0001"
  chainProposals := true

/-- The response to the first refund and to the first ticket is lost. -/
def lostResponses : FailureSpec where
  postCommitTimeoutActions := [("issue_refund", 1), ("create_support_ticket", 1)]

/-- Where the run stops that refunds a delivered order and then asks for its cancellation. -/
def lostStopped : Except PyError RunReport × World :=
  chainedRunner.run.run ⟨seedWorld [("ord_0001", .delivered)],
    chainedRunner.start [.proposal refundFirst, .proposal cancelFirst] lostResponses⟩

/-- The refund is committed, lost and replayed; the ticket for the cancellation is committed
and lost, and the run raises. -/
theorem trace_faithful_lost :
    lostStopped.1 = .error (.responseTimeout "create_support_ticket"
      "idk_run_first_002_create_support_ticket_ord_0001") ∧
    committedResources lostStopped.2.events = ["pay_ord_0001", "ord_0001"] ∧
    Faithful lostStopped.2.events (lostStopped.2.shared.mutationLogRows "run_first") := by
  have hlost : lostStopped.1 = .error (.responseTimeout "create_support_ticket"
      "idk_run_first_002_create_support_ticket_ord_0001") := by decide +kernel
  refine ⟨hlost, by decide +kernel, trace_faithful (seedWorld_seeded _)
    (show chainedRunner.run.run _ = (lostStopped.1, lostStopped.2) from rfl) fun err he => ?_⟩
  rw [hlost] at he
  cases he
  exact ⟨_, _, rfl⟩

end BoundedRefund
