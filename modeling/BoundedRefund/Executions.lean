import BoundedRefund.Clearance
import BoundedRefund.Undisturbed

/-!
# Executions nobody disturbs

Where nobody disturbs it, the checks are a function of the database and of one reading of
the clock (`Database.assess`), and the injected changes are a function of the database
(`injectAll`).  An execution ends in one of three ways, which `Executed` lists: nothing was
written, only injected changes were made, or an execution was committed behind them.
-/

namespace BoundedRefund

open Concurrent Relational

/-! ## The checks as a function -/

/-- The checks on a database that stands still, with the clock read as `now`: an
answer, or `none` for clearance. -/
def Database.assess (db : Database) (now : Instant) (permit : Option ExecutionPermit)
    (proposal : ActionProposal) : Except PyError (Option ExecutionResult) :=
  match permit with
  | none => .ok (some (rejected .permitMissing))
  | some permit =>
      if permit.action ≠ proposal.action then
        .ok (some (rejected .permitActionMismatch permit.resourceId))
      else
        match db.resolveTarget proposal with
        | .error err => .error err
        | .ok none => .ok (some (rejected .permitResourceMismatch permit.resourceId))
        | .ok (some target) =>
            if target.resourceId ≠ permit.resourceId then
              .ok (some (rejected .permitResourceMismatch permit.resourceId))
            else
              match parseIso permit.expiresAt with
              | .error err => .error err
              | .ok expiresAt =>
                  if expiresAt < now then
                    .ok (some (rejected .permitExpired permit.resourceId))
                  else Executor.lateChecks permit proposal target
                    (db.storedResult permit.idempotencyKey)

/-- The checks were passed. -/
structure Clear (db : Database) (now : Instant) (permit : ExecutionPermit)
    (proposal : ActionProposal) (target : Target) : Prop where
  action : permit.action = proposal.action
  resolved : db.resolveTarget proposal = .ok (some target)
  resource : target.resourceId = permit.resourceId
  unexpired : ∃ expiresAt, parseIso permit.expiresAt = .ok expiresAt ∧ now ≤ expiresAt
  unused : permit.used = false
  amount : proposal.amount ≤ permit.maxAmountCents
  version : target.version = permit.expectedResourceVersion
  fresh : db.storedResult permit.idempotencyKey = none
  transition : transitionAllowed proposal target = .ok true

/-- Checks that find nothing have cleared the permit. -/
theorem assess_eq_none {db : Database} {now : Instant} {permit : Option ExecutionPermit}
    {proposal : ActionProposal} (h : db.assess now permit proposal = .ok none) :
    ∃ p target, permit = some p ∧ Clear db now p proposal target := by
  cases permit with
  | none => simp [Database.assess] at h
  | some permit =>
      simp only [Database.assess] at h
      split_ifs at h with haction
      · simp at h
      split at h
      · cases h
      · simp at h
      · rename_i target hresolved
        split_ifs at h with hresource
        · simp at h
        split at h
        · cases h
        · rename_i expiresAt hparse
          split_ifs at h with hexpired
          · simp at h
          obtain ⟨hunused, hamount, hversion, hfresh, htrans⟩ :=
            Executor.lateChecks_eq_none h
          exact ⟨permit, target, rfl, not_not.mp haction, hresolved, not_not.mp hresource,
            ⟨expiresAt, hparse, not_lt.mp hexpired⟩, hunused, hamount, hversion, hfresh,
            htrans⟩

/-- A cleared permit passes the checks. -/
theorem Clear.assess {db : Database} {now : Instant} {permit : ExecutionPermit}
    {proposal : ActionProposal} {target : Target} (h : Clear db now permit proposal target) :
    db.assess now (some permit) proposal = .ok none := by
  obtain ⟨expiresAt, hparse, hle⟩ := h.unexpired
  simp [Database.assess, Executor.lateChecks, h.action, h.resolved, h.resource, hparse,
    not_lt.mpr hle, h.unused, not_lt.mpr h.amount, h.version, h.fresh, h.transition, Except.map]

/-- The target is the row the permit is for. -/
structure Addressed (db : Database) (permit : ExecutionPermit) (proposal : ActionProposal)
    (target : Target) : Prop where
  action : permit.action = proposal.action
  resolved : db.resolveTarget proposal = .ok (some target)
  resource : target.resourceId = permit.resourceId

/-- **What a rejection says**, check by check. -/
inductive Refusal (db : Database) (now : Instant) (permit : ExecutionPermit)
    (proposal : ActionProposal) : ReasonCode → Prop
  | action (mismatch : permit.action ≠ proposal.action) :
      Refusal db now permit proposal .permitActionMismatch
  | missing (missing : db.resolveTarget proposal = .ok none) :
      Refusal db now permit proposal .permitResourceMismatch
  | resource (target : Target) (resolved : db.resolveTarget proposal = .ok (some target))
      (mismatch : target.resourceId ≠ permit.resourceId) :
      Refusal db now permit proposal .permitResourceMismatch
  | expired (expiresAt : Instant) (parsed : parseIso permit.expiresAt = .ok expiresAt)
      (late : expiresAt < now) : Refusal db now permit proposal .permitExpired
  | used (used : permit.used = true) : Refusal db now permit proposal .permitAlreadyUsed
  | amount (beyond : permit.maxAmountCents < proposal.amount) :
      Refusal db now permit proposal .permitAmountExceeded
  | stale (target : Target) (addressed : Addressed db permit proposal target)
      (fresh : db.storedResult permit.idempotencyKey = none)
      (moved : target.version ≠ permit.expectedResourceVersion) :
      Refusal db now permit proposal .staleResourceVersion
  | transition (target : Target) (addressed : Addressed db permit proposal target)
      (version : target.version = permit.expectedResourceVersion)
      (barred : transitionAllowed proposal target = .ok false) :
      Refusal db now permit proposal .transitionNotAllowed

/-- What the late checks answer is a rejection, or the stored result under the permit's key. -/
theorem lateChecks_eq_some {db : Database} {now : Instant} {permit : ExecutionPermit}
    {proposal : ActionProposal} {target : Target} {result : ExecutionResult}
    (haddressed : Addressed db permit proposal target)
    (h : Executor.lateChecks permit proposal target (db.storedResult permit.idempotencyKey) =
      .ok (some result)) :
    (∃ reason, result = rejected reason permit.resourceId ∧
        Refusal db now permit proposal reason) ∨
      db.storedResult permit.idempotencyKey = some result := by
  cases hs : db.storedResult permit.idempotencyKey with
  | some stored =>
      simp only [Executor.lateChecks, hs, Option.getD_some] at h
      split_ifs at h with hused hamount hversion <;>
        simp only [Except.ok.injEq, Option.some.injEq] at h
      · exact .inr (by rw [h])
      · exact .inl ⟨_, h.symm, .amount hamount⟩
      · exact .inr (by rw [h])
      · exact .inr (by rw [h])
  | none =>
      left
      simp only [Executor.lateChecks, hs, Option.getD_none] at h
      split_ifs at h with hused hamount hversion
      · exact ⟨_, by simpa using h.symm, .used hused⟩
      · exact ⟨_, by simpa using h.symm, .amount hamount⟩
      · exact ⟨_, by simpa using h.symm, .stale target haddressed hs hversion⟩
      · cases ht : transitionAllowed proposal target with
        | error err => simp [ht, Except.map] at h
        | ok allowed =>
            cases allowed with
            | true => simp [ht, Except.map] at h
            | false =>
                exact ⟨_, by simpa [ht, Except.map] using h.symm,
                  .transition target haddressed (not_not.mp hversion) ht⟩

/-- What the checks answer about a permit is a rejection, or the stored result under its
key. -/
theorem assess_refusal {db : Database} {now : Instant} {permit : ExecutionPermit}
    {proposal : ActionProposal} {result : ExecutionResult}
    (h : db.assess now (some permit) proposal = .ok (some result)) :
    (∃ reason, result = rejected reason permit.resourceId ∧
        Refusal db now permit proposal reason) ∨
      db.storedResult permit.idempotencyKey = some result := by
  simp only [Database.assess] at h
  split_ifs at h with haction
  · exact .inl ⟨_, by simpa using h.symm, .action haction⟩
  split at h
  · cases h
  · rename_i hmissing
    exact .inl ⟨_, by simpa using h.symm, .missing hmissing⟩
  rename_i target hresolved
  split_ifs at h with hresource
  · exact .inl ⟨_, by simpa using h.symm, .resource target hresolved hresource⟩
  split at h
  · cases h
  rename_i expiresAt hparse
  split_ifs at h with hexpired
  · exact .inl ⟨_, by simpa using h.symm, .expired expiresAt hparse hexpired⟩
  · exact lateChecks_eq_some ⟨not_not.mp haction, hresolved, not_not.mp hresource⟩ h

/-- What the checks answer is a rejection, or the stored result under the permit's
key. -/
theorem assess_eq_some {db : Database} {now : Instant} {permit : Option ExecutionPermit}
    {proposal : ActionProposal} {result : ExecutionResult}
    (h : db.assess now permit proposal = .ok (some result)) :
    (∃ reason resourceId, result = rejected reason resourceId) ∨
      ∃ p, permit = some p ∧ db.storedResult p.idempotencyKey = some result := by
  cases permit with
  | none =>
      simp only [Database.assess, Except.ok.injEq, Option.some.injEq] at h
      exact Or.inl ⟨_, _, h.symm⟩
  | some permit =>
      rcases assess_refusal h with ⟨reason, rfl, -⟩ | hstored
      · exact .inl ⟨reason, _, rfl⟩
      · exact .inr ⟨permit, rfl, hstored⟩

/-- A stored result comes back as a replay. -/
theorem storedResult_eq_some {db : Database} {key : String} {result : ExecutionResult}
    (h : db.storedResult key = some result) :
    ∃ row, db.executionRecords.find? key = some row ∧ result = row.result.asReplay := by
  rw [Database.storedResult, Option.map_eq_some_iff] at h
  obtain ⟨row, hrow, rfl⟩ := h
  exact ⟨row, hrow, rfl⟩

/-- Nothing the checks answer is a fresh commit. -/
theorem assess_not_fresh {db : Database} {now : Instant} {permit : Option ExecutionPermit}
    {proposal : ActionProposal} {result : ExecutionResult}
    (h : db.assess now permit proposal = .ok (some result)) : result.fresh = false := by
  rcases assess_eq_some h with ⟨reason, resourceId, rfl⟩ | ⟨p, -, hs⟩
  · rfl
  · obtain ⟨row, -, rfl⟩ := storedResult_eq_some hs
    simp [ExecutionResult.fresh, ExecutionResult.asReplay]

section Checks

variable {e : Executor} {proposal : ActionProposal} {texts : TicketTexts} {v v' : World}

/-- The checks come to what `assess` says. -/
theorem run_checks {permit : Option ExecutionPermit} {res : Except PyError Checked}
    (h : (e.checks permit proposal).run v = (res, v')) :
    ∃ k, Ticks k v v' ∧
      ((∃ err, res = .error err ∧
          v.shared.assess (e.clock v.own.session.readings) permit proposal = .error err) ∨
        (∃ result, res = .ok (.answered permit result) ∧
          v.shared.assess (e.clock v.own.session.readings) permit proposal =
            .ok (some result) ∧ (result.reasonCode = some .permitExpired → k = 1)) ∨
        ∃ p, permit = some p ∧ res = .ok (.cleared p) ∧
          v.shared.assess (e.clock v.own.session.readings) permit proposal = .ok none ∧
          k = 1) := by
  cases permit with
  | none =>
      simp only [Executor.checks, Py.run_pure, Prod.mk.injEq] at h
      obtain ⟨rfl, rfl⟩ := h
      exact ⟨0, Ticks.refl v, Or.inr (Or.inl ⟨_, rfl, rfl, by simp [rejected]⟩)⟩
  | some permit =>
      simp only [Executor.checks] at h
      simp only [Database.assess]
      split_ifs at h ⊢ with haction
      · rw [Py.run_pure, Prod.mk.injEq] at h
        obtain ⟨rfl, rfl⟩ := h
        exact ⟨0, Ticks.refl v, Or.inr (Or.inl ⟨_, rfl, rfl, by simp [rejected]⟩)⟩
      obtain ⟨err, hq, rfl, rfl⟩ | ⟨target, hq, h⟩ := Py.run_query_bind h
      · exact ⟨0, Ticks.refl v', Or.inl ⟨err, rfl, by rw [hq]⟩⟩
      rw [hq]
      cases target with
      | none =>
          rw [Py.run_pure, Prod.mk.injEq] at h
          obtain ⟨rfl, rfl⟩ := h
          exact ⟨0, Ticks.refl v, Or.inr (Or.inl ⟨_, rfl, rfl, by simp [rejected]⟩)⟩
      | some target =>
          dsimp only at h ⊢
          split_ifs at h ⊢ with hresource
          · rw [Py.run_pure, Prod.mk.injEq] at h
            obtain ⟨rfl, rfl⟩ := h
            exact ⟨0, Ticks.refl v, Or.inr (Or.inl ⟨_, rfl, rfl, by simp [rejected]⟩)⟩
          -- the clock is read once, and every later answer is behind that reading
          obtain ⟨u, hu, h⟩ := Py.run_now_bind h
          obtain ⟨err, hp, rfl, rfl⟩ | ⟨expiresAt, hp, h⟩ := Py.run_raising_bind h
          · exact ⟨1, hu, Or.inl ⟨err, rfl, by rw [hp]⟩⟩
          rw [hp]
          dsimp only
          split_ifs at h ⊢ with hexpired
          · rw [Py.run_pure, Prod.mk.injEq] at h
            obtain ⟨rfl, rfl⟩ := h
            exact ⟨1, hu, Or.inr (Or.inl ⟨_, rfl, rfl, fun _ => rfl⟩)⟩
          obtain ⟨err, hs, -⟩ | ⟨stored, hs, h⟩ := Py.run_query_bind h
          · cases hs
          rw [hu.shared] at hs
          cases hs
          obtain ⟨err, hl, rfl, rfl⟩ | ⟨answer, hl, h⟩ := Py.run_raising_bind h
          · exact ⟨1, hu, Or.inl ⟨err, rfl, hl⟩⟩
          rw [hl]
          cases answer with
          | some result =>
              rw [Py.run_pure, Prod.mk.injEq] at h
              obtain ⟨rfl, rfl⟩ := h
              exact ⟨1, hu, Or.inr (Or.inl ⟨result, rfl, rfl, fun _ => rfl⟩)⟩
          | none =>
              rw [Py.run_pure, Prod.mk.injEq] at h
              obtain ⟨rfl, rfl⟩ := h
              exact ⟨1, hu, Or.inr (Or.inr ⟨permit, rfl, rfl, rfl, rfl⟩)⟩

/-- The check phase writes nothing, and comes to what `assess` says of the permit it found,
unless the look at the target raises. -/
theorem run_check {permitId : Option String} {res : Except PyError Checked}
    (h : (e.check permitId proposal).run v = (res, v')) :
    ∃ k, Ticks k v v' ∧
      ((∃ err, res = .error err ∧ (v.shared.resolveTarget proposal = .error err ∨
          v.shared.assess (e.clock (v.own.session.readings + v.own.session.tick))
            (v.shared.loadPermit permitId) proposal = .error err)) ∨
        (∃ result, res = .ok (.answered (v.shared.loadPermit permitId) result) ∧
          v.shared.assess (e.clock (v.own.session.readings + v.own.session.tick))
            (v.shared.loadPermit permitId) proposal = .ok (some result) ∧
          (result.reasonCode = some .permitExpired → k = v.own.session.tick + 1)) ∨
        ∃ permit target, v.shared.loadPermit permitId = some permit ∧
          res = .ok (.cleared permit) ∧
          Clear v.shared (e.clock (v.own.session.readings + v.own.session.tick)) permit
            proposal target ∧ k = v.own.session.tick + 1) := by
  obtain ⟨err, hq, -⟩ | ⟨permit, hq, h⟩ := Py.run_query_bind h
  · cases hq
  cases hq
  obtain ⟨err, he, rfl⟩ | ⟨_, t, he, h⟩ := Py.run_bind_cases h
  · obtain ⟨hcause, rfl⟩ := run_executor_emit_error he
    exact ⟨0, Ticks.refl v', Or.inl ⟨err, rfl, Or.inl hcause⟩⟩
  -- the event is written before the response can be lost
  have ht := run_executor_emit_ok he
  obtain ⟨k, hk, hcases⟩ := run_checks h
  rw [ht.shared, ht.readings] at hcases
  refine ⟨_, ht.trans hk, ?_⟩
  rcases hcases with ⟨err, rfl, hassess⟩ | ⟨result, rfl, hassess, hexpired⟩ |
    ⟨p, hp, rfl, hassess, rfl⟩
  · exact Or.inl ⟨err, rfl, Or.inr hassess⟩
  · exact Or.inr (Or.inl ⟨result, rfl, hassess, fun h => by rw [hexpired h]⟩)
  · obtain ⟨p', target, hp', hclear⟩ := assess_eq_none hassess
    cases hp.symm.trans hp'
    exact Or.inr (Or.inr ⟨p, target, hp, rfl, hclear, rfl⟩)

/-! ## The injected changes as a function -/

/-- The changes, one after the other, up to the first that raises. -/
def injectAll : List StateChange → Database → Except PyError Unit × Database
  | [], db => (.ok (), db)
  | change :: changes, db =>
      match change.apply db with
      | .error err => (.error err, db)
      | .ok db => injectAll changes db

/-- The changes that are due before a commit of this action. -/
def Session.due (s : Session) (action : String) : List StateChange := (s.preCommit action).1

/-- The response to a commit of this action would be lost. -/
def Session.loses (s : Session) (action : String) : Bool :=
  s.injector.elim false fun injector => injector.timeoutLeft action

/-- A response is lost when a timeout of its action is left. -/
theorem Session.shouldTimeoutAfterCommit_fst (s : Session) (action : String) :
    (s.shouldTimeoutAfterCommit action).1 = s.loses action := by
  cases hi : s.injector with
  | none => simp [shouldTimeoutAfterCommit, loses, hi]
  | some injector =>
      simp only [shouldTimeoutAfterCommit, loses, hi, Option.elim_some,
        FailureInjector.shouldTimeoutAfterCommit]
      split_ifs with h
      · exact h.symm
      · simpa using h

/-- Changes are applied to the database, and the run's own state stays. -/
theorem run_applyAll (changes : List StateChange) (v : World) :
    (Py.applyPreCommit.applyAll changes).run v =
      ((injectAll changes v.shared).1, ⟨(injectAll changes v.shared).2, v.own⟩) := by
  induction changes generalizing v with
  | nil => rfl
  | cons change changes ih =>
      simp only [Py.applyPreCommit.applyAll, injectAll, Prog.bind_def, Prog.run_bind,
        Py.run_transaction]
      cases hap : change.apply v.shared with
      | error err => simp [Except.map]
      | ok db => simp [Except.map, ih]

/-- Which failures are still to come is all that the changes and the timeouts of the
future depend on. -/
theorem due_congr {v v' : World} (h : v'.own.session.injector.map FailureInjector.due =
      v.own.session.injector.map FailureInjector.due) (action : String) :
    v'.own.session.due action = v.own.session.due action ∧
      v'.own.session.loses action = v.own.session.loses action := by
  cases hi : v.own.session.injector with
  | none =>
      rw [hi, Option.map_none, Option.map_eq_none_iff] at h
      simp [Session.due, Session.loses, Session.preCommit, h, hi]
  | some injector =>
      rw [hi, Option.map_some, Option.map_eq_some_iff] at h
      obtain ⟨injector', h', hdue⟩ := h
      simp only [FailureInjector.due, Prod.mk.injEq] at hdue
      obtain ⟨hspec, hpre, hpost⟩ := hdue
      constructor
      · simp only [Session.due, Session.preCommit, h', hi, FailureInjector.preCommit, hspec, hpre]
        split_ifs <;> rfl
      · simp [Session.loses, h', hi, FailureInjector.timeoutLeft, hspec, hpost]

/-- What the changes leave alone: the clock, and the timeouts still to come. -/
structure Injects (v v' : World) : Prop extends Steady v v' where
  readings : v'.own.session.readings = v.own.session.readings
  loses : ∀ action, v'.own.session.loses action = v.own.session.loses action

/-- The changes that are due are applied, and counted. -/
theorem run_applyPreCommit {action : String} {r : Except PyError Unit}
    (h : (Py.applyPreCommit action).run v = (r, v')) :
    Injects v v' ∧ injectAll (v.own.session.due action) v.shared = (r, v'.shared) := by
  obtain ⟨err, hd, rfl⟩ | ⟨changes, t, hd, h⟩ := Py.run_bind_cases h
  · simp at hd
  rw [Py.run_update, Prod.mk.injEq, Except.ok.injEq] at hd
  obtain ⟨rfl, rfl⟩ := hd
  rw [run_applyAll, Prod.mk.injEq] at h
  obtain ⟨rfl, rfl⟩ := h
  refine ⟨?_, rfl⟩
  cases hi : v.own.session.injector with
  | none =>
      have hs : (v.own.session.preCommit action).2 = v.own.session := by
        simp [Session.preCommit, hi]
      simp only [hs]
      exact ⟨⟨rfl, rfl, rfl, rfl, rfl, rfl, le_rfl⟩, rfl, fun _ => rfl⟩
  | some injector =>
      have hs : (v.own.session.preCommit action).2 =
          { v.own.session with injector := some (injector.preCommit action).2 } := by
        simp [Session.preCommit, hi]
      simp only [hs]
      have hspec := (injector.preCommit_spec action).1
      have hpost : (injector.preCommit action).2.postCommitFired = injector.postCommitFired := by
        unfold FailureInjector.preCommit
        dsimp only
        split_ifs <;> rfl
      refine ⟨⟨rfl, rfl, rfl, rfl, rfl, ?_, le_rfl⟩, rfl, fun other => ?_⟩
      · simp [hi, hspec]
      · simp [Session.loses, hi, FailureInjector.timeoutLeft, hspec, hpost]

/-! ## The commit -/

/-- A commit reads the clock once, and leaves the failures alone. -/
theorem run_commit {permit : ExecutionPermit} {r : Except PyError ExecutionResult}
    (h : (e.commit permit proposal texts).run v = (r, v')) :
    Steady v v' ∧ v'.own.session.readings = v.own.session.readings + 1 ∧
      v'.own.session.injector = v.own.session.injector ∧
      ((∃ result, r = .ok result ∧
          e.commitAll (e.authorization permit) permit proposal texts
            (e.clock v.own.session.readings) v.shared = .ok (result, v'.shared)) ∨
        (v'.shared = v.shared ∧ r = .ok (rejected .staleResourceVersion permit.resourceId) ∧
          ∃ resourceId version, e.commitAll (e.authorization permit) permit proposal texts
            (e.clock v.own.session.readings) v.shared =
              .error (.staleResource resourceId version)) ∨
        (v'.shared = v.shared ∧ ∃ err, r = .error err ∧
          (∀ resourceId version, err ≠ .staleResource resourceId version) ∧
          e.commitAll (e.authorization permit) permit proposal texts
            (e.clock v.own.session.readings) v.shared = .error err)) := by
  simp only [Executor.commit, WriteAuthorization.mint, if_true, Prog.bind_def, Prog.run_bind,
    Py.run_raising, Py.now, Py.run_update, Py.record, Py.run_touch, Prog.tryCatch_def,
    Prog.run_tryCatch, Py.run_transaction] at h
  cases hc : e.commitAll (e.authorization permit) permit proposal texts
      (e.clock v.own.session.readings) v.shared with
  | ok committed =>
      obtain ⟨result, db⟩ := committed
      simp only [hc, Prod.mk.injEq] at h
      obtain ⟨rfl, rfl⟩ := h
      exact ⟨⟨rfl, rfl, rfl, rfl, rfl, rfl, Nat.le_succ _⟩, rfl, rfl, Or.inl ⟨result, rfl, rfl⟩⟩
  | error err =>
      simp only [hc] at h
      cases err with
      | staleResource resourceId version =>
          simp only [Py.run_pure, Prod.mk.injEq] at h
          obtain ⟨rfl, rfl⟩ := h
          exact ⟨⟨rfl, rfl, rfl, rfl, rfl, rfl, Nat.le_succ _⟩, rfl, rfl,
            Or.inr (Or.inl ⟨rfl, rfl, resourceId, version, rfl⟩)⟩
      | _ =>
          simp only [Py.run_throw, Prod.mk.injEq] at h
          obtain ⟨rfl, rfl⟩ := h
          exact ⟨⟨rfl, rfl, rfl, rfl, rfl, rfl, Nat.le_succ _⟩, rfl, rfl,
            Or.inr (Or.inr ⟨rfl, _, rfl, by simp, rfl⟩)⟩

/-- How the changes of a scenario and the commit behind them end. -/
inductive InjectedCommit (e : Executor) (permit : ExecutionPermit) (proposal : ActionProposal)
    (texts : TicketTexts) (due : List StateChange) (now : Instant) (db db' : Database) :
    Except PyError ExecutionResult → Prop
  | spoiled (err : PyError) (injected : injectAll due db = (.error err, db')) :
      InjectedCommit e permit proposal texts due now db db' (.error err)
  | refused (err : PyError) (injected : injectAll due db = (.ok (), db'))
      (hne : ∀ resourceId version, err ≠ .staleResource resourceId version)
      (commit : e.commitAll (e.authorization permit) permit proposal texts now db' =
        .error err) :
      InjectedCommit e permit proposal texts due now db db' (.error err)
  | overtaken (resourceId : String) (version : Int)
      (injected : injectAll due db = (.ok (), db'))
      (commit : e.commitAll (e.authorization permit) permit proposal texts now db' =
        .error (.staleResource resourceId version)) :
      InjectedCommit e permit proposal texts due now db db'
        (.ok (rejected .staleResourceVersion permit.resourceId))
  | committed (mid : Database) (result : ExecutionResult)
      (injected : injectAll due db = (.ok (), mid))
      (commit : e.commitAll (e.authorization permit) permit proposal texts now mid =
        .ok (result, db')) :
      InjectedCommit e permit proposal texts due now db db' (.ok result)

/-- What the changes and the commit leave alone. -/
structure Landing (v v' : World) (r : Except PyError ExecutionResult) : Prop
    extends Steady v v' where
  loses : ∀ action, v'.own.session.loses action = v.own.session.loses action
  readings : ∀ result, r = .ok result →
    v'.own.session.readings = v.own.session.readings + 1

/-- The injected changes and the commit behind them. -/
theorem run_injectedCommit {permit : ExecutionPermit} {r : Except PyError ExecutionResult}
    (h : (Py.applyPreCommit (str proposal.action) >>= fun _ =>
      e.commit permit proposal texts).run v = (r, v')) :
    Landing v v' r ∧ InjectedCommit e permit proposal texts
      (v.own.session.due (str proposal.action)) (e.clock v.own.session.readings) v.shared
      v'.shared r := by
  obtain ⟨err, hi, rfl⟩ | ⟨_, t, hi, h⟩ := Py.run_bind_cases h
  · obtain ⟨hinj, hall⟩ := run_applyPreCommit hi
    exact ⟨⟨hinj.toSteady, hinj.loses, fun _ hr => by cases hr⟩, .spoiled err hall⟩
  obtain ⟨hinj, hall⟩ := run_applyPreCommit hi
  obtain ⟨hsteady, hread, hinjector, hcases⟩ := run_commit h
  rw [hinj.readings] at hread hcases
  refine ⟨⟨hinj.toSteady.trans hsteady, fun action => ?_, fun _ _ => hread⟩, ?_⟩
  · rw [← hinj.loses action]
    simp only [Session.loses, hinjector]
  · rcases hcases with ⟨result, rfl, hc⟩ | ⟨hs, rfl, resourceId, version, hc⟩ |
      ⟨hs, err, rfl, hne, hc⟩
    · exact .committed t.shared result hall hc
    · exact .overtaken resourceId version (hs ▸ hall) (hs ▸ hc)
    · exact .refused err (hs ▸ hall) hne (hs ▸ hc)

/-- What follows clearance: the changes, the commit, and the answer to what it did. -/
theorem run_settle_cleared {permit : ExecutionPermit} {r : Except PyError ExecutionResult}
    (h : (e.settle proposal texts (.cleared permit)).run v = (r, v')) :
    ∃ t res, Landing v t res ∧ InjectedCommit e permit proposal texts
        (v.own.session.due (str proposal.action)) (e.clock v.own.session.readings) v.shared
        t.shared res ∧
      ((∃ err, res = .error err ∧ r = .error err ∧ v' = t) ∨
        ∃ result, res = .ok result ∧
          (e.respond proposal (some permit) result).run t = (r, v')) := by
  rw [Executor.settle_cleared] at h
  obtain ⟨err, hc, rfl⟩ | ⟨result, t, hc, h⟩ := Py.run_bind_cases h
  · obtain ⟨hlanding, hcommit⟩ := run_injectedCommit hc
    exact ⟨v', _, hlanding, hcommit, Or.inl ⟨err, rfl, rfl, rfl⟩⟩
  · obtain ⟨hlanding, hcommit⟩ := run_injectedCommit hc
    exact ⟨t, _, hlanding, hcommit, Or.inr ⟨result, rfl, h⟩⟩

/-! ## Executions -/

/-- How the executor answers a commit: the result, unless the response is lost or the
emission raises. -/
inductive Responded (e : Executor) (permit : ExecutionPermit) (proposal : ActionProposal)
    (result : ExecutionResult) (v v' : World) : Except PyError ExecutionResult → Prop
  | delivered (kept : v.own.session.loses (str proposal.action) = false) :
      Responded e permit proposal result v v' (.ok result)
  | lost (loses : v.own.session.loses (str proposal.action) = true)
      (readings : v'.own.session.readings =
        v.own.session.readings + 2 * v.own.session.tick + 2) :
      Responded e permit proposal result v v'
        (.error (.responseTimeout (str proposal.action) permit.idempotencyKey))
  | unreported (err : PyError) (cause : v'.shared.resolveTarget proposal = .error err) :
      Responded e permit proposal result v v' (.error err)

/-- **How an undisturbed execution ends.** -/
inductive Executed (e : Executor) (permitId : Option String) (proposal : ActionProposal)
    (texts : TicketTexts) (v v' : World) : Except PyError ExecutionResult → Prop
  /-- The checks answered. -/
  | answered (result : ExecutionResult) (shared : v'.shared = v.shared)
      (assessed : v.shared.assess (e.clock (v.own.session.readings + v.own.session.tick))
        (v.shared.loadPermit permitId) proposal = .ok (some result))
      (k : Nat) (ticks : Ticks k v v')
      (expired : result.reasonCode = some .permitExpired → k = 2 * v.own.session.tick + 1) :
      Executed e permitId proposal texts v v' (.ok result)
  /-- A check, or a look at the target, raised. -/
  | failed (err : PyError) (shared : v'.shared = v.shared)
      (cause : v.shared.resolveTarget proposal = .error err ∨
        v.shared.assess (e.clock (v.own.session.readings + v.own.session.tick))
          (v.shared.loadPermit permitId) proposal = .error err) :
      Executed e permitId proposal texts v v' (.error err)
  /-- The checks were passed, the row moved, the commit found it gone. -/
  | overtaken (permit : ExecutionPermit) (target : Target) (now : Instant)
      (resourceId : String) (version : Int)
      (loaded : v.shared.loadPermit permitId = some permit)
      (clear : Clear v.shared (e.clock (v.own.session.readings + v.own.session.tick)) permit
        proposal target)
      (injected : injectAll (v.own.session.due (str proposal.action)) v.shared =
        (.ok (), v'.shared))
      (stale : e.commitAll (e.authorization permit) permit proposal texts now v'.shared =
        .error (.staleResource resourceId version))
      (readings : v'.own.session.readings =
        v.own.session.readings + 2 * v.own.session.tick + 2)
      (loses : ∀ action, v'.own.session.loses action = v.own.session.loses action) :
      Executed e permitId proposal texts v v'
        (.ok (rejected .staleResourceVersion permit.resourceId))
  /-- The checks were passed, and something raised before anything was committed. -/
  | spoiled (err : PyError) (permit : ExecutionPermit) (target : Target) (now : Instant)
      (r : Except PyError Unit)
      (loaded : v.shared.loadPermit permitId = some permit)
      (clear : Clear v.shared (e.clock (v.own.session.readings + v.own.session.tick)) permit
        proposal target)
      (injected : injectAll (v.own.session.due (str proposal.action)) v.shared =
        (r, v'.shared))
      (cause : r = .error err ∨ v'.shared.resolveTarget proposal = .error err ∨
        (r = .ok () ∧ e.commitAll (e.authorization permit) permit proposal texts now v'.shared =
          .error err ∧ ∀ resourceId version, err ≠ .staleResource resourceId version)) :
      Executed e permitId proposal texts v v' (.error err)
  /-- An execution was committed. -/
  | committed (permit : ExecutionPermit) (target : Target) (now : Instant) (mid : Database)
      (r : Except PyError ExecutionResult)
      (loaded : v.shared.loadPermit permitId = some permit)
      (clear : Clear v.shared (e.clock (v.own.session.readings + v.own.session.tick)) permit
        proposal target)
      (injected : injectAll (v.own.session.due (str proposal.action)) v.shared =
        (.ok (), mid))
      (commits : (e.execution permit proposal texts now).Commits mid v'.shared)
      (responded : Responded e permit proposal (e.execution permit proposal texts now).result
        v v' r) :
      Executed e permitId proposal texts v v' r

/-- Without clearance nothing is written: the answer is that of the checks, or something
raises. -/
theorem Executed.of_uncleared {permitId : Option String} {r : Except PyError ExecutionResult}
    (h : Executed e permitId proposal texts v v' r)
    (ha : v.shared.assess (e.clock (v.own.session.readings + v.own.session.tick))
      (v.shared.loadPermit permitId) proposal ≠ .ok none) :
    v'.shared = v.shared ∧
      ((∃ result, r = .ok result ∧
        v.shared.assess (e.clock (v.own.session.readings + v.own.session.tick))
          (v.shared.loadPermit permitId) proposal = .ok (some result)) ∨
      ∃ err, r = .error err ∧ (v.shared.resolveTarget proposal = .error err ∨
        v.shared.assess (e.clock (v.own.session.readings + v.own.session.tick))
          (v.shared.loadPermit permitId) proposal = .error err)) := by
  cases h with
  | answered result shared assessed => exact ⟨shared, .inl ⟨result, rfl, assessed⟩⟩
  | failed err shared cause => exact ⟨shared, .inr ⟨err, rfl, cause⟩⟩
  | overtaken permit target now resourceId version loaded clear =>
      rw [loaded, clear.assess] at ha
      exact absurd rfl ha
  | spoiled err permit target now r loaded clear =>
      rw [loaded, clear.assess] at ha
      exact absurd rfl ha
  | committed permit target now mid r loaded clear =>
      rw [loaded, clear.assess] at ha
      exact absurd rfl ha

/-- Where the checks answer, that is the answer, and nothing is written. -/
theorem Executed.of_assess_some {permitId : Option String} {r : Except PyError ExecutionResult}
    (h : Executed e permitId proposal texts v v' r) {result : ExecutionResult}
    (ha : v.shared.assess (e.clock (v.own.session.readings + v.own.session.tick))
      (v.shared.loadPermit permitId) proposal = .ok (some result)) :
    v'.shared = v.shared ∧
      (r = .ok result ∨ ∃ err, r = .error err ∧ v.shared.resolveTarget proposal = .error err) := by
  obtain ⟨shared, ⟨result', rfl, assessed⟩ | ⟨err, rfl, cause⟩⟩ :=
    h.of_uncleared (by rw [ha]; simp)
  · cases ha.symm.trans assessed
    exact ⟨shared, Or.inl rfl⟩
  · rcases cause with cause | cause
    · exact ⟨shared, Or.inr ⟨err, rfl, cause⟩⟩
    · cases ha.symm.trans cause

/-- Where the checks raise, nothing is written either. -/
theorem Executed.of_assess_error {permitId : Option String}
    {r : Except PyError ExecutionResult} (h : Executed e permitId proposal texts v v' r)
    {err : PyError}
    (ha : v.shared.assess (e.clock (v.own.session.readings + v.own.session.tick))
      (v.shared.loadPermit permitId) proposal = .error err) :
    v'.shared = v.shared ∧ ∃ err', r = .error err' := by
  obtain ⟨shared, ⟨result, rfl, assessed⟩ | ⟨err', rfl, -⟩⟩ := h.of_uncleared (by rw [ha]; simp)
  · cases ha.symm.trans assessed
  · exact ⟨shared, err', rfl⟩

/-- A lost response uses a timeout up, and nothing else. -/
theorem Steady.timeout (v : World) (action : String) :
    Steady v ⟨v.shared, { v.own with
        session := (v.own.session.shouldTimeoutAfterCommit action).2 }⟩ ∧
      (v.own.session.shouldTimeoutAfterCommit action).2.readings = v.own.session.readings := by
  unfold Session.shouldTimeoutAfterCommit
  cases hi : v.own.session.injector with
  | none => exact ⟨Steady.refl v, rfl⟩
  | some injector =>
      refine ⟨⟨rfl, rfl, rfl, rfl, rfl, ?_, le_rfl⟩, rfl⟩
      simp [hi, FailureInjector.spec_shouldTimeoutAfterCommit]

/-- The response to an answer of the checks or of the commit. -/
theorem run_respond {permit : Option ExecutionPermit} {result : ExecutionResult}
    {r : Except PyError ExecutionResult}
    (h : (e.respond proposal permit result).run v = (r, v')) :
    Steady v v' ∧ v'.shared = v.shared ∧
      ((∃ err, r = .error err ∧ v.shared.resolveTarget proposal = .error err) ∨
        (r = .ok result ∧
          (result.fresh = true → v.own.session.loses (str proposal.action) = false) ∧
          (result.fresh = false → Ticks v.own.session.tick v v')) ∨
        (result.fresh = true ∧ v.own.session.loses (str proposal.action) = true ∧
          v'.own.session.readings = v.own.session.readings + v.own.session.tick ∧
          ∀ p, permit = some p →
            r = .error (.responseTimeout (str proposal.action) p.idempotencyKey))) := by
  unfold Executor.respond at h
  split_ifs at h with hfresh hcommitted
  · obtain ⟨err, he, rfl⟩ | ⟨_, t, he, h⟩ := Py.run_bind_cases h
    · obtain ⟨hcause, rfl⟩ := run_executor_emit_error he
      exact ⟨Steady.refl _, rfl, Or.inl ⟨err, rfl, hcause⟩⟩
    have ht := run_executor_emit_ok he
    have h := Py.run_update_bind h
    obtain ⟨hsteady, hread⟩ := Steady.timeout t (str proposal.action)
    rw [ht.readings] at hread
    have hsteady := ht.toSteady.trans hsteady
    rw [Session.shouldTimeoutAfterCommit_fst, (due_congr ht.due _).2] at h
    cases hlost : v.own.session.loses (str proposal.action) with
    | false =>
        simp only [hlost, Bool.false_eq_true, if_false, Py.run_pure, Prod.mk.injEq] at h
        obtain ⟨rfl, rfl⟩ := h
        exact ⟨hsteady, ht.shared, Or.inr (Or.inl ⟨rfl, fun _ => rfl, by simp [hfresh]⟩)⟩
    | true =>
        simp only [hlost, if_true] at h
        cases permit with
        | none =>
            rw [Py.run_throw, Prod.mk.injEq] at h
            obtain ⟨rfl, rfl⟩ := h
            exact ⟨hsteady, ht.shared, Or.inr (Or.inr ⟨hfresh, rfl, hread, by simp⟩)⟩
        | some permit =>
            rw [Py.run_throw, Prod.mk.injEq] at h
            obtain ⟨rfl, rfl⟩ := h
            exact ⟨hsteady, ht.shared, Or.inr (Or.inr ⟨hfresh, rfl, hread, by simp⟩)⟩
  all_goals
    obtain ⟨err, he, rfl⟩ | ⟨_, t, he, h⟩ := Py.run_bind_cases h
    · obtain ⟨hcause, rfl⟩ := run_executor_emit_error he
      exact ⟨Steady.refl _, rfl, Or.inl ⟨err, rfl, hcause⟩⟩
    have ht := run_executor_emit_ok he
    rw [Py.run_pure, Prod.mk.injEq] at h
    obtain ⟨rfl, rfl⟩ := h
    exact ⟨ht.toSteady, ht.shared,
      Or.inr (Or.inl ⟨rfl, fun hf => absurd hf hfresh, fun _ => ht⟩)⟩

/-- Every undisturbed execution ends in one of the listed ways. -/
theorem run_execute {permitId : Option String} {r : Except PyError ExecutionResult}
    (h : (e.execute permitId proposal texts).run v = (r, v')) :
    Steady v v' ∧ Executed e permitId proposal texts v v' r := by
  rw [Executor.execute_eq] at h
  obtain ⟨err, hc, rfl⟩ | ⟨checked, t, hc, h⟩ := Py.run_bind_cases h
  · obtain ⟨k, hk, ⟨_, he, hcause⟩ | ⟨_, he, -⟩ | ⟨_, _, -, he, -⟩⟩ := run_check hc
    · cases he
      exact ⟨hk.toSteady, .failed err hk.shared hcause⟩
    · cases he
    · cases he
  obtain ⟨k, hk, ⟨_, he, -⟩ | ⟨result, he, hassess, hexpired⟩ |
    ⟨permit, target, hload, he, hclear, rfl⟩⟩ := run_check hc
  · cases he
  · -- the checks answered
    cases he
    obtain ⟨hresp, hshared, hcases⟩ := run_respond h
    refine ⟨hk.toSteady.trans hresp, ?_⟩
    have hv' : v'.shared = v.shared := hshared.trans hk.shared
    have hnot : result.fresh = false := assess_not_fresh hassess
    rcases hcases with ⟨err, rfl, hcause⟩ | ⟨rfl, -, hticks⟩ | ⟨hf, -⟩
    · exact .failed err hv' (Or.inl (by rwa [hk.shared] at hcause))
    · refine .answered result hv' hassess _ (hk.trans (hticks hnot)) fun hreason => ?_
      rw [hexpired hreason, hk.toSteady.tick]
      omega
    · simp [hnot] at hf
  -- the checks were passed
  cases he
  obtain ⟨u, res, hlanding, hcommit, hanswer⟩ := run_settle_cleared h
  rw [hk.shared, (due_congr hk.due _).1] at hcommit
  have hsteady := hk.toSteady.trans hlanding.toSteady
  have hloses : ∀ action, u.own.session.loses action = v.own.session.loses action :=
    fun action => by rw [hlanding.loses, (due_congr hk.due action).2]
  obtain ⟨err, rfl, rfl, rfl⟩ | ⟨result, rfl, hrespond⟩ := hanswer
  · refine ⟨hsteady, ?_⟩
    cases hcommit with
    | spoiled err injected => exact .spoiled err permit target 0 _ hload hclear injected (.inl rfl)
    | refused err injected hne commit =>
        exact .spoiled err permit target _ _ hload hclear injected
          (.inr (.inr ⟨rfl, commit, hne⟩))
  obtain ⟨hresp, hshared, hcases⟩ := run_respond hrespond
  have hread := hlanding.readings result rfl
  rw [hk.readings] at hread
  refine ⟨hsteady.trans hresp, ?_⟩
  rw [← hshared] at hcommit
  cases hcommit with
  | overtaken resourceId version injected commit =>
      rcases hcases with ⟨err, rfl, hcause⟩ | ⟨rfl, -, hticks⟩ | ⟨hf, -⟩
      · exact .spoiled err permit target 0 _ hload hclear injected
          (.inr (.inl (by rwa [← hshared] at hcause)))
      · have hticks := hticks rfl
        refine .overtaken permit target _ resourceId version hload hclear injected commit ?_
          fun action => ?_
        · rw [hticks.readings, hread, hsteady.tick]
          omega
        · rw [(due_congr hticks.due action).2, hloses]
      · simp [ExecutionResult.fresh, rejected] at hf
  | committed mid result injected commit =>
      obtain ⟨rfl, hcommits⟩ := commitAll_eq_ok.mp commit
      refine .committed permit target _ mid r hload hclear injected hcommits ?_
      rcases hcases with ⟨err, rfl, hcause⟩ | ⟨rfl, hkept, -⟩ | ⟨-, hlost, hread', hr⟩
      · exact .unreported err (by rwa [← hshared] at hcause)
      · exact .delivered (hloses _ ▸ hkept rfl)
      · rw [hr permit rfl]
        refine .lost (hloses _ ▸ hlost) ?_
        rw [hread', hread, hsteady.tick]
        omega

end Checks

end BoundedRefund
