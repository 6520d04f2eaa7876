import BoundedRefund.Ledger
import BoundedRefund.Executions

/-!
# Replays

After a commit the permit is used and the record is stored, and neither is ever taken
back.  A later presentation of the permit therefore meets the same two facts, whatever
happened in between, and its answer depends on one thing only: which check comes
first.  The expiry check stands before the look at the record, so the stored result
is returned exactly while the permit has not expired (`replays_iff_unexpired`); after
that the caller of a committed execution is told `permit_expired`.
-/

namespace BoundedRefund

open Concurrent Relational

/-- The execution was committed: its permit is used and its record stored. -/
structure Spent (db : Database) (x : Execution) : Prop where
  permit : db.loadPermit (some x.permit.permitId) = some x.spentPermit
  stored : db.storedResult x.permit.idempotencyKey = some x.result.asReplay

namespace Spent

variable {db db' : Database} {x : Execution}

/-- Behind its execution a permit is spent. -/
theorem of_commits (hissued : Issued db x.permit) (h : x.Commits db db') : Spent db' x := by
  obtain ⟨hne, row, row', hrow, hkept, hfind⟩ := hissued
  constructor
  · have hfind' : db'.executionPermits.find? x.permit.permitId = some row'.spend := by
      have hid : row'.permitId = x.permit.permitId := (Table.find?_eq_some.mp hfind).2
      simp only [h.executionPermits, Database.markUsed, Table.find?_update, hfind,
        Option.map_some, hid, decide_true, if_true]
    rw [Database.loadPermit_of_find? hne hfind']
    rcases hkept with rfl | rfl <;>
      simp [Execution.spentPermit, ← hrow, PermitRow.spend, PermitRow.permit]
  · rw [Database.storedResult, h.find?_executionRecords]
    rfl

/-- A commit is never taken back. -/
theorem persists (h : Spent db x) (hp : Persists db db') : Spent db' x := by
  constructor
  · obtain ⟨-, hne, row, hfind, hrow⟩ := Database.loadPermit_eq_some h.permit
    obtain ⟨row', hfind', hkept⟩ := hp.permits _ _ hfind
    rw [show some x.permit.permitId = some x.spentPermit.permitId from rfl,
      Database.loadPermit_of_find? hne hfind', ← hrow]
    have hused : row.used = true := congrArg ExecutionPermit.used hrow
    rcases hkept with rfl | rfl
    · rfl
    · simp [PermitRow.spend, PermitRow.permit, hused]
  · obtain ⟨row, hrow, hres⟩ := storedResult_eq_some h.stored
    obtain ⟨row', hrow', rfl⟩ := hp.records _ _ hrow
    rw [Database.storedResult, hrow', hres]
    rfl

end Spent

/-- The checks on a used permit whose record is stored: only its expiry stands before
the stored result. -/
theorem assess_spent {db : Database} {x : Execution} {proposal : ActionProposal}
    {target : Target} (h : Spent db x) (haction : proposal.action = x.permit.action)
    (hresolve : db.resolveTarget proposal = .ok (some target))
    (htarget : target.resourceId = x.permit.resourceId) (now : Instant) :
    db.assess now (db.loadPermit (some x.permit.permitId)) proposal =
      match parseIso x.permit.expiresAt with
      | .error err => .error err
      | .ok expiresAt =>
          .ok (some (if expiresAt < now then rejected .permitExpired x.permit.resourceId
            else x.result.asReplay)) := by
  rw [h.permit]
  simp only [Database.assess, Execution.spentPermit, haction, ne_eq, not_true_eq_false,
    if_false, hresolve, htarget]
  cases hparse : parseIso x.permit.expiresAt with
  | error err => rfl
  | ok expiresAt =>
      simp only
      split_ifs
      · rfl
      · simp [Executor.lateChecks, h.stored]

section Later

variable {ι : Type} [DecidableEq ι] (service : Service ι) {db : Database}
variable {c c' c'' : Pool ι PyError Database Local Unit}

/-- What was committed at some point of an interleaving is committed ever after. -/
theorem spent_reaches (hreach : Pool.Reaches OutsideLedger (service.pool db) c)
    {x : Execution} (hissued : Issued c.shared x.permit)
    (hstep : Pool.Step OutsideLedger c c') (hcommit : x.Commits c.shared c'.shared)
    (hlater : Pool.Reaches OutsideLedger c' c'') : Spent c''.shared x := by
  have hverified := (Pool.reachable_sound Persists.refl (fun _ _ _ => Persists.trans)
    (fun _ _ => OutsideLedger.persists) (service.verified db) (hreach.tail hstep)).2
  have hpersists := (Pool.reachable_sound Persists.refl (fun _ _ _ => Persists.trans)
    (fun _ _ => OutsideLedger.persists) hverified hlater).1
  exact (Spent.of_commits hissued hcommit).persists hpersists

/-- **When a committed permit replays.**  An execution of the permit committed with
`x.result`; callers and changes by others went on in any way.  Presenting the permit
again, for a proposal of its action that resolves to its resource, returns the stored
result and leaves the database alone if and only if the clock reading the expiry
check takes is not past the permit's expiry. -/
theorem replays_iff_unexpired (hreach : Pool.Reaches OutsideLedger (service.pool db) c)
    {x : Execution} (hissued : Issued c.shared x.permit)
    (hstep : Pool.Step OutsideLedger c c') (hcommit : x.Commits c.shared c'.shared)
    (hlater : Pool.Reaches OutsideLedger c' c'') (e : Executor) (own : Local)
    {proposal : ActionProposal} (texts : TicketTexts) {target : Target}
    (haction : proposal.action = x.permit.action)
    (hresolve : c''.shared.resolveTarget proposal = .ok (some target))
    (htarget : target.resourceId = x.permit.resourceId) :
    (∃ own', (e.execute (some x.permit.permitId) proposal texts).run ⟨c''.shared, own⟩ =
        (.ok x.result.asReplay, ⟨c''.shared, own'⟩)) ↔
      ∃ expiresAt, parseIso x.permit.expiresAt = .ok expiresAt ∧
        e.clock (own.session.readings + own.session.tick) ≤ expiresAt := by
  have hassess := assess_spent (spent_reaches service hreach hissued hstep hcommit hlater)
    haction hresolve htarget (e.clock (own.session.readings + own.session.tick))
  obtain ⟨⟨r, v'⟩, hrun⟩ : ∃ out, (e.execute (some x.permit.permitId) proposal texts).run
      ⟨c''.shared, own⟩ = out := ⟨_, rfl⟩
  obtain ⟨-, hexec⟩ := run_execute hrun
  cases hparse : parseIso x.permit.expiresAt with
  | error err =>
      rw [hparse] at hassess
      obtain ⟨-, err', rfl⟩ := hexec.of_assess_error hassess
      simp [hrun]
  | ok expiresAt =>
      rw [hparse] at hassess
      obtain ⟨hshared, hr⟩ := hexec.of_assess_some hassess
      -- the response can raise only over the target, which resolves
      have hr : r = .ok (if expiresAt <
          e.clock (own.session.readings + own.session.tick) then
            rejected .permitExpired x.permit.resourceId else x.result.asReplay) := by
        rcases hr with hr | ⟨err, -, hcause⟩
        · exact hr
        · cases hresolve.symm.trans hcause
      rw [hrun, hr]
      constructor
      · rintro ⟨own', h⟩
        refine ⟨expiresAt, rfl, not_lt.mp fun hlt => ?_⟩
        simp [hlt, rejected, ExecutionResult.asReplay, Execution.result, WriteOutcome.result] at h
      · rintro ⟨_, he, hle⟩
        cases he
        refine ⟨v'.own, ?_⟩
        rw [if_neg (not_lt.mpr hle), show c''.shared = v'.shared from hshared.symm]

end Later

/-! ## A commit, and the caller asking again -/

/-- The two callers when the first one is about to commit. -/
def beforeCommit : Pool Bool PyError Database Local Unit :=
  (fun c => c.next false)^[11] (sharedPermitService.pool (seedWorld [("ord_0001", .paid)]))

/-- What it commits. -/
def sharedPermitExecution : Execution where
  runId := "run_a"
  permit :=
    { permitId := "prm_run_a_001", action := .cancelOrder, resourceId := "ord_0001"
      expectedResourceVersion := 1, maxAmountCents := 0
      expiresAt := toIso (defaultClockBase + seconds 120)
      idempotencyKey := "idk_run_a_001_cancel_order_ord_0001", used := false }
  proposal := cancelFirst
  texts := {}
  now := defaultClockBase

/-- An executor whose clock has gone on by so many seconds. -/
def executorAfter (elapsed : Int) : Executor where
  clock _ := defaultClockBase + seconds elapsed
  runId := "run_a"

/-- The next statement is a step. -/
theorem beforeCommit_step :
    Pool.Step OutsideLedger beforeCommit (beforeCommit.next false) :=
  .act _ (Pool.act_next (by decide +kernel))

/-- The permit was issued by then. -/
theorem beforeCommit_issued : Issued beforeCommit.shared sharedPermitExecution.permit :=
  ⟨by decide, sharedPermitExecution.permit.row defaultClockBase "run_a",
    sharedPermitExecution.permit.row defaultClockBase "run_a", rfl, .refl _,
    by decide +kernel⟩

/-- It is the commit of the permit. -/
theorem beforeCommit_commits :
    sharedPermitExecution.Commits beforeCommit.shared (beforeCommit.next false).shared := by
  have h : (executorAfter 0).commitAll
      ((executorAfter 0).authorization sharedPermitExecution.permit)
      sharedPermitExecution.permit sharedPermitExecution.proposal {} defaultClockBase
      beforeCommit.shared =
        .ok (sharedPermitExecution.result, (beforeCommit.next false).shared) := by
    decide +kernel
  exact (commitAll_eq_ok.mp h).2

/-- Two minutes later, to the second, the caller still gets the result. -/
theorem replays_iff_unexpired_sharedPermit :
    ∃ own', ((executorAfter 120).execute (some "prm_run_a_001")
        sharedPermitExecution.proposal {}).run
          ⟨(beforeCommit.next false).shared, { session := {} }⟩ =
      (.ok sharedPermitExecution.result.asReplay, ⟨(beforeCommit.next false).shared, own'⟩) := by
  have hresolve : (beforeCommit.next false).shared.resolveTarget
      sharedPermitExecution.proposal = .ok (some ⟨"ord_0001", 2, "CANCELLED"⟩) := by
    decide +kernel
  exact (replays_iff_unexpired sharedPermitService (Pool.reaches_iterate _ false 11)
    beforeCommit_issued beforeCommit_step beforeCommit_commits .refl (executorAfter 120)
    { session := {} } {} rfl hresolve rfl).mpr ⟨_, parseIso_toIso _, by decide +kernel⟩

/-- One second later it is told that its permit expired and that nothing was
committed, by a database that holds the result. -/
theorem expired_sharedPermit :
    Pool.Reaches OutsideLedger (sharedPermitService.pool (seedWorld [("ord_0001", .paid)]))
      beforeCommit ∧
    Issued beforeCommit.shared sharedPermitExecution.permit ∧
    Pool.Step OutsideLedger beforeCommit (beforeCommit.next false) ∧
    sharedPermitExecution.Commits beforeCommit.shared (beforeCommit.next false).shared ∧
    (beforeCommit.next false).shared.storedResult
      sharedPermitExecution.permit.idempotencyKey =
        some sharedPermitExecution.result.asReplay ∧
    (((executorAfter 121).execute (some "prm_run_a_001")
        sharedPermitExecution.proposal {}).run
          ⟨(beforeCommit.next false).shared, { session := {} }⟩).1 =
      .ok { committed := false, resourceId := "ord_0001",
            reasonCode := some .permitExpired } :=
  ⟨Pool.reaches_iterate _ false 11, beforeCommit_issued, beforeCommit_step,
    beforeCommit_commits, by decide +kernel, by decide +kernel⟩

end BoundedRefund
