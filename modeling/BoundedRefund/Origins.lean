import BoundedRefund.Replay
import BoundedRefund.Untouched

/-!
# Where a replay comes from

A replay is answered from the record under the key of the permit.  The record does not name
the permit it was made for, and the look-up does not ask: whatever stands under the key is
the answer.  Every record was made by a commit (`record_committed`), so a replay reports
some commit, and it is the permit's own exactly when no other used permit has the key
(`replay_own_iff`).

Derived keys do not rule that out.  A key is put together with underscores, and run ids and
order ids may contain underscores themselves (`foreign_replay`).
-/

namespace BoundedRefund

open Concurrent Relational

section Origins

variable {ι : Type} [DecidableEq ι] (service : Service ι) (db : Database)

/-- A commit of `x` was one of the steps on the way to `c`. -/
def Service.Committed (c : Pool ι PyError Database Local Unit) (x : Execution) : Prop :=
  ∃ before after, Pool.Reaches OutsideLedger (service.pool db) before ∧
    Pool.Step OutsideLedger before after ∧ Pool.Reaches OutsideLedger after c ∧
    Issued before.shared x.permit ∧ x.Commits before.shared after.shared

variable {service db} {c c' : Pool ι PyError Database Local Unit}

/-- An execution that was committed stays so. -/
theorem Service.Committed.step {x : Execution} (h : service.Committed db c x)
    (hstep : Pool.Step OutsideLedger c c') : service.Committed db c' x := by
  obtain ⟨before, after, hbefore, hcommit, hlater, hx⟩ := h
  exact ⟨before, after, hbefore, hcommit, hlater.tail hstep, hx⟩

/-- What was committed is spent ever after. -/
theorem Service.Committed.spent {x : Execution} (h : service.Committed db c x) :
    Spent c.shared x := by
  obtain ⟨before, after, hbefore, hcommit, hlater, hissued, hx⟩ := h
  exact spent_reaches service hbefore hissued hcommit hx hlater

/-- **Every record was made by a commit.** -/
theorem record_committed (hseeded : db.Seeded)
    (hreach : Pool.Reaches OutsideLedger (service.pool db) c) {row : RecordRow}
    (hrow : row ∈ c.shared.executionRecords.rows) :
    ∃ x, service.Committed db c x ∧ row = x.recordRow := by
  induction hreach with
  | refl =>
      rw [show (service.pool db).shared = db from rfl, hseeded.executionRecords] at hrow
      cases hrow
  | @tail b d hreach hstep ih =>
      -- the records a step leaves alone have been accounted for
      have kept : d.shared.executionRecords = b.shared.executionRecords →
          ∃ x, service.Committed db d x ∧ row = x.recordRow := by
        intro hsame
        rw [hsame] at hrow
        obtain ⟨x, hx, heq⟩ := ih hrow
        exact ⟨x, hx.step hstep, heq⟩
      cases hstep with
      | env h => exact kept h.executionRecords
      | act i hact =>
          have hverified := (Pool.reachable_sound Persists.refl (fun _ _ _ => Persists.trans)
            (fun _ _ => OutsideLedger.persists) (service.verified db) hreach).2
          obtain ⟨-, hstatement⟩ := hact.guarantee Persists.refl hverified
          rcases hstatement with hquiet | ⟨_, _, hissue⟩ | ⟨_, _, hinject⟩ |
            ⟨x, hcleared, -, hx⟩
          · exact kept (congrArg Database.executionRecords hquiet)
          · change b.shared.insertPermit _ = .ok d.shared at hissue
            obtain ⟨permits, -, heq⟩ := Database.insertPermit_eq_ok.mp hissue
            exact kept (by rw [heq])
          · change StateChange.apply _ b.shared = .ok d.shared at hinject
            exact kept (Injected.apply (List.mem_singleton_self _) hinject).executionRecords
          · change x.Commits b.shared d.shared at hx
            rw [hx.executionRecords_rows, List.mem_append, List.mem_singleton] at hrow
            rcases hrow with hold | rfl
            · obtain ⟨y, hy, heq⟩ := ih hold
              exact ⟨y, hy.step (.act i hact), heq⟩
            · exact ⟨x, ⟨b, d, hreach, .act i hact, .refl, hcleared.issued, hx⟩, rfl⟩

end Origins

/-! ## Answers that are replays -/

section Answers

variable {e : Executor} {permitId : Option String} {proposal : ActionProposal}
variable {texts : TicketTexts} {v v' : World} {result : ExecutionResult}

/-- A replay is read from the record under the key of the permit. -/
theorem Executed.stored_of_replayed
    (h : Executed e permitId proposal texts v v' (.ok result))
    (hreplayed : result.replayed = true) :
    ∃ permit, v.shared.loadPermit permitId = some permit ∧
      v.shared.storedResult permit.idempotencyKey = some result := by
  generalize hr : (Except.ok result : Except PyError ExecutionResult) = r at h
  cases h with
  | answered result' _ hassess =>
      cases hr
      rcases assess_eq_some hassess with ⟨reason, resourceId, rfl⟩ | ⟨permit, hload, hstored⟩
      · cases hreplayed
      · exact ⟨permit, hload, hstored⟩
  | failed err => cases hr
  | overtaken =>
      cases hr
      cases hreplayed
  | spoiled err => cases hr
  | committed permit target now mid r _ _ _ _ hresponded =>
      cases hresponded with
      | delivered =>
          cases hr
          cases hreplayed
      | lost => cases hr
      | unreported => cases hr

end Answers

/-- No two used permits have the same key. -/
theorem Ledger.used_unique {db : Database} {xs : List Execution} (h : Ledger db xs)
    {row row' : PermitRow} (hrow : row ∈ db.executionPermits.rows)
    (hrow' : row' ∈ db.executionPermits.rows) (hused : row.used = true)
    (hused' : row'.used = true) (hkey : row.idempotencyKey = row'.idempotencyKey) :
    row.permitId = row'.permitId := by
  obtain ⟨x, hx, hpermit⟩ := h.record_of_used hrow hused
  obtain ⟨y, hy, hpermit'⟩ := h.record_of_used hrow' hused'
  have hkeys : x.permit.idempotencyKey = y.permit.idempotencyKey := by
    have hx := congrArg ExecutionPermit.idempotencyKey hpermit
    have hy := congrArg ExecutionPermit.idempotencyKey hpermit'
    exact hx.trans (hkey.trans hy.symm)
  have heq : x = y := List.inj_on_of_nodup_map h.keys hx hy hkeys
  rw [heq, hpermit'] at hpermit
  exact (congrArg ExecutionPermit.permitId hpermit).symm

/-! ## Own replays -/

section Own

variable {ι : Type} [DecidableEq ι] {service : Service ι} {db : Database}
variable {c : Pool ι PyError Database Local Unit} {e : Executor} {own : Local} {v' : World}
variable {permitId : Option String} {proposal : ActionProposal} {texts : TicketTexts}
variable {result : ExecutionResult}

/-- **When a replay is the permit's own.**  Any callers have issued and executed permits in
any way, and now a presented permit is answered by a replay.  The replay reports an earlier
commit of this permit, with its action and its resource, if and only if no other permit
that was used has the same idempotency key. -/
theorem replay_own_iff (hseeded : db.Seeded)
    (hreach : Pool.Reaches OutsideLedger (service.pool db) c)
    (hrun : (e.execute permitId proposal texts).run ⟨c.shared, own⟩ = (.ok result, v'))
    (hreplayed : result.replayed = true) :
    ∃ permit, c.shared.loadPermit permitId = some permit ∧
      ((∃ x, service.Committed db c x ∧ x.permit.permitId = permit.permitId ∧
          result = x.result.asReplay ∧ result.action = some permit.action ∧
          result.resourceId = permit.resourceId) ↔
        ∀ row ∈ c.shared.executionPermits.rows, row.used = true →
          row.idempotencyKey = permit.idempotencyKey → row.permitId = permit.permitId) := by
  obtain ⟨permit, hload, hstored⟩ :=
    (run_execute hrun).2.stored_of_replayed hreplayed
  refine ⟨permit, hload, ?_⟩
  obtain ⟨xs, hledger⟩ := exists_ledger_of_reaches (service.verified db)
    ⟨[], Ledger.seeded hseeded⟩ hreach
  -- the row of a committed permit, as it is now
  have row_of : ∀ {x}, service.Committed db c x → ∃ row ∈ c.shared.executionPermits.rows,
      row.used = true ∧ row.permit = x.spentPermit := by
    intro x hx
    obtain ⟨-, -, row, hfind, hrow⟩ := Database.loadPermit_eq_some hx.spent.permit
    exact ⟨row, (Table.find?_eq_some.mp hfind).1, congrArg ExecutionPermit.used hrow, hrow⟩
  constructor
  · rintro ⟨x, hx, hid, hresult, -⟩ row hmem hused hkey
    obtain ⟨own, hown, hownUsed, hownPermit⟩ := row_of hx
    have hownId : own.permitId = permit.permitId :=
      (congrArg ExecutionPermit.permitId hownPermit).trans hid
    -- the permit is loaded from the row of its own commit
    have hkeys : own.idempotencyKey = permit.idempotencyKey := by
      obtain ⟨-, -, loaded, hfind, hloaded⟩ := Database.loadPermit_eq_some hload
      have hfind' := Table.find?_of_mem hown
      rw [hownId, hfind] at hfind'
      cases hfind'
      exact congrArg ExecutionPermit.idempotencyKey hloaded
    rw [← hownId]
    exact hledger.used_unique hmem hown hused hownUsed (hkey.trans hkeys.symm)
  · intro hown
    obtain ⟨record, hfind, hresult⟩ := storedResult_eq_some hstored
    obtain ⟨hmem, hkey⟩ := Table.find?_eq_some.mp hfind
    obtain ⟨x, hx, rfl⟩ := record_committed hseeded hreach hmem
    obtain ⟨row, hrow, hused, hpermit⟩ := row_of hx
    have hid := hown row hrow hused
      ((congrArg ExecutionPermit.idempotencyKey hpermit).trans hkey)
    have hxid : x.permit.permitId = permit.permitId :=
      (congrArg ExecutionPermit.permitId hpermit).symm.trans hid
    -- so what is loaded is the permit of the commit, used
    have hsame : permit = x.spentPermit := by
      have hspent := hx.spent.permit
      rw [hxid, ← (Database.loadPermit_eq_some hload).1, hload, Option.some.injEq] at hspent
      exact hspent
    have haction : x.permit.action = x.proposal.action := by
      obtain ⟨_, _, -, -, -, -, hcommits⟩ := hx
      exact hcommits.action
    refine ⟨x, hx, hxid, hresult, ?_, ?_⟩
    · rw [hresult, hsame]
      exact congrArg some haction.symm
    · rw [hresult, hsame]
      rfl

end Own

/-! ## Asking again -/

/-- The first of the two callers has had its order cancelled. -/
def cancelledOnce : Pool Bool PyError Database Local Unit :=
  (sharedPermitService.pool (seedWorld [("ord_0001", .paid)])).finish false

/-- Its permit is presented once more, a minute later. -/
def askedAgain : Except PyError ExecutionResult × World :=
  ((executorAfter 60).execute (some "prm_run_a_001") cancelFirst {}).run
    ⟨cancelledOnce.shared, { session := {} }⟩

/-- The answer is the permit's own. -/
theorem replay_own_askedAgain :
    ∃ permit, cancelledOnce.shared.loadPermit (some "prm_run_a_001") = some permit ∧
      ∃ x, sharedPermitService.Committed (seedWorld [("ord_0001", .paid)]) cancelledOnce x ∧
        x.permit.permitId = permit.permitId ∧ askedAgain.1 = .ok x.result.asReplay := by
  have hanswer : askedAgain.1 = .ok
      { committed := true, action := some .cancelOrder, resourceId := "ord_0001",
        reasonCode := some .idempotentReplay, replayed := true, createdId := "ord_0001" } := by
    decide +kernel
  have hrun : ((executorAfter 60).execute (some "prm_run_a_001") cancelFirst {}).run
      ⟨cancelledOnce.shared, { session := {} }⟩ = (.ok _, askedAgain.2) :=
    Prod.ext hanswer rfl
  obtain ⟨permit, hload, hown⟩ := replay_own_iff (seedWorld_seeded [("ord_0001", .paid)])
    (show Pool.Reaches OutsideLedger (sharedPermitService.pool _) cancelledOnce from
      Pool.reaches_finish _ false) hrun rfl
  have hid : permit.permitId = "prm_run_a_001" :=
    (Option.some.inj (Database.loadPermit_eq_some hload).1).symm
  have halone : ∀ row ∈ cancelledOnce.shared.executionPermits.rows,
      row.permitId = "prm_run_a_001" := by decide +kernel
  obtain ⟨x, hx, hxid, hresult, -⟩ :=
    hown.mpr fun row hrow _ _ => (halone row hrow).trans hid.symm
  exact ⟨permit, hload, x, hx, hxid, hanswer.trans (congrArg Except.ok hresult)⟩

/-! ## One key, two orders -/

/-- A cancellation of an order with an underscored id. -/
def cancelUnderscored : ActionProposal where
  action := .cancelOrder
  orderId := "ord_001_cancel_order_7"
  reason := "ordered it twice"
  amountCents_range := ActionProposal.range_of_none

/-- A cancellation of an order with a short id. -/
def cancelSeven : ActionProposal where
  action := .cancelOrder
  orderId := "7"
  reason := "ordered it twice"
  amountCents_range := ActionProposal.range_of_none

/-- Two callers with run ids of their own, each with an order of its own. -/
def underscoreService : Service Bool where
  clients
    | false => ⟨⟨fun _ => defaultClockBase, "run_a", permitTtlSeconds⟩,
        ⟨fun _ => defaultClockBase, "run_a"⟩⟩
    | true => ⟨⟨fun _ => defaultClockBase, "run_a_001_cancel_order_ord", permitTtlSeconds⟩,
        ⟨fun _ => defaultClockBase, "run_a_001_cancel_order_ord"⟩⟩
  calls
    | false =>
      [.issue { action := .cancelOrder, resourceId := "ord_001_cancel_order_7",
                expectedResourceVersion := 1 },
       .execute (some "prm_run_a_001") cancelUnderscored {}]
    | true => [.issue { action := .cancelOrder, resourceId := "7", expectedResourceVersion := 1 }]
  sessions _ := {}

/-- Two orders whose ids run together with the name of an action. -/
def underscoreWorld : Database := seedWorld [("ord_001_cancel_order_7", .paid), ("7", .paid)]

/-- The first caller has cancelled its order, the second one has its permit. -/
def underscoreServed : Pool Bool PyError Database Local Unit :=
  ((underscoreService.pool underscoreWorld).finish false).finish true

/-- The second caller presents its permit. -/
def sevenPresented : Except PyError ExecutionResult × World :=
  ((underscoreService.clients true).executor.execute
    (some "prm_run_a_001_cancel_order_ord_001") cancelSeven {}).run
      ⟨underscoreServed.shared, { session := {} }⟩

/-- Both permits have the key `idk_run_a_001_cancel_order_ord_001_cancel_order_7`.  So the
second caller is told that its execution is committed, by a result about the order of the
first; its own order is still paid. -/
theorem foreign_replay :
    underscoreWorld.Seeded ∧
    Pool.Reaches OutsideLedger (underscoreService.pool underscoreWorld) underscoreServed ∧
    (underscoreServed.shared.loadPermit (some "prm_run_a_001_cancel_order_ord_001")).map
      ExecutionPermit.resourceId = some "7" ∧
    sevenPresented.1 = .ok
      { committed := true, action := some .cancelOrder, resourceId := "ord_001_cancel_order_7",
        reasonCode := some .idempotentReplay, replayed := true,
        createdId := "ord_001_cancel_order_7" } ∧
    (sevenPresented.2.shared.orders.find? "7").map OrderRow.status =
      some (str OrderStatus.paid) :=
  ⟨seedWorld_seeded _, (Pool.reaches_finish _ false).trans (Pool.reaches_finish _ true),
    by decide +kernel, by decide +kernel, by decide +kernel⟩

end BoundedRefund
