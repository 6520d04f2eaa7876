import BoundedRefund.AtMostOnce
import BoundedRefund.Phases
import BoundedRefund.Replay

/-!
# Callers racing for one permit

Any number of callers present one permit with one proposal.  Each makes its check phase in
one go and its write phase in one go, and the phases of different callers interleave in any
order; nobody else writes.

The first write commits, and there is no second one.  Who checks after that finds the record
and is told the stored result.  But the look at the record belongs to the check phase: who
has checked before the commit and writes after it is told that its row has moved, or, for a
ticket, gets the violated key from the database (`race_answers`).
-/

namespace BoundedRefund

open Concurrent Relational

/-! ## The target of a commit -/

/-- A commit leaves the row it is about readable, and it is still the target. -/
theorem Execution.Commits.resolveTarget {x : Execution} {db db' : Database}
    (hx : x.Commits db db') {target : Target}
    (hresolve : db.resolveTarget x.proposal = .ok (some target)) :
    ∃ target', db'.resolveTarget x.proposal = .ok (some target') ∧
      target'.resourceId = target.resourceId := by
  suffices hread : ∃ found, db'.resolveTarget x.proposal = .ok found by
    obtain ⟨found, hfound⟩ := hread
    obtain ⟨target', rfl, hid⟩ := (SameKeys.commits hx).resolveTarget hresolve hfound
    exact ⟨target', hfound, hid⟩
  cases ha : x.proposal.action with
  | createSupportTicket =>
      have horders : db'.orders = db.orders := by
        rcases hx.orders with ⟨hcancel, -⟩ | ⟨-, horders, -⟩
        · cases hcancel.symm.trans ha
        · exact horders
      refine ⟨some target, ?_⟩
      rw [← hresolve]
      simp only [Database.resolveTarget, ha, Database.fetchOrder, horders]
  | cancelOrder =>
      obtain ⟨-, horders, -⟩ : x.proposal.action = .cancelOrder ∧ _ ∧ _ := by
        rcases hx.orders with h | ⟨hne, -⟩
        · exact h
        · exact absurd ha hne
      simp only [Database.resolveTarget, ha, Database.fetchOrder, horders,
        Database.cancelRows, Table.find?_update] at hresolve ⊢
      cases hfind : db.orders.find? x.proposal.orderId with
      | none => exact ⟨none, rfl⟩
      | some row =>
          simp only [hfind, Database.readRow] at hresolve
          cases hrow : rowToOrder row with
          | error err => simp [hrow, Except.map] at hresolve
          | ok o =>
              simp only [Option.map_some, Database.readRow]
              split_ifs
              · simp [rowToOrder, OrderRow.cancelled, Except.map]
              · simp [hrow, Except.map]
  | issueRefund =>
      obtain ⟨-, hpayments⟩ : x.proposal.action = .issueRefund ∧ _ := by
        rcases hx.payments with h | ⟨hne, -⟩
        · exact h
        · exact absurd ha hne
      have hkeys := (SameKeys.commits hx).payments x.proposal.orderId
      simp only [Database.resolveTarget, ha, Database.fetchPaymentForOrder] at hresolve ⊢
      cases hfirst : db'.payments.first? fun row => row.orderId = x.proposal.orderId with
      | none => exact ⟨none, rfl⟩
      | some row' =>
          rw [hfirst] at hkeys
          obtain ⟨row, hold, hid⟩ := Option.map_eq_some_iff.mp hkeys.symm
          -- the row the update made of the one that was read
          have hfind' := Table.find?_of_mem (Table.first?_eq_some hfirst).1
          have hfind := Table.find?_of_mem (Table.first?_eq_some hold).1
          rw [← hid, hpayments, Database.refundPayment, Table.find?_update, hfind,
            Option.map_some, Option.some.injEq] at hfind'
          simp only [hold, Database.readRow] at hresolve
          cases hrow : rowToPayment row with
          | error err => simp [hrow, Except.map] at hresolve
          | ok p =>
              simp only [Database.readRow, ← hfind']
              split_ifs
              · simp [rowToPayment, PaymentRow.refunded, Except.map]
              · simp [hrow, Except.map]

/-! ## Permits that can be executed -/

/-- The permit stands in the table and can be executed until its deadline. -/
structure Presentable (db : Database) (permit : ExecutionPermit) (proposal : ActionProposal)
    (target : Target) (deadline : Instant) : Prop where
  loaded : db.loadPermit (some permit.permitId) = some permit
  expires : parseIso permit.expiresAt = .ok deadline
  clear : Clear db deadline permit proposal target
  refund : db.refunds.find? ("ref_" ++ permit.permitId) = none
  ticket : db.supportTickets.find? ("tkt_" ++ permit.permitId) = none
  order : (db.orders.find? proposal.orderId).isSome

section Presentable

variable {db db' : Database} {permit : ExecutionPermit} {proposal : ActionProposal}
variable {target : Target} {deadline : Instant}

/-- Until the deadline the checks let it pass. -/
theorem Presentable.clear_of_le (h : Presentable db permit proposal target deadline)
    {now : Instant} (hnow : now ≤ deadline) : Clear db now permit proposal target :=
  { h.clear with unexpired := ⟨deadline, h.expires, hnow⟩ }

/-- What may be presented was issued. -/
theorem Presentable.issued (h : Presentable db permit proposal target deadline) :
    Issued db permit := by
  obtain ⟨-, hne, row, hfind, hrow⟩ := Database.loadPermit_eq_some h.loaded
  exact ⟨hne, row, row, hrow, PermitRow.Kept.refl row, hfind⟩

/-- The write goes through. -/
theorem Presentable.writes (h : Presentable db permit proposal target deadline) (e : Executor)
    (texts : TicketTexts) (now : Instant) :
    ∃ mid, (e.execution permit proposal texts now).Writes db mid ∧
      mid.executionRecords = db.executionRecords := by
  have hpinned := h.clear.pinned
  have htarget : proposal.action ≠ .issueRefund → permit.resourceId = proposal.orderId :=
    fun ha => h.clear.resource.symm.trans (resolved_resource h.clear.resolved ha)
  cases ha : proposal.action with
  | cancelOrder =>
      rw [h.clear.action, ha] at hpinned
      obtain ⟨row, hrow, hversion⟩ := Option.map_eq_some_iff.mp hpinned
      exact ⟨_, .cancel row ha (htarget (by simp [ha])) hrow hversion, rfl⟩
  | issueRefund =>
      rw [h.clear.action, ha] at hpinned
      obtain ⟨row, hrow, hversion⟩ := Option.map_eq_some_iff.mp hpinned
      obtain ⟨refunds, hfresh⟩ := Option.isSome_iff_exists.mp (Table.insert?_isSome.mpr
        (show db.refunds.find? (e.execution permit proposal texts now).refundRow.refundId = none
          from h.refund))
      refine ⟨_, .refund row refunds ha ?_ hrow hversion h.order hfresh, rfl⟩
      exact (if_pos ha).trans_le h.clear.amount
  | createSupportTicket =>
      obtain ⟨tickets, hfresh⟩ := Option.isSome_iff_exists.mp (Table.insert?_isSome.mpr
        (show db.supportTickets.find? (e.execution permit proposal texts now).ticketRow.ticketId =
          none from h.ticket))
      have horder := h.order
      rw [← htarget (by simp [ha])] at horder
      exact ⟨_, .ticket tickets ha (htarget (by simp [ha])) horder hfresh, rfl⟩

/-- So does the whole transaction. -/
theorem Presentable.commits (h : Presentable db permit proposal target deadline) (e : Executor)
    (texts : TicketTexts) (now : Instant) :
    ∃ db', (e.execution permit proposal texts now).Commits db db' := by
  obtain ⟨mid, hwrites, hrecords⟩ := h.writes e texts now
  have hfresh : db.executionRecords.find? permit.idempotencyKey = none :=
    Option.map_eq_none_iff.mp h.clear.fresh
  obtain ⟨records, hinsert⟩ := Option.isSome_iff_exists.mp (Table.insert?_isSome.mpr
    (show db.executionRecords.find? (e.execution permit proposal texts now).recordRow.idempotencyKey
      = none from hfresh))
  rw [← hrecords] at hinsert
  exact ⟨_, h.clear.action, mid, records, hwrites, hinsert, rfl⟩

end Presentable

/-! ## The phases before and after the commit -/

section Phases

variable {db : Database} {e : Executor} {permit : ExecutionPermit} {proposal : ActionProposal}
variable {texts : TicketTexts} {target : Target} {deadline : Instant} {v v' : World}

/-- Without failures there stay none. -/
theorem Ticks.injector_none {k : Nat} (h : Ticks k v v')
    (hnone : v.own.session.injector = none) : v'.own.session.injector = none := by
  have hspec := h.injector
  rw [hnone] at hspec
  exact Option.map_eq_none_iff.mp hspec

/-- Without an injector nothing is changed and nothing is lost. -/
theorem Session.quiet {s : Session} (hnone : s.injector = none) (action : String) :
    s.due action = [] ∧ s.loses action = false := by
  simp [Session.due, Session.preCommit, Session.loses, hnone]

/-- Before the commit the check phase comes to clearance. -/
theorem Presentable.check (h : Presentable db permit proposal target deadline)
    (hclock : ∀ n, e.clock n ≤ deadline) (hshared : v.shared = db) {res : Except PyError Checked}
    (hrun : (e.check (some permit.permitId) proposal).run v = (res, v')) :
    res = .ok (.cleared permit) ∧ ∃ k, Ticks k v v' := by
  have hclear := h.clear_of_le
    (hclock (v.own.session.readings + v.own.session.tick))
  obtain ⟨k, hticks, hcases⟩ := run_check hrun
  rw [hshared, h.loaded, hclear.assess, hclear.resolved] at hcases
  obtain ⟨_, -, hr | hr⟩ | ⟨_, -, hr, -⟩ | ⟨p, _, hp, rfl, -⟩ := hcases
  · cases hr
  · cases hr
  · cases hr
  · cases hp
    exact ⟨rfl, k, hticks⟩

/-- After it the check phase comes to the stored result. -/
theorem Spent.check {x : Execution} (h : Spent v.shared x)
    (haction : x.permit.action = x.proposal.action)
    (hresolve : v.shared.resolveTarget x.proposal = .ok (some target))
    (htarget : target.resourceId = x.permit.resourceId)
    (hexpires : parseIso x.permit.expiresAt = .ok deadline)
    (hclock : ∀ n, e.clock n ≤ deadline) {res : Except PyError Checked}
    (hrun : (e.check (some x.permit.permitId) x.proposal).run v = (res, v')) :
    res = .ok (.answered (some x.spentPermit) x.result.asReplay) ∧ ∃ k, Ticks k v v' := by
  obtain ⟨k, hticks, hcases⟩ := run_check hrun
  rw [assess_spent h haction.symm hresolve htarget, hexpires,
    hresolve, h.permit] at hcases
  simp only [not_lt.mpr (hclock _), if_false] at hcases
  obtain ⟨_, -, hr | hr⟩ | ⟨_, rfl, hr, -⟩ | ⟨p, _, hp, rfl, hclear, -⟩ := hcases
  · cases hr
  · cases hr
  · cases hr
    exact ⟨rfl, k, hticks⟩
  · -- a used permit is not cleared
    cases hp
    cases hclear.unused

/-- An answer that is a replay is passed on. -/
theorem run_respond_replay {p : Option ExecutionPermit} {result : ExecutionResult}
    (hresolve : v.shared.resolveTarget proposal = .ok (some target))
    {res : Except PyError ExecutionResult}
    (hrun : (e.respond proposal p result.asReplay).run v = (res, v')) :
    res = .ok result.asReplay ∧ v'.shared = v.shared := by
  obtain ⟨-, hshared, ⟨_, -, hr⟩ | ⟨hr, -⟩ | ⟨hfresh, -⟩⟩ := run_respond hrun
  · cases hr.symm.trans hresolve
  · exact ⟨hr, hshared⟩
  · simp [ExecutionResult.asReplay, ExecutionResult.fresh] at hfresh

/-- The write phase of the first one commits, and says so. -/
theorem Presentable.settle (h : Presentable db permit proposal target deadline)
    (hshared : v.shared = db) (hnone : v.own.session.injector = none)
    {res : Except PyError ExecutionResult}
    (hrun : (e.settle proposal texts (.cleared permit)).run v = (res, v')) :
    ∃ x : Execution, x.permit = permit ∧ x.proposal = proposal ∧ x.Commits db v'.shared ∧
      res = .ok x.result := by
  obtain ⟨hdue, hloses⟩ := Session.quiet hnone (str proposal.action)
  obtain ⟨t, outcome, hlanding, hcommit, hanswer⟩ := run_settle_cleared hrun
  rw [hdue, hshared] at hcommit
  obtain ⟨db', hcommits⟩ := h.commits e texts (e.clock v.own.session.readings)
  have hok := commitAll_eq_ok.mpr ⟨rfl, hcommits⟩
  cases hcommit with
  | spoiled err injected => cases injected
  | refused err injected hne commit =>
      cases injected
      cases hok.symm.trans commit
  | overtaken resourceId version injected commit =>
      cases injected
      cases hok.symm.trans commit
  | committed mid result injected commit =>
      cases injected
      obtain ⟨_, he, -⟩ | ⟨_, he, hrespond⟩ := hanswer
      · cases he
      cases he
      obtain ⟨rfl, hx⟩ := commitAll_eq_ok.mp commit
      refine ⟨e.execution permit proposal texts (e.clock v.own.session.readings), rfl, rfl, ?_⟩
      obtain ⟨target', hresolve, -⟩ := hx.resolveTarget h.clear.resolved
      obtain ⟨-, hstay, ⟨_, -, hr⟩ | ⟨hr, -⟩ | ⟨-, hlost, -⟩⟩ := run_respond hrespond
      · cases hr.symm.trans hresolve
      · rw [hstay]
        exact ⟨hx, hr⟩
      · rw [hlanding.loses, hloses] at hlost
        cases hlost

/-- The write phase of one that was cleared before the commit and comes after it: there is
no second commit, and the answer is no replay. -/
theorem Spent.settle {x : Execution} (h : Spent v.shared x)
    (hnone : v.own.session.injector = none) {res : Except PyError ExecutionResult}
    (hrun : (e.settle proposal texts (.cleared x.permit)).run v = (res, v')) :
    v'.shared = v.shared ∧
      (res = .ok (rejected .staleResourceVersion x.permit.resourceId) ∨
        ∃ err, res = .error err) := by
  obtain ⟨hdue, -⟩ := Session.quiet hnone (str proposal.action)
  obtain ⟨t, outcome, -, hcommit, hanswer⟩ := run_settle_cleared hrun
  rw [hdue] at hcommit
  cases hcommit with
  | spoiled err injected => cases injected
  | refused err injected =>
      obtain ⟨-, hshared⟩ := Prod.mk.inj injected
      obtain ⟨_, he, hres, rfl⟩ | ⟨_, he, -⟩ := hanswer
      · exact ⟨hshared.symm, .inr ⟨_, hres⟩⟩
      · cases he
  | overtaken resourceId version injected =>
      obtain ⟨-, hshared⟩ := Prod.mk.inj injected
      obtain ⟨_, he, -⟩ | ⟨_, he, hrespond⟩ := hanswer
      · cases he
      cases he
      obtain ⟨-, hstay, hr⟩ := run_respond hrespond
      refine ⟨hstay.trans hshared.symm, ?_⟩
      rcases hr with ⟨err, hr, -⟩ | ⟨hr, -⟩ | ⟨hfresh, -⟩
      · exact .inr ⟨err, hr⟩
      · exact .inl hr
      · simp [rejected, ExecutionResult.fresh] at hfresh
  | committed mid result injected commit =>
      cases injected
      -- the key of the permit is taken
      have hfresh := (commitAll_eq_ok.mp commit).2.record_fresh
      obtain ⟨row, hrow, -⟩ := storedResult_eq_some h.stored
      cases hrow.symm.trans hfresh

end Phases

/-! ## The race -/

/-- What a caller has to itself: the objects of its run, and what its checks came to. -/
structure Racer where
  own : Local
  checked : Option Checked := none

/-- The programs of the race. -/
abbrev RacerProg := Prog PyError (View Database Racer)

namespace Executor

variable (e : Executor)

/-- The check phase in one go. -/
def checking (permitId : Option String) (proposal : ActionProposal) : RacerProg Checked :=
  Prog.atomically fun v =>
    let ran := (e.check permitId proposal).run ⟨v.shared, v.own.own⟩
    (ran.1, ⟨ran.2.shared, ⟨ran.2.own, ran.1.toOption⟩⟩)

/-- The write phase in one go. -/
def settling (proposal : ActionProposal) (texts : TicketTexts) (checked : Checked) :
    RacerProg ExecutionResult :=
  Prog.atomically fun v =>
    let ran := (e.settle proposal texts checked).run ⟨v.shared, v.own.own⟩
    (ran.1, ⟨ran.2.shared, { v.own with own := ran.2.own }⟩)

/-- An execution whose phases others may come between. -/
def racing (permitId : Option String) (proposal : ActionProposal) (texts : TicketTexts) :
    RacerProg ExecutionResult :=
  e.checking permitId proposal >>= e.settling proposal texts

/-- Where nobody does, it is the execution. -/
theorem run_racing (permitId : Option String) (proposal : ActionProposal) (texts : TicketTexts)
    (v : View Database Racer) :
    let raced := (e.racing permitId proposal texts).run v
    (raced.1, (⟨raced.2.shared, raced.2.own.own⟩ : World)) =
      (e.execute permitId proposal texts).run ⟨v.shared, v.own.own⟩ := by
  rw [execute_eq, Prog.bind_def, Prog.run_bind]
  simp only [racing, Prog.bind_def, Prog.run_bind, checking, Prog.run_atomically]
  rcases (e.check permitId proposal).run ⟨v.shared, v.own.own⟩ with ⟨err | checked, t⟩
  · rfl
  · simp only [settling, Prog.run_atomically]

end Executor

/-- Callers with one permit and one proposal. -/
structure Callers (ι : Type) where
  permit : ExecutionPermit
  proposal : ActionProposal
  executor : ι → Executor
  texts : ι → TicketTexts
  own : ι → Local

namespace Callers

variable {ι : Type} (callers : Callers ι)

/-- What caller `i` runs. -/
def program (i : ι) : RacerProg ExecutionResult :=
  (callers.executor i).racing (some callers.permit.permitId) callers.proposal (callers.texts i)

/-- What caller `i` has left to do after its checks. -/
def rest (i : ι) (checked : Checked) : RacerProg ExecutionResult :=
  (callers.executor i).settling callers.proposal (callers.texts i) checked

/-- The callers at the start. -/
def pool (db : Database) : Pool ι PyError Database Racer ExecutionResult where
  shared := db
  threads i := ⟨{ own := callers.own i }, callers.program i⟩

/-- Their permit can be executed, all clocks stay within its time to live, and none of them
has failures to inject. -/
structure Present (db : Database) (target : Target) (deadline : Instant) : Prop where
  presentable : Presentable db callers.permit callers.proposal target deadline
  clock : ∀ i n, (callers.executor i).clock n ≤ deadline
  quiet : ∀ i, (callers.own i).session.injector = none

/-- Caller `i` is still to make its checks. -/
structure Fresh (i : ι) (t : Thread PyError Database Racer ExecutionResult) : Prop where
  quiet : t.own.own.session.injector = none
  checked : t.own.checked = none
  code : t.code = callers.program i

/-- Caller `i` has been cleared, and is still to write. -/
structure Cleared (i : ι) (t : Thread PyError Database Racer ExecutionResult) : Prop where
  quiet : t.own.own.session.injector = none
  checked : t.own.checked = some (.cleared callers.permit)
  code : t.code = callers.rest i (.cleared callers.permit)

/-- Nobody has written. -/
structure Waiting (db : Database) (c : Pool ι PyError Database Racer ExecutionResult) :
    Prop where
  shared : c.shared = db
  threads : ∀ i, callers.Fresh i (c.threads i) ∨ callers.Cleared i (c.threads i)

/-- Where caller `i` can stand after the commit of `x`, if it makes its checks after it. -/
inductive Behind (x : Execution) (i : ι) (t : Thread PyError Database Racer ExecutionResult) :
    Prop
  | fresh (h : callers.Fresh i t)
  | answered (p : Option ExecutionPermit) (code : t.code =
      callers.rest i (.answered p x.result.asReplay))
  | replayed (code : t.code = .ret x.result.asReplay)

/-- And if it has made them before. -/
inductive Ahead (i : ι) (t : Thread PyError Database Racer ExecutionResult) : Prop
  | cleared (h : callers.Cleared i t)
  | stale (code : t.code =
      .ret (rejected .staleResourceVersion callers.permit.resourceId))
  | failed (err : PyError) (code : t.code = .fail err)

/-- The commit of `x` was the step of caller `i` from `c`; now the pool is at `c'`. -/
structure Won (db : Database) (c : Pool ι PyError Database Racer ExecutionResult) (i : ι)
    (x : Execution) (c' : Pool ι PyError Database Racer ExecutionResult) : Prop where
  permit : x.permit = callers.permit
  proposal : x.proposal = callers.proposal
  commits : x.Commits db c'.shared
  winner : (c'.threads i).code = .ret x.result
  behind : ∀ j ≠ i, (c.threads j).own.checked = none → callers.Behind x j (c'.threads j)
  ahead : ∀ j ≠ i, (c.threads j).own.checked ≠ none → callers.Ahead j (c'.threads j)

section Steps

variable {callers} [DecidableEq ι] {db : Database} {target : Target} {deadline : Instant}
variable {c c' c'' : Pool ι PyError Database Racer ExecutionResult} {i j : ι}

/-- A caller makes its checks, and nobody has written. -/
theorem Waiting.check (hpresent : callers.Present db target deadline)
    (h : callers.Waiting db c) (hfresh : callers.Fresh i (c.threads i))
    (hact : Pool.Act i c c') : callers.Waiting db c' := by
  obtain ⟨hshared, hthreads⟩ := hact.of_atomically hfresh.code
  obtain ⟨⟨res, t⟩, hrun⟩ : ∃ out, ((callers.executor i).check
    (some callers.permit.permitId) callers.proposal).run ⟨c.shared, (c.threads i).own.own⟩ =
      out := ⟨_, rfl⟩
  obtain ⟨rfl, k, hticks⟩ := hpresent.presentable.check (hpresent.clock i) h.shared hrun
  simp only [Pool.view, hrun] at hshared hthreads
  refine ⟨hshared.trans (hticks.shared.trans h.shared), fun j => ?_⟩
  rw [hthreads]
  by_cases hj : j = i
  · subst hj
    rw [Function.update_self]
    exact .inr ⟨hticks.injector_none hfresh.quiet, rfl, rfl⟩
  · rw [Function.update_of_ne hj]
    exact h.threads j

/-- A cleared caller writes, and has won. -/
theorem Waiting.settle (hpresent : callers.Present db target deadline)
    (h : callers.Waiting db c) (hcleared : callers.Cleared i (c.threads i))
    (hact : Pool.Act i c c') : ∃ x, callers.Won db c i x c' := by
  obtain ⟨hshared, hthreads⟩ := hact.of_atomically
    (hcleared.code.trans (Prog.bind_ret _).symm)
  obtain ⟨⟨res, t⟩, hrun⟩ : ∃ out, ((callers.executor i).settle callers.proposal
    (callers.texts i) (.cleared callers.permit)).run ⟨c.shared, (c.threads i).own.own⟩ = out :=
      ⟨_, rfl⟩
  obtain ⟨x, hpermit, hproposal, hx, rfl⟩ :=
    hpresent.presentable.settle h.shared hcleared.quiet hrun
  simp only [Pool.view, hrun] at hshared hthreads
  rw [← hshared] at hx
  have others : ∀ j ≠ i, c'.threads j = c.threads j := fun j hj => by
    rw [hthreads, Function.update_of_ne hj]
  refine ⟨x, hpermit, hproposal, hx, ?_, fun j hj hchecked => ?_, fun j hj hchecked => ?_⟩
  · rw [hthreads, Function.update_self]
    rfl
  · rw [others j hj]
    rcases h.threads j with hfresh | hlate
    · exact .fresh hfresh
    · cases hlate.checked.symm.trans hchecked
  · rw [others j hj]
    rcases h.threads j with hfresh | hlate
    · exact absurd hfresh.checked hchecked
    · exact .cleared hlate

/-- Who makes its checks after the commit gets the stored result, and passes it on. -/
theorem Behind.act (hpresent : callers.Present db target deadline) {x : Execution}
    (hpermit : x.permit = callers.permit) (hproposal : x.proposal = callers.proposal)
    (hx : x.Commits db c.shared) (h : callers.Behind x j (c.threads j))
    (hact : Pool.Act j c c') :
    c'.shared = c.shared ∧ callers.Behind x j (c'.threads j) ∧
      ∀ k ≠ j, c'.threads k = c.threads k := by
  have hp := hpresent.presentable
  -- the permit is used now, and its result stored
  have hspent : Spent c.shared x := Spent.of_commits (hpermit ▸ hp.issued) hx
  obtain ⟨target', hresolve, hid⟩ := hx.resolveTarget (hproposal ▸ hp.clear.resolved)
  have others : ∀ {t}, c'.threads = Function.update c.threads j t →
      ∀ k ≠ j, c'.threads k = c.threads k := fun hthreads k hk => by
    rw [hthreads, Function.update_of_ne hk]
  rcases h with ⟨hfresh⟩ | ⟨p, hcode⟩ | ⟨hcode⟩
  · obtain ⟨hshared, hthreads⟩ := hact.of_atomically hfresh.code
    obtain ⟨⟨res, t⟩, hrun⟩ : ∃ out, ((callers.executor j).check
      (some callers.permit.permitId) callers.proposal).run ⟨c.shared, (c.threads j).own.own⟩ =
        out := ⟨_, rfl⟩
    have hrun' : ((callers.executor j).check (some x.permit.permitId) x.proposal).run
        ⟨c.shared, (c.threads j).own.own⟩ = (res, t) := by
      rw [hpermit, hproposal, hrun]
    have htarget : target'.resourceId = x.permit.resourceId := by
      rw [hid, hp.clear.resource, hpermit]
    have hexpires : parseIso x.permit.expiresAt = .ok deadline := by rw [hpermit, hp.expires]
    obtain ⟨rfl, k, hticks⟩ := Spent.check hspent hx.action hresolve htarget hexpires
      (hpresent.clock j) hrun'
    simp only [Pool.view, hrun] at hshared hthreads
    refine ⟨hshared.trans hticks.shared, ?_, others hthreads⟩
    rw [hthreads, Function.update_self]
    exact .answered _ rfl
  · obtain ⟨hshared, hthreads⟩ := hact.of_atomically (hcode.trans (Prog.bind_ret _).symm)
    obtain ⟨⟨res, t⟩, hrun⟩ : ∃ out, ((callers.executor j).settle callers.proposal
      (callers.texts j) (.answered p x.result.asReplay)).run ⟨c.shared, (c.threads j).own.own⟩ =
        out := ⟨_, rfl⟩
    obtain ⟨rfl, hstay⟩ := run_respond_replay (hproposal ▸ hresolve) hrun
    simp only [Pool.view, hrun] at hshared hthreads
    refine ⟨hshared.trans hstay, ?_, others hthreads⟩
    rw [hthreads, Function.update_self]
    exact .replayed rfl
  · exact absurd hcode (hact.not_finished (.ok _))

/-- Who has made them before writes nothing, and is refused. -/
theorem Ahead.act {x : Execution} (hpermit : x.permit = callers.permit)
    (hspent : Spent c.shared x) (h : callers.Ahead j (c.threads j)) (hact : Pool.Act j c c') :
    c'.shared = c.shared ∧ callers.Ahead j (c'.threads j) ∧
      ∀ k ≠ j, c'.threads k = c.threads k := by
  rcases h with ⟨hcleared⟩ | ⟨hcode⟩ | ⟨err, hcode⟩
  · obtain ⟨hshared, hthreads⟩ := hact.of_atomically
      (hcleared.code.trans (Prog.bind_ret _).symm)
    obtain ⟨⟨res, t⟩, hrun⟩ : ∃ out, ((callers.executor j).settle callers.proposal
      (callers.texts j) (.cleared callers.permit)).run ⟨c.shared, (c.threads j).own.own⟩ = out :=
        ⟨_, rfl⟩
    rw [← hpermit] at hrun
    obtain ⟨hstay, hres⟩ := Spent.settle hspent hcleared.quiet hrun
    rw [hpermit] at hrun
    simp only [Pool.view, hrun] at hshared hthreads
    refine ⟨hshared.trans hstay, ?_, fun k hk => by rw [hthreads, Function.update_of_ne hk]⟩
    rw [hthreads, Function.update_self]
    rcases hres with rfl | ⟨err, rfl⟩
    · exact .stale (by rw [hpermit]; rfl)
    · exact .failed err rfl
  · exact absurd hcode (hact.not_finished (.ok _))
  · exact absurd hcode (hact.not_finished (.error _))

/-- A commit that was made stays the only one. -/
theorem Won.act (hpresent : callers.Present db target deadline) {x : Execution}
    (h : callers.Won db c i x c') (hact : Pool.Act j c' c'') :
    c''.shared = c'.shared ∧ callers.Won db c i x c'' := by
  have hspent : Spent c'.shared x :=
    Spent.of_commits (h.permit ▸ hpresent.presentable.issued) h.commits
  -- the winner has nothing left to do
  have hji : j ≠ i := by
    rintro rfl
    exact hact.not_finished (.ok _) h.winner
  have hstep : c''.shared = c'.shared ∧ (∀ k ≠ j, c''.threads k = c'.threads k) ∧
      ((c.threads j).own.checked = none → callers.Behind x j (c''.threads j)) ∧
      ((c.threads j).own.checked ≠ none → callers.Ahead j (c''.threads j)) := by
    by_cases hchecked : (c.threads j).own.checked = none
    · obtain ⟨hshared, hj, others⟩ := (h.behind j hji hchecked).act hpresent h.permit h.proposal
        h.commits hact
      exact ⟨hshared, others, fun _ => hj, fun hne => absurd hchecked hne⟩
    · obtain ⟨hshared, hj, others⟩ := (h.ahead j hji hchecked).act h.permit hspent hact
      exact ⟨hshared, others, fun hnone => absurd hnone hchecked, fun _ => hj⟩
  obtain ⟨hshared, others, hbehind, hahead⟩ := hstep
  refine ⟨hshared, ?_⟩
  constructor
  case permit => exact h.permit
  case proposal => exact h.proposal
  case commits => exact hshared ▸ h.commits
  case winner => exact others i hji.symm ▸ h.winner
  case behind =>
    intro k hk hnone
    by_cases hkj : k = j
    · exact hkj ▸ hbehind (hkj ▸ hnone)
    · exact others k hkj ▸ h.behind k hk hnone
  case ahead =>
    intro k hk hne
    by_cases hkj : k = j
    · exact hkj ▸ hahead (hkj ▸ hne)
    · exact others k hkj ▸ h.ahead k hk hne

end Steps

end Callers

section Runs

variable {ι : Type} [DecidableEq ι] {callers : Callers ι} {db : Database} {target : Target}
variable {deadline : Instant} {c : Pool ι PyError Database Racer ExecutionResult}

/-- Along every interleaving: nobody has written, or one caller has won. -/
theorem race_waiting_or_won (hpresent : callers.Present db target deadline)
    (hreach : Pool.Reaches Nobody (callers.pool db) c) :
    callers.Waiting db c ∨ ∃ before after i x,
      Pool.Reaches Nobody (callers.pool db) before ∧ callers.Waiting db before ∧
        Pool.Act i before after ∧ Pool.Reaches Nobody after c ∧ c.shared = after.shared ∧
        callers.Won db before i x c := by
  induction hreach with
  | refl => exact .inl ⟨rfl, fun i => .inl ⟨hpresent.quiet i, rfl, rfl⟩⟩
  | @tail b d hreach hstep ih =>
      cases hstep with
      | env h => exact h.elim
      | act i hact =>
          rcases ih with hwaiting | ⟨before, after, k, x, hbefore, hwaiting, hcommit, hlater,
            hshared, hwon⟩
          · rcases hwaiting.threads i with hfresh | hcleared
            · exact .inl (hwaiting.check hpresent hfresh hact)
            · obtain ⟨x, hwon⟩ := hwaiting.settle hpresent hcleared hact
              exact .inr ⟨b, d, i, x, hreach, hwaiting, hact, .refl, rfl, hwon⟩
          · obtain ⟨hsame, hwon'⟩ := hwon.act hpresent hact
            exact .inr ⟨before, after, k, x, hbefore, hwaiting, hcommit,
              hlater.tail (.act i hact), hsame.trans hshared, hwon'⟩

/-- **Who gets the stored result.**  However the phases of the callers interleave: as long as
nothing is written, nobody is answered.  Then one caller's write phase commits, and that
caller is answered by the fresh result.  Nothing is written after it.  Any other caller that
is answered gets no fresh result, and it gets the stored one if and only if it had not made
its checks when the commit happened. -/
theorem race_answers (hpresent : callers.Present db target deadline)
    (hreach : Pool.Reaches Nobody (callers.pool db) c) :
    (c.shared = db ∧ ∀ i, (c.threads i).answer = none) ∨
    ∃ (before after : Pool ι PyError Database Racer ExecutionResult) (i : ι) (x : Execution),
      Pool.Reaches Nobody (callers.pool db) before ∧ Pool.Act i before after ∧
      Pool.Reaches Nobody after c ∧
      before.shared = db ∧ x.Commits db after.shared ∧ x.permit = callers.permit ∧
      c.shared = after.shared ∧ (c.threads i).answer = some (.ok x.result) ∧
      ∀ j ≠ i, ∀ r, (c.threads j).answer = some r →
        (∀ result, r = .ok result → result.fresh = false) ∧
        (r = .ok x.result.asReplay ↔ (before.threads j).own.checked = none) := by
  rcases race_waiting_or_won hpresent hreach with hwaiting | ⟨before, after, i, x, hbefore,
    hwaiting, hcommit, hlater, hshared, hwon⟩
  · refine .inl ⟨hwaiting.shared, fun i => ?_⟩
    rcases hwaiting.threads i with h | h
    · unfold Thread.answer
      rw [h.code]
      rfl
    · unfold Thread.answer
      rw [h.code]
      rfl
  have hreplay : x.result.asReplay.fresh = false := rfl
  -- a refusal is never taken for a replay
  have hrefused : ∀ resourceId,
      (rejected .staleResourceVersion resourceId) ≠ x.result.asReplay := by
    intro resourceId h
    cases congrArg ExecutionResult.committed h
  refine .inr ⟨before, after, i, x, hbefore, hcommit, hlater, hwaiting.shared,
    hshared ▸ hwon.commits, hwon.permit, hshared, Thread.answer_eq_some.mpr hwon.winner,
    fun j hj r hr => ?_⟩
  have hcode := Thread.answer_eq_some.mp hr
  by_cases hchecked : (before.threads j).own.checked = none
  · -- still to check: only the replay is an answer
    rcases hwon.behind j hj hchecked with ⟨h⟩ | ⟨p, h⟩ | ⟨h⟩
    · rw [h.code] at hcode
      cases r <;> cases hcode
    · rw [h] at hcode
      cases r <;> cases hcode
    · rw [h] at hcode
      cases r with
      | error err => cases hcode
      | ok result =>
          cases hcode
          refine ⟨?_, iff_of_true rfl hchecked⟩
          rintro _ ⟨⟩
          exact hreplay
  · -- cleared already: a refusal or an exception
    rcases hwon.ahead j hj hchecked with ⟨h⟩ | ⟨h⟩ | ⟨err, h⟩
    · rw [h.code] at hcode
      cases r <;> cases hcode
    · rw [h] at hcode
      cases r with
      | error err => cases hcode
      | ok result =>
          cases hcode
          refine ⟨?_, iff_of_false (fun heq => hrefused _ (Except.ok.inj heq)) hchecked⟩
          rintro _ ⟨⟩
          rfl
    · rw [h] at hcode
      cases r with
      | ok result => cases hcode
      | error err' =>
          refine ⟨?_, iff_of_false (fun heq => by cases heq) hchecked⟩
          rintro _ ⟨⟩

end Runs

/-! ## Two callers at the desk -/

/-- Both callers have the permit of the desk. -/
def deskCallers (proposal : ActionProposal) (resourceId : String) : Callers Bool where
  permit := deskPermit proposal resourceId
  proposal := proposal
  executor _ := deskExecutor
  texts _ := {}
  own _ := { session := {} }

/-- The two before their checks. -/
def deskPool (proposal : ActionProposal) (resourceId : String) :
    Pool Bool PyError Database Racer ExecutionResult :=
  (deskCallers proposal resourceId).pool (deskWorld proposal resourceId).shared

/-- One caller after the other. -/
def deskInTurn (proposal : ActionProposal) (resourceId : String) :
    Pool Bool PyError Database Racer ExecutionResult :=
  ((((deskPool proposal resourceId).next false).next false).next true).next true

/-- Both make their checks before one of them writes. -/
def deskTogether (proposal : ActionProposal) (resourceId : String) :
    Pool Bool PyError Database Racer ExecutionResult :=
  ((((deskPool proposal resourceId).next false).next true).next false).next true

/-- The clerks may come one behind the other. -/
theorem deskInTurn_reached (proposal : ActionProposal) (resourceId : String) :
    Pool.Reaches Nobody (deskPool proposal resourceId) (deskInTurn proposal resourceId) :=
  (((Pool.reaches_next _ false).trans (Pool.reaches_next _ false)).trans
    (Pool.reaches_next _ true)).trans (Pool.reaches_next _ true)

/-- They may come together. -/
theorem deskTogether_reached (proposal : ActionProposal) (resourceId : String) :
    Pool.Reaches Nobody (deskPool proposal resourceId) (deskTogether proposal resourceId) :=
  (((Pool.reaches_next _ false).trans (Pool.reaches_next _ true)).trans
    (Pool.reaches_next _ false)).trans (Pool.reaches_next _ true)

/-- The refund can be executed for two minutes. -/
theorem deskCallers_present_refund :
    (deskCallers refundFirst "pay_ord_0001").Present (deskWorld refundFirst "pay_ord_0001").shared
      ⟨"pay_ord_0001", 1, str PaymentStatus.captured⟩ (defaultClockBase + seconds 120) where
  presentable :=
    { loaded := by decide +kernel
      expires := by decide +kernel
      clear := ⟨rfl, by decide +kernel, rfl, ⟨_, by decide +kernel, le_rfl⟩, rfl,
        by decide +kernel, rfl, by decide +kernel, by decide +kernel⟩
      refund := by decide +kernel
      ticket := by decide +kernel
      order := by decide +kernel }
  clock _ _ := show defaultClockBase ≤ defaultClockBase + seconds 120 by decide
  quiet _ := rfl

/-- So can the ticket. -/
theorem deskCallers_present_ticket :
    (deskCallers ticketFirst "ord_0001").Present (deskWorld ticketFirst "ord_0001").shared
      ⟨"ord_0001", 1, str OrderStatus.paid⟩ (defaultClockBase + seconds 120) where
  presentable :=
    { loaded := by decide +kernel
      expires := by decide +kernel
      clear := ⟨rfl, by decide +kernel, rfl, ⟨_, by decide +kernel, le_rfl⟩, rfl,
        by decide +kernel, rfl, by decide +kernel, by decide +kernel⟩
      refund := by decide +kernel
      ticket := by decide +kernel
      order := by decide +kernel }
  clock _ _ := show defaultClockBase ≤ defaultClockBase + seconds 120 by decide
  quiet _ := rfl

/-- In turn: one of the two commits the refund, and the other gets no fresh result. -/
theorem race_answers_inTurn :
    ∃ (i : Bool) (x : Execution), x.permit = deskPermit refundFirst "pay_ord_0001" ∧
      ((deskInTurn refundFirst "pay_ord_0001").threads i).answer = some (.ok x.result) ∧
      ∀ j ≠ i, ∀ r, ((deskInTurn refundFirst "pay_ord_0001").threads j).answer = some r →
        ∀ result, r = .ok result → result.fresh = false := by
  rcases race_answers deskCallers_present_refund
    (deskInTurn_reached refundFirst "pay_ord_0001") with
    ⟨-, hnobody⟩ | ⟨_, _, i, x, -, -, -, -, -, hpermit, -, hwinner, hothers⟩
  · exact absurd (hnobody false) (by decide +kernel)
  · exact ⟨i, x, hpermit, hwinner, fun j hj r hr => (hothers j hj r hr).1⟩

/-- Both make their checks before either writes.  One commits; for a refund the other is told
that the row has moved, for a ticket it gets the violated key. -/
theorem refused_beside_commit :
    ((deskCallers refundFirst "pay_ord_0001").Present
        (deskWorld refundFirst "pay_ord_0001").shared
        ⟨"pay_ord_0001", 1, str PaymentStatus.captured⟩ (defaultClockBase + seconds 120) ∧
      Pool.Reaches Nobody (deskPool refundFirst "pay_ord_0001")
        (deskTogether refundFirst "pay_ord_0001") ∧
      ((deskTogether refundFirst "pay_ord_0001").threads false).answer = some (.ok
        { committed := true, action := some .issueRefund, resourceId := "pay_ord_0001",
          amountCents := 5000, createdId := "ref_prm_run_desk_001" }) ∧
      ((deskTogether refundFirst "pay_ord_0001").threads true).answer =
        some (.ok (rejected .staleResourceVersion "pay_ord_0001"))) ∧
    (deskCallers ticketFirst "ord_0001").Present (deskWorld ticketFirst "ord_0001").shared
        ⟨"ord_0001", 1, str OrderStatus.paid⟩ (defaultClockBase + seconds 120) ∧
      Pool.Reaches Nobody (deskPool ticketFirst "ord_0001")
        (deskTogether ticketFirst "ord_0001") ∧
      ((deskTogether ticketFirst "ord_0001").threads false).answer = some (.ok
        { committed := true, action := some .createSupportTicket, resourceId := "ord_0001",
          createdId := "tkt_prm_run_desk_001" }) ∧
      ((deskTogether ticketFirst "ord_0001").threads true).answer = some (.error
        (.integrityError "UNIQUE constraint failed: support_tickets.ticket_id")) :=
  ⟨⟨deskCallers_present_refund, deskTogether_reached _ _, by decide +kernel,
    by decide +kernel⟩, deskCallers_present_ticket, deskTogether_reached _ _,
    by decide +kernel, by decide +kernel⟩

end BoundedRefund
