import BoundedRefund.LoopsAtRest

/-!
# What an outcome promises

A run reports one outcome, and its loops overwrite it while the rows they write stay.  Two
promises hang on that.  A refusal is to write nothing, or one ticket (`refusal_writes_iff`);
and a completion is to be about the last proposal that was taken (`last_step_done_iff`).

Both hold of every single step, and each fails in one way when steps are chained: a step
that is refused behind one that was completed (`denied_behind_commit`), or a step that is
dropped because the loop that would repeat it is over (`completed_over_dropped`).  A refusal
can also hide a commit of its own, whose response was lost and asked for again too late.
-/

namespace BoundedRefund

open Concurrent Relational

/-! ## What a refusal may write -/

/-- The rows an outcome promises at most: a refusal writes nothing, an escalation one ticket. -/
def Outcome.Allows : Outcome → List MutationRow → Prop
  | .completed, _ => True
  | .denied, rows => rows = []
  | .escalated, rows => rows = [] ∨ ∃ row, rows = [row] ∧ row.action = .createSupportTicket

/-- The call ends as its outcome promises, with what was written before it. -/
def Call.Harmless (r : Runner) (call : Call) : Prop :=
  match call.fate r with
  | .refused | .ticketed => call.start.shared.mutationLog = []
  | .unticketed => Outcome.escalated.Allows call.start.shared.mutationLog
  | .unconfirmed => False
  | .stale | .completed => True

section Refusals

variable {r : Runner} {spec : FailureSpec} {c : FixedClock} {v v' w : World} {call : Call}

/-- **A step keeps the promise of its outcome** exactly if its call is harmless. -/
theorem Tried.allows_iff (hrun : Running r spec v) {n : Nat} {orderId : String} {step : Attempt}
    {stepOrderId : String} (ht : Tried r n orderId v v' call (.ok (step, stepOrderId)))
    (hreplan : step.replan = false) (hescalate : step.escalateAfterReplan = false) :
    step.outcome.Allows v'.shared.mutationLog ↔ call.Harmless r := by
  have hfate := ht.fate hrun
  unfold Call.Harmless
  rw [show call.start.shared.mutationLog = v.shared.mutationLog by rw [ht.called.start]]
  cases hf : call.fate r <;> rw [hf] at hfate
  case stale => simp [Fate.Leads, hreplan, hescalate] at hfate
  all_goals
    obtain ⟨hs, hlog⟩ := hfate
    rw [hs.outcome]
  case refused => exact hlog ▸ Iff.rfl
  case unticketed => rw [hlog]
  case ticketed =>
    obtain ⟨row, hlog, haction⟩ := hlog
    rw [hlog]
    constructor
    · rintro (hnil | ⟨row', hone, -⟩)
      · simp at hnil
      · exact (List.append_eq_singleton_iff.mp hone).elim And.left fun h => by simp at h
    · intro hnil
      exact .inr ⟨row, by rw [hnil, List.nil_append], haction⟩
  case unconfirmed =>
    obtain ⟨row, hlog⟩ := hlog
    simp [Outcome.Allows, hlog]
  case completed => exact Iff.rfl

/-- A call that found stale state wrote nothing. -/
theorem Call.harmless_of_stale (hstale : call.fate r = .stale) : call.Harmless r := by
  simp [Call.Harmless, hstale]

/-- The promise of the outcome is kept exactly if all calls were harmless. -/
def Promised (r : Runner) (planned : Planned) (v : World) : Prop :=
  planned.outcome.Allows v.shared.mutationLog ↔ ∀ call ∈ v.own.history, call.Harmless r

/-- An attempt behind harmless calls. -/
theorem Tried.promised (hrun : Running r spec v)
    (hharmless : ∀ call ∈ v.own.history, call.Harmless r) {n : Nat} {orderId : String}
    {step : Attempt} {stepOrderId : String}
    (ht : Tried r n orderId v v' call (.ok (step, stepOrderId))) (hreplan : step.replan = false)
    (hescalate : step.escalateAfterReplan = false) {planned : Planned}
    (houtcome : planned.outcome = step.outcome) : Promised r planned v' := by
  unfold Promised
  rw [houtcome, ht.allows_iff hrun hreplan hescalate, ht.called.history, List.forall_mem_cons]
  exact (and_iff_left hharmless).symm

/-- Where a run goes on, all its calls were harmless. -/
theorem Promised.harmless {planned : Planned} (h : Promised r planned v)
    (hcompleted : planned.outcome = .completed) : ∀ call ∈ v.own.history, call.Harmless r :=
  h.mp (by rw [hcompleted]; trivial)

/-- **What is promised is kept**, over the loops and the escalation between them, which writes
one ticket at most. -/
theorem promised_leads : r.Leads spec (Call.Harmless r) (Promised r) (Promised r) where
  stale _ _ := Call.harmless_of_stale
  first _ _ _ _ _ _ _ h tried hreplan hescalate _ :=
    tried.promised h.toRunning h.calls hreplan hescalate rfl
  hand call earlier proposal v v' _ _ _ hclean haside hticketed := by
    refine iff_of_true ?_ (haside.history ▸ hclean.calls)
    rcases hticketed.row with hlog | ⟨row, hlog, haction, -⟩
    · exact .inl (hlog.trans hclean.mutationLog)
    · exact .inr ⟨row, by rw [hlog, hclean.mutationLog, List.nil_append], haction⟩
  next _ _ _ _ _ _ h hcompleted hrun tried hreplan hescalate :=
    tried.promised hrun (h.harmless hcompleted) hreplan hescalate rfl
  drop planned v v' call step orderId h hcompleted hrun tried hmore := by
    refine iff_of_true (by rw [hcompleted]; trivial) ?_
    rw [tried.called.history]
    exact List.forall_mem_cons.mpr
      ⟨Call.harmless_of_stale (tried.stale hrun hmore).1, h.harmless hcompleted⟩
  stop _ _ h := h

/-- The rows of a run on a seeded database are all the rows there are. -/
theorem mutationLogRows_run {db : Database} (hseeded : db.Seeded) {proposals : List RawProposal}
    {res : Except PyError RunReport}
    (hrun : r.run.run ⟨db, r.start proposals spec⟩ = (res, v')) :
    v'.shared.mutationLogRows r.runId = v'.shared.mutationLog := by
  obtain ⟨calls, rows, changes, -, htrace⟩ := run_traced r proposals spec db
  rw [hrun] at htrace
  rw [Database.mutationLogRows, htrace.log, hseeded.mutationLog, List.nil_append,
    List.filter_eq_self]
  exact fun row hrow => decide_eq_true (htrace.runId row hrow)

/-- **What a refusal writes.**  A run that reports has written what its outcome allows, which
for a refusal is nothing and for an escalation one ticket, if and only if all its calls were
harmless: none was refused or escalated behind a row of the run, except for an escalation
without a ticket behind a ticket, and no response was lost that could not be asked for
again. -/
theorem refusal_writes_iff {db : Database} {proposals : List RawProposal} {report : RunReport}
    (hclock : r.clock = c.now) (hseeded : db.Seeded)
    (hrun : r.run.run ⟨db, r.start proposals spec⟩ = (.ok report, v')) :
    report.outcome.Allows (v'.shared.mutationLogRows r.runId) ↔
      ∀ call ∈ v'.own.history, call.Harmless r := by
  obtain ⟨planned, y, hpromised, houtcome, -, hshared, hhistory⟩ :=
    promised_leads.reported hclock hseeded hrun
  rw [mutationLogRows_run hseeded hrun, houtcome, hshared, hhistory]
  exact hpromised

end Refusals

/-- A run that takes one proposal after the other, and may plan again. -/
def chainRunner : Runner where
  clock := FixedClock.now { base := defaultClockBase }
  runId := "run_chain"
  scenarioId := "chain"
  allowReplanOnStale := true
  defaultOrderId := "ord_0001"
  chainProposals := true

/-- How it ends on one paid order. -/
def chainStopped (proposals : List RawProposal) (failures : FailureSpec) :
    Except PyError RunReport × World :=
  chainRunner.run.run ⟨seedWorld [("ord_0001", .paid)], chainRunner.start proposals failures⟩

/-- Two cancels in a chain: the second is refused, and the row of the first stays. -/
theorem refusal_writes_chain : ∃ report,
    (chainStopped [.proposal cancelFirst, .proposal cancelFirst] {}).1 = .ok report ∧
    (report.outcome.Allows ((chainStopped [.proposal cancelFirst, .proposal cancelFirst]
        {}).2.shared.mutationLogRows "run_chain") ↔
      ∀ call ∈ (chainStopped [.proposal cancelFirst, .proposal cancelFirst] {}).2.own.history,
        call.Harmless chainRunner) := by
  have hok : (chainStopped [.proposal cancelFirst, .proposal cancelFirst] {}).1.isOk = true := by
    decide +kernel
  rcases hrun : chainStopped [.proposal cancelFirst, .proposal cancelFirst] {} with
    ⟨err | report, v'⟩
  · rw [hrun] at hok
    cases hok
  · exact ⟨report, rfl, refusal_writes_iff rfl (seedWorld_seeded _) hrun⟩

/-- The first cancellation commits; the second is denied, and so is the run. -/
theorem denied_behind_commit :
    (chainStopped [.proposal cancelFirst, .proposal cancelFirst] {}).1.map RunReport.outcome =
      .ok .denied ∧
    (chainStopped [.proposal cancelFirst, .proposal cancelFirst] {}).2.shared.mutationLogRows
      "run_chain" ≠ [] := by
  constructor <;> decide +kernel

/-! ## What a completion is about -/

/-- The call is refused as stale behind a commit, where nobody tries again. -/
def Call.Dropped (r : Runner) (call : Call) : Prop :=
  call.fate r = .stale ∧ call.start.shared.mutationLog ≠ []

/-- The call was validated and allowed, for the given reason, and a row with its action,
resource and amount was added since it was made. -/
def Call.Done (r : Runner) (call : Call) (reasonCode : ReasonCode) (db : Database) : Prop :=
  ∃ proposal s d rows, Judged r call proposal s d ∧ d.decision = .allow ∧
    reasonCode = d.reasonCode ∧ db.mutationLog = call.start.shared.mutationLog ++ rows ∧
    ∃ row ∈ rows, row.runId = r.runId ∧ row.action = proposal.action ∧
      row.resourceId = d.resourceId ∧ row.amountCents = proposal.amount

section Completions

variable {r : Runner} {spec : FailureSpec} {c : FixedClock} {v v' w : World} {call : Call}

/-- The row of an allowed call that went through. -/
theorem Opened.done {proposal : ActionProposal} {s : PolicySnapshot} {d : PolicyResult}
    {permit : ExecutionPermit} {u : World} {n : Nat} {now : Instant} {mid : Database}
    (h : Opened r call proposal s d permit v u w)
    (landed : Landed r (allowedRequest proposal d) permit proposal {} n w now mid v'.shared) :
    call.Done r d.reasonCode v'.shared := by
  refine ⟨proposal, s, d, _, h.toJudged, h.decision, rfl, ?_,
    (r.executor.execution permit proposal {} now).logRow, List.mem_singleton_self _, rfl, rfl,
    ?_, ?_⟩
  · rw [h.start]
    exact h.mutationLog landed
  · change permit.resourceId = d.resourceId
    rw [h.equipped.issued]
    rfl
  · change (if proposal.action = .issueRefund then proposal.amount else 0) = proposal.amount
    split_ifs with ha
    · rfl
    · -- only a refund may name an amount above zero
      have hwithin : proposal.amount ≤ d.maxAmountCents := landed.within
      rw [evaluate_allow_maxAmount h.evaluated h.decision ha] at hwithin
      exact le_antisymm proposal.amount_nonneg hwithin

/-- **A completed step is done.** -/
theorem Tried.done (hrun : Running r spec v) {n : Nat} {orderId : String} {step : Attempt}
    {stepOrderId : String} (ht : Tried r n orderId v v' call (.ok (step, stepOrderId)))
    (hcompleted : step.outcome = .completed) : call.Done r step.reasonCode v'.shared := by
  cases ht.verdict rfl hrun with
  | rejected reason => cases hcompleted
  | denied proposal s d => cases hcompleted
  | escalated proposal s d => cases hcompleted
  | late proposal s d => cases hcompleted
  | beyond proposal s d => cases hcompleted
  | overtaken proposal s d =>
      have hstale := r.conclude_stale_outcome d n d.resourceId
      rw [hcompleted] at hstale
      split_ifs at hstale
  | completed proposal s d permit u w now mid opened landed => exact opened.done landed
  | unconfirmed proposal s d => cases hcompleted

/-- What holds in the first loop and in the chain: no call was dropped, and what is completed is
done. -/
structure Undropped (r : Runner) (planned : Planned) (v : World) : Prop where
  undropped : ∀ call ∈ v.own.history, ¬ call.Dropped r
  done : planned.outcome = .completed → v.shared.mutationLog ≠ [] ∧
    ∃ call earlier, v.own.history = call :: earlier ∧ call.Done r planned.reasonCode v.shared

/-- What holds where the chain stops: a completion is about the last call, unless that was
dropped. -/
def Concluded (r : Runner) (planned : Planned) (v : World) : Prop :=
  (planned.outcome = .completed → ∃ call earlier, v.own.history = call :: earlier ∧
      call.Done r planned.reasonCode v.shared) ↔ ∀ call ∈ v.own.history, ¬ call.Dropped r

/-- An attempt that ends its loop, behind calls none of which was dropped. -/
theorem Tried.undropped (hrun : Running r spec v)
    (hundropped : ∀ call ∈ v.own.history, ¬ call.Dropped r) {n : Nat} {orderId : String}
    {step : Attempt} {stepOrderId : String}
    (ht : Tried r n orderId v v' call (.ok (step, stepOrderId))) (hreplan : step.replan = false)
    (hescalate : step.escalateAfterReplan = false) {planned : Planned}
    (houtcome : planned.outcome = step.outcome) (hreason : planned.reasonCode = step.reasonCode) :
    Undropped r planned v' := by
  have hfate := ht.fate hrun
  constructor
  · rw [ht.called.history, List.forall_mem_cons]
    refine ⟨fun hdropped => ?_, hundropped⟩
    rw [hdropped.1] at hfate
    simp [Fate.Leads, hreplan, hescalate] at hfate
  · intro hcompleted
    have hdone := ht.done hrun (houtcome ▸ hcompleted)
    refine ⟨?_, call, v.own.history, ht.called.history, hreason ▸ hdone⟩
    obtain ⟨-, -, -, rows, -, -, -, hrows, row, hrow, -⟩ := hdone
    rw [hrows]
    exact List.append_ne_nil_of_right_ne_nil _ (List.ne_nil_of_mem hrow)

/-- **The chain is left where a call is dropped**, and the completion before it is then about no
last call. -/
theorem Undropped.drop {planned : Planned} (h : Undropped r planned v)
    (hcompleted : planned.outcome = .completed) (hrun : Running r spec v) {orderId : String}
    {step : Attempt} (tried : Tried r 1 planned.orderId v v' call (.ok (step, orderId)))
    (hmore : step.replan = true ∨ step.escalateAfterReplan = true) :
    Concluded r { planned with orderId } v' := by
  obtain ⟨hfate, hlog⟩ := tried.stale hrun hmore
  have hstart : call.start.shared.mutationLog = v.shared.mutationLog := by
    rw [tried.called.start]
  have hdropped : call.Dropped r := ⟨hfate, hstart ▸ (h.done hcompleted).1⟩
  refine iff_of_false (fun hdone => ?_) fun hnone => ?_
  · -- a call that was dropped has added no row
    obtain ⟨call', earlier, hhistory, proposal, s, d, rows, -, -, -, hrows, row, hrow, -⟩ :=
      hdone hcompleted
    obtain ⟨rfl, -⟩ := List.cons.inj (hhistory.symm.trans tried.called.history)
    rw [hlog, hstart, List.self_eq_append_right] at hrows
    rw [hrows] at hrow
    cases hrow
  · rw [tried.called.history] at hnone
    exact hnone call List.mem_cons_self hdropped

/-- **What a completion leads to.** -/
theorem undropped_leads :
    r.Leads spec (fun call => ¬ call.Dropped r) (Undropped r) (Concluded r) where
  stale _ hlog _ hdropped := hdropped.2 hlog
  first _ _ _ _ _ _ _ h tried hreplan hescalate _ :=
    tried.undropped h.toRunning h.calls hreplan hescalate rfl rfl
  hand _ _ _ _ _ _ _ _ hclean haside _ :=
    ⟨haside.history ▸ hclean.calls, fun hcompleted => by cases hcompleted⟩
  next _ _ _ _ _ _ h _ hrun tried hreplan hescalate :=
    tried.undropped hrun h.undropped hreplan hescalate rfl rfl
  drop _ _ _ _ _ _ h hcompleted hrun tried hmore := h.drop hcompleted hrun tried hmore
  stop _ _ h := iff_of_true (fun hcompleted => (h.done hcompleted).2) h.undropped

/-- **What a completion is about.**  If a run reports that it was completed, its last proposal
was validated and allowed for the reason of the report, and its mutation is in the log; in
every run that reports, this is so if and only if no call was dropped. -/
theorem last_step_done_iff {db : Database} {proposals : List RawProposal} {report : RunReport}
    (hclock : r.clock = c.now) (hseeded : db.Seeded)
    (hrun : r.run.run ⟨db, r.start proposals spec⟩ = (.ok report, v')) :
    (report.outcome = .completed → ∃ call earlier, v'.own.history = call :: earlier ∧
        call.Done r report.reasonCode v'.shared) ↔
      ∀ call ∈ v'.own.history, ¬ call.Dropped r := by
  obtain ⟨planned, y, hconcluded, houtcome, hreason, hshared, hhistory⟩ :=
    undropped_leads.reported hclock hseeded hrun
  rw [houtcome, hreason, hshared, hhistory]
  exact hconcluded

end Completions

/-- A refund that commits, and a cancellation whose order moves before its commit. -/
def droppedStopped : Except PyError RunReport × World :=
  chainStopped [.proposal refundFirst, .proposal cancelFirst] orderMoves

/-- A chain that drops its last call. -/
theorem last_step_done_dropped : ∃ report, droppedStopped.1 = .ok report ∧
    ((report.outcome = .completed → ∃ call earlier, droppedStopped.2.own.history =
        call :: earlier ∧ call.Done chainRunner report.reasonCode droppedStopped.2.shared) ↔
      ∀ call ∈ droppedStopped.2.own.history, ¬ call.Dropped chainRunner) := by
  have hok : droppedStopped.1.isOk = true := by decide +kernel
  rcases hrun : droppedStopped with ⟨err | report, v'⟩
  · rw [hrun] at hok
    cases hok
  · exact ⟨report, rfl, last_step_done_iff rfl (seedWorld_seeded _) hrun⟩

/-- The run is completed with the reason of the refund; the last proposal is the cancellation,
and no row cancels anything. -/
theorem completed_over_dropped :
    droppedStopped.1.map (fun report => (report.outcome, report.reasonCode)) =
      .ok (.completed, .refundableWithinLimits) ∧
    droppedStopped.2.own.history.head?.map
      (fun call => validate chainRunner.intFromText call.raw) = some (.ok cancelFirst) ∧
    ∀ row ∈ droppedStopped.2.shared.mutationLog, row.action ≠ .cancelOrder := by
  refine ⟨?_, ?_, ?_⟩ <;> decide +kernel

end BoundedRefund
