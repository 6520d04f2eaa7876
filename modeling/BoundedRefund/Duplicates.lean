import BoundedRefund.LoopsAtRest
import BoundedRefund.Outcomes

/-!
# Duplicate mutations

The release criteria ask for no duplicate mutation: no two rows of a run with one action and
one resource.  A refund and a cancellation leave a status behind that lets no second one
through, but a ticket changes nothing it is written for, so a chain of requests can write one
behind the other (`ticket_written_twice`).

Which row a call writes can be told from the world it starts in (`Call.writes`), and it is the
only one it adds (`Tried.writes`).  So a run is free of duplicates exactly if no call writes
what was written before it started (`duplicate_mutations_iff`); the ticket behind stale state
needs no condition, since nothing comes before it.
-/

namespace BoundedRefund

open Concurrent Relational

/-- What the counts of duplicates compare. -/
def MutationRow.key (row : MutationRow) : ActionName × String := (row.action, row.resourceId)

/-- No two rows have the same action and resource. -/
def Distinct (rows : List MutationRow) : Prop := (rows.map MutationRow.key).Nodup

/-! ## The counts -/

/-- No key is counted twice exactly where there is none twice. -/
theorem duplicates_eq_zero_iff {α : Type} [DecidableEq α] (keys : List α) :
    keys.length - keys.dedup.length = 0 ↔ keys.Nodup := by
  rw [Nat.sub_eq_zero_iff_le]
  constructor
  · intro h
    exact List.dedup_eq_self.mp (keys.dedup_sublist.eq_of_length_le h)
  · intro h
    rw [h.dedup]

/-- The report counts no duplicate, nor does the evaluation, exactly if there is none. -/
theorem RunReport.Counts.duplicates_iff {report : RunReport} {r : Runner} {db : Database}
    (h : report.Counts r db) :
    report.duplicateMutationCount = 0 ↔ Distinct (db.mutationLogRows r.runId) := by
  rw [h.duplicateMutationCount]
  dsimp only
  rw [duplicates_eq_zero_iff]
  have hjoined : ((db.mutationLogRows r.runId).map fun row => str row.action ++ ":" ++
      row.resourceId) = ((db.mutationLogRows r.runId).map MutationRow.key).map
        fun pair => str pair.1 ++ ":" ++ pair.2 := by
    rw [List.map_map]
    rfl
  rw [hjoined, List.nodup_map_iff joined_injective]
  rfl

/-- The evaluation counts no duplicate exactly where the log rows of the run are distinct. -/
theorem observe_duplicates_iff {db : Database} (runId orderId : String) :
    (db.observe runId orderId).duplicateMutationCount = 0 ↔
      Distinct (db.mutationLogRows runId) := by
  have hobserved : ((db.observe runId orderId).mutations.map fun item =>
      (item.action, item.resourceId)) = ((db.mutationLogRows runId).map MutationRow.key).map
        fun pair => (str pair.1, pair.2) := by
    simp only [Database.observe, List.map_map]
    rfl
  change List.length _ - List.length _ = 0 ↔ _
  rw [duplicates_eq_zero_iff]
  exact hobserved ▸ List.nodup_map_iff keys_injective

/-! ## The row of a call -/

/-- The action and the resource of the row a call writes, told from the world it starts in and
the decision on it. -/
def Call.writes (r : Runner) (call : Call) : Option (ActionName × String) :=
  match validate r.intFromText call.raw, call.judged with
  | .ok proposal, some (_, d) =>
      match call.fate r with
      | .ticketed => some (.createSupportTicket, proposal.orderId)
      | .completed | .unconfirmed => some (proposal.action, d.resourceId)
      | .refused | .unticketed | .stale => none
  | _, _ => none

/-- The call writes what was written before it started. -/
def Call.Repeats (r : Runner) (call : Call) : Prop :=
  ∃ key ∈ call.writes r, key ∈ call.start.shared.mutationLog.map MutationRow.key

section Writes

variable {r : Runner} {spec : FailureSpec} {v v' w : World} {call : Call}

/-- Who adds no row, writes none. -/
theorem Call.writes_of_same {step : Attempt} {log : List MutationRow}
    (h : (call.fate r).Leads step log log) : call.writes r = none := by
  unfold Call.writes
  split
  · cases hf : call.fate r <;> simp [hf, Fate.Leads] at h ⊢
  · rfl

/-- Who adds one, writes a ticket if it was escalated, and else what was proposed. -/
theorem Call.writes_of_added {step : Attempt} {log : List MutationRow} {row : MutationRow}
    {proposal : ActionProposal} {s : PolicySnapshot} {d : PolicyResult}
    (h : (call.fate r).Leads step log (log ++ [row])) (hjudged : Judged r call proposal s d) :
    call.writes r = some (if step.outcome = .escalated then
      (.createSupportTicket, proposal.orderId) else (proposal.action, d.resourceId)) := by
  simp only [Call.writes, hjudged.valid, hjudged.judged]
  cases hf : call.fate r <;> rw [hf] at h
  case ticketed => rw [if_pos h.1.outcome]
  case unconfirmed => rw [if_neg (by simp [h.1.outcome])]
  case completed => rw [if_neg (by simp [h.1.outcome])]
  all_goals simp [Fate.Leads] at h

/-- What went through has the action that was proposed, and the resource it was decided for. -/
theorem Opened.logRow_key {proposal : ActionProposal} {s : PolicySnapshot} {d : PolicyResult}
    {permit : ExecutionPermit} {u : World} (h : Opened r call proposal s d permit v u w)
    (now : Instant) : (r.executor.execution permit proposal {} now).logRow.key =
      (proposal.action, d.resourceId) := by
  have hresource : permit.resourceId = d.resourceId := by
    rw [h.equipped.issued]
    rfl
  exact Prod.ext rfl hresource

/-- **A call adds the row that it writes**, and no other. -/
theorem Tried.writes (hrun : Running r spec v) {n : Nat} {orderId : String} {step : Attempt}
    {stepOrderId : String} (ht : Tried r n orderId v v' call (.ok (step, stepOrderId))) :
    v'.shared.mutationLog.map MutationRow.key =
      v.shared.mutationLog.map MutationRow.key ++ (call.writes r).toList := by
  have hfate := ht.fate hrun
  -- the fate of a call says whether it wrote, and then its row is the one it was to write
  have same : v'.shared.mutationLog = v.shared.mutationLog →
      v'.shared.mutationLog.map MutationRow.key =
        v.shared.mutationLog.map MutationRow.key ++ (call.writes r).toList := by
    intro h
    rw [h] at hfate ⊢
    rw [Call.writes_of_same hfate, Option.toList_none, List.append_nil]
  have added : ∀ {row : MutationRow} {proposal : ActionProposal} {s : PolicySnapshot}
      {d : PolicyResult}, v'.shared.mutationLog = v.shared.mutationLog ++ [row] →
      Judged r call proposal s d →
      row.key = (if step.outcome = .escalated then (.createSupportTicket, proposal.orderId)
        else (proposal.action, d.resourceId)) →
      v'.shared.mutationLog.map MutationRow.key =
        v.shared.mutationLog.map MutationRow.key ++ (call.writes r).toList := by
    intro row proposal s d h hjudged hkey
    rw [h] at hfate ⊢
    rw [Call.writes_of_added hfate hjudged, List.map_append, List.map_singleton, hkey]
    rfl
  cases ht.verdict rfl hrun with
  | rejected reason invalid shared last => exact same (by rw [shared])
  | denied proposal s d judged decision shared last => exact same (by rw [shared])
  | escalated proposal s d w judged decision idle aging ticketed last =>
      rcases ticketed.row with hsame | ⟨row, hrow, haction, hresource⟩
      · exact same (by rw [hsame, idle.shared])
      · exact added (by rw [hrow, idle.shared]) judged (Prod.ext haction hresource)
  | late proposal s d permit u w opened late idle last =>
      refine same ?_
      rw [idle.shared, opened.unwritten.mutationLog]
  | beyond proposal s d permit u w opened inTime beyond shared last =>
      refine same ?_
      rw [shared, opened.unwritten.mutationLog]
  | overtaken proposal s d permit u w opened inTime within overtaken injected =>
      refine same ?_
      rw [injected.mutationLog, opened.unwritten.mutationLog]
  | completed proposal s d permit u w now mid opened landed =>
      exact added (opened.mutationLog landed) opened.toJudged (opened.logRow_key now)
  | unconfirmed proposal s d permit u w now mid opened landed =>
      exact added (opened.mutationLog landed) opened.toJudged (opened.logRow_key now)

/-- **A step keeps the rows distinct** exactly if its call does not repeat one. -/
theorem Tried.distinct_iff (hrun : Running r spec v) {n : Nat} {orderId : String}
    {step : Attempt} {stepOrderId : String}
    (ht : Tried r n orderId v v' call (.ok (step, stepOrderId))) :
    Distinct v'.shared.mutationLog ↔ Distinct v.shared.mutationLog ∧ ¬ call.Repeats r := by
  have hstart : call.start.shared.mutationLog = v.shared.mutationLog := by rw [ht.called.start]
  unfold Distinct Call.Repeats
  rw [ht.writes hrun, hstart]
  cases call.writes r with
  | none => simp
  | some key =>
      simp only [Option.toList_some, Option.mem_def, Option.some.injEq, exists_eq_left']
      rw [List.nodup_append_comm, List.singleton_append, List.nodup_cons, and_comm]

/-- The row of a call, and the rows before it. -/
theorem Tried.distinct_history (hrun : Running r spec v) {n : Nat} {orderId : String}
    {step : Attempt} {stepOrderId : String}
    (ht : Tried r n orderId v v' call (.ok (step, stepOrderId)))
    (h : Distinct v.shared.mutationLog ↔ ∀ call ∈ v.own.history, ¬ call.Repeats r) :
    Distinct v'.shared.mutationLog ↔ ∀ call ∈ v'.own.history, ¬ call.Repeats r := by
  rw [ht.distinct_iff hrun, ht.called.history, List.forall_mem_cons, h, and_comm]

/-- The rows stay distinct as long as no call repeats one. -/
theorem distinct_leads : r.Leads spec (fun call => ¬ call.Repeats r)
    (fun _ v => Distinct v.shared.mutationLog ↔ ∀ call ∈ v.own.history, ¬ call.Repeats r)
    fun _ v => Distinct v.shared.mutationLog ↔ ∀ call ∈ v.own.history, ¬ call.Repeats r where
  stale call hlog _ := by simp [Call.Repeats, hlog]
  first _ _ _ _ _ _ _ h tried _ _ _ :=
    tried.distinct_history h.toRunning (iff_of_true (by simp [Distinct, h.mutationLog]) h.calls)
  hand _ _ _ _ _ _ _ _ h aside ticketed := by
    refine iff_of_true ?_ (aside.history ▸ h.calls)
    -- the ticket is the first row of the run
    rcases ticketed.row with hlog | ⟨row, hlog, -⟩ <;> simp [Distinct, hlog, h.mutationLog]
  next _ _ _ _ _ _ h _ hrun tried _ _ := tried.distinct_history hrun h
  drop _ _ _ _ _ _ h _ hrun tried _ := tried.distinct_history hrun h
  stop _ _ h := h

end Writes

/-! ## Runs -/

/-- **When a run makes no duplicate mutation.**  Of every run that reports: the report counts
none if and only if no call of the run wrote what was written before it, the evaluation counts
none if and only if the report does, and both mean that no two rows of the run have the same
action and resource. -/
theorem duplicate_mutations_iff {r : Runner} {c : FixedClock} {spec : FailureSpec}
    {db : Database} {proposals : List RawProposal} {report : RunReport} {v' : World}
    (hclock : r.clock = c.now) (hseeded : db.Seeded)
    (hrun : r.run.run ⟨db, r.start proposals spec⟩ = (.ok report, v')) (orderId : String) :
    (report.duplicateMutationCount = 0 ↔ ∀ call ∈ v'.own.history, ¬ call.Repeats r) ∧
    ((v'.shared.observe r.runId orderId).duplicateMutationCount = 0 ↔
      report.duplicateMutationCount = 0) ∧
    (report.duplicateMutationCount = 0 ↔
      ((v'.shared.mutationLogRows r.runId).map MutationRow.key).Nodup) := by
  have hreport := (run_counts hrun).duplicates_iff
  refine ⟨?_, (observe_duplicates_iff r.runId orderId).trans hreport.symm, hreport⟩
  obtain ⟨last, y, hdistinct, -, -, hshared, hhistory⟩ :=
    distinct_leads.reported hclock hseeded hrun
  rw [hreport, mutationLogRows_run hseeded hrun, hshared, hhistory]
  exact hdistinct

/-- A cancel and a ticket of one chain: no call repeats another. -/
theorem duplicate_mutations_chain : ∃ report,
    (chainStopped [.proposal cancelFirst, .proposal ticketFirst] {}).1 = .ok report ∧
    (report.duplicateMutationCount = 0 ↔
      ∀ call ∈ (chainStopped [.proposal cancelFirst, .proposal ticketFirst] {}).2.own.history,
        ¬ call.Repeats chainRunner) := by
  have hok : (chainStopped [.proposal cancelFirst, .proposal ticketFirst] {}).1.isOk = true := by
    decide +kernel
  rcases hrun : chainStopped [.proposal cancelFirst, .proposal ticketFirst] {} with
    ⟨err | report, v'⟩
  · rw [hrun] at hok
    cases hok
  · exact ⟨report, rfl, (duplicate_mutations_iff rfl (seedWorld_seeded _) hrun "ord_0001").1⟩

/-- Two requests for a person, one behind the other, and two tickets for one order. -/
theorem ticket_written_twice :
    (chainStopped [.proposal ticketFirst, .proposal ticketFirst] {}).1.map
      (fun report => (report.outcome, report.duplicateMutationCount)) = .ok (.completed, 1) ∧
    ((chainStopped [.proposal ticketFirst, .proposal ticketFirst] {}).2.shared.observe
      "run_chain" "ord_0001").duplicateMutationCount = 1 ∧
    (chainStopped [.proposal ticketFirst, .proposal ticketFirst] {}).2.shared.mutationLog.map
      MutationRow.key =
        [(.createSupportTicket, "ord_0001"), (.createSupportTicket, "ord_0001")] := by
  refine ⟨?_, ?_, ?_⟩ <;> decide +kernel

end BoundedRefund
