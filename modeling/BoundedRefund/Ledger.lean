import BoundedRefund.Discipline
import BoundedRefund.World

/-!
# The ledger

What the five bookkeeping tables are for, said once: they are five views of one list
of executions.  The log has one row for each, the records one, the used permits one;
the refunds and the tickets have one for each execution of their kind.  Each
execution stays inside its permit, and no two share an idempotency key.

`reachable_ledger` proves it of every database that any number of issuers and
executors reach together, each called with anything, in any interleaving.  The
argument is in `Ledger.commit`: a permit that was already used has its record, so the
key of a commit that goes through belongs to an unused permit, and the commit adds
one row to each view.
-/

namespace BoundedRefund

open Concurrent Relational

/-- The permit of an execution as the table holds it afterwards. -/
def Execution.spentPermit (x : Execution) : ExecutionPermit := { x.permit with used := true }

/-- **The ledger**: `xs` are the executions the database has seen. -/
structure Ledger (db : Database) (xs : List Execution) : Prop where
  log : db.mutationLog = xs.map Execution.logRow
  records : db.executionRecords.rows = xs.map Execution.recordRow
  permits : ((db.executionPermits.rows.filter PermitRow.used).map PermitRow.permit).Perm
    (xs.map Execution.spentPermit)
  refunds : db.refunds.rows =
    (xs.filter fun x => x.proposal.action = .issueRefund).map Execution.refundRow
  tickets : db.supportTickets.rows =
    (xs.filter fun x => x.proposal.action = .createSupportTicket).map Execution.ticketRow
  within : ∀ x ∈ xs, x.logRow.action = x.permit.action ∧
    x.logRow.resourceId = x.permit.resourceId ∧
    x.logRow.amountCents ≤ x.permit.maxAmountCents
  keys : (xs.map fun x => x.permit.idempotencyKey).Nodup

namespace Ledger

variable {db db' : Database} {xs : List Execution}

/-- The seed has no executions behind it. -/
theorem seeded (h : db.Seeded) : Ledger db [] where
  log := h.mutationLog
  records := h.executionRecords
  permits := by simp [h.executionPermits]
  refunds := h.refunds
  tickets := h.supportTickets
  within := by simp
  keys := by simp

/-- A used permit has its record. -/
theorem record_of_used (h : Ledger db xs) {row : PermitRow}
    (hrow : row ∈ db.executionPermits.rows) (hused : row.used = true) :
    ∃ x ∈ xs, x.spentPermit = row.permit := by
  have hmem : row.permit ∈ xs.map Execution.spentPermit := by
    refine h.permits.mem_iff.mp (List.mem_map.mpr ⟨row, ?_, rfl⟩)
    exact List.mem_filter.mpr ⟨hrow, hused⟩
  simpa using hmem

/-- The permit of a commit that goes through was not used before. -/
theorem unused_of_commits (h : Ledger db xs) {x : Execution} (hx : x.Commits db db')
    (hissued : Issued db x.permit) :
    ∃ row, db.executionPermits.find? x.permit.permitId = some row ∧ row.used = false ∧
      row.spend.permit = x.spentPermit := by
  obtain ⟨-, row, row', hrow, hkept, hfind⟩ := hissued
  refine ⟨row', hfind, ?_, ?_⟩
  · by_contra hused
    obtain ⟨y, hy, hyrow⟩ := h.record_of_used (Table.find?_eq_some.mp hfind).1
      (by simpa using hused)
    have hkey : y.permit.idempotencyKey = x.permit.idempotencyKey := by
      calc y.permit.idempotencyKey = y.spentPermit.idempotencyKey := rfl
        _ = row'.permit.idempotencyKey := congrArg ExecutionPermit.idempotencyKey hyrow
        _ = row.idempotencyKey := hkept.idempotencyKey
        _ = x.permit.idempotencyKey := congrArg ExecutionPermit.idempotencyKey hrow
    have hrecord : y.recordRow ∈ db.executionRecords.rows := by
      rw [h.records]
      exact List.mem_map_of_mem hy
    exact Table.find?_eq_none.mp hx.record_fresh _ hrecord hkey
  · rcases hkept with rfl | rfl <;> simp [Execution.spentPermit, ← hrow, PermitRow.spend,
      PermitRow.permit]

/-- **One commit, one entry in every view.** -/
theorem commit (h : Ledger db xs) {x : Execution} (hx : x.Commits db db')
    (hcleared : Cleared db x) : Ledger db' (xs ++ [x]) where
  log := by rw [hx.mutationLog, h.log, List.map_append, List.map_singleton]
  records := by rw [hx.executionRecords_rows, h.records, List.map_append, List.map_singleton]
  permits := by
    -- the permit joins the used ones, in the place of its row
    obtain ⟨row, hfind, hunused, hspent⟩ := h.unused_of_commits hx hcleared.issued
    have hadd : ((db.markUsed x.permit.permitId).executionPermits.rows.filter
        PermitRow.used).Perm (row.spend :: db.executionPermits.rows.filter PermitRow.used) :=
      Table.filter_update_perm PermitRow.spend_permitId hfind hunused rfl
    rw [hx.executionPermits, List.map_append, List.map_singleton, ← hspent]
    refine (hadd.map PermitRow.permit).trans ?_
    rw [List.map_cons]
    exact (h.permits.cons _).trans (List.perm_append_singleton _ _).symm
  refunds := by
    rw [hx.refunds, h.refunds, List.filter_append, List.map_append]
    by_cases ha : x.proposal.action = .issueRefund <;> simp [ha]
  tickets := by
    rw [hx.supportTickets, h.tickets, List.filter_append, List.map_append]
    by_cases ha : x.proposal.action = .createSupportTicket <;> simp [ha]
  within := by
    intro y hy
    rcases List.mem_append.mp hy with hy | hy
    · exact h.within y hy
    · rw [List.mem_singleton.mp hy]
      refine ⟨hcleared.action.symm, rfl, ?_⟩
      have hnonneg := x.proposal.amount_nonneg
      have hamount := hcleared.amount
      simp only [Execution.logRow, Execution.amount]
      split_ifs <;> omega
  keys := by
    have hnodup := (db'.executionRecords).nodup
    rw [hx.executionRecords_rows, h.records, ← List.map_singleton, ← List.map_append,
      List.map_map] at hnodup
    exact hnodup

/-- What leaves the five tables alone leaves the ledger alone. -/
theorem congr (h : Ledger db xs) (hlog : db'.mutationLog = db.mutationLog)
    (hrecords : db'.executionRecords = db.executionRecords)
    (hpermits : db'.executionPermits.rows.filter PermitRow.used =
      db.executionPermits.rows.filter PermitRow.used)
    (hrefunds : db'.refunds = db.refunds) (htickets : db'.supportTickets = db.supportTickets) :
    Ledger db' xs where
  log := hlog.trans h.log
  records := hrecords ▸ h.records
  permits := by
    rw [hpermits]
    exact h.permits
  refunds := hrefunds ▸ h.refunds
  tickets := htickets ▸ h.tickets
  within := h.within
  keys := h.keys

/-- A new permit is unused, so no view shows it. -/
theorem insertPermit (h : Ledger db xs) {row : PermitRow} (hunused : row.used = false)
    (hins : db.insertPermit row = .ok db') : Ledger db' xs := by
  obtain ⟨permits, hfresh, rfl⟩ := Database.insertPermit_eq_ok.mp hins
  refine h.congr rfl rfl ?_ rfl rfl
  simp [(Table.insert?_eq_some.mp hfresh).2, List.filter_append, hunused]

/-- Injected changes are about orders, payments and shipments. -/
theorem inject (h : Ledger db xs) {change : StateChange} (hap : change.apply db = .ok db') :
    Ledger db' xs := by
  rcases StateChange.apply_eq_ok hap with ⟨-, -, rfl⟩ | ⟨resource, -, -, rfl⟩
  · exact h
  · cases resource <;> exact h.congr rfl rfl rfl rfl rfl

/-- Every statement of an issuer or an executor keeps a ledger. -/
theorem statement {A : StateChange → Prop} {G : World → Execution → Prop}
    {v v' : World} (h : ∃ xs, Ledger v.shared xs) (hs : Statement A G v v') :
    ∃ xs, Ledger v'.shared xs := by
  obtain ⟨xs, h⟩ := h
  cases hs with
  | quiet heq => exact ⟨xs, heq ▸ h⟩
  | issue row hunused hins => exact ⟨xs, h.insertPermit hunused hins⟩
  | inject change may hap => exact ⟨xs, h.inject hap⟩
  | commit x hcleared grounds hx => exact ⟨xs ++ [x], h.commit hx hcleared⟩

end Ledger

/-! ## Any number of issuers and executors -/

/-- Permits and records are never taken back. -/
structure Persists (db db' : Database) : Prop where
  permits : Along PermitRow.Kept db.executionPermits db'.executionPermits
  records : Along Eq db.executionRecords db'.executionRecords

namespace Persists

variable {db db' : Database}

theorem refl (db : Database) : Persists db db :=
  ⟨Along.refl PermitRow.Kept.refl _, Along.refl (fun _ => rfl) _⟩

theorem trans {db'' : Database} (h : Persists db db') (h' : Persists db' db'') :
    Persists db db'' :=
  ⟨h.permits.trans (fun _ _ _ => PermitRow.Kept.trans) h'.permits,
    h.records.trans (fun _ _ _ => Eq.trans) h'.records⟩

/-- A step that leaves permits and results alone keeps them. -/
theorem of_eq (hpermits : db'.executionPermits = db.executionPermits)
    (hrecords : db'.executionRecords = db.executionRecords) : Persists db db' := by
  refine ⟨?_, ?_⟩
  · rw [hpermits]
    exact Along.refl PermitRow.Kept.refl _
  · rw [hrecords]
    exact Along.refl (fun _ => rfl) _

/-- A new permit leaves the others. -/
theorem insertPermit {row : PermitRow} (h : db.insertPermit row = .ok db') :
    Persists db db' := by
  obtain ⟨permits, hfresh, rfl⟩ := Database.insertPermit_eq_ok.mp h
  exact ⟨Along.insert? PermitRow.Kept.refl hfresh, Along.refl (fun _ => rfl) _⟩

/-- An injected change leaves them all. -/
theorem inject {change : StateChange} (h : change.apply db = .ok db') : Persists db db' := by
  rcases StateChange.apply_eq_ok h with ⟨-, -, rfl⟩ | ⟨resource, -, -, rfl⟩
  · exact refl _
  · cases resource <;> exact of_eq rfl rfl

/-- An execution spends its own permit and stores its own result. -/
theorem commits {x : Execution} (h : x.Commits db db') : Persists db db' := by
  refine ⟨?_, Along.insert? (fun _ => rfl) h.executionRecords⟩
  rw [h.executionPermits]
  exact Along.update PermitRow.Kept.refl PermitRow.spend_permitId fun _ _ _ => Or.inr rfl

/-- Permits and results persist under anything injected. -/
theorem discipline : Discipline Persists fun _ => True where
  refl := refl
  trans := fun _ _ _ => trans
  permits := Persists.permits
  issue := insertPermit
  inject := fun _ => inject
  commit := commits

end Persists

/-- A call of `issue_permit` or of `execute`, with any arguments. -/
inductive ServiceCall
  | issue (request : PermitRequest)
  | execute (permitId : Option String) (proposal : ActionProposal) (texts : TicketTexts)

/-- A caller with an issuer and an executor on the shared database. -/
structure Client where
  issuer : PermitIssuer
  executor : Executor

namespace Client

/-- A call of a client, with its answer left aside. -/
def perform (client : Client) : ServiceCall → Py Unit
  | .issue request => do
      let _ ← client.issuer.issuePermit request
      return
  | .execute permitId proposal texts => do
      let _ ← client.executor.execute permitId proposal texts
      return

/-- One call after the other.  A call that raises does not keep its caller from the
next one. -/
def serve (client : Client) : List ServiceCall → Py Unit
  | [] => return
  | call :: calls => do
      tryCatch (client.perform call) fun _ => return
      client.serve calls

/-- A call of a client leaves permits and results in place. -/
theorem perform_spec (client : Client) (call : ServiceCall) (v : World) :
    (client.perform call).Spec Persists (fun _ => True) (fun _ _ => True)
      (fun _ t => Frame Persists v t) v := by
  cases call with
  | issue request =>
      exact (issuePermit_spec Persists.discipline _ _).bind
        (fun _ t ht => Py.Spec.ret ht.1) fun _ _ h => h.1
  | execute permitId proposal texts =>
      exact (execute_spec Persists.discipline (fun _ _ => trivial)
        fun _ _ _ _ _ _ => trivial).bind (fun _ t ht => Py.Spec.ret ht) fun _ _ h => h

/-- So do all its calls. -/
theorem serve_spec (client : Client) (calls : List ServiceCall) (v : World) :
    (client.serve calls).Spec Persists (fun _ => True) (fun _ _ => True) (fun _ _ => True) v := by
  induction calls generalizing v with
  | nil => exact Py.Spec.ret trivial
  | cons call calls ih =>
      refine Py.Spec.bind (Q := fun _ _ => True) ?_ (fun _ t _ => ih t) fun _ _ _ => trivial
      refine (client.perform_spec call v).tryCatch (fun _ t _ => ?_) fun _ _ _ => trivial
      exact Py.Spec.ret trivial

end Client

/-- Callers at work on a database. -/
structure Service (ι : Type) where
  clients : ι → Client
  calls : ι → List ServiceCall
  sessions : ι → Session

/-- The pool of the callers, before any of them has done anything. -/
def Service.pool {ι : Type} (service : Service ι) (db : Database) :
    Pool ι PyError Database Local Unit where
  shared := db
  threads i := ⟨⟨service.sessions i, []⟩, (service.clients i).serve (service.calls i)⟩

/-- Somebody else changes orders, payments, shipments or policies, in any way. -/
structure OutsideLedger (db db' : Database) : Prop where
  supportTickets : db'.supportTickets = db.supportTickets
  refunds : db'.refunds = db.refunds
  executionPermits : db'.executionPermits = db.executionPermits
  executionRecords : db'.executionRecords = db.executionRecords
  mutationLog : db'.mutationLog = db.mutationLog

/-- So does everyone outside. -/
theorem OutsideLedger.persists {db db' : Database} (h : OutsideLedger db db') :
    Persists db db' :=
  Persists.of_eq h.executionPermits h.executionRecords

section Service

variable {ι : Type} (service : Service ι) (db : Database)

/-- Every statement of the service is one that the ledger accounts for. -/
theorem Service.verified :
    (service.pool db).Verified Persists (Statement (fun _ => True) fun _ _ => True) :=
  fun i => (service.clients i).serve_spec (service.calls i) _

/-- A pool that has a ledger keeps one, wherever it goes. -/
theorem exists_ledger_of_reaches [DecidableEq ι] {c c' : Pool ι PyError Database Local Unit}
    (hc : c.Verified Persists (Statement (fun _ => True) fun _ _ => True))
    (hledger : ∃ xs, Ledger c.shared xs) (h : Pool.Reaches OutsideLedger c c') :
    ∃ xs, Ledger c'.shared xs := by
  refine Pool.reachable_invariant (J := fun db => ∃ xs, Ledger db xs) Persists.refl
    (fun _ _ _ => Persists.trans) (fun _ _ => OutsideLedger.persists) ?_ ?_ hc h hledger
  · rintro d d' hd ⟨xs, hxs⟩
    exact ⟨xs, hxs.congr hd.mutationLog hd.executionRecords (by rw [hd.executionPermits])
      hd.refunds hd.supportTickets⟩
  · exact fun v v' _ hs hv => Ledger.statement hv hs

/-- **The ledger of any interleaving.**  From a seeded database, whatever the callers
ask for and however their statements interleave, with each other and with changes
outside the ledger, the log, the records, the used permits, the refunds and the
tickets are views of one list of executions. -/
theorem reachable_ledger [DecidableEq ι] (hseeded : db.Seeded)
    {c : Pool ι PyError Database Local Unit}
    (h : Pool.Reaches OutsideLedger (service.pool db) c) : ∃ xs, Ledger c.shared xs :=
  exists_ledger_of_reaches (service.verified db) ⟨[], Ledger.seeded hseeded⟩ h

end Service

/-- Two callers: the first has a permit issued and cancels an order with it, the
second presents the same permit. -/
def sharedPermitService : Service Bool where
  clients _ := ⟨⟨fun _ => defaultClockBase, "run_a", permitTtlSeconds⟩,
    ⟨fun _ => defaultClockBase, "run_a"⟩⟩
  calls
    | false =>
      [.issue { action := .cancelOrder, resourceId := "ord_0001", expectedResourceVersion := 1 },
       .execute (some "prm_run_a_001") cancelFirst {}]
    | true => [.execute (some "prm_run_a_001") cancelFirst {}]
  sessions _ := {}

/-- Two clients with one permit: their ledger is a list of executions. -/
theorem reachable_ledger_sharedPermit :
    ∃ xs, Ledger (((sharedPermitService.pool (seedWorld [("ord_0001", .paid)])).finish
      false).finish true).shared xs :=
  reachable_ledger sharedPermitService _ (seedWorld_seeded _)
    ((Pool.reaches_finish _ false).trans (Pool.reaches_finish _ true))

/-- The second caller got an answer and wrote nothing. -/
example : (((sharedPermitService.pool (seedWorld [("ord_0001", .paid)])).finish
    false).finish true).shared.mutationLog.map MutationRow.resourceId = ["ord_0001"] := by
  decide +kernel

end BoundedRefund
