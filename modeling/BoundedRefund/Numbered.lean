import BoundedRefund.Settled

/-!
# Numbered permits

A run that has the database for itself numbers its permits.  Every permit carries a
number the run has used, every record goes back to a permit, and a refund or a ticket is
named after a permit whose record is stored (`Numbered`).

So a number that is not used yet is fresh everywhere: a permit with it can be issued
(`Numbered.issuable`), nothing is stored under its key (`Equipped.fresh`), and what a
cleared permit would create has no namesake (`Numbered.unnamed`).
-/

namespace BoundedRefund

open Concurrent Relational

/-- Permits with numbers up to `n`, and what goes back to them. -/
structure Numbered (runId : String) (n : Nat) (db : Database) : Prop where
  permits : ∀ row ∈ db.executionPermits.rows, ∃ k ≤ n, row.permitId = permitIdFor runId k ∧
    row.idempotencyKey = idempotencyKeyFor runId k row.action row.resourceId
  records : ∀ row ∈ db.executionRecords.rows, ∃ permit ∈ db.executionPermits.rows,
    permit.idempotencyKey = row.idempotencyKey
  refunds : ∀ row ∈ db.refunds.rows, ∃ id, row.refundId = "ref_" ++ id ∧ db.Stored id
  tickets : ∀ row ∈ db.supportTickets.rows, ∃ id, row.ticketId = "tkt_" ++ id ∧ db.Stored id

namespace Numbered

variable {runId : String} {n n' : Nat} {db db' : Database}

/-- A seed has no permits of the run. -/
theorem seeded (h : db.Seeded) : Numbered runId 0 db where
  permits := by simp [h.executionPermits]
  records := by simp [h.executionRecords]
  refunds := by simp [h.refunds]
  tickets := by simp [h.supportTickets]

/-- Numbers that are not taken yet stay free for a while. -/
theorem mono (h : Numbered runId n db) (hle : n ≤ n') : Numbered runId n' db where
  permits row hrow := by
    obtain ⟨k, hk, hid, hkey⟩ := h.permits row hrow
    exact ⟨k, hk.trans hle, hid, hkey⟩
  records := h.records
  refunds := h.refunds
  tickets := h.tickets

/-! ## What keeps it -/

/-- Injected changes issue nothing. -/
theorem injected (h : Numbered runId n db) {due : List StateChange}
    (hinjected : Injected due db db') : Numbered runId n db' where
  permits := by
    rw [hinjected.executionPermits]
    exact h.permits
  records := by
    rw [hinjected.executionPermits, hinjected.executionRecords]
    exact h.records
  refunds row hrow := by
    rw [hinjected.refunds] at hrow
    obtain ⟨id, hid, hstored⟩ := h.refunds row hrow
    exact ⟨id, hid, hstored.aging hinjected.aging⟩
  tickets row hrow := by
    rw [hinjected.supportTickets] at hrow
    obtain ⟨id, hid, hstored⟩ := h.tickets row hrow
    exact ⟨id, hid, hstored.aging hinjected.aging⟩

/-- The next number is used up. -/
theorem issue (h : Numbered runId n db) {row : PermitRow}
    (hid : row.permitId = permitIdFor runId (n + 1))
    (hkey : row.idempotencyKey = idempotencyKeyFor runId (n + 1) row.action row.resourceId)
    (hins : db.insertPermit row = .ok db') : Numbered runId (n + 1) db' := by
  have haging := (Later.insertPermit hins).aging
  obtain ⟨permits, hpermits, rfl⟩ := Database.insertPermit_eq_ok.mp hins
  obtain ⟨-, hrows⟩ := Table.insert?_eq_some.mp hpermits
  constructor
  · show ∀ q ∈ permits.rows, _
    intro q hq
    rw [hrows, List.mem_append, List.mem_singleton] at hq
    rcases hq with hq | rfl
    · exact (h.mono (Nat.le_succ n)).permits q hq
    · exact ⟨n + 1, le_rfl, hid, hkey⟩
  · intro record hrecord
    obtain ⟨permit, hpermit, heq⟩ := h.records record hrecord
    refine ⟨permit, ?_, heq⟩
    show permit ∈ permits.rows
    rw [hrows]
    exact List.mem_append_left _ hpermit
  · intro refund hrefund
    obtain ⟨id, hid, hstored⟩ := h.refunds refund hrefund
    exact ⟨id, hid, hstored.aging haging⟩
  · intro ticket hticket
    obtain ⟨id, hid, hstored⟩ := h.tickets ticket hticket
    exact ⟨id, hid, hstored.aging haging⟩

/-- A commit under a permit of the table. -/
theorem commits (h : Numbered runId n db) {x : Execution} {before : Database}
    (hload : before.loadPermit (some x.permit.permitId) = some x.permit)
    (hbefore : db.executionPermits = before.executionPermits) (hx : x.Commits db db') :
    Numbered runId n db' := by
  have haging := (Later.commits hx).aging
  have hpermit : db.loadPermit (some x.permit.permitId) = some x.permit := by
    rw [← hload, Database.loadPermit, Database.loadPermit, hbefore]
  have hstored : db'.Stored x.permit.permitId := Database.stored_of_commits hpermit haging hx
  -- a commit marks its permit and changes no other
  have hrows : ∀ q, q ∈ db'.executionPermits.rows ↔ ∃ row ∈ db.executionPermits.rows,
      (if row.permitId = x.permit.permitId then row.spend else row) = q := by
    intro q
    rw [hx.executionPermits, Database.markUsed, Table.mem_update]
    simp only [decide_eq_true_eq]
  constructor
  · intro q hq
    obtain ⟨row, hrow, rfl⟩ := (hrows q).mp hq
    obtain ⟨k, hk, hid, hkey⟩ := h.permits row hrow
    refine ⟨k, hk, ?_⟩
    split_ifs
    · exact ⟨hid, hkey⟩
    · exact ⟨hid, hkey⟩
  · intro record hrecord
    have kept : ∀ row ∈ db.executionPermits.rows, ∃ permit ∈ db'.executionPermits.rows,
        permit.idempotencyKey = row.idempotencyKey := by
      intro row hrow
      refine ⟨_, (hrows _).mpr ⟨row, hrow, rfl⟩, ?_⟩
      split_ifs <;> rfl
    rw [hx.executionRecords_rows, List.mem_append, List.mem_singleton] at hrecord
    rcases hrecord with hrecord | rfl
    · obtain ⟨permit, hpermit, heq⟩ := h.records record hrecord
      obtain ⟨permit', hpermit', heq'⟩ := kept permit hpermit
      exact ⟨permit', hpermit', heq'.trans heq⟩
    · obtain ⟨-, -, row, hfind, hrow⟩ := Database.loadPermit_eq_some hload
      rw [← hbefore] at hfind
      obtain ⟨permit, hpermit, heq⟩ := kept row (Table.find?_eq_some.mp hfind).1
      refine ⟨permit, hpermit, heq.trans ?_⟩
      show row.idempotencyKey = x.permit.idempotencyKey
      rw [← hrow, PermitRow.permit_idempotencyKey]
  · intro refund hrefund
    rw [hx.refunds, List.mem_append] at hrefund
    rcases hrefund with hrefund | hrefund
    · obtain ⟨id, hid, hstored'⟩ := h.refunds refund hrefund
      exact ⟨id, hid, hstored'.aging haging⟩
    · split_ifs at hrefund with ha
      · rw [List.mem_singleton] at hrefund
        subst hrefund
        exact ⟨_, rfl, hstored⟩
      · simp at hrefund
  · intro ticket hticket
    rw [hx.supportTickets, List.mem_append] at hticket
    rcases hticket with hticket | hticket
    · obtain ⟨id, hid, hstored'⟩ := h.tickets ticket hticket
      exact ⟨id, hid, hstored'.aging haging⟩
    · split_ifs at hticket with ha
      · rw [List.mem_singleton] at hticket
        subst hticket
        exact ⟨_, rfl, hstored⟩
      · simp at hticket

/-! ## What follows from it -/

/-- The next number names no permit. -/
theorem issuable (h : Numbered runId n db) {row : PermitRow}
    (hid : row.permitId = permitIdFor runId (n + 1)) : ∃ db', db.insertPermit row = .ok db' := by
  have hfree : db.executionPermits.find? row.permitId = none := by
    rw [Table.find?_eq_none]
    intro q hq heq
    obtain ⟨k, hk, hqid, -⟩ := h.permits q hq
    have := permitIdFor_injective runId (hqid.symm.trans (heq.trans hid))
    omega
  obtain ⟨permits, hpermits⟩ := Option.isSome_iff_exists.mp (Table.insert?_isSome.mpr hfree)
  exact ⟨_, Database.insertPermit_eq_ok.mpr ⟨permits, hpermits, rfl⟩⟩

/-- Nothing is stored under the key of the next number. -/
theorem unstored (h : Numbered runId n db) (action : ActionName) (resourceId : String) :
    db.storedResult (idempotencyKeyFor runId (n + 1) action resourceId) = none := by
  rw [Database.storedResult, Option.map_eq_none_iff, Table.find?_eq_none]
  intro record hrecord heq
  obtain ⟨permit, hpermit, hkey⟩ := h.records record hrecord
  obtain ⟨k, hk, -, hpermitKey⟩ := h.permits permit hpermit
  have := idempotencyKeyFor_sequence (hpermitKey.symm.trans (hkey.trans heq))
  omega

/-- Nothing is named after a permit without a record. -/
theorem unnamed (h : Numbered runId n db) {permitId : String} {permit : ExecutionPermit}
    (hload : db.loadPermit (some permitId) = some permit)
    (hfresh : db.storedResult permit.idempotencyKey = none) :
    db.refunds.find? ("ref_" ++ permit.permitId) = none ∧
      db.supportTickets.find? ("tkt_" ++ permit.permitId) = none := by
  have hunstored : ¬ db.Stored permit.permitId := by
    rintro ⟨row, hrow, hrecord⟩
    obtain ⟨-, -, row', hrow', rfl⟩ := Database.loadPermit_eq_some hload
    cases hrow.symm.trans hrow'
    rw [Database.storedResult, Option.map_eq_none_iff, PermitRow.permit_idempotencyKey] at hfresh
    simp [hfresh] at hrecord
  constructor
  · rw [Table.find?_eq_none]
    intro row hrow heq
    obtain ⟨id, hid, hstored⟩ := h.refunds row hrow
    have : id = permit.permitId := by simpa using hid.symm.trans heq
    exact hunstored (this ▸ hstored)
  · rw [Table.find?_eq_none]
    intro row hrow heq
    obtain ⟨id, hid, hstored⟩ := h.tickets row hrow
    have : id = permit.permitId := by simpa using hid.symm.trans heq
    exact hunstored (this ▸ hstored)

end Numbered

/-! ## Runs -/

/-- A run that is wired, and has numbered every permit of the database. -/
structure Running (r : Runner) (spec : FailureSpec) (v : World) : Prop extends Wired spec v where
  numbered : Numbered r.runId v.own.session.sequence v.shared

section Stages

variable {r : Runner} {spec : FailureSpec} {v v' w : World}

/-- A run on a seed is under way. -/
theorem Running.start {db : Database} (hseeded : db.Seeded) (proposals : List RawProposal) :
    Running r spec ⟨db, r.start proposals spec⟩ :=
  ⟨Wired.start r spec db proposals, Numbered.seeded hseeded⟩

/-- A stretch that writes nothing. -/
theorem Running.quiet (h : Running r spec v) (hcarries : Carries v v')
    (hshared : v'.shared = v.shared) : Running r spec v' :=
  ⟨h.toWired.carries hcarries, hshared ▸ h.numbered.mono hcarries.sequence_le⟩

/-- A permit takes the next number. -/
theorem Equipped.numbered {request : PermitRequest} {permit : ExecutionPermit}
    (h : Equipped r request permit v w) (hkey : request.idempotencyKey = none)
    (hn : Numbered r.runId v.own.session.sequence v.shared) :
    Numbered r.runId w.own.session.sequence w.shared := by
  rw [h.sequence]
  refine hn.issue ?_ ?_ h.inserted
  · rw [h.issued]
    rfl
  · rw [h.issued]
    simp [ExecutionPermit.row, PermitIssuer.permitAt, hkey, textOr, Runner.issuer]

/-- Nothing is stored under the key of a permit that was just issued. -/
theorem Equipped.fresh {request : PermitRequest} {permit : ExecutionPermit}
    (h : Equipped r request permit v w) (hkey : request.idempotencyKey = none)
    (hn : Numbered r.runId v.own.session.sequence v.shared) :
    w.shared.storedResult permit.idempotencyKey = none := by
  have hunstored := hn.unstored request.action request.resourceId
  obtain ⟨permits, -, heq⟩ := Database.insertPermit_eq_ok.mp h.inserted
  rw [heq, h.issued]
  simpa [PermitIssuer.permitAt, hkey, textOr, Runner.issuer, Database.storedResult]
    using hunstored

/-- An execution takes none. -/
theorem Executed.numbered {e : Executor} {permitId : Option String} {proposal : ActionProposal}
    {texts : TicketTexts} {res : Except PyError ExecutionResult} {n : Nat} {runId : String}
    (h : Executed e permitId proposal texts v v' res) (hn : Numbered runId n v.shared) :
    Numbered runId n v'.shared := by
  obtain hinjected | ⟨permit, target, now, mid, hload, -, hinjected, hcommits⟩ := h.effects
  · exact hn.injected hinjected
  · refine (hn.injected hinjected).commits ?_ hinjected.executionPermits hcommits
    obtain ⟨rfl, -⟩ := Database.loadPermit_eq_some hload
    exact hload

/-- A run is still under way behind an execution. -/
theorem Running.executed {permitId : Option String} {proposal : ActionProposal}
    {texts : TicketTexts} {res : Except PyError ExecutionResult} (h : Running r spec v)
    (hsteady : Steady v v') (hx : Executed r.executor permitId proposal texts v v' res) :
    Running r spec v' :=
  ⟨h.toWired.carries hsteady.carries, hsteady.sequence ▸ hx.numbered h.numbered⟩

/-- So it is behind the issue of a permit. -/
theorem Running.equipped {request : PermitRequest} {permit : ExecutionPermit}
    (h : Running r spec v) (he : Equipped r request permit v w)
    (hkey : request.idempotencyKey = none) : Running r spec w :=
  ⟨h.toWired.carries he.carries, he.numbered hkey h.numbered⟩

/-- So it is behind two executions. -/
theorem Running.retried {permitId : String} {proposal : ActionProposal}
    {res : Except PyError ExecutionResult} (h : Running r spec v) (hsteady : Steady v v')
    (hr : Retried r permitId proposal v v' res) : Running r spec v' := by
  refine ⟨h.toWired.carries hsteady.carries, ?_⟩
  rw [hsteady.sequence]
  cases hr with
  | once res executed => exact executed.numbered h.numbered
  | twice tool key t u res first steady idle second =>
      refine second.numbered ?_
      rw [idle.shared]
      exact first.numbered h.numbered

/-- A hand-over takes one number at most. -/
theorem Escalated.numbered {orderId detail : String} {reason : ReasonCode}
    {res : Except PyError (Option ExecutionResult)}
    (h : Escalated r orderId reason detail v v' res)
    (hle : v.own.session.sequence ≤ v'.own.session.sequence)
    (hn : Numbered r.runId v.own.session.sequence v.shared) :
    Numbered r.runId v'.own.session.sequence v'.shared := by
  cases h with
  | unknown missing shared => exact shared ▸ hn.mono hle
  | unread err cause shared => exact shared ▸ hn.mono hle
  | unproposed err order found cause shared => exact shared ▸ hn.mono hle
  | unissued err order found cause shared => exact shared ▸ hn.mono hle
  | executed order proposal permit w res found proposed equipped steady executed =>
      rw [steady.sequence]
      exact executed.numbered (equipped.numbered rfl hn)

/-- A run is still under way behind a hand-over. -/
theorem Running.escalated {orderId detail : String} {reason : ReasonCode}
    {res : Except PyError (Option ExecutionResult)} (h : Running r spec v)
    (hcarries : Carries v v') (he : Escalated r orderId reason detail v v' res) :
    Running r spec v' :=
  ⟨h.toWired.carries hcarries, he.numbered hcarries.sequence_le h.numbered⟩

/-- So it is behind an attempt. -/
theorem Running.tried {n : Nat} {orderId : String} {call : Call}
    {res : Except PyError (Attempt × String)} (h : Running r spec v)
    (htried : Tried r n orderId v v' call res) : Running r spec v' := by
  have hcarries := htried.carries
  cases htried.attempted with
  | rejected reason invalid unjudged idle => exact h.quiet hcarries idle.shared
  | unread proposal err valid unjudged shared => exact h.quiet hcarries shared
  | unjudged proposal s err valid unjudged shared => exact h.quiet hcarries shared
  | judged proposal s d w res valid reads evaluated judged idle last proceeded =>
      have hw := h.quiet idle.carries idle.shared
      cases proceeded with
      | denied decision idle' => exact hw.quiet idle'.carries idle'.shared
      | escalated decision u res idle' last' escalated =>
          refine ⟨h.toWired.carries hcarries, ?_⟩
          refine escalated.numbered ?_ (hw.quiet idle'.carries idle'.shared).numbered
          rw [idle'.sequence, idle.sequence]
          exact hcarries.sequence_le
      | unissued decision err u idle' cause shared =>
          exact h.quiet hcarries (shared.trans (idle'.shared.trans idle.shared))
      | executed decision u y t permit res idle' equipped presented steady retried shared
          session answer =>
          have ht := ((hw.quiet idle'.carries idle'.shared).equipped equipped rfl).retried steady
            retried
          refine ⟨h.toWired.carries hcarries, ?_⟩
          rw [shared, session]
          exact ht.numbered

end Stages

end BoundedRefund
