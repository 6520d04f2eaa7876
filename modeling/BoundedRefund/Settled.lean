import BoundedRefund.Guard
import BoundedRefund.Rounds
import BoundedRefund.Untouched

/-!
# Settled permits

A permit is settled when it can never be cleared again: its record is stored, or the
row it pins has moved on.  Both stay so for ever, and presenting a settled permit writes
nothing.

The answers of the executor tell: a committed one means that the record is stored
(`Executed.stored`), one that names stale state means that the row has moved
(`Executed.settled_of_stale`).
-/

namespace BoundedRefund

open Concurrent Relational

/-! ## The row a permit pins -/

section Pinned

variable {db : Database} {permit : ExecutionPermit} {proposal : ActionProposal} {target : Target}

/-- The target the checks look at is the row a permit for it pins. -/
theorem pinnedVersion_of_resolved (h : db.resolveTarget proposal = .ok (some target)) :
    db.pinnedVersion target.resourceId proposal.action = some target.version := by
  obtain ⟨ha, p, hfetch, rfl⟩ | ⟨ha, o, hfetch, rfl⟩ := Database.resolveTarget_eq_some.mp h
  · simp only [Database.pinnedVersion, ha]
    exact Option.map_eq_some_iff.mpr
      ⟨p.row, (Database.fetchPaymentForOrder_eq_some hfetch).1, rfl⟩
  · have hfind := Database.fetchOrder_eq_some.mp hfetch
    rw [← Database.fetchOrder_orderId hfetch] at hfind
    have hversion : (db.orders.find? o.orderId).map OrderRow.version = some o.version :=
      Option.map_eq_some_iff.mpr ⟨o.row, hfind, rfl⟩
    cases hact : proposal.action with
    | issueRefund => exact absurd hact ha
    | cancelOrder => exact hversion
    | createSupportTicket => exact hversion

/-- Cancellations and tickets are resolved to the order of the proposal. -/
theorem resolved_resource (h : db.resolveTarget proposal = .ok (some target))
    (ha : proposal.action ≠ .issueRefund) : target.resourceId = proposal.orderId := by
  obtain ⟨hact, -⟩ | ⟨-, o, hfetch, rfl⟩ := Database.resolveTarget_eq_some.mp h
  · exact absurd hact ha
  · exact Database.fetchOrder_orderId hfetch

/-- A transaction that raises raises in its write, or in the insertion of the record. -/
theorem commitAll_eq_error {e : Executor} {auth : WriteAuthorization} {texts : TicketTexts}
    {now : Instant} {err : PyError}
    (h : e.commitAll auth permit proposal texts now db = .error err) :
    Executor.write auth permit proposal texts now db = .error err ∨
      ∃ outcome mid, Executor.write auth permit proposal texts now db = .ok (outcome, mid) ∧
        mid.insertRecord (e.recordFor permit outcome now) = .error err := by
  cases hw : Executor.write auth permit proposal texts now db with
  | error err' =>
      simp only [Executor.commitAll, hw, bind, Except.bind, Except.error.injEq] at h
      exact Or.inl (congrArg Except.error h)
  | ok written =>
      obtain ⟨outcome, mid⟩ := written
      simp only [Executor.commitAll, hw, bind, Except.bind] at h
      split at h
      · rename_i hrec
        cases h
        exact Or.inr ⟨outcome, mid, rfl, hrec⟩
      · cases h

/-- **What a transaction raises**: the permit does not cover the write, an insertion violates
a key, or the row an update is guarded by is not there. -/
theorem commitAll_raises {e : Executor} {auth : WriteAuthorization} {texts : TicketTexts}
    {now : Instant} {err : PyError}
    (h : e.commitAll auth permit proposal texts now db = .error err) :
    (∃ message, err = .permitRequired message) ∨ (∃ message, err = .integrityError message) ∨
      (proposal.action = .cancelOrder ∧
        err = .staleResource proposal.orderId permit.expectedResourceVersion ∧
        db.orders.rowcount
          (Database.orderGuard proposal.orderId permit.expectedResourceVersion) ≠ 1) ∨
      (proposal.action = .issueRefund ∧
        err = .staleResource permit.resourceId permit.expectedResourceVersion ∧
        db.payments.rowcount
          (Database.paymentGuard permit.resourceId permit.expectedResourceVersion) ≠ 1) := by
  obtain hwrite | ⟨outcome, mid, -, hrecord⟩ := commitAll_eq_error h
  · cases hact : proposal.action with
    | cancelOrder =>
        simp only [Executor.write, hact] at hwrite
        obtain hpermit | hstale := cancelOrder_eq_error hwrite
        · exact .inl hpermit
        · exact .inr (.inr (.inl ⟨rfl, hstale⟩))
    | issueRefund =>
        simp only [Executor.write, hact] at hwrite
        obtain hpermit | hkey | hstale := issueRefund_eq_error hwrite
        · exact .inl hpermit
        · exact .inr (.inl hkey)
        · exact .inr (.inr (.inr ⟨rfl, hstale⟩))
    | createSupportTicket =>
        simp only [Executor.write, hact] at hwrite
        obtain hpermit | hkey := createSupportTicket_eq_error hwrite
        · exact .inl hpermit
        · exact .inr (.inl hkey)
  · exact .inr (.inl (Database.insertRecord_raises hrecord))

/-- A ticket is never refused as stale. -/
theorem action_of_stale {e : Executor} {texts : TicketTexts} {now : Instant}
    {resourceId : String} {version : Int}
    (h : e.commitAll (e.authorization permit) permit proposal texts now db =
      .error (.staleResource resourceId version)) :
    proposal.action ≠ .createSupportTicket := by
  obtain ⟨_, hpermit⟩ | ⟨_, hkey⟩ | ⟨hact, -⟩ | ⟨hact, -⟩ := commitAll_raises h
  · cases hpermit
  · cases hkey
  · simp [hact]
  · simp [hact]

/-- A commit refused as stale did not find its row at the pinned version. -/
theorem pinnedVersion_of_stale {e : Executor} {texts : TicketTexts} {now : Instant}
    {resourceId : String} {version : Int}
    (htarget : proposal.action ≠ .issueRefund → permit.resourceId = proposal.orderId)
    (h : e.commitAll (e.authorization permit) permit proposal texts now db =
      .error (.staleResource resourceId version)) :
    db.pinnedVersion permit.resourceId proposal.action ≠ some permit.expectedResourceVersion := by
  intro hversion
  obtain ⟨_, hpermit⟩ | ⟨_, hkey⟩ | ⟨hact, -, hcount⟩ | ⟨hact, -, hcount⟩ := commitAll_raises h
  · cases hpermit
  · cases hkey
  · simp only [Database.pinnedVersion, hact] at hversion
    obtain ⟨row, hrow, hver⟩ := Option.map_eq_some_iff.mp hversion
    rw [htarget (by simp [hact])] at hrow
    exact hcount (rowcount_orderGuard.mpr ⟨row, hrow, hver⟩)
  · simp only [Database.pinnedVersion, hact] at hversion
    obtain ⟨row, hrow, hver⟩ := Option.map_eq_some_iff.mp hversion
    exact hcount (rowcount_paymentGuard.mpr ⟨row, hrow, hver⟩)

/-- The checks name stale state only where the row is not at the pinned version and
nothing is stored under the key. -/
theorem assess_stale {now : Instant} {result : ExecutionResult}
    (h : db.assess now (some permit) proposal = .ok (some result))
    (hstale : result.reasonCode = some .staleResourceVersion) :
    permit.action = proposal.action ∧ db.storedResult permit.idempotencyKey = none ∧
      ∃ version, db.pinnedVersion permit.resourceId proposal.action = some version ∧
        version ≠ permit.expectedResourceVersion := by
  rcases assess_refusal h with ⟨reason, rfl, hrefusal⟩ | hstored
  · cases hstale
    cases hrefusal with
    | stale target addressed fresh moved =>
        exact ⟨addressed.action, fresh, target.version,
          addressed.resource ▸ pinnedVersion_of_resolved addressed.resolved, moved⟩
  · obtain ⟨row, -, rfl⟩ := storedResult_eq_some hstored
    simp [ExecutionResult.asReplay] at hstale

/-- A cleared permit pins its row where it is. -/
theorem Clear.pinned {now : Instant} (h : Clear db now permit proposal target) :
    db.pinnedVersion permit.resourceId permit.action = some permit.expectedResourceVersion := by
  rw [h.action, ← h.resource, pinnedVersion_of_resolved h.resolved, h.version]

/-- The row a decision was made on is where the decision saw it, as long as nothing
happens. -/
theorem Reads.pinned {s : PolicySnapshot} {d : PolicyResult} (h : Reads db proposal s)
    (heval : evaluate (some proposal) s = .ok d) (hallow : d.decision = .allow) :
    db.pinnedVersion d.resourceId proposal.action = some d.expectedResourceVersion := by
  have order : ∀ {o : Order}, s.order = some o → d.resourceId = o.orderId →
      (db.orders.find? d.resourceId).map OrderRow.version = some o.version := by
    intro o ho hid
    have hfetch := h.order o ho
    have hfind := Database.fetchOrder_eq_some.mp hfetch
    rw [← Database.fetchOrder_orderId hfetch, ← hid] at hfind
    exact Option.map_eq_some_iff.mpr ⟨o.row, hfind, rfl⟩
  obtain ⟨haction, o, shipment, hcancel⟩ | ⟨haction, o, payment, policy, amount, hrefund⟩ |
    ⟨haction, o, hticket⟩ := evaluate_allow_cases heval hallow
  · have := order hcancel.order_read (by rw [hcancel.decided])
    simpa only [Database.pinnedVersion, haction, hcancel.decided] using this
  · have hfind := (Database.fetchPaymentForOrder_eq_some
      (h.payment payment hrefund.payment_read)).1
    simp only [Database.pinnedVersion, haction, hrefund.decided]
    exact Option.map_eq_some_iff.mpr ⟨payment.row, hfind, rfl⟩
  · have := order hticket.order_read (by rw [hticket.decided])
    simpa only [Database.pinnedVersion, haction, hticket.decided] using this

end Pinned

/-! ## Settled permits -/

/-- The record of the permit is stored. -/
def Database.Stored (db : Database) (permitId : String) : Prop :=
  ∃ row, db.executionPermits.find? permitId = some row ∧
    (db.executionRecords.find? row.idempotencyKey).isSome

/-- The record of the permit is stored, or its row has moved. -/
def Database.Settled (db : Database) (permitId : String) : Prop :=
  db.Stored permitId ∨ ∃ row, db.executionPermits.find? permitId = some row ∧
    db.MovedPast row.permit row.action

section Settled

variable {db db' : Database} {permitId : String}

/-- A stored result stays. -/
theorem Database.Stored.aging (h : db.Stored permitId) (haging : Aging db db') :
    db'.Stored permitId := by
  obtain ⟨row, hrow, hrecord⟩ := h
  obtain ⟨row', hrow', hkept⟩ := haging.permits _ _ hrow
  obtain ⟨record, hrecord⟩ := Option.isSome_iff_exists.mp hrecord
  obtain ⟨record', hrecord', -⟩ := haging.records _ _ hrecord
  exact ⟨row', hrow', by rw [hkept.idempotencyKey, hrecord']; rfl⟩

/-- What has moved past a permit has moved past it when it was used. -/
theorem Database.MovedPast.kept {row row' : PermitRow} (hkept : row.Kept row')
    (h : db.MovedPast row.permit row.action) : db.MovedPast row'.permit row'.action := by
  rcases hkept with rfl | rfl
  · exact h
  · exact h

/-- What is settled stays so. -/
theorem Database.Settled.aging (h : db.Settled permitId) (haging : Aging db db') :
    db'.Settled permitId := by
  rcases h with h | ⟨row, hrow, hmoved⟩
  · exact Or.inl (h.aging haging)
  · obtain ⟨row', hrow', hkept⟩ := haging.permits _ _ hrow
    exact Or.inr ⟨row', hrow', (hmoved.aging haging).kept hkept⟩

/-- A settled permit is never cleared. -/
theorem Database.Settled.not_clear (h : db.Settled permitId) {permit : ExecutionPermit}
    (hload : db.loadPermit (some permitId) = some permit) {now : Instant}
    {proposal : ActionProposal} {target : Target} : ¬ Clear db now permit proposal target := by
  intro hclear
  obtain ⟨hid, -, row, hfind, rfl⟩ := Database.loadPermit_eq_some hload
  cases hid
  rcases h with ⟨row', hrow', hrecord⟩ | ⟨row', hrow', version, hversion, hlt⟩
  · cases hfind.symm.trans hrow'
    have hfresh := hclear.fresh
    rw [Database.storedResult, Option.map_eq_none_iff, PermitRow.permit_idempotencyKey] at hfresh
    simp [hfresh] at hrecord
  · cases hfind.symm.trans hrow'
    have hpinned := hclear.pinned
    rw [PermitRow.permit_action, hversion] at hpinned
    cases hpinned
    exact absurd hlt (lt_irrefl _)

/-- Where the record is stored, no answer of the checks names stale state. -/
theorem Database.Stored.not_stale (h : db.Stored permitId) {now : Instant}
    {proposal : ActionProposal} {result : ExecutionResult}
    (hanswer : db.assess now (db.loadPermit (some permitId)) proposal = .ok (some result)) :
    result.reasonCode ≠ some .staleResourceVersion := by
  intro hstale
  cases hload : db.loadPermit (some permitId) with
  | none =>
      rw [hload] at hanswer
      cases hanswer
      simp [rejected] at hstale
  | some permit =>
      rw [hload] at hanswer
      obtain ⟨-, hnone, -⟩ := assess_stale hanswer hstale
      obtain ⟨hid, -, row, hfind, rfl⟩ := Database.loadPermit_eq_some hload
      cases hid
      obtain ⟨row', hrow', hrecord⟩ := h
      cases hfind.symm.trans hrow'
      rw [Database.storedResult, Option.map_eq_none_iff, PermitRow.permit_idempotencyKey]
        at hnone
      simp [hnone] at hrecord

/-- Behind its commit the result of a permit is stored. -/
theorem Database.stored_of_commits {mid : Database} {x : Execution}
    (hload : db.loadPermit (some permitId) = some x.permit) (haging : Aging db db')
    (hx : x.Commits mid db') : db'.Stored permitId := by
  obtain ⟨hid, -, row, hfind, hrow⟩ := Database.loadPermit_eq_some hload
  cases hid
  obtain ⟨row', hrow', hkept⟩ := haging.permits _ _ hfind
  refine ⟨row', hrow', ?_⟩
  have hkey : row'.idempotencyKey = x.permit.idempotencyKey := by
    rw [hkept.idempotencyKey, ← hrow]
    rfl
  rw [hkey, hx.find?_executionRecords]
  rfl

end Settled

/-! ## What the executor's answers tell -/

section Answers

variable {e : Executor} {permitId : String} {proposal : ActionProposal}
variable {texts : TicketTexts} {v v' : World} {res : Except PyError ExecutionResult}

/-- An execution ages the database. -/
theorem Executed.aging {permitId : Option String}
    (h : Executed e permitId proposal texts v v' res) : Aging v.shared v'.shared := by
  obtain hinjected | ⟨_, _, _, mid, -, -, hinjected, hcommits⟩ := h.effects
  · exact hinjected.aging
  · exact hinjected.aging.trans (Later.commits hcommits).aging

/-- Presenting a settled permit writes nothing. -/
theorem Executed.of_settled (h : Executed e (some permitId) proposal texts v v' res)
    (hsettled : v.shared.Settled permitId) : v'.shared = v.shared := by
  cases h with
  | answered result shared => exact shared
  | failed err shared => exact shared
  | overtaken permit target now resourceId version loaded clear =>
      exact absurd clear (hsettled.not_clear loaded)
  | spoiled err permit target now r loaded clear =>
      exact absurd clear (hsettled.not_clear loaded)
  | committed permit target now mid r loaded clear =>
      exact absurd clear (hsettled.not_clear loaded)

/-- A committed answer: the record is stored. -/
theorem Executed.stored {result : ExecutionResult}
    (h : Executed e (some permitId) proposal texts v v' (.ok result))
    (hcommitted : result.committed = true) : v'.shared.Stored permitId := by
  have haging := h.aging
  cases h with
  | answered result shared assessed =>
      rw [shared]
      cases hload : v.shared.loadPermit (some permitId) with
      | none =>
          rw [hload] at assessed
          cases assessed
          simp [rejected] at hcommitted
      | some permit =>
          rw [hload] at assessed
          rcases assess_eq_some assessed with ⟨reason, resourceId, rfl⟩ | ⟨p, hp, hs⟩
          · simp [rejected] at hcommitted
          · cases hp
            obtain ⟨record, hrecord, -⟩ := storedResult_eq_some hs
            obtain ⟨hid, -, row, hfind, rfl⟩ := Database.loadPermit_eq_some hload
            cases hid
            rw [PermitRow.permit_idempotencyKey] at hrecord
            exact ⟨row, hfind, by simp [hrecord]⟩
  | overtaken permit => simp [rejected] at hcommitted
  | committed permit target now mid r loaded clear injected commits responded =>
      exact Database.stored_of_commits (x := e.execution permit proposal texts now) loaded haging
        commits

/-- The row of the permit is where the permit pins it, or further. -/
def Database.Reached (db : Database) (permitId : String) : Prop :=
  ∃ row, db.executionPermits.find? permitId = some row ∧
    ∃ version, db.pinnedVersion row.resourceId row.action = some version ∧
      row.expectedResourceVersion ≤ version

/-- What was reached stays so. -/
theorem Database.Reached.aging {db db' : Database} (h : db.Reached permitId)
    (haging : Aging db db') : db'.Reached permitId := by
  obtain ⟨row, hrow, version, hversion, hle⟩ := h
  obtain ⟨row', hrow', hkept⟩ := haging.permits _ _ hrow
  obtain ⟨version', hversion', hle'⟩ := haging.pinnedVersion hversion
  refine ⟨row', hrow', version', ?_, ?_⟩ <;> rcases hkept with rfl | rfl
  · exact hversion'
  · exact hversion'
  · exact hle.trans hle'
  · exact hle.trans hle'

/-- An answer that names stale state: the row has moved. -/
theorem Executed.settled_of_stale {result : ExecutionResult}
    (h : Executed e (some permitId) proposal texts v v' (.ok result))
    (hreached : v.shared.Reached permitId)
    (hstale : result.reasonCode = some .staleResourceVersion) :
    v'.shared.Settled permitId := by
  -- a row that is not at the pinned version is past it
  have past : ∀ {db : Database} {row : PermitRow}, db.Reached permitId →
      db.executionPermits.find? permitId = some row →
      db.pinnedVersion row.resourceId row.action ≠ some row.expectedResourceVersion →
      db.Settled permitId := by
    rintro db row ⟨row', hrow', version, hversion, hle⟩ hrow hne
    cases hrow.symm.trans hrow'
    refine Or.inr ⟨row, hrow, version, hversion, lt_of_le_of_ne hle ?_⟩
    rintro rfl
    exact hne hversion
  have haging := h.aging
  cases h with
  | answered result shared assessed =>
      rw [shared]
      cases hload : v.shared.loadPermit (some permitId) with
      | none =>
          rw [hload] at assessed
          cases assessed
          simp [rejected] at hstale
      | some permit =>
          rw [hload] at assessed
          obtain ⟨haction, -, version, hversion, hne⟩ := assess_stale assessed hstale
          obtain ⟨hid, -, row, hfind, rfl⟩ := Database.loadPermit_eq_some hload
          cases hid
          rw [← haction, PermitRow.permit_action, PermitRow.permit_resourceId] at hversion
          refine past hreached hfind ?_
          rw [hversion]
          exact fun heq => hne (Option.some.inj heq)
  | overtaken permit target now resourceId version loaded clear injected stale =>
      have hne := pinnedVersion_of_stale
        (fun ha => clear.resource.symm.trans (resolved_resource clear.resolved ha)) stale
      rw [← clear.action] at hne
      obtain ⟨hid, -, row, hfind, rfl⟩ := Database.loadPermit_eq_some loaded
      cases hid
      have hpermits := (Injected.of_injectAll injected).executionPermits
      exact past (hreached.aging haging) (by rw [hpermits]; exact hfind) hne
  | committed permit target now mid r loaded clear injected commits responded =>
      cases responded with
      | delivered => simp [Execution.result, WriteOutcome.result] at hstale

/-- An answer that names stale state: nothing was committed. -/
theorem Executed.injected_of_stale {result : ExecutionResult} {permitId : Option String}
    (h : Executed e permitId proposal texts v v' (.ok result))
    (hstale : result.reasonCode = some .staleResourceVersion) :
    Injected (v.own.session.due (str proposal.action)) v.shared v'.shared := by
  cases h with
  | answered result shared => exact shared ▸ Injected.refl _ _
  | overtaken permit target now resourceId version loaded clear injected =>
      exact Injected.of_injectAll injected
  | committed permit target now mid r loaded clear injected commits responded =>
      cases responded with
      | delivered => simp [Execution.result, WriteOutcome.result] at hstale

/-- Where the record is stored, no answer names stale state. -/
theorem Executed.not_stale {result : ExecutionResult} (hstored : v.shared.Stored permitId)
    (h : Executed e (some permitId) proposal texts v v' (.ok result)) :
    result.reasonCode ≠ some .staleResourceVersion := by
  cases h with
  | answered result shared assessed => exact hstored.not_stale assessed
  | overtaken permit target now resourceId version loaded clear =>
      exact absurd clear (Database.Settled.not_clear (Or.inl hstored) loaded)
  | committed permit target now mid r loaded clear =>
      exact absurd clear (Database.Settled.not_clear (Or.inl hstored) loaded)

end Answers

end BoundedRefund
