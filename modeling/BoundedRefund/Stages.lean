import BoundedRefund.Executions
import BoundedRefund.Rereads

/-!
# The stages of an undisturbed run

What a single run on a database of its own does, stage by stage: the snapshot, the
permit, the escalation, the execution with its retry, the attempt.  Each stage comes
with an inductive predicate that lists its endings, exceptions included, and a lemma
that every run of the stage ends in one of them.  The loops, which only repeat
attempts, are unfolded by whoever needs them.

A stage starts with the clock read so often and reads it a fixed number of times
before anything is decided; those numbers matter, since a permit expires by the clock.
-/

namespace BoundedRefund

open Concurrent Relational

/-! ## The snapshot -/

/-- What the snapshot of a proposal holds, the database holds. -/
structure Reads (db : Database) (proposal : ActionProposal) (s : PolicySnapshot) : Prop where
  order : ∀ o, s.order = some o → db.fetchOrder proposal.orderId = .ok (some o)
  payment : ∀ p, s.payment = some p →
    db.fetchPaymentForOrder proposal.orderId = .ok (some p)
  shipment : ∀ sh, s.shipment = some sh →
    db.fetchShipmentForOrder proposal.orderId = .ok (some sh)
  refundPolicy : ∀ p, s.refundPolicy = some p → db.refundPolicies.find? p.policyId = some p
  policyOf : ∀ p, s.refundPolicy = some p → ∃ o, s.order = some o ∧ p.policyId = o.policyId

/-- A record of the order cannot be read, because its status is no status. -/
def Unreadable (db : Database) (orderId : String) (err : PyError) : Prop :=
  db.fetchOrder orderId = .error err ∨ db.fetchPaymentForOrder orderId = .error err ∨
    db.fetchShipmentForOrder orderId = .error err

section Look

variable {α : Type} {needed fails : Bool} {tool : String}
variable {record : Except PyError (Option α)} {a : Option α × List String} {x : α}

/-- What a read returned was there. -/
theorem ReadTools.found_some (h : ReadTools.found fails tool record = .ok a)
    (ha : a.1 = some x) : record = .ok (some x) := by
  cases fails with
  | true =>
      cases h
      cases ha
  | false =>
      obtain ⟨b, hb, rfl⟩ := map_eq_ok.mp h
      rw [hb]
      exact congrArg Except.ok ha

/-- What is found is there. -/
theorem ReadTools.foundIf_some (h : ReadTools.foundIf needed fails tool record = .ok a)
    (ha : a.1 = some x) : record = .ok (some x) := by
  cases needed with
  | true => exact ReadTools.found_some h ha
  | false =>
      cases h
      cases ha

theorem ReadTools.found_error {err : PyError} (h : ReadTools.found fails tool record = .error err) :
    record = .error err := by
  cases fails with
  | true => cases h
  | false => exact map_eq_error.mp h

theorem ReadTools.foundIf_error {err : PyError}
    (h : ReadTools.foundIf needed fails tool record = .error err) : record = .error err := by
  cases needed with
  | true => exact ReadTools.found_error h
  | false => cases h

variable {db : Database} {gaveUp : String → Bool} {proposal : ActionProposal} {now : Instant}

/-- What a snapshot holds was read from the rows. -/
theorem Database.look_reads {s : PolicySnapshot} (h : db.look gaveUp proposal now = .ok s) :
    Reads db proposal s := by
  obtain ⟨order, payment, shipment, policy, horder, hpayment, hshipment, hpolicy, rfl⟩ :=
    Database.look_eq_ok.mp h
  have hread : ∀ p, policy.1 = some p → ∃ o, order.1 = some o ∧ p.policyId = o.policyId ∧
      db.refundPolicies.find? p.policyId = some p := by
    intro p hp
    obtain ⟨found, failures⟩ := order
    cases found with
    | none =>
        cases hpolicy
        cases hp
    | some o =>
        have hfind := Except.ok.inj (ReadTools.foundIf_some hpolicy hp)
        have hid := (Table.find?_eq_some.mp hfind).2
        exact ⟨o, rfl, hid, by rwa [hid]⟩
  refine ⟨fun o ho => ReadTools.found_some horder ho,
    fun p hp => ReadTools.foundIf_some hpayment hp,
    fun sh hsh => ReadTools.foundIf_some hshipment hsh, fun p hp => ?_, fun p hp => ?_⟩
  · obtain ⟨o, -, -, hfind⟩ := hread p hp
    exact hfind
  · obtain ⟨o, ho, hid, -⟩ := hread p hp
    exact ⟨o, ho, hid⟩

/-- A snapshot fails over a row that cannot be read. -/
theorem Database.look_unreadable {err : PyError}
    (h : db.look gaveUp proposal now = .error err) : Unreadable db proposal.orderId err := by
  rcases bind_eq_error.mp h with h | ⟨order, -, h⟩
  · exact .inl (ReadTools.found_error h)
  rcases bind_eq_error.mp h with h | ⟨payment, -, h⟩
  · exact .inr (.inl (ReadTools.foundIf_error h))
  rcases bind_eq_error.mp h with h | ⟨shipment, -, h⟩
  · exact .inr (.inr (ReadTools.foundIf_error h))
  rcases bind_eq_error.mp h with h | ⟨policy, -, h⟩
  · -- the table of refund policies has no status
    obtain ⟨found, failures⟩ := order
    cases found with
    | none => cases h
    | some o => cases ReadTools.foundIf_error h
  · cases h

end Look

/-- **The snapshot**: the clock is read once, and nothing else of consequence is done. -/
theorem run_snapshot {r : Runner} {proposal : ActionProposal} {v v' : World}
    {res : Except PyError PolicySnapshot} (h : (r.snapshot proposal).run v = (res, v')) :
    (∃ s, res = .ok s ∧ Ticks 1 v v' ∧ Reads v.shared proposal s) ∨
      ∃ err, res = .error err ∧ Ticks 0 v v' ∧ Unreadable v.shared proposal.orderId err := by
  have hlook := run_snapshot_eq r proposal v
  rw [h] at hlook
  rcases run_snapshot_ticks h with ⟨s, rfl, hticks⟩ | ⟨err, rfl, hticks⟩
  · exact .inl ⟨s, rfl, hticks, Database.look_reads hlook.symm⟩
  · exact .inr ⟨err, rfl, hticks, Database.look_unreadable hlook.symm⟩

/-! ## What the stages keep -/

/-- What a run carries along. -/
structure Carries (v v' : World) : Prop where
  audited : v'.own.session.audit.isSome = v.own.session.audit.isSome
  injector : v'.own.session.injector.map FailureInjector.spec =
    v.own.session.injector.map FailureInjector.spec
  readings_le : v.own.session.readings ≤ v'.own.session.readings
  sequence_le : v.own.session.sequence ≤ v'.own.session.sequence

/-- The clock is read `k` times, and the history, the planner and the texts of the run may
change; nothing else does. -/
structure Idle (k : Nat) (v v' : World) : Prop where
  shared : v'.shared = v.shared
  readings : v'.own.session.readings = v.own.session.readings + k
  sequence : v'.own.session.sequence = v.own.session.sequence
  audited : v'.own.session.audit.isSome = v.own.session.audit.isSome
  due : v'.own.session.injector.map FailureInjector.due =
    v.own.session.injector.map FailureInjector.due

namespace Carries

variable {v v' v'' : World}

theorem refl (v : World) : Carries v v := ⟨rfl, rfl, le_rfl, le_rfl⟩

theorem trans (h : Carries v v') (h' : Carries v' v'') : Carries v v'' :=
  ⟨h'.audited.trans h.audited, h'.injector.trans h.injector,
    h.readings_le.trans h'.readings_le, h.sequence_le.trans h'.sequence_le⟩

end Carries

/-- What is steady is carried on. -/
theorem Steady.carries {v v' : World} (h : Steady v v') : Carries v v' :=
  ⟨h.audited, h.injector, h.readings_le, h.sequence.ge⟩

namespace Idle

variable {k k' : Nat} {v v' v'' : World}

theorem trans (h : Idle k v v') (h' : Idle k' v' v'') : Idle (k + k') v v'' where
  shared := h'.shared.trans h.shared
  readings := by rw [h'.readings, h.readings, Nat.add_assoc]
  sequence := h'.sequence.trans h.sequence
  audited := h'.audited.trans h.audited
  due := h'.due.trans h.due

/-- The failures are those of the scenario. -/
theorem injector (h : Idle k v v') : v'.own.session.injector.map FailureInjector.spec =
    v.own.session.injector.map FailureInjector.spec := by
  have := congrArg (Option.map Prod.fst) h.due
  simpa [Option.map_map, Function.comp_def, FailureInjector.due] using this

theorem carries (h : Idle k v v') : Carries v v' :=
  ⟨h.audited, h.injector, h.readings ▸ Nat.le_add_right _ _, h.sequence.ge⟩

end Idle

/-- To let time pass is to be idle. -/
theorem Ticks.idle {k : Nat} {v v' : World} (h : Ticks k v v') : Idle k v v' :=
  ⟨h.shared, h.readings, h.sequence, h.audited, h.due⟩

/-- An emission of an audited run. -/
theorem Py.run_emit_bind_audited {α : Type} {clock : Clock} {fields : EventFields}
    {k : Unit → Py α} {v v' : World} {r : Except PyError α}
    (haudit : v.own.session.audit.isSome = true)
    (h : (Py.emit clock fields >>= k).run v = (r, v')) :
    ∃ t, Ticks 1 v t ∧ (k ()).run t = (r, v') := by
  obtain ⟨t, ht, hk⟩ := Py.run_emit_bind h
  exact ⟨t, Session.tick_of_audited haudit ▸ ht, hk⟩

/-! ## Permits -/

/-- A permit was just issued, and announced. -/
structure Equipped (r : Runner) (request : PermitRequest) (permit : ExecutionPermit)
    (v w : World) : Prop where
  issued : permit = r.issuer.permitAt request (v.own.session.sequence + 1)
    (r.clock v.own.session.readings)
  inserted : v.shared.insertPermit (permit.row (r.clock v.own.session.readings) r.runId) =
    .ok w.shared
  sequence : w.own.session.sequence = v.own.session.sequence + 1
  readings : w.own.session.readings = v.own.session.readings + 2
  audited : w.own.session.audit.isSome = v.own.session.audit.isSome
  due : w.own.session.injector.map FailureInjector.due =
    v.own.session.injector.map FailureInjector.due

namespace Equipped

variable {r : Runner} {request : PermitRequest} {permit : ExecutionPermit} {v w : World}

theorem carries (h : Equipped r request permit v w) : Carries v w := by
  have hspec := congrArg (Option.map Prod.fst) h.due
  refine ⟨h.audited, by simpa [Option.map_map, Function.comp_def, FailureInjector.due] using
    hspec, ?_, ?_⟩
  · rw [h.readings]
    omega
  · rw [h.sequence]
    omega

/-- The permit is in its table. -/
theorem find? (h : Equipped r request permit v w) :
    w.shared.executionPermits.find? permit.permitId =
      some (permit.row (r.clock v.own.session.readings) r.runId) := by
  obtain ⟨permits, hins, heq⟩ := Database.insertPermit_eq_ok.mp h.inserted
  rw [heq]
  exact (Table.find?_insert? hins _).trans (if_pos rfl)

/-- Looking the permit up finds what was issued. -/
theorem loadPermit (h : Equipped r request permit v w) :
    w.shared.loadPermit (some permit.permitId) = some permit := by
  have hpermit := h.issued
  have hne : permit.permitId ≠ "" := by
    rw [hpermit]
    exact permitIdFor_ne_empty _ _
  rw [Database.loadPermit_of_find? hne h.find?, hpermit]
  rfl

end Equipped

/-- What was issued in `t` is announced in `w`. -/
theorem Equipped.of_issued {r : Runner} {request : PermitRequest} {v t w : World}
    (hown : t.own = { v.own with session := { v.own.session with
      sequence := v.own.session.sequence + 1, readings := v.own.session.readings + 1 } })
    (hinserted : v.shared.insertPermit ((r.issuer.permitAt request (v.own.session.sequence + 1)
      (r.clock v.own.session.readings)).row (r.clock v.own.session.readings) r.runId) =
        .ok t.shared) (hidle : Idle 1 t w) :
    Equipped r request (r.issuer.permitAt request (v.own.session.sequence + 1)
      (r.clock v.own.session.readings)) v w where
  issued := rfl
  inserted := hidle.shared ▸ hinserted
  sequence := by rw [hidle.sequence, hown]
  readings := by rw [hidle.readings, hown]
  audited := by rw [hidle.audited, hown]
  due := by rw [hidle.due, hown]

/-- The permit, or the primary key it violates. -/
theorem run_issuePermit {issuer : PermitIssuer} {request : PermitRequest} {v v' : World}
    {res : Except PyError ExecutionPermit}
    (h : (issuer.issuePermit request).run v = (res, v')) :
    v'.own = { v.own with session := { v.own.session with
      sequence := v.own.session.sequence + 1, readings := v.own.session.readings + 1 } } ∧
    ((∃ err, res = .error err ∧ v'.shared = v.shared ∧
        v.shared.insertPermit ((issuer.permitAt request (v.own.session.sequence + 1)
          (issuer.clock v.own.session.readings)).row (issuer.clock v.own.session.readings)
          issuer.runId) = .error err) ∨
      (res = .ok (issuer.permitAt request (v.own.session.sequence + 1)
          (issuer.clock v.own.session.readings)) ∧
        v.shared.insertPermit ((issuer.permitAt request (v.own.session.sequence + 1)
          (issuer.clock v.own.session.readings)).row (issuer.clock v.own.session.readings)
          issuer.runId) = .ok v'.shared)) := by
  have h := Py.run_update_bind h
  simp only [Py.now] at h
  have h := Py.run_update_bind h
  rw [Py.run_transaction] at h
  cases hins : v.shared.insertPermit ((issuer.permitAt request (v.own.session.sequence + 1)
      (issuer.clock v.own.session.readings)).row (issuer.clock v.own.session.readings)
      issuer.runId) with
  | error err =>
      simp only [hins, Except.map, Prod.mk.injEq] at h
      obtain ⟨rfl, rfl⟩ := h
      exact ⟨rfl, Or.inl ⟨err, rfl, rfl, rfl⟩⟩
  | ok db =>
      simp only [hins, Except.map, Prod.mk.injEq] at h
      obtain ⟨rfl, rfl⟩ := h
      exact ⟨rfl, Or.inr ⟨rfl, rfl⟩⟩

/-- An issue that raises moves the two counters only. -/
theorem Carries.issued {v v' : World} (h : v'.own = { v.own with session := { v.own.session with
    sequence := v.own.session.sequence + 1, readings := v.own.session.readings + 1 } }) :
    Carries v v' where
  audited := by rw [h]
  injector := by rw [h]
  readings_le := by
    rw [h]
    exact Nat.le_succ _
  sequence_le := by
    rw [h]
    exact Nat.le_succ _

/-! ## Escalations -/

/-- What an escalation asks a permit for. -/
def ticketRequest (order : Order) : PermitRequest where
  action := .createSupportTicket
  resourceId := order.orderId
  expectedResourceVersion := order.version
  maxAmountCents := 0

/-- **How an escalation ends.** -/
inductive Escalated (r : Runner) (orderId : String) (reason : ReasonCode) (detail : String)
    (v v' : World) : Except PyError (Option ExecutionResult) → Prop
  /-- There is no order to write a ticket for. -/
  | unknown (missing : v.shared.fetchOrder orderId = .ok none) (shared : v'.shared = v.shared) :
      Escalated r orderId reason detail v v' (.ok none)
  /-- The order cannot be read. -/
  | unread (err : PyError) (cause : v.shared.fetchOrder orderId = .error err)
      (shared : v'.shared = v.shared) : Escalated r orderId reason detail v v' (.error err)
  /-- The proposal of the ticket is no proposal. -/
  | unproposed (err : PyError) (order : Order)
      (found : v.shared.fetchOrder orderId = .ok (some order))
      (cause : Runner.ticketProposal order reason detail = .error err)
      (shared : v'.shared = v.shared) : Escalated r orderId reason detail v v' (.error err)
  /-- The id of the permit is taken. -/
  | unissued (err : PyError) (order : Order)
      (found : v.shared.fetchOrder orderId = .ok (some order))
      (cause : v.shared.insertPermit ((r.issuer.permitAt (ticketRequest order)
        (v.own.session.sequence + 1) (r.clock v.own.session.readings)).row
        (r.clock v.own.session.readings) r.runId) = .error err)
      (shared : v'.shared = v.shared) : Escalated r orderId reason detail v v' (.error err)
  /-- The ticket went to the executor. -/
  | executed (order : Order) (proposal : ActionProposal) (permit : ExecutionPermit) (w : World)
      (res : Except PyError ExecutionResult)
      (found : v.shared.fetchOrder orderId = .ok (some order))
      (proposed : Runner.ticketProposal order reason detail = .ok proposal)
      (equipped : Equipped r (ticketRequest order) permit v w)
      (steady : Steady w v')
      (executed : Executed r.executor (some permit.permitId) proposal
        { reasonCode := str reason, summary := proposal.reason } w v' res) :
      Escalated r orderId reason detail v v' (res.map some)

/-- What a hand-over does. -/
theorem run_escalate {r : Runner} {orderId : String} {reason : ReasonCode} {detail : String}
    {v v' : World} {res : Except PyError (Option ExecutionResult)}
    (haudit : v.own.session.audit.isSome = true)
    (h : (r.escalate orderId reason detail).run v = (res, v')) :
    Carries v v' ∧ v'.own.history = v.own.history ∧
      v'.own.session.planner = v.own.session.planner ∧
      v'.own.session.lastExecution = v.own.session.lastExecution ∧
      Escalated r orderId reason detail v v' res := by
  obtain ⟨err, hfetch, rfl, rfl⟩ | ⟨order, hfetch, h⟩ := Py.run_query_bind h
  · exact ⟨Carries.refl _, rfl, rfl, rfl, .unread err hfetch rfl⟩
  cases order with
  | none =>
      have h := Py.run_touch_bind h
      rw [Py.run_pure, Prod.mk.injEq] at h
      obtain ⟨rfl, rfl⟩ := h
      exact ⟨⟨rfl, rfl, le_rfl, le_rfl⟩, rfl, rfl, rfl, .unknown hfetch rfl⟩
  | some order =>
      obtain ⟨err, hprop, rfl, rfl⟩ | ⟨proposal, hprop, h⟩ := Py.run_raising_bind h
      · exact ⟨Carries.refl _, rfl, rfl, rfl, .unproposed err order hfetch hprop rfl⟩
      obtain ⟨err, hissue, rfl⟩ | ⟨permit, t, hissue, h⟩ := Py.run_bind_cases h
      · obtain ⟨hown, ⟨err', he, hshared, hins⟩ | ⟨he, -⟩⟩ := run_issuePermit hissue
        · cases he
          exact ⟨.issued hown, by rw [hown], by rw [hown], by rw [hown],
            .unissued err order hfetch hins hshared⟩
        · cases he
      obtain ⟨hown, ⟨_, he, -⟩ | ⟨he, hins⟩⟩ := run_issuePermit hissue
      · cases he
      cases he
      obtain ⟨w, hw, h⟩ := Py.run_emit_bind_audited (by rw [hown]; exact haudit) h
      have hequipped : Equipped r (ticketRequest order)
          (r.issuer.permitAt (ticketRequest order) (v.own.session.sequence + 1)
            (r.clock v.own.session.readings)) v w := .of_issued hown hins hw.idle
      have hhistory : w.own.history = v.own.history := by rw [hw.history, hown]
      have hplanner : w.own.session.planner = v.own.session.planner := by rw [hw.planner, hown]
      have hlast : w.own.session.lastExecution = v.own.session.lastExecution := by
        rw [hw.lastExecution, hown]
      -- whether the execution answers or raises, the escalation hands it on
      have finish : ∀ {res' : Except PyError ExecutionResult},
          (r.executor.execute (some (r.issuer.permitAt (ticketRequest order)
            (v.own.session.sequence + 1) (r.clock v.own.session.readings)).permitId) proposal
            { reasonCode := str reason, summary := proposal.reason }).run w = (res', v') →
          Carries v v' ∧ v'.own.history = v.own.history ∧
            v'.own.session.planner = v.own.session.planner ∧
            v'.own.session.lastExecution = v.own.session.lastExecution ∧
            Escalated r orderId reason detail v v' (res'.map some) := by
        intro res' hexec
        obtain ⟨hsteady, hexecuted⟩ := run_execute hexec
        exact ⟨hequipped.carries.trans hsteady.carries, hsteady.history.trans hhistory,
          hsteady.planner.trans hplanner, hsteady.lastExecution.trans hlast,
          .executed order proposal _ w res' hfetch hprop hequipped hsteady hexecuted⟩
      obtain ⟨err, hexec, rfl⟩ | ⟨result, y, hexec, h⟩ := Py.run_bind_cases h
      · exact finish hexec
      · rw [Py.run_pure, Prod.mk.injEq] at h
        obtain ⟨rfl, rfl⟩ := h
        exact finish hexec

/-! ## Executions with their retry -/

/-- **How an execution with its retry ends.** -/
inductive Retried (r : Runner) (permitId : String) (proposal : ActionProposal) (v v' : World) :
    Except PyError ExecutionResult → Prop
  /-- The first execution was answered, or raised for good. -/
  | once (res : Except PyError ExecutionResult)
      (executed : Executed r.executor (some permitId) proposal {} v v' res)
      (settled : ∀ tool key, res ≠ .error (.responseTimeout tool key)) :
      Retried r permitId proposal v v' res
  /-- The response to the first execution was lost, and the second one ended so. -/
  | twice (tool key : String) (t u : World) (res : Except PyError ExecutionResult)
      (first : Executed r.executor (some permitId) proposal {} v t
        (.error (.responseTimeout tool key)))
      (steady : Steady v t) (idle : Ticks 0 t u)
      (second : Executed r.executor (some permitId) proposal {} u v' res) :
      Retried r permitId proposal v v' res

/-- What a presentation and its retry do. -/
theorem run_executeWithRetry {r : Runner} {permitId : String} {proposal : ActionProposal}
    {v v' : World} {res : Except PyError ExecutionResult}
    (h : (r.executeWithRetry permitId proposal).run v = (res, v')) :
    Steady v v' ∧ Retried r permitId proposal v v' res := by
  obtain ⟨result, hexec, rfl⟩ | ⟨err, t, hexec, h⟩ := Py.run_tryCatch_cases h
  · obtain ⟨hsteady, hexecuted⟩ := run_execute hexec
    exact ⟨hsteady, .once _ hexecuted (by simp)⟩
  obtain ⟨hsteady, hexecuted⟩ := run_execute hexec
  cases err with
  | responseTimeout tool key =>
      have h := Py.run_touch_bind h
      obtain ⟨hsteady', hexecuted'⟩ := run_execute h
      have hidle : Ticks 0 t ⟨t.shared, { t.own with session :=
          { t.own.session.note ("response lost after commit; retrying " ++ key) with
            recovered := true } }⟩ :=
        Ticks.of_session rfl rfl rfl rfl rfl rfl
      exact ⟨(hsteady.trans hidle.toSteady).trans hsteady',
        .twice tool key t _ res hexecuted hsteady hidle hexecuted'⟩
  | _ =>
      rw [Py.run_throw, Prod.mk.injEq] at h
      obtain ⟨rfl, rfl⟩ := h
      exact ⟨hsteady, .once _ hexecuted (by simp)⟩

/-- What an allowed proposal is given a permit for. -/
def allowedRequest (proposal : ActionProposal) (d : PolicyResult) : PermitRequest where
  action := proposal.action
  resourceId := d.resourceId
  expectedResourceVersion := d.expectedResourceVersion
  maxAmountCents := d.maxAmountCents

/-! ## Attempts -/

/-- **How an attempt goes on behind the policy.** -/
inductive Proceeded (r : Runner) (proposal : ActionProposal) (s : PolicySnapshot)
    (d : PolicyResult) (attempt : Nat) (v v' : World) (call : Call) :
    Except PyError Attempt → Prop
  | denied (decision : d.decision = .deny) (idle : Idle 1 v v')
      (last : v'.own.session.lastExecution = v.own.session.lastExecution) :
      Proceeded r proposal s d attempt v v' call
        (.ok { outcome := .denied, reasonCode := d.reasonCode })
  | escalated (decision : d.decision = .escalate) (w : World)
      (res : Except PyError (Option ExecutionResult)) (idle : Idle 1 v w)
      (last : v'.own.session.lastExecution = v.own.session.lastExecution)
      (escalated : Escalated r proposal.orderId d.reasonCode d.detail w v' res) :
      Proceeded r proposal s d attempt v v' call
        (res.map fun _ => { outcome := .escalated, reasonCode := d.reasonCode })
  /-- The id of the permit is taken. -/
  | unissued (decision : d.decision = .allow) (err : PyError) (w : World) (idle : Idle 1 v w)
      (cause : w.shared.insertPermit ((r.issuer.permitAt (allowedRequest proposal d)
        (w.own.session.sequence + 1) (r.clock w.own.session.readings)).row
        (r.clock w.own.session.readings) r.runId) = .error err)
      (shared : v'.shared = w.shared) :
      Proceeded r proposal s d attempt v v' call (.error err)
  | executed (decision : d.decision = .allow) (w u t : World) (permit : ExecutionPermit)
      (res : Except PyError ExecutionResult) (idle : Idle 1 v w)
      (equipped : Equipped r (allowedRequest proposal d) permit w u)
      (presented : u.own.session.lastExecution = some (permit.permitId, proposal))
      (steady : Steady u t) (retried : Retried r permit.permitId proposal u t res)
      (shared : v'.shared = t.shared) (session : v'.own.session = t.own.session)
      (answer : ∀ result, res = .ok result → call.answer = some result) :
      Proceeded r proposal s d attempt v v' call (res.map fun result =>
        r.conclude d attempt result)

/-- The call of an attempt, as the history has it at the end. -/
structure Called (n : Nat) (v v' : World) (call : Call) : Prop where
  history : v'.own.history = call :: v.own.history
  start : call.start = ⟨v.shared, v.own.session⟩
  attempt : call.attempt = n
  raw : call.raw = v.own.session.planner.propose.1
  planner : v'.own.session.planner = v.own.session.planner.propose.2

/-- **How an attempt ends.** -/
inductive Attempted (r : Runner) (n : Nat) (orderId : String) (v v' : World) (call : Call) :
    Except PyError (Attempt × String) → Prop
  | rejected (reason : ReasonCode) (invalid : validate r.intFromText call.raw = .error reason)
      (unjudged : call.judged = none) (idle : Idle 2 v v')
      (last : v'.own.session.lastExecution = v.own.session.lastExecution) :
      Attempted r n orderId v v' call
        (.ok ({ outcome := .denied, reasonCode := reason }, orderId))
  /-- A record could not be read. -/
  | unread (proposal : ActionProposal) (err : PyError)
      (valid : validate r.intFromText call.raw = .ok proposal) (unjudged : call.judged = none)
      (shared : v'.shared = v.shared) (cause : Unreadable v.shared proposal.orderId err) :
      Attempted r n orderId v v' call (.error err)
  /-- The policy raised. -/
  | unjudged (proposal : ActionProposal) (s : PolicySnapshot) (err : PyError)
      (valid : validate r.intFromText call.raw = .ok proposal) (unjudged : call.judged = none)
      (shared : v'.shared = v.shared) (reads : Reads v.shared proposal s)
      (cause : evaluate (some proposal) s = .error err) :
      Attempted r n orderId v v' call (.error err)
  | judged (proposal : ActionProposal) (s : PolicySnapshot) (d : PolicyResult) (w : World)
      (res : Except PyError Attempt)
      (valid : validate r.intFromText call.raw = .ok proposal)
      (reads : Reads v.shared proposal s) (evaluated : evaluate (some proposal) s = .ok d)
      (judged : call.judged = some (s, d)) (idle : Idle 3 v w)
      (last : w.own.session.lastExecution = v.own.session.lastExecution)
      (proceeded : Proceeded r proposal s d n w v' call res) :
      Attempted r n orderId v v' call (res.map fun step => (step, proposal.orderId))

section Attempts

variable {r : Runner} {v v' : World}

/-- What an allowed proposal does. -/
theorem run_executeAllowed {proposal : ActionProposal} {s : PolicySnapshot} {d : PolicyResult}
    {attempt : Nat} {call : Call} {rest : List Call} {res : Except PyError Attempt}
    (haudit : v.own.session.audit.isSome = true) (hhistory : v.own.history = call :: rest)
    (hallow : d.decision = .allow) {w₀ : World} (hidle : Idle 1 w₀ v)
    (h : (r.executeAllowed proposal d attempt).run v = (res, v')) :
    Carries v v' ∧ v'.own.session.planner = v.own.session.planner ∧
      ∃ call', v'.own.history = call' :: rest ∧ call'.start = call.start ∧
        call'.attempt = call.attempt ∧ call'.raw = call.raw ∧ call'.judged = call.judged ∧
        Proceeded r proposal s d attempt w₀ v' call' res := by
  obtain ⟨err, hissue, rfl⟩ | ⟨permit, t, hissue, h⟩ := Py.run_bind_cases h
  · obtain ⟨hown, ⟨err', he, hshared, hins⟩ | ⟨he, -⟩⟩ := run_issuePermit hissue
    · cases he
      exact ⟨.issued hown, by rw [hown], call, by rw [hown]; exact hhistory, rfl, rfl, rfl, rfl,
        .unissued hallow err v hidle hins hshared⟩
    · cases he
  obtain ⟨hown, ⟨_, he, -⟩ | ⟨he, hins⟩⟩ := run_issuePermit hissue
  · cases he
  cases he
  have h := Py.run_callLearns_bind h
  obtain ⟨w, hw, h⟩ := Py.run_emit_bind_audited (by simpa [hown] using haudit) h
  have h := Py.run_touch_bind h
  -- the session now knows which permit it presents
  obtain ⟨u, hu, h⟩ : ∃ u : World, u = ⟨w.shared, { w.own with session := { w.own.session with
      lastExecution := some ((r.issuer.permitAt (allowedRequest proposal d)
        (v.own.session.sequence + 1) (r.clock v.own.session.readings)).permitId,
        proposal) } }⟩ ∧
      (r.executeWithRetry (r.issuer.permitAt (allowedRequest proposal d)
        (v.own.session.sequence + 1) (r.clock v.own.session.readings)).permitId proposal >>=
          fun result => Py.callLearns (fun call => { call with answer := some result }) >>=
            fun _ => pure (r.conclude d attempt result)).run u = (res, v') := ⟨_, rfl, h⟩
  have hequipped : Equipped r (allowedRequest proposal d)
      (r.issuer.permitAt (allowedRequest proposal d) (v.own.session.sequence + 1)
        (r.clock v.own.session.readings)) v u := by
    subst hu
    exact .of_issued hown hins ⟨hw.shared, hw.readings, hw.sequence, hw.audited, hw.due⟩
  have hplanner : u.own.session.planner = v.own.session.planner := by
    subst hu
    rw [hw.planner, hown]
  have hhist : u.own.history = { call with permitId := some (r.issuer.permitAt
      (allowedRequest proposal d) (v.own.session.sequence + 1)
      (r.clock v.own.session.readings)).permitId } :: rest := by
    subst hu
    rw [hw.history, hown, hhistory]
    rfl
  have hpresented : u.own.session.lastExecution = some ((r.issuer.permitAt
      (allowedRequest proposal d) (v.own.session.sequence + 1)
      (r.clock v.own.session.readings)).permitId, proposal) := by
    subst hu
    rfl
  obtain ⟨err, hexec, rfl⟩ | ⟨result, t', hexec, h⟩ := Py.run_bind_cases h
  · obtain ⟨hsteady, hretried⟩ := run_executeWithRetry hexec
    refine ⟨hequipped.carries.trans hsteady.carries, hsteady.planner.trans hplanner, _,
      hsteady.history.trans hhist, rfl, rfl, rfl, rfl,
      .executed hallow v u v' _ (.error err) hidle hequipped hpresented hsteady hretried rfl rfl
        (by simp)⟩
  · obtain ⟨hsteady, hretried⟩ := run_executeWithRetry hexec
    have h := Py.run_callLearns_bind h
    rw [Py.run_pure, Prod.mk.injEq] at h
    obtain ⟨rfl, rfl⟩ := h
    have hcarries := hequipped.carries.trans hsteady.carries
    refine ⟨⟨hcarries.audited, hcarries.injector, hcarries.readings_le, hcarries.sequence_le⟩,
      hsteady.planner.trans hplanner,
      { call with
        permitId := some (r.issuer.permitAt (allowedRequest proposal d)
          (v.own.session.sequence + 1) (r.clock v.own.session.readings)).permitId
        answer := some result }, by rw [hsteady.history, hhist]; rfl, rfl, rfl, rfl, rfl,
      .executed hallow v u t' _ (.ok result) hidle hequipped hpresented hsteady hretried rfl rfl
        ?_⟩
    rintro result' he
    cases he
    rfl

/-- What follows on a decision. -/
theorem run_proceed {proposal : ActionProposal} {s : PolicySnapshot} {d : PolicyResult}
    {attempt : Nat} {call : Call} {rest : List Call} {res : Except PyError Attempt}
    (haudit : v.own.session.audit.isSome = true) (hhistory : v.own.history = call :: rest)
    (h : (r.proceed proposal s d attempt).run v = (res, v')) :
    Carries v v' ∧ v'.own.session.planner = v.own.session.planner ∧
      ∃ call', v'.own.history = call' :: rest ∧ call'.start = call.start ∧
        call'.attempt = call.attempt ∧ call'.raw = call.raw ∧ call'.judged = call.judged ∧
        Proceeded r proposal s d attempt v v' call' res := by
  unfold Runner.proceed at h
  split_ifs at h with hdeny hescalate
  · obtain ⟨t, ht, h⟩ := Py.run_emit_bind_audited haudit h
    rw [Py.run_pure, Prod.mk.injEq] at h
    obtain ⟨rfl, rfl⟩ := h
    exact ⟨ht.toSteady.carries, ht.planner, call, ht.history.trans hhistory, rfl, rfl, rfl, rfl,
      .denied hdeny ht.idle ht.lastExecution⟩
  · obtain ⟨w, hw, h⟩ := Py.run_emit_bind_audited haudit h
    have haudit' := hw.audited.trans haudit
    obtain ⟨err, hesc, rfl⟩ | ⟨ticket, u, hesc, h⟩ := Py.run_bind_cases h
    · obtain ⟨hcarries, hhist, hplanner, hlast, hescalated⟩ := run_escalate haudit' hesc
      exact ⟨hw.toSteady.carries.trans hcarries, hplanner.trans hw.planner, call,
        hhist.trans (hw.history.trans hhistory), rfl, rfl, rfl, rfl,
        .escalated hescalate w (.error err) hw.idle (hlast.trans hw.lastExecution) hescalated⟩
    · obtain ⟨hcarries, hhist, hplanner, hlast, hescalated⟩ := run_escalate haudit' hesc
      rw [Py.run_pure, Prod.mk.injEq] at h
      obtain ⟨rfl, rfl⟩ := h
      exact ⟨hw.toSteady.carries.trans hcarries, hplanner.trans hw.planner, call,
        hhist.trans (hw.history.trans hhistory), rfl, rfl, rfl, rfl,
        .escalated hescalate w (.ok ticket) hw.idle (hlast.trans hw.lastExecution) hescalated⟩
  · have hallow : d.decision = .allow := by
      cases hd : d.decision <;> simp_all
    obtain ⟨w, hw, h⟩ := Py.run_emit_bind_audited haudit h
    obtain ⟨hcarries, hplanner, call', hrest⟩ := run_executeAllowed (hw.audited.trans haudit)
      (hw.history.trans hhistory) hallow hw.idle h
    exact ⟨hw.toSteady.carries.trans hcarries, hplanner.trans hw.planner, call', hrest⟩

/-- A call when it is made. -/
def World.call (v : World) (n : Nat) : Call where
  start := ⟨v.shared, v.own.session⟩
  attempt := n
  raw := v.own.session.planner.propose.1

/-- The world once a proposal was made. -/
def World.proposed (v : World) (n : Nat) : World where
  shared := v.shared
  own :=
    { session := { v.own.session with planner := v.own.session.planner.propose.2 }
      history := v.call n :: v.own.history }

/-- To be asked is to be idle. -/
theorem World.proposed_idle (v : World) (n : Nat) : Idle 0 v (v.proposed n) :=
  ⟨rfl, rfl, rfl, rfl, rfl⟩

/-- A proposal is what the script holds next. -/
theorem Py.run_propose_bind {α : Type} {n : Nat} {k : RawProposal → Py α}
    {res : Except PyError α} (h : (Py.propose n >>= k).run v = (res, v')) :
    (k v.own.session.planner.propose.1).run (v.proposed n) = (res, v') := by
  rw [Py.propose, Prog.bind_def, Prog.run_bind, Prog.run_atomically] at h
  exact h

/-- What the policy decides is written down. -/
def World.judged (v : World) (s : PolicySnapshot) (d : PolicyResult) : World where
  shared := v.shared
  own := { v.own with
    history := v.own.history.modifyHead fun call => { call with judged := some (s, d) } }

/-- The snapshot of the call is a look at the database it was made in, by the tools it was
made with.  Two events are written between the call and its reads. -/
def Call.Sighted (r : Runner) (call : Call) : Prop :=
  ∀ s d, call.judged = some (s, d) → ∃ proposal,
    validate r.intFromText call.raw = .ok proposal ∧
    call.start.shared.look (fun tool => call.start.own.readsFail tool readMaxAttempts) proposal
      (r.clock (call.start.own.readings + 2)) = .ok s ∧
    evaluate (some proposal) s = .ok d

/-- An event costs the reads nothing. -/
theorem Py.run_emit_bind_unread {α : Type} {clock : Clock} {fields : EventFields}
    {k : Unit → Py α} {res : Except PyError α} (haudit : v.own.session.audit.isSome = true)
    (h : (Py.emit clock fields >>= k).run v = (res, v')) :
    ∃ t, Ticks 1 v t ∧ t.own.session.injector = v.own.session.injector ∧
      (k ()).run t = (res, v') := by
  have hemit := Py.run_touch v fun s => s.emit clock fields
  refine ⟨_, Session.tick_of_audited haudit ▸ (run_emit clock fields hemit).2, ?_,
    Py.run_touch_bind h⟩
  unfold Session.emit
  split <;> rfl

/-- **Every attempt ends in one of the listed ways**, and leaves one call behind, of which it
is told what it saw. -/
theorem run_attempt {n : Nat} {orderId : String} {res : Except PyError (Attempt × String)}
    (haudit : v.own.session.audit.isSome = true)
    (h : (r.attempt n orderId).run v = (res, v')) :
    Carries v v' ∧ ∃ call, Called n v v' call ∧ Attempted r n orderId v v' call res ∧
      call.Sighted r := by
  have h := Py.run_propose_bind h
  have hstart := v.proposed_idle n
  have haudit₀ := hstart.audited.trans haudit
  obtain ⟨t, ht, hinjector, h⟩ := Py.run_emit_bind_unread haudit₀ h
  -- an ending that leaves the call as it was proposed
  have bare : ∀ {k : Nat} {u : World}, Ticks k (v.proposed n) u →
      Carries v u ∧ Called n v u (v.call n) := fun hu =>
    ⟨hstart.carries.trans hu.toSteady.carries, hu.history, rfl, rfl, rfl, hu.planner⟩
  have hunjudged : (v.call n).Sighted r := fun s d hjudged => nomatch hjudged
  cases hvalid : validate r.intFromText v.own.session.planner.propose.1 with
  | error reason =>
      simp only [hvalid] at h
      obtain ⟨u, hu, -, h⟩ := Py.run_emit_bind_unread (ht.audited.trans haudit₀) h
      rw [Py.run_pure, Prod.mk.injEq] at h
      obtain ⟨rfl, rfl⟩ := h
      have htu := ht.trans hu
      exact ⟨(bare htu).1, _, (bare htu).2, .rejected reason hvalid rfl
        (hstart.trans htu.idle) htu.lastExecution, hunjudged⟩
  | ok proposal =>
      simp only [hvalid] at h
      obtain ⟨u, hu, hinjector', h⟩ := Py.run_emit_bind_unread (ht.audited.trans haudit₀) h
      have htu := ht.trans hu
      obtain ⟨err, hsnap, rfl⟩ | ⟨s, w, hsnap, h⟩ := Py.run_bind_cases h
      · obtain ⟨_, he, -⟩ | ⟨_, he, hw, hcause⟩ := run_snapshot hsnap
        · cases he
        · cases he
          have htw := htu.trans hw
          rw [htu.shared] at hcause
          exact ⟨(bare htw).1, _, (bare htw).2, .unread proposal err hvalid rfl htw.shared
            hcause, hunjudged⟩
      obtain ⟨_, he, hw, hreads⟩ | ⟨_, he, -⟩ := run_snapshot hsnap
      · cases he
        have htw := htu.trans hw
        rw [htu.shared] at hreads
        obtain ⟨err, heval, rfl, rfl⟩ | ⟨d, heval, h⟩ := Py.run_raising_bind h
        · exact ⟨(bare htw).1, _, (bare htw).2, .unjudged proposal s err hvalid rfl htw.shared
            hreads heval, hunjudged⟩
        have h : (r.proceed proposal s d n >>= fun step => pure (step, proposal.orderId)).run
            (w.judged s d) = (res, v') := Py.run_callLearns_bind h
        have hidle : Idle 3 v (w.judged s d) := by
          have := hstart.trans htw.idle
          exact ⟨this.shared, this.readings, this.sequence, this.audited, this.due⟩
        have hhistory : (w.judged s d).own.history =
            { v.call n with judged := some (s, d) } :: v.own.history := by
          simp only [World.judged, htw.history]
          rfl
        -- the events have not touched what the reads depend on
        have hlook : v.shared.look (fun tool => v.own.session.readsFail tool readMaxAttempts)
            proposal (r.clock (v.own.session.readings + 2)) = .ok s := by
          have hsame : u.own.session.injector = v.own.session.injector :=
            hinjector'.trans hinjector
          have hfails : (fun tool => u.own.session.readsFail tool readMaxAttempts) =
              fun tool => v.own.session.readsFail tool readMaxAttempts :=
            funext fun tool => Session.readsFail_congr hsame tool _
          have hlook := run_snapshot_eq r proposal u
          rw [hsnap, htu.shared, htu.readings, hfails] at hlook
          exact hlook.symm
        have finish : ∀ {res' : Except PyError Attempt},
            (r.proceed proposal s d n).run (w.judged s d) = (res', v') →
            Carries v v' ∧ ∃ call, Called n v v' call ∧
              Attempted r n orderId v v' call
                (res'.map fun step => (step, proposal.orderId)) ∧ call.Sighted r := by
          intro res' hproceed
          obtain ⟨hcarries, hplanner, call, hcall, hcallStart, hattempt, hraw, hjudged, hproc⟩ :=
            run_proceed (hidle.audited.trans haudit) hhistory hproceed
          refine ⟨hidle.carries.trans hcarries, call, ⟨hcall, hcallStart, hattempt, hraw,
            hplanner.trans htw.planner⟩, ?_, fun s' d' hjudged' => ?_⟩
          · exact .judged proposal s d (w.judged s d) res' (by rw [hraw]; exact hvalid) hreads
              heval hjudged hidle htw.lastExecution hproc
          · obtain ⟨rfl, rfl⟩ := Prod.mk.inj (Option.some.inj (hjudged.symm.trans hjudged'))
            rw [hcallStart, hraw]
            exact ⟨proposal, hvalid, hlook, heval⟩
        obtain ⟨err, hproceed, rfl⟩ | ⟨step, z, hproceed, h⟩ := Py.run_bind_cases h
        · exact finish hproceed
        · rw [Py.run_pure, Prod.mk.injEq] at h
          obtain ⟨rfl, rfl⟩ := h
          exact finish hproceed
      · cases he

end Attempts

end BoundedRefund
