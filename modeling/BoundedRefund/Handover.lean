import BoundedRefund.LoopsAtRest
import BoundedRefund.Kept

/-!
# Escalations that hand over

An escalation sets the outcome of the run and writes a ticket, and it does not look at what
the executor answers.  The ticket goes through a permit like any other write, and the permit
is looked at three readings of the clock after it was issued.  That is all that can come
between an escalation and its ticket, if there is an order to attach it to: a run that ends
escalated has handed over exactly if a permit outlives three steps of the clock
(`handed_over_iff`, `escalated_without_ticket`).
-/

namespace BoundedRefund

open Concurrent Relational

/-- The last proposal that was validated. -/
def lastValidated (r : Runner) (history : List Call) : Option ActionProposal :=
  history.findSome? fun call => (validate r.intFromText call.raw).toOption

/-- There is a ticket of the run for the order, with the reason, and a row that logs it. -/
def Database.TicketFor (db : Database) (runId orderId : String) (reason : ReasonCode) : Prop :=
  (∃ ticket ∈ db.supportTickets.rows, ticket.runId = runId ∧ ticket.orderId = orderId ∧
    ticket.reasonCode = str reason) ∧
  ∃ row ∈ db.mutationLog, row.runId = runId ∧ row.action = .createSupportTicket ∧
    row.resourceId = orderId

/-- Permits can be used: one that was just issued is in time for its check. -/
def FixedClock.Usable (c : FixedClock) : Prop := 3 * c.step ≤ seconds permitTtlSeconds

section Tickets

variable {r : Runner} {spec : FailureSpec} {c : FixedClock} {v v' : World} {call : Call}

/-- A clock is usable when three readings fit into the life of a permit. -/
theorem FixedClock.usable_iff (c : FixedClock) (n : Nat) :
    c.Usable ↔ Clock.InTime c.now n (n + 3) := by
  rw [c.inTime_iff]
  rfl

/-- Every call is in time exactly under such a clock. -/
theorem Call.inTime_iff_usable (hclock : r.clock = c.now) (call : Call) :
    call.InTime r 3 ↔ c.Usable := by
  rw [Call.InTime, hclock, ← c.usable_iff]

/-- **An escalation leaves its ticket**, if permits can be used. -/
theorem Ticketed.ticketFor {orderId detail : String} {reason : ReasonCode}
    (h : Ticketed r orderId reason detail v v') (hclock : r.clock = c.now) (husable : c.Usable)
    (hfound : (v.shared.orders.find? orderId).isSome) :
    v'.shared.TicketFor r.runId orderId reason := by
  cases h with
  | unknown missing => simp [missing] at hfound
  | late late =>
      rw [hclock, ← c.usable_iff] at late
      exact absurd husable late
  | written order proposal permit w now mid found proposed equipped landed =>
      have haction := Runner.ticketProposal_action proposed
      have hresource : permit.resourceId = orderId := by
        rw [equipped.issued]
        exact Database.fetchOrder_orderId found
      constructor
      · have htickets := landed.ticket
        rw [if_pos haction] at htickets
        refine ⟨(r.executor.execution permit proposal
          { reasonCode := str reason, summary := proposal.reason } now).ticketRow, ?_, rfl,
          hresource, ?_⟩
        · rw [htickets]
          exact List.mem_append_right _ (List.mem_singleton_self _)
        · cases reason <;> rfl
      · refine ⟨(r.executor.execution permit proposal
          { reasonCode := str reason, summary := proposal.reason } now).logRow, ?_, rfl,
          haction, hresource⟩
        rw [landed.commits.mutationLog]
        exact List.mem_append_right _ (List.mem_singleton_self _)

/-- Where permits cannot be used, an escalation writes nothing. -/
theorem Ticketed.mutationLog {orderId detail : String} {reason : ReasonCode}
    (h : Ticketed r orderId reason detail v v') (hclock : r.clock = c.now)
    (hlate : ¬ c.Usable) : v'.shared.mutationLog = v.shared.mutationLog := by
  refine h.log.2 fun hcond => hlate ?_
  have hin := hcond.1
  rwa [hclock, ← c.usable_iff] at hin

/-- Neither does an attempt. -/
theorem Tried.mutationLog (hrun : Running r spec v) (hclock : r.clock = c.now)
    (hlate : ¬ c.Usable) {n : Nat} {orderId : String} {step : Attempt} {stepOrderId : String}
    (ht : Tried r n orderId v v' call (.ok (step, stepOrderId))) :
    v'.shared.mutationLog = v.shared.mutationLog := by
  have hfate := ht.fate hrun
  have hlate : ¬ call.InTime r 3 := (call.inTime_iff_usable hclock).not.mpr hlate
  have hcases : call.fate r = .refused ∨ call.fate r = .unticketed := by
    unfold Call.fate
    split
    · split <;> simp [hlate]
    · exact .inl rfl
  rcases hcases with hf | hf
  · rw [hf] at hfate
    exact hfate.2
  · rw [hf] at hfate
    exact hfate.2

/-- An attempt that ends escalated was an escalation. -/
theorem Tried.ticketed (hrun : Running r spec v) {n : Nat} {orderId : String} {step : Attempt}
    {stepOrderId : String} (ht : Tried r n orderId v v' call (.ok (step, stepOrderId)))
    (hescalate : step.escalateAfterReplan = false) (houtcome : step.outcome = .escalated) :
    ∃ proposal detail w, validate r.intFromText call.raw = .ok proposal ∧
      w.shared = call.start.shared ∧
      Ticketed r proposal.orderId step.reasonCode detail w v' := by
  cases ht.verdict rfl hrun with
  | escalated proposal s d w judged decision idle aging ticketed =>
      refine ⟨proposal, d.detail, w, judged.valid, ?_, ticketed⟩
      rw [idle.shared, ht.called.start]
  | overtaken proposal s d =>
      have hdenied := r.conclude_stale_outcome d n d.resourceId
      rw [hescalate] at hdenied
      cases houtcome.symm.trans hdenied
  | _ => cases houtcome

/-- What holds behind the first loop, and behind every round of the chain. -/
structure Handed (r : Runner) (c : FixedClock) (planned : Planned) (v : World) : Prop where
  unwritten : ¬ c.Usable → v.shared.mutationLog = []
  ticket : planned.outcome = .escalated → ∃ call earlier proposal,
    v.own.history = call :: earlier ∧ validate r.intFromText call.raw = .ok proposal ∧
      (c.Usable → (call.start.shared.orders.find? proposal.orderId).isSome →
        v.shared.TicketFor r.runId proposal.orderId planned.reasonCode)

/-- An attempt that ends its loop. -/
theorem Tried.handed (hrun : Running r spec v) (hclock : r.clock = c.now)
    (hunwritten : ¬ c.Usable → v.shared.mutationLog = []) {n : Nat} {orderId : String}
    {step : Attempt} {stepOrderId : String}
    (ht : Tried r n orderId v v' call (.ok (step, stepOrderId)))
    (hescalate : step.escalateAfterReplan = false) {planned : Planned}
    (houtcome : planned.outcome = step.outcome) (hreason : planned.reasonCode = step.reasonCode) :
    Handed r c planned v' := by
  constructor
  · intro hlate
    rw [ht.mutationLog hrun hclock hlate, hunwritten hlate]
  · intro hescalated
    obtain ⟨proposal, detail, w, hvalid, hshared, hticketed⟩ :=
      ht.ticketed hrun hescalate (houtcome ▸ hescalated)
    refine ⟨call, v.own.history, proposal, ht.called.history, hvalid, ?_⟩
    intro husable hfound
    rw [← hshared] at hfound
    exact hreason ▸ hticketed.ticketFor hclock husable hfound

/-- **What is handed over**, by the loops and by the escalation between them. -/
theorem handed_leads (hclock : r.clock = c.now) :
    r.Leads spec (fun _ => True) (Handed r c) (Handed r c) where
  stale _ _ _ := trivial
  first _ _ _ _ _ _ _ h tried _ hescalate _ :=
    tried.handed h.toRunning hclock (fun _ => h.mutationLog) hescalate rfl rfl
  hand call earlier proposal v v' hhistory hvalid hkeys hclean haside hticketed := by
    refine ⟨fun hlate => ?_,
      fun _ => ⟨call, earlier, proposal, haside.history.trans hhistory, hvalid, ?_⟩⟩
    · rw [hticketed.mutationLog hclock hlate, hclean.mutationLog]
    · intro husable hfound
      rw [← hkeys.orders] at hfound
      exact hticketed.ticketFor hclock husable hfound
  next _ _ _ _ _ _ h _ hrun tried _ hescalate :=
    tried.handed hrun hclock h.unwritten hescalate rfl rfl
  drop planned v v' call step orderId h hcompleted hrun tried _ := by
    refine ⟨fun hlate => ?_, fun hescalated => ?_⟩
    · rw [tried.mutationLog hrun hclock hlate, h.unwritten hlate]
    · cases hcompleted.symm.trans hescalated
  stop _ _ h := h

/-- No step of a run takes an order or a payment away. -/
theorem keys_kept (r : Runner) (spec : FailureSpec) (db : Database) :
    Kept r spec (SameKeys db) where
  issue db' db'' row expiresAt _ h hJ := by
    obtain ⟨permits, -, rfl⟩ := Database.insertPermit_eq_ok.mp h
    exact hJ.trans (SameKeys.of_eq rfl rfl)
  inject _ _ _ _ h hJ := hJ.trans (SameKeys.apply h)
  commit _ _ _ _ _ hx hJ := hJ.trans (SameKeys.commits hx)

/-- **When an escalation hands over.**  A run ends escalated, and the order of its last
validated proposal exists.  Then there is a ticket of the run for this order, with the reason
of the report, and its row in the log, if and only if permits can be used: three steps of the
clock are no longer than a permit lives. -/
theorem handed_over_iff {db : Database} {proposals : List RawProposal} {report : RunReport}
    {proposal : ActionProposal} (hclock : r.clock = c.now) (hseeded : db.Seeded)
    (hrun : r.run.run ⟨db, r.start proposals spec⟩ = (.ok report, v'))
    (hescalated : report.outcome = .escalated)
    (hlast : lastValidated r v'.own.history = some proposal)
    (hfound : (db.orders.find? proposal.orderId).isSome) :
    v'.shared.TicketFor r.runId proposal.orderId report.reasonCode ↔
      3 * c.step ≤ seconds permitTtlSeconds := by
  obtain ⟨planned, y, hhanded, houtcome, hreason, hshared, hhistory⟩ :=
    (handed_leads hclock).reported hclock hseeded hrun
  rw [hshared, hreason]
  constructor
  · rintro ⟨-, row, hrow, -⟩
    by_contra hlate
    rw [hhanded.unwritten hlate] at hrow
    cases hrow
  · intro husable
    obtain ⟨call, earlier, proposal', hcall, hvalid, hticket⟩ :=
      hhanded.ticket (houtcome ▸ hescalated)
    rw [hhistory, hcall, lastValidated, List.findSome?_cons, hvalid] at hlast
    cases hlast
    have halong : Along proposals (SameKeys db)
        (r.run.run ⟨db, r.start proposals spec⟩).2 :=
      kept_run (keys_kept r spec db) (SameKeys.refl db)
    rw [hrun] at halong
    have hkeys := (halong.calls call (by rw [hhistory, hcall]; exact List.mem_cons_self)).1
    rw [← hkeys.orders] at hfound
    exact hticket husable hfound

end Tickets

/-- A run whose clock goes on by so many seconds with every reading. -/
def steppingRunner (step : Int) : Runner where
  clock := FixedClock.now { base := defaultClockBase, step := seconds step }
  runId := "run_stepping"
  scenarioId := "stepping"
  defaultOrderId := "ord_0001"

/-- How it ends when it is to cancel an order that was shipped. -/
def steppingStopped (step : Int) : Except PyError RunReport × World :=
  (steppingRunner step).run.run ⟨seedWorld [("ord_0001", .shipped)],
    (steppingRunner step).start [.proposal cancelFirst] {}⟩

/-- Three steps of 40 seconds are just in time. -/
theorem handed_over_stepping : ∃ report, (steppingStopped 40).1 = .ok report ∧
    ((steppingStopped 40).2.shared.TicketFor "run_stepping" "ord_0001" report.reasonCode ↔
      3 * seconds 40 ≤ seconds permitTtlSeconds) := by
  have hescalated : (steppingStopped 40).1.map RunReport.outcome = .ok .escalated := by
    decide +kernel
  have hlast : lastValidated (steppingRunner 40) (steppingStopped 40).2.own.history =
      some cancelFirst := by decide +kernel
  rcases hrun : steppingStopped 40 with ⟨err | report, v'⟩
  · rw [hrun] at hescalated
    cases hescalated
  · rw [hrun] at hescalated hlast
    exact ⟨report, rfl, handed_over_iff (c := ⟨defaultClockBase, seconds 40⟩) rfl
      (seedWorld_seeded _) hrun (Except.ok.inj hescalated) hlast (by decide +kernel)⟩

/-- With 41 seconds to a reading the ticket is refused, and the run ends escalated. -/
theorem escalated_without_ticket :
    (steppingStopped 41).1.map RunReport.outcome = .ok .escalated ∧
    lastValidated (steppingRunner 41) (steppingStopped 41).2.own.history = some cancelFirst ∧
    ((steppingStopped 41).2.shared.orders.find? "ord_0001").isSome ∧
    (steppingStopped 41).2.shared.supportTickets.rows = [] ∧
    (steppingStopped 41).2.shared.mutationLog = [] := by
  refine ⟨?_, ?_, ?_, ?_, ?_⟩ <;> decide +kernel

end BoundedRefund
