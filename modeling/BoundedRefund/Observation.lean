import BoundedRefund.Kept
import BoundedRefund.Phases
import BoundedRefund.Verdicts
import Mathlib.Data.List.Dedup

/-!
# What the evaluation observes

The evaluation does not believe a report.  It queries the tables (`Database.observe`) and
derives the outcome from what it finds there (`deriveOutcome`): an escalation has left a
ticket with one of the reasons for escalations, completed work has left a log row, and a
denial has left nothing.

Control flow and tables tell the same story.  Each ending of a run leaves the traces the
evaluation expects of it (`Tells`), and the counts of the report are counts of the rows
(`outcome_observed`).
-/

namespace BoundedRefund

open Concurrent Relational

/-! ## The observation -/

/-- `ESCALATION_TICKET_REASONS`. -/
def escalationTicketReasons : List String :=
  ["cancel_after_shipment", "outside_return_window", "insufficient_information",
    "above_auto_refund_limit", "stale_resource_version"]

/-- Every reason the rules escalate with is on the evaluator's list. -/
theorem escalationReasons_listed :
    ∀ reason ∈ escalationReasons, str reason ∈ escalationTicketReasons := by
  decide

/-- A mutation as the evaluation sees it. -/
structure ObservedMutation where
  action : String
  resourceId : String
  amountCents : Int
deriving DecidableEq, Repr

/-- A permit as the evaluation sees it. -/
structure ObservedPermit where
  permitId : String
  action : String
  resourceId : String
  maxAmountCents : Int
  used : Bool
deriving DecidableEq, Repr

/-- The dictionary `observe` returns. -/
structure Observation where
  orderStatus : Option String
  paymentStatus : Option String
  shipmentStatus : Option String
  refundRows : Nat
  refundAmountCents : Int
  refundCreated : Bool
  supportTicketCreated : Bool
  ticketReasonCodes : List String
  mutations : List ObservedMutation
  mutationCount : Nat
  duplicateMutationCount : Nat
  permits : List ObservedPermit
deriving DecidableEq, Repr

/-- `observe`: everything the verdict is based on. -/
def Database.observe (db : Database) (runId orderId : String) : Observation :=
  let refundRows := db.refunds.rows.filter fun row => row.runId = runId
  let ticketRows := (db.supportTickets.rows.filter fun row => row.runId = runId).insertionSort
    fun a b => a.ticketId ≤ b.ticketId
  let permitRows := (db.executionPermits.rows.filter fun row => row.runId = runId).insertionSort
    fun a b => a.permitId ≤ b.permitId
  let mutations := (db.mutationLogRows runId).map fun row =>
    (⟨str row.action, row.resourceId, row.amountCents⟩ : ObservedMutation)
  let keys := mutations.map fun item => (item.action, item.resourceId)
  { orderStatus := (db.orders.find? orderId).map OrderRow.status
    paymentStatus :=
      (db.payments.first? fun row => row.orderId = orderId).map PaymentRow.status
    shipmentStatus :=
      (db.shipments.first? fun row => row.orderId = orderId).map ShipmentRow.status
    refundRows := refundRows.length
    refundAmountCents := (refundRows.map RefundRow.amountCents).sum
    refundCreated := decide (0 < refundRows.length)
    supportTicketCreated := decide (0 < ticketRows.length)
    ticketReasonCodes := ticketRows.map TicketRow.reasonCode
    mutations
    mutationCount := mutations.length
    duplicateMutationCount := keys.length - keys.dedup.length
    permits := permitRows.map fun row =>
      ⟨row.permitId, str row.action, row.resourceId, row.maxAmountCents, row.used⟩ }

/-- `derive_outcome`. -/
def deriveOutcome (observed : Observation) : String :=
  if observed.ticketReasonCodes.any fun code => code ∈ escalationTicketReasons then "escalated"
  else if 0 < observed.mutationCount then "completed"
  else "denied"

/-! ## What an outcome leaves behind -/

/-- The rows of a run are those the evaluation expects of the outcome. -/
inductive Tells (runId : String) (db : Database) : Outcome → Prop
  | denied (mutationLog : db.mutationLog = []) (supportTickets : db.supportTickets.rows = []) :
      Tells runId db .denied
  | completed (row : MutationRow) (logged : row ∈ db.mutationLog) (own : row.runId = runId)
      (requested : ∀ ticket ∈ db.supportTickets.rows,
        ticket.reasonCode ∉ escalationTicketReasons) :
      Tells runId db .completed
  | escalated (ticket : TicketRow) (written : ticket ∈ db.supportTickets.rows)
      (own : ticket.runId = runId) (reason : ticket.reasonCode ∈ escalationTicketReasons) :
      Tells runId db .escalated

section Observe

variable {db : Database} {runId orderId : String}

/-- The reasons of the run's tickets. -/
theorem mem_ticketReasonCodes {code : String} :
    code ∈ (db.observe runId orderId).ticketReasonCodes ↔
      ∃ ticket ∈ db.supportTickets.rows, ticket.runId = runId ∧ ticket.reasonCode = code := by
  simp [Database.observe, and_assoc]

/-- The mutations are the log rows of the run. -/
theorem mutationCount_eq :
    (db.observe runId orderId).mutationCount = (db.mutationLogRows runId).length := by
  simp [Database.observe]

/-- The evaluation reads the outcome off its rows. -/
theorem Tells.deriveOutcome {outcome : Outcome} (h : Tells runId db outcome) (orderId : String) :
    deriveOutcome (db.observe runId orderId) = str outcome := by
  -- an escalation is a ticket of the run with one of the reasons
  have hany : ((db.observe runId orderId).ticketReasonCodes.any fun code =>
      code ∈ escalationTicketReasons) = true ↔ ∃ ticket ∈ db.supportTickets.rows,
        ticket.runId = runId ∧ ticket.reasonCode ∈ escalationTicketReasons := by
    rw [List.any_eq_true]
    constructor
    · rintro ⟨code, hcode, hmem⟩
      obtain ⟨ticket, hticket, hown, rfl⟩ := mem_ticketReasonCodes.mp hcode
      exact ⟨ticket, hticket, hown, of_decide_eq_true hmem⟩
    · rintro ⟨ticket, hticket, hown, hmem⟩
      exact ⟨_, mem_ticketReasonCodes.mpr ⟨ticket, hticket, hown, rfl⟩, decide_eq_true hmem⟩
  unfold BoundedRefund.deriveOutcome
  cases h with
  | denied mutationLog supportTickets =>
      rw [if_neg (by rw [hany, supportTickets]; simp), mutationCount_eq,
        Database.mutationLogRows, mutationLog]
      rfl
  | completed row logged own requested =>
      have hpos : 0 < (db.observe runId orderId).mutationCount := by
        rw [mutationCount_eq]
        exact List.length_pos_of_mem (List.mem_filter.mpr ⟨logged, decide_eq_true own⟩)
      rw [if_neg (fun h => ?_), if_pos hpos]
      · rfl
      · obtain ⟨ticket, hticket, -, hreason⟩ := hany.mp h
        exact requested ticket hticket hreason
  | escalated ticket written own reason =>
      rw [if_pos (hany.mpr ⟨ticket, written, own, reason⟩)]
      rfl

end Observe

/-- What is told hangs on what the run wrote only. -/
theorem Tells.congr {db db' : Database} {runId : String} {outcome : Outcome}
    (h : Tells runId db outcome) (hsame : Unwritten db db') : Tells runId db' outcome := by
  have htickets : db'.supportTickets.rows = db.supportTickets.rows := by
    rw [hsame.supportTickets]
  cases h with
  | denied mutationLog supportTickets =>
      exact .denied (hsame.mutationLog.trans mutationLog) (htickets.trans supportTickets)
  | completed row logged own requested =>
      exact .completed row (hsame.mutationLog ▸ logged) own (htickets ▸ requested)
  | escalated ticket written own reason =>
      exact .escalated ticket (htickets ▸ written) own reason

/-! ## Stages of a run -/

/-- The clock does not move. -/
def Clock.Still (clock : Clock) : Prop := ∀ m n, clock m = clock n

/-- A clock without steps stands still. -/
theorem FixedClock.still (c : FixedClock) (hstep : c.step = 0) : Clock.Still c.now := by
  intro m n
  simp [FixedClock.now, hstep]

/-- No permit expires then. -/
theorem Clock.Still.inTime {clock : Clock} (h : clock.Still) (m n : Nat) : clock.InTime m n := by
  have hpos : (0 : Int) ≤ seconds permitTtlSeconds := by decide
  unfold Clock.InTime
  rw [h n m]
  exact le_add_of_nonneg_right hpos

/-- The last permit would not be cleared if it were presented once more. -/
def Runner.Quiet (r : Runner) (v : World) : Prop :=
  ∀ permitId proposal permit target,
    v.own.session.lastExecution = some (permitId, proposal) →
    v.shared.loadPermit (some permitId) = some permit →
    ¬ Clear v.shared (r.clock (v.own.session.readings + v.own.session.tick)) permit proposal target

/-- Nothing but permits has been written, and the last one can never be used. -/
structure Blank (r : Runner) (spec : FailureSpec) (proposals : List RawProposal) (db : Database)
    (v : World) : Prop extends Running r spec v where
  mutationLog : v.shared.mutationLog = []
  supportTickets : v.shared.supportTickets.rows = []
  keys : SameKeys db v.shared
  script : v.own.session.planner.proposals = proposals
  settled : ∀ permitId proposal, v.own.session.lastExecution = some (permitId, proposal) →
    v.shared.Settled permitId

/-- What the script proposes is about orders of the database. -/
def NamesOrders (r : Runner) (proposals : List RawProposal) (db : Database) : Prop :=
  ∀ raw ∈ proposals, ∀ proposal, validate r.intFromText raw = .ok proposal →
    (db.orders.find? proposal.orderId).isSome

section Stages

variable {r : Runner} {spec : FailureSpec} {proposals : List RawProposal} {db : Database}
variable {v v' w : World}

/-- At the beginning nothing has been written. -/
theorem Blank.start (hseeded : db.Seeded) :
    Blank r spec proposals db ⟨db, r.start proposals spec⟩ where
  toRunning := Running.start hseeded proposals
  mutationLog := hseeded.mutationLog
  supportTickets := hseeded.supportTickets
  keys := SameKeys.refl db
  script := rfl
  settled _ _ h := by cases h

/-- A stretch that writes nothing. -/
theorem Blank.ticks (h : Blank r spec proposals db v) {k : Nat} (hticks : Ticks k v v') :
    Blank r spec proposals db v' where
  toRunning := h.toRunning.quiet hticks.toSteady.carries hticks.shared
  mutationLog := hticks.shared ▸ h.mutationLog
  supportTickets := hticks.shared ▸ h.supportTickets
  keys := hticks.shared ▸ h.keys
  script := by rw [hticks.planner, h.script]
  settled := by
    rw [hticks.lastExecution, hticks.shared]
    exact h.settled

/-- A run that has written nothing tells of a denial. -/
theorem Blank.denied (h : Blank r spec proposals db v) (hsame : Unwritten v.shared v'.shared) :
    Tells r.runId v'.shared .denied :=
  .denied (hsame.mutationLog.trans h.mutationLog)
    ((congrArg Table.rows hsame.supportTickets).trans h.supportTickets)

/-- What is settled is never cleared. -/
theorem quiet_of_settled (h : ∀ permitId proposal,
    v.own.session.lastExecution = some (permitId, proposal) → v.shared.Settled permitId) :
    r.Quiet v := by
  intro permitId proposal permit target hlast hload
  exact (h permitId proposal hlast).not_clear hload

/-- So is what was settled before, as time goes on. -/
theorem Blank.quiet (h : Blank r spec proposals db v) (haging : Aging v.shared v'.shared)
    (hlast : v'.own.session.lastExecution = v.own.session.lastExecution) : r.Quiet v' := by
  refine quiet_of_settled fun permitId proposal hl => ?_
  rw [hlast] at hl
  exact (h.settled permitId proposal hl).aging haging

/-- The order of a judged call is in the database. -/
theorem Blank.names (h : Blank r spec proposals db v) (hnamed : NamesOrders r proposals db)
    {n : Nat} {call : Call} (hcalled : Called n v v' call) {proposal : ActionProposal}
    (hvalid : validate r.intFromText call.raw = .ok proposal) :
    (db.orders.find? proposal.orderId).isSome := by
  have hraw := v.own.session.planner.propose_mem
  rw [h.script, ← hcalled.raw] at hraw
  rcases hraw with hnone | hmem
  · rw [hnone] at hvalid
    cases hvalid
  · exact hnamed _ hmem _ hvalid

/-- The ticket of an execution that went through. -/
theorem Landed.ticket {request : PermitRequest} {permit : ExecutionPermit}
    {proposal : ActionProposal} {texts : TicketTexts} {n : Nat} {now : Instant}
    {mid db' : Database} (h : Landed r request permit proposal texts n w now mid db') :
    db'.supportTickets.rows = mid.supportTickets.rows ++
      if proposal.action = .createSupportTicket then
        [(r.executor.execution permit proposal texts now).ticketRow]
      else [] :=
  h.commits.supportTickets

/-- **An escalation leaves its ticket.** -/
theorem Ticketed.tells {orderId detail : String} {reason : ReasonCode}
    (h : Ticketed r orderId reason detail v v') (hstill : r.clock.Still)
    (hfound : (v.shared.orders.find? orderId).isSome)
    (hreason : str reason ∈ escalationTicketReasons) :
    Tells r.runId v'.shared .escalated := by
  cases h with
  | unknown missing => simp [missing] at hfound
  | late late => exact absurd (hstill.inTime _ _) late
  | written order proposal permit w now mid found proposed equipped landed =>
      have htickets := landed.ticket
      rw [if_pos (Runner.ticketProposal_action proposed)] at htickets
      refine .escalated (r.executor.execution permit proposal
        { reasonCode := str reason, summary := proposal.reason } now).ticketRow ?_ rfl ?_
      · rw [htickets]
        exact List.mem_append_right _ (List.mem_singleton_self _)
      · have htext : textOr (str reason) (str ReasonCode.ticketRequested) = str reason := by
          cases reason <;> rfl
        change textOr (str reason) (str ReasonCode.ticketRequested) ∈ escalationTicketReasons
        rwa [htext]

/-- A permit that is too late, or covers too little, is not cleared. -/
theorem Opened.quiet {call : Call} {proposal : ActionProposal} {s : PolicySnapshot}
    {d : PolicyResult} {permit : ExecutionPermit} {u : World}
    (h : Opened r call proposal s d permit v u w) (hu : Running r spec u)
    (hrefused : ¬ r.clock.InTime u.own.session.readings (v'.own.session.readings + 1) ∨
      d.maxAmountCents < proposal.amount)
    (hshared : v'.shared = w.shared) (haudit : v'.own.session.audit.isSome = true)
    (hlast : v'.own.session.lastExecution = some (permit.permitId, proposal)) : r.Quiet v' := by
  intro permitId presented loaded target hl hload hclear
  rw [hlast] at hl
  cases hl
  have hheld := (h.equipped.held rfl hu.numbered).congr hshared
  have hfits : Fits v'.shared (allowedRequest proposal d) proposal := hshared ▸ h.fits
  cases hheld.loaded.symm.trans hload
  have hassess := hfits.assess hheld (r.clock (v'.own.session.readings + 1))
  rw [Session.tick_of_audited haudit] at hclear
  rw [hclear.assess] at hassess
  split_ifs at hassess with hlate hbeyond
  · simp at hassess
  · simp at hassess
  · rcases hrefused with hrefused | hrefused
    · exact hrefused (not_lt.mp hlate)
    · exact hbeyond hrefused

section Opened

variable {call : Call} {proposal : ActionProposal} {s : PolicySnapshot} {d : PolicyResult}
variable {permit : ExecutionPermit} {u : World}

/-- A permit and the changes of the scenario leave a blank run blank. -/
theorem Blank.overtaken (h : Blank r spec proposals db v)
    (opened : Opened r call proposal s d permit v u w) (hafter : Running r spec v')
    {due : List StateChange} (hinjected : Injected due w.shared v'.shared)
    (hkeys : SameKeys w.shared v'.shared)
    (hscript : v'.own.session.planner.proposals = proposals)
    (hsettled : ∀ permitId proposal,
      v'.own.session.lastExecution = some (permitId, proposal) → v'.shared.Settled permitId) :
    Blank r spec proposals db v' := by
  have hsame : Unwritten v.shared v'.shared := opened.unwritten.trans (.injected hinjected)
  have hissued : SameKeys v.shared w.shared := by
    obtain ⟨permits, -, heq⟩ := Database.insertPermit_eq_ok.mp opened.equipped.inserted
    rw [heq, opened.idle.shared]
    exact SameKeys.of_eq rfl rfl
  exact
    { toRunning := hafter
      mutationLog := hsame.mutationLog.trans h.mutationLog
      supportTickets := (congrArg Table.rows hsame.supportTickets).trans h.supportTickets
      keys := h.keys.trans (hissued.trans hkeys)
      script := hscript
      settled := hsettled }

/-- What went through tells its completion: the row is there, and the only ticket is the one
that was asked for. -/
theorem Blank.completed (h : Blank r spec proposals db v)
    (opened : Opened r call proposal s d permit v u w) {n : Nat} {now : Instant}
    {mid : Database}
    (landed : Landed r (allowedRequest proposal d) permit proposal {} n w now mid v'.shared) :
    Tells r.runId v'.shared .completed := by
  refine .completed (r.executor.execution permit proposal {} now).logRow ?_ rfl ?_
  · rw [landed.commits.mutationLog]
    exact List.mem_append_right _ (List.mem_singleton_self _)
  · intro ticket hticket
    have hmid : mid.supportTickets.rows = [] := by
      rw [(Injected.of_injectAll landed.injected).supportTickets,
        opened.unwritten.supportTickets, h.supportTickets]
    rw [landed.ticket, hmid, List.nil_append] at hticket
    split_ifs at hticket
    · rw [List.mem_singleton.mp hticket]
      -- it carries the reason of a ticket nobody gave one for
      change textOr "" (str ReasonCode.ticketRequested) ∉ escalationTicketReasons
      decide
    · cases hticket

end Opened

/-- **What an attempt of a blank run leaves.**  Either it asks for more, and the run is still
blank; or it ends the loop, and its rows tell its outcome. -/
theorem Blank.tried (h : Blank r spec proposals db v) (hstill : r.clock.Still)
    (hnamed : NamesOrders r proposals db) {n : Nat} {orderId : String} {call : Call}
    {step : Attempt} {stepOrderId : String}
    (ht : Tried r n orderId v v' call (.ok (step, stepOrderId))) :
    (step.replan = true ∨ step.escalateAfterReplan = true →
      Blank r spec proposals db v' ∧ stepOrderId ≠ "" ∧
        (db.orders.find? stepOrderId).isSome) ∧
    (step.replan = false → step.escalateAfterReplan = false →
      Tells r.runId v'.shared step.outcome ∧ r.Quiet v') := by
  have hafter := h.toRunning.tried ht
  have hscript : v'.own.session.planner.proposals = proposals := by
    rw [ht.called.planner, ScriptedPlanner.proposals_propose, h.script]
  -- an attempt that asks for nothing has only its rows to answer for
  have ended : ∀ {step : Attempt}, step.replan = false → step.escalateAfterReplan = false →
      Tells r.runId v'.shared step.outcome ∧ r.Quiet v' →
      (step.replan = true ∨ step.escalateAfterReplan = true →
        Blank r spec proposals db v' ∧ stepOrderId ≠ "" ∧
          (db.orders.find? stepOrderId).isSome) ∧
      (step.replan = false → step.escalateAfterReplan = false →
        Tells r.runId v'.shared step.outcome ∧ r.Quiet v') := by
    intro step hreplan hescalate hends
    refine ⟨fun hmore => ?_, fun _ _ => hends⟩
    rw [hreplan, hescalate] at hmore
    exact hmore.elim (fun h => by cases h) fun h => by cases h
  cases ht.verdict rfl h.toRunning with
  | rejected reason invalid shared last =>
      exact ended rfl rfl ⟨h.denied (.of_eq shared), h.quiet (shared ▸ Aging.refl _) last⟩
  | denied proposal s d judged decision shared last =>
      exact ended rfl rfl ⟨h.denied (.of_eq shared), h.quiet (shared ▸ Aging.refl _) last⟩
  | escalated proposal s d w judged decision idle aging ticketed last =>
      have hfound : (w.shared.orders.find? proposal.orderId).isSome := by
        rw [idle.shared, h.keys.orders]
        exact h.names hnamed ht.called judged.valid
      have hreason := evaluate_escalate_reason judged.evaluated decision
      exact ended rfl rfl ⟨ticketed.tells hstill hfound (escalationReasons_listed _ hreason),
        h.quiet aging last⟩
  | late proposal s d permit u w opened late => exact absurd (hstill.inTime _ _) late
  | beyond proposal s d permit u w opened inTime beyond shared last =>
      have hu := h.toRunning.quiet opened.idle.carries opened.idle.shared
      refine ended rfl rfl ⟨h.denied ?_, opened.quiet hu (.inr beyond) shared
        hafter.audited last⟩
      rw [shared, ← opened.idle.shared]
      exact .equipped opened.equipped
  | overtaken proposal s d permit u w opened inTime within overtaken injected keys settled
      readings loses last =>
      have hsettled : ∀ permitId proposal,
          v'.own.session.lastExecution = some (permitId, proposal) →
          v'.shared.Settled permitId := by
        intro permitId proposal hl
        rw [last] at hl
        cases hl
        exact settled
      have hfound := h.names hnamed ht.called opened.valid
      have hnonempty : proposal.orderId ≠ "" := by
        intro hempty
        have hlength := proposal.orderId_length.1
        rw [hempty] at hlength
        exact absurd hlength (by decide)
      have hblank := h.overtaken opened hafter injected keys hscript hsettled
      refine ⟨fun _ => ⟨hblank, hnonempty, hfound⟩, fun hreplan hescalate => ?_⟩
      rcases r.conclude_stale d n d.resourceId with ⟨-, hc⟩ | ⟨-, hc⟩ | ⟨-, hc⟩
      · rw [hc]
        exact ⟨.denied hblank.mutationLog hblank.supportTickets, quiet_of_settled hsettled⟩
      · rw [hc] at hreplan
        cases hreplan
      · rw [hc] at hescalate
        cases hescalate
  | completed proposal s d permit u w now mid opened landed onTime confirmed last =>
      have hu := h.toRunning.quiet opened.idle.carries opened.idle.shared
      have hstored := landed.stored (opened.equipped.held rfl hu.numbered)
      refine ended rfl rfl ⟨h.completed opened landed,
        quiet_of_settled fun permitId proposal hl => ?_⟩
      rw [last] at hl
      cases hl
      exact .inl hstored
  | unconfirmed proposal s d permit u w now mid opened landed onTime loses late =>
      exact absurd (hstill.inTime _ _) late

end Stages

/-! ## Runs -/

/-- What the first loop leaves: rows that tell its outcome, or a blank run to hand over. -/
def Runner.Settles (r : Runner) (spec : FailureSpec) (proposals : List RawProposal)
    (db : Database) (planned : Planned) (v : World) : Prop :=
  planned.Leaves (Tells r.runId v.shared planned.outcome ∧ r.Quiet v) fun orderId =>
    (db.orders.find? orderId).isSome ∧ Blank r spec proposals db v

section Runs

variable {r : Runner} {spec : FailureSpec} {proposals : List RawProposal} {db : Database}
variable {v v' : World}

/-- The first loop settles, from a database without writes. -/
theorem Blank.planning (h : Blank r spec proposals db v) (hstill : r.clock.Still)
    (hnamed : NamesOrders r proposals db) {res : Except PyError Planned}
    (hp : Planning r r.attempts r.defaultOrderId v v' res) :
    Ends (r.Settles spec proposals db) (fun _ _ => True) res v' := by
  refine hp.rule r.mayAttempt_attempts (I := fun _ => Blank r spec proposals db)
    (E := fun _ _ => True) (fun n _ => h) ?_ (fun _ _ _ _ _ _ _ _ => trivial) ?_ ?_
  · intro orderId v t u call step stepOrderId h tried hreplan ticks
    exact ((h.tried hstill hnamed tried).1 (.inl hreplan)).1.ticks ticks
  · intro n orderId v v' call step stepOrderId h tried hescalate
    obtain ⟨hblank, hne, hfound⟩ := (h.tried hstill hnamed tried).1 (.inr hescalate)
    exact .inr ⟨stepOrderId, by rw [textOr, if_neg hne], hfound, hblank⟩
  · intro n orderId v v' call step stepOrderId h tried hreplan hescalate
    exact .inl ⟨rfl, (h.tried hstill hnamed tried).2 hreplan hescalate⟩

/-- Behind the hand-over the database tells the outcome. -/
theorem Runner.Settles.handedOver {planned : Planned} (h : r.Settles spec proposals db planned v)
    (hstill : r.clock.Still) (haside : Aside v v') (hhanded : HandedOver r planned v v' (.ok ())) :
    Tells r.runId v'.shared planned.outcome ∧ r.Quiet v' := by
  refine hhanded.rule (P := fun res v' => res = .ok () →
    Tells r.runId v'.shared planned.outcome ∧ r.Quiet v') h (fun h _ => h) ?_ rfl
  rintro orderId res rfl ⟨hfound, hblank⟩ escalated hok
  cases res with
  | error err => cases hok
  | ok ticket =>
      rw [← hblank.keys.orders] at hfound
      exact ⟨(escalated.ticketed rfl hblank.toRunning).tells hstill hfound (by decide),
        hblank.quiet escalated.aging haside.last⟩

/-- A replay of such a permit writes nothing. -/
theorem Runner.Quiet.replayed (h : r.Quiet v) {res : Except PyError Unit}
    (hr : Replayed r v v' res) : v'.shared = v.shared := by
  cases hr with
  | unasked same => exact congrArg View.shared same
  | presented permitId proposal res last t executed shared =>
      rw [shared]
      cases executed with
      | answered result shared => exact shared
      | failed err shared => exact shared
      | overtaken permit target now id version load clear =>
          exact absurd clear (h permitId proposal permit target last load)
      | spoiled err permit target now inj load clear =>
          exact absurd clear (h permitId proposal permit target last load)
      | committed permit target now mid res load clear =>
          exact absurd clear (h permitId proposal permit target last load)

/-- **A run that reports leaves the rows its outcome is told by.** -/
theorem tells_run (hchain : r.chainProposals = false) (hstill : r.clock.Still)
    (hseeded : db.Seeded) (hnamed : NamesOrders r proposals db) {report : RunReport}
    (hrun : r.run.run ⟨db, r.start proposals spec⟩ = (.ok report, v')) :
    Tells r.runId v'.shared report.outcome := by
  have hstart : Blank r spec proposals db ⟨db, r.start proposals spec⟩ := Blank.start hseeded
  refine (run_run hstart.audited hrun).rule (E := fun _ _ => True)
    (B := Blank r spec proposals db) (P := r.Settles spec proposals db)
    (H := fun planned v => Tells r.runId v.shared planned.outcome ∧ r.Quiet v)
    (C := fun planned v => Tells r.runId v.shared planned.outcome ∧ r.Quiet v)
    (S := fun planned v => Tells r.runId v.shared planned.outcome)
    (F := fun report v => Tells r.runId v.shared report.outcome) ?_ ?_ ?_ ?_ ?_ ?_
  · exact fun t ht => hstart.ticks ht
  · exact fun t u res h hplanning => h.planning hstill hnamed hplanning
  · intro planned u w res h haside hhanded
    cases res with
    | error err => trivial
    | ok _ => exact h.handedOver hstill haside hhanded
  · -- there is no chain
    intro planned w y res h hchained
    have hstopped : ∀ exhausted, r.chains planned exhausted ≠ true := by
      simp [Runner.chains, hchain]
    cases hchained with
    | stopped planned w done => exact h
    | broken planned v v' call err goes => exact absurd goes (hstopped _)
    | dropped planned v v' call step stepOrderId goes => exact absurd goes (hstopped _)
    | next planned v t v' call step stepOrderId res goes => exact absurd goes (hstopped _)
  · intro planned y z res h _ hreplayed
    cases res with
    | error err => trivial
    | ok _ =>
        have hsame := h.2.replayed hreplayed
        exact h.1.congr (.of_eq hsame)
  · intro planned z z' res h hshared _ hfinished
    cases hfinished with
    | reported report outcome reasonCode =>
        change Tells r.runId z'.shared report.outcome
        rw [hshared, outcome]
        exact h
    | unreadable err => trivial

/-! ## The report -/

/-- Joined with a colon, an action and a resource can be told apart again: no action has a
colon in its name. -/
theorem joined_injective :
    Function.Injective fun pair : ActionName × String => str pair.1 ++ ":" ++ pair.2 := by
  rintro ⟨a, q⟩ ⟨b, q'⟩ h
  have hl := congrArg String.toList h
  simp only [String.toList_append, List.append_assoc] at hl
  -- the action ends at the first colon
  have action : ∀ (a : ActionName) (tail : List Char),
      ((str a).toList ++ (":".toList ++ tail)).takeWhile (· ≠ ':') = (str a).toList := by
    intro a tail
    cases a <;> rfl
  have hprefix := congrArg (List.takeWhile (· ≠ ':')) hl
  rw [action, action] at hprefix
  have hab : a = b := StrEnum.value_injective (String.toList_inj.mp hprefix)
  subst hab
  rw [List.append_cancel_left_eq, List.append_cancel_left_eq] at hl
  rw [String.toList_inj.mp hl]

/-- What the evaluation counts determines the action and the resource. -/
theorem keys_injective : Function.Injective
    fun pair : ActionName × String => (str pair.1, pair.2) := by
  rintro ⟨a, q⟩ ⟨b, q'⟩ h
  rw [Prod.mk.injEq] at h ⊢
  exact ⟨StrEnum.value_injective h.1, h.2⟩

/-- So the report and the evaluation count the same duplicates. -/
theorem duplicates_eq (rows : List MutationRow) :
    let joined := rows.map fun row => str row.action ++ ":" ++ row.resourceId
    let keys := rows.map fun row => (str row.action, row.resourceId)
    joined.length - joined.dedup.length = keys.length - keys.dedup.length := by
  intro joined keys
  have hjoined : joined = (rows.map fun row => (row.action, row.resourceId)).map
      fun pair => str pair.1 ++ ":" ++ pair.2 := by
    rw [List.map_map]
    rfl
  have hkeyed : keys = (rows.map fun row => (row.action, row.resourceId)).map
      fun pair => (str pair.1, pair.2) := by
    rw [List.map_map]
    rfl
  rw [hjoined, hkeyed, List.dedup_map_of_injective joined_injective,
    List.dedup_map_of_injective keys_injective]
  simp only [List.length_map]

/-- The counts of a report are counts of rows. -/
structure RunReport.Counts (report : RunReport) (r : Runner) (db : Database) : Prop where
  mutationCount : report.mutationCount = (db.mutationLogRows r.runId).length
  refundAmountCents : report.refundAmountCents = db.refundTotal r.runId
  supportTicketCreated : report.supportTicketCreated = decide (0 < db.ticketCount r.runId)
  duplicateMutationCount : report.duplicateMutationCount =
    let joined := (db.mutationLogRows r.runId).map fun row =>
      str row.action ++ ":" ++ row.resourceId
    joined.length - joined.dedup.length

/-- The report counts what the database holds. -/
theorem run_report_counts {outcome : Outcome} {reasonCode : ReasonCode}
    {finalState : VerifiedState} {report : RunReport} {v v' : World} {r : Runner}
    (h : (r.report outcome reasonCode finalState).run v = (.ok report, v')) :
    v' = v ∧ report.Counts r v.shared := by
  cases h
  exact ⟨rfl, rfl, rfl, rfl, rfl⟩

/-- So it does at the end of a run. -/
theorem run_counts {r : Runner} {v v' : World} {report : RunReport}
    (h : r.run.run v = (.ok report, v')) : report.Counts r v'.shared := by
  have finished : ∃ planned v, (r.finish planned).run v = (.ok report, v') := by
    unfold Runner.run at h
    obtain ⟨_, _, -, h⟩ := Prog.run_bind_eq_ok h
    obtain ⟨_, _, -, h⟩ := Prog.run_bind_eq_ok h
    obtain ⟨_, _, -, h⟩ := Prog.run_bind_eq_ok h
    obtain ⟨_, _, -, h⟩ := Prog.run_bind_eq_ok h
    obtain ⟨_, _, -, h⟩ := Prog.run_bind_eq_ok h
    dsimp only at h
    split_ifs at h
    · obtain ⟨_, _, -, h⟩ := Prog.run_bind_eq_ok h
      exact ⟨_, _, h⟩
    · exact ⟨_, _, h⟩
  obtain ⟨planned, _, h⟩ := finished
  -- the report is made between the verification and the last event
  unfold Runner.finish at h
  obtain ⟨_, t, -, h⟩ := Prog.run_bind_eq_ok h
  obtain ⟨made, u, hreport, hlast⟩ := Prog.run_bind_eq_ok h
  obtain ⟨rfl, hcounts⟩ := run_report_counts hreport
  obtain ⟨_, w, hemit, hlast⟩ := Prog.run_bind_eq_ok hlast
  cases hlast
  cases hemit
  exact hcounts

end Runs

/-- **Report and database agree.**  No chain, a clock that does not step, and a script whose
valid proposals name orders of the database; whatever it proposes, whatever fails, with a
second attempt or a replay or without.  If the run reports, the outcome the evaluation derives
from its rows is the outcome of the report, and so are the counts. -/
theorem outcome_observed {r : Runner} {c : FixedClock} {db : Database}
    {proposals : List RawProposal} {failures : FailureSpec} {report : RunReport} {v' : World}
    (hclock : r.clock = c.now) (hstep : c.step = 0) (hchain : r.chainProposals = false)
    (hseeded : db.Seeded) (hnamed : NamesOrders r proposals db)
    (hrun : r.run.run ⟨db, r.start proposals failures⟩ = (.ok report, v')) (orderId : String) :
    let observed := v'.shared.observe r.runId orderId
    deriveOutcome observed = str report.outcome ∧
      report.mutationCount = observed.mutationCount ∧
      report.refundAmountCents = observed.refundAmountCents ∧
      report.supportTicketCreated = observed.supportTicketCreated ∧
      report.duplicateMutationCount = observed.duplicateMutationCount := by
  intro observed
  have hstill : r.clock.Still := by
    rw [hclock]
    exact c.still hstep
  have htells := tells_run hchain hstill hseeded hnamed hrun
  have hcounts := run_counts hrun
  refine ⟨htells.deriveOutcome orderId, ?_, ?_, ?_, ?_⟩
  · rw [hcounts.mutationCount]
    exact mutationCount_eq.symm
  · rw [hcounts.refundAmountCents]
    rfl
  · rw [hcounts.supportTicketCreated]
    exact decide_eq_decide.mpr (by rw [List.length_insertionSort]; rfl)
  · rw [hcounts.duplicateMutationCount, duplicates_eq]
    simp only [observed, Database.observe, List.map_map]
    rfl

/-- A run that may plan again, and presents its last permit once more. -/
def insistentRunner : Runner where
  clock := FixedClock.now { base := defaultClockBase }
  runId := "run_first"
  scenarioId := "insistent"
  allowReplanOnStale := true
  defaultOrderId := "ord_0001"
  replayLastPermit := true

/-- The order moves before it is cancelled for the first time. -/
def orderMoves : FailureSpec where
  preCommitChanges := [("cancel_order", [moves "order" "ord_0001"])]

/-- How the run ends. -/
def insistentStopped : Except PyError RunReport × World :=
  insistentRunner.run.run ⟨seedWorld [("ord_0001", .paid)],
    insistentRunner.start [.proposal cancelFirst, .proposal cancelFirst] orderMoves⟩

/-- The first cancellation is stale, the second commits, and its permit is replayed. -/
theorem outcome_observed_insistent : ∃ report, insistentStopped.1 = .ok report ∧
    deriveOutcome (insistentStopped.2.shared.observe "run_first" "ord_0001") =
      str report.outcome := by
  have hok : insistentStopped.1.isOk = true := by decide +kernel
  rcases hrun : insistentStopped with ⟨err | report, v'⟩
  · rw [hrun] at hok
    cases hok
  · have hnamed : NamesOrders insistentRunner [.proposal cancelFirst, .proposal cancelFirst]
        (seedWorld [("ord_0001", .paid)]) := by
      intro raw hraw proposal hvalid
      have hraw : raw = .proposal cancelFirst := by simpa using hraw
      subst hraw
      cases hvalid
      decide +kernel
    exact ⟨report, rfl, (outcome_observed rfl rfl rfl (seedWorld_seeded _) hnamed hrun
      "ord_0001").1⟩

end BoundedRefund
