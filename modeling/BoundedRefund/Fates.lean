import BoundedRefund.Observation

/-!
# The fate of a call

What becomes of a call can be told from the world it starts in and the decision on it
(`Call.fate`): whether its permit is in time, whether the changes of the scenario move its
row, whether its response is lost.  `Tried.fate` says what each fate means for the attempt
and for the log.

Between two calls the last permit can never be used (`Rested`), so a replay behind the loops
writes nothing, and a run that reports is told by what its loops lead to (`Ran.looped`).
-/

namespace BoundedRefund

open Concurrent Relational

/-! ## Between two calls -/

/-- The last permit can never be used. -/
structure Rested (r : Runner) (spec : FailureSpec) (v : World) : Prop
    extends Running r spec v where
  settled : ∀ permitId proposal, v.own.session.lastExecution = some (permitId, proposal) →
    v.shared.Settled permitId

section Rested

variable {r : Runner} {spec : FailureSpec} {c : FixedClock} {v v' w : World}

/-- A run starts at rest. -/
theorem Rested.start {db : Database} (hseeded : db.Seeded) (proposals : List RawProposal) :
    Rested r spec ⟨db, r.start proposals spec⟩ where
  toRunning := Running.start hseeded proposals
  settled _ _ h := by cases h

/-- What is settled stays so, as long as no other permit is presented. -/
theorem Rested.later (h : Rested r spec v) (hrunning : Running r spec v')
    (haging : Aging v.shared v'.shared)
    (hlast : v'.own.session.lastExecution = v.own.session.lastExecution) :
    Rested r spec v' where
  toRunning := hrunning
  settled permitId proposal hl := by
    rw [hlast] at hl
    exact (h.settled permitId proposal hl).aging haging

/-- Time passes. -/
theorem Rested.ticks (h : Rested r spec v) {k : Nat} (hticks : Ticks k v v') :
    Rested r spec v' :=
  h.later (h.toRunning.quiet hticks.toSteady.carries hticks.shared)
    (hticks.shared ▸ Aging.refl _) hticks.lastExecution

/-- A hand-over leaves the last permit where it was. -/
theorem Rested.escalated (h : Rested r spec v) (haside : Aside v v') {orderId detail : String}
    {reason : ReasonCode} {res : Except PyError (Option ExecutionResult)}
    (he : Escalated r orderId reason detail v v' res) : Rested r spec v' :=
  h.later (h.toRunning.escalated haside.toCarries he) he.aging haside.last

/-- At rest the last permit would not be cleared once more. -/
theorem Rested.quiet (h : Rested r spec v) : r.Quiet v := quiet_of_settled h.settled

/-- A permit that has expired stays expired. -/
theorem Opened.quiet_of_late {call : Call} {proposal : ActionProposal} {s : PolicySnapshot}
    {d : PolicyResult} {permit : ExecutionPermit} {u : World}
    (h : Opened r call proposal s d permit v u w) (hu : Running r spec u)
    (hclock : r.clock = c.now) (hlate : ¬ call.InTime r 3) (hidle : Idle 3 w v')
    (haudit : v'.own.session.audit.isSome = true)
    (hlast : v'.own.session.lastExecution = some (permit.permitId, proposal)) : r.Quiet v' := by
  refine h.quiet hu (.inl ?_) hidle.shared haudit hlast
  -- three readings after the first check the clock is further still
  rw [hidle.readings, Nat.add_assoc, ← h.inTime_iff 4]
  unfold Call.InTime at hlate ⊢
  rw [hclock, c.inTime_iff] at hlate ⊢
  push_cast at hlate ⊢
  have hpos : (0 : Int) ≤ seconds permitTtlSeconds := by decide
  intro hin
  exact hlate (by omega)

/-- **After an attempt** a replay would write nothing, and where the run goes on, the last
permit is settled. -/
theorem Rested.tried (h : Rested r spec v) (hclock : r.clock = c.now) {n : Nat}
    {orderId : String} {call : Call} {step : Attempt} {stepOrderId : String}
    (ht : Tried r n orderId v v' call (.ok (step, stepOrderId))) :
    r.Quiet v' ∧ (step.outcome = .completed ∨ step.replan = true ∨
      step.escalateAfterReplan = true → Rested r spec v') := by
  have hafter := h.toRunning.tried ht
  have rest : Rested r spec v' → r.Quiet v' ∧ (step.outcome = .completed ∨ step.replan = true ∨
      step.escalateAfterReplan = true → Rested r spec v') := fun h => ⟨h.quiet, fun _ => h⟩
  have presented : ∀ {permitId : String} {proposal : ActionProposal},
      v'.own.session.lastExecution = some (permitId, proposal) → v'.shared.Settled permitId →
      Rested r spec v' := by
    intro permitId proposal hlast hsettled
    refine ⟨hafter, fun permitId' proposal' hl => ?_⟩
    rw [hlast] at hl
    cases hl
    exact hsettled
  cases ht.verdict rfl h.toRunning with
  | rejected reason invalid shared last =>
      exact rest (h.later hafter (shared ▸ Aging.refl _) last)
  | denied proposal s d judged decision shared last =>
      exact rest (h.later hafter (shared ▸ Aging.refl _) last)
  | escalated proposal s d w judged decision idle aging ticketed last =>
      exact rest (h.later hafter aging last)
  | late proposal s d permit u w opened late idle last =>
      have hu := h.toRunning.quiet opened.idle.carries opened.idle.shared
      exact ⟨opened.quiet_of_late hu hclock late idle hafter.audited last, by simp⟩
  | beyond proposal s d permit u w opened inTime beyond shared last =>
      have hu := h.toRunning.quiet opened.idle.carries opened.idle.shared
      exact ⟨opened.quiet hu (.inr beyond) shared hafter.audited last, by simp⟩
  | overtaken proposal s d permit u w opened inTime within overtaken injected keys settled
      readings loses last => exact rest (presented last settled)
  | completed proposal s d permit u w now mid opened landed onTime confirmed last =>
      have hu := h.toRunning.quiet opened.idle.carries opened.idle.shared
      exact rest (presented last (.inl (landed.stored (opened.equipped.held rfl hu.numbered))))
  | unconfirmed proposal s d permit u w now mid opened landed onTime loses late last =>
      have hu := h.toRunning.quiet opened.idle.carries opened.idle.shared
      exact rest (presented last (.inl (landed.stored (opened.equipped.held rfl hu.numbered))))

end Rested

/-- **How the loops of a run end** that leave an outcome. -/
inductive Looped (r : Runner) (v y : World) (last : Planned) : Prop
  | intro (t u w : World) (planned : Planned) (begun : Ticks 1 v t)
      (planning : Planning r r.attempts r.defaultOrderId t u (.ok planned))
      (aside : Aside u w) (handed : HandedOver r planned u w (.ok ()))
      (chained : Chained r planned w y (.ok last))

/-- A run that reports is told by what its loops leave, and by what the replay makes of it. -/
theorem Ran.looped {r : Runner} {v v' : World} {report : RunReport}
    (h : Ran r v v' (.ok report)) :
    ∃ last y z, Looped r v y last ∧ Steady y z ∧ Replayed r y z (.ok ()) ∧
      report.outcome = last.outcome ∧ report.reasonCode = last.reasonCode ∧
      v'.shared = z.shared ∧ v'.own.history = z.own.history := by
  generalize hres : (Except.ok report : Except PyError RunReport) = res at h
  cases h with
  | unplanned err => cases hres
  | unhanded err => cases hres
  | unchained err => cases hres
  | unreplayed err => cases hres
  | finished t u w y z planned last res begun planning aside handed chained steady replayed
      shared history finished =>
      cases finished with
      | unreadable err => cases hres
      | reported report' outcome reasonCode =>
          cases hres
          exact ⟨last, y, z, ⟨t, u, w, planned, begun, planning, aside, handed, chained⟩, steady,
            replayed, outcome, reasonCode, shared, history⟩

/-! ## The fate of a call -/

/-- What becomes of a call. -/
inductive Fate
  /-- It is refused, and nothing is written. -/
  | refused
  /-- It is escalated, but no ticket can be written. -/
  | unticketed
  | ticketed
  /-- It is refused as stale by a run that may replan. -/
  | stale
  /-- Its response is lost, and the retry comes too late. -/
  | unconfirmed
  | completed
deriving DecidableEq, Repr

namespace Call

variable (r : Runner) (call : Call)

instance (k : Nat) : Decidable (call.InTime r k) :=
  inferInstanceAs (Decidable (_ ≤ _))

instance (proposal : ActionProposal) (d : PolicyResult) :
    Decidable (call.Overtaken proposal d) :=
  inferInstanceAs (Decidable (_ ∧ _))

/-- The fate of a call, told from the world it starts in and the decision on it. -/
def fate : Fate :=
  match validate r.intFromText call.raw, call.judged with
  | .ok proposal, some (_, d) =>
      match d.decision with
      | .deny => .refused
      | .escalate =>
          if call.InTime r 3 ∧ (call.start.shared.orders.find? proposal.orderId).isSome then
            .ticketed
          else .unticketed
      | .allow =>
          if ¬ call.InTime r 3 ∨ d.maxAmountCents < proposal.amount then .refused
          else if call.Overtaken proposal d then
            if r.allowReplanOnStale then .stale else .refused
          else if call.start.own.loses (str proposal.action) ∧ ¬ call.InTime r 7 then
            .unconfirmed
          else .completed
  | _, _ => .refused

end Call

/-- The attempt ends the loop it is made in. -/
structure Attempt.Settles (step : Attempt) (outcome : Outcome) : Prop where
  outcome : step.outcome = outcome
  replan : step.replan = false
  escalateAfterReplan : step.escalateAfterReplan = false

/-- What a fate means for the attempt and for the log. -/
def Fate.Leads (step : Attempt) (log log' : List MutationRow) : Fate → Prop
  | .refused => step.Settles .denied ∧ log' = log
  | .unticketed => step.Settles .escalated ∧ log' = log
  | .ticketed => step.Settles .escalated ∧
      ∃ row, log' = log ++ [row] ∧ row.action = .createSupportTicket
  | .stale => (step.replan = true ∨ step.escalateAfterReplan = true) ∧ log' = log
  | .unconfirmed => step.Settles .denied ∧ ∃ row, log' = log ++ [row]
  | .completed => step.Settles .completed ∧ ∃ row, log' = log ++ [row]

section Fates

variable {r : Runner} {spec : FailureSpec} {v v' w : World} {call : Call}

/-- What went through has added its row. -/
theorem Opened.mutationLog {proposal : ActionProposal} {s : PolicySnapshot} {d : PolicyResult}
    {permit : ExecutionPermit} {u : World} {n : Nat} {now : Instant} {mid : Database}
    (h : Opened r call proposal s d permit v u w)
    (landed : Landed r (allowedRequest proposal d) permit proposal {} n w now mid v'.shared) :
    v'.shared.mutationLog = v.shared.mutationLog ++
      [(r.executor.execution permit proposal {} now).logRow] := by
  rw [landed.commits.mutationLog, (Injected.of_injectAll landed.injected).mutationLog,
    h.unwritten.mutationLog]

/-- An escalation adds the row of its ticket, if it is in time and about an order. -/
theorem Ticketed.log {orderId detail : String} {reason : ReasonCode}
    (h : Ticketed r orderId reason detail w v') :
    (r.clock.InTime w.own.session.readings (w.own.session.readings + 3) ∧
        (w.shared.orders.find? orderId).isSome →
      ∃ row, v'.shared.mutationLog = w.shared.mutationLog ++ [row] ∧
        row.action = .createSupportTicket ∧ row.resourceId = orderId) ∧
    (¬ (r.clock.InTime w.own.session.readings (w.own.session.readings + 3) ∧
        (w.shared.orders.find? orderId).isSome) →
      v'.shared.mutationLog = w.shared.mutationLog) := by
  cases h with
  | unknown missing shared => exact ⟨fun h => by simp [missing] at h, fun _ => by rw [shared]⟩
  | late late found unwritten =>
      exact ⟨fun h => absurd h.1 late, fun _ => unwritten.mutationLog⟩
  | written order ticket permit y now mid found proposed equipped landed kept =>
      have hresource : permit.resourceId = orderId := by
        rw [equipped.issued]
        exact Database.fetchOrder_orderId found
      refine ⟨fun _ => ⟨(r.executor.execution permit ticket
        { reasonCode := str reason, summary := ticket.reason } now).logRow, ?_,
        Runner.ticketProposal_action proposed, hresource⟩, fun h => absurd ⟨?_, ?_⟩ h⟩
      · rw [landed.commits.mutationLog, (Injected.of_injectAll landed.injected).mutationLog,
          (Unwritten.equipped equipped).mutationLog]
      · have hin := landed.inTime
        rwa [equipped.readings] at hin
      · rw [Database.fetchOrder_eq_some.mp found]
        rfl

/-- It adds one row at most, that of its ticket. -/
theorem Ticketed.row {orderId detail : String} {reason : ReasonCode}
    (h : Ticketed r orderId reason detail w v') :
    v'.shared.mutationLog = w.shared.mutationLog ∨
      ∃ row, v'.shared.mutationLog = w.shared.mutationLog ++ [row] ∧
        row.action = .createSupportTicket ∧ row.resourceId = orderId := by
  obtain ⟨hwritten, hunwritten⟩ := h.log
  by_cases hcond : r.clock.InTime w.own.session.readings (w.own.session.readings + 3) ∧
      (w.shared.orders.find? orderId).isSome
  · exact .inr (hwritten hcond)
  · exact .inl (hunwritten hcond)

/-- **Every call that returns meets its fate.** -/
theorem Tried.fate (hrun : Running r spec v) {n : Nat} {orderId : String} {step : Attempt}
    {stepOrderId : String} (ht : Tried r n orderId v v' call (.ok (step, stepOrderId))) :
    (call.fate r).Leads step v.shared.mutationLog v'.shared.mutationLog := by
  have hstart := ht.called.start
  cases ht.verdict rfl hrun with
  | rejected reason invalid shared last =>
      have hfate : call.fate r = .refused := by simp [Call.fate, invalid]
      rw [hfate]
      exact ⟨⟨rfl, rfl, rfl⟩, by rw [shared]⟩
  | denied proposal s d judged decision shared last =>
      have hfate : call.fate r = .refused := by
        simp [Call.fate, judged.valid, judged.judged, decision]
      rw [hfate]
      exact ⟨⟨rfl, rfl, rfl⟩, by rw [shared]⟩
  | escalated proposal s d w judged decision idle aging ticketed last =>
      have hfate : call.fate r = if call.InTime r 3 ∧
          (call.start.shared.orders.find? proposal.orderId).isSome then .ticketed
          else .unticketed := by
        simp [Call.fate, judged.valid, judged.judged, decision]
      obtain ⟨hticket, hnone⟩ := ticketed.log
      rw [idle.readings, idle.shared] at hticket hnone
      rw [hfate]
      split_ifs with hcond
      · rw [Call.InTime, hstart] at hcond
        obtain ⟨row, hrow, haction, -⟩ := hticket hcond
        exact ⟨⟨rfl, rfl, rfl⟩, row, hrow, haction⟩
      · rw [Call.InTime, hstart] at hcond
        exact ⟨⟨rfl, rfl, rfl⟩, hnone hcond⟩
  | late proposal s d permit u w opened late idle last =>
      have hfate : call.fate r = .refused := by
        simp [Call.fate, opened.valid, opened.judged, opened.decision, late]
      rw [hfate]
      refine ⟨⟨rfl, rfl, rfl⟩, ?_⟩
      rw [idle.shared, opened.unwritten.mutationLog]
  | beyond proposal s d permit u w opened inTime beyond shared last =>
      have hfate : call.fate r = .refused := by
        simp [Call.fate, opened.valid, opened.judged, opened.decision, beyond]
      rw [hfate]
      refine ⟨⟨rfl, rfl, rfl⟩, ?_⟩
      rw [shared, opened.unwritten.mutationLog]
  | overtaken proposal s d permit u w opened inTime within overtaken injected keys settled
      readings loses last =>
      have hfate : call.fate r = if r.allowReplanOnStale then .stale else .refused := by
        simp [Call.fate, opened.valid, opened.judged, opened.decision, inTime, within,
          overtaken]
      have hlog : v'.shared.mutationLog = v.shared.mutationLog := by
        rw [injected.mutationLog, opened.unwritten.mutationLog]
      rw [hfate]
      -- denied, planned again, or handed over
      rcases r.conclude_stale d n d.resourceId with ⟨hdeny, hc⟩ | ⟨hallow, hc⟩ | ⟨hallow, hc⟩
      · rw [hc, if_neg (by simp [hdeny])]
        exact ⟨⟨rfl, rfl, rfl⟩, hlog⟩
      · rw [hc, if_pos hallow]
        exact ⟨.inl rfl, hlog⟩
      · rw [hc, if_pos hallow]
        exact ⟨.inr rfl, hlog⟩
  | completed proposal s d permit u w now mid opened landed onTime confirmed last =>
      have hin := landed.inTime
      rw [← opened.inTime_iff 1] at hin
      have hfate : call.fate r = .completed := by
        have hwithin : proposal.amount ≤ d.maxAmountCents := landed.within
        simp only [Call.fate, opened.valid, opened.judged, opened.decision, hin, onTime,
          not_true_eq_false, not_lt.mpr hwithin, or_self, if_false]
        rw [if_neg fun h => h.2 (confirmed h.1)]
      rw [hfate]
      exact ⟨⟨rfl, rfl, rfl⟩, _, opened.mutationLog landed⟩
  | unconfirmed proposal s d permit u w now mid opened landed onTime loses late last =>
      have hin := landed.inTime
      rw [← opened.inTime_iff 1] at hin
      have hfate : call.fate r = .unconfirmed := by
        have hwithin : proposal.amount ≤ d.maxAmountCents := landed.within
        simp only [Call.fate, opened.valid, opened.judged, opened.decision, hin, onTime,
          not_true_eq_false, not_lt.mpr hwithin, or_self, if_false]
        rw [if_pos ⟨loses, late⟩]
      rw [hfate]
      exact ⟨⟨rfl, rfl, rfl⟩, _, opened.mutationLog landed⟩

/-- Only stale state makes an attempt ask for more. -/
theorem Tried.stale (hrun : Running r spec v) {n : Nat} {orderId : String} {step : Attempt}
    {stepOrderId : String} (ht : Tried r n orderId v v' call (.ok (step, stepOrderId)))
    (hmore : step.replan = true ∨ step.escalateAfterReplan = true) :
    call.fate r = .stale ∧ v'.shared.mutationLog = v.shared.mutationLog := by
  have settled : ∀ {outcome : Outcome}, ¬ step.Settles outcome := by
    intro outcome hs
    rw [hs.replan, hs.escalateAfterReplan] at hmore
    exact hmore.elim (fun h => by cases h) fun h => by cases h
  have hfate := ht.fate hrun
  cases hf : call.fate r <;> rw [hf] at hfate
  case stale => exact ⟨rfl, hfate.2⟩
  all_goals exact absurd hfate.1 settled

end Fates

/-! ## The first loop -/

/-- Nothing has been written yet, and the calls were made in a good state. -/
structure Unspoilt (r : Runner) (spec : FailureSpec) (G : Call → Prop) (v : World) : Prop
    extends Rested r spec v where
  mutationLog : v.shared.mutationLog = []
  calls : ∀ call ∈ v.own.history, G call

/-- What the first loop leaves: an outcome that is promised something, or stale state for the
order of the last proposal. -/
def Runner.Plans (r : Runner) (spec : FailureSpec) (G : Call → Prop)
    (Q : Planned → World → Prop) (planned : Planned) (v : World) : Prop :=
  planned.Leaves (Q planned v) fun orderId => Unspoilt r spec G v ∧
    ∃ call earlier proposal, v.own.history = call :: earlier ∧
      validate r.intFromText call.raw = .ok proposal ∧ SameKeys call.start.shared v.shared ∧
      orderId = proposal.orderId

section Loop

variable {r : Runner} {spec : FailureSpec} {c : FixedClock} {v v' : World} {G : Call → Prop}

/-- At the beginning nothing is spoilt. -/
theorem Unspoilt.start {db : Database} (hseeded : db.Seeded) (proposals : List RawProposal) :
    Unspoilt r spec G ⟨db, r.start proposals spec⟩ :=
  ⟨Rested.start hseeded proposals, hseeded.mutationLog, fun call hcall => by cases hcall⟩

/-- Nor does time spoil anything. -/
theorem Unspoilt.ticks (h : Unspoilt r spec G v) {k : Nat} (hticks : Ticks k v v') :
    Unspoilt r spec G v' where
  toRested := h.toRested.ticks hticks
  mutationLog := hticks.shared ▸ h.mutationLog
  calls := hticks.history ▸ h.calls

/-- Stale state is no spoil. -/
theorem Unspoilt.tried (h : Unspoilt r spec G v) (hclock : r.clock = c.now)
    (hstale : ∀ call, call.start.shared.mutationLog = [] → call.fate r = .stale → G call)
    {n : Nat} {orderId : String} {call : Call} {step : Attempt} {stepOrderId : String}
    (ht : Tried r n orderId v v' call (.ok (step, stepOrderId)))
    (hmore : step.replan = true ∨ step.escalateAfterReplan = true) : Unspoilt r spec G v' := by
  obtain ⟨hfate, hlog⟩ := ht.stale h.toRunning hmore
  refine ⟨(h.toRested.tried hclock ht).2 (.inr hmore), hlog.trans h.mutationLog, ?_⟩
  rw [ht.called.history]
  refine List.forall_mem_cons.mpr ⟨hstale call ?_ hfate, h.calls⟩
  rw [ht.called.start]
  exact h.mutationLog

/-- An attempt that asks for more is about the order of its proposal, and has kept the keys. -/
theorem Tried.proposal_of_stale (hrun : Running r spec v) {n : Nat} {orderId : String}
    {call : Call} {step : Attempt} {stepOrderId : String}
    (ht : Tried r n orderId v v' call (.ok (step, stepOrderId)))
    (hmore : step.replan = true ∨ step.escalateAfterReplan = true) :
    ∃ proposal, validate r.intFromText call.raw = .ok proposal ∧
      textOr stepOrderId orderId = proposal.orderId ∧
      SameKeys call.start.shared v'.shared := by
  rw [ht.called.start]
  cases ht.verdict rfl hrun with
  | overtaken proposal s d permit u w opened inTime within overtaken injected keys =>
      refine ⟨proposal, opened.valid, if_neg fun hempty => ?_, SameKeys.trans ?_ keys⟩
      · have hlength := proposal.orderId_length.1
        rw [hempty] at hlength
        exact absurd hlength (by decide)
      · obtain ⟨permits, -, heq⟩ := Database.insertPermit_eq_ok.mp opened.equipped.inserted
        rw [heq, opened.idle.shared]
        exact SameKeys.of_eq rfl rfl
  | _ => simp at hmore

/-- **The rule for the first loop** of a run that starts with nothing written. -/
theorem Unspoilt.planning (h : Unspoilt r spec G v) (hclock : r.clock = c.now)
    {Q : Planned → World → Prop}
    (hstale : ∀ call, call.start.shared.mutationLog = [] → call.fate r = .stale → G call)
    (hends : ∀ n orderId v v' call step stepOrderId, Unspoilt r spec G v →
      Tried r n orderId v v' call (.ok (step, stepOrderId)) → step.replan = false →
      step.escalateAfterReplan = false → ∀ orderId,
        Q { outcome := step.outcome, reasonCode := step.reasonCode, orderId } v')
    {res : Except PyError Planned} (hp : Planning r r.attempts r.defaultOrderId v v' res) :
    Ends (r.Plans spec G Q) (fun _ _ => True) res v' := by
  refine hp.rule r.mayAttempt_attempts (I := fun _ => Unspoilt r spec G) (E := fun _ _ => True)
    (fun n _ => h) ?_ (fun _ _ _ _ _ _ _ _ => trivial) ?_ ?_
  · intro orderId v t u call step stepOrderId h tried hreplan ticks
    exact (h.tried hclock hstale tried (.inl hreplan)).ticks ticks
  · intro n orderId v v' call step stepOrderId h tried hescalate
    obtain ⟨proposal, hvalid, horder, hkeys⟩ :=
      tried.proposal_of_stale h.toRunning (.inr hescalate)
    exact .inr ⟨_, rfl, h.tried hclock hstale tried (.inr hescalate), call, v.own.history,
      proposal, tried.called.history, hvalid, hkeys, horder⟩
  · intro n orderId v v' call step stepOrderId h tried hreplan hescalate
    exact .inl ⟨rfl, hends _ _ _ _ _ _ _ h tried hreplan hescalate _⟩

/-- **The rule for the escalation behind it**: it is asked for behind stale state only, has a
permit of its own, and leaves nothing to be replayed. -/
theorem Runner.Plans.handedOver {Q H : Planned → World → Prop} {planned : Planned}
    (h : r.Plans spec G Q planned v) (haside : Aside v v')
    (hhanded : HandedOver r planned v v' (.ok ())) (keep : Q planned v → H planned v)
    (hand : ∀ call earlier proposal, v.own.history = call :: earlier →
      validate r.intFromText call.raw = .ok proposal → SameKeys call.start.shared v.shared →
      Unspoilt r spec G v → Ticketed r proposal.orderId .staleResourceVersion staleDetail v v' →
      Rested r spec v' → H (.stale proposal.orderId) v') : H planned v' := by
  refine hhanded.rule (P := fun res v' => res = .ok () → H planned v') h (fun h _ => keep h) ?_ rfl
  rintro _ res rfl ⟨hclean, call, earlier, proposal, hhistory, hvalid, hkeys, rfl⟩ escalated hok
  cases res with
  | error err => cases hok
  | ok ticket =>
      exact hand call earlier proposal hhistory hvalid hkeys hclean
        (escalated.ticketed rfl hclean.toRunning) (hclean.toRested.escalated haside escalated)

end Loop

end BoundedRefund
