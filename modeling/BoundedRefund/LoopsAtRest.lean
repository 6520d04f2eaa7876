import BoundedRefund.Fates

/-!
# Loops that come to rest

A run may present its last permit once more when its loops are over.  By then the loops have
come to rest (`Looped.atRest`): the last permit is spent, or its row has moved on, or its time
is over, or it never covered what is asked of it.  None of this changes before the replay, so
the replay writes nothing (`replay_changes_nothing`), even if changes of the scenario still
wait for the next commit.

What holds at the end of the loops is proved along with that, by one rule (`Runner.Leads`): a
statement about runs that report says what a step that ends the first loop makes hold, what the
escalation behind stale state does, and what a round of the chain does, and the rule does the
rest (`Runner.Leads.reported`).
-/

namespace BoundedRefund

open Concurrent Relational

namespace Runner

variable (r : Runner)

/-- A run up to where it may present its last permit again. -/
def loops : Py Planned := do
  Py.emit r.clock
    { eventType := .userRequestReceived, resourceId := r.defaultOrderId,
      decisionOwner := .planner }
  let planned ← r.plan r.attempts r.defaultOrderId
  r.handOver planned
  let left ← Py.own fun s => s.planner.remaining
  r.chain planned left

/-- Behind the loops there are only the replay and the report. -/
theorem run_eq_loops : r.run = r.loops >>= fun planned =>
    if r.replayLastPermit then r.replay >>= fun _ => r.finish planned else r.finish planned := by
  simp only [run, loops, bind_assoc]

end Runner

/-- What the loops did, told as a run. -/
theorem run_loops {r : Runner} {v y : World} {last : Planned}
    (haudit : v.own.session.audit.isSome = true) (h : r.loops.run v = (.ok last, y)) :
    Looped r v y last := by
  obtain ⟨t, ht, h⟩ := Py.run_emit_bind_audited haudit h
  have haudit := ht.audited.trans haudit
  obtain ⟨planned, u, hplan, h⟩ := Prog.run_bind_eq_ok h
  have hplanning := run_plan haudit hplan
  have haudit := hplanning.carries.audited.trans haudit
  obtain ⟨_, w, hhand, h⟩ := Prog.run_bind_eq_ok h
  obtain ⟨haside, hhanded⟩ := run_handOver haudit hhand
  have haudit := haside.audited.trans haudit
  have h := Py.run_own_bind h
  exact ⟨t, u, w, planned, ht, hplanning, haside, hhanded, run_chain haudit le_rfl h⟩

/-! ## At rest -/

/-- What holds behind the first loop, and behind every round of the chain: a replay would
write nothing, and where the run may go on, nothing is left to be replayed at all. -/
structure AtRest (r : Runner) (spec : FailureSpec) (Q : Planned → World → Prop)
    (planned : Planned) (v : World) : Prop where
  holds : Q planned v
  quiet : r.Quiet v
  rested : planned.outcome = .completed → Rested r spec v

/-- **What the loops lead to.**  `G` is what a call has to be as long as nothing is written, `Q`
holds where the loops may go on, and `K` where they stop.  Each field is about one step. -/
structure Runner.Leads (r : Runner) (spec : FailureSpec) (G : Call → Prop)
    (Q K : Planned → World → Prop) : Prop where
  stale : ∀ call, call.start.shared.mutationLog = [] → call.fate r = .stale → G call
  /-- A step that ends the first loop. -/
  first : ∀ n orderId v v' call step stepOrderId, Unspoilt r spec G v →
    Tried r n orderId v v' call (.ok (step, stepOrderId)) → step.replan = false →
    step.escalateAfterReplan = false → ∀ orderId,
      Q { outcome := step.outcome, reasonCode := step.reasonCode, orderId } v'
  /-- The escalation behind stale state. -/
  hand : ∀ call earlier proposal v v', v.own.history = call :: earlier →
    validate r.intFromText call.raw = .ok proposal → SameKeys call.start.shared v.shared →
    Unspoilt r spec G v → Aside v v' →
    Ticketed r proposal.orderId .staleResourceVersion staleDetail v v' →
    Q (.stale proposal.orderId) v'
  /-- A round of the chain. -/
  next : ∀ planned v v' call step orderId, Q planned v → planned.outcome = .completed →
    Running r spec v → Tried r 1 planned.orderId v v' call (.ok (step, orderId)) →
    step.replan = false → step.escalateAfterReplan = false →
    Q { planned with outcome := step.outcome, reasonCode := step.reasonCode, orderId } v'
  /-- A round that is dropped, which ends the chain. -/
  drop : ∀ planned v v' call step orderId, Q planned v → planned.outcome = .completed →
    Running r spec v → Tried r 1 planned.orderId v v' call (.ok (step, orderId)) →
    step.replan = true ∨ step.escalateAfterReplan = true → K { planned with orderId } v'
  stop : ∀ planned v, Q planned v → K planned v

section AtRest

variable {r : Runner} {spec : FailureSpec} {c : FixedClock} {v v' : World}
variable {G : Call → Prop} {Q K : Planned → World → Prop} {planned last : Planned}

namespace Runner.Leads

/-- The escalation behind stale state presents a permit of its own. -/
theorem handedOver (h : r.Leads spec G Q K) (hplans : r.Plans spec G (AtRest r spec Q) planned v)
    (haside : Aside v v') (hhanded : HandedOver r planned v v' (.ok ())) :
    AtRest r spec Q planned v' :=
  hplans.handedOver haside hhanded id
    fun call earlier proposal hhistory hvalid hkeys hclean hticketed hrested =>
      ⟨h.hand call earlier proposal v v' hhistory hvalid hkeys hclean haside hticketed,
        hrested.quiet, fun _ => hrested⟩

/-- The chain goes on from completed steps only. -/
theorem chained (h : r.Leads spec G Q K) (hclock : r.clock = c.now)
    (hrest : AtRest r spec Q planned v) (hc : Chained r planned v v' (.ok last)) :
    K last v' ∧ r.Quiet v' := by
  refine hc.leads_ok (J := AtRest r spec Q) (K := fun planned v => K planned v ∧ r.Quiet v) hrest
    (fun planned v hrest => ⟨h.stop planned v hrest.holds, hrest.quiet⟩) ?_
  intro planned v v' call step orderId hrest hcompleted tried
  have hv := hrest.rested hcompleted
  obtain ⟨hquiet, hrested⟩ := hv.tried hclock tried
  refine ⟨fun hmore => ⟨?_, hquiet⟩, fun hreplan hescalate => ⟨?_, hquiet, ?_⟩⟩
  · exact h.drop planned v v' call step orderId hrest.holds hcompleted hv.toRunning tried hmore
  · exact h.next planned v v' call step orderId hrest.holds hcompleted hv.toRunning tried hreplan
      hescalate
  · exact fun hdone => hrested (.inl hdone)

/-- **The rule for loops that end.**  What every step makes hold holds behind them, and they are
at rest then. -/
theorem looped {y : World} (h : r.Leads spec G Q K) (hclock : r.clock = c.now)
    (hstart : Unspoilt r spec G v) (hlooped : Looped r v y last) : K last y ∧ r.Quiet y := by
  obtain ⟨t, u, w, planned, begun, planning, aside, handed, chained⟩ := hlooped
  have hplans : r.Plans spec G (AtRest r spec Q) planned u := by
    refine (hstart.ticks begun).planning hclock h.stale (Q := AtRest r spec Q) ?_ planning
    intro n orderId v v' call step stepOrderId hv tried hreplan hescalate planId
    obtain ⟨hquiet, hrested⟩ := hv.toRested.tried hclock tried
    exact ⟨h.first n orderId v v' call step stepOrderId hv tried hreplan hescalate planId, hquiet,
      fun hcompleted => hrested (.inl hcompleted)⟩
  exact h.chained hclock (h.handedOver hplans aside handed) chained

/-- **The rule for runs that report.**  What the loops lead to is what the report is about; the
replay behind them writes nothing. -/
theorem reported {db : Database} {proposals : List RawProposal} {report : RunReport}
    (h : r.Leads spec G Q K) (hclock : r.clock = c.now) (hseeded : db.Seeded)
    (hrun : r.run.run ⟨db, r.start proposals spec⟩ = (.ok report, v')) :
    ∃ last y, K last y ∧ report.outcome = last.outcome ∧ report.reasonCode = last.reasonCode ∧
      v'.shared = y.shared ∧ v'.own.history = y.own.history := by
  have hstart : Unspoilt r spec G ⟨db, r.start proposals spec⟩ := Unspoilt.start hseeded proposals
  obtain ⟨last, y, z, hlooped, steady, replayed, outcome, reasonCode, shared, history⟩ :=
    (run_run hstart.audited hrun).looped
  obtain ⟨hlast, hquiet⟩ := h.looped hclock hstart hlooped
  exact ⟨last, y, hlast, outcome, reasonCode, shared.trans (hquiet.replayed replayed),
    history.trans steady.history⟩

end Runner.Leads

end AtRest

/-- What the loops leave behind cannot be replayed. -/
theorem loops_quiet {r : Runner} {c : FixedClock} {db : Database} {proposals : List RawProposal}
    {spec : FailureSpec} {planned : Planned} {w : World} (hclock : r.clock = c.now)
    (hseeded : db.Seeded)
    (hloops : r.loops.run ⟨db, r.start proposals spec⟩ = (.ok planned, w)) : r.Quiet w := by
  have hstart : Unspoilt r spec (fun _ => True) ⟨db, r.start proposals spec⟩ :=
    Unspoilt.start hseeded proposals
  have hleads : r.Leads spec (fun _ => True) (fun _ _ => True) fun _ _ => True := by
    constructor <;> intros <;> trivial
  exact (hleads.looped hclock hstart (run_loops hstart.audited hloops)).2

/-! ## The replay -/

/-- **The deliberate replay changes nothing.**  Whatever a run was given, and whatever became
of its last execution: once its loops are over, it goes on with the replay and the report, and
the replay leaves every table as it is. -/
theorem replay_changes_nothing {r : Runner} {c : FixedClock} {db : Database}
    {proposals : List RawProposal} {spec : FailureSpec} {planned : Planned} {w : World}
    (hclock : r.clock = c.now) (hasked : r.replayLastPermit = true) (hseeded : db.Seeded)
    (hloops : r.loops.run ⟨db, r.start proposals spec⟩ = (.ok planned, w)) :
    r.run.run ⟨db, r.start proposals spec⟩ = (r.replay >>= fun _ => r.finish planned).run w ∧
      (r.replay.run w).2.shared = w.shared := by
  constructor
  · rw [Runner.run_eq_loops]
    change ((r.loops).bind _).run _ = _
    rw [Prog.run_bind, hloops]
    simp only [hasked, if_true]
  · obtain ⟨-, hreplayed⟩ := run_replay hasked (Prod.eta _).symm
    exact (loops_quiet hclock hseeded hloops).replayed hreplayed

/-- The loops of a run whose first cancellation is stale and whose second one commits. -/
def insistentLooped : Except PyError Planned × World :=
  insistentRunner.loops.run ⟨seedWorld [("ord_0001", .paid)],
    insistentRunner.start [.proposal cancelFirst, .proposal cancelFirst] orderMoves⟩

/-- A replay behind a refund changes nothing. -/
theorem replay_changes_nothing_insistent :
    insistentLooped.2.own.session.lastExecution.isSome ∧
    (insistentRunner.replay.run insistentLooped.2).2.shared = insistentLooped.2.shared := by
  have hok : insistentLooped.1.isOk = true := by decide +kernel
  refine ⟨by decide +kernel, ?_⟩
  rcases hrun : insistentLooped with ⟨err | planned, w⟩
  · rw [hrun] at hok
    cases hok
  · exact (replay_changes_nothing rfl rfl (seedWorld_seeded _) hrun).2

end BoundedRefund
