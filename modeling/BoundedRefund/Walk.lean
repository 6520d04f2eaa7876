import BoundedRefund.Runner

/-!
# The walk along a run

Some properties of programs hold of a whole run for one reason: they hold of each of its
statements, and sequencing and exception handlers keep them.  `Closed P` lists what that takes,
and the walk from the statements to `Runner.run` is made here once, for every such `P`.  Where
a stage calls the planner or asks it whether it is exhausted, more is needed (`Scripted`), and
a property that takes no notice of the planner goes as far as the stages between the calls.

This is for properties of the program alone.  Where something is said about what a stage
returns, what it costs, which events it adds or where it leaves the run, each stage says
something else, and the walk is that of `Executions` and `Rounds` or one of its own.
-/

namespace BoundedRefund

open Concurrent

/-! ## What keeps to itself -/

/-- The update has nothing to do with the planner, and the injector keeps its scenario. -/
structure Session.Aloof {α : Type} (f : Session → α × Session) : Prop where
  planner : ∀ (s : Session) planner, f { s with planner := planner } =
    ((f s).1, { (f s).2 with planner := planner })
  scenario : ∀ s, (f s).2.injector.map FailureInjector.spec = s.injector.map FailureInjector.spec

namespace Session.Aloof

/-- To record a call has nothing to do with the planner. -/
theorem record (tool : String) (arguments : List (String × PlainValue)) :
    Aloof fun s => ((), s.record tool arguments) := ⟨fun _ _ => rfl, fun _ => rfl⟩

theorem note (text : String) : Aloof fun s => ((), s.note text) :=
  ⟨fun _ _ => rfl, fun _ => rfl⟩

/-- Nor has an event. -/
theorem emit (clock : Clock) (fields : EventFields) :
    Aloof fun s => ((), s.emit clock fields) where
  planner s planner := by cases haudit : s.audit <;> simp [Session.emit, haudit]
  scenario s := by cases haudit : s.audit <;> simp [Session.emit, haudit]

/-- Nor has a read. -/
theorem readShouldFail (tool : String) : Aloof fun s => s.readShouldFail tool where
  planner s planner := by cases hi : s.injector <;> simp [Session.readShouldFail, hi]
  scenario s := by
    cases hi : s.injector <;> simp [Session.readShouldFail, hi, FailureInjector.readShouldFail]

theorem shouldTimeoutAfterCommit (action : String) :
    Aloof fun s => s.shouldTimeoutAfterCommit action where
  planner s planner := by cases hi : s.injector <;> simp [Session.shouldTimeoutAfterCommit, hi]
  scenario s := by
    cases hi : s.injector with
    | none => simp [Session.shouldTimeoutAfterCommit, hi]
    | some injector =>
        simp only [Session.shouldTimeoutAfterCommit, hi, FailureInjector.shouldTimeoutAfterCommit]
        split_ifs <;> rfl

/-- Nor have injected changes. -/
theorem preCommit (action : String) : Aloof fun s => s.preCommit action where
  planner s planner := by cases hi : s.injector <;> simp [Session.preCommit, hi]
  scenario s := by
    cases hi : s.injector with
    | none => simp [Session.preCommit, hi]
    | some injector =>
        simp only [Session.preCommit, hi, FailureInjector.preCommit]
        split_ifs <;> rfl

end Session.Aloof

/-! ## Closed properties -/

/-- A property of programs that the statements of a run have, but for those that ask the planner,
and that sequencing and exception handlers keep. -/
structure Closed (P : (α : Type) → Py α → Prop) : Prop where
  ret : ∀ {α : Type} (a : α), P α (pure a)
  fail : ∀ {α : Type} (e : PyError), P α (throw e)
  bind : ∀ {α β : Type} {p : Py α} {k : α → Py β}, P α p → (∀ a, P β (k a)) → P β (p >>= k)
  tryCatch : ∀ {α : Type} {p : Py α} {handler : PyError → Py α}, P α p →
    (∀ e, P α (handler e)) → P α (MonadExcept.tryCatch p handler)
  query : ∀ {α : Type} (g : Database → Except PyError α), P α (Py.query g)
  own : ∀ {α : Type} {g : Session → α},
    (∀ (s : Session) planner, g { s with planner := planner } = g s) → P α (Py.own g)
  update : ∀ {α : Type} {f : Session → α × Session}, Session.Aloof f → P α (Py.update f)
  /-- What becomes known about a call is not where it began. -/
  callLearns : ∀ {f : Call → Call},
    (∀ call start, f { call with start := start } = { f call with start := start }) →
      P Unit (Py.callLearns f)
  issue : ∀ (permit : ExecutionPermit) (row : PermitRow), P ExecutionPermit
    (Py.transaction fun db => (db.insertPermit row).map fun db => (permit, db))
  applyPreCommit : ∀ action, P Unit (Py.applyPreCommit action)
  commit : ∀ (e : Executor) permit proposal texts now, P ExecutionResult
    (Py.transaction (e.commitAll (e.authorization permit) permit proposal texts now))

/-- The statements that ask the planner have it too. -/
structure Scripted (P : (α : Type) → Py α → Prop) : Prop extends Closed P where
  propose : ∀ attempt, P RawProposal (Py.propose attempt)
  look : ∀ {α : Type} (g : Session → α), P α (Py.own g)

namespace Closed

variable {P : (α : Type) → Py α → Prop} (h : Closed P) {α : Type}

include h

/-- What is computed without the world. -/
theorem raising (result : Except PyError α) : P α (Py.raising result) := by
  cases result with
  | ok a => exact h.ret a
  | error e => exact h.fail e

/-- A change of the session that does not see the planner. -/
theorem touch {f : Session → Session} (hf : Session.Aloof fun s => ((), f s)) :
    P Unit (Py.touch f) := h.update hf

theorem now (clock : Clock) : P Instant (Py.now clock) :=
  h.update ⟨fun _ _ => rfl, fun _ => rfl⟩

theorem emit (clock : Clock) (fields : EventFields) : P Unit (Py.emit clock fields) :=
  h.update (.emit clock fields)

theorem record (tool : String) (arguments : List (String × PlainValue)) :
    P Unit (Py.record tool arguments) := h.update (.record tool arguments)

/-- A permit is a number, a reading and a row. -/
theorem issuePermit (issuer : PermitIssuer) (request : PermitRequest) :
    P ExecutionPermit (issuer.issuePermit request) :=
  h.bind (h.update ⟨fun _ _ => rfl, fun _ => rfl⟩) fun _ => h.bind (h.now _) fun _ => h.issue _ _

/-! ### The executor -/

section Executor

variable (e : Executor) (proposal : ActionProposal) (permit : Option ExecutionPermit)

/-- An event looks its target up. -/
theorem executorEmit (eventType : EventType) (result : Option ExecutionResult)
    (extra : List (String × PlainValue)) :
    P Unit (e.emit eventType proposal permit result extra) := by
  refine h.bind (h.own fun _ _ => rfl) fun audited => ?_
  split_ifs
  · exact h.bind (h.query _) fun _ => h.emit _ _
  · exact h.ret ()

/-- A commit. -/
theorem executorCommit (permit : ExecutionPermit) (texts : TicketTexts) :
    P ExecutionResult (e.commit permit proposal texts) := by
  have hmint : WriteAuthorization.mint executorToken (e.authorization permit) =
      .ok (e.authorization permit) := if_pos rfl
  unfold Executor.commit
  rw [hmint]
  show P ExecutionResult (Py.now e.clock >>= _)
  refine h.bind (h.now _) fun instant => h.bind (h.record _ _) fun _ => ?_
  refine h.tryCatch (h.commit e _ _ _ _) fun err => ?_
  cases err with
  | staleResource resourceId version => exact h.ret _
  | _ => exact h.fail _

/-- The checks, and the commit behind them. -/
theorem runChecks (texts : TicketTexts) :
    P ExecutionResult (e.runChecks permit proposal texts) := by
  cases permit with
  | none => exact h.ret _
  | some permit =>
      unfold Executor.runChecks
      dsimp only
      split_ifs with haction
      · exact h.ret _
      refine h.bind (h.query _) fun target => ?_
      cases target with
      | none => exact h.ret _
      | some target =>
          dsimp only
          split_ifs with hresource
          · exact h.ret _
          refine h.bind (h.now _) fun now => h.bind (h.raising _) fun expiresAt => ?_
          split_ifs with hexpired
          · exact h.ret _
          refine h.bind (h.query _) fun stored => h.bind (h.raising _) fun answer => ?_
          cases answer with
          | some result => exact h.ret _
          | none =>
              exact h.bind (h.applyPreCommit _) fun _ => h.executorCommit e proposal permit texts

/-- An answer. -/
theorem respond (result : ExecutionResult) :
    P ExecutionResult (e.respond proposal permit result) := by
  unfold Executor.respond
  split_ifs
  · refine h.bind (h.executorEmit _ _ _ _ _ _) fun _ => ?_
    refine h.bind (h.update (.shouldTimeoutAfterCommit _)) fun lost => ?_
    split_ifs
    · cases permit <;> exact h.fail _
    · exact h.ret _
  · exact h.bind (h.executorEmit _ _ _ _ _ _) fun _ => h.ret _
  · exact h.bind (h.executorEmit _ _ _ _ _ _) fun _ => h.ret _

/-- One presentation of a permit. -/
theorem execute (permitId : Option String) (texts : TicketTexts) :
    P ExecutionResult (e.execute permitId proposal texts) :=
  h.bind (h.query _) fun permit => h.bind (h.executorEmit _ _ _ _ _ _) fun _ =>
    h.bind (h.runChecks _ _ _ _) fun result => h.respond e proposal permit result

end Executor

/-! ### The read tools -/

/-- A read with what is left of its attempts. -/
theorem call (tool : String) (arguments : List (String × PlainValue))
    (fetch : Database → Except PyError α) (made left : Nat) :
    P α (ReadTools.call tool arguments fetch made left) := by
  induction left generalizing made with
  | zero => exact h.fail _
  | succ left ih =>
      refine h.bind (h.record _ _) fun _ => ?_
      refine h.bind (h.update (.readShouldFail _)) fun fails => ?_
      split_ifs
      · exact ih _
      · exact h.query _

/-- A read that may fail. -/
theorem recovering {read : Py (Option α)} (hread : P (Option α) read) :
    P (Option α × List String) (ReadTools.recovering read) := by
  refine h.tryCatch (h.bind hread fun _ => h.ret _) fun err => ?_
  cases err with
  | readUnavailable tool attempts => exact h.ret _
  | _ => exact h.fail _

theorem optional (needed : Bool) {read : Py (Option α)} (hread : P (Option α) read) :
    P (Option α × List String) (ReadTools.optional needed read) := by
  unfold ReadTools.optional
  split_ifs
  · exact h.recovering hread
  · exact h.ret _

/-! ### The runner -/

section Runner

variable (r : Runner)

/-- All the reads of a proposal. -/
theorem snapshot (proposal : ActionProposal) : P PolicySnapshot (r.snapshot proposal) := by
  refine h.bind (h.recovering (h.call _ _ _ _ _)) fun order => ?_
  refine h.bind (h.optional _ (h.call _ _ _ _ _)) fun payment => ?_
  refine h.bind (h.optional _ (h.call _ _ _ _ _)) fun shipment => ?_
  refine h.bind ?_ fun refundPolicy => h.bind (h.now _) fun now => h.ret _
  unfold ReadTools.policyOf
  split
  · exact h.ret _
  · exact h.optional _ (h.call _ _ _ _ _)

/-- A presentation, and its retry. -/
theorem executeWithRetry (permitId : String) (proposal : ActionProposal) :
    P ExecutionResult (r.executeWithRetry permitId proposal) := by
  refine h.tryCatch (h.execute _ _ _ _) fun err => ?_
  cases err with
  | responseTimeout tool key =>
      exact h.bind (h.touch ⟨fun _ _ => rfl, fun _ => rfl⟩) fun _ => h.execute _ _ _ _
  | _ => exact h.fail _

/-- A hand-over. -/
theorem escalate (orderId : String) (reason : ReasonCode) (detail : String) :
    P (Option ExecutionResult) (r.escalate orderId reason detail) := by
  refine h.bind (h.query _) fun order => ?_
  cases order with
  | none => exact h.bind (h.touch (.note _)) fun _ => h.ret _
  | some order =>
      refine h.bind (h.raising _) fun proposal => h.bind (h.issuePermit _ _) fun permit => ?_
      exact h.bind (h.emit _ _) fun _ => h.bind (h.execute _ _ _ _) fun result => h.ret _

/-- An allowed proposal. -/
theorem executeAllowed (proposal : ActionProposal) (decision : PolicyResult) (attempt : Nat) :
    P Attempt (r.executeAllowed proposal decision attempt) := by
  refine h.bind (h.issuePermit _ _) fun permit => ?_
  refine h.bind (h.callLearns fun _ _ => rfl) fun _ => h.bind (h.emit _ _) fun _ => ?_
  refine h.bind (h.touch ⟨fun _ _ => rfl, fun _ => rfl⟩) fun _ => ?_
  refine h.bind (h.executeWithRetry r _ _) fun result => ?_
  exact h.bind (h.callLearns fun _ _ => rfl) fun _ => h.ret _

/-- What follows on a decision. -/
theorem proceed (proposal : ActionProposal) (snapshot : PolicySnapshot) (decision : PolicyResult)
    (attempt : Nat) : P Attempt (r.proceed proposal snapshot decision attempt) := by
  unfold Runner.proceed
  split_ifs
  · exact h.bind (h.emit _ _) fun _ => h.ret _
  · exact h.bind (h.emit _ _) fun _ => h.bind (h.escalate r _ _ _) fun _ => h.ret _
  · exact h.bind (h.emit _ _) fun _ => h.executeAllowed r _ _ _

end Runner

end Closed

/-! ## An attempt, from the proposal on -/

/-- `_attempt`, from the proposal on. -/
def Runner.takeUp (r : Runner) (attempt : Nat) (orderId : String) (raw : RawProposal) :
    Py (Attempt × String) := do
  Py.emit r.clock
    { eventType := .proposalCreated, resourceId := textOr (rawOrderId raw) orderId,
      decisionOwner := .planner, extra := [("attempt", .int attempt)] }
  match validate r.intFromText raw with
  | .error reason => do
      Py.emit r.clock
        { eventType := .proposalRejected, resourceId := textOr (rawOrderId raw) orderId,
          decisionOwner := .policy, reasonCode := reason }
      return ({ outcome := .denied, reasonCode := reason }, orderId)
  | .ok proposal => do
      Py.emit r.clock
        { eventType := .proposalValidated, resourceId := proposal.orderId,
          decisionOwner := .policy, extra := [("action", .str (str proposal.action))] }
      let snapshot ← r.snapshot proposal
      let decision ← Py.raising (evaluate (some proposal) snapshot)
      Py.callLearns fun call => { call with judged := some (snapshot, decision) }
      let step ← r.proceed proposal snapshot decision attempt
      return (step, proposal.orderId)

/-- An attempt asks the planner, and takes up what it says. -/
theorem Runner.attempt_eq (r : Runner) (attempt : Nat) (orderId : String) :
    r.attempt attempt orderId = Py.propose attempt >>= fun raw => r.takeUp attempt orderId raw :=
  rfl

namespace Closed

variable {P : (α : Type) → Py α → Prop} (h : Closed P) (r : Runner)

include h

/-- What is taken up. -/
theorem takeUp (attempt : Nat) (orderId : String) (raw : RawProposal) :
    P (Attempt × String) (r.takeUp attempt orderId raw) := by
  refine h.bind (h.emit _ _) fun _ => ?_
  cases validate r.intFromText raw with
  | error reason => exact h.bind (h.emit _ _) fun _ => h.ret _
  | ok proposal =>
      refine h.bind (h.emit _ _) fun _ => h.bind (h.snapshot r proposal) fun snapshot => ?_
      refine h.bind (h.raising _) fun decision => h.bind (h.callLearns fun _ _ => rfl) fun _ => ?_
      exact h.bind (h.proceed r _ _ _ _) fun step => h.ret _

theorem handOver (planned : Planned) : P Unit (r.handOver planned) := by
  unfold Runner.handOver
  split
  · exact h.ret _
  · exact h.bind (h.escalate r _ _ _) fun _ => h.ret _

theorem replay : P Unit r.replay := by
  refine h.bind (h.own fun _ _ => rfl) fun last => ?_
  cases last with
  | none => exact h.ret _
  | some presented =>
      exact h.bind (h.execute _ _ _ _) fun result => h.touch (.note _)

/-- The end of a run. -/
theorem finish (planned : Planned) : P RunReport (r.finish planned) := by
  have hverify : P VerifiedState (r.verify planned.orderId) :=
    h.bind (h.query _) fun _ => h.bind (h.query _) fun _ => h.bind (h.query _) fun _ =>
      h.bind (h.query _) fun _ => h.bind (h.emit _ _) fun _ => h.ret _
  have hreport : ∀ state, P RunReport (r.report planned.outcome planned.reasonCode state) :=
    fun state => h.bind (h.query _) fun _ => h.bind (h.query _) fun _ => h.bind (h.query _) fun _ =>
      h.bind (h.own fun _ _ => rfl) fun _ => h.bind (h.own fun _ _ => rfl) fun _ =>
        h.bind (h.own fun _ _ => rfl) fun _ => h.ret _
  exact h.bind hverify fun state => h.bind (hreport state) fun report =>
    h.bind (h.emit _ _) fun _ => h.ret _

end Closed

/-! ## The stages that ask the planner -/

namespace Scripted

variable {P : (α : Type) → Py α → Prop} (h : Scripted P) (r : Runner)

include h

/-- An attempt. -/
theorem attempt (number : Nat) (orderId : String) :
    P (Attempt × String) (r.attempt number orderId) :=
  h.bind (h.propose number) fun raw => h.takeUp r number orderId raw

/-- The first loop. -/
theorem plan (numbers : List Nat) (orderId : String) : P Planned (r.plan numbers orderId) := by
  induction numbers generalizing orderId with
  | nil => exact h.ret _
  | cons n rest ih =>
      refine h.bind (h.attempt r _ _) fun ⟨step, stepOrderId⟩ => ?_
      dsimp only
      split_ifs
      · exact h.bind (h.touch (.note _)) fun _ => ih _
      · exact h.ret _
      · exact h.ret _

/-- The second one. -/
theorem chain (planned : Planned) (fuel : Nat) : P Planned (r.chain planned fuel) := by
  induction fuel generalizing planned with
  | zero =>
      refine h.bind (h.look _) fun exhausted => ?_
      split_ifs
      · exact h.fail _
      · exact h.ret _
  | succ fuel ih =>
      refine h.bind (h.look _) fun exhausted => ?_
      split_ifs
      · refine h.bind (h.attempt r _ _) fun ⟨followUp, orderId⟩ => ?_
        dsimp only
        split_ifs
        · exact h.ret _
        · exact ih _
      · exact h.ret _

/-- **The walk.**  What is closed under the steps of a run holds of the run. -/
theorem run : P RunReport r.run := by
  refine h.bind (h.emit _ _) fun _ => h.bind (h.plan r _ _) fun planned => ?_
  refine h.bind (h.handOver r planned) fun _ => h.bind (h.look _) fun left => ?_
  refine h.bind (h.chain r _ _) fun planned => ?_
  dsimp only
  split_ifs
  · exact h.bind (h.replay r) fun _ => h.finish r planned
  · exact h.finish r planned

end Scripted

end BoundedRefund
