import BoundedRefund.Concurrent.Pool
import BoundedRefund.Failures
import BoundedRefund.Policy

/-!
# The world of one run

What a run holds besides its database connection: how often its clock has been
read, the permit sequence, the scripted planner, the failure injector, the audit
trace and the tool-call recorder.  Together with the shared database this is what
a statement of the run sees (`World`).

The primitives below are the only ways the modelled code touches a world, and
each of them is one atomic statement: a query, a transaction, an update of the
run's own objects.  With `isolation_level=None` every statement outside
`immediate_transaction` commits by itself, so others may write between any two of
them.

`Local.history` is a ghost.  It records what each call of `planner.propose` led
to, so that theorems can speak about the snapshot a decision was made on after
the run has forgotten it.  No definition of the model reads it.
-/

namespace BoundedRefund

open Concurrent

/-! ## The planner -/

/-- Replays a fixed sequence of proposals. -/
structure ScriptedPlanner where
  proposals : List RawProposal
  index : Nat := 0
  calls : Nat := 0

namespace ScriptedPlanner

/-- The next proposal, and `None` once there is none left. -/
def propose (p : ScriptedPlanner) : RawProposal × ScriptedPlanner :=
  match p.proposals[p.index]? with
  -- the call is counted, the index stays
  | none => (.none, { p with calls := p.calls + 1 })
  | some raw => (raw, { p with calls := p.calls + 1, index := p.index + 1 })

/-- `ScriptedPlanner.exhausted`. -/
def exhausted (p : ScriptedPlanner) : Bool := p.proposals.length ≤ p.index

/-- How many proposals are left. -/
def remaining (p : ScriptedPlanner) : Nat := p.proposals.length - p.index

/-- A call uses one proposal up, as long as there are some. -/
theorem remaining_propose (p : ScriptedPlanner) :
    p.propose.2.remaining = p.remaining - 1 := by
  unfold propose
  cases h : p.proposals[p.index]? with
  | none =>
      have hlen : p.proposals.length ≤ p.index := List.getElem?_eq_none_iff.mp h
      simp only [remaining]
      omega
  | some raw => simp only [remaining]; omega

/-- A script is exhausted when nothing remains of it. -/
theorem exhausted_iff {p : ScriptedPlanner} : p.exhausted = true ↔ p.remaining = 0 := by
  simp only [exhausted, remaining, decide_eq_true_eq]
  omega

end ScriptedPlanner

/-! ## The audit trace and the recorder -/

/-- `EVENT_ORDER`.  The trace refuses other event types, and no caller has one. -/
inductive EventType
  | userRequestReceived | proposalCreated | proposalValidated | proposalRejected
  | policyAllowed | policyDenied | permitIssued
  | mutationAttempted | mutationCommitted | mutationReplayed | mutationRejected
  | stateVerified | runFinished
deriving DecidableEq, Repr

/-- The plain values an event or a recorded call carries. -/
inductive PlainValue
  | none
  | int (n : Int)
  | str (s : String)
deriving DecidableEq, Repr

/-- `str(value)`. -/
def PlainValue.render : PlainValue → String
  | .none => "None"
  | .int n => toString n
  | .str s => s

/-- The keyword arguments of `AuditTrace.emit`. -/
structure EventFields where
  eventType : EventType
  resourceId : String := ""
  resourceVersion : Int := -1
  decisionOwner : DecisionOwner
  reasonCode : Option ReasonCode := none
  extra : List (String × PlainValue) := []
deriving DecidableEq, Repr

/-- An event: its arguments under the run they belong to, with the time. -/
structure Event extends EventFields where
  runId : String
  scenarioId : String
  timestamp : IsoText
deriving DecidableEq, Repr

/-- The trace of a run: the events, under the ids they all bear. -/
structure AuditTrace where
  runId : String
  scenarioId : String
  events : List Event := []
deriving DecidableEq, Repr

/-- `AuditTrace.emit`: one event more. -/
def AuditTrace.emit (audit : AuditTrace) (now : Instant) (fields : EventFields) : AuditTrace :=
  let event : Event :=
    { fields with runId := audit.runId, scenarioId := audit.scenarioId, timestamp := toIso now }
  { audit with events := audit.events ++ [event] }

/-- `ToolCallRecorder.record`: the call with its arguments in key order. -/
def renderCall (tool : String) (arguments : List (String × PlainValue)) : String :=
  let sorted := arguments.insertionSort fun a b => a.1 ≤ b.1
  tool ++ "(" ++ ",".intercalate (sorted.map fun a => a.1 ++ "=" ++ a.2.render) ++ ")"

/-! ## The objects of a run -/

/-- What a run keeps to itself. -/
structure Session where
  /-- How often the clock has been read. -/
  readings : Nat := 0
  /-- `PermitIssuer._sequence`. -/
  sequence : Nat := 0
  planner : ScriptedPlanner := { proposals := [] }
  injector : Option FailureInjector := none
  audit : Option AuditTrace := none
  /-- `ToolCallRecorder.calls`. -/
  recorder : Option (List String) := none
  lastExecution : Option (String × ActionProposal) := none
  notes : List String := []
  recovered : Bool := false

namespace Session

/-- Without a trace nothing is emitted and the clock is not read. -/
def emit (s : Session) (clock : Clock) (fields : EventFields) : Session :=
  match s.audit with
  | none => s
  | some audit =>
      { s with
        readings := s.readings + 1
        audit := some (audit.emit (clock s.readings) fields) }

/-- `ToolCallRecorder.record`, where there is a recorder. -/
def record (s : Session) (tool : String) (arguments : List (String × PlainValue)) : Session :=
  { s with recorder := s.recorder.map (· ++ [renderCall tool arguments]) }

/-- A note is added. -/
def note (s : Session) (text : String) : Session :=
  { s with notes := s.notes ++ [text] }

/-- Without an injector nothing ever fails. -/
def readShouldFail (s : Session) (tool : String) : Bool × Session :=
  match s.injector with
  | none => (false, s)
  | some injector =>
      ((injector.readShouldFail tool).1,
        { s with injector := some (injector.readShouldFail tool).2 })

/-- The changes due before a commit of the action, if failures are injected at all. -/
def preCommit (s : Session) (action : String) : List StateChange × Session :=
  match s.injector with
  | none => ([], s)
  | some injector =>
      ((injector.preCommit action).1,
        { s with injector := some (injector.preCommit action).2 })

/-- Whether the response to a commit of the action is lost. -/
def shouldTimeoutAfterCommit (s : Session) (action : String) : Bool × Session :=
  match s.injector with
  | none => (false, s)
  | some injector =>
      ((injector.shouldTimeoutAfterCommit action).1,
        { s with injector := some (injector.shouldTimeoutAfterCommit action).2 })

end Session

/-! ## Histories -/

/-- What one call of `planner.propose` led to. -/
structure Call where
  /-- The database and the session the call was made in. -/
  start : View Database Session
  attempt : Nat
  raw : RawProposal
  /-- The snapshot read for the proposal, and what the policy made of both. -/
  judged : Option (PolicySnapshot × PolicyResult) := none
  /-- The permit issued for an allowed proposal. -/
  permitId : Option String := none
  /-- The executor's last answer for it. -/
  answer : Option ExecutionResult := none

/-- A session with the ghost history of its calls, the latest one first. -/
structure Local where
  session : Session
  history : List Call := []

/-- What a statement of a run sees. -/
abbrev World := View Database Local

/-- The programs of the model. -/
abbrev Py := Prog PyError World

namespace Py

variable {α : Type}

/-- One read of the database. -/
def query (g : Database → Except PyError α) : Py α :=
  Prog.read fun w => g w.shared

/-- One look at the run's own objects. -/
def own (g : Session → α) : Py α :=
  Prog.read fun w => .ok (g w.own.session)

/-- One update of the run's own objects. -/
def update (f : Session → α × Session) : Py α :=
  Prog.atomically fun w =>
    (.ok (f w.own.session).1, ⟨w.shared, { w.own with session := (f w.own.session).2 }⟩)

/-- An update without a result. -/
def touch (f : Session → Session) : Py Unit :=
  update fun s => ((), f s)

/-- `with db.immediate_transaction(conn)`, or a single writing statement: all of it
or, if it raises, nothing. -/
def transaction (t : Database → Except PyError (α × Database)) : Py α :=
  Prog.atomically fun w =>
    match t w.shared with
    | .ok (a, db) => (.ok a, ⟨db, w.own⟩)
    | .error e => (.error e, w)

/-- A value that raises when it is an error. -/
def raising (r : Except PyError α) : Py α := Prog.ofExcept r

/-- One reading of the clock. -/
def now (clock : Clock) : Py Instant :=
  update fun s => (clock s.readings, { s with readings := s.readings + 1 })

/-- An event is written, with the next reading of the clock. -/
def emit (clock : Clock) (fields : EventFields) : Py Unit :=
  touch fun s => s.emit clock fields

/-- A tool call is recorded. -/
def record (tool : String) (arguments : List (String × PlainValue)) : Py Unit :=
  touch fun s => s.record tool arguments

/-- `FailureInjector.apply_pre_commit`: each change commits by itself. -/
def applyPreCommit (action : String) : Py Unit := do
  let changes ← update fun s => s.preCommit action
  applyAll changes
where
  applyAll : List StateChange → Py Unit
    | [] => return
    | change :: changes => do
        -- a change that raises leaves those before it in place
        transaction fun db => (change.apply db).map fun db => ((), db)
        applyAll changes

/-- `planner.propose`.  The ghost history gets an entry for the call. -/
def propose (attempt : Nat) : Py RawProposal :=
  Prog.atomically fun w =>
    let s := w.own.session
    let call : Call := { start := ⟨w.shared, s⟩, attempt, raw := s.planner.propose.1 }
    (.ok call.raw, ⟨w.shared, { session := { s with planner := s.planner.propose.2 },
                                history := call :: w.own.history }⟩)

/-- Ghost: something becomes known about the latest call. -/
def callLearns (f : Call → Call) : Py Unit :=
  Prog.modify fun w =>
    ⟨w.shared, { w.own with history := w.own.history.modifyHead f }⟩

end Py

end BoundedRefund
