import BoundedRefund.Concurrent.Budget
import BoundedRefund.AtMostOnce

/-!
# Everything a run does is bounded

The loops of a run are bounded by its options and its script, its retries by constants, and the
injected failures by their budgets.  So there are bounds, fixed before the run begins, on how
many statements it performs, how often it asks the planner, how many permits it issues, how many
tools it calls and how often it reads the clock; no interleaving and nothing anybody writes makes
a run exceed them (`run_bounded`).

`Rates` puts a price on each of the five.  What a stage costs is a sum of prices, and one walk
through the stages serves all five bounds: each is the price of a run at the rates that count
one thing only.  A price differs from stage to stage, which is why the walk is made here and not
taken from `Walk`.
-/

namespace BoundedRefund

open Concurrent

/-! ## Prices -/

/-- The price of a statement, and what a recorded tool call, an issued permit, a call of the
planner and a reading of the clock cost beyond that. -/
structure Rates where
  statement : ℕ := 0
  call : ℕ := 0
  permit : ℕ := 0
  proposal : ℕ := 0
  tick : ℕ := 0

namespace Rates

variable (ρ : Rates)

/-- The tool calls a run has recorded, the permits it has issued, the proposals it has taken up
and the readings of its clock, at their prices. -/
def tariff : Tariff Local where
  statement := ρ.statement
  account o := ρ.call * (o.session.recorder.getD []).length + ρ.permit * o.session.sequence +
    ρ.proposal * o.history.length + ρ.tick * o.session.readings

/-- An execution with `width` injected changes. -/
def execution (width : ℕ) : ℕ :=
  15 * ρ.statement + width * ρ.statement + ρ.call + 4 * ρ.tick

/-- A permit that is issued. -/
def permitIssue : ℕ := 3 * ρ.statement + ρ.permit + ρ.tick

/-- A hand-over: a permit for a ticket, its event, and its execution. -/
def escalation (width : ℕ) : ℕ :=
  2 * ρ.statement + ρ.tick + ρ.permitIssue + ρ.execution width

/-- A read with all its attempts. -/
def reading : ℕ := readMaxAttempts * (2 * ρ.statement + ρ.call) + ρ.statement

/-- An attempt, whose execution may be presented twice. -/
def attempt (width : ℕ) : ℕ :=
  11 * ρ.statement + 5 * ρ.tick + ρ.proposal + 4 * ρ.reading + ρ.permitIssue +
    2 * ρ.execution width

/-- A run that makes `rounds` attempts in its two loops. -/
def run (width rounds : ℕ) : ℕ :=
  rounds * (ρ.attempt width + ρ.statement) + ρ.escalation width + ρ.execution width +
    (17 * ρ.statement + 3 * ρ.tick)

end Rates

/-- The most changes a specification injects at once. -/
def FailureSpec.width (spec : FailureSpec) : ℕ :=
  (spec.preCommitChanges.map fun entry => entry.2.length).foldr max 0

/-- No action has more changes due at once than the width. -/
theorem FailureSpec.length_le_width (spec : FailureSpec) (action : String) :
    ((spec.preCommitChanges.lookup action).getD []).length ≤ spec.width := by
  unfold FailureSpec.width
  induction spec.preCommitChanges with
  | nil => simp
  | cons entry rest ih =>
      obtain ⟨key, changes⟩ := entry
      rw [List.lookup_cons, List.map_cons, List.foldr_cons]
      split
      · exact le_max_left _ _
      · exact ih.trans (le_max_right _ _)

/-! ## What a run keeps -/

/-- At most `left` proposals are left, and no failure was injected more often than the budget
of its action allows. -/
structure Frugal (spec : FailureSpec) (left : ℕ) (o : Local) : Prop where
  remaining : o.session.planner.remaining ≤ left
  injector : ∀ injector, o.session.injector = some injector → injector.spec = spec ∧
    ∀ action, (injector.preCommitFired action : Int) ≤
        max 0 ((spec.preCommitTimes.lookup action).getD 1) ∧
      (injector.postCommitFired action : Int) ≤
        max 0 ((spec.postCommitTimeoutActions.lookup action).getD 0)

namespace Frugal

variable {spec : FailureSpec} {left : ℕ} {o : Local}

/-- What touches neither the planner nor the injector. -/
theorem congr (h : Frugal spec left o) {o' : Local}
    (hplanner : o'.session.planner = o.session.planner)
    (hinjector : o'.session.injector = o.session.injector) : Frugal spec left o' :=
  ⟨by rw [hplanner]; exact h.remaining, by rw [hinjector]; exact h.injector⟩

end Frugal

/-! ## The primitives -/

section Stages

variable {α : Type} {ρ : Rates} {spec : FailureSpec} {left : ℕ}

/-- The program costs at most `n` at these rates, and what it returns is in `Q`. -/
abbrev Py.Costs (ρ : Rates) (spec : FailureSpec) (left : ℕ) (p : Py α) (n : ℕ)
    (Q : α → Prop := fun _ => True) : Prop :=
  Prog.Costs (Frugal spec left) ρ.tariff p n Q

namespace Bounds

open Prog

theorem query (g : Database → Except PyError α) :
    (Py.query g).Costs ρ spec left ρ.statement :=
  Costs.read le_rfl fun _ _ _ _ => trivial

/-- What is computed without the world costs nothing. -/
theorem raising (r : Except PyError α) : (Py.raising r).Costs ρ spec left 0 :=
  Costs.ofExcept fun _ _ => trivial

theorem own {g : Session → α} {Q : α → Prop}
    (h : ∀ o : Local, Frugal spec left o → Q (g o.session)) :
    (Py.own g).Costs ρ spec left ρ.statement Q := by
  refine Costs.read le_rfl fun v hv a ha => ?_
  cases ha
  exact h v.own hv

theorem update {f : Session → α × Session} {Q : α → Prop} {n : ℕ}
    (h : ∀ o : Local, Frugal spec left o →
      Frugal spec left { o with session := (f o.session).2 } ∧
        ρ.statement + ρ.tariff.account { o with session := (f o.session).2 } ≤
          ρ.tariff.account o + n ∧ Q (f o.session).1) :
    (Py.update f).Costs ρ spec left n Q := by
  refine Costs.atomically fun v hv => ?_
  obtain ⟨hkeep, hcost, hresult⟩ := h v.own hv
  refine ⟨hkeep, hcost, fun a ha => ?_⟩
  cases ha
  exact hresult

/-- What is not counted and injects nothing costs a statement, and the readings it makes. -/
theorem plain {f : Session → α × Session} {n : ℕ} (hplanner : ∀ s, (f s).2.planner = s.planner)
    (hinjector : ∀ s, (f s).2.injector = s.injector)
    (hrecorder : ∀ s, (f s).2.recorder = s.recorder)
    (hsequence : ∀ s, (f s).2.sequence = s.sequence)
    (hreadings : ∀ s, (f s).2.readings ≤ s.readings + n) :
    (Py.update f).Costs ρ spec left (ρ.statement + n * ρ.tick) := by
  refine update fun o ho => ⟨ho.congr (hplanner _) (hinjector _), ?_, trivial⟩
  have hticks := Nat.mul_le_mul_left ρ.tick (hreadings o.session)
  simp only [Rates.tariff, hrecorder, hsequence]
  rw [Nat.mul_add, Nat.mul_comm ρ.tick n] at hticks
  omega

/-- What makes none costs a statement. -/
theorem still {f : Session → α × Session} (hplanner : ∀ s, (f s).2.planner = s.planner)
    (hinjector : ∀ s, (f s).2.injector = s.injector)
    (hrecorder : ∀ s, (f s).2.recorder = s.recorder)
    (hsequence : ∀ s, (f s).2.sequence = s.sequence)
    (hreadings : ∀ s, (f s).2.readings = s.readings) :
    (Py.update f).Costs ρ spec left ρ.statement :=
  (plain (n := 0) hplanner hinjector hrecorder hsequence fun s => (hreadings s).le).le (by omega)

/-- A transaction is one statement. -/
theorem transaction (t : Database → Except PyError (α × Database)) :
    (Py.transaction t).Costs ρ spec left ρ.statement := by
  refine Costs.atomically fun v hv => ?_
  cases t v.shared with
  | ok x => exact ⟨hv, by simp only [Rates.tariff]; omega, fun _ _ => trivial⟩
  | error e => exact ⟨hv, by simp only [Rates.tariff]; omega, fun _ _ => trivial⟩

theorem callLearns (f : Call → Call) : (Py.callLearns f).Costs ρ spec left ρ.statement := by
  refine Costs.modify fun v hv => ⟨hv.congr rfl rfl, ?_⟩
  simp only [Rates.tariff, List.length_modifyHead]
  omega

/-- A reading of the clock is a statement and a tick. -/
theorem now (clock : Clock) : (Py.now clock).Costs ρ spec left (ρ.statement + ρ.tick) :=
  (plain (n := 1) (fun _ => rfl) (fun _ => rfl) (fun _ => rfl) (fun _ => rfl)
    fun _ => le_rfl).le (by omega)

theorem note (text : String) : (Py.touch fun s => s.note text).Costs ρ spec left ρ.statement :=
  still (fun _ => rfl) (fun _ => rfl) (fun _ => rfl) (fun _ => rfl) fun _ => rfl

/-- An event is stamped with a reading of the clock, where there is a trace. -/
theorem emit (clock : Clock) (fields : EventFields) :
    (Py.emit clock fields).Costs ρ spec left (ρ.statement + ρ.tick) := by
  refine (plain (f := fun s => ((), s.emit clock fields)) (n := 1) (fun s => ?_) (fun s => ?_)
    (fun s => ?_) (fun s => ?_) fun s => ?_).le (by omega)
  all_goals cases haudit : s.audit <;> simp [Session.emit, haudit]

/-- A recorded tool call. -/
theorem record (tool : String) (arguments : List (String × PlainValue)) :
    (Py.record tool arguments).Costs ρ spec left (ρ.statement + ρ.call) := by
  refine update (f := fun s => ((), s.record tool arguments)) fun o ho =>
    ⟨ho.congr rfl rfl, ?_, trivial⟩
  cases hrecorder : o.session.recorder with
  | none =>
      simp only [Rates.tariff, Session.record, hrecorder, Option.map_none]
      omega
  | some calls =>
      simp only [Rates.tariff, Session.record, hrecorder, Option.map_some, Option.getD_some,
        List.length_append, List.length_singleton, Nat.mul_succ]
      omega

theorem readShouldFail (tool : String) :
    (Py.update fun s => s.readShouldFail tool).Costs ρ spec left ρ.statement := by
  refine update fun o ho => ?_
  cases hi : o.session.injector with
  | none =>
      simp only [Session.readShouldFail, hi]
      exact ⟨ho, (Nat.add_comm _ _).le, trivial⟩
  | some injector =>
      simp only [Session.readShouldFail, hi]
      refine ⟨⟨ho.remaining, fun injector' hi' => ?_⟩, by simp only [Rates.tariff]; omega, trivial⟩
      cases hi'
      exact ho.injector injector hi

/-- A response is lost only while the budget of the action lasts. -/
theorem shouldTimeoutAfterCommit (action : String) :
    (Py.update fun s => s.shouldTimeoutAfterCommit action).Costs ρ spec left ρ.statement := by
  refine update fun o ho => ?_
  cases hi : o.session.injector with
  | none =>
      simp only [Session.shouldTimeoutAfterCommit, hi]
      exact ⟨ho, (Nat.add_comm _ _).le, trivial⟩
  | some injector =>
      obtain ⟨hspec, hfired⟩ := ho.injector injector hi
      simp only [Session.shouldTimeoutAfterCommit, hi]
      refine ⟨⟨ho.remaining, fun injector' hi' => ?_⟩, by simp only [Rates.tariff]; omega, trivial⟩
      cases hi'
      unfold FailureInjector.shouldTimeoutAfterCommit
      split_ifs with hleft
      · refine ⟨hspec, fun other => ⟨(hfired other).1, ?_⟩⟩
        simp only [FailureInjector.timeoutLeft, hspec, decide_eq_true_eq] at hleft
        by_cases hother : other = action
        · subst hother
          simp only [FailureInjector.count, Function.update_self]
          push_cast
          omega
        · simp only [FailureInjector.count, Function.update_of_ne hother]
          exact (hfired other).2
      · exact ⟨hspec, hfired⟩

/-- Changes are due only while the budget of the action lasts, and never more than `width`. -/
theorem preCommit (action : String) :
    (Py.update fun s => s.preCommit action).Costs ρ spec left ρ.statement
      fun changes => changes.length ≤ spec.width := by
  refine update fun o ho => ?_
  cases hi : o.session.injector with
  | none =>
      simp only [Session.preCommit, hi]
      exact ⟨ho, (Nat.add_comm _ _).le, Nat.zero_le _⟩
  | some injector =>
      obtain ⟨hspec, hfired⟩ := ho.injector injector hi
      simp only [Session.preCommit, hi]
      refine ⟨⟨ho.remaining, fun injector' hi' => ?_⟩, by simp only [Rates.tariff]; omega, ?_⟩
      · cases hi'
        unfold FailureInjector.preCommit
        dsimp only
        split_ifs with hnone hspent
        · exact ⟨hspec, hfired⟩
        · exact ⟨hspec, hfired⟩
        -- only this action is counted once more, and its budget was not used up
        · refine ⟨hspec, fun other => ⟨?_, (hfired other).2⟩⟩
          rw [hspec] at hspent
          by_cases hother : other = action
          · subst hother
            simp only [FailureInjector.count, Function.update_self]
            push_cast
            omega
          · simp only [FailureInjector.count, Function.update_of_ne hother]
            exact (hfired other).1
      · unfold FailureInjector.preCommit
        dsimp only
        split_ifs
        · exact Nat.zero_le _
        · exact Nat.zero_le _
        · rw [hspec]
          exact spec.length_le_width action

/-- As many statements as changes are due, and one to ask which. -/
theorem applyPreCommit (action : String) : (Py.applyPreCommit action).Costs ρ spec left
    (ρ.statement + spec.width * ρ.statement) := by
  refine Costs.bind (preCommit action) fun changes hchanges => ?_
  have hall : (Py.applyPreCommit.applyAll changes).Costs ρ spec left
      (changes.length * ρ.statement) := by
    clear hchanges
    induction changes with
    | nil => exact Costs.ret trivial
    | cons change changes ih =>
        rw [List.length_cons, Nat.succ_mul, Nat.add_comm]
        exact Costs.bind (transaction _) fun _ _ => ih
  exact hall.le (Nat.mul_le_mul_right _ hchanges)

/-- A permit has its price. -/
theorem issuePermit (issuer : PermitIssuer) (request : PermitRequest) :
    (issuer.issuePermit request).Costs ρ spec left ρ.permitIssue := by
  have hsequence : (Py.update fun s =>
      (s.sequence + 1, { s with sequence := s.sequence + 1 })).Costs ρ spec left
      (ρ.statement + ρ.permit) := by
    refine update fun o ho => ⟨ho.congr rfl rfl, ?_, trivial⟩
    simp only [Rates.tariff, Nat.mul_succ]
    omega
  refine (Costs.bind hsequence fun _ _ => Costs.bind (now _) fun _ _ => transaction _).le ?_
  unfold Rates.permitIssue
  omega

/-! ### The executor -/

section Executor

variable (e : Executor) (proposal : ActionProposal) (permit : Option ExecutionPermit)

/-- An event of the executor looks the resource up first. -/
theorem executorEmit (eventType : EventType) (result : Option ExecutionResult)
    (extra : List (String × PlainValue)) :
    (e.emit eventType proposal permit result extra).Costs ρ spec left
      (3 * ρ.statement + ρ.tick) := by
  refine (Costs.bind (n := 2 * ρ.statement + ρ.tick) (own (Q := fun _ => True) fun _ _ => trivial)
    fun audited _ => ?_).le (by omega)
  split_ifs
  · exact (Costs.bind (query _) fun _ _ => emit _ _).le (by omega)
  · exact Costs.ret trivial

/-- A commit is one tool call. -/
theorem commit (permit : ExecutionPermit) (texts : TicketTexts) :
    (e.commit permit proposal texts).Costs ρ spec left
      (3 * ρ.statement + ρ.call + ρ.tick) := by
  refine (Costs.bind (raising _) fun auth _ => Costs.bind (now _) fun now _ =>
    Costs.bind (record _ _) fun _ _ => Costs.tryCatch (n := 0) (transaction _) fun err => ?_).le
    (by omega)
  cases err with
  | staleResource resourceId version => exact Costs.ret trivial
  | _ => exact Costs.fail _

/-- The checks read the clock, and the commit behind them reads it again. -/
theorem runChecks (texts : TicketTexts) : (e.runChecks permit proposal texts).Costs ρ spec left
    (7 * ρ.statement + spec.width * ρ.statement + ρ.call + 2 * ρ.tick) := by
  cases permit with
  | none => exact Costs.ret trivial
  | some permit =>
      unfold Executor.runChecks
      dsimp only
      split_ifs with haction
      · exact Costs.ret trivial
      refine (Costs.bind (n := 6 * ρ.statement + spec.width * ρ.statement + ρ.call +
        2 * ρ.tick) (query _) fun target _ => ?_).le (by omega)
      cases target with
      | none => exact Costs.ret trivial
      | some target =>
          dsimp only
          split_ifs with hresource
          · exact Costs.ret trivial
          refine (Costs.bind (now _) fun now _ => Costs.bind (raising _) (n := 5 * ρ.statement +
            spec.width * ρ.statement + ρ.call + ρ.tick) fun expiresAt _ => ?_).le (by omega)
          split_ifs with hexpired
          · exact Costs.ret trivial
          refine (Costs.bind (query _) fun stored _ => Costs.bind (raising _)
            (n := 4 * ρ.statement + spec.width * ρ.statement + ρ.call + ρ.tick)
            fun answer _ => ?_).le (by omega)
          cases answer with
          | some result => exact Costs.ret trivial
          | none =>
              exact (Costs.bind (applyPreCommit _) fun _ _ => commit e proposal permit texts).le
                (by omega)

/-- An answer is an event, and a response may be lost. -/
theorem respond (result : ExecutionResult) :
    (e.respond proposal permit result).Costs ρ spec left (4 * ρ.statement + ρ.tick) := by
  unfold Executor.respond
  split_ifs
  · refine (Costs.bind (executorEmit _ _ _ _ _ _) fun _ _ => Costs.bind (n := 0)
      (shouldTimeoutAfterCommit _) fun lost _ => ?_).le (by omega)
    split_ifs
    · cases permit <;> exact Costs.fail _
    · exact Costs.ret trivial
  · exact (Costs.bind (n := 0) (executorEmit _ _ _ _ _ _) fun _ _ => Costs.ret trivial).le
      (by omega)
  · exact (Costs.bind (n := 0) (executorEmit _ _ _ _ _ _) fun _ _ => Costs.ret trivial).le
      (by omega)

/-- One presentation of a permit. -/
theorem execute (permitId : Option String) (texts : TicketTexts) :
    (e.execute permitId proposal texts).Costs ρ spec left (ρ.execution spec.width) := by
  refine (Costs.bind (query _) fun permit _ => Costs.bind (executorEmit _ _ _ _ _ _) fun _ _ =>
    Costs.bind (runChecks _ _ _ _) fun result _ => respond e proposal permit result).le ?_
  unfold Rates.execution
  omega

end Executor

/-! ### The runner -/

section Runner

variable (r : Runner)

/-- Two of them, where the first response is lost. -/
theorem executeWithRetry (permitId : String) (proposal : ActionProposal) :
    (r.executeWithRetry permitId proposal).Costs ρ spec left
      (2 * ρ.execution spec.width + ρ.statement) := by
  have hnote : ∀ text, (Py.touch fun s => { s.note text with recovered := true }).Costs
      ρ spec left ρ.statement :=
    fun text => still (fun _ => rfl) (fun _ => rfl) (fun _ => rfl) (fun _ => rfl) fun _ => rfl
  refine (Costs.tryCatch (n := ρ.statement + ρ.execution spec.width) (execute _ _ _ _)
    fun err => ?_).le (by omega)
  cases err with
  | responseTimeout tool key => exact Costs.bind (hnote _) fun _ _ => execute _ _ _ _
  | _ => exact Costs.fail _

/-- A hand-over issues a permit of its own. -/
theorem escalate (orderId : String) (reason : ReasonCode) (detail : String) :
    (r.escalate orderId reason detail).Costs ρ spec left (ρ.escalation spec.width) := by
  refine (Costs.bind (n := ρ.statement + ρ.tick + ρ.permitIssue + ρ.execution spec.width) (query _)
    fun order _ => ?_).le (by unfold Rates.escalation; omega)
  cases order with
  | none =>
      exact (Costs.bind (n := 0) (note _) fun _ _ => Costs.ret trivial).le
        (by omega)
  | some order =>
      exact (Costs.bind (raising _) fun proposal _ => Costs.bind (issuePermit _ _) fun permit _ =>
        Costs.bind (emit _ _) fun _ _ => Costs.bind (n := 0) (execute _ _ _ _) fun result _ =>
          Costs.ret trivial).le (by omega)

/-- What an allowed proposal costs. -/
theorem executeAllowed (proposal : ActionProposal) (decision : PolicyResult) (attempt : Nat) :
    (r.executeAllowed proposal decision attempt).Costs ρ spec left
      (5 * ρ.statement + ρ.tick + ρ.permitIssue + 2 * ρ.execution spec.width) := by
  have hremember : ∀ last : String × ActionProposal,
      (Py.touch fun s => { s with lastExecution := some last }).Costs ρ spec left ρ.statement :=
    fun last => still (fun _ => rfl) (fun _ => rfl) (fun _ => rfl) (fun _ => rfl) fun _ => rfl
  exact (Costs.bind (issuePermit _ _) fun permit _ => Costs.bind (callLearns _) fun _ _ =>
    Costs.bind (emit _ _) fun _ _ => Costs.bind (hremember _) fun _ _ =>
      Costs.bind (executeWithRetry r _ _) fun result _ =>
        Costs.bind (n := 0) (callLearns _) fun _ _ => Costs.ret trivial).le (by omega)

/-- What a decision costs. -/
theorem proceed (proposal : ActionProposal) (snapshot : PolicySnapshot) (decision : PolicyResult)
    (attempt : Nat) : (r.proceed proposal snapshot decision attempt).Costs ρ spec left
      (6 * ρ.statement + 2 * ρ.tick + ρ.permitIssue + 2 * ρ.execution spec.width) := by
  unfold Runner.proceed
  split_ifs
  · exact (Costs.bind (n := 0) (emit _ _) fun _ _ => Costs.ret trivial).le (by omega)
  · refine (Costs.bind (emit _ _) fun _ _ => Costs.bind (n := 0) (escalate r _ _ _) fun _ _ =>
      Costs.ret trivial).le ?_
    unfold Rates.escalation
    omega
  · exact (Costs.bind (emit _ _) fun _ _ => executeAllowed r _ _ _).le (by omega)

/-- A read that still has `again` attempts. -/
theorem call (tool : String) (arguments : List (String × PlainValue))
    (fetch : Database → Except PyError α) (made again : Nat) :
    (ReadTools.call tool arguments fetch made again).Costs ρ spec left
      (again * (2 * ρ.statement + ρ.call) + ρ.statement) := by
  induction again generalizing made with
  | zero => exact Costs.fail _
  | succ again ih =>
      rw [Nat.succ_mul]
      refine (Costs.bind (record _ _) fun _ _ => Costs.bind
        (n := again * (2 * ρ.statement + ρ.call) + ρ.statement) (readShouldFail _)
        fun fails _ => ?_).le (by omega)
      split_ifs
      · exact ih _
      · exact (query _).le (by omega)

/-- A read, with all its tries. -/
theorem read (tool : String) (arguments : List (String × PlainValue))
    (fetch : Database → Except PyError α) :
    (ReadTools.call tool arguments fetch 0 readMaxAttempts).Costs ρ spec left ρ.reading :=
  call tool arguments fetch 0 readMaxAttempts

theorem recovering {read : Py (Option α)} {n : ℕ} (hread : read.Costs ρ spec left n) :
    (ReadTools.recovering read).Costs ρ spec left n := by
  refine (Costs.tryCatch (n := 0) (Costs.bind (n := 0) hread fun _ _ => Costs.ret trivial)
    fun err => ?_).le (by omega)
  cases err with
  | readUnavailable tool attempts => exact Costs.ret trivial
  | _ => exact Costs.fail _

theorem optional (needed : Bool) {read : Py (Option α)} {n : ℕ}
    (hread : read.Costs ρ spec left n) :
    (ReadTools.optional needed read).Costs ρ spec left n := by
  unfold ReadTools.optional
  split_ifs
  · exact recovering hread
  · exact Costs.ret trivial

/-- At most four records are read. -/
theorem snapshot (proposal : ActionProposal) :
    (r.snapshot proposal).Costs ρ spec left (4 * ρ.reading + ρ.statement + ρ.tick) := by
  have hpolicy : ∀ needed order,
      (ReadTools.policyOf needed order).Costs ρ spec left ρ.reading := by
    intro needed order
    cases order with
    | none => exact Costs.ret trivial
    | some order => exact optional needed (read _ _ _)
  exact (Costs.bind (recovering (read _ _ _)) fun order _ =>
    Costs.bind (optional _ (read _ _ _)) fun payment _ =>
      Costs.bind (optional _ (read _ _ _)) fun shipment _ =>
        Costs.bind (hpolicy _ _) fun refundPolicy _ =>
          Costs.bind (n := 0) (now _) fun now _ => Costs.ret trivial).le (by omega)

/-- A call of the planner uses a proposal up, and is counted. -/
theorem propose (attempt : Nat) :
    (Py.propose attempt).Costs ρ spec left (ρ.statement + ρ.proposal) := by
  refine Costs.atomically fun v hv => ⟨⟨?_, hv.injector⟩, ?_, fun _ _ => trivial⟩
  · have hused := v.own.session.planner.remaining_propose
    have hremaining := hv.remaining
    dsimp only
    omega
  · simp only [Rates.tariff, List.length_cons, Nat.mul_succ]
    omega

/-- One attempt. -/
theorem attempt (attempt : Nat) (orderId : String) :
    (r.attempt attempt orderId).Costs ρ spec left (ρ.attempt spec.width) := by
  refine (Costs.bind (propose _) fun raw _ => Costs.bind (n := 9 * ρ.statement + 4 * ρ.tick +
    4 * ρ.reading + ρ.permitIssue + 2 * ρ.execution spec.width) (emit _ _) fun _ _ => ?_).le
      (by unfold Rates.attempt; omega)
  cases validate r.intFromText raw with
  | error reason =>
      exact (Costs.bind (n := 0) (emit _ _) fun _ _ => Costs.ret trivial).le (by omega)
  | ok proposal =>
      exact (Costs.bind (emit _ _) fun _ _ => Costs.bind (snapshot r proposal) fun snapshot _ =>
        Costs.bind (raising _) fun decision _ => Costs.bind (callLearns _) fun _ _ =>
          Costs.bind (n := 0) (proceed r _ _ _ _) fun step _ => Costs.ret trivial).le (by omega)

/-- The first loop costs an attempt for each round. -/
theorem plan (rounds : List Nat) (orderId : String) : (r.plan rounds orderId).Costs ρ spec left
    (rounds.length * (ρ.attempt spec.width + ρ.statement)) := by
  induction rounds generalizing orderId with
  | nil => exact Costs.ret trivial
  | cons n rest ih =>
      rw [List.length_cons, Nat.succ_mul]
      refine (Costs.bind (attempt r n orderId) fun step _ => (?_ : Prog.Costs _ _ _
        (ρ.statement + rest.length * (ρ.attempt spec.width + ρ.statement)) _)).le (by omega)
      dsimp only
      split_ifs
      · exact Costs.bind (note _) fun _ _ => ih _
      · exact Costs.ret trivial
      · exact Costs.ret trivial

theorem handOver (planned : Planned) :
    (r.handOver planned).Costs ρ spec left (ρ.escalation spec.width) := by
  unfold Runner.handOver
  cases planned.escalateReason with
  | none => exact Costs.ret trivial
  | some reason =>
      exact (Costs.bind (n := 0) (escalate r _ _ _) fun _ _ => Costs.ret trivial).le le_rfl

/-- The second loop makes no more rounds than it was given. -/
theorem chain (planned : Planned) (fuel : Nat) : (r.chain planned fuel).Costs ρ spec left
    (fuel * (ρ.attempt spec.width + ρ.statement) + ρ.statement) := by
  induction fuel generalizing planned with
  | zero =>
      refine (Costs.bind (n := 0) (own (Q := fun _ => True) fun _ _ => trivial)
        fun exhausted _ => ?_).le (by omega)
      split_ifs
      · exact Costs.fail _
      · exact Costs.ret trivial
  | succ fuel ih =>
      rw [Nat.succ_mul]
      refine (Costs.bind (own (Q := fun _ => True) fun _ _ => trivial) fun exhausted _ =>
        (?_ : Prog.Costs _ _ _ (ρ.attempt spec.width +
          (fuel * (ρ.attempt spec.width + ρ.statement) + ρ.statement)) _)).le (by omega)
      split_ifs
      · refine Costs.bind (attempt r _ _) fun followUp _ => ?_
        dsimp only
        split_ifs
        · exact Costs.ret trivial
        · exact ih _
      · exact Costs.ret trivial

/-- The deliberate replay. -/
theorem replay : r.replay.Costs ρ spec left (2 * ρ.statement + ρ.execution spec.width) := by
  refine (Costs.bind (n := ρ.statement + ρ.execution spec.width)
    (own (Q := fun _ => True) fun _ _ => trivial) fun last _ => ?_).le (by omega)
  cases last with
  | none => exact Costs.ret trivial
  | some last => exact (Costs.bind (execute _ _ _ _) fun _ _ => note _).le (by omega)

/-- The verification and the report. -/
theorem finish (planned : Planned) :
    (r.finish planned).Costs ρ spec left (12 * ρ.statement + 2 * ρ.tick) := by
  have look : ∀ {β : Type} (g : Session → β), (Py.own g).Costs ρ spec left ρ.statement :=
    fun g => own fun _ _ => trivial
  have hverify : ∀ orderId, (r.verify orderId).Costs ρ spec left
      (5 * ρ.statement + ρ.tick) := fun _ =>
    (Costs.bind (query _) fun _ _ => Costs.bind (query _) fun _ _ => Costs.bind (query _) fun _ _ =>
      Costs.bind (query _) fun _ _ => Costs.bind (n := 0) (emit _ _) fun _ _ =>
        Costs.ret trivial).le (by omega)
  have hreport : ∀ outcome reason finalState,
      (r.report outcome reason finalState).Costs ρ spec left (6 * ρ.statement) := fun _ _ _ =>
    (Costs.bind (query _) fun _ _ => Costs.bind (query _) fun _ _ => Costs.bind (query _) fun _ _ =>
      Costs.bind (look _) fun _ _ => Costs.bind (look _) fun _ _ =>
        Costs.bind (n := 0) (look _) fun _ _ => Costs.ret trivial).le (by omega)
  exact (Costs.bind (hverify _) fun _ _ => Costs.bind (hreport _ _ _) fun _ _ =>
    Costs.bind (n := 0) (emit _ _) fun _ _ => Costs.ret trivial).le (by omega)

/-- What a run costs, all its stages together. -/
theorem run : r.run.Costs ρ spec left (ρ.run spec.width (r.attempts.length + left)) := by
  have hremaining : (Py.own fun s => s.planner.remaining).Costs ρ spec left ρ.statement
      fun rounds => rounds ≤ left := own fun _ ho => ho.remaining
  have hchain : ∀ planned rounds, rounds ≤ left → (r.chain planned rounds).Costs ρ spec left
      (left * (ρ.attempt spec.width + ρ.statement) + ρ.statement) := fun planned rounds h =>
    (chain r planned rounds).le (Nat.add_le_add_right (Nat.mul_le_mul_right _ h) _)
  have hend : ∀ planned, (if r.replayLastPermit then r.replay >>= fun _ => r.finish planned
      else r.finish planned).Costs ρ spec left
        (14 * ρ.statement + 2 * ρ.tick + ρ.execution spec.width) := by
    intro planned
    split_ifs
    · exact (Costs.bind (replay r) fun _ _ => finish r planned).le (by omega)
    · exact (finish r planned).le (by omega)
  refine (Costs.bind (emit _ _) fun _ _ => Costs.bind (plan r _ _) fun planned _ =>
    Costs.bind (handOver r planned) fun _ _ => Costs.bind hremaining fun rounds hrounds =>
      Costs.bind (hchain _ _ hrounds) fun planned _ => hend planned).le ?_
  unfold Rates.run
  rw [Nat.add_mul]
  omega

end Runner

end Bounds

end Stages

/-! ## Whole executions -/

namespace Runs

variable {ι : Type} (runs : Runs ι)

/-- How many attempts a run may make: those of its first loop, and one for each proposal. -/
def rounds (i : ι) : ℕ := (runs.runners i).attempts.length + (runs.proposals i).length

/-- The most changes that are injected before a commit of a run. -/
def width (i : ι) : ℕ := (runs.failures i).width

/-- The most statements a run performs. -/
def statements (i : ι) : ℕ := runs.rounds i * (65 + 2 * runs.width i) + 2 * runs.width i + 52

/-- The most readings of its clock a run makes. -/
def readings (i : ι) : ℕ := 14 * runs.rounds i + 13

variable {runs}

/-- A run begins within all its bounds. -/
theorem frugal (db : Database) (i : ι) :
    Frugal (runs.failures i) (runs.proposals i).length ((runs.pool db).threads i).own := by
  refine ⟨Nat.sub_le _ _, fun injector hi => ?_⟩
  cases hi
  exact ⟨rfl, fun action => ⟨le_max_left _ _, le_max_left _ _⟩⟩

end Runs

section Reachable

variable {ι : Type} [DecidableEq ι] {runs : Runs ι} {db : Database} {n : ι → ℕ}
variable {c : Pool ι PyError Database Local RunReport} {E : Database → Database → Prop}

/-- What a run has spent, at any rates. -/
theorem Runs.spent (ρ : Rates) (h : Pool.Walks E (runs.pool db) n c) (i : ι) :
    Frugal (runs.failures i) (runs.proposals i).length (c.threads i).own ∧
      ρ.statement * n i + ρ.tariff.account (c.threads i).own ≤
        ρ.run (runs.width i) (runs.rounds i) := by
  obtain ⟨hfrugal, m, hm, -⟩ :=
    Pool.walks_costs (t := ρ.tariff) (Runs.frugal db) (fun i => Bounds.run (runs.runners i)) h i
  refine ⟨hfrugal, ?_⟩
  have hnothing : ρ.tariff.account ((runs.pool db).threads i).own = 0 := by
    simp [Rates.tariff, Runs.pool, Runner.start]
  rw [hnothing] at hm
  simp only [Runs.width, Runs.rounds]
  have hprice : ρ.tariff.statement * n i = ρ.statement * n i := rfl
  omega

omit [DecidableEq ι] in
/-- At the rates that count statements only, a run costs as many as it may perform. -/
theorem Runs.price_statement (i : ι) : ({ statement := 1 } : Rates).run (runs.width i)
    (runs.rounds i) = runs.statements i := by
  simp only [Rates.run, Rates.attempt, Rates.escalation, Rates.execution, Rates.permitIssue,
    Rates.reading, readMaxAttempts, Runs.statements]
  have hround : 11 * 1 + 5 * 0 + 0 + 4 * (2 * (2 * 1 + 0) + 1) + (3 * 1 + 0 + 0) +
      2 * (15 * 1 + runs.width i * 1 + 0 + 4 * 0) + 1 = 65 + 2 * runs.width i := by omega
  rw [hround]
  omega

/-- How often a run has read its clock. -/
theorem Runs.readings_le (h : Pool.Walks E (runs.pool db) n c) (i : ι) :
    (c.threads i).own.session.readings ≤ runs.readings i := by
  have hspent := (Runs.spent { tick := 1 } h i).2
  simp only [Rates.tariff, Rates.run, Rates.attempt, Rates.escalation, Rates.execution,
    Rates.permitIssue, Rates.reading] at hspent
  unfold Runs.readings
  omega

/-- **Everything a run does is bounded.**  Runs next to each other, and others who write what
they like; `n` counts the statements of each run.  A run never performs more statements than
follow from its options, the length of its script and the changes its failures inject at once,
and when it has performed as many it is done, however the others are scheduled.  It asks the
planner once for each attempt it may make and issues at most one permit more, it calls at most
ten tools in an attempt and two behind them, it reads its clock at most fourteen times in an
attempt and thirteen times around them, and no failure is injected more often than the budget of
its action allows. -/
theorem run_bounded (h : Pool.Walks E (runs.pool db) n c) (i : ι) :
    (n i ≤ runs.statements i ∧
      ((c.threads i).answer = none → n i < runs.statements i)) ∧
    (c.threads i).own.history.length ≤ runs.rounds i ∧
    (c.threads i).own.session.sequence ≤ runs.rounds i + 1 ∧
    ((c.threads i).own.session.recorder.getD []).length ≤ 10 * runs.rounds i + 2 ∧
    (c.threads i).own.session.readings ≤ runs.readings i ∧
    ∀ injector, (c.threads i).own.session.injector = some injector → ∀ action,
      (injector.preCommitFired action : Int) ≤
        max 0 (((runs.failures i).preCommitTimes.lookup action).getD 1) ∧
      (injector.postCommitFired action : Int) ≤
        max 0 (((runs.failures i).postCommitTimeoutActions.lookup action).getD 0) := by
  refine ⟨⟨?_, fun hbusy => ?_⟩, ?_, ?_, ?_, ?_, fun injector hi action => ?_⟩
  · have hspent := (Runs.spent { statement := 1 } h i).2
    rw [Runs.price_statement] at hspent
    simp only [Rates.tariff] at hspent
    omega
  -- who is not done has a statement left to pay for
  · have hleft := Pool.walks_ends (t := ({ statement := 1 } : Rates).tariff) (Runs.frugal db)
      (fun i => Bounds.run (runs.runners i)) h i hbusy
    have hbound : ({ statement := 1 } : Rates).run (runs.failures i).width
        ((runs.runners i).attempts.length + (runs.proposals i).length) = runs.statements i :=
      Runs.price_statement i
    rw [hbound] at hleft
    simp only [Rates.tariff] at hleft
    omega
  · have hspent := (Runs.spent { proposal := 1 } h i).2
    simp only [Rates.tariff, Rates.run, Rates.attempt, Rates.escalation, Rates.execution,
      Rates.permitIssue, Rates.reading] at hspent
    omega
  · have hspent := (Runs.spent { permit := 1 } h i).2
    simp only [Rates.tariff, Rates.run, Rates.attempt, Rates.escalation, Rates.execution,
      Rates.permitIssue, Rates.reading] at hspent
    omega
  · have hspent := (Runs.spent { call := 1 } h i).2
    simp only [Rates.tariff, Rates.run, Rates.attempt, Rates.escalation, Rates.execution,
      Rates.permitIssue, Rates.reading, readMaxAttempts] at hspent
    omega
  · exact Runs.readings_le h i
  · exact ((Runs.spent {} h i).1.injector injector hi).2 action

/-- Two runs with one proposal each: neither performs more than 182 statements. -/
theorem run_bounded_rivals : ∃ n, Pool.Walks (fun _ _ => True)
    (rivalRuns.pool (seedWorld [("ord_0001", .paid)])) n rivals ∧ n true ≤ 182 ∧ n false ≤ 182 := by
  obtain ⟨n, h⟩ := Pool.reaches_iff_walks.mp
    ((Pool.reaches_iterate _ false 25).trans ((Pool.reaches_finish _ true).trans
      (Pool.reaches_finish _ false)))
  exact ⟨n, h, (run_bounded h true).1.1, (run_bounded h false).1.1⟩

end Reachable

end BoundedRefund
