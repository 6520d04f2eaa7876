import BoundedRefund.Chronicle
import BoundedRefund.Concurrent.Private
import BoundedRefund.Grammar

/-!
# Every trace follows the grammar

A run writes into a trace of its own, so what it writes there can be followed statement by
statement without a word about the others.  Between two events a run may do what it likes
(`Still`); an event has to be one that may come now (`emits`).  The stages of a run go from one
stage of the grammar to another, whether they return or raise, and a run that returns has told
its whole story (`trace_follows_grammar`).

The program is walked here by hand and not as an instance of a closure class: every event has a
stage before it and one behind, and a class of programs would say no more than that they keep to
the grammar.
-/

namespace BoundedRefund

open Concurrent

/-! ## Where a run stands -/

/-- Every event belongs to the run, and each bears a later reading of the clock than the one
before. -/
structure Stamped (r : Runner) (readings : Nat) (audit : AuditTrace) : Prop where
  runId : audit.runId = r.runId
  scenarioId : audit.scenarioId = r.scenarioId
  own : ∀ event ∈ audit.events, event.runId = r.runId ∧ event.scenarioId = r.scenarioId
  stamps : ∃ ks : List Nat, ks.Pairwise (· < ·) ∧ (∀ k ∈ ks, k < readings) ∧
    audit.events.map Event.timestamp = ks.map fun k => toIso (r.clock k)

/-- The trace of the run has come to the stage. -/
structure AtStage (r : Runner) (s : Stage) (o : Local) : Prop where
  trace : ∃ audit, o.session.audit = some audit ∧ Stage.after audit.events = some s ∧
    Stamped r o.session.readings audit
  granted : o.session.lastExecution.isSome → s.granted = true

/-- What a run does between two events. -/
structure Still (o o' : Local) : Prop where
  audit : o'.session.audit = o.session.audit
  readings : o.session.readings ≤ o'.session.readings
  lastExecution : o'.session.lastExecution = o.session.lastExecution

/-- More readings do no harm. -/
theorem Stamped.mono {r : Runner} {readings readings' : Nat} {audit : AuditTrace}
    (h : Stamped r readings audit) (hle : readings ≤ readings') : Stamped r readings' audit := by
  obtain ⟨ks, hsorted, hbound, hstamps⟩ := h.stamps
  exact { h with stamps := ⟨ks, hsorted, fun k hk => (hbound k hk).trans_le hle, hstamps⟩ }

/-- The next event is stamped with the next reading. -/
theorem Stamped.emit {r : Runner} {readings : Nat} {audit : AuditTrace}
    (h : Stamped r readings audit) (fields : EventFields) :
    Stamped r (readings + 1) (audit.emit (r.clock readings) fields) := by
  obtain ⟨ks, hsorted, hbound, hstamps⟩ := h.stamps
  refine ⟨h.runId, h.scenarioId, fun event hevent => ?_, ks ++ [readings], ?_, fun k hk => ?_, ?_⟩
  · rcases List.mem_append.mp hevent with hold | hnew
    · exact h.own event hold
    · rw [List.mem_singleton.mp hnew]
      exact ⟨h.runId, h.scenarioId⟩
  · refine List.pairwise_append.mpr ⟨hsorted, List.pairwise_singleton _ _, fun k hk j hj => ?_⟩
    rw [List.mem_singleton.mp hj]
    exact hbound k hk
  · rcases List.mem_append.mp hk with hold | hnew
    · exact (hbound k hold).trans (Nat.lt_succ_self _)
    · rw [List.mem_singleton.mp hnew]
      exact Nat.lt_succ_self _
  · simp [AuditTrace.emit, hstamps]

section Rules

variable {r : Runner} {s s' : Stage} {α : Type}

/-- What writes no event stays where it is. -/
theorem AtStage.still {o o' : Local} (hmove : Still o o') (h : AtStage r s o) :
    AtStage r s o' := by
  obtain ⟨audit, haudit, hafter, hstamped⟩ := h.trace
  refine ⟨⟨audit, hmove.audit.trans haudit, hafter, hstamped.mono hmove.readings⟩, ?_⟩
  rw [hmove.lastExecution]
  exact h.granted

/-- The trace has followed the grammar so far. -/
def OnTrack (r : Runner) (o : Local) : Prop := ∃ s, AtStage r s o

/-- A program that writes no event stays where it is. -/
theorem stays {N : PyError → Prop} {p : Py α} (h : p.Moves Still N) (s : Stage) :
    p.Privately (OnTrack r) (AtStage r s) (fun _ => AtStage r s)
      (fun err o => AtStage r s o ∧ N err) :=
  h.privately (fun _ _ hmove h => h.still hmove) fun _ h => ⟨s, h⟩

/-- An event that may come now. -/
theorem emits {fields : EventFields} (h : s.follow fields = some s')
    (hgranted : s.granted = true → s'.granted = true) :
    (Py.emit r.clock fields).Privately (OnTrack r) (AtStage r s) (fun _ => AtStage r s')
      (fun _ _ => False) := by
  refine Prog.Privately.atomically fun v hv => ?_
  obtain ⟨audit, haudit, hafter, hstamped⟩ := hv.trace
  have hnext : AtStage r s' { v.own with session := v.own.session.emit r.clock fields } := by
    refine ⟨⟨audit.emit (r.clock v.own.session.readings) fields, ?_, ?_, ?_⟩, ?_⟩
    · simp [Session.emit, haudit]
    · simp only [AuditTrace.emit, Stage.after_concat, hafter, Option.bind_some]
      exact h
    · simpa [Session.emit, haudit] using hstamped.emit fields
    · intro hlast
      refine hgranted (hv.granted ?_)
      simpa [Session.emit, haudit] using hlast
  exact ⟨⟨s', hnext⟩, hnext⟩

end Rules

/-! ## Between two events -/

/-- No response was lost. -/
def Calm (err : PyError) : Prop := ¬ err.Lost

namespace Still

variable {α : Type} {N : PyError → Prop}

theorem refl (o : Local) : Still o o := ⟨rfl, le_rfl, rfl⟩

theorem query {g : Database → Except PyError α} (hN : ∀ db err, g db = .error err → N err) :
    (Py.query g).Moves Still N :=
  .read refl fun v => hN v.shared

theorem own (g : Session → α) : (Py.own g).Moves Still N :=
  .read refl fun _ _ h => by cases h

/-- What may raise writes no event. -/
theorem raising {res : Except PyError α} (hN : ∀ err, res = .error err → N err) :
    (Py.raising res).Moves Still N :=
  .ofExcept hN

/-- A change of the session that leaves the trace, the clock and the last permit. -/
theorem update {f : Session → α × Session} (haudit : ∀ s, (f s).2.audit = s.audit)
    (hreadings : ∀ s, s.readings ≤ (f s).2.readings)
    (hlast : ∀ s, (f s).2.lastExecution = s.lastExecution) : (Py.update f).Moves Still N :=
  .atomically (fun _ => ⟨haudit _, hreadings _, hlast _⟩) fun _ _ h => by cases h

/-- A transaction writes no event. -/
theorem transaction {t : Database → Except PyError (α × Database)}
    (hN : ∀ db err, t db = .error err → N err) : (Py.transaction t).Moves Still N := by
  refine .atomically (fun v => ?_) fun v err h => ?_
  · cases t v.shared <;> exact refl _
  · cases ht : t v.shared with
    | ok x => simp [ht] at h
    | error err' =>
        simp only [ht, Except.error.injEq] at h
        exact h ▸ hN _ _ ht

theorem callLearns (f : Call → Call) : (Py.callLearns f).Moves Still N :=
  .modify fun _ => ⟨rfl, le_rfl, rfl⟩

theorem note (f : Session → String) : (Py.touch fun s => s.note (f s)).Moves Still N :=
  update (fun _ => rfl) (fun _ => le_rfl) fun _ => rfl

/-- A reading passes without an event. -/
theorem now (clock : Clock) : (Py.now clock).Moves Still N :=
  update (fun _ => rfl) (fun _ => Nat.le_succ _) fun _ => rfl

theorem record (tool : String) (arguments : List (String × PlainValue)) :
    (Py.record tool arguments).Moves Still N :=
  update (f := fun s => ((), s.record tool arguments)) (fun _ => rfl) (fun _ => le_rfl)
    fun _ => rfl

theorem propose (n : Nat) : (Py.propose n).Moves Still N :=
  .atomically (fun _ => ⟨rfl, le_rfl, rfl⟩) fun _ _ h => by cases h

theorem readShouldFail (tool : String) :
    (Py.update fun s => s.readShouldFail tool).Moves Still N := by
  refine update (fun s => ?_) (fun s => ?_) fun s => ?_
  all_goals cases hi : s.injector <;> simp [Session.readShouldFail, hi]

theorem shouldTimeoutAfterCommit (action : String) :
    (Py.update fun s => s.shouldTimeoutAfterCommit action).Moves Still N := by
  refine update (fun s => ?_) (fun s => ?_) fun s => ?_
  all_goals cases hi : s.injector <;> simp [Session.shouldTimeoutAfterCommit, hi]

/-- Injected changes write none. -/
theorem applyPreCommit (action : String) : (Py.applyPreCommit action).Moves Still Calm := by
  refine .bind (update (fun s => ?_) (fun s => ?_) fun s => ?_) fun changes => ?_
  iterate 3 cases hi : s.injector <;> simp [Session.preCommit, hi]
  induction changes with
  | nil => exact .ret _
  | cons change changes ih =>
      refine .bind (transaction fun db err h => not_lost ?_) fun _ => ih
      have hraised : injectAll [change] db = (.error err, db) := by
        simp [injectAll, map_eq_error.mp h]
      exact injectAll_raises hraised

/-! ### Reads -/

/-- A read writes none. -/
theorem call (tool : String) (arguments : List (String × PlainValue))
    (fetch : Database → Except PyError α) (made left : Nat) :
    (ReadTools.call tool arguments fetch made left).Moves Still fun _ => True := by
  induction left generalizing made with
  | zero => exact .fail trivial
  | succ left ih =>
      refine .bind (record _ _) fun _ => .bind (readShouldFail tool) fun fails => ?_
      split_ifs
      · exact ih _
      · exact query fun _ _ _ => trivial

theorem recovering {read : Py (Option α)} (h : read.Moves Still fun _ => True) :
    (ReadTools.recovering read).Moves Still fun _ => True := by
  refine .tryCatch (.bind h fun _ => .ret _) fun err _ => ?_
  cases err with
  | readUnavailable tool attempts => exact .ret _
  | _ => exact .fail trivial

theorem optional {read : Py (Option α)} (needed : Bool) (h : read.Moves Still fun _ => True) :
    (ReadTools.optional needed read).Moves Still fun _ => True := by
  unfold ReadTools.optional
  split_ifs
  · exact recovering h
  · exact .ret _

/-- All the reads write none. -/
theorem snapshot (r : Runner) (proposal : ActionProposal) :
    (r.snapshot proposal).Moves Still fun _ => True := by
  refine .bind (recovering (call _ _ _ _ _)) fun order => ?_
  refine .bind (optional _ (call _ _ _ _ _)) fun payment => ?_
  refine .bind (optional _ (call _ _ _ _ _)) fun shipment => ?_
  refine .bind ?_ fun refundPolicy => .bind (now _) fun now => .ret _
  unfold ReadTools.policyOf
  split
  · exact .ret _
  · exact optional _ (call _ _ _ _ _)

/-! ### Permits and executions -/

/-- A permit is announced by others. -/
theorem issuePermit (issuer : PermitIssuer) (request : PermitRequest) :
    (issuer.issuePermit request).Moves Still fun _ => True := by
  refine .bind (update (fun _ => rfl) (fun _ => le_rfl) fun _ => rfl) fun sequence => ?_
  exact .bind (now _) fun issuedAt => transaction fun _ _ _ => trivial

/-- The commit itself is announced behind it. -/
theorem commit (e : Executor) (permit : ExecutionPermit) (proposal : ActionProposal)
    (texts : TicketTexts) : (e.commit permit proposal texts).Moves Still Calm := by
  refine .bind (raising fun err h => ?_) fun auth => ?_
  · simp [WriteAuthorization.mint] at h
  refine .bind (now _) fun now => .bind (record _ _) fun _ => ?_
  refine .tryCatch (transaction (N := Calm) fun db err h => ?_) fun err hcalm => ?_
  · rintro ⟨tool, key, rfl⟩
    exact commitAll_not_lost h
  · cases err with
    | staleResource resourceId version => exact .ret _
    | _ => exact .fail hcalm

/-- The checks write none. -/
theorem runChecks (e : Executor) (permit : Option ExecutionPermit) (proposal : ActionProposal)
    (texts : TicketTexts) : (e.runChecks permit proposal texts).Moves Still Calm := by
  cases permit with
  | none => exact .ret _
  | some permit =>
      unfold Executor.runChecks
      dsimp only
      split_ifs
      · exact .ret _
      refine .bind (query fun db err h => not_lost (resolveTarget_raises h)) fun target => ?_
      cases target with
      | none => exact .ret _
      | some target =>
          dsimp only
          split_ifs
          · exact .ret _
          refine .bind (now _) fun now => .bind (raising fun err h => ?_) fun expiresAt => ?_
          · unfold parseIso at h
            split at h <;> cases h
            exact not_lost ⟨_, rfl⟩
          split_ifs
          · exact .ret _
          refine .bind (query fun _ _ h => by cases h) fun stored => ?_
          refine .bind (raising fun err h => ?_) fun answer => ?_
          · unfold Executor.lateChecks at h
            split_ifs at h
            split at h
            · cases h
            · exact not_lost (transitionAllowed_raises (map_eq_error.mp h))
          cases answer with
          | some result => exact .ret _
          | none => exact .bind (applyPreCommit _) fun _ => commit e permit proposal texts

end Still

/-! ## The executor -/

/-- Behind the stage a permit may be presented. -/
def Stage.Presents (s : Stage) (ticket : Bool) (left : Nat) : Prop :=
  ∀ fields, fields.eventType = .mutationAttempted →
    s.follow fields = some { s with phase := .attempted ticket left }

/-- The stage behind the executor's answer. -/
def Stage.answered (s : Stage) (ticket : Bool) (left : Nat) (result : ExecutionResult) : Stage :=
  { s with phase :=
      if ticket then .closed left
      else if result.fresh then .written left
      else if result.committed then .written (min left 1)
      else .refused (result.reasonCode = some .staleResourceVersion) (min left 1) }

section Executor

variable {r : Runner} {s s' : Stage} {proposal : ActionProposal} {texts : TicketTexts}
variable {ticket : Bool} {left : Nat}

/-- An event of the executor that may come now. -/
theorem executor_emits {eventType : EventType} {permit : Option ExecutionPermit}
    {result : Option ExecutionResult} {extra : List (String × PlainValue)}
    (h : ∀ fields, fields.eventType = eventType →
      fields.reasonCode = result.bind ExecutionResult.reasonCode → s.follow fields = some s')
    (hgranted : s.granted = true → s'.granted = true) :
    (r.executor.emit eventType proposal permit result extra).Privately (OnTrack r)
      (AtStage r s) (fun _ => AtStage r s') (fun err o => OnTrack r o ∧ Calm err) := by
  have haudited : (Py.own fun s => s.audit.isSome).Privately (OnTrack r) (AtStage r s)
      (fun audited o => AtStage r s o ∧ audited = true)
      (fun err o => OnTrack r o ∧ Calm err) := by
    refine .read (fun o ho => ⟨s, ho⟩) fun v hv => ⟨hv, ?_⟩
    obtain ⟨audit, haudit, -⟩ := hv.trace
    show v.own.session.audit.isSome = true
    rw [haudit, Option.isSome_some]
  refine .bind haudited fun audited => .of_and fun haudited => ?_
  rw [if_pos haudited]
  have hlook : (Py.query fun db => db.resolveTarget proposal).Moves Still Calm :=
    Still.query fun db err h => not_lost (resolveTarget_raises h)
  refine .bind ((stays hlook s).conseq (fun _ h => h) (fun _ _ h => h)
    fun err o h => ⟨⟨s, h.1⟩, h.2⟩) fun target => ?_
  exact (emits (h _ rfl rfl) hgranted).conseq (fun _ h => h) (fun _ _ h => h) fun _ _ h => h.elim

/-- An answer of the executor closes the attempt. -/
theorem respond_follows (permit : Option ExecutionPermit) (result : ExecutionResult) :
    (r.executor.respond proposal permit result).Privately (OnTrack r)
      (AtStage r { s with phase := .attempted ticket left })
      (fun result => AtStage r (s.answered ticket left result))
      (fun err o => OnTrack r o ∧ (err.Lost → ticket = false →
        AtStage r { s with phase := .written left } o)) := by
  -- whichever event it is, it takes the stage to where the answer does
  have answers : ∀ eventType extra,
      (∀ fields : EventFields, fields.eventType = eventType →
        fields.reasonCode = (some result).bind ExecutionResult.reasonCode →
        Stage.follow { s with phase := .attempted ticket left } fields =
          some (s.answered ticket left result)) →
      (r.executor.emit eventType proposal permit (some result) extra).Privately (OnTrack r)
        (AtStage r { s with phase := .attempted ticket left })
        (fun _ => AtStage r (s.answered ticket left result))
        (fun err o => OnTrack r o ∧ (err.Lost → ticket = false →
          AtStage r { s with phase := .written left } o)) := by
    intro eventType extra h
    refine (executor_emits h fun hg => hg).conseq (fun _ h => h) (fun _ _ h => h) ?_
    exact fun err o h => ⟨h.1, fun hlost => absurd hlost h.2⟩
  unfold Executor.respond
  split_ifs with hfresh hcommitted
  · refine .bind (answers .mutationCommitted [] fun fields hf _ => ?_) fun _ => ?_
    · cases ticket <;> simp [Stage.follow, Stage.answered, hf, hfresh]
    refine .bind ((stays (Still.shouldTimeoutAfterCommit _ (N := fun _ => False)) _).conseq
      (fun _ h => h) (fun _ _ h => h) fun _ _ h => h.2.elim) fun lost => ?_
    have hwritten : ∀ o, AtStage r (s.answered ticket left result) o → ticket = false →
        AtStage r { s with phase := .written left } o := by
      rintro o ho rfl
      simpa [Stage.answered, hfresh] using ho
    cases lost with
    | false => exact .ret result fun _ h => h
    | true =>
        cases permit with
        | none => exact .fail _ fun o ho => ⟨⟨_, ho⟩, fun _ => hwritten o ho⟩
        | some permit => exact .fail _ fun o ho => ⟨⟨_, ho⟩, fun _ => hwritten o ho⟩
  · refine .bind (answers .mutationReplayed _ fun fields hf _ => ?_) fun _ =>
      .ret result fun _ h => h
    cases ticket <;> simp [Stage.follow, Stage.answered, hf, hfresh, hcommitted]
  · refine .bind (answers .mutationRejected [] fun fields hf hreason => ?_) fun _ =>
      .ret result fun _ h => h
    cases ticket <;> simp [Stage.follow, Stage.answered, hf, hreason, hfresh, hcommitted]

/-- **An execution**: the permit is presented, and answered at once. -/
theorem execute_follows (h : s.Presents ticket left) (permitId : Option String) :
    (r.executor.execute permitId proposal texts).Privately (OnTrack r) (AtStage r s)
      (fun result => AtStage r (s.answered ticket left result))
      (fun err o => OnTrack r o ∧ (err.Lost → ticket = false →
        AtStage r { s with phase := .written left } o)) := by
  have quiet : ∀ {α : Type} {p : Py α} (s : Stage), p.Moves Still Calm →
      p.Privately (OnTrack r) (AtStage r s) (fun _ => AtStage r s)
        (fun err o => OnTrack r o ∧ (err.Lost → ticket = false →
          AtStage r { s with phase := .written left } o)) := by
    intro α p s hp
    refine (stays hp s).conseq (fun _ h => h) (fun _ _ h => h) ?_
    exact fun err o h => ⟨⟨s, h.1⟩, fun hlost => absurd hlost h.2⟩
  refine .bind (quiet s (Still.query fun _ _ h => by cases h)) fun permit => ?_
  refine .bind ((executor_emits (fun fields hf _ => h fields hf) fun hg => hg).conseq
    (fun _ h => h) (fun _ _ h => h) ?_) fun _ => ?_
  · exact fun err o h => ⟨h.1, fun hlost => absurd hlost h.2⟩
  refine .bind (quiet { s with phase := .attempted ticket left } (Still.runChecks _ _ _ _))
    fun result => ?_
  exact respond_follows permit result

end Executor

/-! ## The runner -/

namespace Stage

/-- An attempt is over: what is left is another proposal, a hand-over, the permit of the last
proposal once more, or the verification. -/
inductive Rests : Stage → Prop
  | escalated (round : Round) (granted : Bool) : Rests ⟨.escalated, round, granted⟩
  | written (left : Nat) (round : Round) (granted : Bool) :
      Rests ⟨.written (left + 1), round, granted⟩
  | refused (stale : Bool) (left : Nat) (round : Round) (granted : Bool) :
      Rests ⟨.refused stale (left + 1), round, granted⟩
  | closed (left : Nat) (round : Round) (granted : Bool) :
      Rests ⟨.closed (left + 1), round, granted⟩

/-- A proposal of the round may be taken up. -/
def Asks (s : Stage) (round : Round) : Prop :=
  ∀ fields, fields.eventType = .proposalCreated →
    fields.extra.lookup "attempt" = some (.int round.attempt) →
    s.follow fields = some { s with phase := .proposed, round }

/-- A permit may be issued for a hand-over. -/
def HandsOver (s : Stage) : Prop :=
  ∀ fields, fields.eventType = .permitIssued →
    s.follow fields = some { s with phase := .permitted true }

/-- The state may be verified. -/
def Ends (s : Stage) : Prop :=
  ∀ fields, fields.eventType = .stateVerified →
    s.follow fields = some { s with phase := .verified }

/-- The first proposal follows on the request. -/
theorem asks_asked (granted : Bool) : Asks ⟨.asked, .first, granted⟩ .first := by
  intro fields hf hattempt
  simp [follow, propose, hf, hattempt]

/-- Behind what was carried out another proposal may follow. -/
theorem asks_written (left : Nat) (round : Round) (granted : Bool) :
    Asks ⟨.written left, round, granted⟩ .chained := by
  intro fields hf hattempt
  simp [follow, propose, hf, hattempt]

/-- Stale state is planned again once. -/
theorem asks_refused (left : Nat) (granted : Bool) :
    Asks ⟨.refused true left, .first, granted⟩ .replanned := by
  intro fields hf hattempt
  simp [follow, propose, hf, hattempt]

/-- After that it is handed over. -/
theorem handsOver_refused (left : Nat) :
    HandsOver ⟨.refused true left, .replanned, true⟩ := by
  intro fields hf
  simp [follow, again, hf]

/-- What the policy hands over gets its ticket. -/
theorem handsOver_escalated (round : Round) (granted : Bool) :
    HandsOver ⟨.escalated, round, granted⟩ := by
  intro fields hf
  simp [follow, hf]

/-- At rest the state may be verified. -/
theorem Rests.ends {s : Stage} (h : s.Rests) : s.Ends := by
  intro fields hf
  cases h <;> simp [follow, hf]

/-- The last permit may be presented once more, and then the state is verified. -/
theorem Rests.presents {s : Stage} (h : s.Rests) (hgranted : s.granted = true) :
    ∃ ticket left, s.Presents ticket left ∧ ∀ result, (s.answered ticket left result).Ends := by
  have hends : ∀ ticket left result, (s.answered ticket left result).Ends := by
    intro ticket left result fields hf
    unfold answered
    split_ifs <;> simp [follow, hf]
  cases h with
  | escalated round granted =>
      exact ⟨true, 0, fun fields hf => by simp_all [follow, again], hends _ _⟩
  | written left round granted =>
      exact ⟨false, left, fun fields hf => by simp_all [follow, again], hends _ _⟩
  | refused stale left round granted =>
      exact ⟨true, left, fun fields hf => by simp_all [follow, again], hends _ _⟩
  | closed left round granted =>
      exact ⟨true, left, fun fields hf => by simp_all [follow, again], hends _ _⟩

end Stage

/-- What the outcome of an attempt says about the trace. -/
structure Attempt.EndsAt (r : Runner) (round : Round) (step : Attempt) (s : Stage) : Prop where
  rests : s.Rests
  replan : step.replan = true → r.allowReplanOnStale = true ∧ round.attempt = 1 ∧
    s = ⟨.refused true 1, round, true⟩
  escalate : step.escalateAfterReplan = true → s = ⟨.refused true 1, .replanned, true⟩
  completed : step.outcome = .completed →
    ∃ left granted, s = ⟨.written (left + 1), round, granted⟩

/-- The attempts the first loop makes from a round on: after stale state in the first, if the
run may replan, one more. -/
def Runner.Tries (r : Runner) : Round → List Nat → Prop
  | _, [] => False
  | round, n :: rest => n = round.attempt ∧
      (r.allowReplanOnStale = true → n = 1 → round = .first ∧ r.Tries .replanned rest)

/-- The attempts of a run are one, or two where it may replan. -/
theorem Runner.tries_attempts (r : Runner) : r.Tries .first r.attempts := by
  unfold Runner.attempts
  cases hallow : r.allowReplanOnStale <;> simp [Runner.Tries, Round.attempt, hallow]

section Runner

variable {r : Runner} {s : Stage} {round : Round} {proposal : ActionProposal}

/-- A stretch without events, where nothing hangs on its exceptions. -/
theorem quiet {α : Type} {N : PyError → Prop} {p : Py α} (h : p.Moves Still N) (s : Stage) :
    p.Privately (OnTrack r) (AtStage r s) (fun _ => AtStage r s) (fun _ => OnTrack r) :=
  (stays h s).conseq (fun _ h => h) (fun _ _ h => h) fun _ _ h => ⟨s, h.1⟩

/-- An event on the way. -/
theorem announces {t : Stage} {fields : EventFields} (h : s.follow fields = some t)
    (hgranted : s.granted = true → t.granted = true) :
    (Py.emit r.clock fields).Privately (OnTrack r) (AtStage r s) (fun _ => AtStage r t)
      (fun _ => OnTrack r) :=
  (emits h hgranted).conseq (fun _ h => h) (fun _ _ h => h) fun _ _ h => h.elim

/-- What the answer to a proposal leaves of the trace. -/
def ExecutionResult.Leaves (result : ExecutionResult) (round : Round) (s : Stage) : Prop :=
  (result.committed = true ∧ ∃ left, s = ⟨.written (left + 1), round, true⟩) ∨
    (result.committed = false ∧
      s = ⟨.refused (result.reasonCode = some .staleResourceVersion) 1, round, true⟩)

/-- An answer leaves the proposal written or refused. -/
theorem ExecutionResult.leaves_answered (result : ExecutionResult) (phase : Phase) {left : Nat}
    (hleft : 1 ≤ left) :
    result.Leaves round (Stage.answered ⟨phase, round, true⟩ false left result) := by
  obtain ⟨n, rfl⟩ := Nat.exists_eq_add_of_le' hleft
  cases hcommitted : result.committed with
  | false =>
      exact .inr ⟨hcommitted, by simp [Stage.answered, ExecutionResult.fresh, hcommitted]⟩
  | true =>
      refine .inl ⟨hcommitted, ?_⟩
      cases hreplayed : result.replayed with
      | false =>
          exact ⟨n, by simp [Stage.answered, ExecutionResult.fresh, hcommitted, hreplayed]⟩
      | true =>
          exact ⟨0, by simp [Stage.answered, ExecutionResult.fresh, hcommitted, hreplayed]⟩

/-- The permit of a proposal is presented, and once more if the response was lost. -/
theorem executeWithRetry_follows (permitId : String) :
    (r.executeWithRetry permitId proposal).Privately (OnTrack r)
      (AtStage r ⟨.permitted false, round, true⟩)
      (fun result o => ∃ s, AtStage r s o ∧ result.Leaves round s) (fun _ => OnTrack r) := by
  have hfirst : Stage.Presents ⟨.permitted false, round, true⟩ false 2 := by
    intro fields hf
    simp [Stage.follow, hf]
  have hsecond : Stage.Presents ⟨.written 2, round, true⟩ false 1 := by
    intro fields hf
    simp [Stage.follow, Stage.again, hf]
  refine .tryCatch ((execute_follows hfirst _).conseq (fun _ h => h) ?_ fun _ _ h => h)
    fun err => ?_
  · exact fun result o h => ⟨_, h, result.leaves_answered _ (by omega)⟩
  cases err with
  | responseTimeout action key =>
      -- the commit was announced before the response was lost
      have hlost : ∀ o, (OnTrack r o ∧ (PyError.Lost (.responseTimeout action key) →
          false = false → AtStage r ⟨.written 2, round, true⟩ o)) →
          AtStage r ⟨.written 2, round, true⟩ o :=
        fun o h => h.2 ⟨_, _, rfl⟩ rfl
      refine Prog.Privately.conseq ?_ hlost (fun _ _ h => h) fun _ _ h => h
      refine .bind (quiet (Still.update (N := fun _ => True) (fun _ => rfl) (fun _ => le_rfl)
        fun _ => rfl) _) fun _ => ?_
      refine (execute_follows hsecond _).conseq (fun _ h => h) ?_ fun _ _ h => h.1
      exact fun result o h => ⟨_, h, result.leaves_answered _ le_rfl⟩
  | _ => exact .fail _ fun _ h => h.1

/-- The second attempt is the one made after stale state. -/
theorem Round.eq_replanned (h : round.attempt ≠ 1) : round = .replanned := by
  cases round with
  | replanned => rfl
  | first => exact absurd rfl h
  | chained => exact absurd rfl h

/-- What the attempt makes of the answer fits the trace. -/
theorem conclude_follows (d : PolicyResult) (result : ExecutionResult)
    (hs : result.Leaves round s) : (r.conclude d round.attempt result).EndsAt r round s := by
  obtain ⟨hcommitted, left, rfl⟩ | ⟨hcommitted, rfl⟩ := hs
  · refine ⟨.written left round true, ?_, ?_, fun _ => ⟨left, true, rfl⟩⟩ <;>
      simp [Runner.conclude, hcommitted]
  · obtain ⟨h, -⟩ | ⟨-, hstale, hallow, hn, hc⟩ | ⟨-, hstale, -, hn, hc⟩ | ⟨-, hc, -⟩ :=
      r.conclude_cases d round.attempt result
    · rw [hcommitted] at h
      cases h
    · rw [hc, hstale]
      exact ⟨.refused true 0 round true, fun _ => ⟨hallow, hn, rfl⟩, by simp, by simp⟩
    · obtain rfl := Round.eq_replanned hn
      rw [hc, hstale]
      exact ⟨.refused true 0 .replanned true, by simp, fun _ => rfl, by simp⟩
    · rw [hc]
      exact ⟨.refused _ 0 round true, by simp, by simp, by simp⟩

/-- An allowed proposal: permit, presentation, answer. -/
theorem executeAllowed_follows (granted : Bool) (d : PolicyResult) :
    (r.executeAllowed proposal d round.attempt).Privately (OnTrack r)
      (AtStage r ⟨.allowed, round, granted⟩)
      (fun step o => ∃ s, AtStage r s o ∧ step.EndsAt r round s) (fun _ => OnTrack r) := by
  refine .bind (quiet (Still.issuePermit _ _) _) fun permit => ?_
  refine .bind (quiet (Still.callLearns (N := fun _ => True) _) _) fun _ => ?_
  refine .bind (announces (t := ⟨.permitted false, round, true⟩) rfl fun _ => rfl) fun _ => ?_
  have hremember : (Py.touch fun s =>
      { s with lastExecution := some (permit.permitId, proposal) }).Privately (OnTrack r)
      (AtStage r ⟨.permitted false, round, true⟩)
      (fun _ => AtStage r ⟨.permitted false, round, true⟩) (fun _ => OnTrack r) :=
    .atomically fun v hv => ⟨⟨_, hv.trace, fun _ => rfl⟩, hv.trace, fun _ => rfl⟩
  refine .bind hremember fun _ => .bind (executeWithRetry_follows _) fun result => ?_
  refine .of_exists fun s hs => ?_
  refine .bind (quiet (Still.callLearns (N := fun _ => True) _) s) fun _ => ?_
  exact .ret _ fun o ho => ⟨s, ho, conclude_follows d result hs⟩

/-- A hand-over: a ticket, or nothing. -/
theorem escalate_follows (hrests : s.Rests) (hhands : s.HandsOver) (orderId : String)
    (reason : ReasonCode) (detail : String) :
    (r.escalate orderId reason detail).Privately (OnTrack r) (AtStage r s)
      (fun _ o => ∃ s', AtStage r s' o ∧ s'.Rests) (fun _ => OnTrack r) := by
  refine .bind (quiet (Still.query (N := fun _ => True) fun _ _ _ => trivial) s)
    fun order => ?_
  cases order with
  | none =>
      refine .bind (quiet (Still.note (N := fun _ => True) _) s) fun _ => ?_
      exact .ret _ fun o ho => ⟨s, ho, hrests⟩
  | some order =>
      refine .bind (quiet (Still.raising (N := fun _ => True) fun _ _ => trivial) s)
        fun ticket => ?_
      refine .bind (quiet (Still.issuePermit _ _) s) fun permit => ?_
      refine .bind (announces (hhands _ rfl) fun hg => hg) fun _ => ?_
      have hpresents : Stage.Presents { s with phase := .permitted true } true 1 := by
        intro fields hf
        simp [Stage.follow, hf]
      refine .bind ((execute_follows hpresents _).conseq (fun _ h => h) (fun _ _ h => h)
        fun _ _ h => h.1) fun result => ?_
      exact .ret _ fun o ho => ⟨_, ho, .closed 0 s.round s.granted⟩

/-- A denial, a hand-over, or an execution. -/
theorem proceed_follows (granted : Bool) (snapshot : PolicySnapshot) (d : PolicyResult) :
    (r.proceed proposal snapshot d round.attempt).Privately (OnTrack r)
      (AtStage r ⟨.validated, round, granted⟩)
      (fun step o => ∃ s, AtStage r s o ∧ step.EndsAt r round s) (fun _ => OnTrack r) := by
  unfold Runner.proceed
  split_ifs with hdeny hescalate
  · refine .bind (announces (t := ⟨.closed 1, round, granted⟩) rfl fun hg => hg) fun _ => ?_
    exact .ret _ fun o ho => ⟨_, ho, .closed 0 round granted, by simp, by simp, by simp⟩
  · refine .bind (announces (t := ⟨.escalated, round, granted⟩) (by rw [hescalate]; rfl)
      fun hg => hg) fun _ => ?_
    refine .bind (escalate_follows (.escalated round granted)
      (Stage.handsOver_escalated round granted) _ _ _) fun _ => ?_
    exact .of_exists fun s hs => .ret _ fun o ho => ⟨s, ho, hs, by simp, by simp, by simp⟩
  · have hallow : d.decision = .allow := by
      cases hd : d.decision <;> simp_all
    refine .bind (announces (t := ⟨.allowed, round, granted⟩) (by rw [hallow]; rfl)
      fun hg => hg) fun _ => ?_
    exact executeAllowed_follows granted d

/-- **An attempt**, from the planner to an outcome. -/
theorem attempt_follows (h : s.Asks round) (orderId : String) :
    (r.attempt round.attempt orderId).Privately (OnTrack r) (AtStage r s)
      (fun step o => ∃ s', AtStage r s' o ∧ step.1.EndsAt r round s') (fun _ => OnTrack r) := by
  refine .bind (quiet (Still.propose (N := fun _ => True) _) s) fun raw => ?_
  refine .bind (announces (h _ rfl rfl) fun hg => hg) fun _ => ?_
  split
  · refine .bind (announces (t := ⟨.closed 1, round, s.granted⟩) rfl fun hg => hg) fun _ => ?_
    exact .ret _ fun o ho => ⟨_, ho, .closed 0 round s.granted, by simp, by simp, by simp⟩
  · rename_i proposal _
    refine .bind (announces (t := ⟨.validated, round, s.granted⟩) rfl fun hg => hg)
      fun _ => ?_
    refine .bind (quiet (Still.snapshot r proposal) _) fun snapshot => ?_
    refine .bind (quiet (Still.raising (N := fun _ => True) fun _ _ => trivial) _) fun d => ?_
    refine .bind (quiet (Still.callLearns (N := fun _ => True) _) _) fun _ => ?_
    refine .bind (proceed_follows s.granted snapshot d) fun step => ?_
    exact .ret _ fun o ho => ho

/-- The first loop ends at rest; where a hand-over is due, a proposal was refused twice. -/
theorem plan_follows (attempts : List Nat) (orderId : String) (htries : r.Tries round attempts)
    (hasks : s.Asks round) :
    (r.plan attempts orderId).Privately (OnTrack r) (AtStage r s)
      (fun planned o => ∃ s', AtStage r s' o ∧ s'.Rests ∧
        (planned.escalateReason.isSome = true → s'.HandsOver) ∧
        (planned.outcome = .completed → s'.Asks .chained ∧ planned.escalateReason = none))
      (fun _ => OnTrack r) := by
  induction attempts generalizing s round orderId with
  | nil => exact htries.elim
  | cons n rest ih =>
      obtain ⟨rfl, hrest⟩ := htries
      refine .bind (attempt_follows hasks orderId) fun step => ?_
      refine .of_exists fun s' hs => ?_
      dsimp only
      split_ifs with hreplan hescalate
      · obtain ⟨hallow, hn, rfl⟩ := hs.replan hreplan
        obtain ⟨rfl, htries⟩ := hrest hallow hn
        refine .bind (quiet (Still.note (N := fun _ => True) _) _) fun _ => ?_
        exact ih _ htries (Stage.asks_refused 1 true)
      · obtain rfl := hs.escalate hescalate
        exact .ret _ fun o ho =>
          ⟨_, ho, hs.rests, fun _ => Stage.handsOver_refused 1, by simp⟩
      · refine .ret _ fun o ho => ⟨_, ho, hs.rests, by simp, fun hcompleted => ?_⟩
        obtain ⟨left, granted, rfl⟩ := hs.completed hcompleted
        exact ⟨Stage.asks_written _ round granted, rfl⟩

/-- The end of the first loop. -/
theorem handOver_follows (planned : Planned) (hrests : s.Rests)
    (hhands : planned.escalateReason.isSome = true → s.HandsOver) :
    (r.handOver planned).Privately (OnTrack r) (AtStage r s)
      (fun _ o => ∃ s', AtStage r s' o ∧ s'.Rests ∧ (planned.escalateReason = none → s' = s))
      (fun _ => OnTrack r) := by
  unfold Runner.handOver
  split
  · exact .ret _ fun o ho => ⟨s, ho, hrests, fun _ => rfl⟩
  · rename_i reason hreason
    refine .bind (escalate_follows hrests (hhands (by rw [hreason]; rfl)) _ _ _) fun _ => ?_
    refine .of_exists fun s' hs => .ret _ fun o ho => ⟨s', ho, hs, fun hnone => ?_⟩
    rw [hreason] at hnone
    cases hnone

/-- The second loop goes on after proposals that were carried out, and ends at rest. -/
theorem chain_follows (planned : Planned) (fuel : Nat) (hrests : s.Rests)
    (hasks : planned.outcome = .completed → s.Asks .chained) :
    (r.chain planned fuel).Privately (OnTrack r) (AtStage r s)
      (fun _ o => ∃ s', AtStage r s' o ∧ s'.Rests) (fun _ => OnTrack r) := by
  induction fuel generalizing s planned with
  | zero =>
      refine .bind (quiet (Still.own (N := fun _ => True) _) s) fun exhausted => ?_
      split_ifs
      · exact .fail _ fun o ho => ⟨s, ho⟩
      · exact .ret _ fun o ho => ⟨s, ho, hrests⟩
  | succ fuel ih =>
      refine .bind (quiet (Still.own (N := fun _ => True) _) s) fun exhausted => ?_
      split_ifs with hchains
      · have hcompleted : planned.outcome = .completed := by
          simp only [Runner.chains, Bool.and_eq_true, decide_eq_true_eq] at hchains
          exact hchains.1.2
        refine .bind (attempt_follows (hasks hcompleted) _) fun step => ?_
        refine .of_exists fun s' hs => ?_
        dsimp only
        split_ifs
        · exact .ret _ fun o ho => ⟨s', ho, hs.rests⟩
        · refine ih _ hs.rests fun hcompleted => ?_
          obtain ⟨left, granted, rfl⟩ := hs.completed hcompleted
          exact Stage.asks_written _ .chained granted
      · exact .ret _ fun o ho => ⟨s, ho, hrests⟩

/-- The deliberate replay, at rest. -/
theorem replay_follows (hrests : s.Rests) :
    r.replay.Privately (OnTrack r) (AtStage r s) (fun _ o => ∃ s', AtStage r s' o ∧ s'.Ends)
      (fun _ => OnTrack r) := by
  have hlast : (Py.own fun s => s.lastExecution).Privately (OnTrack r) (AtStage r s)
      (fun last o => AtStage r s o ∧ (last.isSome = true → s.granted = true))
      (fun _ => OnTrack r) :=
    .read (fun o ho => ⟨s, ho⟩) fun v hv => ⟨hv, hv.granted⟩
  refine .bind hlast fun last => .of_and fun hgranted => ?_
  cases last with
  | none => exact .ret _ fun o ho => ⟨s, ho, hrests.ends⟩
  | some presented =>
      obtain ⟨ticket, left, hpresents, hends⟩ := hrests.presents (hgranted rfl)
      refine .bind ((execute_follows hpresents _).conseq (fun _ h => h) (fun _ _ h => h)
        fun _ _ h => h.1) fun result => ?_
      refine (quiet (Still.note (N := fun _ => True) _) _).conseq (fun _ h => h) ?_
        fun _ _ h => h
      exact fun _ o ho => ⟨_, ho, hends result⟩

/-- The verification, and the end. -/
theorem finish_follows (planned : Planned) (hends : s.Ends) :
    (r.finish planned).Privately (OnTrack r) (AtStage r s)
      (fun _ o => ∃ s', AtStage r s' o ∧ s'.phase = .finished) (fun _ => OnTrack r) := by
  have hverify : (r.verify planned.orderId).Privately (OnTrack r) (AtStage r s)
      (fun _ => AtStage r { s with phase := .verified }) (fun _ => OnTrack r) := by
    refine .bind (quiet (Still.query (N := fun _ => True) fun _ _ _ => trivial) s) fun order => ?_
    refine .bind (quiet (Still.query (N := fun _ => True) fun _ _ _ => trivial) s)
      fun payment => ?_
    refine .bind (quiet (Still.query (N := fun _ => True) fun _ _ _ => trivial) s)
      fun shipment => ?_
    refine .bind (quiet (Still.query (N := fun _ => True) fun _ _ _ => trivial) s)
      fun refunded => ?_
    exact .bind (announces (hends _ rfl) fun hg => hg) fun _ => .ret _ fun _ h => h
  have hreport : ∀ state, (r.report planned.outcome planned.reasonCode state).Moves Still
      fun _ => True := by
    intro state
    refine .bind (Still.query fun _ _ _ => trivial) fun rows => ?_
    refine .bind (Still.query fun _ _ _ => trivial) fun refunds => ?_
    refine .bind (Still.query fun _ _ _ => trivial) fun tickets => ?_
    refine .bind (Still.own _) fun toolCalls => .bind (Still.own _) fun recovered => ?_
    exact .bind (Still.own _) fun notes => .ret _
  refine .bind hverify fun state => .bind (quiet (hreport state) _) fun report => ?_
  refine .bind (announces (t := { s with phase := .finished }) rfl fun hg => hg) fun _ => ?_
  exact .ret _ fun o ho => ⟨_, ho, rfl⟩

/-- A whole run. -/
theorem run_follows :
    r.run.Privately (OnTrack r) (AtStage r {})
      (fun _ o => ∃ s, AtStage r s o ∧ s.phase = .finished) (fun _ => OnTrack r) := by
  refine .bind (announces (t := ⟨.asked, .first, false⟩) rfl fun hg => hg) fun _ => ?_
  refine .bind (plan_follows _ _ r.tries_attempts (Stage.asks_asked false)) fun planned => ?_
  refine .of_exists fun s hs => ?_
  obtain ⟨hrests, hhands, hasks⟩ := hs
  refine .bind (handOver_follows planned hrests hhands) fun _ => ?_
  refine .of_exists fun s' hs' => ?_
  obtain ⟨hrests', hsame⟩ := hs'
  refine .bind (quiet (Still.own (N := fun _ => True) _) s') fun left => ?_
  refine .bind (chain_follows planned left hrests' fun hcompleted => ?_) fun chained => ?_
  · obtain ⟨hasks, hnone⟩ := hasks hcompleted
    rw [hsame hnone]
    exact hasks
  refine .of_exists fun s'' hrests'' => ?_
  dsimp only
  split_ifs
  · exact .bind (replay_follows hrests'') fun _ => .of_exists fun _ => finish_follows chained
  · exact finish_follows chained hrests''.ends

end Runner

/-! ## Along every interleaving -/

section Reachable

variable {ι : Type} [DecidableEq ι] {runs : Runs ι} {db : Database}
variable {c : Pool ι PyError Database Local RunReport} {E : Database → Database → Prop}

/-- **Every trace follows the grammar.**  Any number of runs on one database, next to others who
may do anything to it.  At any moment the trace of a run is a beginning of one the grammar
accepts, and a whole one if the run has returned its report.  All its events belong to the run and
bear successive readings of its clock; and no permit is presented, not even a second time, unless
a validated proposal was allowed and a permit was issued before it, or it is the ticket of a
hand-over the policy announced right before. -/
theorem trace_follows_grammar (h : Pool.Reaches E (runs.pool db) c) (i : ι) :
    ∃ audit stage, (c.threads i).own.session.audit = some audit ∧
      Stage.after audit.events = some stage ∧
      (∀ report, (c.threads i).answer = some (.ok report) → stage.phase = .finished) ∧
      Stamped (runs.runners i) (c.threads i).own.session.readings audit ∧
      ∀ before event rest, audit.events = before ++ event :: rest →
        event.eventType = .mutationAttempted →
        Stage.Authorised before := by
  have hstart : ∀ i, AtStage (runs.runners i) {} ((runs.pool db).threads i).own := fun i =>
    ⟨⟨_, rfl, rfl, rfl, rfl, by simp, [], by simp⟩, fun hlast => by cases hlast⟩
  have hrun : ∀ i, ((runs.pool db).threads i).code.Privately (OnTrack (runs.runners i))
      (· = ((runs.pool db).threads i).own)
      (fun _ o => ∃ s, AtStage (runs.runners i) s o ∧ s.phase = .finished)
      (fun _ => OnTrack (runs.runners i)) := fun i =>
    run_follows.conseq (fun o ho => ho ▸ hstart i) (fun _ _ h => h) fun _ _ h => h
  obtain ⟨⟨s, hs⟩, hends⟩ := Pool.reachable_private (fun i => ⟨{}, hstart i⟩) hrun h i
  obtain ⟨audit, haudit, hafter, hstamped⟩ := hs.trace
  refine ⟨audit, s, haudit, hafter, fun report hreport => ?_, hstamped, ?_⟩
  · obtain ⟨s', hs', hfinished⟩ := hends _ hreport
    obtain ⟨audit', haudit', hafter', -⟩ := hs'.trace
    cases haudit.symm.trans haudit'
    cases hafter.symm.trans hafter'
    exact hfinished
  · intro before event rest hevents htype
    rw [hevents] at hafter
    exact Stage.authorised_of_attempted hafter htype

/-- The trace of a cancel whose parcel was shipped meanwhile. -/
theorem trace_shippedMeanwhile :
    ∃ audit stage, (shippedMeanwhile.threads false).own.session.audit = some audit ∧
      Stage.after audit.events = some stage ∧
      (∀ report, (shippedMeanwhile.threads false).answer = some (.ok report) →
        stage.phase = .finished) ∧
      Stamped (overtakenRuns.runners false)
        (shippedMeanwhile.threads false).own.session.readings audit ∧
      ∀ before event rest, audit.events = before ++ event :: rest →
        event.eventType = .mutationAttempted →
        Stage.Authorised before :=
  trace_follows_grammar (Pool.reaches_iterate (E := Later) _ false 30) false

end Reachable

end BoundedRefund
