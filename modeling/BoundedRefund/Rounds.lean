import BoundedRefund.Concurrent.Triple
import BoundedRefund.Stages

/-!
# The rounds of an undisturbed run

The first loop, the escalation behind it, the chain, the replay and the report, each
with a relation that lists its endings independently of the recursion it is run by.
A theorem about a run goes by induction on these relations (`run_run` splits the run
into them) and never looks at a loop again.
-/

namespace BoundedRefund

open Concurrent Relational

variable {r : Runner} {v v' : World}

/-- A stage that returns leads to `P`, one that raises to `E`. -/
def Ends {α : Type} (P : α → World → Prop) (E : PyError → World → Prop) :
    Except PyError α → World → Prop
  | .ok a, v => P a v
  | .error err, v => E err v

/-- An attempt that was made. -/
structure Tried (r : Runner) (n : Nat) (orderId : String) (v v' : World) (call : Call)
    (res : Except PyError (Attempt × String)) : Prop where
  carries : Carries v v'
  called : Called n v v' call
  attempted : Attempted r n orderId v v' call res

/-- What a stage that makes no proposal keeps. -/
structure Aside (v v' : World) : Prop extends Carries v v' where
  history : v'.own.history = v.own.history
  planner : v'.own.session.planner = v.own.session.planner
  last : v'.own.session.lastExecution = v.own.session.lastExecution

theorem Aside.refl (v : World) : Aside v v := ⟨Carries.refl v, rfl, rfl, rfl⟩

/-- What is steady is aside. -/
theorem Steady.aside (h : Steady v v') : Aside v v' :=
  ⟨h.carries, h.history, h.planner, h.lastExecution⟩

/-- A note is of no consequence. -/
theorem Ticks.note (v : World) (text : String) :
    Ticks 0 v ⟨v.shared, { v.own with session := v.own.session.note text }⟩ :=
  Ticks.of_session rfl rfl rfl rfl rfl rfl

/-! ## The first loop -/

/-- Stale state was found twice. -/
def Planned.stale (orderId : String) : Planned where
  outcome := .escalated
  reasonCode := .staleResourceVersion
  orderId := orderId
  escalateReason := some .staleResourceVersion

/-- **How the first loop ends.** -/
inductive Planning (r : Runner) :
    List Nat → String → World → World → Except PyError Planned → Prop
  | exhausted (orderId : String) (v : World) :
      Planning r [] orderId v v (.ok (.stale orderId))
  | broken (n : Nat) (rest : List Nat) (orderId : String) (v v' : World) (call : Call)
      (err : PyError) (tried : Tried r n orderId v v' call (.error err)) :
      Planning r (n :: rest) orderId v v' (.error err)
  | again (n : Nat) (rest : List Nat) (orderId : String) (v t u v' : World) (call : Call)
      (step : Attempt) (stepOrderId : String) (res : Except PyError Planned)
      (tried : Tried r n orderId v t call (.ok (step, stepOrderId)))
      (replan : step.replan = true) (ticks : Ticks 0 t u)
      (planning : Planning r rest (textOr stepOrderId orderId) u v' res) :
      Planning r (n :: rest) orderId v v' res
  | stale (n : Nat) (rest : List Nat) (orderId : String) (v v' : World) (call : Call)
      (step : Attempt) (stepOrderId : String)
      (tried : Tried r n orderId v v' call (.ok (step, stepOrderId)))
      (escalate : step.escalateAfterReplan = true) :
      Planning r (n :: rest) orderId v v' (.ok (.stale (textOr stepOrderId orderId)))
  | settled (n : Nat) (rest : List Nat) (orderId : String) (v v' : World) (call : Call)
      (step : Attempt) (stepOrderId : String)
      (tried : Tried r n orderId v v' call (.ok (step, stepOrderId)))
      (replan : step.replan = false) (escalate : step.escalateAfterReplan = false) :
      Planning r (n :: rest) orderId v v'
        (.ok { outcome := step.outcome, reasonCode := step.reasonCode,
               orderId := textOr stepOrderId orderId })

/-- The first loop carries the run's own state on. -/
theorem Planning.carries {attempts : List Nat} {orderId : String} {res : Except PyError Planned}
    (h : Planning r attempts orderId v v' res) : Carries v v' := by
  induction h with
  | exhausted orderId v => exact Carries.refl v
  | broken n rest orderId v v' call err tried => exact tried.carries
  | again n rest orderId v t u v' call step stepOrderId res tried replan ticks planning ih =>
      exact (tried.carries.trans ticks.toSteady.carries).trans ih
  | stale n rest orderId v v' call step stepOrderId tried => exact tried.carries
  | settled n rest orderId v v' call step stepOrderId tried => exact tried.carries

/-- What the first loop does. -/
theorem run_plan {attempts : List Nat} {orderId : String} {res : Except PyError Planned}
    (haudit : v.own.session.audit.isSome = true)
    (h : (r.plan attempts orderId).run v = (res, v')) :
    Planning r attempts orderId v v' res := by
  induction attempts generalizing orderId v with
  | nil =>
      rw [Runner.plan, Py.run_pure, Prod.mk.injEq] at h
      obtain ⟨rfl, rfl⟩ := h
      exact .exhausted orderId v
  | cons n rest ih =>
      obtain ⟨err, hattempt, rfl⟩ | ⟨⟨step, stepOrderId⟩, t, hattempt, h⟩ := Py.run_bind_cases h
      · obtain ⟨hcarries, call, hcalled, hattempted, -⟩ := run_attempt haudit hattempt
        exact .broken n rest orderId v v' call err ⟨hcarries, hcalled, hattempted⟩
      obtain ⟨hcarries, call, hcalled, hattempted, -⟩ := run_attempt haudit hattempt
      have htried : Tried r n orderId v t call (.ok (step, stepOrderId)) :=
        ⟨hcarries, hcalled, hattempted⟩
      dsimp only at h
      split_ifs at h with hreplan hescalate
      · have h := Py.run_touch_bind h
        have hticks := Ticks.note t
          ("replanning after stale state (attempt " ++ toString n ++ ")")
        exact .again n rest orderId v t _ v' call step stepOrderId res htried hreplan hticks
          (ih (hticks.audited.trans (hcarries.audited.trans haudit)) h)
      · rw [Py.run_pure, Prod.mk.injEq] at h
        obtain ⟨rfl, rfl⟩ := h
        exact .stale n rest orderId v t call step stepOrderId htried hescalate
      · rw [Py.run_pure, Prod.mk.injEq] at h
        obtain ⟨rfl, rfl⟩ := h
        exact .settled n rest orderId v t call step stepOrderId htried
          (Bool.eq_false_iff.mpr hreplan) (Bool.eq_false_iff.mpr hescalate)

/-- The loop asks for a second attempt where it may, and for no third one. -/
def Runner.MayAttempt (r : Runner) (attempts : List Nat) : Prop :=
  (r.allowReplanOnStale = false ∧ attempts = [1]) ∨
    (r.allowReplanOnStale = true ∧ (attempts = [1, 2] ∨ attempts = [2]))

/-- The loop attempts once or twice. -/
theorem Runner.mayAttempt_attempts (r : Runner) : r.MayAttempt r.attempts := by
  unfold MayAttempt attempts
  cases r.allowReplanOnStale <;> simp

/-- Only a first attempt asks for another one, and only a later one gives up. -/
theorem Attempted.replans {n : Nat} {orderId : String} {call : Call}
    {res : Except PyError (Attempt × String)} (h : Attempted r n orderId v v' call res)
    {step : Attempt} {stepOrderId : String} (hres : res = .ok (step, stepOrderId)) :
    (step.replan = true → r.allowReplanOnStale = true ∧ n = 1) ∧
      (step.escalateAfterReplan = true → r.allowReplanOnStale = true ∧ n ≠ 1) := by
  cases h with
  | rejected reason => cases hres; simp
  | unread proposal err => cases hres
  | unjudged proposal s err => cases hres
  | judged proposal s d w res valid reads evaluated judged idle last proceeded =>
      cases proceeded with
      | denied decision => cases hres; simp
      | escalated decision u res =>
          cases res with
          | error err => cases hres
          | ok ticket => cases hres; simp
      | unissued decision err => cases hres
      | executed decision u y t permit res =>
          cases res with
          | error err => cases hres
          | ok result =>
              cases hres
              obtain ⟨-, hstep⟩ | ⟨-, -, hallow, hn, hstep⟩ | ⟨-, -, hallow, hn, hstep⟩ |
                ⟨-, hstep, -⟩ := r.conclude_cases d n result <;> dsimp only
              · simp [hstep]
              · rw [hstep]
                simp [hallow, hn]
              · rw [hstep]
                simp [hallow, hn]
              · simp [hstep]

/-- **The rule for the first loop**: an attempt that asks for another one leads on to it, and any
other one is the last.  It raises, or it has found stale state once too often, or it settles the
outcome. -/
theorem Planning.rule {attempts : List Nat} {orderId : String} {res : Except PyError Planned}
    (h : Planning r attempts orderId v v' res) (hmay : r.MayAttempt attempts)
    {I : Nat → World → Prop} {J : Planned → World → Prop} {E : PyError → World → Prop}
    (first : ∀ n ∈ attempts.head?, I n v)
    (again : ∀ orderId v t u call step stepOrderId, I 1 v →
      Tried r 1 orderId v t call (.ok (step, stepOrderId)) → step.replan = true →
      Ticks 0 t u → I 2 u)
    (broken : ∀ n orderId v v' call err, I n v → Tried r n orderId v v' call (.error err) →
      E err v')
    (stale : ∀ n orderId v v' call step stepOrderId, I n v →
      Tried r n orderId v v' call (.ok (step, stepOrderId)) →
      step.escalateAfterReplan = true → J (.stale (textOr stepOrderId orderId)) v')
    (settled : ∀ n orderId v v' call step stepOrderId, I n v →
      Tried r n orderId v v' call (.ok (step, stepOrderId)) → step.replan = false →
      step.escalateAfterReplan = false →
      J { outcome := step.outcome, reasonCode := step.reasonCode,
          orderId := textOr stepOrderId orderId } v') :
    Ends J E res v' := by
  induction h with
  | exhausted orderId v => simp [Runner.MayAttempt] at hmay
  | broken n rest orderId v v' call err tried =>
      exact broken n orderId v v' call err (first n rfl) tried
  | again n rest orderId v t u v' call step stepOrderId res tried replan ticks planning ih =>
      obtain ⟨hallow, rfl⟩ := (tried.attempted.replans rfl).1 replan
      -- it was the first attempt, so there is exactly one more
      have hrest : rest = [2] := by
        rcases hmay with ⟨hdeny, -⟩ | ⟨-, hlist | hlist⟩
        · simp [hallow] at hdeny
        · simpa using hlist
        · simp at hlist
      subst hrest
      refine ih (Or.inr ⟨hallow, Or.inr rfl⟩) ?_
      intro n hn
      cases hn
      exact again orderId v t u call step stepOrderId (first 1 rfl) tried replan ticks
  | stale n rest orderId v v' call step stepOrderId tried escalate =>
      exact stale n orderId v v' call step stepOrderId (first n rfl) tried escalate
  | settled n rest orderId v v' call step stepOrderId tried replan escalate =>
      exact settled n orderId v v' call step stepOrderId (first n rfl) tried replan escalate

/-- What the first loop leaves: an outcome, or stale state for an order. -/
def Planned.Leaves (planned : Planned) (Q : Prop) (S : String → Prop) : Prop :=
  (planned.escalateReason = none ∧ Q) ∨ ∃ orderId, planned = .stale orderId ∧ S orderId

/-! ## The escalation behind it -/

/-- The detail of an escalation after stale state. -/
def staleDetail : String := "stale state after replan"

/-- What the end of the first loop does: nothing, or a hand-over. -/
inductive HandedOver (r : Runner) (planned : Planned) (v v' : World) :
    Except PyError Unit → Prop
  | unasked (unasked : planned.escalateReason = none) (same : v' = v) :
      HandedOver r planned v v' (.ok ())
  | asked (reason : ReasonCode) (asked : planned.escalateReason = some reason)
      (res : Except PyError (Option ExecutionResult))
      (escalated : Escalated r planned.orderId reason staleDetail v v' res) :
      HandedOver r planned v v' (res.map fun _ => ())

/-- **The rule for the hand-over**: it is asked for behind stale state only. -/
theorem HandedOver.rule {planned : Planned} {res : Except PyError Unit}
    (h : HandedOver r planned v v' res) {Q : Prop} {S : String → Prop}
    {P : Except PyError Unit → World → Prop} (hleft : planned.Leaves Q S)
    (unasked : Q → P (.ok ()) v)
    (asked : ∀ orderId res, planned = .stale orderId → S orderId →
      Escalated r orderId .staleResourceVersion staleDetail v v' res →
      P (res.map fun _ => ()) v') : P res v' := by
  cases h with
  | unasked none same =>
      subst same
      rcases hleft with ⟨-, hQ⟩ | ⟨orderId, rfl, -⟩
      · exact unasked hQ
      · cases none
  | asked reason some res escalated =>
      rcases hleft with ⟨hnone, -⟩ | ⟨orderId, rfl, hS⟩
      · cases hnone.symm.trans some
      · cases some
        exact asked orderId res rfl hS escalated

/-- What the hand-over does. -/
theorem run_handOver {planned : Planned} {res : Except PyError Unit}
    (haudit : v.own.session.audit.isSome = true)
    (h : (r.handOver planned).run v = (res, v')) :
    Aside v v' ∧ HandedOver r planned v v' res := by
  unfold Runner.handOver at h
  cases hreason : planned.escalateReason with
  | none =>
      simp only [hreason, Py.run_pure, Prod.mk.injEq] at h
      obtain ⟨rfl, rfl⟩ := h
      exact ⟨Aside.refl v, .unasked hreason rfl⟩
  | some reason =>
      simp only [hreason] at h
      obtain ⟨err, hescalate, rfl⟩ | ⟨ticket, t, hescalate, h⟩ := Py.run_bind_cases h
      · obtain ⟨hcarries, hhistory, hplanner, hlast, hescalated⟩ :=
          run_escalate haudit hescalate
        exact ⟨⟨hcarries, hhistory, hplanner, hlast⟩,
          .asked reason hreason (.error err) hescalated⟩
      · obtain ⟨hcarries, hhistory, hplanner, hlast, hescalated⟩ :=
          run_escalate haudit hescalate
        rw [Py.run_pure, Prod.mk.injEq] at h
        obtain ⟨rfl, rfl⟩ := h
        exact ⟨⟨hcarries, hhistory, hplanner, hlast⟩,
          .asked reason hreason (.ok ticket) hescalated⟩

/-! ## The chain -/

/-- **How the chain ends.** -/
inductive Chained (r : Runner) : Planned → World → World → Except PyError Planned → Prop
  | stopped (planned : Planned) (v : World)
      (done : r.chains planned v.own.session.planner.exhausted = false) :
      Chained r planned v v (.ok planned)
  | broken (planned : Planned) (v v' : World) (call : Call) (err : PyError)
      (goes : r.chains planned v.own.session.planner.exhausted = true)
      (tried : Tried r 1 planned.orderId v v' call (.error err)) :
      Chained r planned v v' (.error err)
  /-- The step found stale state, and the loop is left. -/
  | dropped (planned : Planned) (v v' : World) (call : Call) (step : Attempt)
      (stepOrderId : String)
      (goes : r.chains planned v.own.session.planner.exhausted = true)
      (tried : Tried r 1 planned.orderId v v' call (.ok (step, stepOrderId)))
      (stale : step.replan = true ∨ step.escalateAfterReplan = true) :
      Chained r planned v v' (.ok { planned with orderId := stepOrderId })
  | next (planned : Planned) (v t v' : World) (call : Call) (step : Attempt)
      (stepOrderId : String) (res : Except PyError Planned)
      (goes : r.chains planned v.own.session.planner.exhausted = true)
      (tried : Tried r 1 planned.orderId v t call (.ok (step, stepOrderId)))
      (replan : step.replan = false) (escalate : step.escalateAfterReplan = false)
      (chained : Chained r { planned with outcome := step.outcome, reasonCode := step.reasonCode,
                                          orderId := stepOrderId } t v' res) :
      Chained r planned v v' res

/-- The second loop goes on behind what was carried out, while there are proposals. -/
theorem Runner.chains_eq_true {planned : Planned} {exhausted : Bool}
    (h : r.chains planned exhausted = true) :
    r.chainProposals = true ∧ planned.outcome = .completed ∧ exhausted = false := by
  simpa [chains, and_assoc] using h

/-- The second loop carries the run's own state on. -/
theorem Chained.carries {planned : Planned} {res : Except PyError Planned}
    (h : Chained r planned v v' res) : Carries v v' := by
  induction h with
  | stopped planned v => exact Carries.refl v
  | broken planned v v' call err goes tried => exact tried.carries
  | dropped planned v v' call step stepOrderId goes tried => exact tried.carries
  | next planned v t v' call step stepOrderId res goes tried replan escalate chained ih =>
      exact tried.carries.trans ih

/-- **The rule for the chain**: what holds while it goes on holds behind every completed step,
and leads to what holds where it stops or is left. -/
theorem Chained.leads {planned : Planned} {res : Except PyError Planned}
    (h : Chained r planned v v' res) {J K : Planned → World → Prop}
    {E : PyError → World → Prop} (hJ : J planned v)
    (stop : ∀ planned v, J planned v → K planned v)
    (step : ∀ planned v v' call res, J planned v → planned.outcome = .completed →
      v.own.session.planner.exhausted = false → Tried r 1 planned.orderId v v' call res →
      Ends (fun a v' =>
        (a.1.replan = true ∨ a.1.escalateAfterReplan = true →
          K { planned with orderId := a.2 } v') ∧
        (a.1.replan = false → a.1.escalateAfterReplan = false →
          J { planned with outcome := a.1.outcome, reasonCode := a.1.reasonCode,
                           orderId := a.2 } v')) E res v') :
    Ends K E res v' := by
  induction h with
  | stopped planned v done => exact stop planned v hJ
  | broken planned v v' call err goes tried =>
      obtain ⟨-, hcompleted, hleft⟩ := Runner.chains_eq_true goes
      exact step planned v v' call _ hJ hcompleted hleft tried
  | dropped planned v v' call a stepOrderId goes tried stale =>
      obtain ⟨-, hcompleted, hleft⟩ := Runner.chains_eq_true goes
      exact (step planned v v' call _ hJ hcompleted hleft tried).1 stale
  | next planned v t v' call a stepOrderId res goes tried replan escalate chained ih =>
      obtain ⟨-, hcompleted, hleft⟩ := Runner.chains_eq_true goes
      exact ih ((step planned v t call _ hJ hcompleted hleft tried).2 replan escalate)

/-- The rule for a chain that ends with an outcome. -/
theorem Chained.leads_ok {planned last : Planned} (h : Chained r planned v v' (.ok last))
    {J K : Planned → World → Prop} (hJ : J planned v)
    (stop : ∀ planned v, J planned v → K planned v)
    (step : ∀ planned v v' call step orderId, J planned v → planned.outcome = .completed →
      Tried r 1 planned.orderId v v' call (.ok (step, orderId)) →
      (step.replan = true ∨ step.escalateAfterReplan = true → K { planned with orderId } v') ∧
      (step.replan = false → step.escalateAfterReplan = false →
        J { planned with outcome := step.outcome, reasonCode := step.reasonCode, orderId } v')) :
    K last v' := by
  have hends : Ends K (fun _ _ => True) (.ok last) v' := by
    refine h.leads hJ stop ?_
    intro planned v v' call res hJ hcompleted _ tried
    cases res with
    | error err => trivial
    | ok a => exact step planned v v' call a.1 a.2 hJ hcompleted tried
  exact hends

/-- Every round uses a proposal up, so the rounds the loop is given are enough. -/
theorem run_chain {planned : Planned} {fuel : Nat} {res : Except PyError Planned}
    (haudit : v.own.session.audit.isSome = true)
    (hfuel : v.own.session.planner.remaining ≤ fuel)
    (h : (r.chain planned fuel).run v = (res, v')) :
    Chained r planned v v' res := by
  induction fuel generalizing planned v with
  | zero =>
      have h := Py.run_own_bind h
      have hexhausted : v.own.session.planner.exhausted = true :=
        ScriptedPlanner.exhausted_iff.mpr (Nat.le_zero.mp hfuel)
      split_ifs at h with hgoes
      · simp [(Runner.chains_eq_true hgoes).2.2] at hexhausted
      · rw [Py.run_pure, Prod.mk.injEq] at h
        obtain ⟨rfl, rfl⟩ := h
        exact .stopped planned v (Bool.eq_false_iff.mpr hgoes)
  | succ fuel ih =>
      have h := Py.run_own_bind h
      split_ifs at h with hgoes
      · obtain ⟨err, hattempt, rfl⟩ | ⟨⟨step, stepOrderId⟩, t, hattempt, h⟩ :=
          Py.run_bind_cases h
        · obtain ⟨hcarries, call, hcalled, hattempted, -⟩ := run_attempt haudit hattempt
          exact .broken planned v v' call err hgoes ⟨hcarries, hcalled, hattempted⟩
        obtain ⟨hcarries, call, hcalled, hattempted, -⟩ := run_attempt haudit hattempt
        have htried : Tried r 1 planned.orderId v t call (.ok (step, stepOrderId)) :=
          ⟨hcarries, hcalled, hattempted⟩
        dsimp only at h
        split_ifs at h with hstale
        · rw [Py.run_pure, Prod.mk.injEq] at h
          obtain ⟨rfl, rfl⟩ := h
          exact .dropped planned v t call step stepOrderId hgoes htried hstale
        · have hleft : t.own.session.planner.remaining ≤ fuel := by
            rw [hcalled.planner, ScriptedPlanner.remaining_propose]
            omega
          exact .next planned v t v' call step stepOrderId res hgoes htried
            (Bool.eq_false_iff.mpr (not_or.mp hstale).1)
            (Bool.eq_false_iff.mpr (not_or.mp hstale).2)
            (ih (hcarries.audited.trans haudit) hleft h)
      · rw [Py.run_pure, Prod.mk.injEq] at h
        obtain ⟨rfl, rfl⟩ := h
        exact .stopped planned v (Bool.eq_false_iff.mpr hgoes)

/-! ## The replay -/

/-- What the end of a run does with its last permit: nothing, or it presents it again. -/
inductive Replayed (r : Runner) (v v' : World) : Except PyError Unit → Prop
  | unasked (same : v' = v)
      (cause : r.replayLastPermit = false ∨ v.own.session.lastExecution = none) :
      Replayed r v v' (.ok ())
  | presented (permitId : String) (proposal : ActionProposal)
      (res : Except PyError ExecutionResult)
      (last : v.own.session.lastExecution = some (permitId, proposal)) (t : World)
      (executed : Executed r.executor (some permitId) proposal {} v t res)
      (shared : v'.shared = t.shared) (asked : r.replayLastPermit = true) :
      Replayed r v v' (res.map fun _ => ())

/-- What the deliberate replay does. -/
theorem run_replay {res : Except PyError Unit} (hasked : r.replayLastPermit = true)
    (h : r.replay.run v = (res, v')) :
    Steady v v' ∧ Replayed r v v' res := by
  have h := Py.run_own_bind h
  cases hlast : v.own.session.lastExecution with
  | none =>
      simp only [hlast, Py.run_pure, Prod.mk.injEq] at h
      obtain ⟨rfl, rfl⟩ := h
      exact ⟨Steady.refl v, .unasked rfl (Or.inr hlast)⟩
  | some last =>
      obtain ⟨permitId, proposal⟩ := last
      simp only [hlast] at h
      obtain ⟨err, hexec, rfl⟩ | ⟨result, t, hexec, h⟩ := Py.run_bind_cases h
      · obtain ⟨hsteady, hexecuted⟩ := run_execute hexec
        exact ⟨hsteady, .presented permitId proposal (.error err) hlast v' hexecuted rfl hasked⟩
      · obtain ⟨hsteady, hexecuted⟩ := run_execute hexec
        rw [Py.run_touch, Prod.mk.injEq] at h
        obtain ⟨rfl, rfl⟩ := h
        exact ⟨hsteady.trans (Ticks.note t _).toSteady,
          .presented permitId proposal (.ok result) hlast t hexecuted rfl hasked⟩

/-! ## The report -/

/-- How a run ends: with its report, or over a row it cannot read. -/
inductive Finished (r : Runner) (planned : Planned) (v : World) :
    Except PyError RunReport → Prop
  | reported (report : RunReport) (outcome : report.outcome = planned.outcome)
      (reasonCode : report.reasonCode = planned.reasonCode) :
      Finished r planned v (.ok report)
  | unreadable (err : PyError) (cause : Unreadable v.shared planned.orderId err) :
      Finished r planned v (.error err)

/-- The report is written without a change. -/
theorem run_report {outcome : Outcome} {reasonCode : ReasonCode} {finalState : VerifiedState}
    {res : Except PyError RunReport}
    (h : (r.report outcome reasonCode finalState).run v = (res, v')) :
    v' = v ∧ ∃ report, res = .ok report ∧ report.outcome = outcome ∧
      report.reasonCode = reasonCode := by
  obtain ⟨_, he, -⟩ | ⟨rows, hr, h⟩ := Py.run_query_bind h
  · cases he
  obtain ⟨_, he, -⟩ | ⟨refunds, hr, h⟩ := Py.run_query_bind h
  · cases he
  obtain ⟨_, he, -⟩ | ⟨tickets, hr, h⟩ := Py.run_query_bind h
  · cases he
  have h := Py.run_own_bind h
  have h := Py.run_own_bind h
  have h := Py.run_own_bind h
  rw [Py.run_pure, Prod.mk.injEq] at h
  obtain ⟨rfl, rfl⟩ := h
  exact ⟨rfl, _, rfl, rfl, rfl⟩

/-- What the end of a run does. -/
theorem run_finish {planned : Planned} {res : Except PyError RunReport}
    (haudit : v.own.session.audit.isSome = true)
    (h : (r.finish planned).run v = (res, v')) :
    v'.shared = v.shared ∧ v'.own.history = v.own.history ∧ Finished r planned v res := by
  obtain ⟨err, hverify, rfl⟩ | ⟨state, t, hverify, h⟩ := Py.run_bind_cases h
  · obtain ⟨_, ho, he, rfl⟩ | ⟨order, ho, hverify⟩ := Py.run_query_bind hverify
    · cases he
      exact ⟨rfl, rfl, .unreadable err (Or.inl ho)⟩
    obtain ⟨_, hp, he, rfl⟩ | ⟨payment, hp, hverify⟩ := Py.run_query_bind hverify
    · cases he
      exact ⟨rfl, rfl, .unreadable err (Or.inr (Or.inl hp))⟩
    obtain ⟨_, hs, he, rfl⟩ | ⟨shipment, hs, hverify⟩ := Py.run_query_bind hverify
    · cases he
      exact ⟨rfl, rfl, .unreadable err (Or.inr (Or.inr hs))⟩
    obtain ⟨_, he, -⟩ | ⟨refunded, -, hverify⟩ := Py.run_query_bind hverify
    · cases he
    obtain ⟨u, -, hverify⟩ := Py.run_emit_bind_audited haudit hverify
    simp at hverify
  · obtain ⟨_, -, he, -⟩ | ⟨order, -, hverify⟩ := Py.run_query_bind hverify
    · cases he
    obtain ⟨_, -, he, -⟩ | ⟨payment, -, hverify⟩ := Py.run_query_bind hverify
    · cases he
    obtain ⟨_, -, he, -⟩ | ⟨shipment, -, hverify⟩ := Py.run_query_bind hverify
    · cases he
    obtain ⟨_, he, -⟩ | ⟨refunded, -, hverify⟩ := Py.run_query_bind hverify
    · cases he
    obtain ⟨u, hu, hverify⟩ := Py.run_emit_bind_audited haudit hverify
    rw [Py.run_pure, Prod.mk.injEq] at hverify
    obtain ⟨-, rfl⟩ := hverify
    obtain ⟨_, hreport, -⟩ | ⟨report, w, hreport, hlast⟩ := Py.run_bind_cases h
    · obtain ⟨-, _, he, -⟩ := run_report hreport
      cases he
    obtain ⟨rfl, _, he, houtcome, hreason⟩ := run_report hreport
    cases he
    obtain ⟨y, hy, hlast⟩ := Py.run_emit_bind_audited (hu.audited.trans haudit) hlast
    rw [Py.run_pure, Prod.mk.injEq] at hlast
    obtain ⟨rfl, rfl⟩ := hlast
    exact ⟨hy.shared.trans hu.shared, hy.history.trans hu.history,
      .reported report houtcome hreason⟩

/-! ## The whole run -/

/-- **How a run ends.** -/
inductive Ran (r : Runner) (v v' : World) : Except PyError RunReport → Prop
  | unplanned (err : PyError) (t : World) (begun : Ticks 1 v t)
      (planning : Planning r r.attempts r.defaultOrderId t v' (.error err)) :
      Ran r v v' (.error err)
  | unhanded (err : PyError) (t u : World) (planned : Planned) (begun : Ticks 1 v t)
      (planning : Planning r r.attempts r.defaultOrderId t u (.ok planned))
      (aside : Aside u v') (handed : HandedOver r planned u v' (.error err)) :
      Ran r v v' (.error err)
  | unchained (err : PyError) (t u w : World) (planned : Planned) (begun : Ticks 1 v t)
      (planning : Planning r r.attempts r.defaultOrderId t u (.ok planned))
      (aside : Aside u w) (handed : HandedOver r planned u w (.ok ()))
      (chained : Chained r planned w v' (.error err)) : Ran r v v' (.error err)
  | unreplayed (err : PyError) (t u w y : World) (planned chain : Planned) (begun : Ticks 1 v t)
      (planning : Planning r r.attempts r.defaultOrderId t u (.ok planned))
      (aside : Aside u w) (handed : HandedOver r planned u w (.ok ()))
      (chained : Chained r planned w y (.ok chain)) (steady : Steady y v')
      (replayed : Replayed r y v' (.error err)) : Ran r v v' (.error err)
  | finished (t u w y z : World) (planned chain : Planned) (res : Except PyError RunReport)
      (begun : Ticks 1 v t)
      (planning : Planning r r.attempts r.defaultOrderId t u (.ok planned))
      (aside : Aside u w) (handed : HandedOver r planned u w (.ok ()))
      (chained : Chained r planned w y (.ok chain)) (steady : Steady y z)
      (replayed : Replayed r y z (.ok ())) (shared : v'.shared = z.shared)
      (history : v'.own.history = z.own.history) (finished : Finished r chain z res) :
      Ran r v v' res

/-- Every run of the runner ends in one of the listed ways. -/
theorem run_run {res : Except PyError RunReport} (haudit : v.own.session.audit.isSome = true)
    (h : r.run.run v = (res, v')) : Ran r v v' res := by
  obtain ⟨t, ht, h⟩ := Py.run_emit_bind_audited haudit h
  have haudit := ht.audited.trans haudit
  obtain ⟨err, hplan, rfl⟩ | ⟨planned, u, hplan, h⟩ := Py.run_bind_cases h
  · exact .unplanned err t ht (run_plan haudit hplan)
  have hplanning := run_plan haudit hplan
  have haudit := hplanning.carries.audited.trans haudit
  obtain ⟨err, hhand, rfl⟩ | ⟨_, w, hhand, h⟩ := Py.run_bind_cases h
  · obtain ⟨haside, hhanded⟩ := run_handOver haudit hhand
    exact .unhanded err t u planned ht hplanning haside hhanded
  obtain ⟨haside, hhanded⟩ := run_handOver haudit hhand
  have haudit := haside.audited.trans haudit
  have h := Py.run_own_bind h
  obtain ⟨err, hchain, rfl⟩ | ⟨chain, y, hchain, h⟩ := Py.run_bind_cases h
  · exact .unchained err t u w planned ht hplanning haside hhanded
      (run_chain haudit le_rfl hchain)
  have hchained := run_chain haudit le_rfl hchain
  have haudit := hchained.carries.audited.trans haudit
  dsimp only at h
  split_ifs at h with hasked
  · obtain ⟨err, hreplay, rfl⟩ | ⟨_, z, hreplay, h⟩ := Py.run_bind_cases h
    · obtain ⟨hsteady, hreplayed⟩ := run_replay hasked hreplay
      exact .unreplayed err t u w y planned chain ht hplanning haside hhanded hchained hsteady
        hreplayed
    obtain ⟨hsteady, hreplayed⟩ := run_replay hasked hreplay
    obtain ⟨hshared, hhistory, hfinished⟩ := run_finish (hsteady.audited.trans haudit) h
    exact .finished t u w y z planned chain res ht hplanning haside hhanded hchained hsteady
      hreplayed hshared hhistory hfinished
  · obtain ⟨hshared, hhistory, hfinished⟩ := run_finish haudit h
    exact .finished t u w y y planned chain res ht hplanning haside hhanded hchained
      (Steady.refl y) (.unasked rfl (Or.inl (Bool.eq_false_iff.mpr hasked))) hshared hhistory
      hfinished

/-- **The rule for whole runs.**  What each stage makes of what the one before it left, and
of an exception, holds when the run stops. -/
theorem Ran.rule {res : Except PyError RunReport} (h : Ran r v v' res) {B : World → Prop}
    {P H C : Planned → World → Prop} {S : Planned → World → Prop} {E : PyError → World → Prop}
    {F : RunReport → World → Prop}
    (begin : ∀ t, Ticks 1 v t → B t)
    (plan : ∀ t u res, B t → Planning r r.attempts r.defaultOrderId t u res → Ends P E res u)
    (hand : ∀ planned u w res, P planned u → Aside u w → HandedOver r planned u w res →
      Ends (fun _ => H planned) E res w)
    (chain : ∀ planned w y res, H planned w → Chained r planned w y res → Ends C E res y)
    (replay : ∀ planned y z res, C planned y → Steady y z → Replayed r y z res →
      Ends (fun _ => S planned) E res z)
    (finish : ∀ planned z z' res, S planned z → z'.shared = z.shared →
      z'.own.history = z.own.history → Finished r planned z res → Ends F E res z') :
    Ends F E res v' := by
  cases h with
  | unplanned err t begun planning => exact plan t v' _ (begin t begun) planning
  | unhanded err t u planned begun planning aside handed =>
      exact hand planned u v' _ (plan t u _ (begin t begun) planning) aside handed
  | unchained err t u w planned begun planning aside handed chained =>
      exact chain planned w v' _ (hand planned u w _ (plan t u _ (begin t begun) planning) aside
        handed) chained
  | unreplayed err t u w y planned last begun planning aside handed chained steady replayed =>
      have hhand := hand planned u w _ (plan t u _ (begin t begun) planning) aside handed
      exact replay last y v' _ (chain planned w y _ hhand chained) steady replayed
  | finished t u w y z planned last res begun planning aside handed chained steady replayed
      shared history finished =>
      have hhand := hand planned u w _ (plan t u _ (begin t begun) planning) aside handed
      have hreplay := replay last y z _ (chain planned w y _ hhand chained) steady replayed
      exact finish last z v' res hreplay shared history finished

/-! ## What every attempt keeps -/

section Triples

variable {I : World → Prop} {E : PyError → World → Prop} {F : RunReport → World → Prop}

/-- A look at the session keeps everything. -/
theorem triple_own {α : Type} (f : Session → α) : (Py.own f).Triple I (fun _ => I) E := by
  intro v hv
  rw [Py.run_own]
  exact hv

/-- What an attempt keeps, the first loop keeps. -/
theorem triple_plan (hattempt : ∀ n orderId, (r.attempt n orderId).Triple I (fun _ => I) E)
    (hnote : ∀ text, (Py.touch fun s => s.note text).Triple I (fun _ => I) E)
    (attempts : List Nat) (orderId : String) :
    (r.plan attempts orderId).Triple I (fun _ => I) E := by
  induction attempts generalizing orderId with
  | nil => exact .ret _ fun _ h => h
  | cons n rest ih =>
      refine (hattempt n orderId).bind fun step => ?_
      dsimp only
      split_ifs
      · exact (hnote _).bind fun _ => ih _
      · exact .ret _ fun _ h => h
      · exact .ret _ fun _ h => h

/-- So does the second. -/
theorem triple_chain (hattempt : ∀ n orderId, (r.attempt n orderId).Triple I (fun _ => I) E)
    (hfuel : ∀ v, I v → E .outOfFuel v) (planned : Planned) (fuel : Nat) :
    (r.chain planned fuel).Triple I (fun _ => I) E := by
  induction fuel generalizing planned with
  | zero =>
      refine (triple_own _).bind fun exhausted => ?_
      split_ifs
      · exact .fail _ hfuel
      · exact .ret _ fun _ h => h
  | succ fuel ih =>
      refine (triple_own _).bind fun exhausted => ?_
      split_ifs
      · refine (hattempt 1 _).bind fun followUp => ?_
        dsimp only
        split_ifs
        · exact .ret _ fun _ h => h
        · exact ih _
      · exact .ret _ fun _ h => h

/-- **The rule for what every attempt keeps**, whatever it ends in: the loops keep it, and the
whole run does if the stages without a proposal do. -/
theorem triple_run (hattempt : ∀ n orderId, (r.attempt n orderId).Triple I (fun _ => I) E)
    (hemit : ∀ fields : EventFields, fields.eventType = .userRequestReceived →
      (Py.emit r.clock fields).Triple I (fun _ => I) E)
    (hnote : ∀ text, (Py.touch fun s => s.note text).Triple I (fun _ => I) E)
    (hfuel : ∀ v, I v → E .outOfFuel v)
    (hhand : ∀ planned, (r.handOver planned).Triple I (fun _ => I) E)
    (hreplay : r.replayLastPermit = true → r.replay.Triple I (fun _ => I) E)
    (hfinish : ∀ planned, (r.finish planned).Triple I F E) : r.run.Triple I F E := by
  refine (hemit _ rfl).bind fun _ => ?_
  refine (triple_plan hattempt hnote _ _).bind fun planned => ?_
  refine (hhand planned).bind fun _ => (triple_own _).bind fun left => ?_
  refine (triple_chain hattempt hfuel _ _).bind fun chained => ?_
  dsimp only
  split_ifs with hasked
  · exact (hreplay hasked).bind fun _ => hfinish _
  · exact hfinish _

end Triples

/-! ## From the start -/

/-- The run has its trace, and the injector of its scenario. -/
structure Wired (spec : FailureSpec) (v : World) : Prop where
  audited : v.own.session.audit.isSome = true
  injector : v.own.session.injector.map FailureInjector.spec = some spec

namespace Wired

variable {spec : FailureSpec}

/-- The failures are those of the scenario at the beginning. -/
theorem start (r : Runner) (spec : FailureSpec) (db : Database) (proposals : List RawProposal) :
    Wired spec ⟨db, r.start proposals spec⟩ := ⟨rfl, rfl⟩

/-- They are so later. -/
theorem carries (h : Wired spec v) (hcarries : Carries v v') : Wired spec v' :=
  ⟨hcarries.audited.trans h.audited, hcarries.injector.trans h.injector⟩

/-- Nothing is due that the scenario does not ask for. -/
theorem asks (h : Wired spec v) {action : String} {change : StateChange}
    (hdue : change ∈ v.own.session.due action) : spec.Asks change := by
  obtain ⟨injector, hinjector, rfl⟩ := Option.map_eq_some_iff.mp h.injector
  simp only [Session.due, Session.preCommit, hinjector] at hdue
  exact (injector.preCommit_spec action).2 change hdue

end Wired

end BoundedRefund
