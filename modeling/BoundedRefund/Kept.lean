import BoundedRefund.Rounds
import BoundedRefund.Untouched

/-!
# What every statement of a run keeps

A single run on a database of its own issues permits, makes the changes its scenario asks
for and commits executions; it does nothing else to the database.  A property those three
keep (`Kept`) therefore holds in every state a run reaches, and in particular in every
state one of its calls was made in (`kept_run`).
-/

namespace BoundedRefund

open Concurrent Relational

/-- A property of databases that the statements of a run keep. -/
structure Kept (r : Runner) (spec : FailureSpec) (J : Database → Prop) : Prop where
  issue : ∀ db db' row expiresAt, row.expiresAt = toIso expiresAt →
    db.insertPermit row = .ok db' → J db → J db'
  inject : ∀ db db' (c : StateChange), spec.Asks c → c.apply db = .ok db' → J db → J db'
  commit : ∀ db db' (x : Execution), x.runId = r.runId →
    (x.proposal.action = .issueRefund → ∃ row, db.payments.find? x.permit.resourceId = some row ∧
      row.orderId = x.proposal.orderId) →
    x.Commits db db' → J db → J db'

section Stages

variable {r : Runner} {spec : FailureSpec} {J : Database → Prop} {v v' : World}

/-- The changes before a commit, as far as they get. -/
theorem Kept.injectAll (hkept : Kept r spec J) {due : List StateChange}
    (hdue : ∀ c ∈ due, spec.Asks c) {db db' : Database} {res : Except PyError Unit}
    (h : injectAll due db = (res, db')) (hJ : J db) : J db' := by
  induction due generalizing db with
  | nil =>
      cases h
      exact hJ
  | cons c due ih =>
      rw [BoundedRefund.injectAll] at h
      cases hap : c.apply db with
      | error err =>
          simp only [hap, Prod.mk.injEq] at h
          obtain ⟨-, rfl⟩ := h
          exact hJ
      | ok mid =>
          simp only [hap] at h
          have hmid := hkept.inject _ _ c (hdue c List.mem_cons_self) hap hJ
          exact ih (fun c hc => hdue c (List.mem_cons_of_mem _ hc)) h hmid

/-- An execution keeps what its steps keep. -/
theorem Executed.kept {permitId : Option String} {proposal : ActionProposal}
    {texts : TicketTexts} {res : Except PyError ExecutionResult}
    (h : Executed r.executor permitId proposal texts v v' res) (hkept : Kept r spec J)
    (hw : Wired spec v) (hJ : J v.shared) : J v'.shared := by
  have hdue : ∀ c ∈ v.own.session.due (str proposal.action), spec.Asks c := fun _ => hw.asks
  cases h with
  | answered result shared => exact shared ▸ hJ
  | failed err shared => exact shared ▸ hJ
  | overtaken permit target now resourceId version loaded clear injected =>
      exact hkept.injectAll hdue injected hJ
  | spoiled err permit target now res loaded clear injected =>
      exact hkept.injectAll hdue injected hJ
  | committed permit target now mid res loaded clear injected commits =>
      refine hkept.commit mid _ _ rfl (fun ha => ?_) commits (hkept.injectAll hdue injected hJ)
      obtain ⟨row, hrow, horder⟩ := clear.payment_order ha
      obtain ⟨row', hrow', -⟩ := commits.payment_pinned ha
      have hkeeps := (Injected.of_injectAll injected).payment_order hrow hrow'
      exact ⟨row', hrow', hkeeps.trans horder⟩

/-- So do two of them. -/
theorem Retried.kept {permitId : String} {proposal : ActionProposal}
    {res : Except PyError ExecutionResult} (h : Retried r permitId proposal v v' res)
    (hkept : Kept r spec J) (hw : Wired spec v) (hJ : J v.shared) : J v'.shared := by
  cases h with
  | once res executed => exact executed.kept hkept hw hJ
  | twice tool key t u res first steady idle second =>
      have ht := first.kept hkept hw hJ
      rw [← idle.shared] at ht
      exact second.kept hkept ((hw.carries steady.carries).carries idle.toSteady.carries) ht

/-- To issue a permit keeps it. -/
theorem Equipped.kept {request : PermitRequest} {permit : ExecutionPermit}
    (h : Equipped r request permit v v') (hkept : Kept r spec J) (hJ : J v.shared) :
    J v'.shared :=
  hkept.issue _ _ _ _ (by rw [h.issued]; rfl) h.inserted hJ

/-- A hand-over keeps it. -/
theorem Escalated.kept {orderId detail : String} {reason : ReasonCode}
    {res : Except PyError (Option ExecutionResult)}
    (h : Escalated r orderId reason detail v v' res) (hkept : Kept r spec J)
    (hw : Wired spec v) (hJ : J v.shared) : J v'.shared := by
  cases h with
  | unknown missing shared => exact shared ▸ hJ
  | unread err cause shared => exact shared ▸ hJ
  | unproposed err order found cause shared => exact shared ▸ hJ
  | unissued err order found cause shared => exact shared ▸ hJ
  | executed order proposal permit w res found proposed equipped steady executed =>
      exact executed.kept hkept (hw.carries equipped.carries) (equipped.kept hkept hJ)

/-- An attempt keeps it. -/
theorem Tried.kept {n : Nat} {orderId : String} {call : Call}
    {res : Except PyError (Attempt × String)} (h : Tried r n orderId v v' call res)
    (hkept : Kept r spec J) (hw : Wired spec v) (hJ : J v.shared) : J v'.shared := by
  cases h.attempted with
  | rejected reason invalid unjudged idle => exact idle.shared ▸ hJ
  | unread proposal err valid unjudged shared => exact shared ▸ hJ
  | unjudged proposal s err valid unjudged shared => exact shared ▸ hJ
  | judged proposal s d w res valid reads evaluated judged idle last proceeded =>
      have hw' := hw.carries idle.carries
      have hJw : J w.shared := idle.shared ▸ hJ
      cases proceeded with
      | denied decision idle' => exact idle'.shared ▸ hJw
      | escalated decision u res idle' last' escalated =>
          exact escalated.kept hkept (hw'.carries idle'.carries) (idle'.shared ▸ hJw)
      | unissued decision err u idle' cause shared => exact shared ▸ idle'.shared ▸ hJw
      | executed decision u y t permit res idle' equipped presented steady retried shared =>
          have hJy := equipped.kept hkept (idle'.shared ▸ hJw)
          rw [shared]
          exact retried.kept hkept ((hw'.carries idle'.carries).carries equipped.carries) hJy

/-- The end of the first loop keeps it. -/
theorem HandedOver.kept {planned : Planned} {res : Except PyError Unit}
    (h : HandedOver r planned v v' res) (hkept : Kept r spec J) (hw : Wired spec v)
    (hJ : J v.shared) : J v'.shared := by
  cases h with
  | unasked unasked same => exact same ▸ hJ
  | asked reason asked res escalated => exact escalated.kept hkept hw hJ

/-- The deliberate replay keeps it. -/
theorem Replayed.kept {res : Except PyError Unit} (h : Replayed r v v' res)
    (hkept : Kept r spec J) (hw : Wired spec v) (hJ : J v.shared) : J v'.shared := by
  cases h with
  | unasked same => exact same ▸ hJ
  | presented permitId proposal res last t executed shared =>
      rw [shared]
      exact executed.kept hkept hw hJ

end Stages

/-! ## Along the run -/

/-- What is kept holds now, and held whenever the planner was called; what the planner said
came from its script. -/
structure Along (proposals : List RawProposal) (J : Database → Prop) (v : World) : Prop where
  now : J v.shared
  calls : ∀ call ∈ v.own.history,
    J call.start.shared ∧ (call.raw = .none ∨ call.raw ∈ proposals)

/-- The run has not reported yet. -/
structure Underway (spec : FailureSpec) (proposals : List RawProposal) (J : Database → Prop)
    (v : World) : Prop extends Wired spec v, Along proposals J v where
  script : v.own.session.planner.proposals = proposals

/-- A script stays the same. -/
theorem ScriptedPlanner.proposals_propose (p : ScriptedPlanner) :
    p.propose.2.proposals = p.proposals := by
  unfold propose
  cases p.proposals[p.index]? <;> rfl

/-- The planner says what its script holds, and then nothing. -/
theorem ScriptedPlanner.propose_mem (p : ScriptedPlanner) :
    p.propose.1 = .none ∨ p.propose.1 ∈ p.proposals := by
  unfold propose
  cases h : p.proposals[p.index]? with
  | none => exact Or.inl rfl
  | some raw => exact Or.inr (List.mem_of_getElem? h)

section Along

variable {r : Runner} {spec : FailureSpec} {proposals : List RawProposal}
variable {J : Database → Prop} {v v' : World}

/-- It holds at the beginning. -/
theorem Underway.start (r : Runner) {db : Database} (hJ : J db) :
    Underway spec proposals J ⟨db, r.start proposals spec⟩ :=
  ⟨Wired.start r spec db proposals, ⟨hJ, by simp [Runner.start]⟩, rfl⟩

/-- A stage that calls no planner. -/
theorem Underway.aside (h : Underway spec proposals J v) (haside : Aside v v')
    (hJ : J v'.shared) : Underway spec proposals J v' where
  toWired := h.carries haside.toCarries
  now := hJ
  calls := by
    rw [haside.history]
    exact h.calls
  script := by rw [haside.planner, h.script]

/-- One attempt. -/
theorem Underway.tried (h : Underway spec proposals J v) (hkept : Kept r spec J) {n : Nat}
    {orderId : String} {call : Call} {res : Except PyError (Attempt × String)}
    (ht : Tried r n orderId v v' call res) : Underway spec proposals J v' where
  toWired := h.carries ht.carries
  now := ht.kept hkept h.toWired h.now
  calls := by
    rw [ht.called.history]
    intro other hmem
    rcases List.mem_cons.mp hmem with rfl | hmem
    · refine ⟨by rw [ht.called.start]; exact h.now, ?_⟩
      rw [ht.called.raw, ← h.script]
      exact v.own.session.planner.propose_mem
    · exact h.calls other hmem
  script := by rw [ht.called.planner, ScriptedPlanner.proposals_propose, h.script]

/-- **What every statement keeps, a whole run keeps**, however it stops. -/
theorem kept_run (hkept : Kept r spec J) {db : Database} (hJ : J db) :
    Along proposals J (r.run.run ⟨db, r.start proposals spec⟩).2 := by
  obtain ⟨⟨res, v'⟩, hrun⟩ : ∃ out, r.run.run ⟨db, r.start proposals spec⟩ = out := ⟨_, rfl⟩
  rw [hrun]
  have hstart : Underway spec proposals J ⟨db, r.start proposals spec⟩ := Underway.start r hJ
  have hends : Ends (fun _ => Along proposals J) (fun _ => Along proposals J) res v' := by
    refine (run_run hstart.audited hrun).rule (E := fun _ => Along proposals J)
      (B := Underway spec proposals J) (P := fun _ => Underway spec proposals J)
      (H := fun _ => Underway spec proposals J) (C := fun _ => Underway spec proposals J)
      (S := fun _ => Underway spec proposals J) ?_ ?_ ?_ ?_ ?_ ?_
    · intro t ht
      exact hstart.aside ht.toSteady.aside (ht.shared ▸ hJ)
    · intro t u res h hplanning
      refine hplanning.rule r.mayAttempt_attempts (I := fun _ => Underway spec proposals J)
        (fun n _ => h) ?_ ?_ ?_ ?_
      · intro orderId v t u call step stepOrderId h tried _ ticks
        have ht := h.tried hkept tried
        exact ht.aside ticks.toSteady.aside (ticks.shared ▸ ht.now)
      · exact fun n orderId v v' call err h tried => (h.tried hkept tried).toAlong
      · exact fun n orderId v v' call step stepOrderId h tried _ => h.tried hkept tried
      · exact fun n orderId v v' call step stepOrderId h tried _ _ => h.tried hkept tried
    · intro planned u w res h haside hhanded
      have h' := h.aside haside (hhanded.kept hkept h.toWired h.now)
      cases res with
      | error err => exact h'.toAlong
      | ok _ => exact h'
    · intro planned w y res h hchained
      refine hchained.leads (J := fun _ => Underway spec proposals J) h (fun _ _ h => h) ?_
      intro planned v v' call res h _ _ tried
      have h' := h.tried hkept tried
      cases res with
      | error err => exact h'.toAlong
      | ok a => exact ⟨fun _ => h', fun _ _ => h'⟩
    · intro planned y z res h hsteady hreplayed
      have h' := h.aside hsteady.aside (hreplayed.kept hkept h.toWired h.now)
      cases res with
      | error err => exact h'.toAlong
      | ok _ => exact h'
    · intro planned z z' res h hshared hhistory _
      have h' : Along proposals J z' := by
        refine ⟨hshared ▸ h.now, ?_⟩
        rw [hhistory]
        exact h.calls
      cases res with
      | error err => exact h'
      | ok report => exact h'
  cases res with
  | error err => exact hends
  | ok report => exact hends

end Along

end BoundedRefund
