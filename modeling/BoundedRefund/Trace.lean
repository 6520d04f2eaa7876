import BoundedRefund.Settled

/-!
# Traceability

Every row a run writes into the log goes back to one decision of the policy, and to one
call of the planner that no other row goes back to.  The loops, the retry, the replay and
the ticket of an escalation all reach the executor; what keeps them from writing twice
for one call is that a permit is settled once it was used or its row has moved.

Between two stages of a run, either all rows are traced and the last permit is settled
(`Standing`), or the last permit may still be cleared and its call has no row yet
(`Pending`).  The run goes on to another call only from the former.
-/

namespace BoundedRefund

open Concurrent Relational

/-! ## Rows and calls -/

/-- What the policy was given for a call, and what it decided. -/
structure Judged (r : Runner) (call : Call) (proposal : ActionProposal) (s : PolicySnapshot)
    (d : PolicyResult) : Prop where
  valid : validate r.intFromText call.raw = .ok proposal
  judged : call.judged = some (s, d)
  reads : Reads call.start.shared proposal s
  evaluated : evaluate (some proposal) s = .ok d

/-- The execution of the call was refused as stale. -/
def Call.Refused (call : Call) : Prop :=
  ∃ result, call.answer = some result ∧ result.committed = false ∧
    result.reasonCode = some .staleResourceVersion

/-- The row is what the decision on the call led to: what the policy allowed, or a
ticket. -/
inductive Justified (r : Runner) (row : MutationRow) (call : Call) : Prop
  | allowed (proposal : ActionProposal) (s : PolicySnapshot) (d : PolicyResult)
      (judged : Judged r call proposal s d) (decision : d.decision = .allow)
      (action : row.action = proposal.action) (resource : row.resourceId = d.resourceId)
      (amount : row.amountCents = proposal.amount)
  | ticket (proposal : ActionProposal) (s : PolicySnapshot) (d : PolicyResult)
      (judged : Judged r call proposal s d)
      (cause : d.decision = .escalate ∨ (call.attempt = 2 ∧ call.Refused))
      (action : row.action = .createSupportTicket) (resource : row.resourceId = proposal.orderId)
      (amount : row.amountCents = 0)

/-- The orders the validated proposals of the calls are about. -/
def OrdersOf (r : Runner) (calls : List Call) (orderId : String) : Prop :=
  ∃ call ∈ calls, ∃ proposal, validate r.intFromText call.raw = .ok proposal ∧
    proposal.orderId = orderId

/-- The rows written since `db₀`, call by call, and the changes injected since. -/
structure TraceOf (r : Runner) (spec : FailureSpec) (db₀ db : Database) (calls : List Call)
    (rows : List MutationRow) (changes : List StateChange) : Prop where
  log : db.mutationLog = db₀.mutationLog ++ rows
  justified : List.Forall₂ (Justified r) rows calls
  runId : ∀ row ∈ rows, row.runId = r.runId
  asked : ∀ change ∈ changes, spec.Asks change
  untouched : Untouched (OrdersOf r calls) changes db₀ db

/-- The rows written since `db₀` go back to different calls of the history. -/
def Traced (r : Runner) (spec : FailureSpec) (db₀ db : Database) (history : List Call) : Prop :=
  ∃ calls rows changes, calls.Sublist history.reverse ∧
    TraceOf r spec db₀ db calls rows changes

namespace Traced

variable {r : Runner} {spec : FailureSpec} {db₀ db db' : Database} {history : List Call}
variable {call : Call}

/-- At the beginning nothing is to be traced. -/
theorem start (r : Runner) (spec : FailureSpec) (db : Database) : Traced r spec db db [] :=
  ⟨[], [], [], List.Sublist.refl _, by simp, .nil, by simp, by simp, Untouched.refl db⟩

/-- A call that leads to no row. -/
theorem cons (h : Traced r spec db₀ db history) : Traced r spec db₀ db (call :: history) := by
  obtain ⟨calls, rows, changes, hsub, htrace⟩ := h
  refine ⟨calls, rows, changes, ?_, htrace⟩
  rw [List.reverse_cons]
  exact hsub.trans (List.sublist_append_left _ _)

/-- What nobody traces may change. -/
theorem congr (h : Traced r spec db₀ db history) (hlog : db'.mutationLog = db.mutationLog)
    (horders : db'.orders = db.orders) (hpayments : db'.payments = db.payments)
    (hshipments : db'.shipments = db.shipments) : Traced r spec db₀ db' history := by
  obtain ⟨calls, rows, changes, hsub, htrace⟩ := h
  refine ⟨calls, rows, changes, hsub, hlog.trans htrace.log, htrace.justified, htrace.runId,
    htrace.asked, ?_⟩
  simpa using htrace.untouched.trans (Untouched.of_eq horders hpayments hshipments)

/-- A permit writes no row. -/
theorem equipped (h : Traced r spec db₀ db history) {request : PermitRequest}
    {permit : ExecutionPermit} {v w : World} (he : Equipped r request permit v w)
    (hdb : v.shared = db) : Traced r spec db₀ w.shared history := by
  obtain ⟨permits, -, heq⟩ := Database.insertPermit_eq_ok.mp he.inserted
  subst hdb
  rw [heq]
  exact h.congr rfl rfl rfl rfl

/-- Nor does an injected change. -/
theorem injected (h : Traced r spec db₀ db history) {due : List StateChange}
    (hinjected : Injected due db db') (hdue : ∀ change ∈ due, spec.Asks change) :
    Traced r spec db₀ db' history := by
  obtain ⟨calls, rows, changes, hsub, htrace⟩ := h
  obtain ⟨changes', hall, huntouched⟩ := hinjected.changes
  refine ⟨calls, rows, changes ++ changes', hsub, hinjected.mutationLog.trans htrace.log,
    htrace.justified, htrace.runId, fun change hmem => ?_,
    htrace.untouched.trans (huntouched.mono fun _ hfalse => hfalse.elim)⟩
  exact (List.mem_append.mp hmem).elim (htrace.asked change) fun hmem => hdue _ (hall _ hmem)

/-- A commit, and the call it goes back to. -/
theorem commits (h : Traced r spec db₀ db history) {x : Execution} (hx : x.Commits db db')
    (hrun : x.runId = r.runId) (hjustified : Justified r x.logRow call)
    {proposal : ActionProposal} (hvalid : validate r.intFromText call.raw = .ok proposal)
    (horder : proposal.orderId = x.proposal.orderId)
    (hpayment : x.proposal.action = .issueRefund → ∀ row,
      db.payments.find? x.permit.resourceId = some row → row.orderId = x.proposal.orderId) :
    Traced r spec db₀ db' (call :: history) := by
  obtain ⟨calls, rows, changes, hsub, htrace⟩ := h
  refine ⟨calls ++ [call], rows ++ [x.logRow], changes, ?_, ?_, ?_, ?_, htrace.asked, ?_⟩
  · rw [List.reverse_cons]
    exact hsub.append (List.Sublist.refl _)
  · rw [hx.mutationLog, htrace.log, List.append_assoc]
  · exact List.rel_append htrace.justified (.cons hjustified .nil)
  · intro row hrow
    rcases List.mem_append.mp hrow with hrow | hrow
    · exact htrace.runId row hrow
    · rw [List.mem_singleton.mp hrow]
      exact hrun
  · have hbefore : Untouched (OrdersOf r (calls ++ [call])) changes db₀ db := by
      refine htrace.untouched.mono ?_
      rintro id ⟨other, hmem, hother⟩
      exact ⟨other, List.mem_append_left _ hmem, hother⟩
    have hafter : Untouched (OrdersOf r (calls ++ [call])) [] db db' := by
      refine (Untouched.commits hx hpayment).mono ?_
      rintro id rfl
      exact ⟨call, by simp, proposal, hvalid, horder⟩
    simpa using hbefore.trans hafter

end Traced

/-! ## An allowed call -/

/-- A permit was issued for an allowed call. -/
structure Open (r : Runner) (call : Call) (permitId : String) (proposal : ActionProposal)
    (db : Database) : Prop where
  issued : ∃ s d row, Judged r call proposal s d ∧ d.decision = .allow ∧
    db.executionPermits.find? permitId = some row ∧ row.resourceId = d.resourceId ∧
    row.maxAmountCents = d.maxAmountCents
  reached : db.Reached permitId

/-- Where an allowed call may have got to: nothing was committed for it, or its record is
stored. -/
def Followed (r : Runner) (spec : FailureSpec) (db₀ : Database) (call : Call)
    (history : List Call) (permitId : String) (proposal : ActionProposal) (db : Database) :
    Prop :=
  (Traced r spec db₀ db history ∧ Open r call permitId proposal db) ∨
    (Traced r spec db₀ db (call :: history) ∧ db.Stored permitId)

/-- What an answer of the executor says about an allowed call. -/
def Told (r : Runner) (spec : FailureSpec) (db₀ : Database) (history : List Call)
    (permitId : String) (db : Database) (res : Except PyError ExecutionResult) : Prop :=
  ∀ result, res = .ok result →
    (result.committed = true → db.Settled permitId) ∧
    (result.reasonCode = some .staleResourceVersion →
      Traced r spec db₀ db history ∧ db.Settled permitId)

section Allowed

variable {r : Runner} {spec : FailureSpec} {db₀ : Database} {call : Call} {history : List Call}
variable {permitId : String} {proposal : ActionProposal} {texts : TicketTexts} {v v' : World}
variable {res : Except PyError ExecutionResult}

/-- A call stays open while the database ages. -/
theorem Open.aging {db db' : Database} (h : Open r call permitId proposal db)
    (haging : Aging db db') : Open r call permitId proposal db' := by
  obtain ⟨s, d, row, hjudged, hallow, hrow, hresource, hmax⟩ := h.issued
  obtain ⟨row', hrow', hkept⟩ := haging.permits _ _ hrow
  refine ⟨⟨s, d, row', hjudged, hallow, hrow', ?_, ?_⟩, h.reached.aging haging⟩
  · rcases hkept with rfl | rfl <;> exact hresource
  · rcases hkept with rfl | rfl <;> exact hmax

/-- What is committed under the permit of a call goes back to the call. -/
theorem Open.commits (h : Open r call permitId proposal v.shared) (hw : Wired spec v)
    (htraced : Traced r spec db₀ v.shared history) {permit : ExecutionPermit} {target : Target}
    {now now' : Instant} {mid db' : Database}
    (hload : v.shared.loadPermit (some permitId) = some permit)
    (hclear : Clear v.shared now' permit proposal target)
    (hinjected : Injected (v.own.session.due (str proposal.action)) v.shared mid)
    (hx : (r.executor.execution permit proposal texts now).Commits mid db') :
    Traced r spec db₀ db' (call :: history) := by
  obtain ⟨s, d, row, hjudged, hallow, hrow, hresource, hmax⟩ := h.issued
  obtain ⟨hid, -, row', hfind, rfl⟩ := Database.loadPermit_eq_some hload
  cases hid
  cases hfind.symm.trans hrow
  have hamount : (r.executor.execution row.permit proposal texts now).amount =
      proposal.amount := by
    by_cases ha : proposal.action = .issueRefund
    · exact if_pos ha
    · have hzero : row.maxAmountCents = 0 :=
        hmax.trans (evaluate_allow_maxAmount hjudged.evaluated hallow ha)
      have hle : proposal.amount ≤ row.maxAmountCents := hclear.amount
      have hnonneg := proposal.amount_nonneg
      exact (if_neg ha).trans (by omega)
  refine (htraced.injected hinjected fun _ => hw.asks).commits hx rfl
    (.allowed proposal s d hjudged hallow rfl hresource hamount) hjudged.valid rfl ?_
  intro ha row'' hrow''
  obtain ⟨payment, hpayment, horder⟩ := hclear.payment_order ha
  exact (hinjected.payment_order hpayment hrow'').trans horder

/-- An execution of an allowed call. -/
theorem Followed.execute (hw : Wired spec v)
    (h : Followed r spec db₀ call history permitId proposal v.shared)
    (hx : Executed r.executor (some permitId) proposal texts v v' res) :
    Followed r spec db₀ call history permitId proposal v'.shared ∧
      Told r spec db₀ history permitId v'.shared res := by
  rcases h with ⟨htraced, hopen⟩ | ⟨htraced, hstored⟩
  · refine ⟨?_, ?_⟩
    · obtain hinjected | ⟨permit, target, now, mid, hload, hclear, hinjected, hcommits⟩ :=
        hx.effects
      · exact Or.inl ⟨htraced.injected hinjected fun _ => hw.asks, hopen.aging hx.aging⟩
      · exact Or.inr ⟨hopen.commits hw htraced hload hclear hinjected hcommits,
          Database.stored_of_commits hload hx.aging hcommits⟩
    · rintro result rfl
      refine ⟨fun hcommitted => Or.inl (hx.stored hcommitted), fun hstale => ⟨?_, ?_⟩⟩
      · exact htraced.injected (hx.injected_of_stale hstale) fun _ => hw.asks
      · exact hx.settled_of_stale hopen.reached hstale
  · have hshared := hx.of_settled (Or.inl hstored)
    rw [hshared]
    refine ⟨Or.inr ⟨htraced, hstored⟩, ?_⟩
    rintro result rfl
    exact ⟨fun _ => Or.inl hstored, fun hstale => absurd hstale (hx.not_stale hstored)⟩

/-- A call is followed through its retry. -/
theorem Followed.retried (hw : Wired spec v)
    (h : Followed r spec db₀ call history permitId proposal v.shared)
    (hr : Retried r permitId proposal v v' res) :
    Followed r spec db₀ call history permitId proposal v'.shared ∧
      Told r spec db₀ history permitId v'.shared res := by
  cases hr with
  | once res executed => exact h.execute hw executed
  | twice tool key t u res first steady idle second =>
      have hfollowed := (h.execute hw first).1
      rw [← idle.shared] at hfollowed
      exact hfollowed.execute ((hw.carries steady.carries).carries idle.toSteady.carries) second

end Allowed

/-! ## Between two stages -/

/-- All rows are traced, and presenting the last permit again writes nothing. -/
structure Standing (r : Runner) (spec : FailureSpec) (db₀ : Database) (v : World) : Prop where
  traced : Traced r spec db₀ v.shared v.own.history
  settled : ∀ permitId proposal, v.own.session.lastExecution = some (permitId, proposal) →
    v.shared.Settled permitId

/-- The last permit belongs to the latest call, and may still be cleared. -/
def Pending (r : Runner) (spec : FailureSpec) (db₀ : Database) (v : World) : Prop :=
  ∃ call history permitId proposal, v.own.history = call :: history ∧
    v.own.session.lastExecution = some (permitId, proposal) ∧
    Followed r spec db₀ call history permitId proposal v.shared

/-- The latest call was refused as stale, and no row goes back to it. -/
structure Dropped (r : Runner) (spec : FailureSpec) (db₀ : Database) (v : World) (n : Nat)
    (orderId : String) : Prop where
  standing : Standing r spec db₀ v
  call : ∃ call history proposal s d, v.own.history = call :: history ∧
    Traced r spec db₀ v.shared history ∧ Judged r call proposal s d ∧ call.attempt = n ∧
    call.Refused ∧ proposal.orderId = orderId

section Stages

variable {r : Runner} {spec : FailureSpec} {db₀ : Database} {v v' : World}

/-- What is pending is traced. -/
theorem Pending.traced (h : Pending r spec db₀ v) :
    Traced r spec db₀ v.shared v.own.history := by
  obtain ⟨call, history, permitId, proposal, hhistory, -, ⟨htraced, -⟩ | ⟨htraced, -⟩⟩ := h
  · exact hhistory ▸ htraced.cons
  · exact hhistory ▸ htraced

/-- What stands hangs on the database, the history and the last permit. -/
theorem Standing.congr (h : Standing r spec db₀ v) (hshared : v'.shared = v.shared)
    (hhistory : v'.own.history = v.own.history)
    (hlast : v'.own.session.lastExecution = v.own.session.lastExecution) :
    Standing r spec db₀ v' where
  traced := by
    rw [hshared, hhistory]
    exact h.traced
  settled permitId proposal hl := by
    rw [hshared]
    exact h.settled permitId proposal (hlast ▸ hl)

/-- An escalation writes a ticket for the call it is about, or nothing. -/
theorem Escalated.traced {orderId detail : String} {reason : ReasonCode}
    {res : Except PyError (Option ExecutionResult)} {call : Call} {history : List Call}
    {proposal : ActionProposal} {s : PolicySnapshot} {d : PolicyResult}
    (h : Escalated r orderId reason detail v v' res) (hw : Wired spec v)
    (htraced : Traced r spec db₀ v.shared history) (hjudged : Judged r call proposal s d)
    (horder : proposal.orderId = orderId)
    (hcause : d.decision = .escalate ∨ (call.attempt = 2 ∧ call.Refused)) :
    Traced r spec db₀ v'.shared (call :: history) ∧ Aging v.shared v'.shared := by
  cases h with
  | unknown missing shared => exact ⟨shared ▸ htraced.cons, shared ▸ Aging.refl _⟩
  | unread err cause shared => exact ⟨shared ▸ htraced.cons, shared ▸ Aging.refl _⟩
  | unproposed err order found cause shared =>
      exact ⟨shared ▸ htraced.cons, shared ▸ Aging.refl _⟩
  | unissued err order found cause shared =>
      exact ⟨shared ▸ htraced.cons, shared ▸ Aging.refl _⟩
  | executed order ticket permit w res found proposed equipped steady executed =>
      refine ⟨?_, (Later.insertPermit equipped.inserted).aging.trans executed.aging⟩
      have hw' := hw.carries equipped.carries
      have htraced' := htraced.equipped equipped rfl
      obtain hinjected | ⟨loaded, target, now, mid, hload, -, hinjected, hcommits⟩ :=
        executed.effects
      · exact (htraced'.injected hinjected fun _ => hw'.asks).cons
      · cases equipped.loadPermit.symm.trans hload
        have haction : ticket.action = .createSupportTicket :=
          Runner.ticketProposal_action proposed
        have hnot : ticket.action ≠ .issueRefund := by simp [haction]
        have hticket : ticket.orderId = orderId :=
          (Runner.ticketProposal_orderId proposed).trans (Database.fetchOrder_orderId found)
        refine (htraced'.injected hinjected fun _ => hw'.asks).commits hcommits rfl
          (.ticket proposal s d hjudged hcause haction ?_ (if_neg hnot)) hjudged.valid
          (horder.trans hticket.symm) fun ha => absurd ha hnot
        exact (hcommits.target hnot).trans (hticket.trans horder.symm)

/-- An escalation keeps what stands. -/
theorem Standing.escalated (h : Standing r spec db₀ v) (haging : Aging v.shared v'.shared)
    (htraced : Traced r spec db₀ v'.shared v'.own.history)
    (hlast : v'.own.session.lastExecution = v.own.session.lastExecution) :
    Standing r spec db₀ v' where
  traced := htraced
  settled permitId proposal hl := (h.settled permitId proposal (hlast ▸ hl)).aging haging

/-- What is known after an attempt that returned. -/
structure Stepped (r : Runner) (spec : FailureSpec) (db₀ : Database) (v : World) (n : Nat)
    (step : Attempt) (orderId : String) : Prop where
  left : Standing r spec db₀ v ∨ Pending r spec db₀ v
  completed : step.outcome = .completed → Standing r spec db₀ v
  replan : step.replan = true → Standing r spec db₀ v ∧ r.allowReplanOnStale = true ∧ n = 1
  dropped : step.escalateAfterReplan = true → Dropped r spec db₀ v n orderId ∧ orderId ≠ "" ∧
    r.allowReplanOnStale = true ∧ n ≠ 1

/-- An attempt that leads to no execution. -/
theorem Stepped.of_standing {n : Nat} {step : Attempt} {orderId : String}
    (h : Standing r spec db₀ v) (hreplan : step.replan = false)
    (hescalate : step.escalateAfterReplan = false) : Stepped r spec db₀ v n step orderId where
  left := Or.inl h
  completed _ := h
  replan hr := by simp [hreplan] at hr
  dropped he := by simp [hescalate] at he

/-- An answered execution of the latest call. -/
theorem Stepped.concluded {n : Nat} {permitId : String} {call : Call}
    {history : List Call} {proposal : ActionProposal} {s : PolicySnapshot} {d : PolicyResult}
    {result : ExecutionResult} (hhistory : v.own.history = call :: history)
    (hlast : v.own.session.lastExecution = some (permitId, proposal))
    (hfollowed : Followed r spec db₀ call history permitId proposal v.shared)
    (htold : Told r spec db₀ history permitId v.shared (.ok result))
    (hjudged : Judged r call proposal s d) (hattempt : call.attempt = n)
    (hanswer : call.answer = some result) :
    Stepped r spec db₀ v n (r.conclude d n result) proposal.orderId := by
  have hpending : Pending r spec db₀ v :=
    ⟨call, history, permitId, proposal, hhistory, hlast, hfollowed⟩
  obtain ⟨hcommitted, hstale⟩ := htold result rfl
  have standing : v.shared.Settled permitId → Standing r spec db₀ v := fun hsettled =>
    ⟨hpending.traced, fun id p hl => by
      rw [hlast] at hl
      cases hl
      exact hsettled⟩
  obtain ⟨hc, hstep⟩ | ⟨hc, hreason, hallow, hn, hstep⟩ | ⟨hc, hreason, hallow, hn, hstep⟩ |
    ⟨hc, hstep, -⟩ := r.conclude_cases d n result
  · rw [hstep]
    exact .of_standing (standing (hcommitted hc)) rfl rfl
  · obtain ⟨-, hsettled⟩ := hstale hreason
    rw [hstep]
    exact ⟨Or.inl (standing hsettled), fun _ => standing hsettled,
      fun _ => ⟨standing hsettled, hallow, hn⟩, by simp⟩
  · obtain ⟨htraced, hsettled⟩ := hstale hreason
    have hne : proposal.orderId ≠ "" := by
      intro h
      have := proposal.orderId_length.1
      simp [h] at this
    rw [hstep]
    exact ⟨Or.inl (standing hsettled), fun _ => standing hsettled, by simp,
      fun _ => ⟨⟨standing hsettled, call, history, proposal, s, d, hhistory, htraced, hjudged,
        hattempt, ⟨result, hanswer, hc, hreason⟩, rfl⟩, hne, hallow, hn⟩⟩
  · rw [hstep]
    exact ⟨Or.inr hpending, by simp, by simp, by simp⟩

/-- **One attempt.** -/
theorem Tried.traced {n : Nat} {orderId : String} {call : Call}
    {res : Except PyError (Attempt × String)} (h : Tried r n orderId v v' call res)
    (hw : Wired spec v) (hs : Standing r spec db₀ v) :
    Traced r spec db₀ v'.shared v'.own.history ∧
      ∀ step stepOrderId, res = .ok (step, stepOrderId) →
        Stepped r spec db₀ v' n step stepOrderId := by
  have hhistory := h.called.history
  -- a call that leads to nothing
  have bare : v'.shared = v.shared → Traced r spec db₀ v'.shared v'.own.history :=
    fun hshared => by
      rw [hshared, hhistory]
      exact hs.traced.cons
  cases h.attempted with
  | rejected reason invalid unjudged idle last =>
      refine ⟨bare idle.shared, ?_⟩
      rintro step stepOrderId ⟨⟩
      exact .of_standing (hs.escalated (idle.shared ▸ Aging.refl _) (bare idle.shared) last) rfl rfl
  | unread proposal err valid unjudged shared cause => exact ⟨bare shared, by simp⟩
  | unjudged proposal s err valid unjudged shared reads cause => exact ⟨bare shared, by simp⟩
  | judged proposal s d w res valid reads evaluated judged idle last proceeded =>
      have hjudged : Judged r call proposal s d :=
        ⟨valid, judged, by rw [h.called.start]; exact reads, evaluated⟩
      have hw' := hw.carries idle.carries
      have htraced : Traced r spec db₀ w.shared v.own.history := idle.shared ▸ hs.traced
      cases proceeded with
      | denied decision idle' last' =>
          have hshared := idle'.shared.trans idle.shared
          refine ⟨bare hshared, ?_⟩
          rintro step stepOrderId ⟨⟩
          exact .of_standing (hs.escalated (hshared ▸ Aging.refl _) (bare hshared)
            (last'.trans last)) rfl rfl
      | escalated decision u res idle' last' escalated =>
          obtain ⟨htraced', haging⟩ := escalated.traced (hw'.carries idle'.carries)
            (idle'.shared ▸ htraced) hjudged rfl (Or.inl decision)
          rw [← hhistory] at htraced'
          refine ⟨htraced', ?_⟩
          intro step stepOrderId heq
          cases res with
          | error err => cases heq
          | ok ticket =>
              cases heq
              refine .of_standing (hs.escalated ?_ htraced' (last'.trans last)) rfl rfl
              rwa [idle'.shared, idle.shared] at haging
      | unissued decision err u idle' cause shared =>
          exact ⟨bare (shared.trans (idle'.shared.trans idle.shared)), by simp [Except.map]⟩
      | executed decision u y t permit res idle' equipped presented steady retried shared
          session answer =>
          have hu := idle'.shared
          have hequipped := equipped.find?
          have hopen : Open r call permit.permitId proposal y.shared := by
            have hpinned := reads.pinned evaluated decision
            rw [← idle.shared, ← hu] at hpinned
            obtain ⟨version, hversion, hle⟩ :=
              (Later.insertPermit equipped.inserted).aging.pinnedVersion hpinned
            refine ⟨⟨s, d, _, hjudged, decision, hequipped, ?_, ?_⟩, _, hequipped, version,
              ?_, ?_⟩
            · rw [equipped.issued]
              rfl
            · rw [equipped.issued]
              rfl
            · rw [equipped.issued]
              exact hversion
            · rw [equipped.issued]
              exact hle
          have hfollowed : Followed r spec db₀ call v.own.history permit.permitId proposal
              y.shared :=
            Or.inl ⟨(show Traced r spec db₀ u.shared v.own.history from hu ▸ htraced).equipped
              equipped rfl, hopen⟩
          obtain ⟨hfollowed', htold⟩ := hfollowed.retried
            ((hw'.carries idle'.carries).carries equipped.carries) retried
          rw [← shared] at hfollowed' htold
          have hlast : v'.own.session.lastExecution = some (permit.permitId, proposal) := by
            rw [session, steady.lastExecution, presented]
          have hpending : Pending r spec db₀ v' :=
            ⟨call, _, _, _, hhistory, hlast, hfollowed'⟩
          refine ⟨hpending.traced, ?_⟩
          intro step stepOrderId heq
          cases res with
          | error err => cases heq
          | ok result =>
              cases heq
              exact .concluded hhistory hlast hfollowed' htold hjudged h.called.attempt
                (answer result rfl)

end Stages

/-! ## The rounds -/

section Rounds

variable {r : Runner} {spec : FailureSpec} {db₀ : Database} {v v' : World}

/-- **The first loop** ends with all rows traced, and knows of a call it gives up. -/
theorem Planning.traced {attempts : List Nat} {orderId : String}
    {res : Except PyError Planned} (h : Planning r attempts orderId v v' res)
    (hmay : r.MayAttempt attempts) (hw : Wired spec v) (hs : Standing r spec db₀ v) :
    Ends (fun planned u => Wired spec u ∧ (Standing r spec db₀ u ∨ Pending r spec db₀ u) ∧
        (planned.outcome = .completed → Standing r spec db₀ u) ∧
        ∀ reason, planned.escalateReason = some reason →
          Dropped r spec db₀ u 2 planned.orderId)
      (fun _ u => Traced r spec db₀ u.shared u.own.history) res v' := by
  refine h.rule hmay
    (I := fun n v => (n = 1 ∨ n = 2) ∧ Wired spec v ∧ Standing r spec db₀ v) ?_ ?_ ?_ ?_ ?_
  · intro n hn
    refine ⟨?_, hw, hs⟩
    rcases hmay with ⟨-, rfl⟩ | ⟨-, rfl | rfl⟩
    · exact Or.inl (Option.some.inj hn).symm
    · exact Or.inl (Option.some.inj hn).symm
    · exact Or.inr (Option.some.inj hn).symm
  · rintro orderId v t u call step stepOrderId ⟨-, hw, hs⟩ tried replan ticks
    obtain ⟨hstanding, -, -⟩ := ((tried.traced hw hs).2 _ _ rfl).replan replan
    exact ⟨Or.inr rfl, (hw.carries tried.carries).carries ticks.toSteady.carries,
      hstanding.congr ticks.shared ticks.history ticks.lastExecution⟩
  · rintro n orderId v v' call err ⟨-, hw, hs⟩ tried
    exact (tried.traced hw hs).1
  · rintro n orderId v v' call step stepOrderId ⟨hn, hw, hs⟩ tried hescalate
    have hstepped := (tried.traced hw hs).2 _ _ rfl
    -- only a second attempt gives up
    obtain ⟨hdropped, hne, -, hlater⟩ := hstepped.dropped hescalate
    obtain rfl := hn.resolve_left hlater
    refine ⟨hw.carries tried.carries, ?_⟩
    simp only [Planned.stale, textOr, hne, if_false]
    exact ⟨Or.inl hdropped.standing, fun _ => hdropped.standing, fun _ _ => hdropped⟩
  · rintro n orderId v v' call step stepOrderId ⟨-, hw, hs⟩ tried - -
    have hstepped := (tried.traced hw hs).2 _ _ rfl
    exact ⟨hw.carries tried.carries, hstepped.left, hstepped.completed, by simp⟩

/-- The ticket of a run that found stale state twice goes back to its last call. -/
theorem HandedOver.traced {planned : Planned} {res : Except PyError Unit}
    (h : HandedOver r planned v v' res) (haside : Aside v v') (hw : Wired spec v)
    (hleft : Standing r spec db₀ v ∨ Pending r spec db₀ v)
    (hdropped : ∀ reason, planned.escalateReason = some reason →
      Dropped r spec db₀ v 2 planned.orderId) :
    Traced r spec db₀ v'.shared v'.own.history ∧
      (Standing r spec db₀ v' ∨ Pending r spec db₀ v') ∧
      (Standing r spec db₀ v → Standing r spec db₀ v') := by
  cases h with
  | unasked unasked same =>
      subst same
      exact ⟨hleft.elim Standing.traced Pending.traced, hleft, id⟩
  | asked reason asked res escalated =>
      obtain ⟨hstanding, call, history, proposal, s, d, hhistory, htraced, hjudged, hattempt,
        hrefused, horder⟩ := hdropped reason asked
      obtain ⟨htraced', haging⟩ :=
        escalated.traced hw htraced hjudged horder (Or.inr ⟨hattempt, hrefused⟩)
      rw [← hhistory, ← haside.history] at htraced'
      have hstanding' := hstanding.escalated haging htraced' haside.last
      exact ⟨htraced', Or.inl hstanding', fun _ => hstanding'⟩

/-- The second loop leaves every row traced. -/
theorem Chained.traced {planned : Planned} {res : Except PyError Planned}
    (h : Chained r planned v v' res) (hw : Wired spec v)
    (hleft : Standing r spec db₀ v ∨ Pending r spec db₀ v)
    (hcompleted : planned.outcome = .completed → Standing r spec db₀ v) :
    Ends (fun _ u => Wired spec u ∧ (Standing r spec db₀ u ∨ Pending r spec db₀ u))
      (fun _ u => Traced r spec db₀ u.shared u.own.history) res v' := by
  refine h.leads (J := fun planned u => Wired spec u ∧
      (Standing r spec db₀ u ∨ Pending r spec db₀ u) ∧
      (planned.outcome = .completed → Standing r spec db₀ u))
    ⟨hw, hleft, hcompleted⟩ (fun _ _ hJ => ⟨hJ.1, hJ.2.1⟩) ?_
  rintro planned v v' call res ⟨hw, -, hcompleted⟩ houtcome - tried
  obtain ⟨htraced, hstepped⟩ := tried.traced hw (hcompleted houtcome)
  cases res with
  | error err => exact htraced
  | ok a =>
      have hstepped := hstepped a.1 a.2 rfl
      have hw' := hw.carries tried.carries
      exact ⟨fun _ => ⟨hw', hstepped.left⟩, fun _ _ => ⟨hw', hstepped.left, hstepped.completed⟩⟩

/-- The deliberate replay writes nothing, or what its call still had to write. -/
theorem Replayed.traced {res : Except PyError Unit} (h : Replayed r v v' res)
    (hw : Wired spec v) (hhistory : v'.own.history = v.own.history)
    (hleft : Standing r spec db₀ v ∨ Pending r spec db₀ v) :
    Traced r spec db₀ v'.shared v'.own.history := by
  cases h with
  | unasked same =>
      subst same
      exact hleft.elim Standing.traced Pending.traced
  | presented permitId proposal res last t executed shared =>
      rw [shared, hhistory]
      rcases hleft with hstanding | ⟨call, history, _, _, hcall, hlast, hfollowed⟩
      · rw [executed.of_settled (hstanding.settled permitId proposal last)]
        exact hstanding.traced
      · cases last.symm.trans hlast
        rw [hcall]
        rcases (hfollowed.execute hw executed).1 with ⟨htraced, -⟩ | ⟨htraced, -⟩
        · exact htraced.cons
        · exact htraced

end Rounds

/-! ## Every row is traced -/

/-- Wherever a run stops, what it has written is traced. -/
theorem run_traced (r : Runner) (proposals : List RawProposal) (failures : FailureSpec)
    (db : Database) :
    Traced r failures db (r.run.run ⟨db, r.start proposals failures⟩).2.shared
      (r.run.run ⟨db, r.start proposals failures⟩).2.own.history := by
  obtain ⟨⟨res, v'⟩, hrun⟩ : ∃ out, r.run.run ⟨db, r.start proposals failures⟩ = out := ⟨_, rfl⟩
  rw [hrun]
  have hw := Wired.start r failures db proposals
  have hstart : Standing r failures db ⟨db, r.start proposals failures⟩ :=
    ⟨Traced.start r failures db, fun _ _ hl => by cases hl⟩
  have htraced : Ends (fun _ v => Traced r failures db v.shared v.own.history)
      (fun _ v => Traced r failures db v.shared v.own.history) res v' := by
    refine (run_run hw.audited hrun).rule
      (B := fun t => Wired failures t ∧ Standing r failures db t)
      (P := fun planned u => Wired failures u ∧
        (Standing r failures db u ∨ Pending r failures db u) ∧
        (planned.outcome = .completed → Standing r failures db u) ∧
        ∀ reason, planned.escalateReason = some reason →
          Dropped r failures db u 2 planned.orderId)
      (H := fun planned w => Wired failures w ∧
        (Standing r failures db w ∨ Pending r failures db w) ∧
        (planned.outcome = .completed → Standing r failures db w))
      (C := fun _ y => Wired failures y ∧ (Standing r failures db y ∨ Pending r failures db y))
      (S := fun _ z => Traced r failures db z.shared z.own.history) ?_ ?_ ?_ ?_ ?_ ?_
    · intro t ht
      exact ⟨hw.carries ht.toSteady.carries,
        hstart.congr ht.shared ht.history ht.lastExecution⟩
    · rintro t u res ⟨hw, hs⟩ hplanning
      exact hplanning.traced r.mayAttempt_attempts hw hs
    · rintro planned u w res ⟨hw, hleft, hcompleted, hdropped⟩ haside hhanded
      obtain ⟨htraced, hleft, hkept⟩ := hhanded.traced haside hw hleft hdropped
      cases res with
      | error err => exact htraced
      | ok _ => exact ⟨hw.carries haside.toCarries, hleft, fun hc => hkept (hcompleted hc)⟩
    · rintro planned w y res ⟨hw, hleft, hcompleted⟩ hchained
      exact hchained.traced hw hleft hcompleted
    · rintro planned y z res ⟨hw, hleft⟩ hsteady hreplayed
      have htraced := hreplayed.traced hw hsteady.history hleft
      cases res with
      | error err => exact htraced
      | ok _ => exact htraced
    · rintro planned z z' res htraced hshared hhistory -
      rw [← hshared, ← hhistory] at htraced
      cases res with
      | error err => exact htraced
      | ok report => exact htraced
  cases res with
  | error err => exact htraced
  | ok report => exact htraced

/-- **Every mutation goes back to one decision.**  However a run stops: the rows it has
added to the log go back, one by one, to different calls of the planner, in the order of
the calls; each is what the policy decided on the validated proposal of its call and the
snapshot read for it.  Rows that belong to no order of these calls are as they were, up to
the changes the scenario asks for. -/
theorem every_row_traced (r : Runner) (proposals : List RawProposal) (failures : FailureSpec)
    (db : Database) :
    let stopped := (r.run.run ⟨db, r.start proposals failures⟩).2
    ∃ calls rows changes, calls.Sublist stopped.own.history.reverse ∧
      stopped.shared.mutationLog = db.mutationLog ++ rows ∧
      (∀ row ∈ rows, row.runId = r.runId) ∧ List.Forall₂ (Justified r) rows calls ∧
      (∀ change ∈ changes, failures.Asks change) ∧
      Untouched (OrdersOf r calls) changes db stopped.shared := by
  intro stopped
  obtain ⟨calls, rows, changes, hsub, htrace⟩ := run_traced r proposals failures db
  exact ⟨calls, rows, changes, hsub, htrace.log, htrace.runId, htrace.justified, htrace.asked,
    htrace.untouched⟩

end BoundedRefund
