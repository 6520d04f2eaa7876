import BoundedRefund.Handover
import BoundedRefund.Ranges
import BoundedRefund.WellFormed

/-!
# Runs that return

The response to a commit may be lost.  An allowed call then presents its permit once more
and is answered from the record; an escalation does not, and the exception leaves the run.

On a well-formed database, under a scenario that writes valid values and within the ranges of
what the code computes with, nothing else leaves a run: no read, no check and no commit raises.
So a run reports exactly if none of its calls
escalates with a ticket whose response is lost (`returns_iff`, `ticket_response_lost`).
-/

namespace BoundedRefund

open Concurrent Relational

/-- The call hands over, and the response to its ticket is lost.  A run that may replan hands
over behind stale state if it is not the first attempt that finds it. -/
def Call.LosesTicket (r : Runner) (call : Call) : Prop :=
  (call.fate r = .ticketed ∨ (call.fate r = .stale ∧ call.attempt ≠ 1)) ∧
    call.start.own.loses (str ActionName.createSupportTicket) = true

/-- A run whose database is well formed. -/
structure Formed (r : Runner) (spec : FailureSpec) (v : World) : Prop
    extends Running r spec v where
  formed : v.shared.WellFormed

/-! ## What can be raised -/

section Raised

variable {r : Runner} {spec : FailureSpec} {v v' w : World} {err : PyError}

/-- What leaves the database alone keeps it formed. -/
theorem Formed.quiet (h : Formed r spec v) (hcarries : Carries v v')
    (hshared : v'.shared = v.shared) : Formed r spec v' :=
  ⟨h.toRunning.quiet hcarries hshared, hshared ▸ h.formed⟩

/-- A permit keeps it formed. -/
theorem Formed.equipped (h : Formed r spec v) (hspec : spec.Valid) {request : PermitRequest}
    {permit : ExecutionPermit} (he : Equipped r request permit v w)
    (hkey : request.idempotencyKey = none) : Formed r spec w :=
  ⟨h.toRunning.equipped he hkey, he.kept (wellFormed_kept r hspec) h.formed⟩

/-- So does an execution. -/
theorem Formed.executed (h : Formed r spec v) (hspec : spec.Valid) (hsteady : Steady v v')
    {permitId : Option String} {proposal : ActionProposal} {texts : TicketTexts}
    {res : Except PyError ExecutionResult}
    (hx : Executed r.executor permitId proposal texts v v' res) : Formed r spec v' :=
  ⟨h.toRunning.executed hsteady hx, hx.kept (wellFormed_kept r hspec) h.toWired h.formed⟩

/-- So does an attempt. -/
theorem Formed.tried (h : Formed r spec v) (hspec : spec.Valid) {n : Nat} {orderId : String}
    {call : Call} {res : Except PyError (Attempt × String)}
    (ht : Tried r n orderId v v' call res) : Formed r spec v' :=
  ⟨h.toRunning.tried ht, ht.kept (wellFormed_kept r hspec) h.toWired h.formed⟩

/-- **An execution raises if the response to its commit is lost**, and for no other reason. -/
theorem Formed.raises (h : Formed r spec v) (hspec : spec.Valid) {permitId : Option String}
    {proposal : ActionProposal} {texts : TicketTexts}
    (hx : Executed r.executor permitId proposal texts v v' (.error err)) :
    (∃ permit target, v.shared.loadPermit permitId = some permit ∧
      Clear v.shared (r.clock (v.own.session.readings + v.own.session.tick)) permit proposal
        target) ∧
    v.own.session.loses (str proposal.action) = true ∧
    ∃ key, err = .responseTimeout (str proposal.action) key := by
  have hdue : ∀ c ∈ v.own.session.due (str proposal.action), spec.Asks c := fun _ => h.asks
  have hkept := wellFormed_kept r hspec
  -- no look at the target raises
  have resolves : ∀ {db : Database}, db.WellFormed → db.resolveTarget proposal ≠ .error err := by
    intro db hdb hraise
    obtain ⟨found, hfound⟩ := hdb.resolveTarget proposal
    cases hfound.symm.trans hraise
  generalize hres : (Except.error err : Except PyError ExecutionResult) = res at hx
  cases hx with
  | answered result => cases hres
  | failed err' shared cause =>
      cases hres
      rcases cause with cause | cause
      · exact absurd cause (resolves h.formed)
      · obtain ⟨answer, hanswer⟩ := h.formed.assess (r.executor.clock
          (v.own.session.readings + v.own.session.tick)) permitId proposal
        cases hanswer.symm.trans cause
  | overtaken permit target now => cases hres
  | spoiled err' permit target now inj loaded clear injected cause =>
      cases hres
      have hmid := hkept.injectAll hdue injected h.formed
      have hok := injectAll_ok (fun c hc => hspec c (hdue c hc)) v.shared
      rw [injected] at hok
      obtain rfl : inj = .ok () := hok
      rcases cause with cause | cause | ⟨-, cause, hfresh⟩
      · cases cause
      · exact absurd cause (resolves hmid)
      · obtain ⟨rfl, -⟩ := Database.loadPermit_eq_some loaded
        obtain ⟨resourceId, version, rfl⟩ :=
          h.numbered.commitAll_raises h.formed loaded clear injected cause
        exact absurd rfl (hfresh resourceId version)
  | committed permit target now mid res loaded clear injected commits responded =>
      cases responded with
      | delivered => cases hres
      | lost loses =>
          cases hres
          exact ⟨⟨permit, target, loaded, clear⟩, loses, _, rfl⟩
      | unreported err' cause =>
          cases hres
          exact absurd cause (resolves ((hkept.injectAll hdue injected h.formed).commits commits))

/-- The retry is answered, so an execution with its retry never raises. -/
theorem Formed.retried (h : Formed r spec w) (hspec : spec.Valid) {request : PermitRequest}
    {permit : ExecutionPermit} {proposal : ActionProposal} {n : Nat}
    (hheld : Held r request permit n w) (hfit : Fits w.shared request proposal) :
    ¬ Retried r permit.permitId proposal w v' (.error err) := by
  intro hretried
  generalize hres : (Except.error err : Except PyError ExecutionResult) = res at hretried
  cases hretried with
  | once res executed settled =>
      subst hres
      obtain ⟨-, -, key, rfl⟩ := h.raises hspec executed
      exact settled _ key rfl
  | twice tool key t u res first steady idle second =>
      subst hres
      obtain ⟨-, -, now, mid, hlanded⟩ := (first.presented hheld hfit h.audited).lost h.audited
      have hu : Formed r spec u :=
        (h.executed hspec steady first).quiet idle.toSteady.carries idle.shared
      obtain ⟨⟨loaded, target, hload, hclear⟩, -⟩ := hu.raises hspec second
      -- what was committed is stored, and is not cleared again
      have hsettled : u.shared.Settled permit.permitId :=
        idle.shared ▸ Or.inl (hlanded.stored hheld)
      exact hsettled.not_clear hload hclear

end Raised

/-! ## Escalations -/

/-- At most 200 characters are left. -/
theorem length_clip200 (text : String) : (clip200 text).length = min 200 text.length := by
  simp [clip200, String.length_toList]

/-- The ticket of an escalation is a proposal, if it is about the order of one. -/
theorem ticketProposal_ok {order : Order}
    (h : 1 ≤ order.orderId.length ∧ order.orderId.length ≤ 64) (reason : ReasonCode)
    (detail : String) : ∃ proposal, Runner.ticketProposal order reason detail = .ok proposal := by
  have hreason : 1 ≤ (str reason).length ∧ (str reason).length ≤ 200 := by
    cases reason <;> decide
  have htext : 1 ≤ (if detail = "" then str reason
      else clip200 (str reason ++ ": " ++ detail)).length ∧
      (if detail = "" then str reason
        else clip200 (str reason ++ ": " ++ detail)).length ≤ 200 := by
    split_ifs
    · exact hreason
    · rw [length_clip200]
      simp only [String.length_append]
      omega
  simp only [Runner.ticketProposal]
  rw [dif_pos h, dif_pos htext]
  exact ⟨_, rfl⟩

/-- The row a permit is issued in has its number. -/
theorem Runner.permitId_row (r : Runner) (request : PermitRequest) (n : Nat) (now : Instant) :
    ((r.issuer.permitAt request n now).row now r.runId).permitId = permitIdFor r.runId n := rfl

section Escalations

variable {r : Runner} {spec : FailureSpec} {v v' : World} {err : PyError}

/-- **An escalation raises if the response to its ticket is lost**, and for no other reason. -/
theorem Formed.escalation_raises (h : Formed r spec v) (hspec : spec.Valid)
    {orderId detail : String} {reason : ReasonCode}
    (hlength : 1 ≤ orderId.length ∧ orderId.length ≤ 64)
    (he : Escalated r orderId reason detail v v' (.error err)) :
    r.clock.InTime v.own.session.readings (v.own.session.readings + 3) ∧
      (v.shared.orders.find? orderId).isSome ∧
      v.own.session.loses (str ActionName.createSupportTicket) = true ∧
      ∃ key, err = .responseTimeout (str ActionName.createSupportTicket) key := by
  generalize hres : (Except.error err : Except PyError (Option ExecutionResult)) = res at he
  cases he with
  | unknown missing => cases hres
  | unread err' cause =>
      obtain ⟨found, hfound⟩ := h.formed.fetchOrder orderId
      cases hfound.symm.trans cause
  | unproposed err' order found cause =>
      rw [← Database.fetchOrder_orderId found] at hlength
      obtain ⟨proposal, hproposal⟩ := ticketProposal_ok hlength reason detail
      cases hproposal.symm.trans cause
  | unissued err' order found cause =>
      obtain ⟨db', hissued⟩ := h.numbered.issuable (r.permitId_row (ticketRequest order) _ _)
      cases hissued.symm.trans cause
  | executed order proposal permit w res found proposed equipped steady executed =>
      cases res with
      | ok result => cases hres
      | error err' =>
          cases hres
          have haction := Runner.ticketProposal_action proposed
          have hw := h.equipped hspec equipped rfl
          obtain ⟨-, hloses, key, rfl⟩ := hw.raises hspec executed
          obtain ⟨-, -, now, mid, hlanded⟩ :=
            (executed.presented (equipped.held rfl h.numbered)
              (equipped.fits (Fits.ticket found proposed)) hw.audited).lost hw.audited
          have hin := hlanded.inTime
          rw [equipped.readings] at hin
          rw [haction, (due_congr equipped.due _).2] at hloses
          refine ⟨hin, ?_, hloses, key, by rw [haction]⟩
          rw [Database.fetchOrder_eq_some.mp found]
          rfl

end Escalations

/-! ## Calls -/

section Calls

variable {r : Runner} {spec : FailureSpec} {c : FixedClock} {v v' : World} {call : Call}
variable {n : Nat} {orderId : String}

/-- **A call raises if it escalates and its ticket is lost**, and for no other reason. -/
theorem Formed.call_raises (h : Formed r spec v) (hspec : spec.Valid) {err : PyError}
    (ht : Tried r n orderId v v' call (.error err)) :
    call.LosesTicket r ∧
      ∃ key, err = .responseTimeout (str ActionName.createSupportTicket) key := by
  have hstart := ht.called.start
  generalize hres : (Except.error err : Except PyError (Attempt × String)) = res at ht
  cases ht.attempted with
  | rejected reason => cases hres
  | unread proposal err' valid unjudged shared cause =>
      exact absurd cause (h.formed.readable _ _)
  | unjudged proposal s err' valid unjudged shared reads cause =>
      obtain ⟨d, hd⟩ := h.formed.evaluate reads
      cases hd.symm.trans cause
  | judged proposal s d w res valid reads evaluated judged idle last proceeded =>
      have hw := h.quiet idle.carries idle.shared
      cases proceeded with
      | denied decision => cases hres
      | escalated decision u res idle' last' escalated =>
          cases res with
          | ok ticket => cases hres
          | error err' =>
              cases hres
              have hidle := idle.trans idle'
              obtain ⟨hin, hfound, hloses, hkey⟩ :=
                (hw.quiet idle'.carries idle'.shared).escalation_raises hspec
                  proposal.orderId_length escalated
              rw [hidle.shared] at hfound
              rw [hidle.readings] at hin
              rw [(due_congr hidle.due _).2] at hloses
              refine ⟨⟨Or.inl ?_, by rw [hstart]; exact hloses⟩, hkey⟩
              have hcond : call.InTime r 3 ∧
                  (call.start.shared.orders.find? proposal.orderId).isSome := by
                rw [Call.InTime, hstart]
                exact ⟨hin, hfound⟩
              simp only [Call.fate, valid, judged, decision, hcond, and_self, if_true]
      | unissued decision err' u idle' cause =>
          obtain ⟨db', hissued⟩ := (hw.quiet idle'.carries idle'.shared).numbered.issuable
            (r.permitId_row (allowedRequest proposal d) _ _)
          cases hissued.symm.trans cause
      | executed decision u y t permit res idle' equipped presented steady retried =>
          cases res with
          | ok result => cases hres
          | error err' =>
              have hu := hw.quiet idle'.carries idle'.shared
              have hfits := reads.fits evaluated decision
              rw [← idle.shared, ← idle'.shared] at hfits
              exact absurd retried ((hu.equipped hspec equipped rfl).retried hspec
                (equipped.held rfl hu.numbered) (equipped.fits hfits))

/-- A call whose ticket was written was told so. -/
theorem Tried.keeps_ticket (hrun : Running r spec v) {step : Attempt} {stepOrderId : String}
    (ht : Tried r n orderId v v' call (.ok (step, stepOrderId)))
    (hfate : call.fate r = .ticketed) :
    call.start.own.loses (str ActionName.createSupportTicket) = false := by
  have hleads := ht.fate hrun
  rw [hfate] at hleads
  obtain ⟨hsettles, row, hlog, -⟩ := hleads
  have houtcome := hsettles.outcome
  -- the ticket has its row in the log
  have unwritten : ¬ Unwritten v.shared v'.shared := by
    intro hunwritten
    rw [hunwritten.mutationLog, List.self_eq_append_right] at hlog
    cases hlog
  rw [ht.called.start]
  cases ht.verdict rfl hrun with
  | escalated proposal s d w judged decision idle aging ticketed last =>
      cases ticketed with
      | unknown missing shared =>
          exact absurd (Unwritten.of_eq (shared.trans idle.shared)) unwritten
      | late late found same => exact absurd (idle.shared ▸ same) unwritten
      | written order ticket permit y now mid found proposed equipped landed kept =>
          rwa [(due_congr idle.due _).2] at kept
  | overtaken proposal s d =>
      have hdenied := r.conclude_stale_outcome d n d.resourceId
      rw [hsettles.escalateAfterReplan] at hdenied
      cases houtcome.symm.trans hdenied
  | _ => cases houtcome

/-- A call that returns has lost no ticket, unless it asks for an escalation. -/
theorem Tried.not_losesTicket (hrun : Running r spec v) {step : Attempt} {stepOrderId : String}
    (ht : Tried r n orderId v v' call (.ok (step, stepOrderId)))
    (hask : n = 1 ∨ step.escalateAfterReplan = false) : ¬ call.LosesTicket r := by
  rintro ⟨hfate | ⟨hfate, hlater⟩, hloses⟩
  · simp [ht.keeps_ticket hrun hfate] at hloses
  · rw [ht.called.attempt] at hlater
    have hleads := ht.fate hrun
    rw [hfate] at hleads
    rcases hleads.1 with hreplan | hescalate
    · exact hlater ((ht.attempted.replans rfl).1 hreplan).2
    · rcases hask with rfl | hask
      · exact hlater rfl
      · cases hask.symm.trans hescalate

/-- What an attempt that asks for an escalation leaves for it. -/
theorem Formed.asks_escalation (h : Formed r spec v) (hspec : spec.Valid) {step : Attempt}
    {stepOrderId : String} (ht : Tried r n orderId v v' call (.ok (step, stepOrderId)))
    (hescalate : step.escalateAfterReplan = true) :
    ∃ proposal : ActionProposal, textOr stepOrderId orderId = proposal.orderId ∧
      (v'.shared.orders.find? proposal.orderId).isSome ∧ call.InTime r 3 ∧
      ∀ action, v'.own.session.loses action = call.start.own.loses action := by
  rw [ht.called.start]
  cases ht.verdict rfl h.toRunning with
  | overtaken proposal s d permit u w opened inTime within overtaken injected keys settled
      readings loses last =>
      have hw := (h.quiet opened.idle.carries opened.idle.shared).equipped hspec opened.equipped rfl
      -- the permit was for a target that could be resolved, so its order is there
      obtain ⟨target, hresolved, -⟩ := opened.fits.target
      refine ⟨proposal, if_neg fun hempty => ?_, ?_, inTime, loses⟩
      · have hlength := proposal.orderId_length.1
        rw [hempty] at hlength
        exact absurd hlength (by decide)
      · rw [keys.orders]
        exact order_of_resolved hw.formed hresolved
  | _ => cases hescalate

end Calls

/-! ## Runs -/

/-- No call has lost its ticket so far, and a replay would write nothing. -/
structure Unlost (r : Runner) (spec : FailureSpec) (v : World) : Prop
    extends Formed r spec v where
  quiet : r.Quiet v
  calls : ∀ call ∈ v.own.history, ¬ call.LosesTicket r

/-- What holds while the loops go on. -/
def Runner.Goes (r : Runner) (spec : FailureSpec) (planned : Planned) (v : World) : Prop :=
  Unlost r spec v ∧ (planned.outcome = .completed → Rested r spec v)

/-- What the last call leaves for the escalation behind the first loop. -/
structure StaleTwice (r : Runner) (spec : FailureSpec) (orderId : String) (v : World) : Prop
    extends Rested r spec v where
  formed : v.shared.WellFormed
  last : ∃ call earlier, ∃ proposal : ActionProposal, v.own.history = call :: earlier ∧
    orderId = proposal.orderId ∧ (v.shared.orders.find? orderId).isSome ∧
    call.InTime r 3 ∧ call.fate r = .stale ∧ call.attempt ≠ 1 ∧
    (∀ action, v.own.session.loses action = call.start.own.loses action) ∧
    ∀ call ∈ earlier, ¬ call.LosesTicket r

/-- The run stops over the ticket of one of its calls. -/
def StopsOverTicket (r : Runner) (err : PyError) (v : World) : Prop :=
  (∃ call ∈ v.own.history, call.LosesTicket r) ∧
    ∃ key, err = .responseTimeout (str ActionName.createSupportTicket) key

section Runs

variable {r : Runner} {spec : FailureSpec} {c : FixedClock} {v v' : World}
variable {n : Nat} {orderId : String} {call : Call}

/-- At the beginning no response is lost. -/
theorem Unlost.start {db : Database} (hseeded : db.Seeded) (hformed : db.WellFormed)
    (proposals : List RawProposal) : Unlost r spec ⟨db, r.start proposals spec⟩ where
  toRunning := Running.start hseeded proposals
  formed := hformed
  quiet := (Rested.start hseeded proposals).quiet
  calls call hcall := by cases hcall

/-- An attempt stops over the response to a ticket only. -/
theorem Formed.stops (h : Formed r spec v) (hspec : spec.Valid) {err : PyError}
    (ht : Tried r n orderId v v' call (.error err)) : StopsOverTicket r err v' := by
  obtain ⟨hloses, hkey⟩ := h.call_raises hspec ht
  refine ⟨⟨call, ?_, hloses⟩, hkey⟩
  rw [ht.called.history]
  exact List.mem_cons_self

/-- A call that asks for no escalation. -/
theorem Unlost.tried (h : Unlost r spec v) (hrested : Rested r spec v) (hspec : spec.Valid)
    (hclock : r.clock = c.now) {step : Attempt} {stepOrderId : String}
    (ht : Tried r n orderId v v' call (.ok (step, stepOrderId)))
    (hask : n = 1 ∨ step.escalateAfterReplan = false) :
    Unlost r spec v' where
  toFormed := h.toFormed.tried hspec ht
  quiet := (hrested.tried hclock ht).1
  calls := by
    rw [ht.called.history]
    exact List.forall_mem_cons.mpr ⟨ht.not_losesTicket h.toRunning hask, h.calls⟩

/-- **The first loop.** -/
theorem Unlost.planning (h : Unlost r spec v) (hrested : Rested r spec v) (hspec : spec.Valid)
    (hclock : r.clock = c.now) {res : Except PyError Planned}
    (hp : Planning r r.attempts r.defaultOrderId v v' res) :
    Ends (fun planned v => planned.Leaves (r.Goes spec planned v) (StaleTwice r spec · v))
      (StopsOverTicket r) res v' := by
  refine hp.rule r.mayAttempt_attempts (I := fun _ v => Unlost r spec v ∧ Rested r spec v)
    (fun n _ => ⟨h, hrested⟩) ?_ ?_ ?_ ?_
  -- a first attempt found stale state
  · intro orderId v t u call step stepOrderId h tried hreplan ticks
    obtain ⟨hunlost, hrested⟩ := h
    have ht := hunlost.tried hrested hspec hclock tried (.inl rfl)
    have hu := ((hrested.tried hclock tried).2 (.inr (.inl hreplan))).ticks ticks
    refine ⟨⟨ht.toFormed.quiet ticks.toSteady.carries ticks.shared, hu.quiet, ?_⟩, hu⟩
    rw [ticks.history]
    exact ht.calls
  -- an attempt raised
  · exact fun n orderId v v' call err h tried => h.1.toFormed.stops hspec tried
  -- a second one found stale state too
  · intro n orderId v v' call step stepOrderId h tried hescalate
    obtain ⟨hunlost, hrested⟩ := h
    have hafter := (hrested.tried hclock tried).2 (.inr (.inr hescalate))
    obtain ⟨proposal, horder, hfound, hin, hloses⟩ :=
      hunlost.toFormed.asks_escalation hspec tried hescalate
    refine .inr ⟨_, rfl, hafter, (hunlost.toFormed.tried hspec tried).formed, call, v.own.history,
      proposal, tried.called.history, horder, horder ▸ hfound, hin,
      (tried.stale hunlost.toRunning (.inr hescalate)).1, ?_, hloses, hunlost.calls⟩
    rw [tried.called.attempt]
    exact ((tried.attempted.replans rfl).2 hescalate).2
  -- an attempt settled it
  · intro n orderId v v' call step stepOrderId h tried hreplan hescalate
    obtain ⟨hunlost, hrested⟩ := h
    exact .inl ⟨rfl, hunlost.tried hrested hspec hclock tried (.inr hescalate),
      fun hcompleted => (hrested.tried hclock tried).2 (.inl hcompleted)⟩

/-- **The escalation behind it.** -/
theorem StaleTwice.escalated {orderId : String} (h : StaleTwice r spec orderId v)
    (hspec : spec.Valid) (hclock : r.clock = c.now) (haside : Aside v v')
    {res : Except PyError (Option ExecutionResult)}
    (escalated : Escalated r orderId .staleResourceVersion staleDetail v v' res) :
    Ends (fun _ => r.Goes spec (.stale orderId)) (StopsOverTicket r) (res.map fun _ => ()) v' := by
  obtain ⟨call, earlier, proposal, hhistory, rfl, hfound, hin, hfate, hlater, hloses,
    hearlier⟩ := h.last
  have hv : Formed r spec v := ⟨h.toRunning, h.formed⟩
  have hrested := h.toRested.escalated haside escalated
  have hformed := escalated.kept (wellFormed_kept r hspec) h.toWired h.formed
  cases res with
  | error err =>
      obtain ⟨-, -, hlost, hkey⟩ := hv.escalation_raises hspec proposal.orderId_length escalated
      refine ⟨⟨call, ?_, .inr ⟨hfate, hlater⟩, (hloses _).symm.trans hlost⟩, hkey⟩
      rw [haside.history, hhistory]
      exact List.mem_cons_self
  | ok ticket =>
      have hkept : v.own.session.loses (str ActionName.createSupportTicket) = false := by
        cases escalated.ticketed rfl h.toRunning with
        | unknown missing => simp [missing] at hfound
        | late late =>
            rw [hclock, ← c.usable_iff, ← call.inTime_iff_usable hclock] at late
            exact absurd hin late
        | written order ticket permit y now mid found proposed equipped landed kept => exact kept
      refine ⟨⟨⟨hrested.toRunning, hformed⟩, hrested.quiet, ?_⟩, fun _ => hrested⟩
      rw [haside.history, hhistory]
      refine List.forall_mem_cons.mpr ⟨fun hlost => ?_, hearlier⟩
      have hlost := hlost.2
      rw [← hloses, hkept] at hlost
      cases hlost

/-- **The chain.** -/
theorem Runner.Goes.chained {planned : Planned} (h : r.Goes spec planned v) (hspec : spec.Valid)
    (hclock : r.clock = c.now) {res : Except PyError Planned}
    (hc : Chained r planned v v' res) :
    Ends (fun _ => Unlost r spec) (StopsOverTicket r) res v' := by
  refine hc.leads h (fun _ _ h => h.1) ?_
  intro planned v v' call res h hcompleted hleft tried
  have hrested := h.2 hcompleted
  cases res with
  | error err => exact h.1.toFormed.stops hspec tried
  | ok a =>
      have hunlost := h.1.tried hrested hspec hclock tried (.inl rfl)
      exact ⟨fun _ => hunlost, fun _ _ => ⟨hunlost, fun hdone =>
        (hrested.tried hclock tried).2 (.inl hdone)⟩⟩

/-- A replay of a permit that cannot be used returns. -/
theorem Unlost.replayed (h : Unlost r spec v) (hspec : spec.Valid) {err : PyError} :
    ¬ Replayed r v v' (.error err) := by
  intro hreplayed
  generalize hres : (Except.error err : Except PyError Unit) = res at hreplayed
  cases hreplayed with
  | unasked same => cases hres
  | presented permitId proposal res last t executed =>
      cases res with
      | ok result => cases hres
      | error err' =>
          obtain ⟨⟨permit, target, hload, hclear⟩, -⟩ := h.toFormed.raises hspec executed
          exact h.quiet permitId proposal permit target last hload hclear

/-- **When a run returns.**  On a well-formed database, under a scenario that writes valid
values, where columns and calendar have room for the run, a run reports if and only if none of
its calls hands over with a ticket whose response is lost; and where it does not report, that
response is what leaves it.  On the way no integer leaves its column and no instant the calendar,
so that the code, too, computes all of them. -/
theorem returns_iff {db : Database} {proposals : List RawProposal}
    {res : Except PyError RunReport} (hclock : r.clock = c.now) (hseeded : db.Seeded)
    (hformed : db.WellFormed) (hspec : spec.Valid)
    (hranges : WithinRanges r c proposals spec db)
    (hrun : r.run.run ⟨db, r.start proposals spec⟩ = (res, v')) :
    ((∃ report, res = .ok report) ↔ ∀ call ∈ v'.own.history, ¬ call.LosesTicket r) ∧
      (∀ err, res = .error err →
        ∃ key, err = .responseTimeout (str ActionName.createSupportTicket) key) ∧
      ∀ n k, Pool.Walks (fun _ _ => False) ((r.alone proposals spec).pool db) n k →
        k.shared.Fits 0 ∧ ∀ m ≤ (k.threads ()).own.session.readings,
          Instant.InCalendar (c.now m) ∧
            Instant.InCalendar (c.now m + seconds permitTtlSeconds) := by
  have hstart : Unlost r spec ⟨db, r.start proposals spec⟩ :=
    Unlost.start hseeded hformed proposals
  have hrested : Rested r spec ⟨db, r.start proposals spec⟩ := Rested.start hseeded proposals
  have hends : Ends (fun _ v => ∀ call ∈ v.own.history, ¬ call.LosesTicket r)
      (StopsOverTicket r) res v' := by
    refine (run_run hstart.audited hrun).rule
      (B := fun v => Unlost r spec v ∧ Rested r spec v)
      (P := fun planned v => planned.Leaves (r.Goes spec planned v) (StaleTwice r spec · v))
      (H := r.Goes spec) (C := fun _ => Unlost r spec)
      (S := fun _ v => v.shared.WellFormed ∧ ∀ call ∈ v.own.history, ¬ call.LosesTicket r)
      ?_ ?_ ?_ ?_ ?_ ?_
    -- up to the first attempt only the clock has moved
    · intro t ht
      have hrested := hrested.ticks ht
      refine ⟨⟨hstart.toFormed.quiet ht.toSteady.carries ht.shared, hrested.quiet, ?_⟩, hrested⟩
      rw [ht.history]
      exact hstart.calls
    · intro t u res h hplanning
      exact h.1.planning h.2 hspec hclock hplanning
    -- the escalation behind the first loop, if there is one
    · intro planned u w res h haside hhanded
      refine hhanded.rule (P := fun res w => Ends (fun _ => r.Goes spec planned)
        (StopsOverTicket r) res w) h (fun h => h) ?_
      rintro orderId res rfl hstale escalated
      exact hstale.escalated hspec hclock haside escalated
    · intro planned w y res h hchained
      exact h.chained hspec hclock hchained
    -- the deliberate replay is answered from the record
    · intro planned y z res h hsteady hreplayed
      cases res with
      | error err => exact absurd hreplayed (h.replayed hspec)
      | ok _ =>
          refine ⟨hreplayed.kept (wellFormed_kept r hspec) h.toWired h.formed, ?_⟩
          rw [hsteady.history]
          exact h.calls
    -- the report reads what is well formed
    · intro planned z z' res h hshared hhistory hfinished
      cases hfinished with
      | unreadable err cause => exact absurd cause (h.1.readable _ _)
      | reported report =>
          show ∀ call ∈ z'.own.history, _
          rw [hhistory]
          exact h.2
  cases res with
  | ok report =>
      refine ⟨iff_of_true ⟨report, rfl⟩ hends, fun err herr => ?_, fun _ _ => hranges.alone⟩
      cases herr
  | error err =>
      obtain ⟨⟨call, hcall, hlost⟩, hkey⟩ := hends
      refine ⟨iff_of_false ?_ fun hnone => hnone call hcall hlost, fun err herr => ?_,
        fun _ _ => hranges.alone⟩
      · rintro ⟨report, hreport⟩
        cases hreport
      · cases herr
        exact hkey

end Runs

/-- A run that loses the response to its first commit of one action. -/
def lossyRunner : Runner where
  clock := FixedClock.now { base := defaultClockBase }
  runId := "run_lossy"
  scenarioId := "lossy"
  defaultOrderId := "ord_0001"

/-- The response to the first commit of the action is lost. -/
def lossyFailures (action : ActionName) : FailureSpec where
  postCommitTimeoutActions := [(str action, 1)]

/-- It injects no change. -/
theorem lossyFailures_valid (action : ActionName) : (lossyFailures action).Valid := by
  rintro c ⟨entry, hentry, -⟩
  cases hentry

/-- How it ends when it is to cancel an order of this status. -/
def lossyStopped (action : ActionName) (status : OrderStatus) :
    Except PyError RunReport × World :=
  lossyRunner.run.run ⟨seedWorld [("ord_0001", status)],
    lossyRunner.start [.proposal cancelFirst] (lossyFailures action)⟩

/-- There is room for it. -/
theorem lossyRunner_withinRanges (action : ActionName) (status : OrderStatus) :
    WithinRanges lossyRunner { base := defaultClockBase } [.proposal cancelFirst]
      (lossyFailures action) (seedWorld [("ord_0001", status)]) where
  columns := by
    have hstatements : (lossyRunner.alone [.proposal cancelFirst]
        (lossyFailures action)).statements () = 182 := rfl
    rw [hstatements]
    cases status <;> exact ⟨by decide, by decide, by decide, by decide⟩
  changes := by
    rintro change ⟨entry, hentry, -⟩
    cases hentry
  instants n _ := by
    have hstill : FixedClock.now { base := defaultClockBase } n = defaultClockBase := by
      simp [FixedClock.now]
    rw [hstill]
    decide

/-- The response to a cancellation is asked for again. -/
theorem returns_iff_lossy : (lossyStopped .cancelOrder .paid).1.map RunReport.outcome =
      .ok .completed ∧
    ((∃ report, (lossyStopped .cancelOrder .paid).1 = .ok report) ↔
      ∀ call ∈ (lossyStopped .cancelOrder .paid).2.own.history,
        ¬ call.LosesTicket lossyRunner) :=
  ⟨by decide +kernel, (returns_iff (c := { base := defaultClockBase }) rfl (seedWorld_seeded _)
    (seedWorld_wellFormed _) (lossyFailures_valid _) (lossyRunner_withinRanges _ _) rfl).1⟩

/-- The response to the ticket of an escalation is not, and the exception leaves the run. -/
theorem ticket_response_lost :
    (seedWorld [("ord_0001", .shipped)]).WellFormed ∧
    (lossyFailures .createSupportTicket).Valid ∧
    WithinRanges lossyRunner { base := defaultClockBase } [.proposal cancelFirst]
      (lossyFailures .createSupportTicket) (seedWorld [("ord_0001", .shipped)]) ∧
    (lossyStopped .createSupportTicket .shipped).1 =
      .error (.responseTimeout "create_support_ticket"
        (idempotencyKeyFor "run_lossy" 1 .createSupportTicket "ord_0001")) :=
  ⟨seedWorld_wellFormed _, lossyFailures_valid _, lossyRunner_withinRanges _ _,
    by decide +kernel⟩

end BoundedRefund
