import BoundedRefund.Numbered
import BoundedRefund.Replay
import BoundedRefund.Trace

/-!
# Verdicts

How the calls of a run that has the database for itself end, and what decides about it.

A permit that was just issued fits the proposal it was issued for, so only two of the
checks can refuse it: the expiry and the amount (`Fits.assess`).  Behind the checks only the
changes of the scenario can get in the way, if they move the row the permit pins
(`Call.Overtaken`); and once the commit is through, only a retry that comes too late can still
turn it into a refusal.

`Verdict` lists the endings of a call that returns, `Ticketed` those of an escalation.
Clock readings are counted from the start of the call: the permit is issued at the fifth.
-/

namespace BoundedRefund

open Concurrent Relational

/-! ## Time -/

/-- A permit issued at reading `n` has not expired at reading `m`. -/
def Clock.InTime (clock : Clock) (n m : Nat) : Prop :=
  clock m ≤ clock n + seconds permitTtlSeconds

/-- A clock with a fixed step treats all permits alike. -/
theorem FixedClock.inTime_iff (c : FixedClock) (n k : Nat) :
    Clock.InTime c.now n (n + k) ↔ k * c.step ≤ seconds permitTtlSeconds := by
  have hsub := c.now_sub n k
  unfold Clock.InTime
  constructor <;> intro h <;> linarith

/-! ## Permits that fit -/

/-- What is asked for is what the proposal needs. -/
structure Fits (db : Database) (request : PermitRequest) (proposal : ActionProposal) : Prop where
  action : request.action = proposal.action
  ttlSeconds : request.ttlSeconds = none
  idempotencyKey : request.idempotencyKey = none
  target : ∃ target, db.resolveTarget proposal = .ok (some target) ∧
    target.resourceId = request.resourceId ∧
    target.version = request.expectedResourceVersion ∧
    transitionAllowed proposal target = .ok true

section Fits

variable {db : Database} {request : PermitRequest} {proposal : ActionProposal}

/-- The targets are rows of orders and payments. -/
theorem Fits.congr (h : Fits db request proposal) {db' : Database}
    (horders : db'.orders = db.orders) (hpayments : db'.payments = db.payments) :
    Fits db' request proposal := by
  have hresolve : db'.resolveTarget proposal = db.resolveTarget proposal := by
    unfold Database.resolveTarget Database.fetchPaymentForOrder Database.fetchOrder
    rw [horders, hpayments]
  exact ⟨h.action, h.ttlSeconds, h.idempotencyKey, hresolve ▸ h.target⟩

/-- What the policy allows, it asks the right permit for. -/
theorem Reads.fits {s : PolicySnapshot} {d : PolicyResult} (h : Reads db proposal s)
    (heval : evaluate (some proposal) s = .ok d) (hallow : d.decision = .allow) :
    Fits db (allowedRequest proposal d) proposal := by
  refine ⟨rfl, rfl, rfl, ?_⟩
  obtain ⟨haction, o, shipment, hcancel⟩ | ⟨haction, o, payment, policy, amount, hrefund⟩ |
    ⟨haction, o, hticket⟩ := evaluate_allow_cases heval hallow
  · have hfetch := h.order o hcancel.order_read
    refine ⟨⟨o.orderId, o.version, str o.status⟩, ?_, ?_, ?_, ?_⟩
    · simp [Database.resolveTarget, haction, hfetch, Except.map]
    · simp [allowedRequest, hcancel.decided]
    · simp [allowedRequest, hcancel.decided]
    · rcases hcancel.status with hs | hs <;>
        simp [transitionAllowed, haction, hs, Except.map, orderTransitionAllowed,
          orderTransitions]
  · have hfetch := h.payment payment hrefund.payment_read
    refine ⟨⟨payment.paymentId, payment.version, str payment.status⟩, ?_, ?_, ?_, ?_⟩
    · simp [Database.resolveTarget, haction, hfetch, Except.map]
    · simp [allowedRequest, hrefund.decided]
    · simp [allowedRequest, hrefund.decided]
    · simp [transitionAllowed, haction, hrefund.status, Except.map, paymentTransitionAllowed,
        paymentTransitions]
  · have hfetch := h.order o hticket.order_read
    refine ⟨⟨o.orderId, o.version, str o.status⟩, ?_, ?_, ?_, ?_⟩
    · simp [Database.resolveTarget, haction, hfetch, Except.map]
    · simp [allowedRequest, hticket.decided]
    · simp [allowedRequest, hticket.decided]
    · simp [transitionAllowed, haction]

/-- So does an escalation. -/
theorem Fits.ticket {orderId detail : String} {reason : ReasonCode} {order : Order}
    (hfound : db.fetchOrder orderId = .ok (some order))
    (hproposed : Runner.ticketProposal order reason detail = .ok proposal) :
    Fits db (ticketRequest order) proposal := by
  have haction := Runner.ticketProposal_action hproposed
  have horder : proposal.orderId = orderId :=
    (Runner.ticketProposal_orderId hproposed).trans (Database.fetchOrder_orderId hfound)
  refine ⟨haction.symm, rfl, rfl, ⟨order.orderId, order.version, str order.status⟩, ?_, rfl, rfl,
    ?_⟩
  · simp [Database.resolveTarget, haction, horder, hfound, Except.map]
  · simp [transitionAllowed, haction]

variable {r : Runner} {permit : ExecutionPermit} {n : Nat} {v w w' : World}

/-- A permit issued at reading `n` that nobody has used. -/
structure Held (r : Runner) (request : PermitRequest) (permit : ExecutionPermit) (n : Nat)
    (w : World) : Prop where
  loaded : w.shared.loadPermit (some permit.permitId) = some permit
  issued : ∃ sequence, permit = r.issuer.permitAt request sequence (r.clock n)
  fresh : w.shared.storedResult permit.idempotencyKey = none

/-- A permit that was just issued is held. -/
theorem Equipped.held (h : Equipped r request permit v w) (hkey : request.idempotencyKey = none)
    (hn : Numbered r.runId v.own.session.sequence v.shared) :
    Held r request permit v.own.session.readings w :=
  ⟨h.loadPermit, ⟨_, h.issued⟩, h.fresh hkey hn⟩

/-- A permit is held in the same database. -/
theorem Held.congr (h : Held r request permit n w) (hshared : w'.shared = w.shared) :
    Held r request permit n w' :=
  ⟨hshared ▸ h.loaded, h.issued, hshared ▸ h.fresh⟩

/-- The checks of a permit that nobody has used come down to two. -/
theorem Fits.assess (h : Fits w.shared request proposal) (hheld : Held r request permit n w)
    (now : Instant) :
    w.shared.assess now (some permit) proposal =
      if r.clock n + seconds permitTtlSeconds < now then
        .ok (some (rejected .permitExpired request.resourceId))
      else if request.maxAmountCents < proposal.amount then
        .ok (some (rejected .permitAmountExceeded request.resourceId))
      else .ok none := by
  obtain ⟨target, hresolve, hresource, hversion, htransition⟩ := h.target
  obtain ⟨sequence, hissued⟩ := hheld.issued
  have hfresh := hheld.fresh
  have haction : permit.action = proposal.action := by
    rw [hissued]
    exact h.action
  have hresource' : target.resourceId = permit.resourceId := by
    rw [hissued]
    exact hresource
  have hversion' : target.version = permit.expectedResourceVersion := by
    rw [hissued]
    exact hversion
  have hexpires : parseIso permit.expiresAt = .ok (r.clock n + seconds permitTtlSeconds) := by
    rw [hissued]
    simp [PermitIssuer.permitAt, h.ttlSeconds, Runner.issuer]
  have hunused : permit.used = false := by
    rw [hissued]
    rfl
  have hmax : permit.maxAmountCents = request.maxAmountCents := by
    rw [hissued]
    rfl
  simp [Database.assess, Executor.lateChecks, haction, hresolve, hresource', hexpires, hunused,
    hversion', hfresh, hmax, htransition, Except.map, ← hresource]

/-- A cleared permit is in time, and the amount is within. -/
theorem Fits.cleared (h : Fits w.shared request proposal) (hheld : Held r request permit n w)
    {now : Instant} {target : Target} (hclear : Clear w.shared now permit proposal target) :
    now ≤ r.clock n + seconds permitTtlSeconds ∧ proposal.amount ≤ request.maxAmountCents := by
  have hassess := h.assess hheld now
  rw [hclear.assess] at hassess
  split_ifs at hassess with hlate hbeyond
  · simp at hassess
  · simp at hassess
  · exact ⟨not_lt.mp hlate, not_lt.mp hbeyond⟩

end Fits

/-! ## The first execution of a permit -/

/-- The first execution of a permit, from `w` on, went through, up to the database `db'`. -/
structure Landed (r : Runner) (request : PermitRequest) (permit : ExecutionPermit)
    (proposal : ActionProposal) (texts : TicketTexts) (n : Nat) (w : World) (now : Instant)
    (mid db' : Database) : Prop where
  inTime : r.clock.InTime n (w.own.session.readings + 1)
  within : proposal.amount ≤ request.maxAmountCents
  injected : injectAll (w.own.session.due (str proposal.action)) w.shared = (.ok (), mid)
  commits : (r.executor.execution permit proposal texts now).Commits mid db'

/-- **How the first execution of a permit ends.**  The permit was issued at reading `n` and
is presented in `w`. -/
inductive Presented (r : Runner) (request : PermitRequest) (permit : ExecutionPermit)
    (proposal : ActionProposal) (texts : TicketTexts) (n : Nat) (w v' : World) :
    Except PyError ExecutionResult → Prop
  | late (late : ¬ r.clock.InTime n (w.own.session.readings + 1)) (ticks : Ticks 3 w v') :
      Presented r request permit proposal texts n w v'
        (.ok (rejected .permitExpired request.resourceId))
  | beyond (inTime : r.clock.InTime n (w.own.session.readings + 1))
      (beyond : request.maxAmountCents < proposal.amount) (shared : v'.shared = w.shared) :
      Presented r request permit proposal texts n w v'
        (.ok (rejected .permitAmountExceeded request.resourceId))
  | overtaken (inTime : r.clock.InTime n (w.own.session.readings + 1))
      (within : proposal.amount ≤ request.maxAmountCents)
      (action : proposal.action ≠ .createSupportTicket)
      (injected : injectAll (w.own.session.due (str proposal.action)) w.shared =
        (.ok (), v'.shared))
      (moved : v'.shared.pinnedVersion request.resourceId proposal.action ≠
        some request.expectedResourceVersion)
      (readings : v'.own.session.readings = w.own.session.readings + 4)
      (loses : ∀ action, v'.own.session.loses action = w.own.session.loses action) :
      Presented r request permit proposal texts n w v'
        (.ok (rejected .staleResourceVersion request.resourceId))
  | committed (now : Instant) (mid : Database) (res : Except PyError ExecutionResult)
      (landed : Landed r request permit proposal texts n w now mid v'.shared)
      (responded : Responded r.executor permit proposal
        (r.executor.execution permit proposal texts now).result w v' res) :
      Presented r request permit proposal texts n w v' res
  | spoiled (err : PyError) (now : Instant) (inj : Except PyError Unit)
      (injected : injectAll (w.own.session.due (str proposal.action)) w.shared =
        (inj, v'.shared))
      (cause : inj = .error err ∨ v'.shared.resolveTarget proposal = .error err ∨
        (inj = .ok () ∧ r.executor.commitAll (r.executor.authorization permit) permit proposal
          texts now v'.shared = .error err)) :
      Presented r request permit proposal texts n w v' (.error err)

section Presented

variable {r : Runner} {request : PermitRequest} {permit : ExecutionPermit}
variable {proposal : ActionProposal} {texts : TicketTexts} {n : Nat} {w v' : World}
variable {res : Except PyError ExecutionResult}

/-- A permit that is held and fits is presented. -/
theorem Executed.presented
    (h : Executed r.executor (some permit.permitId) proposal texts w v' res)
    (hheld : Held r request permit n w) (hfit : Fits w.shared request proposal)
    (haudit : w.own.session.audit.isSome = true) :
    Presented r request permit proposal texts n w v' res := by
  have htick := Session.tick_of_audited haudit
  have hload := hheld.loaded
  have hassess := hfit.assess hheld (r.clock (w.own.session.readings + 1))
  have hreading : r.executor.clock (w.own.session.readings + w.own.session.tick) =
      r.clock (w.own.session.readings + 1) := by
    rw [htick]
    rfl
  have hpinned : permit.resourceId = request.resourceId ∧
      permit.expectedResourceVersion = request.expectedResourceVersion := by
    obtain ⟨sequence, hissued⟩ := hheld.issued
    rw [hissued]
    exact ⟨rfl, rfl⟩
  cases h with
  | answered result shared assessed k ticks expired =>
      -- the checks of a held permit ask for two things: that it is in time, and covers the amount
      rw [hload, hreading, hassess] at assessed
      split_ifs at assessed with hlate hbeyond
      · obtain rfl : _ = result := by simpa using assessed
        have hk : k = 3 := by
          rw [expired rfl, htick]
        exact .late (not_le.mpr hlate) (hk ▸ ticks)
      · obtain rfl : _ = result := by simpa using assessed
        exact .beyond (not_lt.mp hlate) hbeyond shared
      · simp at assessed
  | failed err shared cause =>
      obtain ⟨target, hresolve, -⟩ := hfit.target
      rw [hload, hreading, hassess, hresolve] at cause
      rcases cause with cause | cause
      · cases cause
      · split_ifs at cause
  | overtaken loaded target now resourceId version load cleared injected stale readings loses =>
      cases hload.symm.trans load
      rw [hreading] at cleared
      obtain ⟨hin, hwithin⟩ := hfit.cleared hheld cleared
      have hmoved := pinnedVersion_of_stale
        (fun ha => cleared.resource.symm.trans (resolved_resource cleared.resolved ha)) stale
      rw [hpinned.1, hpinned.2] at hmoved
      rw [hpinned.1]
      refine .overtaken hin hwithin (action_of_stale stale) injected hmoved ?_ loses
      rw [readings, htick]
  | spoiled err loaded target now inj load cleared injected cause =>
      cases hload.symm.trans load
      refine .spoiled err now inj injected ?_
      exact cause.imp_right (Or.imp_right fun h => ⟨h.1, h.2.1⟩)
  | committed loaded target now mid res load cleared injected commits responded =>
      cases hload.symm.trans load
      rw [hreading] at cleared
      obtain ⟨hin, hwithin⟩ := hfit.cleared hheld cleared
      exact .committed now mid res ⟨hin, hwithin, injected, commits⟩ responded

end Presented

/-! ## The retry -/

section Raises

variable {db : Database}

/-- A look at the target raises over a status that is none. -/
theorem resolveTarget_raises {proposal : ActionProposal} {err : PyError}
    (h : db.resolveTarget proposal = .error err) : ∃ message, err = .valueError message := by
  unfold Database.resolveTarget at h
  split at h
  all_goals
    obtain ⟨row, hrow⟩ := Database.readRow_raises (map_eq_error.mp h)
    exact StrEnum.parse_raises (map_eq_error.mp hrow)

/-- The check of a transition fails over a status only. -/
theorem transitionAllowed_raises {proposal : ActionProposal} {target : Target} {err : PyError}
    (h : transitionAllowed proposal target = .error err) :
    ∃ message, err = .valueError message := by
  unfold transitionAllowed at h
  split at h
  · exact StrEnum.parse_raises (map_eq_error.mp h)
  · exact StrEnum.parse_raises (map_eq_error.mp h)
  · cases h

/-- The checks raise over a status or a time that is none. -/
theorem assess_raises {now : Instant} {permit : Option ExecutionPermit}
    {proposal : ActionProposal} {err : PyError}
    (h : db.assess now permit proposal = .error err) : ∃ message, err = .valueError message := by
  unfold Database.assess at h
  split at h
  · cases h
  split_ifs at h
  split at h
  · rename_i hresolved
    cases h
    exact resolveTarget_raises hresolved
  · cases h
  split_ifs at h
  split at h
  · rename_i hparse
    cases h
    unfold parseIso at hparse
    split at hparse <;> cases hparse
    exact ⟨_, rfl⟩
  split_ifs at h
  unfold Executor.lateChecks at h
  split_ifs at h
  split at h
  · cases h
  · exact transitionAllowed_raises (map_eq_error.mp h)

/-- Injected changes fail over a value only. -/
theorem injectAll_raises {due : List StateChange} {db' : Database} {err : PyError}
    (h : injectAll due db = (.error err, db')) : ∃ message, err = .valueError message := by
  induction due generalizing db with
  | nil => cases h
  | cons c due ih =>
      rw [injectAll] at h
      cases hap : c.apply db with
      | ok mid =>
          simp only [hap] at h
          exact ih h
      | error err' =>
          simp only [hap, Prod.mk.injEq, Except.error.injEq] at h
          obtain ⟨rfl, -⟩ := h
          unfold StateChange.apply at hap
          split at hap
          · cases hap
            exact ⟨_, rfl⟩
          · split_ifs at hap
            cases hap
            exact ⟨_, rfl⟩

/-- A transaction does not lose responses. -/
theorem commitAll_not_lost {e : Executor} {auth : WriteAuthorization} {permit : ExecutionPermit}
    {proposal : ActionProposal} {texts : TicketTexts} {now : Instant} {tool key : String} :
    e.commitAll auth permit proposal texts now db ≠ .error (.responseTimeout tool key) := by
  intro h
  obtain ⟨_, hpermit⟩ | ⟨_, hkey⟩ | ⟨-, hstale, -⟩ | ⟨-, hstale, -⟩ := commitAll_raises h
  · cases hpermit
  · cases hkey
  · cases hstale
  · cases hstale

end Raises

section Retry

variable {r : Runner} {request : PermitRequest} {permit : ExecutionPermit}
variable {proposal : ActionProposal} {texts : TicketTexts} {n : Nat} {w v' : World}
variable {now : Instant} {mid db' : Database}

/-- What went through is spent. -/
theorem Landed.spent (h : Landed r request permit proposal texts n w now mid db')
    (hheld : Held r request permit n w) :
    Spent db' (r.executor.execution permit proposal texts now) := by
  refine Spent.of_commits ?_ h.commits
  obtain ⟨-, hne, row, hfind, hrow⟩ := Database.loadPermit_eq_some hheld.loaded
  refine ⟨hne, row, row, hrow, .refl row, ?_⟩
  rwa [(Injected.of_injectAll h.injected).executionPermits]

/-- What went through found its row where the permit pins it. -/
theorem Landed.pinned (h : Landed r request permit proposal texts n w now mid db')
    (hheld : Held r request permit n w) (ha : proposal.action ≠ .createSupportTicket) :
    mid.pinnedVersion request.resourceId proposal.action =
      some request.expectedResourceVersion := by
  obtain ⟨sequence, hissued⟩ := hheld.issued
  subst hissued
  cases hact : proposal.action with
  | cancelOrder =>
      obtain ⟨row, hrow, hversion⟩ := h.commits.order_pinned hact
      exact Option.map_eq_some_iff.mpr ⟨row, hrow, hversion⟩
  | issueRefund =>
      obtain ⟨row, hrow, hversion⟩ := h.commits.payment_pinned hact
      exact Option.map_eq_some_iff.mpr ⟨row, hrow, hversion⟩
  | createSupportTicket => exact absurd hact ha

/-- What went through is stored. -/
theorem Landed.stored (h : Landed r request permit proposal texts n w now mid db')
    (hheld : Held r request permit n w) : db'.Stored permit.permitId :=
  Database.stored_of_commits (x := r.executor.execution permit proposal texts now)
    hheld.loaded ((Injected.of_injectAll h.injected).aging.trans (Later.commits h.commits).aging)
    h.commits

/-- A response that was lost was the response to a commit. -/
theorem Presented.lost {tool key : String}
    (h : Presented r request permit proposal texts n w v' (.error (.responseTimeout tool key)))
    (haudit : w.own.session.audit.isSome = true) :
    w.own.session.loses (str proposal.action) = true ∧
      v'.own.session.readings = w.own.session.readings + 4 ∧
      ∃ now mid, Landed r request permit proposal texts n w now mid v'.shared := by
  cases h with
  | committed now mid res landed responded =>
      cases responded with
      | lost loses readings =>
          rw [Session.tick_of_audited haudit] at readings
          exact ⟨loses, readings, now, mid, landed⟩
      | unreported err cause =>
          obtain ⟨_, he⟩ := resolveTarget_raises cause
          cases he
  | spoiled err now inj injected cause =>
      exfalso
      rcases cause with rfl | cause | ⟨-, cause⟩
      · obtain ⟨_, he⟩ := injectAll_raises injected
        cases he
      · obtain ⟨_, he⟩ := resolveTarget_raises cause
        cases he
      · exact commitAll_not_lost cause

/-- **How an execution with its retry is answered**: as the first one was, or, if its
response was lost, as the second one is. -/
theorem Retried.answered {result : ExecutionResult}
    (h : Retried r permit.permitId proposal w v' (.ok result))
    (hheld : Held r request permit n w) (hfit : Fits w.shared request proposal)
    (haudit : w.own.session.audit.isSome = true) :
    Presented r request permit proposal {} n w v' (.ok result) ∨
    (w.own.session.loses (str proposal.action) = true ∧
      (∃ now mid, Landed r request permit proposal {} n w now mid v'.shared) ∧
      ((r.clock.InTime n (w.own.session.readings + 5) ∧ result.committed = true) ∨
        (¬ r.clock.InTime n (w.own.session.readings + 5) ∧
          result = rejected .permitExpired request.resourceId))) := by
  cases h with
  | once res executed => exact Or.inl (executed.presented hheld hfit haudit)
  | twice tool key t u res first steady idle second =>
      obtain ⟨hloses, hreadings, now, mid, hlanded⟩ :=
        (first.presented hheld hfit haudit).lost haudit
      rw [← idle.shared] at hlanded
      -- the retry finds the permit used and its result stored, and only the expiry goes before that
      have hspent := hlanded.spent hheld
      have hstored := hlanded.stored hheld
      have hkeys : SameKeys w.shared u.shared :=
        (SameKeys.of_injectAll hlanded.injected).trans (SameKeys.commits hlanded.commits)
      have hshared := second.of_settled (Or.inl hstored)
      rw [← hshared] at hlanded
      refine Or.inr ⟨hloses, ⟨now, mid, hlanded⟩, ?_⟩
      obtain ⟨target, hresolve, hresource, -⟩ := hfit.target
      have hpermit : permit.resourceId = request.resourceId ∧ permit.action = request.action ∧
          parseIso permit.expiresAt = .ok (r.clock n + seconds permitTtlSeconds) := by
        obtain ⟨sequence, hissued⟩ := hheld.issued
        rw [hissued]
        refine ⟨rfl, rfl, ?_⟩
        simp [PermitIssuer.permitAt, hfit.ttlSeconds, Runner.issuer]
      have hreading : r.executor.clock (u.own.session.readings + u.own.session.tick) =
          r.clock (w.own.session.readings + 5) := by
        have htick : u.own.session.tick = 1 :=
          Session.tick_of_audited (idle.audited.trans (steady.audited.trans haudit))
        rw [htick, idle.readings, hreadings]
        rfl
      cases second with
      | answered result shared assessed =>
          cases hfound : u.shared.resolveTarget proposal with
          | error err =>
              rw [show permit.permitId =
                (r.executor.execution permit proposal {} now).permit.permitId from rfl,
                hspent.permit] at assessed
              simp [Database.assess, Execution.spentPermit, Executor.execution, hpermit.2.1,
                hfit.action, hfound] at assessed
          | ok found =>
              obtain ⟨target', rfl, htarget'⟩ := hkeys.resolveTarget hresolve hfound
              have hassess := assess_spent hspent (hfit.action.symm.trans hpermit.2.1.symm) hfound
                (htarget'.trans (hresource.trans hpermit.1.symm))
                (r.clock (w.own.session.readings + 5))
              rw [hreading] at assessed
              rw [show (r.executor.execution permit proposal {} now).permit = permit from rfl,
                assessed, hpermit.2.2] at hassess
              simp only [Except.ok.injEq, Option.some.injEq] at hassess
              split_ifs at hassess with hlate
              · exact Or.inr ⟨not_le.mpr hlate, hpermit.1 ▸ hassess⟩
              · refine Or.inl ⟨not_lt.mp hlate, ?_⟩
                rw [hassess]
                rfl
      | overtaken p target' now' id version loaded cleared =>
          exact absurd cleared (Database.Settled.not_clear (Or.inl hstored) loaded)
      | committed p target' now' mid' res loaded cleared =>
          exact absurd cleared (Database.Settled.not_clear (Or.inl hstored) loaded)

end Retry

/-! ## Escalations -/

/-- Neither a log row nor a ticket was added. -/
structure Unwritten (db db' : Database) : Prop where
  mutationLog : db'.mutationLog = db.mutationLog
  supportTickets : db'.supportTickets = db.supportTickets

namespace Unwritten

variable {db db' db'' : Database}

theorem of_eq (h : db' = db) : Unwritten db db' := by
  subst h
  exact ⟨rfl, rfl⟩

theorem trans (h : Unwritten db db') (h' : Unwritten db' db'') : Unwritten db db'' :=
  ⟨h'.mutationLog.trans h.mutationLog, h'.supportTickets.trans h.supportTickets⟩

/-- To issue a permit writes nothing else. -/
theorem equipped {r : Runner} {request : PermitRequest} {permit : ExecutionPermit} {v w : World}
    (h : Equipped r request permit v w) : Unwritten v.shared w.shared := by
  obtain ⟨permits, -, heq⟩ := Database.insertPermit_eq_ok.mp h.inserted
  rw [heq]
  exact ⟨rfl, rfl⟩

/-- Injected changes write no row of a run. -/
theorem injected {due : List StateChange} (h : Injected due db db') : Unwritten db db' :=
  ⟨h.mutationLog, h.supportTickets⟩

end Unwritten

/-- **How an escalation that returns ends.**  It was entered in `v`. -/
inductive Ticketed (r : Runner) (orderId : String) (reason : ReasonCode) (detail : String)
    (v v' : World) : Prop
  | unknown (missing : v.shared.orders.find? orderId = none) (shared : v'.shared = v.shared)
  | late (late : ¬ r.clock.InTime v.own.session.readings (v.own.session.readings + 3))
      (found : (v.shared.orders.find? orderId).isSome) (unwritten : Unwritten v.shared v'.shared)
  | written (order : Order) (proposal : ActionProposal) (permit : ExecutionPermit) (w : World)
      (now : Instant) (mid : Database)
      (found : v.shared.fetchOrder orderId = .ok (some order))
      (proposed : Runner.ticketProposal order reason detail = .ok proposal)
      (equipped : Equipped r (ticketRequest order) permit v w)
      (landed : Landed r (ticketRequest order) permit proposal
        { reasonCode := str reason, summary := proposal.reason } v.own.session.readings w now mid
        v'.shared)
      (kept : v.own.session.loses (str ActionName.createSupportTicket) = false)

section Escalations

variable {r : Runner} {spec : FailureSpec} {v v' w : World}

/-- A permit fits the proposal it was asked for. -/
theorem Equipped.fits {request : PermitRequest} {permit : ExecutionPermit}
    {proposal : ActionProposal} (he : Equipped r request permit v w)
    (h : Fits v.shared request proposal) : Fits w.shared request proposal := by
  obtain ⟨permits, -, heq⟩ := Database.insertPermit_eq_ok.mp he.inserted
  rw [heq]
  exact h.congr rfl rfl

/-- A hand-over ages the database. -/
theorem Escalated.aging {orderId detail : String} {reason : ReasonCode}
    {res : Except PyError (Option ExecutionResult)}
    (h : Escalated r orderId reason detail v v' res) : Aging v.shared v'.shared := by
  cases h with
  | unknown missing shared => exact shared ▸ Aging.refl _
  | unread err cause shared => exact shared ▸ Aging.refl _
  | unproposed err order found cause shared => exact shared ▸ Aging.refl _
  | unissued err order found cause shared => exact shared ▸ Aging.refl _
  | executed order proposal permit w res found proposed equipped steady executed =>
      exact (Later.insertPermit equipped.inserted).aging.trans executed.aging

/-- A hand-over has its ticket, or its reason for none. -/
theorem Escalated.ticketed {orderId detail : String} {reason : ReasonCode}
    {res : Except PyError (Option ExecutionResult)}
    (h : Escalated r orderId reason detail v v' res) {ticket : Option ExecutionResult}
    (hres : res = .ok ticket) (hrun : Running r spec v) :
    Ticketed r orderId reason detail v v' := by
  cases h with
  | unknown missing shared => exact .unknown (Database.fetchOrder_eq_none.mp missing) shared
  | unread err cause shared => cases hres
  | unproposed err order found cause shared => cases hres
  | unissued err order found cause shared => cases hres
  | executed order proposal permit w res found proposed equipped steady executed =>
      have haction := Runner.ticketProposal_action proposed
      have hpresented := executed.presented (equipped.held rfl hrun.numbered)
        (equipped.fits (Fits.ticket found proposed)) (equipped.audited.trans hrun.audited)
      cases hpresented with
      | late late ticks =>
          rw [equipped.readings] at late
          refine .late late ?_ ((Unwritten.equipped equipped).trans (.of_eq ticks.shared))
          rw [Database.fetchOrder_eq_some.mp found]
          rfl
      | beyond inTime beyond shared =>
          rw [Runner.ticketProposal_amount proposed] at beyond
          exact absurd beyond (lt_irrefl _)
      | overtaken inTime within action => exact absurd haction action
      | committed now mid res landed responded =>
          cases responded with
          | delivered kept =>
              rw [haction, (due_congr equipped.due _).2] at kept
              exact .written order proposal permit w now mid found proposed equipped landed kept
          | lost loses readings => cases hres
          | unreported err cause => cases hres
      | spoiled err now inj injected cause => cases hres

end Escalations

/-! ## Calls -/

namespace Call

/-- The permit issued for the call has not expired `k` readings later. -/
def InTime (r : Runner) (call : Call) (k : Nat) : Prop :=
  r.clock.InTime (call.start.own.readings + 4) (call.start.own.readings + 4 + k)

/-- The changes that are due before the commit move the row the decision pins. -/
def Overtaken (call : Call) (proposal : ActionProposal) (d : PolicyResult) : Prop :=
  proposal.action ≠ .createSupportTicket ∧
    (injectAll (call.start.own.due (str proposal.action)) call.start.shared).2.pinnedVersion
      d.resourceId proposal.action ≠ some d.expectedResourceVersion

end Call

/-- The policy allowed the call, and its permit was issued. -/
structure Opened (r : Runner) (call : Call) (proposal : ActionProposal) (s : PolicySnapshot)
    (d : PolicyResult) (permit : ExecutionPermit) (v u w : World) : Prop
    extends Judged r call proposal s d where
  decision : d.decision = .allow
  start : call.start = ⟨v.shared, v.own.session⟩
  idle : Idle 4 v u
  equipped : Equipped r (allowedRequest proposal d) permit u w

/-- A permit is no mutation. -/
theorem Opened.unwritten {r : Runner} {call : Call} {proposal : ActionProposal}
    {s : PolicySnapshot} {d : PolicyResult} {permit : ExecutionPermit} {v u w : World}
    (h : Opened r call proposal s d permit v u w) : Unwritten v.shared w.shared :=
  (Unwritten.of_eq h.idle.shared).trans (.equipped h.equipped)

/-- **How a call that returns ends**, with the order its attempt is about. -/
inductive Verdict (r : Runner) (n : Nat) (orderId : String) (v v' : World) (call : Call) :
    Attempt → String → Prop
  | rejected (reason : ReasonCode) (invalid : validate r.intFromText call.raw = .error reason)
      (shared : v'.shared = v.shared)
      (last : v'.own.session.lastExecution = v.own.session.lastExecution) :
      Verdict r n orderId v v' call { outcome := .denied, reasonCode := reason } orderId
  | denied (proposal : ActionProposal) (s : PolicySnapshot) (d : PolicyResult)
      (judged : Judged r call proposal s d) (decision : d.decision = .deny)
      (shared : v'.shared = v.shared)
      (last : v'.own.session.lastExecution = v.own.session.lastExecution) :
      Verdict r n orderId v v' call { outcome := .denied, reasonCode := d.reasonCode }
        proposal.orderId
  | escalated (proposal : ActionProposal) (s : PolicySnapshot) (d : PolicyResult) (w : World)
      (judged : Judged r call proposal s d) (decision : d.decision = .escalate)
      (idle : Idle 4 v w) (aging : Aging v.shared v'.shared)
      (ticketed : Ticketed r proposal.orderId d.reasonCode d.detail w v')
      (last : v'.own.session.lastExecution = v.own.session.lastExecution) :
      Verdict r n orderId v v' call { outcome := .escalated, reasonCode := d.reasonCode }
        proposal.orderId
  | late (proposal : ActionProposal) (s : PolicySnapshot) (d : PolicyResult)
      (permit : ExecutionPermit) (u w : World) (opened : Opened r call proposal s d permit v u w)
      (late : ¬ call.InTime r 3) (idle : Idle 3 w v')
      (last : v'.own.session.lastExecution = some (permit.permitId, proposal)) :
      Verdict r n orderId v v' call { outcome := .denied, reasonCode := .permitExpired }
        proposal.orderId
  | beyond (proposal : ActionProposal) (s : PolicySnapshot) (d : PolicyResult)
      (permit : ExecutionPermit) (u w : World) (opened : Opened r call proposal s d permit v u w)
      (inTime : call.InTime r 3) (beyond : d.maxAmountCents < proposal.amount)
      (shared : v'.shared = w.shared)
      (last : v'.own.session.lastExecution = some (permit.permitId, proposal)) :
      Verdict r n orderId v v' call { outcome := .denied, reasonCode := .permitAmountExceeded }
        proposal.orderId
  | overtaken (proposal : ActionProposal) (s : PolicySnapshot) (d : PolicyResult)
      (permit : ExecutionPermit) (u w : World) (opened : Opened r call proposal s d permit v u w)
      (inTime : call.InTime r 3) (within : proposal.amount ≤ d.maxAmountCents)
      (overtaken : call.Overtaken proposal d)
      (injected : Injected (w.own.session.due (str proposal.action)) w.shared v'.shared)
      (keys : SameKeys w.shared v'.shared) (settled : v'.shared.Settled permit.permitId)
      (readings : v'.own.session.readings = v.own.session.readings + 10)
      (loses : ∀ action, v'.own.session.loses action = v.own.session.loses action)
      (last : v'.own.session.lastExecution = some (permit.permitId, proposal)) :
      Verdict r n orderId v v' call
        (r.conclude d n (rejected .staleResourceVersion d.resourceId)) proposal.orderId
  | completed (proposal : ActionProposal) (s : PolicySnapshot) (d : PolicyResult)
      (permit : ExecutionPermit) (u w : World) (now : Instant) (mid : Database)
      (opened : Opened r call proposal s d permit v u w)
      (landed : Landed r (allowedRequest proposal d) permit proposal {}
        u.own.session.readings w now mid v'.shared)
      (onTime : ¬ call.Overtaken proposal d)
      (confirmed : call.start.own.loses (str proposal.action) = true → call.InTime r 7)
      (last : v'.own.session.lastExecution = some (permit.permitId, proposal)) :
      Verdict r n orderId v v' call { outcome := .completed, reasonCode := d.reasonCode }
        proposal.orderId
  /-- The response was lost, and the retry came too late. -/
  | unconfirmed (proposal : ActionProposal) (s : PolicySnapshot) (d : PolicyResult)
      (permit : ExecutionPermit) (u w : World) (now : Instant) (mid : Database)
      (opened : Opened r call proposal s d permit v u w)
      (landed : Landed r (allowedRequest proposal d) permit proposal {}
        u.own.session.readings w now mid v'.shared)
      (onTime : ¬ call.Overtaken proposal d)
      (loses : call.start.own.loses (str proposal.action) = true) (late : ¬ call.InTime r 7)
      (last : v'.own.session.lastExecution = some (permit.permitId, proposal)) :
      Verdict r n orderId v v' call { outcome := .denied, reasonCode := .permitExpired }
        proposal.orderId

namespace Opened

variable {r : Runner} {call : Call} {proposal : ActionProposal} {s : PolicySnapshot}
variable {d : PolicyResult} {permit : ExecutionPermit} {v u w : World}

/-- Six readings lie before the permit is presented. -/
theorem readings (h : Opened r call proposal s d permit v u w) :
    w.own.session.readings = v.own.session.readings + 6 := by
  rw [h.equipped.readings, h.idle.readings]

/-- A call is in time when so many readings fit into the life of its permit. -/
theorem inTime_iff (h : Opened r call proposal s d permit v u w) (k : Nat) :
    call.InTime r (k + 2) ↔
      r.clock.InTime u.own.session.readings (w.own.session.readings + k) := by
  rw [Call.InTime, h.start, h.idle.readings, h.readings]
  have hsum : v.own.session.readings + 4 + (k + 2) = v.own.session.readings + 6 + k := by omega
  rw [hsum]

/-- What is still to come when the permit is presented was to come when the call began. -/
theorem due_eq (h : Opened r call proposal s d permit v u w) (action : String) :
    w.own.session.due action = call.start.own.due action ∧
      w.own.session.loses action = call.start.own.loses action := by
  rw [h.start]
  exact due_congr (h.equipped.due.trans h.idle.due) action

/-- The permit of a call fits its proposal. -/
theorem fits (h : Opened r call proposal s d permit v u w) :
    Fits w.shared (allowedRequest proposal d) proposal := by
  refine h.equipped.fits ?_
  rw [h.idle.shared]
  have hreads := h.reads
  rw [h.start] at hreads
  exact hreads.fits h.evaluated h.decision

/-- Whether the row is moved can be told from the start of the call. -/
theorem overtaken_iff (h : Opened r call proposal s d permit v u w) {res : Except PyError Unit}
    {db' : Database}
    (hinjected : injectAll (w.own.session.due (str proposal.action)) w.shared = (res, db')) :
    call.Overtaken proposal d ↔ proposal.action ≠ .createSupportTicket ∧
      db'.pinnedVersion d.resourceId proposal.action ≠ some d.expectedResourceVersion := by
  obtain ⟨permits, -, heq⟩ := Database.insertPermit_eq_ok.mp h.equipped.inserted
  rw [(h.due_eq _).1, heq, h.idle.shared, injectAll_permits, Prod.mk.injEq] at hinjected
  obtain ⟨-, rfl⟩ := hinjected
  rw [Call.Overtaken, h.start]
  cases proposal.action <;> rfl

/-- The permit pins the row where it is. -/
theorem reached (h : Opened r call proposal s d permit v u w) :
    w.shared.Reached permit.permitId := by
  obtain ⟨target, hresolve, hresource, hversion, -⟩ := h.fits.target
  have hpinned := pinnedVersion_of_resolved hresolve
  rw [hresource] at hpinned
  refine ⟨_, h.equipped.find?, target.version, ?_, ?_⟩
  · rw [h.equipped.issued]
    exact hpinned
  · rw [h.equipped.issued, hversion]
    exact le_rfl

/-- A row that was moved will not come back. -/
theorem settled (h : Opened r call proposal s d permit v u w) {db' : Database}
    (hinjected : Injected (w.own.session.due (str proposal.action)) w.shared db')
    (hmoved : db'.pinnedVersion d.resourceId proposal.action ≠
      some d.expectedResourceVersion) : db'.Settled permit.permitId := by
  have hissued := h.equipped.issued
  obtain ⟨row, hrow, version, hversion, hle⟩ := h.reached.aging hinjected.aging
  have hfind := h.equipped.find?
  rw [← hinjected.executionPermits] at hfind
  cases hfind.symm.trans hrow
  subst hissued
  refine Or.inr ⟨_, hrow, version, hversion, lt_of_le_of_ne hle ?_⟩
  rintro rfl
  exact hmoved hversion

end Opened

section Verdicts

variable {r : Runner} {spec : FailureSpec} {v v' : World}

/-- An answered execution of an allowed call, and its verdict. -/
theorem Opened.verdict {n : Nat} {orderId : String} {call : Call} {proposal : ActionProposal}
    {s : PolicySnapshot} {d : PolicyResult} {permit : ExecutionPermit} {u w t : World}
    {result : ExecutionResult} (h : Opened r call proposal s d permit v u w)
    (hu : Running r spec u) (hretried : Retried r permit.permitId proposal w t (.ok result))
    (hshared : v'.shared = t.shared) (hsession : v'.own.session = t.own.session)
    (hlast : v'.own.session.lastExecution = some (permit.permitId, proposal)) :
    Verdict r n orderId v v' call (r.conclude d n result) proposal.orderId := by
  have haudit := h.equipped.audited.trans hu.audited
  have hheld := h.equipped.held rfl hu.numbered
  rcases hretried.answered hheld h.fits haudit with
    hpresented | ⟨hloses, ⟨now, mid, hlanded⟩, ⟨hin, hcommitted⟩ | ⟨hlate, rfl⟩⟩
  · cases hpresented with
    | late late ticks =>
        refine .late proposal s d permit u w h (mt (h.inTime_iff 1).mp late) ?_ hlast
        have hidle := ticks.idle
        exact ⟨hshared.trans hidle.shared, by rw [hsession, hidle.readings],
          by rw [hsession, hidle.sequence], by rw [hsession, hidle.audited],
          by rw [hsession, hidle.due]⟩
    | beyond inTime beyond shared =>
        exact .beyond proposal s d permit u w h ((h.inTime_iff 1).mpr inTime) beyond
          (hshared.trans shared) hlast
    | overtaken inTime within action injected moved readings loses =>
        rw [← hshared] at injected moved
        have hinjected := Injected.of_injectAll injected
        refine .overtaken proposal s d permit u w h ((h.inTime_iff 1).mpr inTime) within
          ((h.overtaken_iff injected).mpr ⟨action, moved⟩) hinjected
          (SameKeys.of_injectAll injected) (h.settled hinjected moved) ?_ ?_ hlast
        · rw [hsession, readings, h.readings]
        · intro action'
          rw [hsession, loses, (h.due_eq action').2, h.start]
    | committed now mid res landed responded =>
        have honTime : ¬ call.Overtaken proposal d := fun hpast =>
          ((h.overtaken_iff landed.injected).mp hpast).2
            (landed.pinned hheld ((h.overtaken_iff landed.injected).mp hpast).1)
        rw [← hshared] at landed
        cases responded with
        | delivered kept =>
            rw [(h.due_eq _).2] at kept
            exact .completed proposal s d permit u w now mid h landed honTime
              (fun hloses => by simp [kept] at hloses) hlast
  all_goals
    -- the response was lost: whether the retry was in time decides between the two
    have honTime : ¬ call.Overtaken proposal d := fun hpast =>
      ((h.overtaken_iff hlanded.injected).mp hpast).2
        (hlanded.pinned hheld ((h.overtaken_iff hlanded.injected).mp hpast).1)
    rw [(h.due_eq _).2] at hloses
    rw [← hshared] at hlanded
  · have hcompleted : r.conclude d n result =
        { outcome := .completed, reasonCode := d.reasonCode } := by
      simp [Runner.conclude, hcommitted]
    rw [hcompleted]
    exact .completed proposal s d permit u w now mid h hlanded honTime
      (fun _ => (h.inTime_iff 5).mpr hin) hlast
  · exact .unconfirmed proposal s d permit u w now mid h hlanded honTime hloses
      (mt (h.inTime_iff 5).mp hlate) hlast

/-- **Every call that returns ends in one of the listed ways.** -/
theorem Tried.verdict {n : Nat} {orderId : String} {call : Call}
    {res : Except PyError (Attempt × String)} (h : Tried r n orderId v v' call res)
    {step : Attempt} {stepOrderId : String} (hres : res = .ok (step, stepOrderId))
    (hrun : Running r spec v) : Verdict r n orderId v v' call step stepOrderId := by
  cases h.attempted with
  | rejected reason invalid unjudged idle last =>
      cases hres
      exact .rejected reason invalid idle.shared last
  | unread proposal err => cases hres
  | unjudged proposal s err => cases hres
  | judged proposal s d w res valid reads evaluated judged idle last proceeded =>
      have hjudged : Judged r call proposal s d :=
        ⟨valid, judged, by rw [h.called.start]; exact reads, evaluated⟩
      have hw := hrun.quiet idle.carries idle.shared
      cases proceeded with
      | denied decision idle' last' =>
          cases hres
          exact .denied proposal s d hjudged decision (idle'.shared.trans idle.shared)
            (last'.trans last)
      | escalated decision u res idle' last' escalated =>
          cases res with
          | error err => cases hres
          | ok ticket =>
              cases hres
              have hu := hw.quiet idle'.carries idle'.shared
              refine .escalated proposal s d u hjudged decision (idle.trans idle') ?_
                (escalated.ticketed rfl hu) (last'.trans last)
              have haging := escalated.aging
              rwa [idle'.shared, idle.shared] at haging
      | unissued decision err => cases hres
      | executed decision u y t permit res idle' equipped presented steady retried shared
          session answer =>
          cases res with
          | error err => cases hres
          | ok result =>
              cases hres
              have hopened : Opened r call proposal s d permit v u y :=
                ⟨hjudged, decision, h.called.start, idle.trans idle', equipped⟩
              refine hopened.verdict (hw.quiet idle'.carries idle'.shared) retried shared session ?_
              rw [session, steady.lastExecution, presented]

end Verdicts

end BoundedRefund
