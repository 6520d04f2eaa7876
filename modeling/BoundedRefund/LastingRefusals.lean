import BoundedRefund.Phases
import BoundedRefund.Settled

/-!
# Refusals that last

Three of the executor's answers are final.  A permit that has expired is expired for every
later reading of the clock.  A row that has left the version a permit pins does not come back
to it.  And a row that is where the permit pins it, in a status that does not let the change
through, keeps that status as long as it keeps its version.

The setting is a history of calls (`Move`): permits are issued and presented by anyone, with
any session and any clock of their own, and others change rows in between.  All that is asked
of them is that who changes a row increments its version, and that no reading of a clock is
before an earlier one.  What can never be cleared from some moment on is `Barred` there; each
of the three answers bars its permit (`Executes.barred`), and a barred permit is presented in
vain (`Executes.of_barred`).
-/

namespace BoundedRefund

open Concurrent Relational

/-! ## Histories of calls -/

/-- The tables, and the latest reading of a clock. -/
structure Timed where
  db : Database
  now : Instant

/-- The readings of a call lie between two times. -/
structure Timely (clock : Clock) (own own' : Local) (t t' : Instant) : Prop where
  le : t ≤ t'
  reads : ∀ n, own.session.readings ≤ n → n < own'.session.readings →
    t ≤ clock n ∧ clock n ≤ t'

/-- A permit is asked for. -/
inductive Issues (issuer : PermitIssuer) (request : PermitRequest) (s s' : Timed)
    (res : Except PyError ExecutionPermit) : Prop
  | intro (own own' : Local)
      (ran : (issuer.issuePermit request).run ⟨s.db, own⟩ = (res, ⟨s'.db, own'⟩))
      (timely : Timely issuer.clock own own' s.now s'.now)

/-- A permit is presented, by an executor all of whose injected changes increment the version
of the row they change. -/
inductive Executes (e : Executor) (permitId : Option String) (proposal : ActionProposal)
    (texts : TicketTexts) (s s' : Timed) (res : Except PyError ExecutionResult) : Prop
  | intro (own own' : Local)
      (bumps : ∀ change ∈ own.session.due (str proposal.action), change.Bumps)
      (ran : (e.execute permitId proposal texts).run ⟨s.db, own⟩ = (res, ⟨s'.db, own'⟩))
      (timely : Timely e.clock own own' s.now s'.now)

/-- **One move of the history**: a call, or a change by others that increments the version of
every row it changes. -/
inductive Move (s s' : Timed) : Prop
  | issue (issuer : PermitIssuer) (request : PermitRequest)
      (res : Except PyError ExecutionPermit) (issues : Issues issuer request s s' res)
  | execute (e : Executor) (permitId : Option String) (proposal : ActionProposal)
      (texts : TicketTexts) (res : Except PyError ExecutionResult)
      (executes : Executes e permitId proposal texts s s' res)
  | change (later : Later s.db s'.db) (le : s.now ≤ s'.now)

/-- Any number of moves. -/
def Moves : Timed → Timed → Prop := Relation.ReflTransGen Move

section Moves

variable {issuer : PermitIssuer} {request : PermitRequest} {permit : ExecutionPermit}
variable {e : Executor} {permitId : Option String} {proposal : ActionProposal}
variable {texts : TicketTexts} {s s' : Timed} {res : Except PyError ExecutionResult}

/-- Injected changes that bump their versions are a step on. -/
theorem injectAll_later {due : List StateChange} {db db' : Database} {r : Except PyError Unit}
    (hbumps : ∀ change ∈ due, change.Bumps) (h : injectAll due db = (r, db')) :
    Later db db' := by
  induction due generalizing db with
  | nil =>
      rw [injectAll, Prod.mk.injEq] at h
      exact h.2 ▸ Later.refl db
  | cons change due ih =>
      obtain ⟨hchange, hdue⟩ := List.forall_mem_cons.mp hbumps
      rw [injectAll] at h
      cases hap : change.apply db with
      | error err =>
          simp only [hap, Prod.mk.injEq] at h
          exact h.2 ▸ Later.refl db
      | ok mid =>
          simp only [hap] at h
          exact (Later.inject hchange hap).trans (ih hdue h)

/-- So is the issue of a permit. -/
theorem Issues.later {res : Except PyError ExecutionPermit} (h : Issues issuer request s s' res) :
    Later s.db s'.db := by
  obtain ⟨own, own', ran, -⟩ := h
  obtain ⟨-, ⟨_, -, hshared, -⟩ | ⟨-, hinsert⟩⟩ := run_issuePermit ran
  · rw [show s'.db = s.db from hshared]
    exact Later.refl s.db
  · exact Later.insertPermit hinsert

/-- So is an execution. -/
theorem Executes.later (h : Executes e permitId proposal texts s s' res) :
    Later s.db s'.db := by
  obtain ⟨own, own', bumps, ran, -⟩ := h
  have unchanged : s'.db = s.db → Later s.db s'.db := fun hsame => hsame ▸ Later.refl s.db
  cases (run_execute ran).2 with
  | answered result shared => exact unchanged shared
  | failed err shared => exact unchanged shared
  | overtaken permit target now resourceId version loaded clear injected =>
      exact injectAll_later bumps injected
  | spoiled err permit target now r loaded clear injected => exact injectAll_later bumps injected
  | committed permit target now mid r loaded clear injected commits =>
      exact (injectAll_later bumps injected).trans (Later.commits commits)

/-- Every move is a step on, in time as well. -/
theorem Move.later (h : Move s s') : Later s.db s'.db ∧ s.now ≤ s'.now := by
  cases h with
  | issue issuer request res issues =>
      refine ⟨issues.later, ?_⟩
      obtain ⟨_, _, _, timely⟩ := issues
      exact timely.le
  | execute e permitId proposal texts res executes =>
      refine ⟨executes.later, ?_⟩
      obtain ⟨_, _, _, _, timely⟩ := executes
      exact timely.le
  | change later le => exact ⟨later, le⟩

/-- **Along a history** versions grow with every change, and time goes on. -/
theorem Moves.later (h : Moves s s') : Later s.db s'.db ∧ s.now ≤ s'.now := by
  induction h with
  | refl => exact ⟨Later.refl s.db, le_rfl⟩
  | tail _ move ih => exact ⟨ih.1.trans move.later.1, ih.2.trans move.later.2⟩

end Moves

/-! ## Permits that are never cleared again -/

/-- Whatever happens from now on, the permit is not cleared. -/
def Barred (s : Timed) (permitId : String) : Prop :=
  ∀ s' : Timed, Later s.db s'.db → s.now ≤ s'.now →
    ∀ permit, s'.db.loadPermit (some permitId) = some permit →
      ∀ now proposal target, s'.now ≤ now → ¬ Clear s'.db now permit proposal target

section Barred

variable {e : Executor} {permitId : String} {proposal : ActionProposal} {texts : TicketTexts}
variable {s s' : Timed} {res : Except PyError ExecutionResult}

/-- What is barred stays barred over any moves. -/
theorem Barred.moves (h : Barred s permitId) (hmoves : Moves s s') : Barred s' permitId :=
  fun s'' hlater hle => h s'' (hmoves.later.1.trans hlater) (hmoves.later.2.trans hle)

/-- A permit that is cleared has been checked against the clock. -/
theorem reads_of_clear {own own' : Local} {db db' : Database} {permit : ExecutionPermit}
    {target : Target}
    (hload : db.loadPermit (some permitId) = some permit)
    (hclear : Clear db (e.clock (own.session.readings + own.session.tick)) permit proposal
      target)
    (h : (e.execute (some permitId) proposal texts).run ⟨db, own⟩ = (res, ⟨db', own'⟩)) :
    own.session.readings + own.session.tick < own'.session.readings := by
  rw [Executor.execute_eq] at h
  obtain ⟨err, hc, -⟩ | ⟨checked, t, hc, h⟩ := Py.run_bind_cases h
  · obtain ⟨k, -, ⟨_, -, hcause | hcause⟩ | ⟨_, he, -⟩ | ⟨_, _, -, he, -⟩⟩ := run_check hc
    · cases hclear.resolved.symm.trans hcause
    · rw [hload, hclear.assess] at hcause
      cases hcause
    · cases he
    · cases he
  obtain ⟨k, hk, ⟨_, he, -⟩ | ⟨result, he, hassess, -⟩ | ⟨_, _, -, he, -, rfl⟩⟩ := run_check hc
  · cases he
  · rw [hload, hclear.assess] at hassess
    cases hassess
  · cases he
    have hsettled : Steady t ⟨db', own'⟩ := by
      obtain ⟨u, _, hlanding, -, ⟨_, -, -, rfl⟩ | ⟨_, -, hrespond⟩⟩ := run_settle_cleared h
      · exact hlanding.toSteady
      · exact hlanding.toSteady.trans (run_respond hrespond).1
    have hle := hsettled.readings_le
    rw [hk.readings] at hle
    dsimp only at hle
    omega

/-- **Presenting a barred permit is in vain**: nothing is written, and nothing is answered as a
fresh commit. -/
theorem Executes.of_barred (h : Executes e (some permitId) proposal texts s s' res)
    (hbarred : Barred s permitId) :
    s'.db = s.db ∧ ∀ result, res = .ok result → result.fresh = false := by
  obtain ⟨own, own', -, ran, timely⟩ := h
  have not_clear : ∀ {permit : ExecutionPermit} {target : Target},
      s.db.loadPermit (some permitId) = some permit →
      ¬ Clear s.db (e.clock (own.session.readings + own.session.tick)) permit proposal target := by
    intro permit target hload hclear
    have hread := timely.reads _ (Nat.le_add_right _ _) (reads_of_clear hload hclear ran)
    exact hbarred s (Later.refl s.db) le_rfl permit hload _ proposal target hread.1 hclear
  cases (run_execute ran).2 with
  | answered result shared assessed =>
      refine ⟨shared, fun result' heq => ?_⟩
      cases heq
      exact assess_not_fresh assessed
  | failed err shared => exact ⟨shared, fun _ heq => by cases heq⟩
  | overtaken permit target now resourceId version loaded clear =>
      exact absurd clear (not_clear loaded)
  | spoiled err permit target now r loaded clear => exact absurd clear (not_clear loaded)
  | committed permit target now mid r loaded clear => exact absurd clear (not_clear loaded)

/-! ## Answers that bar -/

/-- A row found again at the version it had is as it was. -/
theorem Addressed.target_eq {db db' : Database} {permit permit' : ExecutionPermit}
    {proposal proposal' : ActionProposal} {target target' : Target}
    (h : Addressed db permit proposal target) (h' : Addressed db' permit' proposal' target')
    (hlater : Later db db') (haction : permit'.action = permit.action)
    (hresource : permit'.resourceId = permit.resourceId)
    (hversion : target'.version = target.version) : target' = target := by
  have hactions : proposal'.action = proposal.action :=
    h'.action.symm.trans (haction.trans h.action)
  have hsame : target'.resourceId = target.resourceId := by
    rw [h'.resource, hresource, h.resource]
  obtain ⟨ha, p, hfetch, rfl⟩ | ⟨ha, o, hfetch, rfl⟩ :=
    Database.resolveTarget_eq_some.mp h.resolved
  · obtain ⟨-, p', hfetch', rfl⟩ | ⟨ha', -⟩ := Database.resolveTarget_eq_some.mp h'.resolved
    · obtain ⟨row, hrow, hadvances⟩ :=
        hlater.payments _ _ (Database.fetchPaymentForOrder_eq_some hfetch).1
      have hrow' := (Database.fetchPaymentForOrder_eq_some hfetch').1
      rw [show p'.paymentId = p.paymentId from hsame, hrow] at hrow'
      cases hrow'
      -- a row that has not bumped its version has not moved at all
      have heq : p'.row = p.row := hadvances.eq_of_version_eq hversion
      have hstatus : str p'.status = str p.status := congrArg PaymentRow.status heq
      rw [Target.mk.injEq]
      exact ⟨hsame, hversion, hstatus⟩
    · exact absurd (hactions.trans ha) ha'
  · obtain ⟨ha', -⟩ | ⟨-, o', hfetch', rfl⟩ := Database.resolveTarget_eq_some.mp h'.resolved
    · exact absurd (hactions.symm.trans ha') ha
    · have hfind := Database.fetchOrder_eq_some.mp hfetch
      rw [← Database.fetchOrder_orderId hfetch] at hfind
      obtain ⟨row, hrow, hadvances⟩ := hlater.orders _ _ hfind
      have hrow' := Database.fetchOrder_eq_some.mp hfetch'
      rw [← Database.fetchOrder_orderId hfetch',
        show o'.orderId = o.orderId from hsame, hrow] at hrow'
      cases hrow'
      have heq : o'.row = o.row := hadvances.eq_of_version_eq hversion
      have hstatus : str o'.status = str o.status := congrArg OrderRow.status heq
      rw [Target.mk.injEq]
      exact ⟨hsame, hversion, hstatus⟩

/-- What is not up to the one who presents a permit stays as it was issued. -/
theorem Later.loadPermit {db db' : Database} (hlater : Later db db')
    {permit permit' : ExecutionPermit}
    (hload : db.loadPermit (some permitId) = some permit)
    (hload' : db'.loadPermit (some permitId) = some permit') :
    permit'.action = permit.action ∧ permit'.resourceId = permit.resourceId ∧
      permit'.expectedResourceVersion = permit.expectedResourceVersion ∧
      permit'.expiresAt = permit.expiresAt := by
  obtain ⟨hid, -, row, hfind, rfl⟩ := Database.loadPermit_eq_some hload
  obtain ⟨hid', -, row', hfind', rfl⟩ := Database.loadPermit_eq_some hload'
  cases hid
  rw [← Option.some.inj hid'] at hfind'
  obtain ⟨row'', hrow, hkept⟩ := hlater.permits _ _ hfind
  cases hfind'.symm.trans hrow
  rcases hkept with rfl | rfl <;> exact ⟨rfl, rfl, rfl, rfl⟩

/-- A permit that has expired stays expired. -/
theorem barred_of_expired {permit : ExecutionPermit} {expiresAt : Instant}
    (hload : s.db.loadPermit (some permitId) = some permit)
    (hparse : parseIso permit.expiresAt = .ok expiresAt) (hlate : expiresAt < s.now) :
    Barred s permitId := by
  intro s' hlater hle permit' hload' now proposal target hnow hclear
  obtain ⟨expiresAt', hparse', hunexpired⟩ := hclear.unexpired
  rw [(hlater.loadPermit hload hload').2.2.2, hparse] at hparse'
  cases hparse'
  exact absurd hunexpired (not_le.mpr (hlate.trans_le (hle.trans hnow)))

/-- A row whose status bars the change where the permit pins it, bars it there for ever. -/
theorem barred_of_transition {permit : ExecutionPermit} {target : Target}
    (hload : s.db.loadPermit (some permitId) = some permit)
    (haddressed : Addressed s.db permit proposal target)
    (hversion : target.version = permit.expectedResourceVersion)
    (hbarred : transitionAllowed proposal target = .ok false) : Barred s permitId := by
  intro s' hlater _ permit' hload' now proposal' target' _ hclear
  obtain ⟨haction, hresource, hexpected, -⟩ := hlater.loadPermit hload hload'
  have haddressed' : Addressed s'.db permit' proposal' target' :=
    ⟨hclear.action, hclear.resolved, hclear.resource⟩
  have htarget := haddressed.target_eq haddressed' hlater haction hresource
    (hclear.version.trans (hexpected.trans hversion.symm))
  -- the transition depends on the action and the status only
  have hactions : proposal'.action = proposal.action :=
    hclear.action.symm.trans (haction.trans haddressed.action)
  have hallowed := hclear.transition
  rw [htarget] at hallowed
  unfold transitionAllowed at hbarred hallowed
  rw [hactions, hbarred] at hallowed
  cases hallowed

/-- **The answers that are final**: who is told that a permit has expired, that the row is at
another version, or that its status does not let the change through, can spare any further
attempt. -/
theorem Executes.barred {result : ExecutionResult} {reason : ReasonCode}
    (h : Executes e (some permitId) proposal texts s s' (.ok result))
    (hreached : s.db.Reached permitId) (hreason : result.reasonCode = some reason)
    (hfinal : reason = .permitExpired ∨ reason = .staleResourceVersion ∨
      reason = .transitionNotAllowed) : Barred s' permitId := by
  obtain ⟨own, own', -, ran, timely⟩ := h
  have hexecuted := (run_execute ran).2
  by_cases hstale : reason = .staleResourceVersion
  · have hsettled := hexecuted.settled_of_stale hreached (by rw [hreason, hstale])
    exact fun s'' hlater _ permit hload now proposal target _ =>
      (hsettled.aging hlater.aging).not_clear hload
  generalize hres : (Except.ok result : Except PyError ExecutionResult) = res at hexecuted
  cases hexecuted with
  | failed err shared => cases hres
  | spoiled err => cases hres
  | overtaken permit target now resourceId version =>
      cases hres
      cases hreason
      exact absurd rfl hstale
  | committed permit target now mid r loaded clear injected commits responded =>
      subst hres
      cases responded with
      | delivered => cases hreason
  | answered result' shared assessed k ticks expired =>
      cases hres
      have hsame : s'.db = s.db := shared
      cases hload : s.db.loadPermit (some permitId) with
      | none =>
          rw [hload] at assessed
          cases assessed
          cases hreason
          simp at hfinal
      | some permit =>
          rw [hload] at assessed
          rcases assess_refusal assessed with ⟨reason', rfl, hrefusal⟩ | hstored
          · cases hreason
            cases hrefusal with
            | expired expiresAt parsed late =>
                -- the reading that was too late is one the clock has gone past
                have hread : own.session.readings + own.session.tick < own'.session.readings := by
                  have hreadings := ticks.readings
                  rw [expired rfl] at hreadings
                  dsimp only at hreadings
                  omega
                have hnow := (timely.reads _ (Nat.le_add_right _ _) hread).2
                exact barred_of_expired (hsame ▸ hload) parsed (late.trans_le hnow)
            | transition target addressed version barred =>
                rw [← hsame] at hload addressed
                exact barred_of_transition hload addressed version barred
            | stale => exact absurd rfl hstale
            | _ => simp at hfinal
          · obtain ⟨row, -, rfl⟩ := storedResult_eq_some hstored
            cases hreason
            simp at hfinal

end Barred

/-! ## A refused permit stays refused -/

/-- A permit that was issued for a row it does not run ahead of. -/
theorem Issues.reached {issuer : PermitIssuer} {request : PermitRequest}
    {permit : ExecutionPermit} {s s' : Timed} (h : Issues issuer request s s' (.ok permit))
    {version : Int}
    (hversion : s.db.pinnedVersion request.resourceId request.action = some version)
    (hle : request.expectedResourceVersion ≤ version) : s'.db.Reached permit.permitId := by
  obtain ⟨own, own', ran, -⟩ := h
  obtain ⟨-, ⟨_, he, -⟩ | ⟨he, hinsert⟩⟩ := run_issuePermit ran
  · cases he
  · cases he
    obtain ⟨permits, hpermits, heq⟩ := Database.insertPermit_eq_ok.mp hinsert
    have heq : s'.db = { s.db with executionPermits := permits } := heq
    refine ⟨_, by rw [heq]; exact (Table.find?_insert? hpermits _).trans (if_pos rfl), version, ?_,
      hle⟩
    rw [heq]
    exact hversion

/-- **A refused permit stays refused.**  A permit is issued for a row that has reached the
version it expects, and after any moves it is presented and refused: as expired, as stale, or
for a transition that is not allowed.  Then, after any further moves, whoever presents it
again, with whatever proposal: nothing is written, and nothing is answered as a fresh
commit. -/
theorem refused_stays_refused {issuer : PermitIssuer} {request : PermitRequest}
    {permit : ExecutionPermit} {s₀ s₁ s₂ s₃ s₄ s₅ : Timed} {version : Int} {e e' : Executor}
    {proposal proposal' : ActionProposal} {texts texts' : TicketTexts} {result : ExecutionResult}
    {reason : ReasonCode} {res : Except PyError ExecutionResult}
    (hissued : Issues issuer request s₀ s₁ (.ok permit))
    (hversion : s₀.db.pinnedVersion request.resourceId request.action = some version)
    (hle : request.expectedResourceVersion ≤ version) (hmoves : Moves s₁ s₂)
    (hpresented : Executes e (some permit.permitId) proposal texts s₂ s₃ (.ok result))
    (hreason : result.reasonCode = some reason)
    (hrefused : reason = .permitExpired ∨ reason = .staleResourceVersion ∨
      reason = .transitionNotAllowed)
    (hmoves' : Moves s₃ s₄)
    (hagain : Executes e' (some permit.permitId) proposal' texts' s₄ s₅ res) :
    s₅.db = s₄.db ∧ ∀ result, res = .ok result → result.fresh = false := by
  have hreached := (hissued.reached hversion hle).aging hmoves.later.1.aging
  exact hagain.of_barred ((hpresented.barred hreached hreason hrefused).moves hmoves')

/-! ## A cancellation at the desk -/

/-- The issuer of the same desk. -/
def deskIssuer : PermitIssuer where
  clock := deskExecutor.clock
  runId := "run_desk"

/-- A permit to cancel its order. -/
def deskRequest : PermitRequest where
  action := .cancelOrder
  resourceId := "ord_0001"
  expectedResourceVersion := 1

/-- A permit to cancel the first order is issued. -/
def deskIssued : Except PyError ExecutionPermit × World :=
  (deskIssuer.issuePermit deskRequest).run
    ⟨seedWorld [("ord_0001", .paid)], (deskWorld cancelFirst "ord_0001").own⟩

/-- The order moves. -/
def deskOvertaken : Database := (injectAll [moves "order" "ord_0001"] deskIssued.2.shared).2

/-- The permit is presented. -/
def deskAttempt (db : Database) : Except PyError ExecutionResult × World :=
  (deskExecutor.execute (some "prm_run_desk_001") cancelFirst).run ⟨db, deskIssued.2.own⟩

/-- A moment at the desk, where the clock stands still. -/
def atDesk (db : Database) : Timed := ⟨db, defaultClockBase⟩

/-- The desk has its time from its clock. -/
theorem timely_desk (own own' : Local) (db db' : Database) :
    Timely deskExecutor.clock own own' (atDesk db).now (atDesk db').now :=
  ⟨le_rfl, fun _ _ _ => ⟨le_rfl, le_rfl⟩⟩

/-- An attempt at the desk is an execution. -/
theorem executes_desk {db : Database} {res : Except PyError ExecutionResult}
    (hres : (deskAttempt db).1 = res) :
    Executes deskExecutor (some (deskPermit cancelFirst "ord_0001").permitId) cancelFirst {}
      (atDesk db) (atDesk (deskAttempt db).2.shared) res := by
  have hdue : deskIssued.2.own.session.due (str cancelFirst.action) = [] := by decide +kernel
  refine .intro deskIssued.2.own (deskAttempt db).2.own ?_ (Prod.ext hres rfl)
    (timely_desk _ _ _ _)
  rw [hdue]
  exact fun change h => by cases h

/-- A cancel that was overtaken is refused, and again. -/
theorem refused_stays_refused_desk :
    (deskAttempt deskOvertaken).1 = .ok (rejected .staleResourceVersion "ord_0001") ∧
    (deskAttempt (deskAttempt deskOvertaken).2.shared).2.shared =
      (deskAttempt deskOvertaken).2.shared := by
  have hrefused : (deskAttempt deskOvertaken).1 =
      .ok (rejected .staleResourceVersion "ord_0001") := by decide +kernel
  have hissued : Issues deskIssuer deskRequest (atDesk (seedWorld [("ord_0001", .paid)]))
      (atDesk deskIssued.2.shared) (.ok (deskPermit cancelFirst "ord_0001")) :=
    .intro (deskWorld cancelFirst "ord_0001").own deskIssued.2.own
      (Prod.ext (show deskIssued.1 = _ by decide +kernel) rfl) (timely_desk _ _ _ _)
  have hinject : injectAll [moves "order" "ord_0001"] deskIssued.2.shared =
      ((injectAll [moves "order" "ord_0001"] deskIssued.2.shared).1, deskOvertaken) := rfl
  have hlater := injectAll_later (by simp [StateChange.Bumps, moves]) hinject
  have hmoved : Moves (atDesk deskIssued.2.shared) (atDesk deskOvertaken) :=
    .single (.change hlater le_rfl)
  exact ⟨hrefused, (refused_stays_refused hissued (by decide +kernel) (le_refl 1) hmoved
    (executes_desk hrefused) rfl (.inr (.inl rfl)) .refl (executes_desk rfl)).1⟩

end BoundedRefund
