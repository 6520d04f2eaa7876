import BoundedRefund.Concurrent.Transitions
import BoundedRefund.Duplicates

/-!
# The statements that log

Few statements of a run touch the mutation log.  All the rest is inert: the reads, the events,
the checks, the changes of the scenario, the report.  A statement that does add a row is the
commit of an execution that was cleared (`execute_logs`), so it can be looked for from the outside
in, along the stages of an attempt (`attempt_logs`), and what it finds in the database is what the
changes have left.
-/

namespace BoundedRefund

open Concurrent Relational

/-- The mutation log of the database. -/
def World.log (v : World) : List MutationRow := v.shared.mutationLog

/-! ## What does not log -/

namespace Py

variable {α : Type}

theorem inert_query (f : Database → Except PyError α) : (Py.query f).Inert World.log :=
  Prog.Inert.read _

theorem inert_own (f : Session → α) : (Py.own f).Inert World.log := Prog.Inert.read _

theorem inert_raising (r : Except PyError α) : (Py.raising r).Inert World.log :=
  Prog.Inert.ofExcept r

theorem inert_update (f : Session → α × Session) : (Py.update f).Inert World.log :=
  Prog.Inert.atomically fun _ => rfl

theorem inert_touch (f : Session → Session) : (Py.touch f).Inert World.log := inert_update _

theorem inert_now (clock : Clock) : (Py.now clock).Inert World.log := inert_update _

theorem inert_emit (clock : Clock) (fields : EventFields) :
    (Py.emit clock fields).Inert World.log :=
  inert_touch fun s => s.emit clock fields

theorem inert_record (tool : String) (arguments : List (String × PlainValue)) :
    (Py.record tool arguments).Inert World.log :=
  inert_touch fun s => s.record tool arguments

theorem inert_propose (n : Nat) : (Py.propose n).Inert World.log :=
  Prog.Inert.atomically fun _ => rfl

theorem inert_callLearns (f : Call → Call) : (Py.callLearns f).Inert World.log :=
  Prog.Inert.modify fun _ => rfl

/-- A transaction that leaves the log alone. -/
theorem inert_transaction {t : Database → Except PyError (α × Database)}
    (h : ∀ db a db', t db = .ok (a, db') → db'.mutationLog = db.mutationLog) :
    (Py.transaction t).Inert World.log := by
  refine Prog.Inert.atomically fun v => ?_
  cases ht : t v.shared with
  | error err => rfl
  | ok out => exact h v.shared out.1 out.2 ht

/-- Injected changes write no log row. -/
theorem inert_applyPreCommit (action : String) : (Py.applyPreCommit action).Inert World.log := by
  refine .bind (inert_update _) fun changes => ?_
  induction changes with
  | nil => exact .ret ()
  | cons change changes ih =>
      refine .bind (inert_transaction fun db _ db' h => ?_) fun _ => ih
      cases hap : change.apply db with
      | error err => simp [hap, Except.map] at h
      | ok mid =>
          simp only [hap, Except.map, Except.ok.injEq, Prod.mk.injEq, true_and] at h
          subst h
          obtain ⟨-, -, rfl⟩ | ⟨resource, -, -, rfl⟩ := StateChange.apply_eq_ok hap
          · rfl
          · cases resource <;> rfl

end Py

section Inert

variable {α : Type} {r : Runner} {e : Executor} {proposal : ActionProposal} {texts : TicketTexts}

/-- Permits are not logged. -/
theorem inert_issuePermit (issuer : PermitIssuer) (request : PermitRequest) :
    (issuer.issuePermit request).Inert World.log := by
  refine .bind (Py.inert_update _) fun sequence => .bind (Py.inert_now _) fun now => ?_
  refine Py.inert_transaction fun db _ db' h => ?_
  cases hins : db.insertPermit
      ((issuer.permitAt request sequence now).row now issuer.runId) with
  | error err => simp [hins, Except.map] at h
  | ok mid =>
      simp only [hins, Except.map, Except.ok.injEq, Prod.mk.injEq] at h
      obtain ⟨-, rfl⟩ := h
      obtain ⟨permits, -, rfl⟩ := Database.insertPermit_eq_ok.mp hins
      rfl

/-- Nor are events. -/
theorem inert_executor_emit (eventType : EventType) (permit : Option ExecutionPermit)
    (result : Option ExecutionResult) (extra : List (String × PlainValue)) :
    (e.emit eventType proposal permit result extra).Inert World.log := by
  refine .bind (Py.inert_own _) fun audited => ?_
  split_ifs
  · exact .bind (Py.inert_query _) fun target => Py.inert_emit _ _
  · exact .ret _

/-- The check phase. -/
theorem inert_check (permitId : Option String) : (e.check permitId proposal).Inert World.log := by
  refine .bind (Py.inert_query _) fun permit => .bind (inert_executor_emit _ _ _ _) fun _ => ?_
  cases permit with
  | none => exact .ret _
  | some permit =>
      unfold Executor.checks
      dsimp only
      split_ifs with haction
      · exact .ret _
      refine .bind (Py.inert_query _) fun target => ?_
      cases target with
      | none => exact .ret _
      | some target =>
          dsimp only
          split_ifs with hresource
          · exact .ret _
          refine .bind (Py.inert_now _) fun now => .bind (Py.inert_raising _) fun expiresAt => ?_
          split_ifs with hexpired
          · exact .ret _
          refine .bind (Py.inert_query _) fun stored => .bind (Py.inert_raising _) fun answer => ?_
          cases answer <;> exact .ret _

/-- Nor are answers. -/
theorem inert_respond (permit : Option ExecutionPermit) (result : ExecutionResult) :
    (e.respond proposal permit result).Inert World.log := by
  unfold Executor.respond
  split_ifs
  · refine .bind (inert_executor_emit _ _ _ _) fun _ => .bind (Py.inert_update _) fun lost => ?_
    split_ifs
    · cases permit <;> exact .fail _
    · exact .ret _
  · exact .bind (inert_executor_emit _ _ _ _) fun _ => .ret _
  · exact .bind (inert_executor_emit _ _ _ _) fun _ => .ret _

theorem inert_readCall (tool : String) (arguments : List (String × PlainValue))
    (fetch : Database → Except PyError α) (made left : Nat) :
    (ReadTools.call tool arguments fetch made left).Inert World.log := by
  induction left generalizing made with
  | zero => exact .fail _
  | succ left ih =>
      refine .bind (Py.inert_record _ _) fun _ => .bind (Py.inert_update _) fun fails => ?_
      split_ifs
      · exact ih (made + 1)
      · exact Py.inert_query fetch

theorem inert_recovering {read : Py (Option α)} (h : read.Inert World.log) :
    (ReadTools.recovering read).Inert World.log := by
  refine .tryCatch (.bind h fun _ => .ret _) fun err => ?_
  cases err with
  | readUnavailable tool attempts => exact .ret _
  | _ => exact .fail _

theorem inert_optional {read : Py (Option α)} (needed : Bool) (h : read.Inert World.log) :
    (ReadTools.optional needed read).Inert World.log := by
  unfold ReadTools.optional
  split_ifs
  · exact inert_recovering h
  · exact .ret _

/-- Nor are reads. -/
theorem inert_snapshot (proposal : ActionProposal) :
    (r.snapshot proposal).Inert World.log := by
  refine .bind (inert_recovering (inert_readCall _ _ _ _ _)) fun order => ?_
  refine .bind (inert_optional _ (inert_readCall _ _ _ _ _)) fun payment => ?_
  refine .bind (inert_optional _ (inert_readCall _ _ _ _ _)) fun shipment => ?_
  refine .bind ?_ fun refundPolicy => .bind (Py.inert_now _) fun now => .ret _
  unfold ReadTools.policyOf
  split
  · exact .ret _
  · exact inert_optional _ (inert_readCall _ _ _ _ _)

/-- Verification and report. -/
theorem inert_finish (planned : Planned) : (r.finish planned).Inert World.log := by
  have hverify : (r.verify planned.orderId).Inert World.log :=
    .bind (Py.inert_query _) fun order => .bind (Py.inert_query _) fun payment =>
      .bind (Py.inert_query _) fun shipment => .bind (Py.inert_query _) fun refunded =>
        .bind (Py.inert_emit _ _) fun _ => .ret _
  refine .bind hverify fun finalState => .bind ?_ fun report =>
    .bind (Py.inert_emit _ _) fun _ => .ret _
  exact .bind (Py.inert_query _) fun rows => .bind (Py.inert_query _) fun refunds =>
    .bind (Py.inert_query _) fun tickets => .bind (Py.inert_own _) fun toolCalls =>
      .bind (Py.inert_own _) fun recovered => .bind (Py.inert_own _) fun notes => .ret _

end Inert

/-! ## What does -/

section Logs

variable {r : Runner} {e : Executor} {permit : ExecutionPermit} {proposal : ActionProposal}
variable {texts : TicketTexts} {v : World} {a : World × World}

/-- The one transaction of the commit. -/
theorem commit_logs (ha : a ∈ (e.commit permit proposal texts).transitions v)
    (hlog : a.2.log ≠ a.1.log) : a.1.shared = v.shared ∧
      ∃ now, (e.execution permit proposal texts now).Commits a.1.shared a.2.shared := by
  obtain ⟨auth, t, hauth, -, ha⟩ := (Py.inert_raising _).later ha hlog
  obtain ⟨hmint, rfl⟩ := Prod.mk.inj ((Py.run_raising v _).symm.trans hauth)
  simp only [WriteAuthorization.mint, if_true, Except.ok.injEq] at hmint
  subst hmint
  obtain ⟨now, t, hnow, -, ha⟩ := (Py.inert_now _).later ha hlog
  obtain ⟨-, rfl⟩ := Prod.mk.inj ((Py.run_update v _).symm.trans hnow)
  obtain ⟨-, ha⟩ := (Py.inert_record _ _).behind (Py.run_touch _ _) ha hlog
  rcases Prog.mem_transitions_tryCatch.mp ha with ha | ⟨err, t, -, ha⟩
  · rw [Py.transaction, Prog.transitions_atomically, List.mem_singleton] at ha
    subst ha
    refine ⟨rfl, now, ?_⟩
    dsimp only at hlog ⊢
    cases hc : e.commitAll (e.authorization permit) permit proposal texts now v.shared with
    | error err => simp [hc] at hlog
    | ok out => exact (commitAll_eq_ok.mp hc).2
  · cases err <;> cases ha

/-- **A statement of an execution that logs** is its commit: the permit was cleared, and the
database is where the changes have left it. -/
theorem execute_logs {permitId : Option String}
    (ha : a ∈ (e.execute permitId proposal texts).transitions v) (hlog : a.2.log ≠ a.1.log) :
    ∃ permit target now, v.shared.loadPermit permitId = some permit ∧
      Clear v.shared (e.clock (v.own.session.readings + v.own.session.tick)) permit proposal
        target ∧
      injectAll (v.own.session.due (str proposal.action)) v.shared = (.ok (), a.1.shared) ∧
      (e.execution permit proposal texts now).Commits a.1.shared a.2.shared := by
  rw [Executor.execute_eq] at ha
  obtain ⟨checked, t, hcheck, -, ha⟩ := (inert_check _).later ha hlog
  obtain ⟨k, hticks, ⟨_, he, -⟩ | ⟨result, he, -⟩ | ⟨permit, target, hload, he, hclear, -⟩⟩ :=
    run_check hcheck
  · cases he
  · cases he
    exact absurd (inert_respond _ result t a ha) hlog
  · cases he
    rw [Executor.settle_cleared] at ha
    have ha := Prog.Inert.earlier (inert_respond (some permit)) ha hlog
    obtain ⟨_, u, hinject, -, ha⟩ := (Py.inert_applyPreCommit _).later ha hlog
    obtain ⟨hshared, now, hcommits⟩ := commit_logs ha hlog
    refine ⟨permit, target, now, hload, hclear, ?_, hcommits⟩
    rw [hshared, ← (run_applyPreCommit hinject).2, hticks.shared, (due_congr hticks.due _).1]

end Logs

/-! ## Behind the first statement -/

namespace Py

variable {α β : Type} {k : α → Py β} {v : World} {a : World × World}

/-- A row that is written is written behind the look. -/
theorem query_later {f : Database → Except PyError α} (ha : a ∈ (Py.query f >>= k).transitions v)
    (hlog : a.2.log ≠ a.1.log) : ∃ b, f v.shared = .ok b ∧
      (Py.query f >>= k).run v = (k b).run v ∧ a ∈ (k b).transitions v := by
  obtain ⟨b, t, hquery, hrun, ha⟩ := (inert_query f).later ha hlog
  obtain ⟨hb, rfl⟩ := Prod.mk.inj ((run_query v f).symm.trans hquery)
  exact ⟨b, hb, hrun, ha⟩

/-- It is written behind a look at the session. -/
theorem own_later {f : Session → α} (ha : a ∈ (Py.own f >>= k).transitions v)
    (hlog : a.2.log ≠ a.1.log) : (Py.own f >>= k).run v = (k (f v.own.session)).run v ∧
      a ∈ (k (f v.own.session)).transitions v :=
  (inert_own f).behind (run_own v f) ha hlog

/-- It is written behind what does not raise. -/
theorem raising_later {e : Except PyError α} (ha : a ∈ (Py.raising e >>= k).transitions v)
    (hlog : a.2.log ≠ a.1.log) : ∃ b, e = .ok b ∧
      (Py.raising e >>= k).run v = (k b).run v ∧ a ∈ (k b).transitions v := by
  obtain ⟨b, t, hraising, hrun, ha⟩ := (inert_raising e).later ha hlog
  obtain ⟨hb, rfl⟩ := Prod.mk.inj ((run_raising v e).symm.trans hraising)
  exact ⟨b, hb, hrun, ha⟩

/-- It is written behind a change of the session. -/
theorem touch_later {f : Session → Session} {k : Unit → Py β}
    (ha : a ∈ (Py.touch f >>= k).transitions v) (hlog : a.2.log ≠ a.1.log) :
    (Py.touch f >>= k).run v =
        (k ()).run ⟨v.shared, { v.own with session := f v.own.session }⟩ ∧
      a ∈ (k ()).transitions ⟨v.shared, { v.own with session := f v.own.session }⟩ :=
  (inert_touch f).behind (run_touch v f) ha hlog

/-- It is written behind what a call learns. -/
theorem callLearns_later {f : Call → Call} {k : Unit → Py β}
    (ha : a ∈ (Py.callLearns f >>= k).transitions v) (hlog : a.2.log ≠ a.1.log) :
    (Py.callLearns f >>= k).run v =
        (k ()).run ⟨v.shared, { v.own with history := v.own.history.modifyHead f }⟩ ∧
      a ∈ (k ()).transitions ⟨v.shared, { v.own with history := v.own.history.modifyHead f }⟩ :=
  (inert_callLearns f).behind (Prog.run_modify _ v) ha hlog

/-- It is written behind the proposal. -/
theorem propose_later {n : Nat} {k : RawProposal → Py β}
    (ha : a ∈ (Py.propose n >>= k).transitions v) (hlog : a.2.log ≠ a.1.log) :
    (Py.propose n >>= k).run v = (k v.own.session.planner.propose.1).run (v.proposed n) ∧
      a ∈ (k v.own.session.planner.propose.1).transitions (v.proposed n) :=
  (inert_propose n).behind (Prog.run_atomically _ v) ha hlog

/-- An event of an audited run. -/
theorem emit_later {clock : Clock} {fields : EventFields} {k : Unit → Py β}
    (haudit : v.own.session.audit.isSome = true)
    (ha : a ∈ (Py.emit clock fields >>= k).transitions v) (hlog : a.2.log ≠ a.1.log) :
    ∃ t, Ticks 1 v t ∧ (∀ {γ : Type} (l : Unit → Py γ),
        (Py.emit clock fields >>= l).run v = (l ()).run t) ∧ a ∈ (k ()).transitions t := by
  obtain ⟨_, t, hemit, -, ha⟩ := (inert_emit clock fields).later ha hlog
  refine ⟨t, Session.tick_of_audited haudit ▸ (run_emit clock fields hemit).2, fun l => ?_, ha⟩
  rw [Prog.bind_def, Prog.run_bind, hemit]

end Py

/-! ## Stage by stage -/

/-- The statement writes the ticket of an escalation that was entered in `v`. -/
inductive WritesTicket (r : Runner) (orderId : String) (reason : ReasonCode) (detail : String)
    (v : World) (a : World × World) : Prop
  | intro (order : Order) (ticket : ActionProposal) (permit : ExecutionPermit) (w : World)
      (now : Instant) (found : v.shared.fetchOrder orderId = .ok (some order))
      (proposed : Runner.ticketProposal order reason detail = .ok ticket)
      (equipped : Equipped r (ticketRequest order) permit v w)
      (landed : Landed r (ticketRequest order) permit ticket
        { reasonCode := str reason, summary := ticket.reason } v.own.session.readings w now
        a.1.shared a.2.shared)

/-- The statement writes what a call is about that was made in `v`. -/
inductive Writes (r : Runner) (v : World) (call : Call) (a : World × World) : Prop
  | ticket (proposal : ActionProposal) (s : PolicySnapshot) (d : PolicyResult) (w : World)
      (judged : Judged r call proposal s d) (decision : d.decision = .escalate)
      (start : call.start = ⟨v.shared, v.own.session⟩) (idle : Idle 4 v w)
      (written : WritesTicket r proposal.orderId d.reasonCode d.detail w a)
  | allowed (proposal : ActionProposal) (s : PolicySnapshot) (d : PolicyResult)
      (permit : ExecutionPermit) (u w : World) (now : Instant)
      (opened : Opened r call proposal s d permit v u w)
      (landed : Landed r (allowedRequest proposal d) permit proposal {} u.own.session.readings w
        now a.1.shared a.2.shared)

section Stages

variable {r : Runner} {spec : FailureSpec} {v w : World} {a : World × World}
variable {request : PermitRequest} {permit : ExecutionPermit} {proposal : ActionProposal}
variable {texts : TicketTexts} {n : Nat}

/-- The first execution of a permit logs what went through. -/
theorem execute_lands
    (ha : a ∈ (r.executor.execute (some permit.permitId) proposal texts).transitions w)
    (hlog : a.2.log ≠ a.1.log) (hheld : Held r request permit n w)
    (hfit : Fits w.shared request proposal) (haudit : w.own.session.audit.isSome = true) :
    ∃ now, Landed r request permit proposal texts n w now a.1.shared a.2.shared := by
  obtain ⟨loaded, target, now, hload, hclear, hinjected, hcommits⟩ := execute_logs ha hlog
  cases hheld.loaded.symm.trans hload
  rw [Session.tick_of_audited haudit] at hclear
  obtain ⟨hin, hwithin⟩ := hfit.cleared hheld hclear
  exact ⟨now, hin, hwithin, hinjected, hcommits⟩

/-- The retry logs nothing: its permit is spent. -/
theorem executeWithRetry_lands
    (ha : a ∈ (r.executeWithRetry permit.permitId proposal).transitions w)
    (hlog : a.2.log ≠ a.1.log) (hheld : Held r request permit n w)
    (hfit : Fits w.shared request proposal) (haudit : w.own.session.audit.isSome = true) :
    ∃ now, Landed r request permit proposal {} n w now a.1.shared a.2.shared := by
  rcases Prog.mem_transitions_tryCatch.mp ha with ha | ⟨err, t, hexec, ha⟩
  · exact execute_lands ha hlog hheld hfit haudit
  · cases err with
    | responseTimeout tool key =>
        exfalso
        obtain ⟨-, -, now, mid, hlanded⟩ :=
          ((run_execute hexec).2.presented hheld hfit haudit).lost haudit
        obtain ⟨-, ha⟩ := Py.touch_later ha hlog
        obtain ⟨loaded, target, now', hload, hclear, -⟩ := execute_logs ha hlog
        exact Database.Settled.not_clear (.inl (hlanded.stored hheld)) hload hclear
    | _ => cases ha

/-- The row of a hand-over is its ticket. -/
theorem escalate_logs {orderId detail : String} {reason : ReasonCode} (hrun : Running r spec v)
    (ha : a ∈ (r.escalate orderId reason detail).transitions v) (hlog : a.2.log ≠ a.1.log) :
    WritesTicket r orderId reason detail v a := by
  obtain ⟨order, hfound, -, ha⟩ := Py.query_later ha hlog
  cases order with
  | none =>
      obtain ⟨-, ha⟩ := Py.touch_later ha hlog
      cases ha
  | some order =>
      obtain ⟨ticket, hproposed, -, ha⟩ := Py.raising_later ha hlog
      obtain ⟨permit, t, hissue, -, ha⟩ := (inert_issuePermit _ _).later ha hlog
      obtain ⟨hown, ⟨_, he, -⟩ | ⟨he, hinserted⟩⟩ := run_issuePermit hissue
      · cases he
      cases he
      obtain ⟨w, hticks, -, ha⟩ := Py.emit_later (by rw [hown]; exact hrun.audited) ha hlog
      have hequipped := Equipped.of_issued hown hinserted hticks.idle
      have ha := Prog.Inert.earlier (fun _ => .ret _) ha hlog
      obtain ⟨now, hlanded⟩ := execute_lands ha hlog (hequipped.held rfl hrun.numbered)
        (hequipped.fits (Fits.ticket hfound hproposed)) (hequipped.audited.trans hrun.audited)
      exact ⟨order, ticket, _, w, now, hfound, hproposed, hequipped, hlanded⟩

/-- The row of an allowed proposal is written under its permit. -/
theorem executeAllowed_logs {d : PolicyResult} {attempt : Nat} (hrun : Running r spec v)
    (hfit : Fits v.shared (allowedRequest proposal d) proposal)
    (ha : a ∈ (r.executeAllowed proposal d attempt).transitions v) (hlog : a.2.log ≠ a.1.log) :
    ∃ permit w now, Equipped r (allowedRequest proposal d) permit v w ∧
      Landed r (allowedRequest proposal d) permit proposal {} v.own.session.readings w now
        a.1.shared a.2.shared := by
  obtain ⟨permit, t, hissue, -, ha⟩ := (inert_issuePermit _ _).later ha hlog
  obtain ⟨hown, ⟨_, he, -⟩ | ⟨he, hinserted⟩⟩ := run_issuePermit hissue
  · cases he
  have hpermit := Except.ok.inj he
  obtain ⟨-, ha⟩ := Py.callLearns_later ha hlog
  obtain ⟨y, hticks, -, ha⟩ := Py.emit_later (by simpa [hown] using hrun.audited) ha hlog
  obtain ⟨-, ha⟩ := Py.touch_later ha hlog
  have hequipped : Equipped r (allowedRequest proposal d) permit v ⟨y.shared, { y.own with
      session := { y.own.session with lastExecution := some (permit.permitId, proposal) } }⟩ := by
    rw [hpermit]
    exact .of_issued hown hinserted
      ⟨hticks.shared, hticks.readings, hticks.sequence, hticks.audited, hticks.due⟩
  have ha := Prog.Inert.earlier (fun _ => .bind (Py.inert_callLearns _) fun _ => .ret _) ha hlog
  obtain ⟨now, hlanded⟩ := executeWithRetry_lands ha hlog (hequipped.held rfl hrun.numbered)
    (hequipped.fits hfit) (hequipped.audited.trans hrun.audited)
  exact ⟨_, _, now, hequipped, hlanded⟩

/-- A row is written for an allowed proposal, or for a ticket. -/
theorem proceed_logs {s : PolicySnapshot} {d : PolicyResult} {attempt : Nat}
    (hrun : Running r spec v)
    (hfit : d.decision = .allow → Fits v.shared (allowedRequest proposal d) proposal)
    (ha : a ∈ (r.proceed proposal s d attempt).transitions v) (hlog : a.2.log ≠ a.1.log) :
    ∃ u, Idle 1 v u ∧
      ((d.decision = .escalate ∧ WritesTicket r proposal.orderId d.reasonCode d.detail u a) ∨
        (d.decision = .allow ∧ ∃ permit w now, Equipped r (allowedRequest proposal d) permit u w ∧
          Landed r (allowedRequest proposal d) permit proposal {} u.own.session.readings w now
            a.1.shared a.2.shared)) := by
  unfold Runner.proceed at ha
  split_ifs at ha with hdeny hescalate
  · obtain ⟨t, -, -, ha⟩ := Py.emit_later hrun.audited ha hlog
    cases ha
  · obtain ⟨u, hticks, -, ha⟩ := Py.emit_later hrun.audited ha hlog
    have ha := Prog.Inert.earlier (fun _ => .ret _) ha hlog
    have hu := hrun.quiet hticks.toSteady.carries hticks.shared
    exact ⟨u, hticks.idle, .inl ⟨hescalate, escalate_logs hu ha hlog⟩⟩
  · have hallow : d.decision = .allow := by
      cases hd : d.decision <;> simp_all
    obtain ⟨u, hticks, -, ha⟩ := Py.emit_later hrun.audited ha hlog
    have hu := hrun.quiet hticks.toSteady.carries hticks.shared
    exact ⟨u, hticks.idle, .inr ⟨hallow, executeAllowed_logs hu (hticks.shared ▸ hfit hallow) ha
      hlog⟩⟩

/-- An attempt from `v` on has come to its decision in `w`. -/
structure Evaluated (r : Runner) (n : Nat) (v : World) (proposal : ActionProposal)
    (s : PolicySnapshot) (d : PolicyResult) (w : World) : Prop where
  valid : validate r.intFromText v.own.session.planner.propose.1 = .ok proposal
  reads : Reads v.shared proposal s
  evaluated : evaluate proposal s = .ok d
  idle : Idle 3 v w
  history : w.own.history = { v.call n with judged := some (s, d) } :: v.own.history

/-- Where an attempt logs it has come to a decision, and goes on from there. -/
theorem attempt_evaluated {orderId : String} (hrun : Running r spec v)
    (ha : a ∈ (r.attempt n orderId).transitions v) (hlog : a.2.log ≠ a.1.log) :
    ∃ proposal s d w, Evaluated r n v proposal s d w ∧
      ((r.attempt n orderId).run v).2 = ((r.proceed proposal s d n).run w).2 ∧
      a ∈ (r.proceed proposal s d n).transitions w := by
  obtain ⟨hrun₀, ha⟩ := Py.propose_later ha hlog
  have hstart := v.proposed_idle n
  have h₀ := hrun.quiet hstart.carries hstart.shared
  obtain ⟨t₁, ht₁, hrun₁, ha⟩ := Py.emit_later h₀.audited ha hlog
  have h₁ := h₀.quiet ht₁.toSteady.carries ht₁.shared
  cases hvalid : validate r.intFromText v.own.session.planner.propose.1 with
  | error reason =>
      simp only [hvalid] at ha
      obtain ⟨t₂, -, -, ha⟩ := Py.emit_later h₁.audited ha hlog
      cases ha
  | ok proposal =>
      simp only [hvalid] at ha hrun₀
      obtain ⟨t₂, ht₂, hrun₂, ha⟩ := Py.emit_later h₁.audited ha hlog
      obtain ⟨s, t₃, hsnapshot, hrun₃, ha⟩ := (inert_snapshot proposal).later ha hlog
      obtain ⟨_, he, ht₃, hreads⟩ | ⟨_, he, -⟩ := run_snapshot hsnapshot
      · cases he
        obtain ⟨d, hevaluate, hrun₄, ha⟩ := Py.raising_later ha hlog
        obtain ⟨hrun₅, ha⟩ := Py.callLearns_later ha hlog
        have ha := Prog.Inert.earlier (fun _ => .ret _) ha hlog
        have hticks := (ht₁.trans ht₂).trans ht₃
        have hidle : Idle 3 v (t₃.judged s d) := by
          have := hstart.trans hticks.idle
          exact ⟨this.shared, this.readings, this.sequence, this.audited, this.due⟩
        have hhistory : (t₃.judged s d).own.history =
            { v.call n with judged := some (s, d) } :: v.own.history := by
          simp only [World.judged, hticks.history]
          rfl
        have hattempt : (r.attempt n orderId).run v =
            (r.proceed proposal s d n >>= fun step => pure (step, proposal.orderId)).run
              (t₃.judged s d) :=
          ((((hrun₀.trans (hrun₁ _)).trans (hrun₂ _)).trans hrun₃).trans hrun₄).trans hrun₅
        rw [(ht₁.trans ht₂).shared] at hreads
        refine ⟨proposal, s, d, _, ⟨hvalid, hreads, hevaluate, hidle, hhistory⟩, ?_, ha⟩
        rw [hattempt, Prog.bind_def, Prog.run_bind]
        rcases (r.proceed proposal s d n).run (t₃.judged s d) with ⟨_ | _, v'⟩ <;> rfl
      · cases he

/-- **A statement of an attempt that logs** writes what the call of the attempt is about. -/
theorem attempt_logs {orderId : String} (hrun : Running r spec v)
    (ha : a ∈ (r.attempt n orderId).transitions v) (hlog : a.2.log ≠ a.1.log) :
    ∃ call, ((r.attempt n orderId).run v).2.own.history = call :: v.own.history ∧
      Writes r v call a := by
  obtain ⟨proposal, s, d, w, hevaluated, hbehind, ha⟩ := attempt_evaluated hrun ha hlog
  have hw := hrun.quiet hevaluated.idle.carries hevaluated.idle.shared
  rw [hbehind]
  rcases hproceed : (r.proceed proposal s d n).run w with ⟨res, v'⟩
  obtain ⟨-, -, call, hcall, hstart, -, hraw, hjudged, -⟩ :=
    run_proceed hw.audited hevaluated.history hproceed
  have hfull : Judged r call proposal s d := by
    refine ⟨by rw [hraw]; exact hevaluated.valid, hjudged, ?_, hevaluated.evaluated⟩
    rw [hstart]
    exact hevaluated.reads
  refine ⟨call, hcall, ?_⟩
  have hfits : d.decision = .allow → Fits w.shared (allowedRequest proposal d) proposal :=
    fun hallow => hevaluated.idle.shared ▸ hevaluated.reads.fits hevaluated.evaluated hallow
  obtain ⟨u, hidle, ⟨hescalate, hwritten⟩ | ⟨hallow, permit, x, now, hequipped, hlanded⟩⟩ :=
    proceed_logs hw hfits ha hlog
  · exact .ticket proposal s d u hfull hescalate hstart (hevaluated.idle.trans hidle) hwritten
  · exact .allowed proposal s d permit u x now
      ⟨hfull, hallow, hstart, hevaluated.idle.trans hidle, hequipped⟩ hlanded

end Stages

end BoundedRefund
