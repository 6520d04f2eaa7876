import BoundedRefund.Logging

/-!
# The rows of a run

A statement of a run that logs writes for one of its calls, or it writes the ticket of the
escalation behind stale state (`run_logs`).  The calls are those the history lists when the run is
over, however it ended: what follows a call forgets none (`Recalls`), so a call that was there
behind an attempt is there at the end.

Where the run reports, the other direction holds as well.  Every call of the history was made by
an attempt that came back (`run_answered`), so if the call is to write a row, some statement of
that attempt logs it (`Answered.writes`).
-/

namespace BoundedRefund

open Concurrent Relational

/-! ## What the run remembers -/

/-- The run goes on, and has these calls in its history. -/
structure Knows (r : Runner) (spec : FailureSpec) (calls : List Call) (v : World) : Prop
    extends Running r spec v where
  calls : calls ⊆ v.own.history

/-- A program that lets the run go on and forgets none of the calls. -/
abbrev Recalls {α : Type} (r : Runner) (spec : FailureSpec) (calls : List Call) (p : Py α) : Prop :=
  p.Triple (Knows r spec calls) (fun _ => Knows r spec calls) (fun _ => Knows r spec calls)

section Knows

variable {r : Runner} {spec : FailureSpec} {calls : List Call}

/-- What keeps the calls over every run of it recalls them. -/
theorem Recalls.of_run {α : Type} {p : Py α} (h : ∀ v res v', Knows r spec calls v →
    p.run v = (res, v') → Knows r spec calls v') : Recalls r spec calls p :=
  Prog.Triple.of_run (fun v a v' => h v (.ok a) v') fun v err v' => h v (.error err) v'

/-- An attempt forgets no call. -/
theorem recalls_attempt (n : Nat) (orderId : String) :
    Recalls r spec calls (r.attempt n orderId) := by
  refine .of_run fun v res v' h hrun => ?_
  obtain ⟨hcarries, call, hcalled, hattempted, -⟩ := run_attempt h.audited hrun
  refine ⟨h.toRunning.tried ⟨hcarries, hcalled, hattempted⟩, ?_⟩
  rw [hcalled.history]
  exact List.Subset.trans h.calls (List.subset_cons_self _ _)

/-- A run is still under way behind an attempt. -/
theorem Running.attempted {n : Nat} {orderId : String} {v v' : World}
    {res : Except PyError (Attempt × String)} (hrun : Running r spec v)
    (h : (r.attempt n orderId).run v = (res, v')) : Running r spec v' := by
  obtain ⟨hcarries, call, hcalled, hattempted, -⟩ := run_attempt hrun.audited h
  exact hrun.tried ⟨hcarries, hcalled, hattempted⟩

theorem recalls_note (text : String) :
    Recalls r spec calls (Py.touch fun s => s.note text) := by
  intro v hv
  rw [Py.run_touch]
  exact ⟨hv.toRunning.quiet (Ticks.note v text).toSteady.carries rfl, hv.calls⟩

/-- The first loop forgets no call. -/
theorem recalls_plan (attempts : List Nat) (orderId : String) :
    Recalls r spec calls (r.plan attempts orderId) :=
  triple_plan recalls_attempt recalls_note attempts orderId

/-- Nor does the second. -/
theorem recalls_chain (planned : Planned) (fuel : Nat) :
    Recalls r spec calls (r.chain planned fuel) :=
  triple_chain recalls_attempt (fun _ h => h) planned fuel

/-- Nor does a hand-over. -/
theorem recalls_handOver (planned : Planned) : Recalls r spec calls (r.handOver planned) := by
  refine .of_run fun v res v' h hrun => ?_
  obtain ⟨haside, hhanded⟩ := run_handOver h.audited hrun
  refine ⟨?_, haside.history ▸ h.calls⟩
  cases hhanded with
  | unasked unasked same => exact same ▸ h.toRunning
  | asked reason asked res escalated => exact h.toRunning.escalated haside.toCarries escalated

/-- What follows the loops: the replay, if it is asked for, and the report. -/
def Runner.conclusion (r : Runner) (planned : Planned) : Py RunReport :=
  if r.replayLastPermit then r.replay >>= fun _ => r.finish planned else r.finish planned

/-- It makes no call. -/
theorem conclusion_history {planned : Planned} {v v' : World} {res : Except PyError RunReport}
    (haudit : v.own.session.audit.isSome = true)
    (h : (r.conclusion planned).run v = (res, v')) : v'.own.history = v.own.history := by
  unfold Runner.conclusion at h
  split_ifs at h with hasked
  · obtain ⟨_, hreplay, -⟩ | ⟨_, t, hreplay, h⟩ := Py.run_bind_cases h
    · exact (run_replay hasked hreplay).1.history
    · have hsteady := (run_replay hasked hreplay).1
      exact (run_finish (hsteady.audited.trans haudit) h).2.1.trans hsteady.history
  · exact (run_finish haudit h).2.1

/-- Nor does the end of a run. -/
theorem knows_conclusion (planned : Planned) :
    (r.conclusion planned).Triple (Knows r spec calls) (fun _ v => calls ⊆ v.own.history)
      (fun _ v => calls ⊆ v.own.history) :=
  .of_run (fun _ _ _ h hrun => conclusion_history h.audited hrun ▸ h.calls)
    fun _ _ _ h hrun => conclusion_history h.audited hrun ▸ h.calls

end Knows

/-! ## For whom a statement writes -/

section Loops

variable {r : Runner} {spec : FailureSpec} {v : World} {a : World × World}

/-- The statement writes for a call that is in the history behind it. -/
def WritesFor (r : Runner) (spec : FailureSpec) (a : World × World) (v' : World) : Prop :=
  ∃ t call, Running r spec t ∧ Writes r t call a ∧ Knows r spec [call] v'

/-- A log row written in an attempt is written for its call. -/
theorem attempt_writes {n : Nat} {orderId : String} (hrun : Running r spec v)
    (ha : a ∈ (r.attempt n orderId).transitions v) (hlog : a.2.log ≠ a.1.log) :
    WritesFor r spec a ((r.attempt n orderId).run v).2 := by
  obtain ⟨call, hhistory, hwrites⟩ := attempt_logs hrun ha hlog
  have hbehind := (recalls_attempt n orderId).behind (s := v) ⟨hrun, List.nil_subset _⟩
  refine ⟨v, call, hrun, hwrites, hbehind.toRunning, ?_⟩
  rw [hhistory]
  simp

/-- What follows does not forget whom the statement wrote for. -/
theorem WritesFor.bind {α β : Type} {p : Py α} {k : α → Py β} (h : WritesFor r spec a (p.run v).2)
    (hk : ∀ calls b, Recalls r spec calls (k b)) :
    WritesFor r spec a ((p >>= k).run v).2 := by
  obtain ⟨t, call, ht, hwrites, hknows⟩ := h
  exact ⟨t, call, ht, hwrites, Prog.Triple.behind_bind (hk _) (fun _ h => h) hknows⟩

/-- So it is in the first loop. -/
theorem plan_logs {attempts : List Nat} {orderId : String} (hrun : Running r spec v)
    (ha : a ∈ (r.plan attempts orderId).transitions v) (hlog : a.2.log ≠ a.1.log) :
    WritesFor r spec a ((r.plan attempts orderId).run v).2 := by
  induction attempts generalizing orderId v with
  | nil => cases ha
  | cons n rest ih =>
      rcases Prog.mem_transitions_bind.mp ha with ha | ⟨⟨step, stepOrderId⟩, t, hattempt, ha⟩
      · refine (attempt_writes hrun ha hlog).bind fun calls step => ?_
        dsimp only
        split_ifs
        · exact (recalls_note _).bind fun _ => recalls_plan rest _
        · exact .ret _ fun _ h => h
        · exact .ret _ fun _ h => h
      · have ht := hrun.attempted hattempt
        rw [Runner.plan, Prog.bind_def, Prog.run_bind, hattempt]
        dsimp only at ha ⊢
        split_ifs at ha ⊢ with hreplan hescalate
        · obtain ⟨hnote, ha⟩ := Py.touch_later ha hlog
          rw [hnote]
          exact ih (ht.quiet (Ticks.note t _).toSteady.carries rfl) ha
        · cases ha
        · cases ha

/-- So it is in the second. -/
theorem chain_logs {planned : Planned} {fuel : Nat} (hrun : Running r spec v)
    (ha : a ∈ (r.chain planned fuel).transitions v) (hlog : a.2.log ≠ a.1.log) :
    WritesFor r spec a ((r.chain planned fuel).run v).2 := by
  induction fuel generalizing planned v with
  | zero =>
      obtain ⟨-, ha⟩ := Py.own_later ha hlog
      split_ifs at ha <;> cases ha
  | succ fuel ih =>
      obtain ⟨hown, ha⟩ := Py.own_later ha hlog
      rw [Runner.chain, hown]
      split_ifs at ha ⊢ with hgoes
      · rcases Prog.mem_transitions_bind.mp ha with ha | ⟨⟨step, stepOrderId⟩, t, hattempt, ha⟩
        · refine (attempt_writes hrun ha hlog).bind fun calls step => ?_
          dsimp only
          split_ifs
          · exact .ret _ fun _ h => h
          · exact recalls_chain _ _
        · have ht := hrun.attempted hattempt
          rw [Prog.bind_def, Prog.run_bind, hattempt]
          dsimp only at ha ⊢
          split_ifs at ha ⊢ with hstale
          · cases ha
          · exact ih ht ha
      · cases ha

/-- The escalation behind stale state writes a ticket. -/
theorem handOver_logs {planned : Planned} (hrun : Running r spec v)
    (ha : a ∈ (r.handOver planned).transitions v) (hlog : a.2.log ≠ a.1.log) :
    ∃ reason, planned.escalateReason = some reason ∧
      WritesTicket r planned.orderId reason staleDetail v a := by
  unfold Runner.handOver at ha
  cases hreason : planned.escalateReason with
  | none =>
      simp only [hreason] at ha
      cases ha
  | some reason =>
      simp only [hreason] at ha
      have ha := Prog.Inert.earlier (fun _ => .ret _) ha hlog
      exact ⟨reason, rfl, escalate_logs hrun ha hlog⟩

/-- The replay of a permit that cannot be used writes nothing. -/
theorem replay_inert (hquiet : r.Quiet v) (ha : a ∈ r.replay.transitions v) :
    a.2.log = a.1.log := by
  by_contra hlog
  obtain ⟨-, ha⟩ := Py.own_later ha hlog
  cases hlast : v.own.session.lastExecution with
  | none =>
      simp only [hlast] at ha
      cases ha
  | some last =>
      obtain ⟨permitId, proposal⟩ := last
      simp only [hlast] at ha
      have ha := Prog.Inert.earlier (fun _ => Py.inert_touch _) ha hlog
      obtain ⟨permit, target, now, hload, hclear, -⟩ := execute_logs ha hlog
      exact hquiet permitId proposal permit target hlast hload hclear

end Loops

/-- A run up to the end of its first loop. -/
def Runner.firstLoop (r : Runner) : Py Planned := do
  Py.emit r.clock
    { eventType := .userRequestReceived, resourceId := r.defaultOrderId,
      decisionOwner := .planner }
  r.plan r.attempts r.defaultOrderId

/-- The loops are the first one, the hand-over and the second one. -/
theorem Runner.loops_eq (r : Runner) : r.loops = r.firstLoop >>= fun planned =>
    r.handOver planned >>= fun _ =>
      Py.own (fun s => s.planner.remaining) >>= r.chain planned := by
  simp only [loops, firstLoop, bind_assoc]

section Whole

variable {r : Runner} {spec : FailureSpec} {v : World} {a : World × World}

theorem recalls_firstLoop {calls : List Call} : Recalls r spec calls r.firstLoop := by
  refine Prog.Triple.bind (.of_run (fun v _ v' h hrun => ?_) fun v _ v' h hrun => ?_)
    fun _ => recalls_plan _ _
  · have hticks := (run_emit _ _ hrun).2
    exact ⟨h.toRunning.quiet hticks.toSteady.carries hticks.shared, hticks.history ▸ h.calls⟩
  · cases (run_emit _ _ hrun).1

/-- The escalation and the chain. -/
theorem recalls_rest {calls : List Call} (planned : Planned) :
    Recalls r spec calls (r.handOver planned >>= fun _ =>
      Py.own (fun s => s.planner.remaining) >>= r.chain planned) :=
  (recalls_handOver planned).bind fun _ => (triple_own _).bind fun left =>
    recalls_chain planned left

theorem recalls_loops {calls : List Call} : Recalls r spec calls r.loops := by
  rw [Runner.loops_eq]
  exact recalls_firstLoop.bind recalls_rest

/-- A row written in the first loop is written for one of its calls. -/
theorem firstLoop_logs (hrun : Running r spec v) (ha : a ∈ r.firstLoop.transitions v)
    (hlog : a.2.log ≠ a.1.log) : WritesFor r spec a (r.firstLoop.run v).2 := by
  obtain ⟨t, hticks, hemit, ha⟩ := Py.emit_later hrun.audited ha hlog
  rw [Runner.firstLoop, hemit]
  exact plan_logs (hrun.quiet hticks.toSteady.carries hticks.shared) ha hlog

/-- A row written in the loops is written for a call, or is the ticket of the hand-over. -/
theorem loops_logs (hrun : Running r spec v) (ha : a ∈ r.loops.transitions v)
    (hlog : a.2.log ≠ a.1.log) :
    WritesFor r spec a (r.loops.run v).2 ∨
    ∃ planned u reason, r.firstLoop.run v = (.ok planned, u) ∧
      planned.escalateReason = some reason ∧
      WritesTicket r planned.orderId reason staleDetail u a := by
  rw [Runner.loops_eq] at ha ⊢
  rcases Prog.mem_transitions_bind.mp ha with ha | ⟨planned, u, hfirst, ha⟩
  · exact .inl ((firstLoop_logs hrun ha hlog).bind fun _ planned => recalls_rest planned)
  have hu : Running r spec u :=
    (recalls_firstLoop.ok ⟨hrun, List.nil_subset _⟩ hfirst).toRunning
  rcases Prog.mem_transitions_bind.mp ha with ha | ⟨_, w, hhand, ha⟩
  · obtain ⟨reason, hreason, hwritten⟩ := handOver_logs hu ha hlog
    exact .inr ⟨planned, u, reason, hfirst, hreason, hwritten⟩
  · have hw := ((recalls_handOver planned).ok ⟨hu, List.nil_subset _⟩ hhand).toRunning
    obtain ⟨hown, ha⟩ := Py.own_later ha hlog
    left
    rw [Prog.bind_def, Prog.run_bind, hfirst]
    dsimp only
    rw [Prog.bind_def, Prog.run_bind, hhand]
    dsimp only
    rw [hown]
    exact chain_logs hw ha hlog

end Whole

/-- **A statement of a run that logs** writes for a call of the run, or it writes the ticket of the
escalation behind the first loop. -/
theorem run_logs {r : Runner} {spec : FailureSpec} {c : FixedClock} {db : Database}
    {proposals : List RawProposal} {a : World × World} (hclock : r.clock = c.now)
    (hseeded : db.Seeded) (ha : a ∈ r.run.transitions ⟨db, r.start proposals spec⟩)
    (hlog : a.2.log ≠ a.1.log) :
    (∃ t, ∃ call ∈ (r.run.run ⟨db, r.start proposals spec⟩).2.own.history,
      Running r spec t ∧ Writes r t call a) ∨
    ∃ planned u reason, r.firstLoop.run ⟨db, r.start proposals spec⟩ = (.ok planned, u) ∧
      planned.escalateReason = some reason ∧
      WritesTicket r planned.orderId reason staleDetail u a := by
  have hstart : Running r spec ⟨db, r.start proposals spec⟩ := Running.start hseeded proposals
  have hrun : r.run = r.loops >>= r.conclusion := r.run_eq_loops
  rw [hrun] at ha ⊢
  rcases Prog.mem_transitions_bind.mp ha with ha | ⟨planned, y, hloops, ha⟩
  · refine (loops_logs hstart ha hlog).imp_left fun ⟨t, call, ht, hwrites, hknows⟩ => ?_
    exact ⟨t, call, Prog.Triple.behind_bind knows_conclusion (fun _ h => h.calls) hknows
      (List.mem_singleton_self _), ht, hwrites⟩
  · -- behind the loops nothing is written
    exfalso
    have hquiet := loops_quiet hclock hseeded hloops
    unfold Runner.conclusion at ha
    split_ifs at ha with hasked
    · rcases Prog.mem_transitions_bind.mp ha with ha | ⟨_, z, -, ha⟩
      · exact hlog (replay_inert hquiet ha)
      · exact hlog (inert_finish planned z a ha)
    · exact hlog (inert_finish planned y a ha)

/-! ## Calls that came back -/

/-- The call was made by an attempt that came back, and whose statements are among these. -/
inductive Answered (r : Runner) (spec : FailureSpec) (as : List (World × World)) (call : Call) :
    Prop
  | intro (n : Nat) (orderId : String) (t t' : World) (answer : Attempt × String)
      (running : Running r spec t) (returned : (r.attempt n orderId).run t = (.ok answer, t'))
      (history : t'.own.history = call :: t.own.history)
      (statements : (r.attempt n orderId).transitions t ⊆ as)

/-- The statement behind a row that such a call writes. -/
theorem Answered.writes {r : Runner} {spec : FailureSpec} {as : List (World × World)}
    {call : Call} (h : Answered r spec as call) (hwrites : (call.writes r).isSome) :
    ∃ t, ∃ a ∈ as, Running r spec t ∧ Writes r t call a := by
  obtain ⟨n, orderId, t, t', ⟨step, stepOrderId⟩, ht, hattempt, hhistory, hstatements⟩ := h
  obtain ⟨hcarries, other, hcalled, hattempted, -⟩ := run_attempt ht.audited hattempt
  obtain rfl : other = call := (List.cons.inj (hcalled.history.symm.trans hhistory)).1
  -- the log is longer behind the attempt, so a statement of the attempt logs
  have hkeys := Tried.writes ht ⟨hcarries, hcalled, hattempted⟩
  have hlogged : ((r.attempt n orderId).run t).2.log ≠ t.log := by
    rw [hattempt]
    intro hsame
    rw [show t'.shared.mutationLog = t.shared.mutationLog from hsame] at hkeys
    rw [Option.isSome_iff_exists] at hwrites
    obtain ⟨key, hkey⟩ := hwrites
    simp [hkey] at hkeys
  obtain ⟨a, ha, hlog⟩ := Prog.exists_change hlogged
  -- and what it logs it writes for the one call the attempt makes
  obtain ⟨made, hmade, hwritten⟩ := attempt_logs ht ha hlog
  rw [hattempt] at hmade
  obtain rfl : made = other := (List.cons.inj (hmade.symm.trans hcalled.history)).1
  exact ⟨t, a, hstatements ha, ht, hwritten⟩

/-- So it is with the calls that were made from `v` on. -/
def AllAnswered (r : Runner) (spec : FailureSpec) (as : List (World × World))
    (v v' : World) : Prop :=
  ∀ call ∈ v'.own.history, call ∈ v.own.history ∨ Answered r spec as call

namespace AllAnswered

variable {r : Runner} {spec : FailureSpec} {as bs : List (World × World)} {v u v' : World}

/-- The same calls answer for the same rows. -/
theorem of_history (h : v'.own.history = v.own.history) : AllAnswered r spec as v v' :=
  fun _ hcall => .inl (h ▸ hcall)

/-- For fewer rows as well. -/
theorem mono (h : AllAnswered r spec as v v') (hsubset : as ⊆ bs) :
    AllAnswered r spec bs v v' := by
  intro call hcall
  refine (h call hcall).imp_right ?_
  rintro ⟨n, orderId, t, t', answer, running, returned, history, statements⟩
  exact ⟨n, orderId, t, t', answer, running, returned, history,
    List.Subset.trans statements hsubset⟩

/-- What was answered first and what was answered then. -/
theorem trans (h : AllAnswered r spec as v u) (h' : AllAnswered r spec as u v') :
    AllAnswered r spec as v v' :=
  fun call hcall => (h' call hcall).elim (h call) .inr

end AllAnswered

section AllAnswered

variable {r : Runner} {spec : FailureSpec} {v v' : World}

/-- Every row of an attempt has its answer. -/
theorem attempt_answered {n : Nat} {orderId : String} {answer : Attempt × String}
    (hrun : Running r spec v) (h : (r.attempt n orderId).run v = (.ok answer, v')) :
    Running r spec v' ∧ AllAnswered r spec ((r.attempt n orderId).transitions v) v v' := by
  obtain ⟨hcarries, call, hcalled, hattempted, -⟩ := run_attempt hrun.audited h
  refine ⟨hrun.tried ⟨hcarries, hcalled, hattempted⟩, fun other hother => ?_⟩
  rw [hcalled.history] at hother
  rcases List.mem_cons.mp hother with rfl | hother
  · exact .inr ⟨n, orderId, v, v', answer, hrun, h, hcalled.history, List.Subset.refl _⟩
  · exact .inl hother

/-- So has every row of the first loop. -/
theorem plan_answered {attempts : List Nat} {orderId : String} {planned : Planned}
    (hrun : Running r spec v) (h : (r.plan attempts orderId).run v = (.ok planned, v')) :
    AllAnswered r spec ((r.plan attempts orderId).transitions v) v v' := by
  induction attempts generalizing orderId v with
  | nil =>
      cases h
      exact .of_history rfl
  | cons n rest ih =>
      obtain ⟨⟨step, stepOrderId⟩, t, hattempt, h⟩ := Prog.run_bind_eq_ok h
      obtain ⟨ht, hanswered⟩ := attempt_answered hrun hattempt
      refine (hanswered.mono Prog.transitions_front).trans
        (.mono ?_ (Prog.transitions_rest hattempt))
      dsimp only at h ⊢
      split_ifs at h ⊢ with hreplan hescalate
      · have h := Py.run_touch_bind h
        have hbehind := ih (ht.quiet (Ticks.note t _).toSteady.carries rfl) h
        exact (AllAnswered.of_history rfl).trans
          (hbehind.mono (Prog.transitions_seq (Py.run_touch t _)))
      · cases h
        exact .of_history rfl
      · cases h
        exact .of_history rfl

/-- So has every row of the second. -/
theorem chain_answered {planned last : Planned} {fuel : Nat} (hrun : Running r spec v)
    (h : (r.chain planned fuel).run v = (.ok last, v')) :
    AllAnswered r spec ((r.chain planned fuel).transitions v) v v' := by
  induction fuel generalizing planned v with
  | zero =>
      have h := Py.run_own_bind h
      split_ifs at h
      · cases h
      · cases h
        exact .of_history rfl
  | succ fuel ih =>
      have h := Py.run_own_bind h
      refine .mono ?_ (Prog.transitions_rest (Py.run_own v _))
      split_ifs at h ⊢ with hgoes
      · obtain ⟨⟨step, stepOrderId⟩, t, hattempt, h⟩ := Prog.run_bind_eq_ok h
        obtain ⟨ht, hanswered⟩ := attempt_answered hrun hattempt
        refine (hanswered.mono Prog.transitions_front).trans
          (.mono ?_ (Prog.transitions_rest hattempt))
        dsimp only at h ⊢
        split_ifs at h ⊢ with hstale
        · cases h
          exact .of_history rfl
        · exact ih ht h
      · cases h
        exact .of_history rfl

/-- The first loop answers for its rows. -/
theorem firstLoop_answered {planned : Planned} (hrun : Running r spec v)
    (h : r.firstLoop.run v = (.ok planned, v')) :
    AllAnswered r spec (r.firstLoop.transitions v) v v' := by
  obtain ⟨_, t, hemit, h⟩ := Prog.run_bind_eq_ok h
  have hticks := (run_emit _ _ hemit).2
  have ht := hrun.quiet hticks.toSteady.carries hticks.shared
  exact (AllAnswered.of_history hticks.history).trans
    ((plan_answered ht h).mono (Prog.transitions_seq hemit))

/-- The statements of the escalation behind the first loop are among these. -/
structure HandsOver (r : Runner) (spec : FailureSpec) (as : List (World × World)) (v : World)
    (planned : Planned) (u w : World) : Prop where
  first : r.firstLoop.run v = (.ok planned, u)
  running : Running r spec u
  returned : (r.handOver planned).run u = (.ok (), w)
  statements : (r.handOver planned).transitions u ⊆ as

/-- An escalation that was asked for and came back. -/
theorem HandedOver.ticketed {planned : Planned}
    (h : HandedOver r planned v v' (.ok ())) (hrun : Running r spec v)
    (hasked : planned.escalateReason.isSome) :
    ∃ reason, Ticketed r planned.orderId reason staleDetail v v' := by
  generalize hres : (Except.ok () : Except PyError Unit) = res at h
  cases h with
  | unasked unasked same => simp [unasked] at hasked
  | asked reason asked res escalated =>
      cases res with
      | error err => cases hres
      | ok ticket => exact ⟨reason, escalated.ticketed rfl hrun⟩

/-- If it is in time and about an order, some statement writes the ticket. -/
theorem HandsOver.writes {as : List (World × World)} {planned : Planned} {u w : World}
    (h : HandsOver r spec as v planned u w) (hasked : planned.escalateReason.isSome)
    (hin : r.clock.InTime u.own.session.readings (u.own.session.readings + 3))
    (hfound : (u.shared.orders.find? planned.orderId).isSome) :
    ∃ a ∈ as, ∃ reason, WritesTicket r planned.orderId reason staleDetail u a := by
  obtain ⟨-, hhanded⟩ := run_handOver h.running.audited h.returned
  obtain ⟨reason, hticketed⟩ := hhanded.ticketed h.running hasked
  obtain ⟨row, hlogged, -⟩ := hticketed.log.1 ⟨hin, hfound⟩
  have hchange : ((r.handOver planned).run u).2.log ≠ u.log := by
    rw [h.returned, World.log, hlogged]
    simp [World.log]
  obtain ⟨a, ha, hlog⟩ := Prog.exists_change hchange
  obtain ⟨reason', -, hwritten⟩ := handOver_logs h.running ha hlog
  exact ⟨a, h.statements ha, reason', hwritten⟩

/-- The loops answer for theirs, up to the ticket of the hand-over. -/
theorem loops_answered {last : Planned} (hrun : Running r spec v)
    (h : r.loops.run v = (.ok last, v')) :
    AllAnswered r spec (r.loops.transitions v) v v' ∧
      ∃ planned u w, HandsOver r spec (r.loops.transitions v) v planned u w := by
  rw [Runner.loops_eq] at h ⊢
  obtain ⟨planned, u, hfirst, h⟩ := Prog.run_bind_eq_ok h
  have hu : Running r spec u :=
    (recalls_firstLoop.ok ⟨hrun, List.nil_subset _⟩ hfirst).toRunning
  obtain ⟨_, w, hhand, h⟩ := Prog.run_bind_eq_ok h
  have hw := ((recalls_handOver planned).ok ⟨hu, List.nil_subset _⟩ hhand).toRunning
  have h := Py.run_own_bind h
  have hrest := Prog.transitions_rest (k := fun planned => r.handOver planned >>= fun _ =>
    Py.own (fun s => s.planner.remaining) >>= r.chain planned) hfirst
  have hown : (r.chain planned w.own.session.planner.remaining).transitions w ⊆ _ :=
    Prog.transitions_rest (Py.run_own w fun s => s.planner.remaining)
  have hchained := ((chain_answered hw h).mono hown).mono (Prog.transitions_seq hhand)
  have hhanded := run_handOver hu.audited hhand
  refine ⟨?_, planned, u, w, hfirst, hu, hhand, List.Subset.trans Prog.transitions_front hrest⟩
  exact ((firstLoop_answered hrun hfirst).mono Prog.transitions_front).trans
    (((AllAnswered.of_history hhanded.1.history).trans hchained).mono hrest)

/-- **Every call of a run that reports was answered**, and so was the escalation. -/
theorem run_answered {db : Database} {proposals : List RawProposal} {report : RunReport}
    (hseeded : db.Seeded) (h : r.run.run ⟨db, r.start proposals spec⟩ = (.ok report, v')) :
    (∀ call ∈ v'.own.history,
      Answered r spec (r.run.transitions ⟨db, r.start proposals spec⟩) call) ∧
    ∃ planned u w, HandsOver r spec (r.run.transitions ⟨db, r.start proposals spec⟩)
      ⟨db, r.start proposals spec⟩ planned u w := by
  have hstart : Running r spec ⟨db, r.start proposals spec⟩ := Running.start hseeded proposals
  have hrun : r.run = r.loops >>= r.conclusion := r.run_eq_loops
  rw [hrun] at h ⊢
  obtain ⟨last, y, hloops, h⟩ := Prog.run_bind_eq_ok h
  obtain ⟨hanswered, planned, u, w, hhands⟩ := loops_answered hstart hloops
  refine ⟨fun call hcall => ?_, planned, u, w, hhands.first, hhands.running, hhands.returned,
    List.Subset.trans hhands.statements Prog.transitions_front⟩
  have hy := (recalls_loops.ok ⟨hstart, List.nil_subset _⟩ hloops).toRunning
  rw [conclusion_history hy.audited h] at hcall
  exact ((hanswered.mono Prog.transitions_front) call hcall).resolve_left List.not_mem_nil

end AllAnswered

end BoundedRefund
