import BoundedRefund.Concurrent.Encounter
import BoundedRefund.Guard
import BoundedRefund.Walk

/-!
# Any planner is a script

The claims are about planners that replay a list.  The runner takes any object with a `propose`,
one that asks a model for instance, and such a planner may answer each call as it likes, by the
context it is shown and by all it has answered before.  `Runner.runWith` is the runner with such
a planner.

Whatever it answers, it answers finitely often in a finite execution, and nothing else in the run
looks at the planner.  So a run that replays these answers does the same: where a pool of runs
gets with any planners, the pool of the scripted runs gets too (`Runs.planner_is_script`).
-/

namespace BoundedRefund

open Concurrent

/-! ## Planners -/

/-- `PlannerContext`: everything a planner is told.  Nobody fills the observations. -/
structure PlannerContext where
  runId : String
  scenarioId : String
  userRequest : String
  orderId : String
  attempt : Nat := 1

/-- `Planner`, over what it keeps to itself.  One without `exhausted` counts as exhausted. -/
structure Planner (π : Type) where
  propose : PlannerContext → π → RawProposal × π
  exhausted : π → Bool := fun _ => true

/-- The programs of a run whose planner keeps `π`. -/
abbrev Asking (π : Type) := Prog PyError (View Database (Local × π))

namespace Runner

variable {π : Type} (r : Runner) (userRequest : String) (planner : Planner π)

/-- What an attempt tells the planner. -/
def context (attempt : Nat) (orderId : String) : PlannerContext where
  runId := r.runId
  scenarioId := r.scenarioId
  userRequest := userRequest
  orderId := orderId
  attempt := attempt

/-- `self.planner.propose(context)`.  The ghost history gets an entry for the call. -/
def ask (attempt : Nat) (orderId : String) : Asking π RawProposal :=
  Prog.atomically fun w =>
    let (raw, kept) := planner.propose (r.context userRequest attempt orderId) w.own.2
    let call : Call := { start := ⟨w.shared, w.own.1.session⟩, attempt, raw }
    (.ok raw, ⟨w.shared, ({ w.own.1 with history := call :: w.own.1.history }, kept)⟩)

/-- `_attempt`, with any planner. -/
def attemptWith (attempt : Nat) (orderId : String) : Asking π (Attempt × String) := do
  let raw ← r.ask userRequest planner attempt orderId
  (r.takeUp attempt orderId raw).beside π

/-- `for attempt in …: … else: …`, with any planner. -/
def planWith : List Nat → String → Asking π Planned
  | [], orderId =>
      return { outcome := .escalated, reasonCode := .staleResourceVersion, orderId,
               escalateReason := some .staleResourceVersion }
  | n :: rest, orderId => do
      let (step, stepOrderId) ← r.attemptWith userRequest planner n orderId
      let orderId := textOr stepOrderId orderId
      if step.replan then do
        (Py.touch fun s => s.note
          ("replanning after stale state (attempt " ++ toString n ++ ")")).beside π
        planWith rest orderId
      else if step.escalateAfterReplan then
        return { outcome := .escalated, reasonCode := .staleResourceVersion, orderId,
                 escalateReason := some .staleResourceVersion }
      else return { outcome := step.outcome, reasonCode := step.reasonCode, orderId }

/-- `getattr(self.planner, "exhausted", True)`. -/
def askExhausted : Asking π Bool := Prog.read fun w => .ok (planner.exhausted w.own.2)

/-- The `while` loop with any planner.  One that is never exhausted may keep the loop going for
ever; `fuel` is how many rounds of it are followed. -/
def chainWith (planned : Planned) : (fuel : Nat) → Asking π Planned
  | 0 => do
      let exhausted ← askExhausted planner
      if r.chains planned exhausted then throw .outOfFuel else return planned
  | fuel + 1 => do
      let exhausted ← askExhausted planner
      if r.chains planned exhausted then do
        let (followUp, orderId) ← r.attemptWith userRequest planner 1 planned.orderId
        if followUp.replan ∨ followUp.escalateAfterReplan then
          return { planned with orderId }
        else
          chainWith { planned with outcome := followUp.outcome,
                                   reasonCode := followUp.reasonCode, orderId } fuel
      else return planned

/-- `run`, with any planner. -/
def runWith (fuel : Nat) : Asking π RunReport := do
  (Py.emit r.clock
    { eventType := .userRequestReceived, resourceId := r.defaultOrderId,
      decisionOwner := .planner }).beside π
  let planned ← r.planWith userRequest planner r.attempts r.defaultOrderId
  (r.handOver planned).beside π
  let left ← (Py.own fun _ => fuel).beside π
  let planned ← r.chainWith userRequest planner planned left
  (if r.replayLastPermit then r.replay else pure ()).beside π
  (r.finish planned).beside π

end Runner

/-! ## What takes no notice of the planner -/

/-- The words a script has left. -/
def ScriptedPlanner.upcoming (p : ScriptedPlanner) : List RawProposal := p.proposals.drop p.index

namespace ScriptedPlanner

variable {p : ScriptedPlanner} {raw : RawProposal} {words : List RawProposal}

/-- A script proposes what comes next. -/
theorem propose_of_upcoming (h : p.upcoming = raw :: words) :
    p.propose.1 = raw ∧ p.propose.2.upcoming = words := by
  have hnext : p.proposals[p.index]? = some raw := by
    have := congrArg List.head? h
    rwa [upcoming, List.head?_drop] at this
  have hrest : p.proposals.drop (p.index + 1) = words := by
    have := congrArg List.tail h
    rwa [upcoming, List.tail_drop] at this
  simp [propose, hnext, upcoming, hrest]

/-- What remains of a script is what is still to come. -/
theorem remaining_eq (p : ScriptedPlanner) : p.remaining = p.upcoming.length := by
  simp [remaining, upcoming]

/-- A script is exhausted when nothing is. -/
theorem exhausted_eq (p : ScriptedPlanner) : p.exhausted = p.upcoming.isEmpty := by
  rw [Bool.eq_iff_iff]
  simp [exhausted, upcoming]

end ScriptedPlanner

/-- The objects of a run, but for the planner. -/
def Session.unscripted (s : Session) : Session := { s with planner := { proposals := [] } }

/-- A call, but for the planner it was made to. -/
def Call.unscripted (call : Call) : Call :=
  { call with start := ⟨call.start.shared, call.start.own.unscripted⟩ }

/-- All a run keeps to itself, but for the planner. -/
def Local.unscripted (l : Local) : Local where
  session := l.session.unscripted
  history := l.history.map Call.unscripted

/-- `l'` is `l` but for the planner, and its planner has the words left. -/
structure Local.Shadows (words : List RawProposal) (l l' : Local) : Prop where
  session : l'.session = { l.session with planner := l'.session.planner }
  history : l'.history.map Call.unscripted = l.history.map Call.unscripted
  upcoming : l'.session.planner.upcoming = words

/-- Both sides are the same, the script left aside. -/
theorem Local.Shadows.unscripted {words : List RawProposal} {l l' : Local}
    (h : l.Shadows words l') : l'.unscripted = l.unscripted := by
  unfold Local.unscripted
  rw [h.history, h.session]
  rfl

/-- The program takes no notice of the planner. -/
def Unaware {α : Type} (p : Py α) : Prop :=
  ∀ words, Prog.Lockstep (Local.Shadows words) Eq p p

namespace Unaware

variable {α β : Type} {p : Py α}

/-- What follows is unaware of the planner as well. -/
theorem bind {k : α → Py β} (hp : Unaware p) (hk : ∀ a, Unaware (k a)) : Unaware (p >>= k) :=
  fun words => (hp words).bind_eq fun a => hk a words

theorem update {f : Session → α × Session}
    (hf : ∀ (s : Session) planner, f { s with planner := planner } =
      ((f s).1, { (f s).2 with planner := planner })) : Unaware (Py.update f) := by
  refine fun words => .atomically fun d l l' hl => ?_
  have hsession := hl.session
  have hnext : f l'.session = ((f l.session).1,
      { (f l.session).2 with planner := l'.session.planner }) := by
    rw [hsession]
    exact hf _ _
  refine ⟨rfl, .ok (by rw [hnext]), ?_, hl.history, ?_⟩
  · simp only [hnext]
  · simp only [hnext]
    exact hl.upcoming

theorem own {g : Session → α}
    (hg : ∀ (s : Session) planner, g { s with planner := planner } = g s) :
    Unaware (Py.own g) := by
  refine fun words => .read fun d l l' hl => ?_
  have hsame : g l'.session = g l.session := by
    rw [hl.session]
    exact hg _ _
  exact .ok hsame.symm

/-- A transaction does not ask the planner. -/
theorem transaction (t : Database → Except PyError (α × Database)) :
    Unaware (Py.transaction t) := by
  refine fun words => .atomically fun d l l' hl => ?_
  dsimp only
  cases t d with
  | ok x => exact ⟨rfl, .ok rfl, hl⟩
  | error e => exact ⟨rfl, .error e, hl⟩

/-- What becomes known about a call has nothing to do with the planner. -/
theorem callLearns {f : Call → Call} (hf : ∀ call, (f call).unscripted = f call.unscripted) :
    Unaware (Py.callLearns f) := by
  refine fun words => .modify fun d l l' hl => ⟨rfl, hl.session, ?_, hl.upcoming⟩
  have hlearns : ∀ calls : List Call, (calls.modifyHead f).map Call.unscripted =
      (calls.map Call.unscripted).modifyHead f := by
    intro calls
    cases calls <;> simp [hf]
  rw [hlearns, hlearns, hl.history]

/-- Nor do injected changes. -/
theorem applyPreCommit (action : String) : Unaware (Py.applyPreCommit action) := by
  refine bind (update (Session.Aloof.preCommit action).planner) fun changes => ?_
  induction changes with
  | nil => exact fun _ => .ret rfl
  | cons change changes ih => exact bind (transaction _) fun _ => ih

end Unaware

/-- **Between the calls nothing takes notice of the planner.** -/
theorem unaware : Closed fun _ p => Unaware p where
  ret _ := fun _ => .ret rfl
  fail e := fun _ => .fail e
  bind := Unaware.bind
  tryCatch hp hh := fun words => (hp words).tryCatch fun e => hh e words
  query g := fun _ => .read fun d _ _ _ => .refl (g d)
  own := Unaware.own
  update hf := Unaware.update hf.planner
  callLearns {f} hf := Unaware.callLearns fun call => by
    -- a call that learns something keeps where it began
    have hsame : f call = { f call with start := call.start } := hf call call.start
    have hstart : (f call).start = call.start := by rw [hsame]
    calc (f call).unscripted
        = { f call with start := ⟨call.start.shared, call.start.own.unscripted⟩ } := by
          rw [Call.unscripted, hstart]
      _ = f call.unscripted := (hf call _).symm
  issue _ _ := Unaware.transaction _
  applyPreCommit := Unaware.applyPreCommit
  commit _ _ _ _ _ := Unaware.transaction _

/-! ## The words of a planner -/

/-- The scripted run `l'` stands where the run `o` of another planner does, with the words left. -/
def Speaks (π : Type) (words : List RawProposal) (o : Local × π) (l' : Local) : Prop :=
  o.1.Shadows words l'

/-- What takes no notice of the planner uses no words up. -/
theorem Unaware.foretold {α π : Type} {p : Py α} (hp : Unaware p) :
    Prog.Foretold (Speaks π) (p.beside π) p :=
  Prog.Lockstep.foretold fun words => (hp words).beside

namespace Runner

variable {π : Type} (r : Runner) (userRequest : String) (planner : Planner π)
variable {o : Local × π} {found : List Database}

/-- A call is answered with the next word, if that is what the planner will say. -/
theorem ask_told (attempt : Nat) (orderId : String) (o : Local × π) (found : List Database) :
    Prog.Told (Speaks π) (r.ask userRequest planner attempt orderId) (Py.propose attempt) o found
      [(planner.propose (r.context userRequest attempt orderId) o.2).1] := by
  intro rest l' hl
  refine Alike.atomically ⟨_, hl⟩ (fun _ _ h => ⟨_, h⟩) fun d => ?_
  obtain ⟨hraw, hrest⟩ := ScriptedPlanner.propose_of_upcoming hl.upcoming
  refine ⟨rfl, .ok hraw.symm, ?_, ?_, hrest⟩
  · simp only
    rw [hl.session]
  · simp only [List.map_cons, hl.history]
    rw [hraw, hl.session]
    rfl

/-- An attempt uses one word up. -/
theorem attempt_told (attempt : Nat) (orderId : String) (o : Local × π)
    (found : List Database) : ∃ raw, Prog.Told (Speaks π)
      (r.attemptWith userRequest planner attempt orderId) (r.attempt attempt orderId) o found
      [raw] := by
  rw [attempt_eq]
  exact ⟨_, (r.ask_told userRequest planner attempt orderId o found).bind fun raw o₁ unmet _ =>
    Prog.Lockstep.told (fun words => (unaware.takeUp r attempt orderId raw words).beside) o₁ unmet⟩

/-- The first loop with a planner is foretold by a script. -/
theorem plan_foretold (attempts : List Nat) (orderId : String) :
    Prog.Foretold (Speaks π) (r.planWith userRequest planner attempts orderId)
      (r.plan attempts orderId) := by
  induction attempts generalizing orderId with
  | nil => exact Prog.Lockstep.foretold fun _ => .ret rfl
  | cons n rest ih =>
      refine Prog.Foretold.bind (fun o found => ?_) fun step => ?_
      · obtain ⟨raw, hraw⟩ := r.attempt_told userRequest planner n orderId o found
        exact ⟨_, hraw⟩
      dsimp only
      split_ifs
      · exact (unaware.touch (.note _)).foretold.bind fun _ => ih _
      · exact Prog.Lockstep.foretold fun _ => .ret rfl
      · exact Prog.Lockstep.foretold fun _ => .ret rfl

/-- The planner is asked whether it has more. -/
theorem askExhausted_meet (o : Local × π) (d : Database) (found : List Database) :
    ((askExhausted planner).meet o (d :: found)).2 =
      .done (.ok (planner.exhausted o.2)) o found := rfl

/-- What the planner says to `exhausted` decides whether there are words left. -/
theorem askExhausted_exactly {α : Type} {k : Bool → Asking π α} {l : Bool → Py α}
    {o : Local × π} {d : Database} {found : List Database} {words : List RawProposal}
    (h : Prog.Exactly (Speaks π) (k (planner.exhausted o.2)) (l words.isEmpty) o found words) :
    Prog.Exactly (Speaks π) (askExhausted planner >>= k)
      (Py.own (fun s => s.planner.exhausted) >>= l) o (d :: found) words := by
  intro l' hl
  have hexhausted : l'.session.planner.exhausted = words.isEmpty := by
    rw [ScriptedPlanner.exhausted_eq, hl.upcoming]
  obtain ⟨hleft, hprogress⟩ := h l' hl
  rw [← hexhausted] at hleft hprogress
  exact ⟨congrArg (d :: ·) hleft, hprogress⟩

/-- Before the loop looks at the planner, no words are needed. -/
theorem exactly_nil {α β : Type} {g : View Database (Local × π) → Except PyError α}
    {g' : World → Except PyError α} {k : α → Asking π β} {l : α → Py β} {o : Local × π}
    {words : List RawProposal} :
    Prog.Exactly (Speaks π) (Prog.read g >>= k) (Prog.read g' >>= l) o [] words :=
  fun _ hl => ⟨rfl, .waiting ⟨words, hl⟩⟩

/-- What is done speaks no word. -/
theorem return_exactly {α : Type} (a : α) (o : Local × π) (found : List Database)
    (words : List RawProposal) :
    Prog.Exactly (Speaks π) (pure a : Asking π α) (pure a : Py α) o found words :=
  Prog.Lockstep.exactly (fun _ => .ret rfl) o found words

/-- The loop ends where the planner has no more to say, or need not say it. -/
theorem chain_stops {planned : Planned} {o : Local × π}
    (h : ¬ r.chains planned (planner.exhausted o.2) = true) (fuel : Nat) (d : Database)
    (found : List Database) :
    Prog.Exactly (Speaks π) (r.chainWith userRequest planner planned fuel) (r.chain planned 0) o
      (d :: found) [] := by
  have hover : ¬ r.chains planned true = true := by simp [chains]
  cases fuel <;>
  · refine askExhausted_exactly planner ?_
    rw [if_neg h, List.isEmpty_nil, if_neg hover]
    exact return_exactly planned o found []

/-- What a round of the loop does with its attempt. -/
def goOn (planned : Planned) (fuel : Nat) (step : Attempt × String) : Py Planned :=
  if step.1.replan ∨ step.1.escalateAfterReplan then return { planned with orderId := step.2 }
  else r.chain { planned with outcome := step.1.outcome, reasonCode := step.1.reasonCode,
                              orderId := step.2 } fuel

/-- How the second loop goes on behind an attempt. -/
def goOnWith (planned : Planned) (fuel : Nat) (step : Attempt × String) : Asking π Planned :=
  if step.1.replan ∨ step.1.escalateAfterReplan then return { planned with orderId := step.2 }
  else r.chainWith userRequest planner
    { planned with outcome := step.1.outcome, reasonCode := step.1.reasonCode,
                   orderId := step.2 } fuel

/-- The loop uses as many words up as it makes rounds. -/
theorem chain_exactly (planned : Planned) (fuel : Nat) (o : Local × π) (found : List Database)
    (h : ¬ (r.chainWith userRequest planner planned fuel).Raises .outOfFuel o found) :
    ∃ words, Prog.Exactly (Speaks π) (r.chainWith userRequest planner planned fuel)
      (r.chain planned words.length) o found words := by
  induction fuel generalizing planned o found with
  | zero =>
      cases found with
      | nil => exact ⟨[], exactly_nil⟩
      | cons d found =>
          by_cases hgo : r.chains planned (planner.exhausted o.2) = true
          · refine (h ⟨o, found, ?_⟩).elim
            simp [chainWith, askExhausted, Prog.read, Prog.ofExcept, hgo]
          · exact ⟨[], r.chain_stops userRequest planner hgo 0 d found⟩
  | succ fuel ih =>
      cases found with
      | nil => exact ⟨[], exactly_nil⟩
      | cons d found =>
          by_cases hgo : r.chains planned (planner.exhausted o.2) = true
          · have hmore : planner.exhausted o.2 = false := by
              simp only [chains, Bool.and_eq_true, Bool.not_eq_true'] at hgo
              exact hgo.2
            obtain ⟨raw, hraw⟩ := r.attempt_told userRequest planner 1 planned.orderId o found
            -- what follows the attempt needs words of its own
            obtain ⟨words, hwords⟩ := Prog.exists_words _ o found (P := fun step o₁ unmet words =>
                Prog.Exactly (Speaks π) (r.goOnWith userRequest planner planned fuel step)
                  (r.goOn planned words.length step) o₁ unmet words) fun step o₁ unmet hdone => by
              unfold goOnWith goOn
              split_ifs with hstale
              · exact ⟨[], return_exactly _ o₁ unmet []⟩
              refine ih _ o₁ unmet fun hraises => h ?_
              have hround : (r.goOnWith userRequest planner planned fuel step).Raises
                  .outOfFuel o₁ unmet := by
                rw [goOnWith, if_neg hstale]
                exact hraises
              refine Prog.Raises.after (askExhausted_meet planner o d found) ?_
              rw [if_pos hgo]
              exact Prog.Raises.after hdone hround
            refine ⟨raw :: words, askExhausted_exactly planner ?_⟩
            rw [if_pos hgo]
            rw [hmore] at hgo
            rw [List.isEmpty_cons, if_pos hgo]
            exact hraw.bind_exactly hwords
          · exact ⟨[], r.chain_stops userRequest planner hgo _ d found⟩

/-- The round limit of a scripted run is what its script has left. -/
theorem own_exactly {α : Type} {k : Nat → Asking π α} {l : Nat → Py α} {fuel : Nat}
    {o : Local × π} {found : List Database}
    (h : ∀ d unmet, found = d :: unmet →
      ∃ words, Prog.Exactly (Speaks π) (k fuel) (l words.length) o unmet words) :
    ∃ words, Prog.Exactly (Speaks π) ((Py.own fun _ => fuel).beside π >>= k)
      (Py.own (fun s => s.planner.remaining) >>= l) o found words := by
  cases found with
  | nil => exact ⟨[], fun _ hl => ⟨rfl, .waiting ⟨[], hl⟩⟩⟩
  | cons d found =>
      obtain ⟨words, hwords⟩ := h d found rfl
      refine ⟨words, fun l' hl => ?_⟩
      have hleft : l'.session.planner.remaining = words.length := by
        rw [ScriptedPlanner.remaining_eq, hl.upcoming]
      obtain ⟨hstores, hprogress⟩ := hwords l' hl
      rw [← hleft] at hstores hprogress
      exact ⟨congrArg (d :: ·) hstores, hprogress⟩

/-- **What a planner says in a run can be foretold as a script.** -/
theorem run_exactly (fuel : Nat) (o : Local × π) (found : List Database)
    (h : ¬ (r.runWith userRequest planner fuel).Raises .outOfFuel o found) :
    ∃ words, Prog.Exactly (Speaks π) (r.runWith userRequest planner fuel) r.run o found words := by
  unfold runWith run at *
  refine (unaware.emit _ _).foretold.bind_exactly h fun _ o₁ found h => ?_
  refine (r.plan_foretold userRequest planner _ _).bind_exactly h fun planned o₂ found h => ?_
  refine (unaware.handOver r planned).foretold.bind_exactly h fun _ o₃ found h => ?_
  refine own_exactly fun d unmet hfound => ?_
  subst hfound
  have hloop : ¬ (r.chainWith userRequest planner planned fuel).Raises .outOfFuel o₃ unmet := by
    intro hraises
    have hlimit : (((Py.own fun _ => fuel).beside π).meet o₃ (d :: unmet)).2 =
        .done (.ok fuel) o₃ unmet := rfl
    exact h (Prog.Raises.after hlimit hraises.bind)
  obtain ⟨words, hwords⟩ := r.chain_exactly userRequest planner planned fuel o₃ unmet hloop
  refine ⟨words, hwords.bind fun planned o₄ found words _ => ?_⟩
  refine Prog.Lockstep.exactly (fun words => ?_) o₄ found words
  dsimp only
  split_ifs
  · exact .bind_eq (unaware.replay r words).beside fun _ => (unaware.finish r planned words).beside
  · exact (unaware.finish r planned words).beside

end Runner

/-! ## Pools of runs with planners -/

/-- Runs on one database, each with a planner of its own. -/
structure Conversations (ι π : Type) where
  runners : ι → Runner
  userRequests : ι → String
  planners : ι → Planner π
  kept : ι → π
  failures : ι → FailureSpec

namespace Conversations

variable {ι π : Type} (talks : Conversations ι π)

/-- The pool of the runs, before any of them has begun; each loop is followed for `fuel` rounds. -/
def pool (fuel : Nat) (db : Database) : Pool ι PyError Database (Local × π) RunReport where
  shared := db
  threads i :=
    ⟨((talks.runners i).start [] (talks.failures i), talks.kept i),
      (talks.runners i).runWith (talks.userRequests i) (talks.planners i) fuel⟩

/-- The same runs with scripts for planners. -/
def scripted (scripts : ι → List RawProposal) : Runs ι where
  runners := talks.runners
  proposals := scripts
  failures := talks.failures

end Conversations

/-- **Any planner is a script.**  Take runs with any planners on one database, in any interleaving
with each other and with whatever else writes there, as far as the loops are followed.  There are
scripts with which the same runs get to the same database, with the same answers, the same
permits, traces, notes and reports, and the same proposals taken up. -/
theorem Conversations.planner_is_script {ι π : Type} [DecidableEq ι]
    {E : Database → Database → Prop}
    (talks : Conversations ι π) (fuel : Nat) (db : Database)
    {c : Pool ι PyError Database (Local × π) RunReport}
    (h : (talks.pool fuel db).Reaches E c)
    (hfuel : ∀ i, (c.threads i).answer ≠ some (.error .outOfFuel)) :
    ∃ (scripts : ι → List RawProposal) (c' : Pool ι PyError Database Local RunReport),
      ((talks.scripted scripts).pool db).Reaches E c' ∧ c'.shared = c.shared ∧
      ∀ i, (c'.threads i).answer = (c.threads i).answer ∧
        (c'.threads i).own.unscripted = (c.threads i).own.1.unscripted := by
  obtain ⟨found, hstands, hfollow⟩ := Pool.reaches_alike Local RunReport h
  -- the script of a run is what its planner says to the stores the run has found
  have hscript : ∀ i, ∃ words, Prog.Exactly (Speaks π)
      ((talks.runners i).runWith (talks.userRequests i) (talks.planners i) fuel)
      (talks.runners i).run ((talks.runners i).start [] (talks.failures i), talks.kept i) (found i)
      words := by
    intro i
    refine (talks.runners i).run_exactly _ _ fuel _ (found i) ?_
    rintro ⟨o, unmet, hmeet⟩
    refine hfuel i ?_
    have := hstands i
    rw [Thread.meet] at this
    simp only [Conversations.pool] at this
    rw [hmeet] at this
    exact this.2
  choose scripts hscripts using hscript
  have halike := fun i => hscripts i ((talks.runners i).start (scripts i) (talks.failures i))
    ⟨rfl, rfl, rfl⟩
  obtain ⟨c', hreach, hshared, hstands'⟩ := hfollow ((talks.scripted scripts).pool db) rfl
    fun i => (halike i).left
  refine ⟨scripts, c', hreach, hshared, fun i => ?_⟩
  obtain ⟨⟨words, hshadows⟩, hanswer⟩ := (halike i).progress.standsAt (hstands i) (hstands' i)
  exact ⟨hanswer, hshadows.unscripted⟩

/-! ## A planner that never gives up -/

/-- It wants the order it is shown cancelled, again and again. -/
def stubborn : Planner Nat where
  propose context made :=
    (.mapping [("action", .str "cancel_order"), ("order_id", .str context.orderId),
      ("reason", .str ("asking " ++ toString context.attempt))], made + 1)
  exhausted _ := false

/-- Two runs on one order with such planners. -/
def stubbornRuns : Conversations Bool Nat where
  runners b :=
    { clock := fun _ => defaultClockBase, runId := if b then "run_b" else "run_a"
      scenarioId := "stubborn", defaultOrderId := "ord_0001", chainProposals := true }
  userRequests _ := "cancel it"
  planners _ := stubborn
  kept _ := 0
  failures _ := {}

/-- The first run has ended: its second round was refused. -/
def refusedAtLast : Pool Bool PyError Database (Local × Nat) RunReport :=
  (fun c => c.next false)^[100] (stubbornRuns.pool 5 (seedWorld [("ord_0001", .paid)]))

/-- Neither run has run out of fuel. -/
theorem refusedAtLast_ended (i : Bool) :
    (refusedAtLast.threads i).answer ≠ some (.error .outOfFuel) := by
  have hanswer : ((refusedAtLast.threads false).answer.bind fun answer =>
      answer.toOption.map RunReport.outcome) = some .denied := by decide +kernel
  have hwaits : (refusedAtLast.threads true).answer.isNone = true := by decide +kernel
  intro h
  cases i with
  | false =>
      rw [h] at hanswer
      cases hanswer
  | true =>
      rw [h] at hwaits
      cases hwaits

/-- A planner that insists is a script that repeats itself. -/
theorem planner_is_script_stubborn :
    ∃ (scripts : Bool → List RawProposal) (c' : Pool Bool PyError Database Local RunReport),
      ((stubbornRuns.scripted scripts).pool (seedWorld [("ord_0001", .paid)])).Reaches Later c' ∧
      c'.shared = refusedAtLast.shared ∧
      ∀ i, (c'.threads i).answer = (refusedAtLast.threads i).answer ∧
        (c'.threads i).own.unscripted = (refusedAtLast.threads i).own.1.unscripted :=
  stubbornRuns.planner_is_script 5 _ (Pool.reaches_iterate _ false 100) refusedAtLast_ended

end BoundedRefund
