import BoundedRefund.Session

/-!
# The grammar of a trace

Which event may follow which.  `Stage.follow` is the automaton: a request is answered proposal
by proposal, a proposal is validated before the policy sees it, a permit is issued for what the
policy allowed, for what it hands to a person, or after a second refusal as stale, and is
presented at once.  The first proposal of a run may be replanned, once and after a refusal as
stale only; other proposals follow on one that was carried out.  After a rejection, a denial or a
hand-over no further proposal is taken up; what may still happen is that the last permit of a
proposal is presented again, and the verification.

What a trace has come to tells what it has been through (`Stage.past`): no permit is presented
without a validated proposal, a decision of the policy on it and a permit issued after that.  The
policy announces a hand-over as it does an allowed proposal, so the decision counts as well
(`Stage.mark`): a permit is presented behind an allowed proposal, or it is the ticket of a
hand-over that was announced right before (`Stage.authorised_of_attempted`).
-/

namespace BoundedRefund

open Concurrent

/-! ## The automaton -/

/-- Which proposal of its run a proposal is. -/
inductive Round
  | first
  /-- The one asked for after stale state. -/
  | replanned
  /-- One that follows on a proposal that was carried out. -/
  | chained
deriving DecidableEq, Repr

/-- The number of the attempt, as the run counts them. -/
def Round.attempt : Round → Nat
  | first | chained => 1
  | replanned => 2

/-- What a trace has come to.  `left` is how often the permit that was presented last may still
be presented again. -/
inductive Phase
  | opened
  | asked
  | proposed
  | validated
  | allowed
  | escalated
  /-- A permit stands ready, for a proposal or for the ticket of a hand-over. -/
  | permitted (ticket : Bool)
  | attempted (ticket : Bool) (left : Nat)
  /-- A proposal was carried out, or its stored result came back. -/
  | written (left : Nat)
  /-- The executor refused a proposal, as stale or for another reason. -/
  | refused (stale : Bool) (left : Nat)
  /-- No further proposal is taken up. -/
  | closed (left : Nat)
  | verified
  | finished
deriving DecidableEq, Repr

/-- The phase, the round of the last proposal, and whether a permit was issued for a proposal
the policy allowed. -/
structure Stage where
  phase : Phase := .opened
  round : Round := .first
  granted : Bool := false
deriving DecidableEq, Repr

namespace Stage

/-- The decision an event of the policy carries. -/
def decision (fields : EventFields) : Option PlainValue := fields.extra.lookup "decision"

/-- A proposal is taken up under the number of its attempt. -/
def propose (s : Stage) (fields : EventFields) (round : Round) : Option Stage :=
  if fields.extra.lookup "attempt" = some (.int round.attempt) then
    some { s with phase := .proposed, round }
  else none

/-- A permit is presented again only where one was granted. -/
def again (s : Stage) (phase : Phase) : Option Stage :=
  if s.granted then some { s with phase } else none

/-- The stage behind an event, if the event may come now. -/
def follow (s : Stage) (fields : EventFields) : Option Stage :=
  match s.phase, fields.eventType with
  | .opened, .userRequestReceived => some { s with phase := .asked }
  | .asked, .proposalCreated => s.propose fields .first
  | .proposed, .proposalRejected => some { s with phase := .closed 1 }
  | .proposed, .proposalValidated => some { s with phase := .validated }
  | .validated, .policyDenied => some { s with phase := .closed 1 }
  | .validated, .policyAllowed =>
      if decision fields = some (.str (str Decision.allow)) then
        some { s with phase := .allowed }
      else if decision fields = some (.str (str Decision.escalate)) then
        some { s with phase := .escalated }
      else none
  | .allowed, .permitIssued => some { s with phase := .permitted false, granted := true }
  | .escalated, .permitIssued => some { s with phase := .permitted true }
  | .escalated, .mutationAttempted => s.again (.attempted true 0)
  | .escalated, .stateVerified => some { s with phase := .verified }
  | .permitted true, .mutationAttempted => some { s with phase := .attempted true 1 }
  | .permitted false, .mutationAttempted => some { s with phase := .attempted false 2 }
  | .attempted false left, .mutationCommitted => some { s with phase := .written left }
  | .attempted false left, .mutationReplayed => some { s with phase := .written (min left 1) }
  | .attempted false left, .mutationRejected =>
      some { s with
        phase := .refused (fields.reasonCode = some .staleResourceVersion) (min left 1) }
  | .attempted true left, .mutationCommitted => some { s with phase := .closed left }
  | .attempted true left, .mutationReplayed => some { s with phase := .closed left }
  | .attempted true left, .mutationRejected => some { s with phase := .closed left }
  | .written _, .proposalCreated => s.propose fields .chained
  | .written (left + 1), .mutationAttempted => s.again (.attempted false left)
  | .written _, .stateVerified => some { s with phase := .verified }
  -- stale state is planned again once, and then handed over
  | .refused stale _, .proposalCreated =>
      if stale = true ∧ s.round = .first then s.propose fields .replanned else none
  | .refused stale _, .permitIssued =>
      if stale = true ∧ s.round = .replanned then s.again (.permitted true) else none
  | .refused _ (left + 1), .mutationAttempted => s.again (.attempted true left)
  | .refused _ _, .stateVerified => some { s with phase := .verified }
  | .closed (left + 1), .mutationAttempted => s.again (.attempted true left)
  | .closed _, .stateVerified => some { s with phase := .verified }
  | .verified, .runFinished => some { s with phase := .finished }
  | _, _ => none

/-- The stage behind a whole trace. -/
def after (events : List Event) : Option Stage :=
  events.foldlM (fun s event => s.follow event.toEventFields) {}

/-- The stage behind one event more. -/
theorem after_concat (events : List Event) (event : Event) :
    after (events ++ [event]) = (after events).bind fun s => s.follow event.toEventFields := by
  simp [after, List.foldlM_append]

/-! ## What a trace has been through -/

/-- What counts of an event: its type, and what the policy decided. -/
abbrev Mark := EventType × Option PlainValue

/-- The mark of an event. -/
def mark (fields : EventFields) : Mark :=
  (fields.eventType, if fields.eventType = .policyAllowed then decision fields else none)

/-- The marks of a trace. -/
def marks (events : List Event) : List Mark := events.map fun event => mark event.toEventFields

/-- What stands behind every permit that is presented, under the decision of the policy. -/
def authority (d : Decision) : List Mark :=
  [(.userRequestReceived, none), (.proposalCreated, none), (.proposalValidated, none),
    (.policyAllowed, some (.str (str d))), (.permitIssued, none)]

/-- What must have happened before a stage, in this order. -/
def past (s : Stage) : List Mark :=
  if s.granted then authority .allow
  else
    match s.phase with
    | .opened => []
    | .asked => (authority .allow).take 1
    | .proposed => (authority .allow).take 2
    | .validated => (authority .allow).take 3
    | .allowed => (authority .allow).take 4
    | .escalated => (authority .escalate).take 4
    | .permitted false | .attempted false _ | .written _ | .refused _ _ => authority .allow
    | .permitted true | .attempted true _ => authority .escalate
    | .closed _ | .verified | .finished => (authority .allow).take 2

/-- A permit may be presented: a proposal was allowed before, or the policy handed one over and
the permit of the ticket was issued right behind its event. -/
def Authorised (before : List Event) : Prop :=
  (authority .allow).Sublist (marks before) ∨
    ∃ earlier, ((authority .escalate).take 3).Sublist earlier ∧
      marks before = earlier ++ (authority .escalate).drop 3

/-- What is presented again was granted. -/
theorem again_eq_some {s s' : Stage} {phase : Phase} (h : s.again phase = some s') :
    s.granted = true ∧ s' = { s with phase } := by
  unfold again at h
  split_ifs at h with hgranted
  cases h
  exact ⟨hgranted, rfl⟩

/-- Behind a proposal there is a proposal of its round. -/
theorem propose_eq_some {s s' : Stage} {fields : EventFields} {round : Round}
    (h : s.propose fields round = some s') : s' = { s with phase := .proposed, round } := by
  unfold propose at h
  split_ifs at h
  cases h
  rfl

/-- An event adds at most its mark to what must have happened. -/
theorem past_follow {s s' : Stage} {fields : EventFields} (h : s.follow fields = some s') :
    s'.past.Sublist (s.past ++ [mark fields]) := by
  obtain ⟨phase, round, granted⟩ := s
  -- once a permit was granted, every phase rests on its authority
  have hkeep : ∀ phase' round', granted = true →
      (past ⟨phase', round', granted⟩).Sublist
        (past ⟨phase, round, granted⟩ ++ [mark fields]) := by
    rintro phase' round' rfl
    exact List.sublist_append_left _ _
  unfold follow at h
  split at h
  case h_29 => cases h
  all_goals
    rename_i hphase htype
    dsimp only at hphase
    subst hphase
    try split_ifs at h
  all_goals first
    | -- a permit is presented again, or the ticket of a second refusal
      obtain ⟨hgranted, rfl⟩ := again_eq_some h
      exact hkeep _ _ hgranted
    | -- what must have happened grows by the event, or stays
      first | obtain rfl := propose_eq_some h | cases h
      cases granted with
      | true => exact hkeep _ _ rfl
      | false => simp_all [past, authority, mark]

/-- Who is handed over was judged so, or a proposal was allowed before. -/
theorem follow_permitted {s : Stage} {fields : EventFields} {round : Round}
    (h : s.follow fields = some ⟨.permitted true, round, false⟩) :
    s.phase = .escalated ∧ s.granted = false ∧ mark fields = (.permitIssued, none) := by
  obtain ⟨phase, round, granted⟩ := s
  unfold follow at h
  split at h
  case h_29 => cases h
  all_goals
    rename_i hphase htype
    dsimp only at hphase
    subst hphase
    try split_ifs at h
  all_goals first
    | -- a ticket behind stale state has a granted permit before it
      obtain ⟨rfl, hs⟩ := again_eq_some h
      cases hs
    | have hs := propose_eq_some h
      cases hs
    | simp_all [mark]

/-- A hand-over is announced behind a proposal that was validated. -/
theorem follow_escalated {s s' : Stage} {fields : EventFields}
    (h : s.follow fields = some s') (hphase : s'.phase = .escalated) :
    s.phase = .validated ∧ s'.granted = s.granted ∧
      mark fields = (.policyAllowed, some (.str (str Decision.escalate))) := by
  obtain ⟨phase, round, granted⟩ := s
  unfold follow at h
  split at h
  case h_29 => cases h
  all_goals
    rename_i hphase htype
    dsimp only at hphase
    subst hphase
    try split_ifs at h
  all_goals first
    | obtain ⟨-, rfl⟩ := again_eq_some h
      cases hphase
    | obtain rfl := propose_eq_some h
      cases hphase
    | cases h
      simp_all [mark]

/-- A permit is presented where one was granted, or where the ticket of a hand-over is ready. -/
theorem follow_attempted {s s' : Stage} {fields : EventFields} (h : s.follow fields = some s')
    (htype : fields.eventType = .mutationAttempted) :
    s.past = authority .allow ∨ s.phase = .permitted true ∧ s.granted = false := by
  obtain ⟨phase, round, granted⟩ := s
  unfold follow at h
  rw [htype] at h
  split at h
  case h_29 => cases h
  all_goals
    rename_i hphase hevent
    dsimp only at hphase
    subst hphase
  all_goals first
    | exact absurd hevent (by decide)
    | exact .inl (if_pos (again_eq_some h).1)
    | cases granted <;> simp [past]

/-- A trace comes to its end from where a part of it came to. -/
theorem after_append {before rest : List Event} {s : Stage}
    (h : after (before ++ rest) = some s) : ∃ s₀, after before = some s₀ ∧
      rest.foldlM (fun s event => s.follow event.toEventFields) s₀ = some s := by
  unfold after at h ⊢
  rw [List.foldlM_append] at h
  exact Option.bind_eq_some_iff.mp h

/-- What the last event followed on. -/
theorem after_concat_eq_some {events : List Event} {event : Event} {s : Stage}
    (h : after (events ++ [event]) = some s) :
    ∃ s₀, after events = some s₀ ∧ s₀.follow event.toEventFields = some s :=
  Option.bind_eq_some_iff.mp ((after_concat events event).symm.trans h)

/-- An event adds its mark. -/
theorem marks_concat (events : List Event) (event : Event) :
    marks (events ++ [event]) = marks events ++ [mark event.toEventFields] :=
  List.map_append

/-- What must have happened did, in this order. -/
theorem past_after {events : List Event} {s : Stage} (h : after events = some s) :
    s.past.Sublist (marks events) := by
  induction events using List.reverseRecOn generalizing s with
  | nil =>
      cases h
      exact List.Sublist.refl []
  | append_singleton events event ih =>
      obtain ⟨s₀, hs₀, hfollow⟩ := after_concat_eq_some h
      rw [marks_concat]
      exact (past_follow hfollow).trans ((ih hs₀).append (List.Sublist.refl _))

/-- Where the ticket of a hand-over is ready and nothing was granted before, the hand-over was
announced one event before. -/
theorem handed_after {events : List Event} {round : Round}
    (h : after events = some ⟨.permitted true, round, false⟩) :
    ∃ earlier, ((authority .escalate).take 3).Sublist earlier ∧
      marks events = earlier ++ (authority .escalate).drop 3 := by
  rcases events.eq_nil_or_concat' with rfl | ⟨events, event, rfl⟩
  · cases h
  obtain ⟨s, hs, hfollow⟩ := after_concat_eq_some h
  obtain ⟨hphase, hgranted, hmark⟩ := follow_permitted hfollow
  rcases events.eq_nil_or_concat' with rfl | ⟨events, event', rfl⟩
  · cases hs
    cases hphase
  obtain ⟨s₀, hs₀, hfollow₀⟩ := after_concat_eq_some hs
  obtain ⟨hphase₀, hgranted₀, hmark₀⟩ := follow_escalated hfollow₀ hphase
  refine ⟨marks events, ?_, ?_⟩
  · have hpast := past_after hs₀
    rw [past, if_neg (by simp [← hgranted₀, hgranted]), hphase₀] at hpast
    exact hpast
  · rw [marks_concat, marks_concat, hmark, hmark₀, List.append_assoc]
    rfl

/-- **Every presentation of a permit is authorised**: behind a validated proposal that was
allowed and the issue of its permit, in this order, or as the ticket of a hand-over. -/
theorem authorised_of_attempted {before rest : List Event} {event : Event} {s : Stage}
    (h : after (before ++ event :: rest) = some s)
    (htype : event.eventType = .mutationAttempted) : Authorised before := by
  obtain ⟨s₀, hs₀, hrest⟩ := after_append h
  rw [List.foldlM_cons] at hrest
  obtain ⟨s₁, hfollow, -⟩ := Option.bind_eq_some_iff.mp hrest
  rcases follow_attempted hfollow htype with hpast | ⟨hphase, hgranted⟩
  · exact .inl (hpast ▸ past_after hs₀)
  · obtain ⟨phase, round, granted⟩ := s₀
    cases hphase
    cases hgranted
    exact .inr (handed_after hs₀)

end Stage

end BoundedRefund
