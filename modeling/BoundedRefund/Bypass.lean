import BoundedRefund.Allotment.Market
import BoundedRefund.FreeText
import BoundedRefund.Observation

/-!
# The bypass detector

The evaluation looks for mutations with no consumed permit behind them (`countPolicyBypass`).  It
goes through the mutations and claims for each of them the first permit of its action and its
resource that is not claimed yet.  Only then does it ask whether that permit was used and whether
its ceiling was high enough.

So it reports nothing exactly if the mutations are served in order (`countPolicyBypass_eq_nil`).
That every mutation has a permit of its own does not ensure it: a refund that was refused as
stale leaves its permit unused in front of the permit of the next attempt, and the refund that
commits then is held against the first (`replanned_refund_reported`).  The detector and the
assignments agree on everything else (`countPolicyBypass_exact_iff`).
-/

namespace BoundedRefund

open Allotment Concurrent Relational

/-! ## The detector -/

/-- An entry of `available`: a permit and its mark. -/
structure AvailablePermit extends ObservedPermit where
  claimed : Bool := false

/-- What a mutation without a permit of its own is counted as. -/
inductive PolicyBypass where
  | mutationWithoutPermit (mutation : ObservedMutation)
  | permitNotConsumed (permitId : String) (mutation : ObservedMutation)
  | amountOverPermit (permitId : String) (maxAmountCents : Int) (mutation : ObservedMutation)
deriving DecidableEq, Repr

/-- Not claimed yet, and for the action and the resource of the mutation. -/
def AvailablePermit.isFor (permit : AvailablePermit) (mutation : ObservedMutation) : Bool :=
  !permit.claimed && permit.action == mutation.action &&
    permit.resourceId == mutation.resourceId

/-- The permit that is claimed for a mutation, and `available` with its mark. -/
def claim (mutation : ObservedMutation) :
    List AvailablePermit → Option (ObservedPermit × List AvailablePermit)
  | [] => none
  | permit :: available =>
      if permit.isFor mutation then
        some (permit.toObservedPermit, { permit with claimed := true } :: available)
      else
        (claim mutation available).map fun (found, available) => (found, permit :: available)

/-- What is wrong with the permit that was claimed. -/
def permitBypasses (permit : ObservedPermit) (mutation : ObservedMutation) : List PolicyBypass :=
  (if permit.used then [] else [.permitNotConsumed permit.permitId mutation]) ++
    if permit.maxAmountCents < mutation.amountCents then
      [.amountOverPermit permit.permitId permit.maxAmountCents mutation]
    else []

/-- The loop over the mutations. -/
def mutationBypasses : List AvailablePermit → List ObservedMutation → List PolicyBypass
  | _, [] => []
  | available, mutation :: mutations =>
      match claim mutation available with
      | none => .mutationWithoutPermit mutation :: mutationBypasses available mutations
      | some (permit, available) =>
          permitBypasses permit mutation ++ mutationBypasses available mutations

/-- `count_policy_bypass`. -/
def countPolicyBypass (observed : Observation) : List PolicyBypass :=
  mutationBypasses (observed.permits.map fun permit => { permit with }) observed.mutations

/-! ## What it decides -/

/-- A consumed permit for this mutation, with a ceiling that is high enough. -/
def ObservedPermit.Backs (permit : ObservedPermit) (mutation : ObservedMutation) : Prop :=
  permit.used = true ∧ permit.action = mutation.action ∧
    permit.resourceId = mutation.resourceId ∧ mutation.amountCents ≤ permit.maxAmountCents

/-- Mutations are the demands, permits the supplies.  A used permit fits amounts up to its
ceiling. -/
def permitMarket : Market ObservedMutation ObservedPermit (String × String) Int where
  kind mutation := (mutation.action, mutation.resourceId)
  amount := ObservedMutation.amountCents
  stock permit := (permit.action, permit.resourceId)
  fits permit amount := permit.used = true ∧ amount ≤ permit.maxAmountCents
  antitone _ _ _ hle h := ⟨h.1, hle.trans h.2⟩

instance (permit : ObservedPermit) : DecidablePred (permitMarket.fits permit) :=
  fun _ => inferInstanceAs (Decidable (_ ∧ _))

/-- A permit covers a mutation in the market when it backs it. -/
theorem permitMarket_covers_iff {permit : ObservedPermit} {mutation : ObservedMutation} :
    permitMarket.Covers permit mutation ↔ permit.Backs mutation := by
  simp only [Market.Covers, permitMarket, ObservedPermit.Backs, Prod.mk.injEq]
  tauto

/-- The permits that are not claimed yet. -/
def unclaimed (available : List AvailablePermit) : List ObservedPermit :=
  (available.filter fun permit => !permit.claimed).map AvailablePermit.toObservedPermit

/-- Which permits are left, one by one. -/
theorem unclaimed_cons (permit : AvailablePermit) (available : List AvailablePermit) :
    unclaimed (permit :: available) =
      if permit.claimed then unclaimed available
      else permit.toObservedPermit :: unclaimed available := by
  cases h : permit.claimed <;> simp [unclaimed, h]

/-- The evaluation looks for an unclaimed permit of the mutation's kind. -/
theorem AvailablePermit.isFor_eq (permit : AvailablePermit) (mutation : ObservedMutation) :
    permit.isFor mutation = (!permit.claimed && decide
      (permitMarket.stock permit.toObservedPermit = permitMarket.kind mutation)) := by
  rw [Bool.eq_iff_iff]
  simp [AvailablePermit.isFor, permitMarket, and_assoc]

/-- The permit that is claimed is the first one left that is of the mutation's kind. -/
theorem claim_eq (mutation : ObservedMutation) (available : List AvailablePermit) :
    (claim mutation available).map (fun claimed => (claimed.1, unclaimed claimed.2)) =
      ((unclaimed available).find? fun permit =>
        permitMarket.stock permit = permitMarket.kind mutation).map fun permit =>
          (permit, (unclaimed available).eraseP fun permit =>
            permitMarket.stock permit = permitMarket.kind mutation) := by
  induction available with
  | nil => rfl
  | cons permit available ih =>
      rw [unclaimed_cons, claim, AvailablePermit.isFor_eq]
      cases hclaimed : permit.claimed with
      | true =>
          -- passed over, and not among those left
          rw [if_neg (by simp), if_pos rfl, ← ih, Option.map_map]
          simp [Function.comp_def, unclaimed_cons, hclaimed]
      | false =>
          simp only [Bool.not_false, Bool.true_and, Bool.false_eq_true, if_false]
          by_cases hkind : permitMarket.stock permit.toObservedPermit = permitMarket.kind mutation
          · simp [hkind, unclaimed_cons]
          · rw [if_neg (by simpa using hkind), List.find?_cons_of_neg (by simpa using hkind),
              List.eraseP_cons_of_neg (by simpa using hkind), Option.map_map]
            have hmap := congrArg (Option.map fun claimed : ObservedPermit × List ObservedPermit =>
              (claimed.1, permit.toObservedPermit :: claimed.2)) ih
            rw [Option.map_map, Option.map_map] at hmap
            simpa [Function.comp_def, unclaimed_cons, hclaimed] using hmap

/-- The claimed permit is found to be in order when it fits. -/
theorem permitBypasses_eq_nil {permit : ObservedPermit} {mutation : ObservedMutation} :
    permitBypasses permit mutation = [] ↔
      permitMarket.fits permit (permitMarket.amount mutation) := by
  simp [permitBypasses, permitMarket]

/-- **The detector serves in order.** -/
theorem mutationBypasses_eq_nil (available : List AvailablePermit)
    (mutations : List ObservedMutation) :
    mutationBypasses available mutations = [] ↔
      permitMarket.InOrder mutations (unclaimed available) := by
  induction mutations generalizing available with
  | nil => exact iff_of_true rfl (Market.inOrder_nil _)
  | cons mutation mutations ih =>
      have hclaim := claim_eq mutation available
      rw [Market.inOrder_cons, mutationBypasses]
      cases hfound : claim mutation available with
      | none =>
          rw [hfound] at hclaim
          have hnone := Option.map_eq_none_iff.mp hclaim.symm
          simp [hnone]
      | some claimed =>
          obtain ⟨permit, left⟩ := claimed
          rw [hfound] at hclaim
          obtain ⟨first, hfirst, heq⟩ := Option.map_eq_some_iff.mp hclaim.symm
          obtain ⟨rfl, hleft⟩ := Prod.mk.inj heq
          simp [hfirst, hleft, permitBypasses_eq_nil, ih]

/-- Nothing is counted exactly where the market is in order. -/
theorem countPolicyBypass_eq_nil (observed : Observation) :
    countPolicyBypass observed = [] ↔
      permitMarket.InOrder observed.mutations observed.permits := by
  rw [countPolicyBypass, mutationBypasses_eq_nil]
  have hall : unclaimed (observed.permits.map fun permit => { permit with }) =
      observed.permits := by
    induction observed.permits with
    | nil => rfl
    | cons permit permits ih => simpa [unclaimed_cons] using ih
  rw [hall]

/-! ## Where it is exact -/

/-- Every mutation has a permit of its own if the market has an assignment. -/
theorem exists_backing_iff {mutations : List ObservedMutation} {permits : List ObservedPermit} :
    (∃ assign : Fin mutations.length → Fin permits.length, Function.Injective assign ∧
      ∀ i, permits[assign i].Backs mutations[i]) ↔ permitMarket.Assigned mutations permits := by
  simp only [Market.Assigned, permitMarket_covers_iff]

/-- **The exact detector.**  It agrees with the assignments of the mutations to consumed permits
exactly if some mutation is one of too many, or the mutations are served in order. -/
theorem countPolicyBypass_exact_iff (observed : Observation) :
    (countPolicyBypass observed = [] ↔
      ∃ assign : Fin observed.mutations.length → Fin observed.permits.length,
        Function.Injective assign ∧
          ∀ i, observed.permits[assign i].Backs observed.mutations[i]) ↔
      permitMarket.Short observed.mutations observed.permits ∨
        permitMarket.InOrder observed.mutations observed.permits := by
  rw [countPolicyBypass_eq_nil, exists_backing_iff]
  constructor
  · intro h
    by_cases hshort : permitMarket.Short observed.mutations observed.permits
    · exact .inl hshort
    · exact .inr (h.mpr (Market.assigned_iff.mpr hshort))
  · rintro (hshort | horder)
    · exact iff_of_false (fun horder => horder.not_short hshort)
        fun hassigned => hassigned.not_short hshort
    · exact iff_of_true horder horder.assigned

/-- A refund whose payment is touched once before it commits; the agent plans it again. -/
def replannedRefund : ScenarioSpec where
  clock := FixedClock.now { base := defaultClockBase }
  runId := "run_first"
  scenarioId := "replanned"
  defaultOrderId := "ord_0001"
  allowReplanOnStale := true
  world := seedWorld [("ord_0001", .delivered)]
  proposals := [.proposal refundFirst, .proposal refundFirst]
  failures := { preCommitChanges := [("issue_refund",
    [{ resource := "payment", resourceId := "pay_ord_0001" }])] }

/-- What the evaluation observes behind a refund that was replanned. -/
def replannedObserved : Observation :=
  (runScenario replannedRefund).2.shared.observe "run_first" "ord_0001"

/-- The refund of the second attempt has a permit of its own, and is reported for the one of the
first. -/
theorem replanned_refund_reported :
    (runScenario replannedRefund).1.map (fun report => report.outcome) = .ok .completed ∧
    countPolicyBypass replannedObserved =
      [.permitNotConsumed "prm_run_first_001" ⟨"issue_refund", "pay_ord_0001", 5000⟩] ∧
    ¬ (countPolicyBypass replannedObserved = [] ↔
      ∃ assign : Fin replannedObserved.mutations.length → Fin replannedObserved.permits.length,
        Function.Injective assign ∧
          ∀ i, replannedObserved.permits[assign i].Backs replannedObserved.mutations[i]) := by
  have hreported : countPolicyBypass replannedObserved =
      [.permitNotConsumed "prm_run_first_001" ⟨"issue_refund", "pay_ord_0001", 5000⟩] := by
    decide +kernel
  refine ⟨by decide +kernel, hreported, fun h => ?_⟩
  have hbacked : ∀ mutation ∈ replannedObserved.mutations,
      ¬ (replannedObserved.permits.countP fun permit => permitMarket.Covers permit mutation) <
        replannedObserved.mutations.countP fun other => permitMarket.Exceeds mutation other := by
    decide +kernel
  have hassigned : permitMarket.Assigned replannedObserved.mutations replannedObserved.permits :=
    Market.assigned_iff.mpr fun ⟨mutation, hmem, hlt⟩ => hbacked mutation hmem hlt
  have hnone := h.mpr (exists_backing_iff.mpr hassigned)
  rw [hreported] at hnone
  cases hnone

end BoundedRefund
