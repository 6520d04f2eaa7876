import BoundedRefund.Undisturbed

/-!
# Reads that are tried again

A read tool asks its injector before every attempt, and after `readMaxAttempts` refusals in a
row it gives up.  Whether it will is settled before its first attempt (`Session.readsFail`),
so a read comes to what its query says or to nothing (`run_readCall_eq`), and a snapshot to
what the database holds up to the tools that give up (`run_snapshot_eq`).

Each tool has a counter of its own.  The attempts of one tool are therefore no matter to the
next one, and a snapshot can be told from the world it begins in.
-/

namespace BoundedRefund

open Concurrent Relational

/-! ## Refusals -/

/-- How often the reads of a tool are to fail. -/
def readBudget (readTimeouts : List (String × Int)) (tool : String) : Int :=
  (readTimeouts.lookup tool).getD 0

namespace Session

/-- The next `n` reads of the tool all fail. -/
def readsFail (s : Session) (tool : String) : (n : Nat) → Bool
  | 0 => true
  | n + 1 => (s.readShouldFail tool).1 && (s.readShouldFail tool).2.readsFail tool n

/-- The session when the tool has been tried `n` times more. -/
def afterReads (s : Session) (tool : String) (n : Nat) (recorder : Option (List String)) :
    Session :=
  { s with
    recorder := recorder
    injector := s.injector.map fun inj =>
      { inj with readCalls := Function.update inj.readCalls tool (inj.readCalls tool + n) } }

variable {s : Session} {tool : String} {recorder : Option (List String)}

/-- No reads leave the session as it was. -/
theorem afterReads_zero (s : Session) (tool : String) :
    s.afterReads tool 0 s.recorder = s := by
  obtain ⟨readings, sequence, planner, injector, audit, recorder, last, notes, recovered⟩ := s
  cases injector <;> simp [afterReads]

/-- Reads add up. -/
theorem afterReads_add (n k : Nat) (recorder' : Option (List String)) :
    (s.afterReads tool n recorder).afterReads tool k recorder' =
      s.afterReads tool (n + k) recorder' := by
  unfold afterReads
  cases s.injector with
  | none => rfl
  | some inj => simp [Nat.add_assoc]

/-- One read is counted. -/
theorem readShouldFail_session (s : Session) (tool : String) :
    (s.readShouldFail tool).2 = s.afterReads tool 1 s.recorder := by
  obtain ⟨readings, sequence, planner, injector, audit, recorder, last, notes, recovered⟩ := s
  cases injector <;> rfl

/-- A tool fails as long as its budget is not used up. -/
theorem readsFail_iff {n : Nat} : s.readsFail tool n = true ↔
    n = 0 ∨ ∃ inj, s.injector = some inj ∧
      inj.readCalls tool + n ≤ readBudget inj.spec.readTimeouts tool := by
  induction n generalizing s with
  | zero => simp [readsFail]
  | succ n ih =>
      rw [readsFail, Bool.and_eq_true, ih, readShouldFail_session]
      cases hi : s.injector with
      | none => simp [readShouldFail, hi]
      | some inj =>
          have hfails : (s.readShouldFail tool).1 = true ↔
              (inj.readCalls tool : Int) < readBudget inj.spec.readTimeouts tool := by
            simp [readShouldFail, hi, FailureInjector.readShouldFail, readBudget]
          rw [hfails]
          simp only [afterReads, hi, Option.map_some, Option.some.injEq, exists_eq_left',
            Function.update_self]
          omega

/-- Only the injector decides. -/
theorem readsFail_congr {s' : Session} (h : s'.injector = s.injector) (tool : String) (n : Nat) :
    s'.readsFail tool n = s.readsFail tool n := by
  rw [Bool.eq_iff_iff, readsFail_iff, readsFail_iff, h]

/-- The other tools do not notice. -/
theorem readsFail_afterReads {other : String} (hother : other ≠ tool) (n k : Nat) :
    (s.afterReads tool k recorder).readsFail other n = s.readsFail other n := by
  rw [Bool.eq_iff_iff, readsFail_iff, readsFail_iff]
  cases hi : s.injector with
  | none => simp [afterReads, hi]
  | some inj => simp [afterReads, hi, Function.update_of_ne hother]

end Session

/-! ## A read -/

section ReadTools

variable {α : Type}

/-- **What a read comes to**: its query, unless all its attempts fail. -/
theorem run_readCall_eq (tool : String) (arguments : List (String × PlainValue))
    (fetch : Database → Except PyError α) (made left : Nat) (v : World) :
    ∃ n recorder, (ReadTools.call tool arguments fetch made left).run v =
      (if v.own.session.readsFail tool left then .error (.readUnavailable tool (made + left))
        else fetch v.shared,
      ⟨v.shared, { v.own with session := v.own.session.afterReads tool n recorder }⟩) := by
  induction left generalizing made v with
  | zero =>
      refine ⟨0, v.own.session.recorder, ?_⟩
      rw [Session.afterReads_zero]
      rfl
  | succ left ih =>
      obtain ⟨s, hs⟩ : ∃ s, s = v.own.session.record tool
          (("attempt", .int (made + 1)) :: arguments) := ⟨_, rfl⟩
      have hfirst : (ReadTools.call tool arguments fetch made (left + 1)).run v =
          (if (s.readShouldFail tool).1 then
            ReadTools.call tool arguments fetch (made + 1) left else Py.query fetch).run
          ⟨v.shared, { v.own with session := (s.readShouldFail tool).2 }⟩ := by
        rw [hs, ReadTools.call, Py.record]
        simp only [Prog.bind_def, Prog.run_bind, Py.run_touch, Py.run_update]
      have hafter : (s.readShouldFail tool).2 = v.own.session.afterReads tool 1 s.recorder := by
        rw [Session.readShouldFail_session, hs]
        rfl
      -- all attempts fail if this one does and all that are left do
      have hfails : v.own.session.readsFail tool (left + 1) =
          ((s.readShouldFail tool).1 && (s.readShouldFail tool).2.readsFail tool left) := by
        have hsame : s.readsFail tool (left + 1) = v.own.session.readsFail tool (left + 1) :=
          Session.readsFail_congr (by rw [hs]; rfl) tool _
        rw [← hsame, Session.readsFail]
      rw [hfirst, hfails]
      cases hfail : (s.readShouldFail tool).1 with
      | true =>
          obtain ⟨n, recorder, hrun⟩ := ih (made + 1)
            ⟨v.shared, { v.own with session := (s.readShouldFail tool).2 }⟩
          refine ⟨1 + n, recorder, ?_⟩
          rw [if_pos rfl, hrun, Bool.true_and, hafter, Session.afterReads_add, Nat.add_right_comm,
            Nat.add_assoc made]
      | false =>
          refine ⟨1, s.recorder, ?_⟩
          rw [if_neg Bool.false_ne_true, Py.run_query, Bool.false_and, hafter,
            if_neg Bool.false_ne_true]

/-- The record that was found, or none and the tool that gave up. -/
def ReadTools.found (fails : Bool) (tool : String) (record : Except PyError (Option α)) :
    Except PyError (Option α × List String) :=
  if fails then .ok (none, [tool]) else record.map fun a => (a, [])

/-- Attempts of one tool, and nothing else. -/
structure Tries (tool : String) (v w : World) : Prop extends Ticks 0 v w where
  others : ∀ other, other ≠ tool → ∀ n,
    w.own.session.readsFail other n = v.own.session.readsFail other n

theorem Tries.refl (tool : String) (v : World) : Tries tool v v :=
  ⟨Ticks.refl v, fun _ _ _ => rfl⟩

theorem Tries.afterReads (tool : String) (v : World) (n : Nat) (recorder : Option (List String)) :
    Tries tool v
      ⟨v.shared, { v.own with session := v.own.session.afterReads tool n recorder }⟩ where
  history := rfl
  sequence := rfl
  planner := rfl
  lastExecution := rfl
  audited := rfl
  injector := by
    unfold Session.afterReads
    cases v.own.session.injector <;> rfl
  readings_le := le_rfl
  shared := rfl
  readings := rfl
  due := by
    unfold Session.afterReads
    cases v.own.session.injector <;> rfl
  others other hother _ := Session.readsFail_afterReads hother _ _

/-- A read that recovers finds what is there, or notes that it failed. -/
theorem run_recovering_eq (tool : String) (arguments : List (String × PlainValue))
    (fetch : Database → Except PyError (Option α)) (left : Nat) (v : World)
    (hraises : ∀ err, fetch v.shared = .error err → ∃ message, err = .valueError message) :
    ∃ w, Tries tool v w ∧
      (ReadTools.recovering (ReadTools.call tool arguments fetch 0 left)).run v =
        (ReadTools.found (v.own.session.readsFail tool left) tool (fetch v.shared), w) := by
  obtain ⟨n, recorder, hcall⟩ := run_readCall_eq tool arguments fetch 0 left v
  refine ⟨_, Tries.afterReads tool v n recorder, ?_⟩
  unfold ReadTools.recovering ReadTools.found
  rw [Prog.tryCatch_def, Prog.run_tryCatch, Prog.bind_def, Prog.run_bind, hcall]
  cases v.own.session.readsFail tool left with
  | true => rfl
  | false =>
      cases hfetch : fetch v.shared with
      | ok a => rfl
      | error err =>
          obtain ⟨message, rfl⟩ := hraises err hfetch
          rfl

/-- A record that is not needed is not looked for. -/
def ReadTools.foundIf (needed fails : Bool) (tool : String)
    (record : Except PyError (Option α)) : Except PyError (Option α × List String) :=
  if needed then ReadTools.found fails tool record else .ok (none, [])

/-- A record that is not required is not looked for. -/
theorem run_optional_eq (needed : Bool) (tool : String)
    (arguments : List (String × PlainValue)) (fetch : Database → Except PyError (Option α))
    (left : Nat) (v : World)
    (hraises : ∀ err, fetch v.shared = .error err → ∃ message, err = .valueError message) :
    ∃ w, Tries tool v w ∧
      (ReadTools.optional needed (ReadTools.call tool arguments fetch 0 left)).run v =
        (ReadTools.foundIf needed (v.own.session.readsFail tool left) tool (fetch v.shared),
          w) := by
  cases needed with
  | true => exact run_recovering_eq tool arguments fetch left v hraises
  | false => exact ⟨v, .refl tool v, rfl⟩

end ReadTools

/-! ## A snapshot -/

/-- The refund policy of an order that was found. -/
def Database.lookPolicy (db : Database) (needed fails : Bool) (order : Option Order) :
    Except PyError (Option RefundPolicy × List String) :=
  match order with
  | none => .ok (none, [])
  | some order =>
      ReadTools.foundIf needed fails "get_refund_policy" (db.fetchRefundPolicy order.policyId)

/-- The policy is looked for under the order's id for it. -/
theorem run_policyOf_eq (needed : Bool) (order : Option Order) (v : World) :
    ∃ w, Tries "get_refund_policy" v w ∧ (ReadTools.policyOf needed order).run v =
      (v.shared.lookPolicy needed (v.own.session.readsFail "get_refund_policy" readMaxAttempts)
        order, w) := by
  cases order with
  | none => exact ⟨v, .refl _ v, rfl⟩
  | some order =>
      exact run_optional_eq needed "get_refund_policy" [("policy_id", .str order.policyId)]
        (·.fetchRefundPolicy order.policyId) readMaxAttempts v fun _ h => nomatch h

/-- The snapshot of a proposal, told from the database and from the tools that give up. -/
def Database.look (db : Database) (fails : String → Bool) (proposal : ActionProposal)
    (now : Instant) : Except PyError PolicySnapshot := do
  let needed := requiredRecords proposal.action
  let (order, orderFailures) ←
    ReadTools.found (fails "get_order") "get_order" (db.fetchOrder proposal.orderId)
  let (payment, paymentFailures) ← ReadTools.foundIf (.payment ∈ needed) (fails "get_payment")
    "get_payment" (db.fetchPaymentForOrder proposal.orderId)
  let (shipment, shipmentFailures) ← ReadTools.foundIf (.shipment ∈ needed)
    (fails "get_shipment") "get_shipment" (db.fetchShipmentForOrder proposal.orderId)
  let (refundPolicy, policyFailures) ←
    db.lookPolicy (.refundPolicy ∈ needed) (fails "get_refund_policy") order
  return { now, order, payment, shipment, refundPolicy,
           readFailures := orderFailures ++ paymentFailures ++ shipmentFailures ++
             policyFailures }

/-- What a composition returns is made of what its first part does. -/
theorem Py.run_bind_fst {α β : Type} {p : Py α} {k : α → Py β} {v w : World}
    {res : Except PyError α} (h : p.run v = (res, w)) :
    ((p >>= k).run v).1 = res >>= fun a => ((k a).run w).1 := by
  rw [Prog.bind_def, Prog.run_bind, h]
  cases res <;> rfl

/-- A record that cannot be read has a status that is none. -/
theorem fetch_raises {db : Database} {orderId : String} {err : PyError}
    (h : db.fetchOrder orderId = .error err ∨ db.fetchPaymentForOrder orderId = .error err ∨
      db.fetchShipmentForOrder orderId = .error err) : ∃ message, err = .valueError message := by
  rcases h with h | h | h
  all_goals
    obtain ⟨row, hrow⟩ := Database.readRow_raises h
    exact StrEnum.parse_raises (map_eq_error.mp hrow)

section Snapshot

variable {r : Runner} {proposal : ActionProposal} {v v' : World}

/-- What is found of the order. -/
theorem run_getOrder (orderId : String) (v : World) : ∃ w, Tries "get_order" v w ∧
    (ReadTools.recovering (ReadTools.getOrder orderId)).run v =
      (ReadTools.found (v.own.session.readsFail "get_order" readMaxAttempts) "get_order"
        (v.shared.fetchOrder orderId), w) :=
  run_recovering_eq "get_order" [("order_id", .str orderId)] (·.fetchOrder orderId)
    readMaxAttempts v fun _ h => fetch_raises (.inl h)

/-- What is found of the payment. -/
theorem run_getPayment (needed : Bool) (orderId : String) (v : World) :
    ∃ w, Tries "get_payment" v w ∧
      (ReadTools.optional needed (ReadTools.getPayment orderId)).run v =
        (ReadTools.foundIf needed (v.own.session.readsFail "get_payment" readMaxAttempts)
          "get_payment" (v.shared.fetchPaymentForOrder orderId), w) :=
  run_optional_eq needed "get_payment" [("order_id", .str orderId)]
    (·.fetchPaymentForOrder orderId) readMaxAttempts v fun _ h => fetch_raises (.inr (.inl h))

/-- What is found of the shipment. -/
theorem run_getShipment (needed : Bool) (orderId : String) (v : World) :
    ∃ w, Tries "get_shipment" v w ∧
      (ReadTools.optional needed (ReadTools.getShipment orderId)).run v =
        (ReadTools.foundIf needed (v.own.session.readsFail "get_shipment" readMaxAttempts)
          "get_shipment" (v.shared.fetchShipmentForOrder orderId), w) :=
  run_optional_eq needed "get_shipment" [("order_id", .str orderId)]
    (·.fetchShipmentForOrder orderId) readMaxAttempts v fun _ h => fetch_raises (.inr (.inr h))

/-- **What a snapshot comes to**, exceptions included. -/
theorem run_snapshot_eq (r : Runner) (proposal : ActionProposal) (v : World) :
    ((r.snapshot proposal).run v).1 =
      v.shared.look (fun tool => v.own.session.readsFail tool readMaxAttempts) proposal
        (r.clock v.own.session.readings) := by
  obtain ⟨t, ht, horder⟩ := run_getOrder proposal.orderId v
  refine (Py.run_bind_fst horder).trans (congrArg (_ >>= ·) (funext fun order => ?_))
  obtain ⟨u, hu, hpayment⟩ := run_getPayment (.payment ∈ requiredRecords proposal.action)
    proposal.orderId t
  refine (Py.run_bind_fst hpayment).trans ?_
  rw [ht.others _ (by decide), ht.shared]
  refine congrArg (_ >>= ·) (funext fun payment => ?_)
  obtain ⟨w, hw, hshipment⟩ := run_getShipment (.shipment ∈ requiredRecords proposal.action)
    proposal.orderId u
  refine (Py.run_bind_fst hshipment).trans ?_
  rw [hu.others _ (by decide), ht.others _ (by decide), hu.shared, ht.shared]
  refine congrArg (_ >>= ·) (funext fun shipment => ?_)
  obtain ⟨y, hy, hpolicy⟩ :=
    run_policyOf_eq (.refundPolicy ∈ requiredRecords proposal.action) order.1 w
  refine (Py.run_bind_fst hpolicy).trans ?_
  rw [hw.others _ (by decide), hu.others _ (by decide), ht.others _ (by decide), hw.shared,
    hu.shared, ht.shared]
  refine congrArg (_ >>= ·) (funext fun refundPolicy => ?_)
  have hreadings : y.own.session.readings = v.own.session.readings :=
    (((ht.toTicks.trans hu.toTicks).trans hw.toTicks).trans hy.toTicks).readings
  rw [← hreadings]
  rfl

/-- What a snapshot leaves: the clock is read once it has all records, and nothing else of
consequence is done. -/
theorem run_snapshot_ticks {res : Except PyError PolicySnapshot}
    (h : (r.snapshot proposal).run v = (res, v')) :
    (∃ s, res = .ok s ∧ Ticks 1 v v') ∨ ∃ err, res = .error err ∧ Ticks 0 v v' := by
  obtain ⟨t, ht, horder⟩ := run_getOrder proposal.orderId v
  obtain ⟨err, hrun, rfl⟩ | ⟨order, t', hrun, h⟩ := Py.run_bind_cases h
  · cases (Prod.mk.inj (horder.symm.trans hrun)).2
    exact .inr ⟨err, rfl, ht.toTicks⟩
  cases (Prod.mk.inj (horder.symm.trans hrun)).2
  obtain ⟨u, hu, hpayment⟩ := run_getPayment (.payment ∈ requiredRecords proposal.action)
    proposal.orderId t
  have htu := ht.toTicks.trans hu.toTicks
  obtain ⟨err, hrun, rfl⟩ | ⟨payment, u', hrun, h⟩ := Py.run_bind_cases h
  · cases (Prod.mk.inj (hpayment.symm.trans hrun)).2
    exact .inr ⟨err, rfl, htu⟩
  cases (Prod.mk.inj (hpayment.symm.trans hrun)).2
  obtain ⟨w, hw, hshipment⟩ := run_getShipment (.shipment ∈ requiredRecords proposal.action)
    proposal.orderId u
  have htw := htu.trans hw.toTicks
  obtain ⟨err, hrun, rfl⟩ | ⟨shipment, w', hrun, h⟩ := Py.run_bind_cases h
  · cases (Prod.mk.inj (hshipment.symm.trans hrun)).2
    exact .inr ⟨err, rfl, htw⟩
  cases (Prod.mk.inj (hshipment.symm.trans hrun)).2
  obtain ⟨y, hy, hpolicy⟩ :=
    run_policyOf_eq (.refundPolicy ∈ requiredRecords proposal.action) order.1 w
  have hty := htw.trans hy.toTicks
  obtain ⟨err, hrun, rfl⟩ | ⟨refundPolicy, y', hrun, h⟩ := Py.run_bind_cases h
  · cases (Prod.mk.inj (hpolicy.symm.trans hrun)).2
    exact .inr ⟨err, rfl, hty⟩
  cases (Prod.mk.inj (hpolicy.symm.trans hrun)).2
  obtain ⟨z, hz, h⟩ := Py.run_now_bind h
  rw [Py.run_pure, Prod.mk.injEq] at h
  obtain ⟨rfl, rfl⟩ := h
  exact .inl ⟨_, rfl, hty.trans hz⟩

end Snapshot

/-! ## What a failure can do -/

/-- The tool a record is read with. -/
def RecordName.tool : RecordName → String
  | .order => "get_order"
  | .payment => "get_payment"
  | .shipment => "get_shipment"
  | .refundPolicy => "get_refund_policy"

section Failures

variable {α : Type} {needed fails : Bool} {tool : String}
variable {record : Except PyError (Option α)} {a : Option α × List String}

/-- Who did not give up found what there was. -/
theorem ReadTools.found_unfailing (h : ReadTools.found fails tool record = .ok a)
    (ha : a.2 = []) : ReadTools.found false tool record = .ok a := by
  cases fails with
  | false => exact h
  | true =>
      cases h
      cases ha

/-- What was found is found without failures too. -/
theorem ReadTools.foundIf_unfailing (h : ReadTools.foundIf needed fails tool record = .ok a)
    (ha : a.2 = []) : ReadTools.foundIf needed false tool record = .ok a := by
  cases needed with
  | false => exact h
  | true => exact ReadTools.found_unfailing h ha

variable {db : Database} {order : Option Order} {policy : Option RefundPolicy × List String}

/-- So it is with the policy. -/
theorem Database.lookPolicy_unfailing (h : db.lookPolicy needed fails order = .ok policy)
    (hpolicy : policy.2 = []) : db.lookPolicy needed false order = .ok policy := by
  cases order with
  | none => exact h
  | some order => exact ReadTools.foundIf_unfailing h hpolicy

variable {gaveUp : String → Bool} {proposal : ActionProposal} {now : Instant}
variable {s : PolicySnapshot}

/-- What a snapshot is made of. -/
theorem Database.look_eq_ok : db.look gaveUp proposal now = .ok s ↔
    ∃ order payment shipment policy,
      ReadTools.found (gaveUp "get_order") "get_order" (db.fetchOrder proposal.orderId) =
        .ok order ∧
      ReadTools.foundIf (.payment ∈ requiredRecords proposal.action) (gaveUp "get_payment")
        "get_payment" (db.fetchPaymentForOrder proposal.orderId) = .ok payment ∧
      ReadTools.foundIf (.shipment ∈ requiredRecords proposal.action) (gaveUp "get_shipment")
        "get_shipment" (db.fetchShipmentForOrder proposal.orderId) = .ok shipment ∧
      db.lookPolicy (.refundPolicy ∈ requiredRecords proposal.action)
        (gaveUp "get_refund_policy") order.1 = .ok policy ∧
      s = { now := now, order := order.1, payment := payment.1, shipment := shipment.1,
            refundPolicy := policy.1,
            readFailures := order.2 ++ payment.2 ++ shipment.2 ++ policy.2 } := by
  unfold Database.look
  simp only [bind_eq_ok, pure, Except.pure, Except.ok.injEq, @eq_comm _ _ s]
  tauto

/-- **A snapshot without failures is the one unfailing reads produce.** -/
theorem Database.look_unfailing (h : db.look gaveUp proposal now = .ok s)
    (hs : s.readFailures = []) : db.look (fun _ => false) proposal now = .ok s := by
  obtain ⟨order, payment, shipment, policy, horder, hpayment, hshipment, hpolicy, rfl⟩ :=
    Database.look_eq_ok.mp h
  simp only [List.append_eq_nil_iff] at hs
  obtain ⟨⟨⟨horder', hpayment'⟩, hshipment'⟩, hpolicy'⟩ := hs
  exact Database.look_eq_ok.mpr ⟨order, payment, shipment, policy,
    ReadTools.found_unfailing horder horder', ReadTools.foundIf_unfailing hpayment hpayment',
    ReadTools.foundIf_unfailing hshipment hshipment',
    Database.lookPolicy_unfailing hpolicy hpolicy', rfl⟩

/-- A tool that gives up on a needed record leaves its name, or was not asked because there is
no order. -/
theorem Database.look_gaveUp (h : db.look gaveUp proposal now = .ok s) {name : RecordName}
    (hneeded : name ∈ requiredRecords proposal.action) (hgaveUp : gaveUp name.tool = true) :
    s.readFailures ≠ [] ∨ s.order = none := by
  obtain ⟨order, payment, shipment, policy, horder, hpayment, hshipment, hpolicy, rfl⟩ :=
    Database.look_eq_ok.mp h
  cases name with
  | order =>
      rw [show gaveUp "get_order" = true from hgaveUp] at horder
      cases horder
      exact .inr rfl
  | payment =>
      rw [show gaveUp "get_payment" = true from hgaveUp, decide_eq_true hneeded] at hpayment
      cases hpayment
      exact .inl (by simp)
  | shipment =>
      rw [show gaveUp "get_shipment" = true from hgaveUp, decide_eq_true hneeded] at hshipment
      cases hshipment
      exact .inl (by simp)
  | refundPolicy =>
      obtain ⟨found, failures⟩ := order
      cases found with
      | none => exact .inr rfl
      | some order =>
          rw [show gaveUp "get_refund_policy" = true from hgaveUp,
            decide_eq_true hneeded] at hpolicy
          cases hpolicy
          exact .inl (by simp)

/-- The rules do not decide on a snapshot that lacks something. -/
theorem evaluate_insufficient {d : PolicyResult} (h : evaluate (some proposal) s = .ok d)
    (hs : s.readFailures ≠ [] ∨ s.order = none) :
    d.decision = .escalate ∧ d.reasonCode = .insufficientInformation := by
  have hlacks : s.readFailures ≠ [] ∨ missingRecords proposal s ≠ [] := by
    refine hs.imp_right fun horder => ?_
    have hmem : RecordName.order ∈ (requiredRecords proposal.action).filter s.lacks := by
      refine List.mem_filter.mpr ⟨?_, by simp [PolicySnapshot.lacks, horder]⟩
      cases proposal.action <;> decide
    intro hnil
    rw [List.map_eq_nil_iff.mp hnil] at hmem
    cases hmem
  simp only [evaluate, if_pos hlacks, Except.ok.injEq] at h
  rw [← h]
  exact ⟨rfl, rfl⟩

end Failures

end BoundedRefund
