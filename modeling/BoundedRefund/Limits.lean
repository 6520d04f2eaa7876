import BoundedRefund.Scope

/-!
# The limit of automatic refunds

Every refund a run makes goes back to a decision on one snapshot: it is positive, within
what the payment had captured, and within the limit the policy applied.  That limit is the
column of the policy row, except where the column is zero: `or` takes zero for a missing
value and puts the default of 25000 in its place, while the window next to it is tested
against `None`.  A policy that allows no automatic refund at all therefore allows large ones
(`refunds_within_limits`, `refunded_above_zero_limit`).
-/

namespace BoundedRefund

open Concurrent Relational

/-! ## Refunds and their log rows -/

/-- The log row stands for the refund. -/
def MutationRow.StandsFor (row : MutationRow) (refund : RefundRow) : Prop :=
  row.action = .issueRefund ∧ row.resourceId = refund.paymentId ∧
    row.amountCents = refund.amountCents

/-- Every refund made since `db₀` has its log row and is filed under the order of its
payment. -/
structure Filed (db₀ db : Database) (added : List RefundRow) (rows : List MutationRow) :
    Prop where
  refunds : db.refunds.rows = db₀.refunds.rows ++ added
  log : db.mutationLog = db₀.mutationLog ++ rows
  logged : ∀ refund ∈ added, ∃ row ∈ rows, row.StandsFor refund
  order : ∀ refund ∈ added, db.paymentOrder refund.paymentId = some refund.orderId

/-- The refunds since `db₀` are filed, and payments belong to the orders they belonged to. -/
def AllFiled (db₀ db : Database) : Prop :=
  db.paymentOrder = db₀.paymentOrder ∧ ∃ added rows, Filed db₀ db added rows

/-- Refunds stay filed where payments, refunds and log are the same. -/
theorem AllFiled.congr {db₀ db db' : Database} (h : AllFiled db₀ db)
    (hpayments : db'.paymentOrder = db.paymentOrder) (hrefunds : db'.refunds = db.refunds)
    (hlog : db'.mutationLog = db.mutationLog) : AllFiled db₀ db' := by
  obtain ⟨horder, added, rows, hfiled⟩ := h
  refine ⟨hpayments.trans horder, added, rows, ?_, ?_, hfiled.logged, ?_⟩
  · rw [hrefunds, hfiled.refunds]
  · rw [hlog, hfiled.log]
  · rw [hpayments]
    exact hfiled.order

/-- No step of a run files a refund elsewhere. -/
theorem allFiled_kept (r : Runner) (spec : FailureSpec) (db₀ : Database) :
    Kept r spec (AllFiled db₀) where
  issue db db' row expiresAt _ h hJ := by
    obtain ⟨permits, -, rfl⟩ := Database.insertPermit_eq_ok.mp h
    exact hJ.congr rfl rfl rfl
  inject db db' c hc h hJ := by
    have hpayments := (paymentOrder_kept r spec db).inject db db' c hc h rfl
    rcases StateChange.apply_eq_ok h with ⟨-, -, rfl⟩ | ⟨resource, -, -, rfl⟩
    · exact hJ
    · cases resource <;> exact hJ.congr hpayments rfl rfl
  commit db db' x hrun hpayment hx hJ := by
    -- which order a payment belongs to never changes
    have hpayments := (paymentOrder_kept r spec db).commit db db' x hrun hpayment hx rfl
    obtain ⟨horder, added, rows, hfiled⟩ := hJ
    refine ⟨hpayments.trans horder,
      added ++ (if x.proposal.action = .issueRefund then [x.refundRow] else []),
      rows ++ [x.logRow], ?_, ?_, ?_, ?_⟩
    · rw [hx.refunds, hfiled.refunds, List.append_assoc]
    · rw [hx.mutationLog, hfiled.log, List.append_assoc]
    · intro refund hmem
      rcases List.mem_append.mp hmem with hmem | hmem
      · obtain ⟨row, hrow, hstands⟩ := hfiled.logged refund hmem
        exact ⟨row, List.mem_append_left _ hrow, hstands⟩
      · split_ifs at hmem with ha
        · rw [List.mem_singleton.mp hmem]
          exact ⟨x.logRow, by simp, ha, rfl, rfl⟩
        · simp at hmem
    · intro refund hmem
      rw [hpayments]
      rcases List.mem_append.mp hmem with hmem | hmem
      · exact hfiled.order refund hmem
      · split_ifs at hmem with ha
        · obtain ⟨row, hrow, horder⟩ := hpayment ha
          rw [List.mem_singleton.mp hmem]
          simp only [Database.paymentOrder, Execution.refundRow, hrow, Option.map_some, horder]
        · simp at hmem

/-! ## The decision behind a refund -/

/-- The policy allowed the refund on a snapshot that was read for one of the calls: the
payment it is made on, the order of that payment, the policy of that order. -/
structure Decided (r : Runner) (history : List Call) (refund : RefundRow) (order : Order)
    (payment : Payment) (policy : RefundPolicy) : Prop where
  judged : ∃ call ∈ history, ∃ proposal s d, Judged r call proposal s d ∧
    RefundAllowed proposal s d order payment policy refund.amountCents
  orderId : refund.orderId = order.orderId
  paymentId : refund.paymentId = payment.paymentId
  policyId : policy.policyId = order.policyId

/-- Each of the rows goes back to one of the calls. -/
theorem exists_justifying {r : Runner} {rows : List MutationRow} {calls : List Call}
    (h : List.Forall₂ (Justified r) rows calls) {row : MutationRow} (hrow : row ∈ rows) :
    ∃ call ∈ calls, Justified r row call := by
  induction h with
  | nil => simp at hrow
  | @cons row' call rows calls hjustified _ ih =>
      rcases List.mem_cons.mp hrow with rfl | hrow
      · exact ⟨call, List.mem_cons_self, hjustified⟩
      · obtain ⟨other, hmem, hother⟩ := ih hrow
        exact ⟨other, List.mem_cons_of_mem _ hmem, hother⟩

/-- The policy applies the limit of the row, unless that is zero. -/
theorem RefundPolicy.le_limit_iff {policy : RefundPolicy} {amount : Int} (hpos : 0 < amount)
    (hle : amount ≤ policy.limit) :
    amount ≤ policy.autoRefundLimitCents ↔ policy.autoRefundLimitCents ≠ 0 := by
  unfold RefundPolicy.limit at hle
  split_ifs at hle with hzero
  · simp only [hzero, ne_eq, not_true_eq_false, iff_false, not_le]
    exact hpos
  · exact ⟨fun _ => hzero, fun _ => hle⟩

/-- The decision behind the log row of a refund. -/
theorem Justified.decided {r : Runner} {row : MutationRow} {call : Call} {refund : RefundRow}
    {db : Database} {history : List Call} (h : Justified r row call)
    (hstands : row.StandsFor refund) (hmem : call ∈ history)
    (hpayments : db.paymentOrder = call.start.shared.paymentOrder)
    (horder : db.paymentOrder refund.paymentId = some refund.orderId) :
    ∃ order payment policy, Decided r history refund order payment policy := by
  obtain ⟨haction, hresource, hamount⟩ := hstands
  cases h with
  | ticket proposal s d judged cause action => simp [action] at haction
  | allowed proposal s d judged decision action resource amount =>
      obtain ⟨ha, -⟩ | ⟨ha, order, payment, policy, cents, hrefund⟩ | ⟨ha, -⟩ :=
        evaluate_allow_cases judged.evaluated decision
      · simp [← action, haction] at ha
      · have hpayment : refund.paymentId = payment.paymentId := by
          rw [← hresource, resource, hrefund.decided]
        have hcents : refund.amountCents = cents := by
          rw [← hamount, amount, ActionProposal.amount, hrefund.amount_eq]
          rfl
        obtain ⟨hfind, hof⟩ := Database.fetchPaymentForOrder_eq_some
          (judged.reads.payment payment hrefund.payment_read)
        have hread := judged.reads.order order hrefund.order_read
        obtain ⟨other, hother, hpolicy⟩ := judged.reads.policyOf policy hrefund.policy_read
        rw [hrefund.order_read] at hother
        cases hother
        refine ⟨order, payment, policy, ⟨call, hmem, proposal, s, d, judged, ?_⟩, ?_, hpayment,
          hpolicy⟩
        · rw [hcents]
          exact hrefund
        · rw [hpayments, hpayment, Database.paymentOrder, hfind, Option.map_some,
            Option.some.injEq] at horder
          rw [← horder, Database.fetchOrder_orderId hread]
          exact hof
      · simp [← action, haction] at ha

/-- However a run stops, each refund it has made was decided on records that were read for
it. -/
theorem refunds_decided (r : Runner) (proposals : List RawProposal) (failures : FailureSpec)
    (db : Database) :
    let stopped := (r.run.run ⟨db, r.start proposals failures⟩).2
    ∃ added, stopped.shared.refunds.rows = db.refunds.rows ++ added ∧
      ∀ refund ∈ added, ∃ order payment policy,
        Decided r stopped.own.history refund order payment policy := by
  intro stopped
  obtain ⟨calls, rows, _, hsub, htrace⟩ := run_traced r proposals failures db
  have hstart : AllFiled db db := ⟨rfl, [], [], by simp, by simp, by simp, by simp⟩
  have halong : Along proposals (AllFiled db) (r.run.run ⟨db, r.start proposals failures⟩).2 :=
    kept_run (allFiled_kept r failures db) hstart
  obtain ⟨hpayments, added, rows', hfiled⟩ := halong.now
  obtain rfl : rows' = rows := List.append_cancel_left (hfiled.log.symm.trans htrace.log)
  refine ⟨added, hfiled.refunds, fun refund hmem => ?_⟩
  obtain ⟨row, hrow, hstands⟩ := hfiled.logged refund hmem
  obtain ⟨call, hcall, hjust⟩ := exists_justifying htrace.justified hrow
  have hhistory : call ∈ stopped.own.history := List.mem_reverse.mp (hsub.subset hcall)
  exact hjust.decided hstands hhistory
    (hpayments.trans (halong.calls call hhistory).1.1.symm) (hfiled.order refund hmem)

/-- **When a refund is within the limit of its policy.**  However a run stops: each refund it
has made was decided on records that were read for it, and it is positive, within what the
payment had captured and within the limit of the policy row exactly where that limit is not
zero. -/
theorem refunds_within_limits (r : Runner) (proposals : List RawProposal)
    (failures : FailureSpec) (db : Database) :
    let stopped := (r.run.run ⟨db, r.start proposals failures⟩).2
    ∃ added, stopped.shared.refunds.rows = db.refunds.rows ++ added ∧
      ∀ refund ∈ added, ∃ order payment policy,
        Decided r stopped.own.history refund order payment policy ∧
        ((0 < refund.amountCents ∧ refund.amountCents ≤ payment.capturedCents ∧
            refund.amountCents ≤ policy.autoRefundLimitCents) ↔
          policy.autoRefundLimitCents ≠ 0) := by
  intro stopped
  obtain ⟨added, hadded, hdecided⟩ := refunds_decided r proposals failures db
  refine ⟨added, hadded, fun refund hmem => ?_⟩
  obtain ⟨order, payment, policy, hdecided⟩ := hdecided refund hmem
  obtain ⟨-, -, proposal, s, d, -, hrefund⟩ := hdecided.judged
  have hiff := policy.le_limit_iff hrefund.amount_pos hrefund.within_limit
  exact ⟨order, payment, policy, hdecided, fun h => hiff.mp h.2.2,
    fun h => ⟨hrefund.amount_pos, hrefund.within_captured, hiff.mpr h⟩⟩

/-! ## A limit of zero -/

/-- A world whose policy allows no automatic refund. -/
def zeroLimitWorld : Database :=
  { seedWorld [("ord_0001", .paid)] with
    refundPolicies := .ofRows [{ defaultPolicy with autoRefundLimitCents := 0 }] }

/-- Where a run stops that asks for a refund there. -/
def zeroLimitStopped : World :=
  (firstOrderRunner.run.run ⟨zeroLimitWorld,
    firstOrderRunner.start [.proposal refundFirst] {}⟩).2

/-- The policy row has a limit of 0, and 5000 are refunded. -/
theorem refunded_above_zero_limit :
    zeroLimitStopped.shared.refunds.rows.map RefundRow.amountCents = [5000] ∧
    ¬ ∀ refund ∈ zeroLimitStopped.shared.refunds.rows,
      ∀ policy ∈ zeroLimitStopped.shared.refundPolicies.rows,
        refund.amountCents ≤ policy.autoRefundLimitCents := by
  constructor <;> decide +kernel

end BoundedRefund
