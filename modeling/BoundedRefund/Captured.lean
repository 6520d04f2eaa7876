import BoundedRefund.Shipments

/-!
# What is refunded and what was captured

A payment carries what was captured and what was refunded of it.  The write adds to the
second column; the policy compares the amount with the first and never looks at the second.
A payment that is open but carries a partial refund can therefore be refunded beyond what it
captured.

Everything else keeps a payment within bounds: while no decision allows more than was left
of the payment it had read (`Pool.Modest`), every reachable state does, whatever else
happens to the payments (`within_while_modest`).
-/

namespace BoundedRefund

open Concurrent Relational

/-! ## Bounds -/

/-- No more was refunded than captured. -/
def PaymentRow.Within (row : PaymentRow) : Prop :=
  0 ≤ row.refundedCents ∧ row.refundedCents ≤ row.capturedCents

/-- That is so for every payment. -/
def Database.Within (db : Database) : Prop := ∀ row ∈ db.payments.rows, row.Within

instance (row : PaymentRow) : Decidable row.Within := inferInstanceAs (Decidable (_ ∧ _))

instance (db : Database) : Decidable db.Within :=
  inferInstanceAs (Decidable (∀ row ∈ db.payments.rows, row.Within))

/-- The others on the database increment versions and keep the payments within bounds. -/
def KeepingWithin (db db' : Database) : Prop := Later db db' ∧ (db.Within → db'.Within)

/-- So do the changes that are injected in this move, in the database they are made in. -/
def Runs.InjectsWithin {ι : Type} [DecidableEq ι] (runs : Runs ι)
    (c c' : Pool ι PyError Database Local RunReport) : Prop :=
  ∀ i, Pool.Act i c c' → ∀ change, (runs.failures i).Asks change →
    change.apply c.shared = .ok c'.shared → c.shared.Within → c'.shared.Within

/-- A refund of an amount that is not negative keeps the payment within bounds exactly if
that much is left of it. -/
theorem PaymentRow.within_refunded_iff {row : PaymentRow} {amount : Int} (h : row.Within)
    (hamount : 0 ≤ amount) :
    (row.refunded amount).Within ↔ amount ≤ row.capturedCents - row.refundedCents := by
  obtain ⟨hlow, -⟩ := h
  unfold PaymentRow.Within PaymentRow.refunded
  dsimp only
  omega

/-- The bounds are about the payments only. -/
theorem Database.within_of_eq {db db' : Database} (hpayments : db'.payments = db.payments)
    (h : db.Within) : db'.Within := by
  unfold Database.Within
  rw [hpayments]
  exact h

/-- A commit keeps the database within bounds exactly if it leaves the row it refunds within
them. -/
theorem Execution.Commits.within_iff {x : Execution} {db db' : Database} (hx : x.Commits db db')
    (ha : x.proposal.action = .issueRefund) (h : db.Within) {row : PaymentRow}
    (hrow : db'.payments.find? x.permit.resourceId = some row) : db'.Within ↔ row.Within := by
  constructor
  · intro h'
    exact h' row (Table.find?_eq_some.mp hrow).1
  · intro hwithin other hmem
    by_cases hid : other.paymentId = x.permit.resourceId
    · have hfind := Table.find?_of_mem hmem
      rw [hid, hrow] at hfind
      cases hfind
      exact hwithin
    · rcases hx.payments with ⟨-, hpayments⟩ | ⟨hne, -⟩
      · rw [hpayments, Database.refundPayment, Table.mem_update] at hmem
        obtain ⟨before, hbefore, rfl⟩ := hmem
        split_ifs at hid ⊢ with hguard
        · simp only [Database.paymentGuard, Bool.and_eq_true, decide_eq_true_eq] at hguard
          exact absurd hguard.1 hid
        · exact h before hbefore
      · exact absurd ha hne

/-! ## Modest decisions -/

/-- The policy allowed more than was left of the payment it had read. -/
def Call.overdraws (call : Call) : Bool :=
  call.judged.any fun judged => judged.2.decision = .allow &&
    judged.1.payment.any fun payment =>
      payment.capturedCents - payment.refundedCents < judged.2.maxAmountCents

/-- No run has been allowed that. -/
def Modest {ι : Type} (c : Pool ι PyError Database Local RunReport) : Prop :=
  ∀ i, ∀ call ∈ (c.threads i).own.history, call.overdraws = false

instance (c : Pool Unit PyError Database Local RunReport) : Decidable (Modest c) :=
  decidable_of_iff (∀ call ∈ (c.threads ()).own.history, call.overdraws = false)
    ⟨fun h _ => h, fun h => h ()⟩

/-- The call is the decision behind a refund: what the policy allowed is what was refunded,
on the payment it had read. -/
structure Call.Allows (call : Call) (row : MutationRow) (payment : Payment) : Prop where
  judged : ∃ s d, call.judged = some (s, d) ∧ d.decision = .allow ∧
    s.payment = some payment ∧ d.maxAmountCents = row.amountCents
  resource : payment.paymentId = row.resourceId

/-- A refund overdraws when its amount is more than what is left of the captured one. -/
theorem Call.Allows.overdraws_iff {call : Call} {row : MutationRow} {payment : Payment}
    (h : call.Allows row payment) : call.overdraws = false ↔
      row.amountCents ≤ payment.capturedCents - payment.refundedCents := by
  obtain ⟨s, d, hjudged, hallow, hpayment, hamount⟩ := h.judged
  simp [Call.overdraws, hjudged, hallow, hpayment, hamount]

/-- What a warranted refund does to the bounds is decided where it was allowed. -/
theorem Warrant.within_iff {since : Database} {v : World} {db' : Database} {x : Execution}
    {s : PolicySnapshot} {d : PolicyResult} (hw : Warrant since v x.permit x.proposal s d)
    (hx : x.Commits v.shared db')
    (ha : x.proposal.action = .issueRefund) (h : v.shared.Within) :
    ∃ call ∈ v.own.history, ∃ payment, call.Allows x.logRow payment ∧
      (db'.Within ↔ call.overdraws = false) := by
  obtain ⟨order, payment, policy, amount, hallow, hamount, hbefore, hafter⟩ :=
    hw.payment_row hx ha
  obtain ⟨call, hmem, hjudged⟩ := hw.judged
  have hallows : call.Allows x.logRow payment := by
    refine ⟨⟨s, d, hjudged, hw.allowed, hallow.payment_read, ?_⟩, ?_⟩
    · rw [hallow.decided]
      exact hamount.symm
    · have hresource := hw.resource
      rw [hallow.decided] at hresource
      exact hresource.symm
  refine ⟨call, hmem, payment, hallows, ?_⟩
  have hrow : payment.row.Within := h _ (Table.find?_eq_some.mp hbefore).1
  rw [hx.within_iff ha h hafter, PaymentRow.within_refunded_iff hrow hallow.amount_pos.le,
    hallows.overdraws_iff, ← hamount]
  rfl

/-! ## Runs of modest decisions -/

section Reachable

variable {ι : Type} [DecidableEq ι] {runs : Runs ι} {db : Database}
variable {c c' : Pool ι PyError Database Local RunReport} {i : ι} {row : MutationRow}

/-- **One statement.**  A statement keeps the bounds if what it injects does, and if no decision
has allowed more than was left. -/
theorem Statement.within {A : StateChange → Prop} {since : Database} {v v' : World}
    (hs : Statement A (Grounded since) v v')
    (hinjects : ∀ change, A change → change.apply v.shared = .ok v'.shared →
      v.shared.Within → v'.shared.Within)
    (hmodest : ∀ call ∈ v.own.history, call.overdraws = false) (h : v.shared.Within) :
    v'.shared.Within := by
  cases hs with
  | quiet heq => exact heq ▸ h
  | issue permit unused hins =>
      obtain ⟨permits, -, heq⟩ := Database.insertPermit_eq_ok.mp hins
      exact Database.within_of_eq (by rw [heq]) h
  | inject change may hap => exact hinjects change may hap h
  | commit x cleared grounds hx =>
      by_cases ha : x.proposal.action = .issueRefund
      · rcases grounds with hticket | ⟨s, d, hw⟩
        · simp [ha] at hticket
        obtain ⟨call, hmem, payment, -, hiff⟩ := hw.within_iff hx ha h
        exact hiff.mpr (hmodest call hmem)
      · rcases hx.payments with ⟨ha', -⟩ | ⟨-, hpayments⟩
        · exact absurd ha' ha
        · exact Database.within_of_eq hpayments h

/-- **A payment is never refunded beyond what it captured, while decisions are modest.**
Runs next to each other, next to others who increment versions and keep the payments within
bounds, as each injected change does where it is made.  In every run that only goes on from
states in which no decision has allowed more than was left of the payment it had read, all
payments stay within bounds.  And a refund takes the payments out of bounds exactly if its
decision did allow more. -/
theorem within_while_modest (hinj : runs.Injecting StateChange.Bumps) (hdb : db.Within) :
    (∀ c, Relation.ReflTransGen (fun c c' => Pool.Step KeepingWithin c c' ∧
        runs.InjectsWithin c c' ∧ Modest c) (runs.pool db) c → c.shared.Within) ∧
    ∀ c i c' row, Pool.Reaches KeepingWithin (runs.pool db) c → c.shared.Within →
      Pool.Act i c c' → c'.shared.mutationLog = c.shared.mutationLog ++ [row] →
      row.action = .issueRefund →
      ∃ call ∈ (c.threads i).own.history, ∃ payment, call.Allows row payment ∧
        (c'.shared.Within ↔ call.overdraws = false) := by
  have hstatement : ∀ {c c' i}, Pool.Reaches KeepingWithin (runs.pool db) c →
      Pool.Act i c c' → _ := fun hreach hact =>
    (Runs.statement (fun _ _ h => h.1) hinj hreach hact).2
  constructor
  · intro c hreach
    induction hreach with
    | refl => exact hdb
    | @tail b d hreach hstep ih =>
        have hb : Pool.Reaches KeepingWithin (runs.pool db) b :=
          Relation.ReflTransGen.mono (fun _ _ h => h.1) _ _ hreach
        obtain ⟨hstep, hinjects, hmodest⟩ := hstep
        cases hstep with
        | env h => exact h.2 ih
        | act i hact =>
            exact (hstatement hb hact).within
              (fun change hasked => hinjects i hact change hasked.1) (hmodest i) ih
  · intro c i c' row hreach hwithin hact hlog hrow
    obtain ⟨x, -, hgrounds, hx, rfl⟩ := (hstatement hreach hact).commit_of_log hlog
    rcases hgrounds with hticket | ⟨s, d, hw⟩
    · have hrefund : x.proposal.action = .issueRefund := hrow
      simp [hrefund] at hticket
    · exact hw.within_iff hx hrow hwithin

end Reachable

/-! ## A payment that is refunded twice over -/

/-- An order whose payment carries a partial refund and is still open. -/
def partlyRefunded (refundedCents : Int) : Database :=
  { seedWorld [("ord_0001", .paid)] with
    payments := .ofRows [{ seedPayment "ord_0001" with refundedCents }] }

/-- A part of the refund is booked elsewhere, behind the back of the run. -/
def bookPartly : StateChange where
  resource := "payment"
  resourceId := "pay_ord_0001"
  setValues := [.refundedCents 3000]

/-- It is booked before the run commits. -/
def bookedMeanwhile : FailureSpec where
  preCommitChanges := [(str ActionName.issueRefund, [bookPartly])]

/-- One run, asked for a refund of 5000. -/
def refundRuns (failures : FailureSpec) : Runs Unit where
  runners _ := firstOrderRunner
  proposals _ := [.proposal refundFirst]
  failures _ := failures

/-- The run after so many statements. -/
def refunding (failures : FailureSpec) (refundedCents : Int) (n : Nat) :
    Pool Unit PyError Database Local RunReport :=
  (fun c => c.next ())^[n] ((refundRuns failures).pool (partlyRefunded refundedCents))

theorem bookedMeanwhile_bumps : (refundRuns bookedMeanwhile).Injecting StateChange.Bumps := by
  intro i entry hentry change hmem
  obtain rfl := List.mem_singleton.mp hentry
  obtain rfl := List.mem_singleton.mp hmem
  exact Or.inl rfl

/-- Of 10000, 2000 were refunded before; there are 5000 left to refund when another 1000 are. -/
theorem within_refunding : (refunding bookedMeanwhile 2000 40).shared.Within := by
  have hruns := Pool.reaches_iterate_while (E := KeepingWithin)
    (C := fun c => Modest c ∧ (c.next ()).shared.Within)
    ((refundRuns bookedMeanwhile).pool (partlyRefunded 2000)) () 40 (by decide +kernel)
  refine (within_while_modest bookedMeanwhile_bumps (by decide)).1 _
    (Relation.ReflTransGen.mono (fun c c' h => ?_) _ _ hruns)
  obtain ⟨hstep, hmodest, hwithin⟩ := h
  refine ⟨hstep, fun i hact change hasked happly hbefore => ?_, hmodest⟩
  rw [hact.eq_next]
  exact hwithin

/-- Of 10000, 8000 were refunded before; another 5000 are refunded, and nothing is injected. -/
theorem refunded_beyond_captured :
    (partlyRefunded 8000).Within ∧
    Relation.ReflTransGen (fun c c' => Pool.Step KeepingWithin c c' ∧
      (refundRuns {}).InjectsWithin c c') ((refundRuns {}).pool (partlyRefunded 8000))
        (refunding {} 8000 40) ∧
    ¬ (refunding {} 8000 40).shared.Within := by
  refine ⟨by decide, ?_, by decide +kernel⟩
  refine Relation.ReflTransGen.mono (fun c c' h => ⟨h, ?_⟩) _ _ (Pool.reaches_iterate _ () 40)
  rintro i hact change ⟨entry, hentry, -⟩
  exact absurd hentry List.not_mem_nil

end BoundedRefund
