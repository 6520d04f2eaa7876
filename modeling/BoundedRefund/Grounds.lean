import BoundedRefund.Ledger

/-!
# The grounds of a run

A run decides on a snapshot and writes later, while others change the database.
What ties the write to the decision is kept by everybody: whoever changes a row
increments its version (`Later`), so a record of the snapshot is either unchanged or
has visibly moved on (`Read`).

`run_spec` follows the decision through the whole run.  Whatever the others do, and
along every detour of the loops, the retry and the replay, a run commits tickets and
executions of permits that were issued on an `ALLOW` (`Warrant`), and nothing else.
-/

namespace BoundedRefund

open Concurrent Relational

/-! ## Versions move -/

/-- A later database: no row is gone, and a row that changed has a greater version. -/
structure Later (db db' : Database) : Prop extends Persists db db' where
  refundPolicies : Along (Advances RefundPolicy.version) db.refundPolicies db'.refundPolicies
  orders : Along (Advances OrderRow.version) db.orders db'.orders
  payments : Along (Advances PaymentRow.version) db.payments db'.payments
  shipments : Along (Advances ShipmentRow.version) db.shipments db'.shipments

/-- The change increments the version of the row it edits. -/
def StateChange.Bumps (c : StateChange) : Prop := c.bumpVersion = true ∨ c.setValues = []

namespace Later

variable {db db' : Database}

theorem refl (db : Database) : Later db db where
  toPersists := Persists.refl db
  refundPolicies := Along.refl (Advances.refl _) _
  orders := Along.refl (Advances.refl _) _
  payments := Along.refl (Advances.refl _) _
  shipments := Along.refl (Advances.refl _) _

/-- What has become of the rows may be told in two steps. -/
theorem trans {db'' : Database} (h : Later db db') (h' : Later db' db'') : Later db db'' where
  toPersists := h.toPersists.trans h'.toPersists
  refundPolicies := h.refundPolicies.trans (fun _ _ _ => Advances.trans) h'.refundPolicies
  orders := h.orders.trans (fun _ _ _ => Advances.trans) h'.orders
  payments := h.payments.trans (fun _ _ _ => Advances.trans) h'.payments
  shipments := h.shipments.trans (fun _ _ _ => Advances.trans) h'.shipments

/-- Permits and records may come and go through hands that keep to them; the rows
the policy looks at stay. -/
theorem of_persists (h : Persists db db') (hpolicies : db'.refundPolicies = db.refundPolicies)
    (horders : db'.orders = db.orders) (hpayments : db'.payments = db.payments)
    (hshipments : db'.shipments = db.shipments) : Later db db' where
  toPersists := h
  refundPolicies := hpolicies ▸ Along.refl (Advances.refl _) _
  orders := horders ▸ Along.refl (Advances.refl _) _
  payments := hpayments ▸ Along.refl (Advances.refl _) _
  shipments := hshipments ▸ Along.refl (Advances.refl _) _

/-- To issue a permit is a step on. -/
theorem insertPermit {row : PermitRow} (h : db.insertPermit row = .ok db') : Later db db' := by
  have hpersists := Persists.insertPermit h
  obtain ⟨permits, -, rfl⟩ := Database.insertPermit_eq_ok.mp h
  exact of_persists hpersists rfl rfl rfl rfl

/-- So is a change that bumps the version. -/
theorem inject {change : StateChange} (hbumps : change.Bumps)
    (h : change.apply db = .ok db') : Later db db' := by
  rcases StateChange.apply_eq_ok h with ⟨-, -, rfl⟩ | ⟨resource, -, hquiet, heq⟩
  · exact refl _
  have hone : change.bump = 1 := by
    rcases hbumps with hb | hs
    · simp [StateChange.bump, hb]
    · have hb : change.bumpVersion = true := by simpa [hs] using hquiet
      simp [StateChange.bump, hb]
  subst heq
  cases resource with
  | order =>
      refine { refl db with orders := ?_ }
      refine Along.update (Advances.refl _) (fun row => (change.editOrder_kept row).1)
        fun row _ _ => Or.inr ?_
      rw [(change.editOrder_kept row).2.2, hone]
      exact lt_add_one row.version
  | payment =>
      refine { refl db with payments := ?_ }
      refine Along.update (Advances.refl _) (fun row => (change.editPayment_kept row).1)
        fun row _ _ => Or.inr ?_
      rw [(change.editPayment_kept row).2.2, hone]
      exact lt_add_one row.version
  | shipment =>
      refine { refl db with shipments := ?_ }
      refine Along.update (Advances.refl _) (fun row => (change.editShipment_kept row).1)
        fun row _ _ => Or.inr ?_
      rw [(change.editShipment_kept row).2.2, hone]
      exact lt_add_one row.version

/-- So is an execution. -/
theorem commits {x : Execution} (h : x.Commits db db') : Later db db' where
  toPersists := Persists.commits h
  refundPolicies := h.refundPolicies ▸ Along.refl (Advances.refl _) _
  orders := by
    rcases h.orders with ⟨-, ho, -⟩ | ⟨-, ho, -⟩ <;> rw [ho]
    · refine Along.update (Advances.refl OrderRow.version) OrderRow.cancelled_orderId
        fun row _ _ => Or.inr ?_
      exact lt_add_one row.version
    · exact Along.refl (Advances.refl _) _
  payments := by
    rcases h.payments with ⟨-, hp⟩ | ⟨-, hp⟩ <;> rw [hp]
    · refine Along.update (Advances.refl PaymentRow.version)
        (fun row => row.refunded_paymentId x.amount)
        fun row _ _ => Or.inr ?_
      exact lt_add_one row.version
    · exact Along.refl (Advances.refl _) _
  shipments := by
    rcases h.orders with ⟨-, -, hs⟩ | ⟨-, -, hs⟩ <;> rw [hs]
    · refine Along.update (Advances.refl ShipmentRow.version) ShipmentRow.cancelled_shipmentId
        fun row _ _ => Or.inr ?_
      exact lt_add_one row.version
    · exact Along.refl (Advances.refl _) _

/-- Where every injected change bumps a version, everything is a step on. -/
theorem discipline {A : StateChange → Prop} (hA : ∀ change, A change → change.Bumps) :
    Discipline Later A where
  refl := refl
  trans := fun _ _ _ => trans
  permits := fun h => h.permits
  issue := insertPermit
  inject := fun ha => inject (hA _ ha)
  commit := commits

end Later

/-- What any run and any injected change keep to: permits and records are never taken
back, and no version ever decreases. -/
structure Aging (db db' : Database) : Prop extends Persists db db' where
  orders : Along (Ages OrderRow.version) db.orders db'.orders
  payments : Along (Ages PaymentRow.version) db.payments db'.payments

/-- What is later is older. -/
theorem Later.aging {db db' : Database} (h : Later db db') : Aging db db' where
  toPersists := h.toPersists
  orders := h.orders.mono fun _ _ => Advances.version_le
  payments := h.payments.mono fun _ _ => Advances.version_le

namespace Aging

variable {db db' : Database}

theorem refl (db : Database) : Aging db db := (Later.refl db).aging

theorem trans {db'' : Database} (h : Aging db db') (h' : Aging db' db'') : Aging db db'' where
  toPersists := h.toPersists.trans h'.toPersists
  orders := h.orders.trans (fun _ _ _ => Ages.trans) h'.orders
  payments := h.payments.trans (fun _ _ _ => Ages.trans) h'.payments

theorem inject {change : StateChange} (h : change.apply db = .ok db') : Aging db db' := by
  have hbump : 0 ≤ change.bump := by
    unfold StateChange.bump
    split_ifs <;> omega
  have hpersists := Persists.inject h
  rcases StateChange.apply_eq_ok h with ⟨-, -, rfl⟩ | ⟨resource, -, -, heq⟩
  · exact refl _
  subst heq
  cases resource with
  | order =>
      refine { refl db with toPersists := hpersists, orders := ?_ }
      refine Along.update (Ages.refl _) (fun row => (change.editOrder_kept row).1)
        fun row _ _ => ?_
      rw [Ages, (change.editOrder_kept row).2.2]
      omega
  | payment =>
      refine { refl db with toPersists := hpersists, payments := ?_ }
      refine Along.update (Ages.refl _) (fun row => (change.editPayment_kept row).1)
        fun row _ _ => ?_
      rw [Ages, (change.editPayment_kept row).2.2]
      omega
  | shipment => exact { refl db with toPersists := hpersists }

end Aging

/-! ## Snapshots -/

/-- Every record of the snapshot stood in its table. -/
structure Read (snapshot : PolicySnapshot) (db : Database) : Prop where
  order : ∀ o ∈ snapshot.order, Stood (Advances OrderRow.version) db.orders o.row
  payment : ∀ p ∈ snapshot.payment, Stood (Advances PaymentRow.version) db.payments p.row
  shipment : ∀ s ∈ snapshot.shipment, Stood (Advances ShipmentRow.version) db.shipments s.row
  refundPolicy : ∀ p ∈ snapshot.refundPolicy,
    Stood (Advances RefundPolicy.version) db.refundPolicies p

/-- What was read is still explained by a later database. -/
theorem Read.later {snapshot : PolicySnapshot} {db db' : Database} (h : Read snapshot db)
    (hlater : Later db db') : Read snapshot db' where
  order o ho := (h.order o ho).along (fun _ _ _ => Advances.trans) hlater.orders
  payment p hp := (h.payment p hp).along (fun _ _ _ => Advances.trans) hlater.payments
  shipment s hs := (h.shipment s hs).along (fun _ _ _ => Advances.trans) hlater.shipments
  refundPolicy p hp :=
    (h.refundPolicy p hp).along (fun _ _ _ => Advances.trans) hlater.refundPolicies

/-- No record of the snapshot is older than the database: it was read there, or later. -/
structure Fresh (db : Database) (snapshot : PolicySnapshot) : Prop where
  order : ∀ o ∈ snapshot.order, ∀ row, db.orders.find? o.orderId = some row →
    row.version ≤ o.version
  payment : ∀ p ∈ snapshot.payment, ∀ row, db.payments.find? p.paymentId = some row →
    row.version ≤ p.version
  shipment : ∀ s ∈ snapshot.shipment, ∀ row, db.shipments.find? s.shipmentId = some row →
    row.version ≤ s.version
  refundPolicy : ∀ p ∈ snapshot.refundPolicy, ∀ row,
    db.refundPolicies.find? p.policyId = some row → row.version ≤ p.version

/-- What is found later is no older. -/
theorem version_le_of_found {ρ κ ν : Type} {key : ρ → κ} [DecidableEq κ] [Preorder ν]
    {ver : ρ → ν} {t t' : Table key} (h : Along (Advances ver) t t') {k : κ} {row row' : ρ}
    (hrow : t.find? k = some row) (hrow' : t'.find? k = some row') : ver row ≤ ver row' := by
  obtain ⟨found, hfound, hadv⟩ := h k row hrow
  obtain rfl : found = row' := Option.some.inj (hfound.symm.trans hrow')
  exact hadv.version_le

/-- What is fresh is fresh since any earlier moment. -/
theorem Fresh.of_later {snapshot : PolicySnapshot} {db db' : Database} (h : Fresh db' snapshot)
    (hlater : Later db db') : Fresh db snapshot where
  order o ho row hrow := by
    obtain ⟨row', hrow', hadv⟩ := hlater.orders _ _ hrow
    exact hadv.version_le.trans (h.order o ho row' hrow')
  payment p hp row hrow := by
    obtain ⟨row', hrow', hadv⟩ := hlater.payments _ _ hrow
    exact hadv.version_le.trans (h.payment p hp row' hrow')
  shipment s hs row hrow := by
    obtain ⟨row', hrow', hadv⟩ := hlater.shipments _ _ hrow
    exact hadv.version_le.trans (h.shipment s hs row' hrow')
  refundPolicy p hp row hrow := by
    obtain ⟨row', hrow', hadv⟩ := hlater.refundPolicies _ _ hrow
    exact hadv.version_le.trans (h.refundPolicy p hp row' hrow')

section ReadTools

variable {R : Database → Database → Prop} {A : StateChange → Prop}
variable {G : World → Execution → Prop} {v : World} {α : Type}

/-- A read returns what a query finds at its end. -/
theorem call_spec (D : Discipline R A) (tool : String) (arguments : List (String × PlainValue))
    (fetch : Database → Except PyError α) (made left : Nat) :
    (ReadTools.call tool arguments fetch made left).Spec R A G
      (fun r t => Frame R v t ∧ ∀ a, r = .ok a → fetch t.shared = .ok a) v := by
  induction left generalizing made v with
  | zero => exact Py.Spec.throw ⟨Frame.refl D v, by simp⟩
  | succ left ih =>
      refine (record_spec D _ _).bind (fun _ t ht => ?_) fun _ _ h => ⟨h, by simp⟩
      refine (readShouldFail_spec D tool).bind (fun fails u hu => ?_)
        fun _ _ h => ⟨ht.trans D h, by simp⟩
      cases fails with
      | true => exact (ih (made + 1)).mono fun _ _ h => ⟨(ht.trans D hu).trans D h.1, h.2⟩
      | false =>
          exact Py.Spec.query D fun w hw =>
            ⟨(ht.trans D hu).trans D (Frame.of_rely hw), fun _ h => h⟩

/-- A read that fails is turned into nothing read. -/
theorem recovering_spec {read : Py (Option α)} {fetch : Database → Except PyError (Option α)}
    (h : read.Spec R A G (fun r t => Frame R v t ∧ ∀ a, r = .ok a → fetch t.shared = .ok a) v) :
    (ReadTools.recovering read).Spec R A G
      (fun r t => Frame R v t ∧ ∀ a, r = .ok a → ∀ b ∈ a.1, fetch t.shared = .ok (some b)) v := by
  have hread : (do return (← read, []) : Py (Option α × List String)).Spec R A G
      (fun r t => Frame R v t ∧ ∀ a, r = .ok a → ∀ b ∈ a.1, fetch t.shared = .ok (some b)) v := by
    refine h.bind (fun a t ht => Py.Spec.ret ⟨ht.1, ?_⟩) fun _ _ h => ⟨h.1, by simp⟩
    intro _ ha b hb
    cases ha
    rw [ht.2 a rfl, show a = some b from hb]
  refine hread.tryCatch (fun err t ht => ?_) fun _ _ h => h
  cases err with
  | readUnavailable tool attempts => exact Py.Spec.ret ⟨ht.1, by simp⟩
  | _ => exact Py.Spec.throw ⟨ht.1, by simp⟩

/-- A record that is not required is not read. -/
theorem optional_spec (D : Discipline R A) (needed : Bool) {read : Py (Option α)}
    {fetch : Database → Except PyError (Option α)}
    (h : read.Spec R A G (fun r t => Frame R v t ∧ ∀ a, r = .ok a → fetch t.shared = .ok a) v) :
    (ReadTools.optional needed read).Spec R A G
      (fun r t => Frame R v t ∧ ∀ a, r = .ok a → ∀ b ∈ a.1, fetch t.shared = .ok (some b)) v := by
  cases needed with
  | true => exact recovering_spec h
  | false => exact Py.Spec.ret ⟨Frame.refl D v, by simp⟩

/-- The policy is read under the id the order names. -/
theorem policyOf_spec (D : Discipline R A) (needed : Bool) (order : Option Order) :
    (ReadTools.policyOf needed order).Spec R A G (fun r t => Frame R v t ∧ ∀ a, r = .ok a →
      ∀ p ∈ a.1, t.shared.refundPolicies.find? p.policyId = some p) v := by
  cases order with
  | none =>
      refine Py.Spec.ret ⟨Frame.refl D v, ?_⟩
      intro a ha
      cases ha
      simp
  | some o =>
      refine (optional_spec D needed (call_spec D _ _ _ _ _)).mono fun _ _ h => ⟨h.1, ?_⟩
      intro a ha p hp
      have hfetch := Except.ok.inj (h.2 a ha p hp)
      rwa [(Table.find?_eq_some.mp hfetch).2]

end ReadTools

section Snapshot

variable {A : StateChange → Prop} (hA : ∀ change, A change → change.Bumps)
variable (r : Runner) {v : World}

include hA

/-- **Reading a snapshot**: each record was in its table when it was read, and it was read after
the reading of the snapshot began. -/
theorem snapshot_spec {G : World → Execution → Prop} (proposal : ActionProposal) :
    (r.snapshot proposal).Spec Later A G
      (fun res t => Frame Later v t ∧ ∀ s, res = .ok s → Read s t.shared ∧ Fresh v.shared s)
      v := by
  have D := Later.discipline hA
  refine (recovering_spec (call_spec D _ _ _ _ _)).bind (fun order t ht => ?_)
    fun _ _ h => ⟨h.1, by simp⟩
  refine (optional_spec D _ (call_spec D _ _ _ _ _)).bind (fun payment u hu => ?_)
    fun _ _ h => ⟨ht.1.trans D h.1, by simp⟩
  refine (optional_spec D _ (call_spec D _ _ _ _ _)).bind (fun shipment w hw => ?_)
    fun _ _ h => ⟨(ht.1.trans D hu.1).trans D h.1, by simp⟩
  have hframe := (ht.1.trans D hu.1).trans D hw.1
  refine (policyOf_spec D _ _).bind (fun policy y hy => ?_)
    fun _ _ h => ⟨hframe.trans D h.1, by simp⟩
  have hframe' := hframe.trans D hy.1
  refine (now_spec D r.clock).bind (fun now z hz => Py.Spec.ret ⟨hframe'.trans D hz, ?_⟩)
    fun _ _ h => ⟨hframe'.trans D h, by simp⟩
  intro s hs
  cases hs
  -- each record was read before the ones behind it, so it has seen all their steps
  have hlast := hz.shared
  constructor
  · refine ⟨fun o ho => ?_, fun p hp => ?_, fun s hs => ?_, fun p hp => ?_⟩
    · have hread := ht.2 order rfl o ho
      have hfound := Database.fetchOrder_eq_some.mp hread
      rw [← Database.fetchOrder_orderId hread] at hfound
      exact (Stood.of_find? (Advances.refl _) hfound).along (fun _ _ _ => Advances.trans)
        (((hu.1.shared.trans hw.1.shared).trans hy.1.shared).trans hlast).orders
    · have hfound := (Database.fetchPaymentForOrder_eq_some (hu.2 payment rfl p hp)).1
      exact (Stood.of_find? (Advances.refl _) hfound).along (fun _ _ _ => Advances.trans)
        ((hw.1.shared.trans hy.1.shared).trans hlast).payments
    · have hfound := (Database.fetchShipmentForOrder_eq_some (hw.2 shipment rfl s hs)).1
      exact (Stood.of_find? (Advances.refl _) hfound).along (fun _ _ _ => Advances.trans)
        (hy.1.shared.trans hlast).shipments
    · exact (Stood.of_find? (Advances.refl _) (hy.2 policy rfl p hp)).along
        (fun _ _ _ => Advances.trans) hlast.refundPolicies
  · -- what was found before any of the reads is no newer than what they found
    refine ⟨fun o ho row hrow => ?_, fun p hp row hrow => ?_, fun s hs row hrow => ?_,
      fun p hp row hrow => ?_⟩
    · have hread := ht.2 order rfl o ho
      rw [Database.fetchOrder_orderId hread] at hrow
      exact version_le_of_found ht.1.shared.orders hrow (Database.fetchOrder_eq_some.mp hread)
    · have hfound := (Database.fetchPaymentForOrder_eq_some (hu.2 payment rfl p hp)).1
      exact version_le_of_found (ht.1.trans D hu.1).shared.payments hrow hfound
    · have hfound := (Database.fetchShipmentForOrder_eq_some (hw.2 shipment rfl s hs)).1
      exact version_le_of_found hframe.shared.shipments hrow hfound
    · exact version_le_of_found hframe'.shared.refundPolicies hrow (hy.2 policy rfl p hp)

end Snapshot

/-! ## Warrants -/

/-- A permit was issued on an `ALLOW`: the policy allowed the proposal on a snapshot
of one of the calls, read on `since` or later, and the permit says what the decision said. -/
structure Warrant (since : Database) (v : World) (permit : ExecutionPermit)
    (proposal : ActionProposal) (s : PolicySnapshot) (d : PolicyResult) : Prop where
  judged : ∃ call ∈ v.own.history, call.judged = some (s, d)
  read : Read s v.shared
  fresh : Fresh since s
  evaluated : evaluate (some proposal) s = .ok d
  allowed : d.decision = .allow
  resource : permit.resourceId = d.resourceId
  version : permit.expectedResourceVersion = d.expectedResourceVersion
  maxAmount : permit.maxAmountCents = d.maxAmountCents

/-- The grounds on which a run commits that began on `since`. -/
def Grounded (since : Database) (v : World) (x : Execution) : Prop :=
  x.proposal.action = .createSupportTicket ∨ ∃ s d, Warrant since v x.permit x.proposal s d

/-- The permit of this id is in the table, and there is a warrant for it. -/
def Warranted (since : Database) (v : World) (permitId : String) (proposal : ActionProposal) :
    Prop :=
  ∃ permit s d, permit.permitId = permitId ∧ Issued v.shared permit ∧
    Warrant since v permit proposal s d

/-- What a run maintains about itself that began on `since`: its injector only makes changes
among `A`, and the permit it may present again is warranted. -/
structure Sound (A : StateChange → Prop) (since : Database) (v : World) : Prop where
  later : Later since v.shared
  injects : ∀ change, v.own.session.MayInject change → A change
  last : ∀ permitId proposal, v.own.session.lastExecution = some (permitId, proposal) →
    Warranted since v permitId proposal

/-- What was issued under one id is one permit, up to its being used. -/
theorem Issued.agree {db : Database} {p q : ExecutionPermit} (hp : Issued db p)
    (hq : Issued db q) (hid : p.permitId = q.permitId) :
    { p with used := true } = { q with used := true } := by
  obtain ⟨-, row, row', rfl, hkept, hfind⟩ := hp
  obtain ⟨-, other, other', rfl, hkept', hfind'⟩ := hq
  obtain rfl : row' = other' := by
    rw [hid] at hfind
    exact Option.some.inj (hfind.symm.trans hfind')
  have hspend : ∀ {a b : PermitRow}, a.Kept b → a.spend = b.spend := by
    rintro a b (rfl | rfl) <;> rfl
  exact congrArg PermitRow.permit ((hspend hkept).trans (hspend hkept').symm)

namespace Warrant

variable {since : Database} {v v' : World} {permit : ExecutionPermit}
variable {proposal : ActionProposal} {s : PolicySnapshot} {d : PolicyResult}

/-- A warrant lasts as long as the decision is remembered. -/
theorem later (h : Warrant since v permit proposal s d) (hshared : Later v.shared v'.shared)
    (hjudged : ∀ call ∈ v.own.history, call.judged = some (s, d) →
      ∃ call' ∈ v'.own.history, call'.judged = some (s, d)) :
    Warrant since v' permit proposal s d := by
  obtain ⟨call, hmem, hcall⟩ := h.judged
  exact { h with judged := hjudged call hmem hcall, read := h.read.later hshared }

/-- A warrant outlasts what others do. -/
theorem frame (h : Warrant since v permit proposal s d) (hframe : Frame Later v v') :
    Warrant since v' permit proposal s d :=
  h.later hframe.shared fun call hmem hcall => ⟨call, hframe.history ▸ hmem, hcall⟩

/-- The permit that is looked up later is the one the warrant is for. -/
theorem agree {other : ExecutionPermit} (h : Warrant since v permit proposal s d)
    (hagree : { permit with used := true } = { other with used := true }) :
    Warrant since v other proposal s d :=
  { h with
    resource := (congrArg ExecutionPermit.resourceId hagree).symm.trans h.resource
    version := (congrArg ExecutionPermit.expectedResourceVersion hagree).symm.trans h.version
    maxAmount := (congrArg ExecutionPermit.maxAmountCents hagree).symm.trans h.maxAmount }

end Warrant

/-- A permit that is warranted stays so. -/
theorem Warranted.later {since : Database} {v v' : World} {permitId : String}
    {proposal : ActionProposal} (h : Warranted since v permitId proposal)
    (hshared : Later v.shared v'.shared)
    (hjudged : ∀ s d, ∀ call ∈ v.own.history, call.judged = some (s, d) →
      ∃ call' ∈ v'.own.history, call'.judged = some (s, d)) :
    Warranted since v' permitId proposal := by
  obtain ⟨permit, s, d, hid, hissued, hwarrant⟩ := h
  exact ⟨permit, s, d, hid, hissued.later (Later.discipline fun _ h => h) hshared,
    hwarrant.later hshared (hjudged s d)⟩

namespace Sound

variable {A : StateChange → Prop} {since : Database} {v v' : World}

/-- What is sound stays sound over a step on. -/
theorem go (h : Sound A since v) (hshared : Later v.shared v'.shared)
    (hjudged : ∀ s d, ∀ call ∈ v.own.history, call.judged = some (s, d) →
      ∃ call' ∈ v'.own.history, call'.judged = some (s, d))
    (hlast : v'.own.session.lastExecution = v.own.session.lastExecution)
    (hinj : ∀ change, v'.own.session.MayInject change → v.own.session.MayInject change) :
    Sound A since v' where
  later := h.later.trans hshared
  injects change hmay := h.injects change (hinj change hmay)
  last permitId proposal hl := (h.last permitId proposal (hlast ▸ hl)).later hshared hjudged

theorem frame (h : Sound A since v) (hframe : Frame Later v v') : Sound A since v' :=
  h.go hframe.shared (fun _ _ call hmem hcall => ⟨call, hframe.history ▸ hmem, hcall⟩)
    hframe.lastExecution fun change => (hframe.mayInject_iff change).mp

end Sound

section Run

variable {A : StateChange → Prop} {since : Database} {r : Runner} {v : World}

variable (hA : ∀ change, A change → change.Bumps)

include hA

/-- Executing under a warranted permit. -/
theorem execute_warranted_spec {permitId : String} {proposal : ActionProposal}
    {texts : TicketTexts} (hs : Sound A since v) (hw : Warranted since v permitId proposal) :
    (r.executor.execute (some permitId) proposal texts).Spec Later A (Grounded since)
      (fun _ t => Frame Later v t) v := by
  refine execute_spec (Later.discipline hA) hs.injects fun t permit now hframe hid hcleared => ?_
  obtain ⟨issued, s, d, hid', hissued, hwarrant⟩ := hw
  refine Or.inr ⟨s, d, (hwarrant.frame hframe).agree ?_⟩
  exact (hissued.later (Later.discipline hA) hframe.shared).agree hcleared.issued
    (hid'.trans (Option.some.inj hid))

/-- A permit that is warranted is presented, and commits on its ground. -/
theorem executeWithRetry_spec {permitId : String} {proposal : ActionProposal}
    (hs : Sound A since v) (hw : Warranted since v permitId proposal) :
    (r.executeWithRetry permitId proposal).Spec Later A (Grounded since)
      (fun _ t => Frame Later v t) v := by
  refine (execute_warranted_spec hA hs hw).tryCatch (fun err t ht => ?_) fun _ _ h => h
  cases err with
  | responseTimeout tool key =>
      have hnote : (Py.touch fun s => { s.note ("response lost after commit; retrying " ++
          key) with recovered := true }).Spec Later A (Grounded since)
          (fun _ u => Frame Later t u) t :=
        Py.Spec.touch_frame (Later.discipline hA) (fun _ => rfl) fun _ => rfl
      refine hnote.bind (fun _ u hu => ?_) fun _ _ h => ht.trans (Later.discipline hA) h
      have hframe := ht.trans (Later.discipline hA) hu
      have hw' : Warranted since u permitId proposal := hw.later hframe.shared
        fun _ _ call hmem hcall => ⟨call, hframe.history ▸ hmem, hcall⟩
      exact (execute_warranted_spec hA (hs.frame hframe) hw').mono
        fun _ _ h => hframe.trans (Later.discipline hA) h
  | _ => exact Py.Spec.throw ht

/-! ## The stages of a run -/

/-- An escalation proposes a ticket, and a ticket needs no grounds. -/
theorem escalate_spec (hs : Sound A since v) (orderId : String) (reason : ReasonCode)
    (detail : String) :
    (r.escalate orderId reason detail).Spec Later A (Grounded since)
      (fun _ t => Frame Later v t) v := by
  have D := Later.discipline hA
  have hfetch : (Py.query (·.fetchOrder orderId)).Spec Later A (Grounded since)
      (fun _ t => Frame Later v t) v :=
    Py.Spec.query D fun _ ht => Frame.of_rely ht
  refine hfetch.bind (fun order t ht => ?_) fun _ _ h => h
  cases order with
  | none =>
      refine (note_spec D _).bind (fun _ u hu => Py.Spec.ret (ht.trans D hu)) fun _ _ h =>
        ht.trans D h
  | some order =>
      refine Py.Spec.bind (Q := fun res u => Frame Later v u ∧
        res = Runner.ticketProposal order reason detail) (Py.Spec.raising ⟨ht, rfl⟩)
        (fun proposal u hu => ?_) fun _ _ h => h.1
      refine (issuePermit_spec D _ _).bind (fun permit w hw => ?_) fun _ _ h =>
        hu.1.trans D h.1
      have hframe := hu.1.trans D hw.1
      refine (emit_spec D _ _).bind (fun _ y hy => ?_) fun _ _ h => hframe.trans D h
      have hframe' := hframe.trans D hy
      refine Py.Spec.bind (Q := fun _ z => Frame Later y z) ?_
        (fun _ z hz => Py.Spec.ret (hframe'.trans D hz)) fun _ _ h => hframe'.trans D h
      refine execute_spec D (hs.frame hframe').injects fun _ _ _ _ _ _ => Or.inl ?_
      exact Runner.ticketProposal_action hu.2.symm

/-- The permit of an allowed proposal is warranted, and stays so through the retry. -/
theorem executeAllowed_spec (hs : Sound A since v) {proposal : ActionProposal} {s : PolicySnapshot}
    {d : PolicyResult} (hjudged : ∃ call ∈ v.own.history, call.judged = some (s, d))
    (hread : Read s v.shared) (hfresh : Fresh since s) (heval : evaluate (some proposal) s = .ok d)
    (hallow : d.decision = .allow) (attempt : Nat) :
    (r.executeAllowed proposal d attempt).Spec Later A (Grounded since)
      (fun _ t => Sound A since t) v := by
  have D := Later.discipline hA
  refine (issuePermit_spec D _ _).bind (fun permit t ht => ?_) fun _ _ h => hs.frame h.1
  obtain ⟨ht, hpermit⟩ := ht
  obtain ⟨hissued, n, issuedAt, hat⟩ := hpermit permit rfl
  have hwarrant : Warrant since t permit proposal s d := by
    subst hat
    exact ⟨ht.history ▸ hjudged, hread.later ht.shared, hfresh, heval, hallow, rfl, rfl, rfl⟩
  -- what the call learns now does not touch what was decided on it
  have keeps : ∀ (f : Call → Call) (w : World), (∀ call, (f call).judged = call.judged) →
      ∀ s d, ∀ call ∈ w.own.history, call.judged = some (s, d) →
        ∃ call' ∈ w.own.history.modifyHead f, call'.judged = some (s, d) := by
    intro f w hf s d call hmem hcall
    cases hh : w.own.history with
    | nil => simp [hh] at hmem
    | cons head rest =>
        rw [hh] at hmem
        rcases List.mem_cons.mp hmem with rfl | hmem
        · exact ⟨f call, by simp, (hf call).trans hcall⟩
        · exact ⟨call, by simp [hmem], hcall⟩
  have hlearn : (Py.callLearns fun call => { call with permitId := some permit.permitId }).Spec
      Later A (Grounded since)
      (fun _ u => Sound A since u ∧ Warranted since u permit.permitId proposal) t := by
    refine Py.Spec.callLearns D fun u hu => ?_
    have hframe : Frame Later t u := Frame.of_rely hu
    have hkeeps := keeps (fun call => { call with permitId := some permit.permitId }) u
      fun _ => rfl
    refine ⟨((hs.frame ht).frame hframe).go (Later.refl _) hkeeps rfl fun _ h => h, ?_⟩
    exact ⟨permit, s, d, rfl, hissued.later D hframe.shared,
      (hwarrant.frame hframe).later (Later.refl _) (hkeeps s d)⟩
  refine hlearn.bind (fun _ u hu => ?_) fun _ _ h => h.1
  refine (emit_spec D _ _).bind (fun _ w hw => ?_) fun _ _ h => hu.1.frame h
  have hsound := hu.1.frame hw
  have hwarranted : Warranted since w permit.permitId proposal := hu.2.later hw.shared
    fun _ _ call hmem hcall => ⟨call, hw.history ▸ hmem, hcall⟩
  have htouch : (Py.touch fun s =>
      { s with lastExecution := some (permit.permitId, proposal) }).Spec Later A (Grounded since)
      (fun _ y => Sound A since y ∧ Warranted since y permit.permitId proposal) w := by
    refine Py.Spec.update D fun y hy => ?_
    have hframe : Frame Later w y := Frame.of_rely hy
    have hw' : Warranted since ⟨y.shared, { y.own with session :=
        { y.own.session with lastExecution := some (permit.permitId, proposal) } }⟩
        permit.permitId proposal :=
      hwarranted.later hframe.shared fun _ _ call hmem hcall =>
        ⟨call, hframe.history ▸ hmem, hcall⟩
    refine ⟨⟨(hsound.frame hframe).later, (hsound.frame hframe).injects, ?_⟩, hw'⟩
    intro permitId other hl
    cases hl
    exact hw'
  refine htouch.bind (fun _ y hy => ?_) fun _ _ h => h.1
  refine (executeWithRetry_spec hA hy.1 hy.2).bind (fun result z hz => ?_) fun _ _ h =>
    hy.1.frame h
  have hanswer : (Py.callLearns fun call => { call with answer := some result }).Spec
      Later A (Grounded since) (fun _ a => Sound A since a) z := by
    refine Py.Spec.callLearns D fun a ha => ?_
    exact ((hy.1.frame hz).frame (Frame.of_rely ha)).go (Later.refl _)
      (keeps _ _ fun _ => rfl) rfl fun _ h => h
  exact hanswer.bind (fun _ a ha => Py.Spec.ret ha) fun _ _ h => h

/-- What the policy decides is carried out on its ground. -/
theorem proceed_spec (hs : Sound A since v) {proposal : ActionProposal} {s : PolicySnapshot}
    {d : PolicyResult} (hjudged : ∃ call ∈ v.own.history, call.judged = some (s, d))
    (hread : Read s v.shared) (hfresh : Fresh since s) (heval : evaluate (some proposal) s = .ok d)
    (attempt : Nat) :
    (r.proceed proposal s d attempt).Spec Later A (Grounded since)
      (fun _ t => Sound A since t) v := by
  have D := Later.discipline hA
  simp only [Runner.proceed]
  split_ifs with hdeny hescalate
  · exact (emit_spec D _ _).bind (fun _ t ht => Py.Spec.ret (hs.frame ht)) fun _ _ h =>
      hs.frame h
  · refine (emit_spec D _ _).bind (fun _ t ht => ?_) fun _ _ h => hs.frame h
    refine (escalate_spec hA (hs.frame ht) _ _ _).bind (fun _ u hu => Py.Spec.ret ?_)
      fun _ _ h => (hs.frame ht).frame h
    exact (hs.frame ht).frame hu
  · refine (emit_spec D _ _).bind (fun _ t ht => ?_) fun _ _ h => hs.frame h
    have hallow : d.decision = .allow := by
      cases hd : d.decision <;> simp_all
    exact executeAllowed_spec hA (hs.frame ht) (ht.history ▸ hjudged) (hread.later ht.shared)
      hfresh heval hallow attempt

/-- One attempt.  What the policy decides is written into the history of the call
before anything rests on it. -/
theorem attempt_spec (hs : Sound A since v) (attempt : Nat) (orderId : String) :
    (r.attempt attempt orderId).Spec Later A (Grounded since) (fun _ t => Sound A since t) v := by
  have D := Later.discipline hA
  have hpropose : (Py.propose attempt).Spec Later A (Grounded since) (fun _ t => Sound A since t ∧
      ∃ call rest, t.own.history = call :: rest ∧ call.judged = none) v := by
    refine Py.Spec.propose D fun t ht => ⟨?_, _, _, rfl, rfl⟩
    refine (hs.frame (Frame.of_rely ht)).go (Later.refl _) (fun _ _ call hmem hcall => ?_)
      rfl fun _ h => h
    exact ⟨call, List.mem_cons_of_mem _ hmem, hcall⟩
  refine hpropose.bind (fun raw t ht => ?_) fun _ _ h => h.1
  obtain ⟨hs, call, rest, hhistory, hnone⟩ := ht
  refine (emit_spec D _ _).bind (fun _ u hu => ?_) fun _ _ h => hs.frame h
  cases validate r.intFromText raw with
  | error reason =>
      exact (emit_spec D _ _).bind (fun _ w hw => Py.Spec.ret ((hs.frame hu).frame hw))
        fun _ _ h => (hs.frame hu).frame h
  | ok proposal =>
      refine (emit_spec D _ _).bind (fun _ w hw => ?_) fun _ _ h => (hs.frame hu).frame h
      have hframe := hu.trans D hw
      refine (snapshot_spec hA r proposal).bind (fun s y hy => ?_) fun _ _ h =>
        (hs.frame hframe).frame h.1
      have hframe' := hframe.trans D hy.1
      refine Py.Spec.bind (Q := fun res z => z = y ∧ res = evaluate (some proposal) s)
        (Py.Spec.raising ⟨rfl, rfl⟩) (fun d z hz => ?_) fun _ _ h => h.1 ▸ hs.frame hframe'
      obtain ⟨rfl, heval⟩ := hz
      have hlearn : (Py.callLearns fun call => { call with judged := some (s, d) }).Spec Later A
          (Grounded since) (fun _ a => Sound A since a ∧ Read s a.shared ∧
            ∃ call ∈ a.own.history, call.judged = some (s, d)) z := by
        refine Py.Spec.callLearns D fun a ha => ?_
        have hframe'' := hframe'.trans D (Frame.of_rely ha)
        have hh : a.own.history = call :: rest := hframe''.history.trans hhistory
        refine ⟨(hs.frame hframe'').go (Later.refl _) ?_ rfl fun _ h => h,
          (hy.2 s rfl).1.later ha.2, { call with judged := some (s, d) }, by simp [hh], rfl⟩
        -- the call that learns has not been judged before
        intro s' d' other hmem hother
        rw [hh] at hmem
        rcases List.mem_cons.mp hmem with rfl | hmem
        · simp [hnone] at hother
        · exact ⟨other, by simp [hh, hmem], hother⟩
      refine hlearn.bind (fun _ a ha => ?_) fun _ _ h => h.1
      obtain ⟨hsound, hread, hjudged⟩ := ha
      have hfresh : Fresh since s := (hy.2 s rfl).2.of_later (hs.frame hframe).later
      exact (proceed_spec hA hsound hjudged hread hfresh heval.symm attempt).bind
        (fun _ b hb => Py.Spec.ret hb) fun _ _ h => h

/-! ## Whole runs -/

/-- The first loop commits on grounds only. -/
theorem plan_spec (hs : Sound A since v) (attempts : List Nat) (orderId : String) :
    (r.plan attempts orderId).Spec Later A (Grounded since) (fun _ t => Sound A since t) v := by
  have D := Later.discipline hA
  induction attempts generalizing v orderId with
  | nil => exact Py.Spec.ret hs
  | cons n rest ih =>
      refine (attempt_spec hA hs n orderId).bind (fun step t ht => ?_) fun _ _ h => h
      dsimp only
      split_ifs with hreplan hescalate
      · exact (note_spec D _).bind (fun _ u hu => ih (ht.frame hu) _) fun _ _ h => ht.frame h
      · exact Py.Spec.ret ht
      · exact Py.Spec.ret ht

/-- So does the second. -/
theorem chain_spec (hs : Sound A since v) (planned : Planned) (fuel : Nat) :
    (r.chain planned fuel).Spec Later A (Grounded since) (fun _ t => Sound A since t) v := by
  have D := Later.discipline hA
  induction fuel generalizing v planned with
  | zero =>
      refine Py.Spec.bind (Q := fun _ t => Sound A since t) (Py.Spec.own D fun t ht =>
        hs.frame (Frame.of_rely ht)) (fun exhausted t ht => ?_) fun _ _ h => h
      split_ifs
      · exact Py.Spec.throw ht
      · exact Py.Spec.ret ht
  | succ fuel ih =>
      refine Py.Spec.bind (Q := fun _ t => Sound A since t) (Py.Spec.own D fun t ht =>
        hs.frame (Frame.of_rely ht)) (fun exhausted t ht => ?_) fun _ _ h => h
      split_ifs
      · refine (attempt_spec hA ht 1 planned.orderId).bind (fun step u hu => ?_) fun _ _ h => h
        dsimp only
        split_ifs
        · exact Py.Spec.ret hu
        · exact ih hu _
      · exact Py.Spec.ret ht

/-- The deliberate replay presents the last permit, which is warranted. -/
theorem replay_spec (hs : Sound A since v) :
    r.replay.Spec Later A (Grounded since) (fun _ t => Sound A since t) v := by
  have D := Later.discipline hA
  refine Py.Spec.bind (Q := fun last t => Sound A since t ∧ ∀ permitId proposal,
    last = .ok (some (permitId, proposal)) → Warranted since t permitId proposal)
    (Py.Spec.own D fun t ht => ?_) (fun last t ht => ?_) fun _ _ h => h.1
  · have hsound := hs.frame (Frame.of_rely ht)
    exact ⟨hsound, fun permitId proposal hl => hsound.last _ _ (Except.ok.inj hl)⟩
  · cases last with
    | none => exact Py.Spec.ret ht.1
    | some last =>
        obtain ⟨permitId, proposal⟩ := last
        refine (execute_warranted_spec hA ht.1 (ht.2 _ _ rfl)).bind (fun result u hu => ?_)
          fun _ _ h => ht.1.frame h
        exact (note_spec D _).mono fun _ _ h => (ht.1.frame hu).frame h

/-- The verification only looks. -/
theorem verify_spec (orderId : String) {G : World → Execution → Prop} :
    (r.verify orderId).Spec Later A G (fun _ t => Frame Later v t) v := by
  have D := Later.discipline hA
  have hquery : ∀ {α : Type} (g : Database → Except PyError α) (w : World),
      (Py.query g).Spec Later A G (fun _ t => Frame Later w t) w := fun g w =>
    Py.Spec.query D fun _ ht => Frame.of_rely ht
  refine (hquery _ v).bind (fun order t ht => ?_) fun _ _ h => h
  refine (hquery _ t).bind (fun payment u hu => ?_) fun _ _ h => ht.trans D h
  refine (hquery _ u).bind (fun shipment w hw => ?_) fun _ _ h => (ht.trans D hu).trans D h
  have hframe := (ht.trans D hu).trans D hw
  refine (hquery _ w).bind (fun refunded y hy => ?_) fun _ _ h => hframe.trans D h
  exact (emit_spec D _ _).bind (fun _ z hz => Py.Spec.ret ((hframe.trans D hy).trans D hz))
    fun _ _ h => (hframe.trans D hy).trans D h

/-- So does the report. -/
theorem report_spec (outcome : Outcome) (reasonCode : ReasonCode) (finalState : VerifiedState)
    {G : World → Execution → Prop} :
    (r.report outcome reasonCode finalState).Spec Later A G (fun _ t => Frame Later v t) v := by
  have D := Later.discipline hA
  have hquery : ∀ {α : Type} (g : Database → Except PyError α) (w : World),
      Frame Later v w → (Py.query g).Spec Later A G (fun _ t => Frame Later v t) w := fun g w hw =>
    Py.Spec.query D fun _ ht => hw.trans D (Frame.of_rely ht)
  have hown : ∀ {α : Type} (g : Session → α) (w : World),
      Frame Later v w → (Py.own g).Spec Later A G (fun _ t => Frame Later v t) w := fun g w hw =>
    Py.Spec.own D fun _ ht => hw.trans D (Frame.of_rely ht)
  refine (hquery _ v (Frame.refl D v)).bind (fun _ t ht => ?_) fun _ _ h => h
  refine (hquery _ t ht).bind (fun _ t ht => ?_) fun _ _ h => h
  refine (hquery _ t ht).bind (fun _ t ht => ?_) fun _ _ h => h
  refine (hown _ t ht).bind (fun _ t ht => ?_) fun _ _ h => h
  refine (hown _ t ht).bind (fun _ t ht => ?_) fun _ _ h => h
  exact (hown _ t ht).bind (fun _ t ht => Py.Spec.ret ht) fun _ _ h => h

/-- The end of a run commits nothing. -/
theorem finish_spec (planned : Planned) {G : World → Execution → Prop} :
    (r.finish planned).Spec Later A G (fun _ t => Frame Later v t) v := by
  have D := Later.discipline hA
  refine (verify_spec hA planned.orderId).bind (fun _ t ht => ?_) fun _ _ h => h
  refine (report_spec hA _ _ _).bind (fun _ u hu => ?_) fun _ _ h => ht.trans D h
  exact (emit_spec D _ _).bind (fun _ w hw => Py.Spec.ret ((ht.trans D hu).trans D hw))
    fun _ _ h => (ht.trans D hu).trans D h

/-- **What a run commits.**  Whatever the others do, as long as every change of a row
increments its version: tickets, and executions of warranted permits. -/
theorem run_spec (hs : Sound A since v) :
    r.run.Spec Later A (Grounded since) (fun _ t => Sound A since t) v := by
  have D := Later.discipline hA
  refine (emit_spec D _ _).bind (fun _ t ht => ?_) fun _ _ h => hs.frame h
  refine (plan_spec hA (hs.frame ht) _ _).bind (fun planned u hu => ?_) fun _ _ h => h
  have hhand : (r.handOver planned).Spec Later A (Grounded since)
      (fun _ w => Sound A since w) u := by
    unfold Runner.handOver
    cases planned.escalateReason with
    | none => exact Py.Spec.ret hu
    | some reason =>
        exact (escalate_spec hA hu _ _ _).bind (fun _ w hw => Py.Spec.ret (hu.frame hw))
          fun _ _ h => hu.frame h
  refine hhand.bind (fun _ w hw => ?_) fun _ _ h => h
  refine Py.Spec.bind (Q := fun _ y => Sound A since y) (Py.Spec.own D fun y hy =>
    hw.frame (Frame.of_rely hy)) (fun left y hy => ?_) fun _ _ h => h
  refine (chain_spec hA hy planned left).bind (fun planned z hz => ?_) fun _ _ h => h
  -- the deliberate replay, or nothing, and the report
  split_ifs
  · refine (replay_spec hA hz).bind (fun _ a ha => ?_) fun _ _ h => h
    exact (finish_spec hA planned).mono fun _ _ h => ha.frame h
  · exact (finish_spec hA planned).mono fun _ _ h => hz.frame h

end Run

end BoundedRefund
