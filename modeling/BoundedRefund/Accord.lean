import BoundedRefund.Atomicity
import BoundedRefund.Expiry

/-!
# What the policy allows, and what the executor performs

The policy decides on a snapshot, the executor on the permit and on what it reads again.
With nobody else at the database both look at the same rows, and the executor has one
objection left: the amount.  A permit for a cancellation or a ticket caps the amount at
nothing, and the policy does not look at the amount of such a proposal.
-/

namespace BoundedRefund

open Concurrent Relational

/-- An allowed proposal is given the permit of its decision, and executed under it. -/
def Runner.perform (r : Runner) (proposal : ActionProposal) (d : PolicyResult) :
    Py ExecutionResult := do
  let permit ← r.issuer.issuePermit (allowedRequest proposal d)
  r.executor.execute (some permit.permitId) proposal

/-- The permit the decision is given in `u`. -/
def Runner.nextPermit (r : Runner) (proposal : ActionProposal) (d : PolicyResult) (u : World) :
    ExecutionPermit :=
  r.issuer.permitAt (allowedRequest proposal d) (u.own.session.sequence + 1)
    (r.clock u.own.session.readings)

section Perform

variable {r : Runner} {proposal : ActionProposal} {s : PolicySnapshot} {d : PolicyResult}
variable {v u : World}

/-- The world once the permit was issued. -/
structure Granted (r : Runner) (proposal : ActionProposal) (d : PolicyResult) (u w : World) :
    Prop where
  inserted : u.shared.insertPermit ((r.nextPermit proposal d u).row
    (r.clock u.own.session.readings) r.runId) = .ok w.shared
  own : w.own = { u.own with session := { u.own.session with
    sequence := u.own.session.sequence + 1, readings := u.own.session.readings + 1 } }

namespace Granted

variable {w : World}

/-- The number of a permit that has just been issued was not taken. -/
theorem free (h : Granted r proposal d u w) :
    u.shared.executionPermits.find? (r.nextPermit proposal d u).permitId = none := by
  obtain ⟨permits, hinsert, -⟩ := Database.insertPermit_eq_ok.mp h.inserted
  exact (Table.insert?_eq_some.mp hinsert).1

/-- Nothing but the permits changes. -/
theorem shared (h : Granted r proposal d u w) :
    ∃ permits, w.shared = { u.shared with executionPermits := permits } := by
  obtain ⟨permits, -, heq⟩ := Database.insertPermit_eq_ok.mp h.inserted
  exact ⟨permits, heq⟩

/-- The permit is found under its number. -/
theorem loadPermit (h : Granted r proposal d u w) :
    w.shared.loadPermit (some (r.nextPermit proposal d u).permitId) =
      some (r.nextPermit proposal d u) := by
  obtain ⟨permits, hinsert, heq⟩ := Database.insertPermit_eq_ok.mp h.inserted
  have hfind : w.shared.executionPermits.find? (r.nextPermit proposal d u).permitId =
      some ((r.nextPermit proposal d u).row (r.clock u.own.session.readings) r.runId) := by
    rw [heq]
    exact (Table.find?_insert? hinsert _).trans (if_pos rfl)
  have hne : (r.nextPermit proposal d u).permitId ≠ "" := permitIdFor_ne_empty _ _
  rw [Database.loadPermit_of_find? hne hfind]
  rfl

/-- To issue a permit is to read the clock once. -/
theorem readings (h : Granted r proposal d u w) :
    w.own.session.readings = u.own.session.readings + 1 := by
  rw [h.own]

theorem tick (h : Granted r proposal d u w) : w.own.session.tick = u.own.session.tick := by
  simp [h.own, Session.tick]

/-- What is still to come is what it was. -/
theorem due (h : Granted r proposal d u w) (action : String) :
    w.own.session.due action = u.own.session.due action ∧
      w.own.session.loses action = u.own.session.loses action :=
  due_congr (by rw [h.own]) action

end Granted

/-- The permit is issued, or its id is taken. -/
theorem run_perform {res : Except PyError ExecutionResult} {u' : World}
    (h : (r.perform proposal d).run u = (res, u')) :
    (∃ w, Granted r proposal d u w ∧
      (r.executor.execute (some (r.nextPermit proposal d u).permitId) proposal).run w =
        (res, u')) ∨
    ∃ err, res = .error err ∧ u.shared.insertPermit ((r.nextPermit proposal d u).row
      (r.clock u.own.session.readings) r.runId) = .error err := by
  obtain ⟨err, hi, rfl⟩ | ⟨permit, w, hi, h⟩ := Py.run_bind_cases h
  · obtain ⟨-, ⟨_, he, -, hinsert⟩ | ⟨he, -⟩⟩ := run_issuePermit hi
    · cases he
      exact .inr ⟨err, rfl, hinsert⟩
    · cases he
  · obtain ⟨hown, ⟨_, he, -⟩ | ⟨he, hinsert⟩⟩ := run_issuePermit hi
    · cases he
    · cases he
      exact .inl ⟨w, ⟨hinsert, hown⟩, h⟩

/-- A permit whose names are free is held. -/
theorem Granted.held {w : World} (h : Granted r proposal d u w)
    (hfree : u.shared.Free (r.nextPermit proposal d u) proposal.action) :
    Held r (allowedRequest proposal d) (r.nextPermit proposal d u) u.own.session.readings w where
  loaded := h.loadPermit
  issued := ⟨_, rfl⟩
  fresh := by
    obtain ⟨permits, heq⟩ := h.shared
    rw [heq]
    exact Option.map_eq_none_iff.mpr hfree.record

end Perform

/-! ## An amount on a cancellation -/

end BoundedRefund
