import BoundedRefund.Executor

/-!
# Clearance

The executor checks outside any transaction and writes inside one.  Here an execution is
cut at that seam: what the checks come to (`Checked`), and what is made of it.  The two
phases one after the other are the execution (`execute_eq`), so what is proved about them
is about the executor, with nobody in between or with others.
-/

namespace BoundedRefund

open Concurrent Relational

/-- What the checks come to: an answer, or clearance for a permit. -/
inductive Checked
  | answered (permit : Option ExecutionPermit) (result : ExecutionResult)
  | cleared (permit : ExecutionPermit)
deriving DecidableEq

namespace Executor

variable (e : Executor)

/-- The checks of `runChecks`, up to clearance. -/
def checks (permit : Option ExecutionPermit) (proposal : ActionProposal) : Py Checked :=
  match permit with
  | none => return .answered none (rejected .permitMissing)
  | some permit =>
      if permit.action ≠ proposal.action then
        return .answered (some permit) (rejected .permitActionMismatch permit.resourceId)
      else do
        let target ← Py.query fun db => db.resolveTarget proposal
        match target with
        | none =>
            return .answered (some permit)
              (rejected .permitResourceMismatch permit.resourceId)
        | some target =>
            if target.resourceId ≠ permit.resourceId then
              return .answered (some permit)
                (rejected .permitResourceMismatch permit.resourceId)
            else do
              let now ← Py.now e.clock
              let expiresAt ← Py.raising (parseIso permit.expiresAt)
              if expiresAt < now then
                return .answered (some permit) (rejected .permitExpired permit.resourceId)
              else do
                let stored ← Py.query fun db => .ok (db.storedResult permit.idempotencyKey)
                let answer ← Py.raising (lateChecks permit proposal target stored)
                match answer with
                | some result => return .answered (some permit) result
                | none => return .cleared permit

/-- The check phase: the permit is looked up, the attempt traced, the checks made. -/
def check (permitId : Option String) (proposal : ActionProposal) : Py Checked := do
  let permit ← Py.query fun db => .ok (db.loadPermit permitId)
  e.emit .mutationAttempted proposal permit none
  e.checks permit proposal

/-- The write phase: what follows clearance, and the answer. -/
def settle (proposal : ActionProposal) (texts : TicketTexts) : Checked → Py ExecutionResult
  | .answered permit result => e.respond proposal permit result
  | .cleared permit => do
      Py.applyPreCommit (str proposal.action)
      let result ← e.commit permit proposal texts
      e.respond proposal (some permit) result

/-- The checks and what is behind them, cut at clearance, with whatever follows. -/
theorem runChecks_eq {α : Type} (permit : Option ExecutionPermit) (proposal : ActionProposal)
    (texts : TicketTexts) (k : Option ExecutionPermit → ExecutionResult → Py α) :
    (e.runChecks permit proposal texts >>= k permit) =
      e.checks permit proposal >>= fun
        | .answered permit result => k permit result
        | .cleared permit =>
            (Py.applyPreCommit (str proposal.action) >>= fun _ =>
              e.commit permit proposal texts) >>= k (some permit) := by
  cases permit with
  | none => rfl
  | some permit =>
      -- both go through the same checks, and part only behind the last
      simp only [runChecks, checks]
      split_ifs with haction
      · rfl
      simp only [bind_assoc]
      refine congrArg (_ >>= ·) (funext fun target => ?_)
      cases target with
      | none => rfl
      | some target =>
          dsimp only
          split_ifs with hresource
          · rfl
          simp only [bind_assoc]
          refine congrArg (_ >>= ·) (funext fun now => ?_)
          refine congrArg (_ >>= ·) (funext fun expiresAt => ?_)
          split_ifs with hexpired
          · rfl
          simp only [bind_assoc]
          refine congrArg (_ >>= ·) (funext fun stored => ?_)
          refine congrArg (_ >>= ·) (funext fun answer => ?_)
          cases answer with
          | some result => rfl
          | none => exact bind_assoc _ _ _

/-- Cleared, the permit goes on to its commit and the answer. -/
theorem settle_cleared (permit : ExecutionPermit) (proposal : ActionProposal)
    (texts : TicketTexts) : e.settle proposal texts (.cleared permit) =
      (Py.applyPreCommit (str proposal.action) >>= fun _ =>
        e.commit permit proposal texts) >>= e.respond proposal (some permit) :=
  (bind_assoc _ _ _).symm

/-- **An execution is its two phases.** -/
theorem execute_eq (permitId : Option String) (proposal : ActionProposal)
    (texts : TicketTexts) : e.execute permitId proposal texts =
      e.check permitId proposal >>= e.settle proposal texts := by
  simp only [execute, check, bind_assoc]
  refine congrArg (_ >>= ·) (funext fun permit => ?_)
  refine congrArg (_ >>= ·) (funext fun _ => ?_)
  refine (e.runChecks_eq permit proposal texts (e.respond proposal)).trans ?_
  refine congrArg (_ >>= ·) (funext fun checked => ?_)
  cases checked with
  | answered permit result => rfl
  | cleared permit => exact (e.settle_cleared permit proposal texts).symm

end Executor

end BoundedRefund
