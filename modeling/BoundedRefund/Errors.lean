/-!
# Exceptions

Everything a modelled function can raise.  A constructor keeps what the handlers
and the messages of the source use: the text of a plain exception, the arguments
of the classes that carry some.
-/

namespace BoundedRefund

/-- An exception, by class. -/
inductive PyError
  /-- `ValueError`: an unknown enumeration value, an unreadable timestamp, an edit
  the simulator does not know. -/
  | valueError (message : String)
  /-- `sqlite3.IntegrityError`: a primary or foreign key would be violated. -/
  | integrityError (message : String)
  | permitRequired (message : String)
  | staleResource (resourceId : String) (expectedVersion : Int)
  | responseTimeout (action : String) (idempotencyKey : String)
  | readUnavailable (tool : String) (attempts : Nat)
  | assertionError
  /-- Not an exception of the source: a loop that was given too few rounds.  It is
  never raised (`Runner.chain` is always entered with enough). -/
  | outOfFuel
deriving DecidableEq, Repr

/-- `repr` of a text without quotes, backslashes and control characters. -/
def pyRepr (s : String) : String := "'" ++ s ++ "'"

/-- The message of an enumeration that does not have the value. -/
def notAValid (value enum : String) : PyError :=
  .valueError (pyRepr value ++ " is not a valid " ++ enum)

/-! ## Results that are carried on -/

section Map

variable {α β : Type} {r : Except PyError α} {f : α → β}

theorem map_eq_ok {b : β} : r.map f = .ok b ↔ ∃ a, r = .ok a ∧ f a = b := by
  cases r with
  | error err => simp [Except.map]
  | ok a => simp [Except.map]

theorem map_eq_error {err : PyError} : r.map f = .error err ↔ r = .error err := by
  cases r with
  | error err => simp [Except.map]
  | ok a => simp [Except.map]

theorem bind_eq_ok {k : α → Except PyError β} {b : β} :
    r >>= k = .ok b ↔ ∃ a, r = .ok a ∧ k a = .ok b := by
  cases r with
  | error err => simp [bind, Except.bind]
  | ok a => simp [bind, Except.bind]

theorem bind_eq_error {k : α → Except PyError β} {err : PyError} :
    r >>= k = .error err ↔ r = .error err ∨ ∃ a, r = .ok a ∧ k a = .error err := by
  cases r with
  | error err => simp [bind, Except.bind]
  | ok a => simp [bind, Except.bind]

end Map

end BoundedRefund
