import BoundedRefund.Errors
import BoundedRefund.Numeric.Rounding
import Mathlib.Data.Int.ConditionallyCompleteOrder

/-!
# Time

An instant is a number of microseconds since the epoch, in UTC.  A timestamp that
is stored or sent as text is modelled by what `datetime.fromisoformat` reads from
it (`IsoText`): wall-clock time with or without an offset, or nothing.  The
grammar of the text itself is left out, everything `parseIso` adds to it is here.
The calendar of the source ends with the year 9999, an instant does not
(`WithinRanges`).

A clock is the sequence of instants its successive readings return, so a clock
that stands still, one that steps on every reading and the system clock are all
functions `ℕ → Instant`.
-/

namespace BoundedRefund

/-- Microseconds since the epoch, UTC. -/
abbrev Instant := Int

/-- What `datetime.fromisoformat` makes of a text. -/
inductive IsoText
  | naive (wall : Int)
  | aware (wall : Int) (utcOffset : Int)
  | malformed (text : String)
deriving DecidableEq, Repr

/-- A time without an offset is taken to be UTC. -/
def parseIso : IsoText → Except PyError Instant
  | .naive wall => .ok wall
  | .aware wall utcOffset => .ok (wall - utcOffset)
  | .malformed text => .error (.valueError ("Invalid isoformat string: " ++ pyRepr text))

/-- `to_iso`: an instant is written with the offset of UTC. -/
def toIso (value : Instant) : IsoText := .aware value 0

/-- What is written is read back. -/
@[simp] theorem parseIso_toIso (value : Instant) : parseIso (toIso value) = .ok value := by
  simp [parseIso, toIso]

/-- `timedelta(seconds=n)`. -/
def seconds (n : Int) : Int := n * 1000000

/-- `timedelta.total_seconds`, a float. -/
def totalSeconds (delta : Int) : ℚ := Numeric.roundDouble (delta / 1000000)

/-- `delta.total_seconds() / 86400.0`, a float. -/
def elapsedDays (delta : Int) : ℚ := Numeric.roundDouble (totalSeconds delta / 86400)

/-- The same without rounding. -/
def exactDays (delta : Int) : ℚ := delta / 86400000000

/-- Days only grow. -/
theorem elapsedDays_mono : Monotone elapsedDays := by
  intro delta delta' h
  have hseconds : totalSeconds delta ≤ totalSeconds delta' := by
    refine Numeric.roundDouble_mono (div_le_div_of_nonneg_right ?_ (by norm_num))
    exact_mod_cast h
  exact Numeric.roundDouble_mono (div_le_div_of_nonneg_right hseconds (by norm_num))

/-- The two roundings do not move a duration across a window of whole days, up to
2 ^ 16 days, some 179 years. -/
theorem lt_elapsedDays_iff {window : Int} (hw : |window| < 2 ^ 16) (delta : Int) :
    (window : ℚ) < elapsedDays delta ↔ (window : ℚ) < exactDays delta := by
  obtain ⟨hlow, hhigh⟩ := abs_lt.mp hw
  have hfix : ∀ (n e : ℤ), |n| < 2 ^ 53 → Numeric.roundDouble (n * 2 ^ e) = n * 2 ^ e :=
    fun n e hn => Numeric.roundBinary_of_representable hn
  constructor
  · -- a duration inside the window measures at most the window, which is a double
    intro h
    by_contra hinside
    have hdelta : delta ≤ window * 86400000000 := by
      simp only [exactDays, not_lt] at hinside
      rw [div_le_iff₀ (by norm_num)] at hinside
      exact_mod_cast hinside
    have hseconds : totalSeconds (window * 86400000000) = window * 86400 := by
      have := hfix (window * 86400) 0 (by rw [abs_lt]; omega)
      simp only [totalSeconds]
      push_cast at this ⊢
      rw [show (window : ℚ) * 86400000000 / 1000000 = window * 86400 by ring]
      simpa using this
    have hdays : elapsedDays (window * 86400000000) = window := by
      simpa [elapsedDays, hseconds] using hfix window 0 (by rw [abs_lt]; omega)
    exact absurd (h.trans_le ((elapsedDays_mono hdelta).trans hdays.le)) (lt_irrefl _)
  · -- past the window there is a double at each of the two steps
    intro h
    have hdelta : window * 86400000000 + 1 ≤ delta := by
      simp only [exactDays] at h
      rw [lt_div_iff₀ (by norm_num)] at h
      exact_mod_cast h
    have hdelta' : (window : ℚ) * 86400000000 + 1 ≤ delta := by exact_mod_cast hdelta
    have hseconds : ((window * 86400 * 2 ^ 20 + 1 : ℤ) : ℚ) * 2 ^ (-20 : ℤ) ≤
        totalSeconds delta := by
      rw [← hfix _ _ (by rw [abs_lt]; omega)]
      refine Numeric.roundDouble_mono ?_
      push_cast
      norm_num
      linarith
    have hdays : ((window * 2 ^ 37 + 1 : ℤ) : ℚ) * 2 ^ (-37 : ℤ) ≤ elapsedDays delta := by
      rw [← hfix _ _ (by rw [abs_lt]; omega)]
      refine Numeric.roundDouble_mono ?_
      push_cast at hseconds ⊢
      norm_num at hseconds ⊢
      linarith
    refine lt_of_lt_of_le ?_ hdays
    push_cast
    norm_num
    linarith

/-- The format specification `.1f` applied to a float. -/
def formatFixed1 (x : ℚ) : String :=
  let tenths := Numeric.roundHalfEven (x * 10)
  let sign := if x < 0 then "-" else ""
  sign ++ toString (tenths.natAbs / 10) ++ "." ++ toString (tenths.natAbs % 10)

/-- The instants the successive readings of a clock return. -/
abbrev Clock := Nat → Instant

/-- Starts at `base` and advances by `step` on every reading. -/
structure FixedClock where
  base : Instant
  step : Int := 0

namespace FixedClock

/-- `FixedClock.now`: each reading is one step later than the one before. -/
def now (c : FixedClock) : Clock := fun readings => c.base + readings * c.step

/-- Two readings are as many steps apart as there are readings between them. -/
theorem now_sub (c : FixedClock) (m n : Nat) :
    c.now (m + n) - c.now m = n * c.step := by
  simp only [now]
  push_cast
  ring

end FixedClock

end BoundedRefund
