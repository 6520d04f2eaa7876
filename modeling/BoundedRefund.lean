import BoundedRefund.Concurrent.Pool
import BoundedRefund.Policy
import BoundedRefund.Failures
import BoundedRefund.Replay
import BoundedRefund.Required
import BoundedRefund.AtMostOnce
import BoundedRefund.Trace
import BoundedRefund.Limits
import BoundedRefund.Captured
import BoundedRefund.Phases
import BoundedRefund.Race
import BoundedRefund.Origins
import BoundedRefund.Observation
import BoundedRefund.Chronicle
import BoundedRefund.FreeText
import BoundedRefund.Outcomes
import BoundedRefund.Returns
import BoundedRefund.Strictness
import BoundedRefund.Accord
import BoundedRefund.Window
import BoundedRefund.Duplicates
import BoundedRefund.LastingRefusals
import BoundedRefund.FailedReads
import BoundedRefund.Bypass
import BoundedRefund.Scoring
import BoundedRefund.Release
import BoundedRefund.StaleAlarms
import BoundedRefund.TraceGrammar
import BoundedRefund.Planners
import BoundedRefund.LegalMoves
import BoundedRefund.Walk
import BoundedRefund.Bounded
import BoundedRefund.TraceFile
import BoundedRefund.Statements
import BoundedRefund.Concurrent.Isolation
import BoundedRefund.SeparateRuns
