import PhpAudit.Main
import PhpAudit.Proofs.Audit.Roster
import PhpAudit.Proofs.Disk.Discovery
import PhpAudit.Proofs.Page.Rewording
import PhpAudit.Proofs.Php.Taint
import PhpAudit.Proofs.Quality.Loops
import PhpAudit.Proofs.Report.Figures
import PhpAudit.Proofs.Report.RoundTrip
import PhpAudit.Proofs.Rule.Tally
import PhpAudit.Proofs.Rule.Usable
import PhpAudit.Proofs.Security.Comments
import PhpAudit.Proofs.Security.Constants
import PhpAudit.Proofs.Security.Threshold
import PhpAudit.Proofs.Settings.Faults
import PhpAudit.Proofs.Settings.Merging
import PhpAudit.Proofs.Tree.Conversion
import PhpAudit.Proofs.TreeCache.Invalidation
import PhpAudit.Proofs.TreeCache.Ledger
import PhpAudit.Proofs.TreeCache.Recovery
import PhpAudit.Proofs.TreeCache.Reread
import PhpAudit.Proofs.Walk.Composite
import PhpAudit.Script.Rules
import PhpAudit.Script.Settings
import PhpAudit.Script.Work
