/-
The security rules, in the order in which they are registered.
-/

import PhpAudit.Security.Sql
import PhpAudit.Security.Command
import PhpAudit.Security.Code
import PhpAudit.Security.Inclusion
import PhpAudit.Security.Traversal
import PhpAudit.Security.Scripting
import PhpAudit.Security.Deserialization
import PhpAudit.Security.Cryptography
import PhpAudit.Security.Credentials

set_option autoImplicit false

namespace PhpAudit.Security

/-- The security rules. -/
def rules : List Rule :=
  [Sql.rule, Command.rule, Code.rule, Inclusion.rule, Traversal.rule, Scripting.rule,
   Deserialization.rule, Cryptography.rule, Credentials.rule]

end PhpAudit.Security
