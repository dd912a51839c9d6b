/-
The rules about style, quality and performance, in the order in which they are registered.
-/

import PhpAudit.Quality.UnusedVariable
import PhpAudit.Quality.FunctionSize
import PhpAudit.Quality.Statements
import PhpAudit.Quality.Loops

set_option autoImplicit false

namespace PhpAudit.Quality

/-- Rules about lines and variables. -/
def syntaxRules : List Rule :=
  [LineLength.rule, UnusedVariable.rule]

/-- Rules about functions and statements. -/
def qualityRules : List Rule :=
  [FunctionSize.lengthRule, FunctionSize.parameterRule, FunctionSize.complexityRule,
   Statements.emptyCatchRule, Statements.deprecatedRule]

/-- Rules about loops. -/
def performanceRules : List Rule :=
  [Loops.nestingRule, Loops.queryRule, Loops.sizeRule]

end PhpAudit.Quality
