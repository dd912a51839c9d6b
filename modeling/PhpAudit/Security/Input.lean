/-
How a value reaches a dangerous call.
-/

import PhpAudit.Php.Expressions
import PhpAudit.Rule.Evidence

set_option autoImplicit false

namespace PhpAudit.Security

open Php

/-- The evidence that the shape of a value gives. -/
def describeInput (n : Node) : Evidence :=
  let e := unwrap n
  let shape : Evidence :=
    if isConcatenation e then
      Evidence.add {} "string_concatenation" 0.7 "Value is built by string concatenation."
    else if hasInterpolation e then
      Evidence.add {} "variable_interpolation" 0.7 "Value interpolates variables into a string."
    else if isDynamic e then
      Evidence.add {} "direct_variable_usage" 0.6 "Value comes directly from a variable or call."
    else {}
  if readsRequest e then shape.add "user_input" 0.3 "Request data reaches the call." else shape

/-- The parts of a concatenation that are computed. -/
def dynamicParts (n : Node) : List Node :=
  (concatenationParts n).filter fun p => !isLiteral p

/-- Whether a concatenation has computed parts and each of them is a call of a sanitizer. -/
def allSanitized (sanitizers : List String) (n : Node) : Bool :=
  !(dynamicParts n).isEmpty && (dynamicParts n).all (isCallOf sanitizers)

end PhpAudit.Security
