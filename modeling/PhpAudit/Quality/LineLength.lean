/-
Lines that are too long.

The rule is asked once per file, at the root.  Blank lines and lines that fit one of the exceptions
are let through: comments, imports, addresses, and lines that open with a long string.
-/

import PhpAudit.Rule.Plain
import PhpAudit.Pattern.Reader

set_option autoImplicit false

namespace PhpAudit.Quality.LineLength

/-- Patterns of lines that may be long. -/
def exceptions : List String :=
  ["^\\s*//.*$", "^\\s*#.*$", "^\\s*\\*.*$", "^\\s*/\\*.*$", "^\\s*use\\s+", "https?://",
   "^\\s*'[^']*'.*$", "^\\s*\"[^\"]*\".*$"]

/-- The pattern that a value writes. -/
def readPattern : Value → Except Misuse Pattern
  | .str text =>
    (Pattern.parse text).mapError fun fault =>
      match fault.reason with
      | .countTooLarge => .countTooLarge
      | _ => .badPattern (fault.message text)
  | .list _ => .error (.unhashable "list")
  | .dict _ => .error (.unhashable "dict")
  | _ => .error .notPattern

/-- Whether a line may be long. -/
def isExempt (settings : Dict) (patterns : List Pattern) (line : String) : Bool :=
  ((Rule.setting settings "ignore_whitespace_lines" (.bool true)).truthy &&
      Text.trim line == "") ||
    patterns.any fun p => p.found {} line

/-- The remark about a long line. -/
def remark (maximum : Int) (number : Nat) (length : Nat) : Rule.Draft :=
  let overage := (length : Int) - maximum
  { title := s!"Line too long ({length} characters)"
    description :=
      s!"Line exceeds maximum length of {maximum} characters by {overage} characters."
    line := some number
    context := 0
    suggestions := [
      .str "Break the line at a logical point (after operators, commas, etc.)",
      .str "Extract complex expressions into variables"]
    metadata := [("actual_length", .nat length), ("max_length", .int maximum),
      ("overage", .int overage)] }

/-- The remarks about the lines of a file. -/
def inspect : Rule.Remarks := fun settings _ site => do
  let maximum := Rule.limit settings "max_length" 120
  let written ← (Rule.setting settings "exceptions" (.list [])).items
  let patterns ← written.mapM readPattern
  return (site.file.lines.zipIdx 1).filterMap fun (line, number) =>
    if (line.length : Int) ≤ maximum || isExempt settings patterns line then none
    else some (remark maximum number line.length)

/-- What is wrong with a pattern of this rule.  The check does not expect that a count can be too
large. -/
def patternProblem? (v : Value) : Option Rule.Problem :=
  match readPattern v with
  | .ok _ => none
  | .error .countTooLarge => some (.failure .countTooLarge)
  | .error _ => some (.remark ("invalid exception pattern: " ++ v.quoted))

/-- What is wrong with settings of this rule. -/
def ownProblems (settings : Dict) : List Rule.Problem :=
  Rule.limitProblems "max_length" 80 settings ++
  match Assoc.get? settings "exceptions" with
  | none => []
  | some (.list written) => written.filterMap patternProblem?
  | some _ => [.remark "exceptions must be a list of patterns"]

/-- Lines beyond a maximum length. -/
def rule : Rule :=
  Rule.plain
    { id := "line_length"
      name := "Line Length Limit"
      description := "Lines should not exceed the configured maximum length"
      category := "style"
      ownSeverity := "low"
      nodeKinds := ["program"]
      ownTags := ["syntax", "style", "readability"] }
    [("max_length", .int 120), ("exceptions", .ofTexts exceptions),
     ("ignore_whitespace_lines", .bool true)]
    ownProblems inspect

end PhpAudit.Quality.LineLength
