/-
Lines of a file asked for by values of any kind.

Whoever describes a finding or asks for lines gives numbers, but nothing keeps them whole or even
numbers; what comes of other values follows from how they compare and add up.
-/

import PhpAudit.Rule.Draft
import PhpAudit.Script.Fields
import PhpAudit.Value.Arithmetic
import PhpAudit.Value.Order

set_option autoImplicit false

namespace PhpAudit.Script

/-- The greater of two values, the first if they are equal. -/
def greater (a b : Value) : Except Misuse Value := do
  return if ← b.greater a then b else a

/-- The lesser of two values, the first if they are equal. -/
def lesser (a b : Value) : Except Misuse Value := do
  return if ← b.less a then b else a

/-- A whole number, or else what is said of the value. -/
def wholeOr (misuse : String → Misuse) (v : Value) : Except Misuse Int :=
  match v.int? with
  | some n => .ok n
  | none => .error (misuse v.kindName)

/-- The line of a number, or null. -/
def lineAt (f : SourceFile) (number : Value) : Except Misuse Value := do
  if !(← (Value.int 1).atMost number) then return .null
  if !(← number.atMost (.nat f.lineCount)) then return .null
  let n ← wholeOr .listIndex number
  return ((f.line? n).map Value.str).getD .null

/-- The lines from one number to another. -/
def linesAt (f : SourceFile) (first last : Value) : Except Misuse Value := do
  let start ← greater (.int 0) (← first.minus (.int 1))
  let stop ← lesser (.nat f.lineCount) last
  let i ← wholeOr (fun _ => .notCount) start
  let j ← wholeOr (fun _ => .notCount) stop
  return .ofTexts (f.linesBetween (i + 1) j)

/-- The source lines around a place, those of the place itself marked. -/
def snippet (f : SourceFile) (first last context : Value) : Except Misuse String := do
  let start ← greater (.int 1) (← first.minus context)
  let stop ← lesser (.nat f.lineCount) (← last.plus context)
  let i ← wholeOr .notWhole start
  let j ← wholeOr .notWhole stop
  let shown ← (Rule.numbersBetween i j).mapM fun number => do
    let isMarked := (← first.atMost (.int number)) && (← (Value.int number).atMost last)
    let sign := if isMarked then ">> " else "   "
    return sign ++ Text.padLeft (toString number) 4 ++ " | " ++ (f.line? number).getD "None"
  return "\n".intercalate shown

end PhpAudit.Script
