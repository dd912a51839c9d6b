/-
Why a text is no pattern.
-/

import PhpAudit.Value.Text

set_option autoImplicit false

namespace PhpAudit.Pattern

/-- Why a text is no pattern. -/
inductive Reason where
  | openSet
  | openGroup
  | openComment
  | strayClose
  | nothingToRepeat
  | repeatedTwice
  | countOrder
  | countTooLarge
  | badRange (first last : String)
  | badEscape (text : String)
  | incompleteEscape (text : String)
  | trailingEscape
  | octalTooLarge (text : String)
  /-- Something that must be there is missing. -/
  | missing (what : String)
  | openName (close : String)
  | unknownCharacter (name : String)
  | unfinished
  | unknownExtension (text : String)
  | badGroupName (name : String)
  | unknownGroupName (name : String)
  | usedGroupName (name : String) (number earlier : Nat)
  | noGroup (number : Nat)
  | badGroupNumber
  | insideGroup
  | insideLookBehind
  | thirdBranch
  | lateFlags
  | unknownFlag
  /-- Flags that do not go together, or not here. -/
  | badFlags (why : String)
  /-- What stands behind has no fixed length. -/
  | variableLookBehind

/-- The wording of each cause. -/
def Reason.message : Reason → String
  | openSet => "unterminated character set"
  | openGroup => "missing ), unterminated subpattern"
  | openComment => "missing ), unterminated comment"
  | strayClose => "unbalanced parenthesis"
  | nothingToRepeat => "nothing to repeat"
  | repeatedTwice => "multiple repeat"
  | countOrder => "min repeat greater than max repeat"
  | countTooLarge => "the repetition number is too large"
  | badRange first last => s!"bad character range {first}-{last}"
  | badEscape text => s!"bad escape {text}"
  | incompleteEscape text => s!"incomplete escape {text}"
  | trailingEscape => "bad escape (end of pattern)"
  | octalTooLarge text => s!"octal escape value {text} outside of range 0-0o377"
  | missing what => s!"missing {what}"
  | openName close => s!"missing {close}, unterminated name"
  | unknownCharacter name => "undefined character name " ++ Text.quote name
  | unfinished => "unexpected end of pattern"
  | unknownExtension text => s!"unknown extension ?{text}"
  | badGroupName name => "bad character in group name " ++ Text.quote name
  | unknownGroupName name => "unknown group name " ++ Text.quote name
  | usedGroupName name number earlier =>
    "redefinition of group name " ++ Text.quote name ++
      s!" as group {number}; was group {earlier}"
  | noGroup number => s!"invalid group reference {number}"
  | badGroupNumber => "bad group number"
  | insideGroup => "cannot refer to an open group"
  | insideLookBehind => "cannot refer to group defined in the same lookbehind subpattern"
  | thirdBranch => "conditional backref with more than two branches"
  | lateFlags => "global flags not at the start of the expression"
  | unknownFlag => "unknown flag"
  | badFlags why => s!"bad inline flags: {why}"
  | variableLookBehind => "look-behind requires fixed-width pattern"

/-- A cause and the place where it was met, if it has one. -/
structure Fault where
  reason : Reason
  position : Option Nat := none

/-- The wording of a fault of the given pattern. -/
def Fault.message (f : Fault) (pattern : String) : String :=
  match f.position with
  | none => f.reason.message
  | some position =>
    let before := pattern.toList.take position
    let line := before.count '\n' + 1
    let column := (before.reverse.takeWhile (· != '\n')).length + 1
    let lines := if pattern.toList.contains '\n' then s!" (line {line}, column {column})" else ""
    f.reason.message ++ s!" at position {position}" ++ lines

end PhpAudit.Pattern
