/-
Asking a rule book about every node of a file.
-/

import PhpAudit.Rule.Book
import PhpAudit.Walk.Basic

set_option autoImplicit false

namespace PhpAudit.RuleBook

/-- What a walk with a rule book has come to. -/
structure Sweep where
  book : RuleBook
  findings : List Finding := []
  tally : Rule.Tally := {}

/-- The visitor that asks the rules about each node that is entered. -/
def visitor (file : SourceFile) : Walk.Visitor Sweep :=
  { enter := fun s n trail =>
      let (found, tally, book) := s.book.inspect n ⟨file, trail⟩ s.tally
      (.proceed, { book, findings := s.findings ++ found, tally }) }

/-- One walk through a file, with the trail at its end. -/
def sweep (b : RuleBook) (file : SourceFile) : Sweep × Walk.Trail :=
  Walk.traverse (visitor file) {} { book := b } [file.tree.root]

end PhpAudit.RuleBook
