/-
Parsing through the cache.

A file is parsed when the cache has no parse of its content.  A parser that fails leaves a tree
with a root alone and one fault.  When there are faults, the text in front of the first faulty line
is parsed once more, so that the analysis has a sound tree for that part; if this fails as well, the
tolerant tree of the first attempt is kept.  Trouble with the cache never shows: the file is then
parsed directly.
-/

import PhpAudit.TreeCache.Basic

set_option autoImplicit false

namespace PhpAudit.TreeCache

variable {τ : Type}

/-- The remark that stands for what was cut off. -/
def sentinel : String :=
  "// Parsing stopped due to syntax error"

/-- The lines in front of a faulty one, then the remark. -/
def prefixText (content : String) (faultLine : Int) : String :=
  "\n".intercalate ((Text.lines content).take (max 0 (faultLine - 1)).toNat ++ [sentinel])

/-- What the first attempt of the parser gives, and whether the parser failed. -/
def firstAttempt (g : Grammar) (content : String) : Tree × List SyntaxFault × Bool :=
  match g.parse content with
  | .ok (tree, faults) => (tree, faults, false)
  | .error (.refused message line) =>
    (Tree.blank content, [{ message, line := max line 1, nodeKind := "PARSER_FAILURE" }], true)
  | .error (.crashed cause message) =>
    (Tree.blank content,
      [{ message := cause ++ ": " ++ message, line := 1, nodeKind := "PARSER_FAILURE" }], true)

/-- The tree of the text in front of the first faulty line, or else the tolerant tree, and whether
the second attempt succeeded. -/
def recover (g : Grammar) (content : String) (faultLine : Int) (tolerant : Tree) : Tree × Bool :=
  match g.parse (prefixText content faultLine) with
  | .ok (tree, _) => (tree.markPartial, true)
  | .error _ => (tolerant.markPartial, false)

/-- The tree and the faults of a content, and what is counted for it. -/
def parseContent (g : Grammar) (content : String) : Tree × List SyntaxFault × Counts :=
  let (tree, faults, failed) := firstAttempt g content
  let failures := if failed then 1 else 0
  match SourceFile.least? (faults.map SyntaxFault.line) with
  | none => (tree, faults, { parsed := 1, grammarFailures := failures })
  | some line =>
    let r := recover g content line tree
    (r.1, faults, { parsed := 1, faulty := 1, recovered := if r.2 then 1 else 0,
                    grammarFailures := failures })

/-- Counters of two stretches taken together. -/
def Counts.add (a b : Counts) : Counts :=
  { parsed := a.parsed + b.parsed, hits := a.hits + b.hits, misses := a.misses + b.misses
    faulty := a.faulty + b.faulty, recovered := a.recovered + b.recovered
    grammarFailures := a.grammarFailures + b.grammarFailures
    evictions := a.evictions + b.evictions, bypasses := a.bypasses + b.bypasses }

/-- Parses a content without asking the cache. -/
def parseDirect (c : TreeCache τ) (path content encoding : String) : SourceFile × TreeCache τ :=
  let (tree, faults, counted) := parseContent c.grammar content
  ({ path, content, digest := digest content, tree, faults, encoding },
   { c with counts := c.counts.add counted })

/-- One more time that the cache was of no use. -/
def bypass (c : TreeCache τ) : TreeCache τ :=
  { c with counts := { c.counts with bypasses := c.counts.bypasses + 1 } }

/-- Parses a content and stores the parse. -/
def parseAndStore (c : TreeCache τ) (now : τ) (path content encoding : String) :
    SourceFile × TreeCache τ :=
  let (file, c') := c.parseDirect path content encoding
  (file, if c'.storeFails then c'.bypass else c'.put now path file.digest file)

/-- The parse of a content, from the cache if it is there. -/
def parse [Timeline τ] (c : TreeCache τ) (now : τ) (path content encoding : String) :
    SourceFile × TreeCache τ :=
  match c.get now path (digest content) with
  | (.hit file, c') => ({ file with fromCache := true }, c')
  | (.miss, c') => c'.parseAndStore now path content encoding
  | (.mismatch _, c') => c'.bypass.parseAndStore now path content encoding

end PhpAudit.TreeCache
