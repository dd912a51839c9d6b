/-
The rule book: the rules in force and the order in which they are asked.

Rules are registered under their identifiers.  At a node the rules that apply to its kind are asked
in order of priority, and those of equal priority in order of registration.  The lists by kind are
made when they are first asked for and thrown away when the rules change.  A rule that fails counts
as a failure and does not keep the others from being asked.

* `RuleBook` — the book; a security book takes security rules only;
* `RuleBook.add`, `RuleBook.remove`, `RuleBook.setEnabled` — changing it;
* `RuleBook.rules`, `RuleBook.rulesFor` — the rules in order, all of them and for one kind;
* `RuleBook.inspect` — asking all rules about a node;
* `RuleBook.compliance` — a grade from the findings.
-/

import PhpAudit.Rule.Tally
import PhpAudit.Rule.Validity

set_option autoImplicit false

namespace PhpAudit

/-- The rules in force. -/
structure RuleBook where
  /-- Whether only security rules are taken. -/
  securityOnly : Bool := false
  /-- The rules under their identifiers. -/
  entries : Assoc String Rule := []
  /-- What was wrong with the rules that were refused. -/
  rejected : Assoc String (List String) := []
  /-- The number of each rule in the order of registration. -/
  order : Assoc String Nat := []
  next : Nat := 0
  /-- The identifiers of the rules for a kind of node, as far as they were asked for. -/
  table : Assoc String (List String) := []
  tally : Rule.Tally := {}

namespace RuleBook

open Rule (Tally Run Site)

/-! ### The order of rules -/

/-- The priority of a rule in this book. -/
def priority (b : RuleBook) (r : Rule) : Nat :=
  if b.securityOnly then ((Severity.ofName? r.profile.severity).map Severity.riskPriority).getD 0
  else r.profile.priority

/-- Whether a rule may be asked before another. -/
def before (b : RuleBook) (r s : Rule) : Bool :=
  let number (x : Rule) : Nat := Assoc.getD b.order x.profile.id 0
  decide (b.priority s < b.priority r) ||
    (b.priority s == b.priority r && decide (number r ≤ number s))

/-- All rules, in the order in which they are asked. -/
def rules (b : RuleBook) : List Rule :=
  (Assoc.values b.entries).mergeSort b.before

/-- The rules that are switched on, in order. -/
def enabledRules (b : RuleBook) : List Rule :=
  b.rules.filter Rule.enabled

/-- The identifiers of the rules for a kind, from the rules in force. -/
def freshIds (b : RuleBook) (kind : String) : List String :=
  (b.rules.filter fun r => r.profile.appliesTo kind).map fun r => r.profile.id

/-- The identifiers of the rules for a kind, and the book that remembers them. -/
def idsFor (b : RuleBook) (kind : String) : List String × RuleBook :=
  match Assoc.get? b.table kind with
  | some ids => (ids, b)
  | none =>
    let ids := b.freshIds kind
    (ids, { b with table := Assoc.put b.table kind ids })

/-- The rules for a kind, and the book that remembers them. -/
def rulesFor (b : RuleBook) (kind : String) : List Rule × RuleBook :=
  let (ids, b') := b.idsFor kind
  (ids.filterMap (Assoc.get? b.entries), b')

/-! ### Changing the book -/

/-- What comes of a rule that is to be registered: whether it was taken, the rule and the book
afterwards, and why a check failed, if one did. -/
structure Registration where
  taken : Bool
  rule : Rule
  book : RuleBook
  failure : Option Misuse := none

/-- A rule is refused and switched off, unless the check that found something failed itself. -/
def refuse (b : RuleBook) (r : Rule) (found : List Rule.Problem) : Registration :=
  match found.findSome? Rule.Problem.cause? with
  | some cause => { taken := false, rule := r, book := b, failure := some cause }
  | none =>
    { taken := false
      rule := { r with enabled := false }
      book :=
        { b with
          rejected := Assoc.put b.rejected r.profile.key (found.map Rule.Problem.text) } }

/-- The book with a rule that was looked over: a rule of the same identifier is replaced in its
place. -/
def enter (b : RuleBook) (key : String) (r : Rule) : RuleBook :=
  let numbered :=
    if Assoc.has b.entries key then b
    else { b with order := Assoc.put b.order key b.next, next := b.next + 1 }
  { numbered with
    entries := Assoc.put b.entries key r
    rejected := Assoc.erase b.rejected key
    table := [] }

/-- Registers a rule with the given settings. -/
def add (b : RuleBook) (r : Rule) (settings : Dict) : Registration :=
  if b.securityOnly && r.profile.security.isNone then { taken := false, rule := r, book := b }
  else
    match r.configured settings with
    | .error found => b.refuse r found
    | .ok r =>
      match r.validity.errors with
      | [] => { taken := true, rule := r, book := b.enter r.profile.key r }
      | found => b.refuse r found

/-- Takes a rule out; tells whether it was there. -/
def remove (b : RuleBook) (id : String) : Bool × RuleBook :=
  if Assoc.has b.entries id then
    (true, { b with
      entries := Assoc.erase b.entries id, order := Assoc.erase b.order id, table := [] })
  else (false, b)

/-- The rule of an identifier. -/
def get? (b : RuleBook) (id : String) : Option Rule :=
  Assoc.get? b.entries id

/-- Puts a changed rule in the place of the one it came from. -/
def modify (b : RuleBook) (id : String) (r : Rule) : RuleBook :=
  { b with entries := Assoc.put b.entries id r }

/-- Switches a rule on or off; tells whether it was there. -/
def setEnabled (b : RuleBook) (id : String) (on : Bool) : Bool × RuleBook :=
  match b.get? id with
  | some r => (true, b.modify id { r with enabled := on })
  | none => (false, b)

/-! ### Asking the rules -/

/-- Asks one rule about a node. -/
def ask (r : Rule) (n : Node) (site : Site) : Run :=
  match r.check r.settings n site with
  | .ok found => { id := r.profile.id, status := .success, findings := found }
  | .error cause => { id := r.profile.id, status := .failed, error := some cause }

/-- What the rules in force give at a node, rule by rule, and the book that remembers the rules for
the node's kind. -/
def runs (b : RuleBook) (n : Node) (site : Site) : List Run × RuleBook :=
  let (applicable, b') := b.rulesFor n.kind
  ((applicable.filter Rule.enabled).map fun r => ask r n site, b')

/-- The findings at a node, with the counts of a run brought up to date. -/
def inspect (b : RuleBook) (n : Node) (site : Site) (t : Tally) :
    List Finding × Tally × RuleBook :=
  let (given, b') := b.runs n site
  (given.flatMap Run.findings, given.foldl Tally.record t, b')

/-- Adds the counts of a run to the book's own. -/
def absorb (b : RuleBook) (t : Tally) : RuleBook :=
  { b with tally := b.tally.merge t }

/-- Forgets all counts. -/
def resetTally (b : RuleBook) : RuleBook :=
  { b with tally := {} }

/-- What is told about the book. -/
def statistics (b : RuleBook) : Dict :=
  [("total_rules", .nat b.entries.length),
   ("enabled_rules", .nat b.enabledRules.length),
   ("rule_ids", .ofTexts (b.rules.map fun r => r.profile.id)),
   ("rejected_rules", .dict (b.rejected.map fun e => (.str e.1, .ofTexts e.2))),
   ("execution", .dict b.tally.toDict)]

/-! ### Security books -/

/-- The rules of an OWASP category. -/
def rulesByOwasp (b : RuleBook) (code : String) : List Rule :=
  b.rules.filter fun r => r.profile.security.any fun s => s.owasp.code == code

/-- The rules for a kind of vulnerability. -/
def rulesByVulnerability (b : RuleBook) (word : String) : List Rule :=
  b.rules.filter fun r => r.profile.security.any fun s => s.vulnerability == word

/-- How much a finding of a severity takes from the score. -/
def riskWeight : Severity → Nat
  | .critical => 100
  | .high => 50
  | .medium => 25
  | .low => 10
  | .info => 5

/-- The grade for a score and the risk that led to it. -/
def grade (score risk : Nat) : String :=
  if 95 ≤ score ∧ risk = 0 then "A+"
  else if 90 ≤ score ∧ risk < 50 then "A"
  else if 85 ≤ score ∧ risk < 100 then "B+"
  else if 80 ≤ score ∧ risk < 150 then "B"
  else if 70 ≤ score ∧ risk < 200 then "C+"
  else if 60 ≤ score ∧ risk < 300 then "C"
  else if 50 ≤ score then "D"
  else "F"

/-- Counts the OWASP categories that findings name. -/
def owaspCounts (findings : List Finding) : Except Misuse (Assoc Key Nat) :=
  (findings.filter fun f => f.owaspCategory.truthy).foldlM
    (fun m f => return Assoc.bump m (← f.owaspCategory.toKey) 1) []

/-- The codes of the categories that rules in force cover, in order. -/
def coveredCategories (b : RuleBook) : List String :=
  let present := b.enabledRules.filterMap fun r => r.profile.security.map Rule.Security.owasp
  (Owasp.Category.all.filter present.contains).map Owasp.Category.code

/-- How well the security findings of a file compare with the rules in force. -/
def compliance (b : RuleBook) (findings : List Finding) : Except Misuse Dict := do
  let security := findings.filter fun f => f.category == .security
  let risk := (security.map fun f => riskWeight f.severity).foldr (· + ·) 0
  let score := 100 - risk
  let covered := b.coveredCategories
  let counts ← owaspCounts security
  return [
    ("score", .nat score),
    ("grade", .str (grade score risk)),
    ("total_risk", .nat risk),
    ("issues", .nat security.length),
    ("owasp_findings", .dict (counts.map fun e => (e.1, .nat e.2))),
    ("owasp_categories_covered", .ofTexts covered),
    ("owasp_coverage",
      .float (covered.length.toFloat / Owasp.Category.all.length.toFloat * 100.0))]

end RuleBook

end PhpAudit
