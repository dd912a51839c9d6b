/-
The report page and its sections.

Every part of a section that repeats stands between two line breaks with the blanks of its level.

* `Page.summaryGrid` — the figures on top;
* `Page.weaknesses` — the most frequent weakness numbers;
* `Page.categories` — security findings by category;
* `Page.files` — all files with their findings;
* `Page.failures` — files that could not be analyzed;
* `Page.report` — the pieces of the page about a batch, whose figures must be sound.
-/

import PhpAudit.Owasp.Profiles
import PhpAudit.Page.Frame
import PhpAudit.Report.Batch

set_option autoImplicit false

namespace PhpAudit.Page

/-- A repeated part at a level of blanks. -/
def repeated (blanks : String) (parts : List (List Piece)) : List Piece :=
  .markup blanks ::
    (parts.flatMap fun p => .markup ("\n" ++ blanks) :: p ++ [.markup ("\n" ++ blanks)])

/-- The blanks of the three levels on which parts repeat. -/
def level2 : String := "        "
def level3 : String := "            "
def level4 : String := "                "

/-! ### Figures -/

/-- A figure with a caption in one line. -/
def card (figure : Piece) (caption : String) : List Piece :=
  [.markup (level3 ++ "<div class=\"summary-card\"><h3>"), figure,
   .markup ("</h3><p>" ++ caption ++ "</p></div>\n")]

/-- The count of a severity. -/
def severityCard (e : String × Nat) : List Piece :=
  [.markup "<div class=\"summary-card\"><h3>", number e.2,
   .markup ("</h3>\n" ++ level4 ++ "<p>"), .text (Text.capitalize e.1), .markup "</p></div>"]

/-- The figures on top of the page. -/
def summaryGrid (b : Batch) : List Piece :=
  [.markup (level2 ++ "<div class=\"summary-grid\">\n")] ++
  card (number b.reports.length) "Files Analyzed" ++
  card (number b.findingCount) "Total Issues" ++
  [.markup (level3 ++ "<div class=\"summary-card\"><h3>"),
   shown (.float (Decimal.round b.averageQuality 2)),
   .markup ("</h3>\n" ++ level4 ++ "<p>Quality Score ("), .text b.grade,
   .markup ")</p></div>\n"] ++
  repeated level3 (b.severityCounts.map severityCard) ++
  [.markup ("\n" ++ level2 ++ "</div>\n\n")]

/-! ### Weaknesses -/

/-- The weakness numbers of all findings with their counts, in the order in which they appear. -/
def weaknessCounts (b : Batch) : Except Misuse (Assoc Key Nat) :=
  (b.list.flatMap fun r => r.findings.flatMap Finding.cweIds).foldlM
    (fun counts v => return Assoc.bump counts (← v.toKey) 1) []

/-- The five most frequent of some weakness numbers. -/
def mostFrequent (counts : Assoc Key Nat) : Assoc Key Nat :=
  (counts.mergeSort fun x y => decide (y.2 ≤ x.2)).take 5

/-- A weakness number with its count. -/
def weaknessBadge (e : Key × Nat) : List Piece :=
  [.markup "<span class=\"badge\">CWE-", .text e.1.plain, .markup " (", number e.2,
   .markup ")</span>"]

/-- The most frequent weakness numbers, if there are any. -/
def weaknesses (top : Assoc Key Nat) : List Piece :=
  let body :=
    if top.isEmpty then []
    else
      [.markup ("\n" ++ level2 ++ "<div class=\"section\">\n" ++ level3 ++
        "<h2>Top CWE Identifiers</h2>\n")] ++
      repeated level3 (top.map weaknessBadge) ++
      [.markup ("\n" ++ level2 ++ "</div>\n" ++ level2)]
  [.markup level2] ++ body ++ [.markup "\n\n"]

/-! ### Categories -/

/-- The findings of a category under its title. -/
structure Group where
  title : Value
  /-- Each finding with the path of its file. -/
  members : List (Value × Finding) := []

/-- The groups of the known categories. -/
def knownGroups : Assoc Key Group :=
  Owasp.Category.all.map fun c => (.str c.code, { title := .str (c.code ++ ": " ++ c.name) })

/-- The groups with one more finding; a category that is not known gets a group of its own. -/
def enterGroup (groups : Assoc Key Group) (path : Value) (f : Finding) :
    Except Misuse (Assoc Key Group) := do
  let title ← Owasp.categoryName f.owaspCategory
  let code ← f.owaspCategory.toKey
  let group := Assoc.getD groups code { title }
  return Assoc.put groups code { group with members := group.members ++ [(path, f)] }

/-- The security findings of a batch that name a category, with the paths of their files. -/
def classified (b : Batch) : List (Value × Finding) :=
  b.list.flatMap fun r =>
    (r.securityFindings.filter fun f => f.owaspCategory.truthy).map fun f => (r.path, f)

/-- All groups. -/
def groupsOf (b : Batch) : Except Misuse (List Group) := do
  return Assoc.values (← (classified b).foldlM (fun gs e => enterGroup gs e.1 e.2) knownGroups)

/-- Where a finding is: its own place, or the file of the report and its line. -/
def placeOf (path : Value) (f : Finding) : String :=
  if f.filePath.truthy then f.location else path.plain ++ ":" ++ f.line.plain

/-- A finding in its category. -/
def classifiedFinding (e : Value × Finding) : List Piece :=
  let f := e.2
  let badges := f.cweIds.flatMap fun id =>
    [.markup "<span class=\"badge\">CWE-", shown id, .markup "</span>"]
  let snippet :=
    if f.codeSnippet.truthy then
      [.markup "<div class=\"code-snippet\">", shown f.codeSnippet, .markup "</div>"]
    else []
  [.markup "<div class=\"issue ", .text f.severity.name,
   .markup ("\">\n" ++ level4 ++ "<strong>"), shown f.title,
   .markup ("</strong>\n" ++ level4 ++ "<div>\n" ++ level4 ++ "    <span class=\"badge\">"),
   .text f.severity.name,
   .markup ("</span>\n" ++ level4 ++ "    <span class=\"badge\">"), .text (placeOf e.1 f),
   .markup ("</span>\n" ++ level4 ++ "    ")] ++
  badges ++
  [.markup ("\n" ++ level4 ++ "</div>\n" ++ level4 ++ "<p>"), shown f.description,
   .markup ("</p>\n" ++ level4)] ++
  snippet ++
  [.markup ("\n" ++ level3 ++ "</div>")]

/-- A group with its findings; nothing if there are none. -/
def groupSection (g : Group) : List Piece :=
  [.markup ""] ++
  (if g.members.isEmpty then []
   else
    [.markup ("\n" ++ level3 ++ "<h3>"), shown g.title, .markup " (", number g.members.length,
     .markup ")</h3>\n"] ++
    repeated level3 (g.members.map classifiedFinding) ++
    [.markup ("\n" ++ level3)])

/-- The security findings by category. -/
def categories (groups : List Group) : List Piece :=
  [.markup (level2 ++ "<div class=\"section\">\n" ++ level3 ++
    "<h2>OWASP Top 10 Categories</h2>\n")] ++
  repeated level3 (groups.map groupSection) ++
  [.markup ("\n" ++ level2 ++ "</div>\n\n")]

/-! ### Files -/

/-- A cell of a row. -/
def cell (content : Piece) : List Piece :=
  [.markup (level4 ++ "    <td>"), content, .markup "</td>\n"]

/-- The row of a file. -/
def fileRow (r : Report) : List Piece :=
  [.markup ("<tr>\n" ++ level4 ++ "    <td>"), shown r.path,
   .markup (if r.isPartial.truthy then " (partial)" else ""), .markup "</td>\n"] ++
  cell (number r.qualityScore) ++ cell (number r.securityScore) ++
  cell (number r.findings.length) ++
  [.markup (level4 ++ "</tr>")]

/-- A finding in its file. -/
def fileFinding (f : Finding) : List Piece :=
  let suggestions := f.suggestions.flatMap fun s =>
    [.markup "<div>&rarr; ", shown s, .markup "</div>"]
  [.markup "<div class=\"issue ", .text f.severity.name,
   .markup ("\">\n" ++ level4 ++ "<strong>"), shown f.title,
   .markup ("</strong>\n" ++ level4 ++ "<span class=\"badge\">"), .text f.category.name,
   .markup ("</span>\n" ++ level4 ++ "<span class=\"badge\">line "), shown f.line,
   .markup ("</span>\n" ++ level4 ++ "<span class=\"badge\">"), shown f.ruleId,
   .markup ("</span>\n" ++ level4 ++ "<p>"), shown f.description,
   .markup ("</p>\n" ++ level4)] ++
  suggestions ++
  [.markup ("\n" ++ level3 ++ "</div>")]

/-- The findings of a file; nothing if there are none. -/
def fileSection (r : Report) : List Piece :=
  [.markup ""] ++
  (if r.findings.isEmpty then []
   else
    [.markup ("\n" ++ level3 ++ "<h3>"), shown r.path, .markup "</h3>\n"] ++
    repeated level3 (r.findings.map fileFinding) ++
    [.markup ("\n" ++ level3)])

/-- All files that were analyzed. -/
def files (b : Batch) : List Piece :=
  let ranked := b.ascending
  [.markup (level2 ++ "<div class=\"section\">\n" ++ level3 ++ "<h2>Files</h2>\n" ++ level3 ++
    "<table>\n" ++ level4 ++
    "<tr><th>File</th><th>Quality</th><th>Security</th><th>Issues</th></tr>\n")] ++
  repeated level4 (ranked.map fileRow) ++
  [.markup ("\n" ++ level3 ++ "</table>\n")] ++
  repeated level3 (ranked.map fileSection) ++
  [.markup ("\n" ++ level2 ++ "</div>\n\n")]

/-! ### Failures -/

/-- The row of a file that could not be analyzed. -/
def failureRow (r : Report) : List Piece :=
  [.markup "<tr><td>", shown r.path, .markup "</td><td>", shown r.status,
   .markup "</td><td>", shown r.reason, .markup "</td></tr>"]

/-- The files that could not be analyzed, if there are any. -/
def failures (b : Batch) : List Piece :=
  let failed := b.failures
  let body :=
    if failed.isEmpty then []
    else
      [.markup ("\n" ++ level2 ++ "<div class=\"section\">\n" ++ level3 ++
        "<h2>Failed Files</h2>\n" ++ level3 ++ "<table>\n" ++ level4 ++
        "<tr><th>File</th><th>Status</th><th>Reason</th></tr>\n")] ++
      repeated level4 (failed.map failureRow) ++
      [.markup ("\n" ++ level3 ++ "</table>\n" ++ level2 ++ "</div>\n" ++ level2)]
  [.markup level2] ++ body

/-! ### The page -/

/-- The page about a batch. -/
def report (b : Batch) (now : Stamp) : Except Misuse (List Piece) := do
  let counts ← weaknessCounts b
  let _ ← b.summary
  let groups ← groupsOf b
  return opening "PHP Code Analysis Report" now.plain ++ summaryGrid b ++
    weaknesses (mostFrequent counts) ++ categories groups ++ files b ++ failures b ++ [closing]

end PhpAudit.Page
