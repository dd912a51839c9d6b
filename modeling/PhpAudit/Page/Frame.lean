/-
Pages of markup with text from outside in them.

A page is a list of pieces.  A piece of markup is written as it is; a piece of text is escaped, so
that no character of it can be taken for markup.  The first and the last piece are the same in every
report.
-/

import PhpAudit.Value.Text

set_option autoImplicit false

namespace PhpAudit.Page

/-- A piece of a page. -/
inductive Piece where
  | markup (s : String)
  | text (s : String)
  deriving DecidableEq

/-- What stands for a character in text. -/
def escapeChar (c : Char) : List Char :=
  if c == '&' then "&amp;".toList
  else if c == '<' then "&lt;".toList
  else if c == '>' then "&gt;".toList
  else if c == '\x27' then "&#39;".toList
  else if c == '\x22' then "&#34;".toList
  else [c]

/-- Text without the characters that markup uses. -/
def escape (s : String) : String :=
  String.ofList (s.toList.flatMap escapeChar)

/-- The text of a piece. -/
def Piece.render : Piece → String
  | markup s => s
  | text s => escape s

/-- The text of a page. -/
def render (pieces : List Piece) : String :=
  String.join (pieces.map Piece.render)

/-- A piece of text that shows a value. -/
def shown (v : Value) : Piece :=
  .text v.plain

/-- A piece of text that shows a count. -/
def number (n : Nat) : Piece :=
  .text (toString n)

/-- Lines of markup. -/
def lines (ls : List String) : Piece :=
  .markup ("\n".intercalate ls)

/-- The style of the page, line by line. -/
def style : List String :=
  ["        body \x7b font-family: -apple-system, BlinkMacSystemFont, 'Segoe UI', Roboto, sans-serif;",
   "               line-height: 1.5; color: #333; background-color: #f5f5f5; margin: 0; \x7d",
   "        .header \x7b background: #2c3e50; color: white; padding: 1.5rem; text-align: center; \x7d",
   "        .container \x7b max-width: 1200px; margin: 0 auto; padding: 1.5rem; \x7d",
   "        .summary-grid \x7b display: grid; grid-template-columns: repeat(auto-fit, minmax(150px, 1fr)); gap: 1rem; \x7d",
   "        .summary-card \x7b background: white; border-radius: 6px; padding: 1rem; text-align: center; \x7d",
   "        .section \x7b background: white; border-radius: 6px; margin-top: 1.5rem; padding: 1rem 1.5rem; \x7d",
   "        .issue \x7b border-left: 4px solid #999; padding: 0.5rem 1rem; margin: 0.75rem 0; background: #fafafa; \x7d",
   "        .issue.critical \x7b border-color: #8e0000; \x7d",
   "        .issue.high \x7b border-color: #e74c3c; \x7d",
   "        .issue.medium \x7b border-color: #f39c12; \x7d",
   "        .issue.low \x7b border-color: #3498db; \x7d",
   "        .issue.info \x7b border-color: #95a5a6; \x7d",
   "        .badge \x7b display: inline-block; padding: 0 0.5rem; border-radius: 3px; font-size: 0.8rem;",
   "                 background: #eee; margin-right: 0.5rem; \x7d",
   "        .code-snippet \x7b font-family: monospace; white-space: pre; background: #272822; color: #f8f8f2;",
   "                        padding: 0.5rem; overflow-x: auto; \x7d",
   "        table \x7b width: 100%; border-collapse: collapse; \x7d",
   "        th, td \x7b text-align: left; padding: 0.4rem; border-bottom: 1px solid #eee; \x7d"]

/-- The first lines of the page up to its title. -/
def preamble : List String :=
  ["<!DOCTYPE html>",
   "<html lang=\"en\">",
   "<head>",
   "    <meta charset=\"UTF-8\">",
   "    <meta name=\"viewport\" content=\"width=device-width, initial-scale=1.0\">",
   "    <title>"]

/-- From the title to the line that names the moment. -/
def heading : List String :=
  ["</title>", "    <style>"] ++ style ++
    ["    </style>",
     "</head>",
     "<body>",
     "    <div class=\"header\">",
     "        <h1>Periksa PHP Code Analysis Report</h1>",
     "        <div>Generated on "]

/-- The start of the page, with its title and the moment at which it was made. -/
def opening (title moment : String) : List Piece :=
  [lines preamble, .text title, lines heading, .text moment,
   lines ["</div>", "    </div>", "", "    <div class=\"container\">", ""]]

/-- The end of the page. -/
def closing : Piece :=
  lines ["", "    </div>", "</body>", "</html>"]

end PhpAudit.Page
