/-
Single statements that are better written otherwise: a handler that does nothing, and a call of a
function that the language gave up.
-/

import PhpAudit.Php.Functions
import PhpAudit.Rule.Plain

set_option autoImplicit false

namespace PhpAudit.Quality.Statements

open Php

/-! ### Empty handlers -/

/-- The remark about a handler with an empty body. -/
def inspectCatch : Rule.Remarks := fun _ n _ =>
  .ok (match body? n with
    | none => []
    | some body =>
      if !body.children.isEmpty then []
      else
        [{ title := "Empty catch block"
           description :=
             "The exception is caught and discarded without handling or logging."
           line := some n.span.startLine
           suggestions := [.str "Log the exception or rethrow it",
             .str "Add a comment if ignoring it is intended"] }])

/-- Handlers that do nothing. -/
def emptyCatchRule : Rule :=
  Rule.plain
    { id := "empty_catch"
      name := "Empty Catch Block"
      description := "Exceptions caught and silently discarded"
      category := "quality"
      ownSeverity := "medium"
      nodeKinds := ["catch_clause"]
      ownTags := ["quality", "error-handling"] }
    [] (fun _ => []) inspectCatch

/-! ### Deprecated functions -/

/-- What became of a function. -/
structure Deprecation where
  version : String
  replacement : String

/-- Functions that the language gave up. -/
def deprecated : Assoc String Deprecation :=
  [("mysql_connect", ⟨"7.0", "mysqli_connect() or PDO"⟩),
   ("mysql_query", ⟨"7.0", "mysqli_query() or PDO"⟩),
   ("mysql_fetch_array", ⟨"7.0", "mysqli_fetch_array() or PDOStatement::fetch()"⟩),
   ("mysql_fetch_assoc", ⟨"7.0", "mysqli_fetch_assoc() or PDOStatement::fetch()"⟩),
   ("mysql_real_escape_string", ⟨"7.0", "prepared statements"⟩),
   ("mysql_select_db", ⟨"7.0", "mysqli_select_db()"⟩),
   ("mysql_close", ⟨"7.0", "mysqli_close()"⟩),
   ("ereg", ⟨"7.0", "preg_match()"⟩),
   ("eregi", ⟨"7.0", "preg_match() with the i modifier"⟩),
   ("ereg_replace", ⟨"7.0", "preg_replace()"⟩),
   ("split", ⟨"7.0", "explode() or preg_split()"⟩),
   ("create_function", ⟨"8.0", "anonymous functions"⟩),
   ("each", ⟨"8.0", "foreach"⟩),
   ("money_format", ⟨"8.0", "NumberFormatter"⟩),
   ("get_magic_quotes_gpc", ⟨"8.0", "nothing; magic quotes no longer exist"⟩),
   ("utf8_encode", ⟨"8.2", "mb_convert_encoding()"⟩),
   ("utf8_decode", ⟨"8.2", "mb_convert_encoding()"⟩),
   ("strftime", ⟨"8.1", "IntlDateFormatter or date()"⟩)]

/-- What became of a function, the whole mcrypt family included. -/
def deprecation? (name : String) : Option Deprecation :=
  (Assoc.get? deprecated name).or
    (if Text.startsWith name "mcrypt_" then
      some ⟨"7.2", "sodium_* or openssl_* functions"⟩ else none)

/-- The remark about a call. -/
def inspectCall : Rule.Remarks := fun _ n _ =>
  let name := callName n
  .ok (match deprecation? name with
    | none => []
    | some d =>
      let version := d.version
      let replacement := d.replacement
      [{ title := s!"Deprecated function {name}()"
         description := s!"{name}() is deprecated or removed as of PHP {version}."
         suggestions := [.str s!"Replace with {replacement}"]
         metadata := [("function", .str name), ("php_version", .str version),
           ("replacement", .str replacement)] }])

/-- Calls of functions that the language gave up. -/
def deprecatedRule : Rule :=
  Rule.plain
    { id := "deprecated_function"
      name := "Deprecated Function"
      description := "Calls to functions deprecated or removed in current PHP versions"
      category := "compatibility"
      ownSeverity := "medium"
      nodeKinds := ["function_call_expression"]
      ownTags := ["compatibility", "deprecated"] }
    [] (fun _ => []) inspectCall

end PhpAudit.Quality.Statements
