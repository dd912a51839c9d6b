/-
SQL injection.

A call that sends a query is suspect when the query is built from values known only at run time.
So is a call that prepares a statement, if the statement is put together from pieces.  A string
that holds SQL and takes part in a concatenation away from such a call is suspect on its own, once
per chain, at the first literal with SQL in it.

* `Security.Sql.queryArgument?`, `Security.Sql.prepareArgument?` — the arguments that matter;
* `Security.Sql.assess` — the evidence that a query gives;
* `Security.Sql.looksLikeQuery` — telling SQL from prose;
* `Security.Sql.rule` — the rule.
-/

import PhpAudit.Security.Input
import PhpAudit.Rule.Guard
import PhpAudit.Pattern.Basic

set_option autoImplicit false

namespace PhpAudit.Security.Sql

open Php

/-! ### Calls -/

/-- Functions that send a query, with the position of the query; below zero counts from the end. -/
def queryFunctions : Assoc String Int :=
  [("mysql_query", 0), ("mysqli_query", 1), ("mysql_db_query", 1), ("mysqli_real_query", 1),
   ("mysqli_multi_query", 1), ("pg_query", -1), ("pg_send_query", 1), ("sqlite_query", 0),
   ("mssql_query", 0), ("odbc_exec", 1)]

/-- Methods that send a query. -/
def queryMethods : List String :=
  ["query", "exec", "multi_query", "real_query"]

/-- Functions that prepare a statement, with the position of the statement. -/
def prepareFunctions : Assoc String Int :=
  [("mysqli_prepare", 1), ("mysql_prepare", 0), ("pg_prepare", 2)]

/-- Methods that prepare a statement. -/
def prepareMethods : List String :=
  ["prepare"]

/-- Functions that make a value safe inside a query. -/
def escapeFunctions : List String :=
  ["mysqli_real_escape_string", "mysql_real_escape_string", "mysql_escape_string",
   "pg_escape_string", "pg_escape_literal", "sqlite_escape_string", "intval", "floatval", "abs",
   "quote"]

/-- The argument that a table of functions and a list of methods point to. -/
def pointedArgument? (functions : Assoc String Int) (methods : List String) (n : Node) :
    Option Node :=
  if isFunctionCall n then (Assoc.get? functions (callName n)).bind (argument? n)
  else if methods.contains (methodName n) then argument? n 0
  else none

/-- The query that a call sends. -/
def queryArgument? (n : Node) : Option Node :=
  pointedArgument? queryFunctions queryMethods n

/-- The statement that a call prepares. -/
def prepareArgument? (n : Node) : Option Node :=
  pointedArgument? prepareFunctions prepareMethods n

/-- Whether the node is a call that sends a query or prepares a statement. -/
def isQueryCall (n : Node) : Bool :=
  isCall n && ((queryArgument? n).isSome || (prepareArgument? n).isSome)

/-! ### SQL in strings -/

/-- Words that open or join SQL statements. -/
def keywords : List String :=
  ["select", "insert", "update", "delete", "drop", "create", "alter", "union", "where"]

/-- A text as a pattern that matches exactly it. -/
def wordPattern (word : String) : Pattern :=
  word.toList.foldr (fun c p => .seq (.char c) p) .empty

/-- One of the keywords as a word of its own. -/
def keywordPattern : Pattern :=
  .seq (.anchor .wordEdge)
    (.seq (keywords.foldr (fun w p => .alt (wordPattern w) p) (.set false []))
      (.anchor .wordEdge))

/-- Keywords in any case. -/
def anyCase : Pattern.Mode :=
  { ignoreCase := true }

/-- The first keyword of a text, as it is written there. -/
def firstKeyword? (text : String) : Option String :=
  keywordPattern.search? anyCase text

/-- Whether a text has a keyword. -/
def hasKeyword (text : String) : Bool :=
  keywordPattern.found anyCase text

/-- Whether a text has two different keywords or starts with one. -/
def looksLikeQuery (content : String) : Bool :=
  let found := ((keywordPattern.findAll anyCase content).map Text.lower).eraseDups
  let leading :=
    Text.lower (Text.before (String.ofList (Text.trimLeft content.toList)) " ")
  decide (2 ≤ found.length) || keywords.contains leading

/-! ### Evidence -/

/-- The evidence that the shape of a query gives. -/
def shape (query : Node) : Evidence :=
  if isLiteral query then {}
  else if isConcatenation query then
    if allSanitized escapeFunctions query then {}
    else
      let built : Evidence :=
        Evidence.add {} "string_concatenation" 0.8 "Query is built with string concatenation."
      if (concatenationParts query).any fun p => isString p && hasKeyword (stringContent p) then
        built.add "sql_keywords" 0.1
      else built
  else if hasInterpolation query then
    let built : Evidence :=
      Evidence.add {} "variable_interpolation" 0.7
        "Variables are interpolated into the query string."
    if hasKeyword (stringContent query) then built.add "sql_keywords" 0.1 else built
  else if isVariable query ||
      ["subscript_expression", "member_access_expression"].contains query.kind then
    Evidence.add {} "direct_variable_usage" 0.6 "Query text comes directly from a variable."
  else if isCall query then
    if isCallOf escapeFunctions query then {}
    else Evidence.add {} "dynamic_query" 0.5 "Query text is produced by a function call."
  else {}

/-- The evidence that a query gives. -/
def assess (n : Node) : Evidence :=
  let query := unwrap n
  let e := shape query
  if e.hasRisk && readsRequest query then
    e.add "user_input" 0.2 "Request parameters reach the query."
  else e

/-! ### The rule -/

/-- What a call is suspected of. -/
def inspectCall (n : Node) : Option (Rule.Suspicion × Evidence) :=
  let name := shownName n
  match queryArgument? n with
  | some query =>
    some ({ title := "SQL Injection"
            description := s!"Query passed to {name}() is built from runtime values."
            metadata := [("function", .str name), ("sink", .str "query")] }, assess query)
  | none =>
    match prepareArgument? n with
    | some given =>
      let statement := unwrap given
      if isConcatenation statement || hasInterpolation statement then
        some ({ title := "Incorrect usage of safe function"
                description :=
                  s!"{name}() receives a statement assembled from runtime values, " ++
                    "which bypasses parameter binding."
                severity := some "medium"
                metadata := [("function", .str name), ("sink", .str "prepare")] },
          assess statement)
      else none
    | none => none

/-- The outermost concatenation of the chain that starts at a parent and goes on through its
ancestors. -/
def chainTop (parent : Node) (others : List Node) : Node :=
  (others.takeWhile isConcatenation).getLast?.getD parent

/-- The first part of a chain that is a string with a keyword in it. -/
def firstLiteral? (chain : Node) : Option Node :=
  (concatenationParts chain).find? fun p => isString p && hasKeyword (stringContent p)

/-- Whether another literal of the same chain is the one that is reported. -/
def coveredByChain (n parent : Node) (others : List Node) : Bool :=
  isConcatenation parent &&
    (firstLiteral? (chainTop parent others)).any fun first =>
      first.span.startByte != n.span.startByte

/-- What a string is suspected of. -/
def inspectString (n : Node) (trail : Walk.Trail) : Option (Rule.Suspicion × Evidence) :=
  match trail.ancestors with
  | [] => none
  | parent :: others =>
    let content := stringContent n
    match firstKeyword? content with
    | none => none
    | some word =>
      if !isConcatenation parent && !hasInterpolation n then none
      else if !looksLikeQuery content then none
      else if (trail.findAncestor? isQueryCall).isSome then none
      else if coveredByChain n parent others then none
      else
        let built : Evidence :=
          if hasInterpolation n then
            Evidence.add {} "variable_interpolation" 0.5 "SQL text interpolates variables."
          else
            Evidence.add {} "string_concatenation" 0.5
              "SQL text is concatenated with runtime values."
        let e :=
          if readsRequest parent then
            built.add "user_input" 0.3 "Request parameters are concatenated into the SQL text."
          else built
        some ({ title := "Potential SQL Injection"
                description := "SQL statement using '" ++ word.map Text.upperAscii ++
                  "' is assembled from runtime values."
                metadata := [("sink", .str "string"), ("keyword", .str (Text.lower word))] }, e)

/-- What a node is suspected of. -/
def inspect : Rule.Inspection := fun _ n site =>
  .ok (if isCall n then inspectCall n else inspectString n site.trail)

/-- SQL built from values known only at run time. -/
def rule : Rule :=
  Rule.guarded
    { id := "sql_injection"
      name := "SQL Injection"
      description := "SQL query built from untrusted input"
      nodeKinds := ["function_call_expression", "member_call_expression",
        "scoped_call_expression", "encapsed_string", "string"] }
    { vulnerability := "sql_injection"
      owasp := .injection
      risk := .high
      cweIds := [.int 89, .int 564]
      falsePositives := .float 0.15
      remediation := ["Use prepared statements with bound parameters",
        "Validate and type-cast input before it reaches the database layer"] }
    [] (fun _ => []) inspect

end PhpAudit.Security.Sql
