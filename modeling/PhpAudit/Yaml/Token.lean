/-
The tokens of a settings file.

Blocks are told by indentation and have no signs of their own, so the reader of tokens keeps the
indentations of the open blocks and adds tokens where a block begins and ends.  A key is known as
one only at the colon behind it: the place of everything that may be a key is kept, and the tokens
of a key are spliced in at that place once the colon is there.

* `Yaml.Token` — the tokens;
* `Yaml.Scan` — how far the reader has come;
* `Yaml.tokens?` — the tokens of a whole text, none if it is malformed.
-/

import PhpAudit.Yaml.Written

set_option autoImplicit false

namespace PhpAudit.Yaml

/-- A token. -/
inductive Token where
  | directive (name : String) (words : List String)
  | documentStart
  | documentEnd
  /-- A list in a block begins. -/
  | listStart
  /-- A mapping in a block begins. -/
  | mappingStart
  /-- A block ends. -/
  | blockEnd
  | bracketOpen
  | bracketClose
  | braceOpen
  | braceClose
  /-- The dash of an item. -/
  | dash
  | comma
  /-- A key begins. -/
  | key
  /-- A value begins. -/
  | value
  | reference (name : String)
  | anchor (name : String)
  | tag (name : String)
  | scalar (text : String) (isPlain : Bool)
  deriving DecidableEq

/-- A place at which a key may have begun. -/
structure KeyPlace where
  /-- How many tokens there were. -/
  position : Nat
  /-- Whether there must be a key. -/
  required : Bool
  index : Nat
  line : Nat
  column : Nat

/-- How far the reader of tokens has come. -/
structure Scan where
  cursor : Cursor
  /-- The tokens read, the last first. -/
  read : List Token := []
  count : Nat := 0
  /-- The tokens that are spliced in, each with its position, the last first. -/
  spliced : List (Nat × Token) := []
  /-- How many brackets are open. -/
  depth : Nat := 0
  /-- The indentation of the innermost block and of those around it. -/
  indent : Int := -1
  outer : List Int := []
  /-- Whether a key may begin here. -/
  keyAllowed : Bool := true
  /-- The last place of a possible key inside each number of brackets. -/
  places : List (Nat × KeyPlace) := []

namespace Scan

/-! ### Tokens and blocks -/

/-- One more token. -/
def push (s : Scan) (t : Token) : Scan :=
  { s with read := t :: s.read, count := s.count + 1 }

/-- Closes the blocks that are further in than a column. -/
def unwind (s : Scan) (column : Int) : Scan :=
  if s.depth != 0 then s
  else
    let closed := (s.indent :: s.outer).takeWhile fun i => decide (column < i)
    let left := (s.indent :: s.outer).drop closed.length
    { closed.foldl (fun s _ => s.push .blockEnd) s with
      indent := left.head?.getD (-1), outer := left.drop 1 }

/-- Opens a block at a column that is further in, and tells whether it did. -/
def deepen (s : Scan) (column : Nat) : Bool × Scan :=
  if s.indent < column then (true, { s with indent := column, outer := s.indent :: s.outer })
  else (false, s)

/-- Opens a block here with its token, unless inside brackets. -/
def openBlock (s : Scan) (t : Token) : Scan :=
  if s.depth != 0 then s
  else
    let (opened, s) := s.deepen s.cursor.column
    if opened then s.push t else s

/-! ### Keys -/

/-- Gives up the possible key inside the present brackets; one that must be there is missed. -/
def dropKey? (s : Scan) : Option Scan :=
  match s.places.lookup s.depth with
  | some k =>
    if k.required then none
    else some { s with places := s.places.filter fun p => p.1 != s.depth }
  | none => some s

/-- Keeps this place as one where a key may begin. -/
def noteKey? (s : Scan) : Option Scan :=
  if s.keyAllowed then do
    let s ← s.dropKey?
    let place : KeyPlace :=
      { position := s.count
        required := s.depth == 0 && s.indent == (s.cursor.column : Int)
        index := s.cursor.index
        line := s.cursor.line
        column := s.cursor.column }
    return { s with places := (s.depth, place) :: s.places }
  else some s

/-- Gives up the possible keys that began on another line or too far back. -/
def dropStale? (s : Scan) : Option Scan :=
  let isStale (k : KeyPlace) : Bool :=
    k.line != s.cursor.line || decide (1024 < s.cursor.index - k.index)
  if s.places.any fun p => isStale p.2 && p.2.required then none
  else some { s with places := s.places.filter fun p => !isStale p.2 }

/-! ### Signs -/

/-- Past the blanks, comments and line breaks in front of a token. -/
def toNext : Nat → Scan → Scan
  | 0, s => s
  | fuel + 1, s =>
    let blank := s.cursor.skipWhile (· == ' ')
    let behind := if blank.peek == '#' then blank.skipWhile (!endsLine ·) else blank
    match behind.lineBreak? with
    | some (_, next) =>
      toNext fuel { s with cursor := next, keyAllowed := s.keyAllowed || s.depth == 0 }
    | none => { s with cursor := behind }

/-- A sign of so many characters. -/
def sign (s : Scan) (t : Token) (width : Nat := 1) : Scan :=
  { s.push t with cursor := s.cursor.advance width }

/-- A marker between documents. -/
def marker? (s : Scan) (t : Token) : Option Scan := do
  let s ← (s.unwind (-1)).dropKey?
  return { s with keyAllowed := false }.sign t 3

/-- A directive. -/
def directive? (s : Scan) : Option Scan := do
  let s ← (s.unwind (-1)).dropKey?
  let (line, next) := s.cursor.step.takeWhile (!endsLine ·)
  let words := ((String.ofList line).splitOn " ").filter (· != "")
  let shown := words.takeWhile fun w => w.front != '#'
  match shown with
  | [] => none
  | name :: arguments =>
    return { s with keyAllowed := false, cursor := next }.push (.directive name arguments)

/-- An opening bracket. -/
def opening? (s : Scan) (t : Token) : Option Scan := do
  let s ← s.noteKey?
  return { s with depth := s.depth + 1, keyAllowed := true }.sign t

/-- A closing bracket. -/
def closing? (s : Scan) (t : Token) : Option Scan := do
  let s ← s.dropKey?
  if s.depth == 0 then none
  else return { s with depth := s.depth - 1, keyAllowed := false }.sign t

/-- A comma. -/
def comma? (s : Scan) : Option Scan := do
  return { ← s.dropKey? with keyAllowed := true }.sign .comma

/-- The dash of an item. -/
def dash? (s : Scan) : Option Scan := do
  if s.depth == 0 && !s.keyAllowed then none
  else
    let s ← (s.openBlock .listStart).dropKey?
    return { s with keyAllowed := true }.sign .dash

/-- The sign of a key. -/
def key? (s : Scan) : Option Scan := do
  if s.depth == 0 && !s.keyAllowed then none
  else
    let s ← (s.openBlock .mappingStart).dropKey?
    return { s with keyAllowed := s.depth == 0 }.sign .key

/-- The colon of a value: it may make a key of what began at a place before it. -/
def value? (s : Scan) : Option Scan :=
  match s.places.lookup s.depth with
  | some k =>
    let s := { s with places := s.places.filter fun p => p.1 != s.depth, keyAllowed := false }
    let (opened, s) := if s.depth == 0 then s.deepen k.column else (false, s)
    let first := if opened then [(k.position, Token.mappingStart)] else []
    some ({ s with spliced := (k.position, Token.key) :: first ++ s.spliced }.sign .value)
  | none =>
    if s.depth == 0 && !s.keyAllowed then none
    else do
      let s ← (s.openBlock .mappingStart).dropKey?
      return { s with keyAllowed := s.depth == 0 }.sign .value

/-! ### Names and scalars -/

/-- A token that may begin a key, with the place behind it. -/
def item? (s : Scan) (t : Token) (next : Cursor) : Option Scan := do
  return { (← s.noteKey?).push t with cursor := next, keyAllowed := false }

/-- The name of an anchor or of a reference to one. -/
def name? (s : Scan) (make : String → Token) : Option Scan :=
  let (name, next) := s.cursor.step.takeWhile fun c => c.isAlphanum || c == '-' || c == '_'
  let ends := isGap next.peek || ['?', ':', ',', ']', '%', '@'].contains next.peek
    || next.peek.toNat == 0x7d || next.peek.toNat == 0x60
  if name.isEmpty || !ends then none else s.item? (make (String.ofList name)) next

/-- A tag. -/
def tag? (s : Scan) : Option Scan :=
  let isBrace (c : Char) : Bool := c.toNat == 0x7b || c.toNat == 0x7d
  let (name, next) := s.cursor.takeWhile fun c => !isGap c && !isBrace c
  if next.peek == ' ' || endsLine next.peek then s.item? (.tag (String.ofList name)) next
  else none

/-- A quoted scalar. -/
def quoted? (s : Scan) : Option Scan := do
  let (text, next) ← quotedText? s.cursor
  s.item? (.scalar text false) next

/-- A plain scalar. -/
def plain? (s : Scan) : Option Scan := do
  let s ← s.noteKey?
  let (text, next, newLine) := plainText (s.depth != 0) (s.indent + 1) s.cursor
  return { s.push (.scalar text true) with cursor := next, keyAllowed := newLine }

/-- A scalar in a block. -/
def block? (s : Scan) : Option Scan := do
  let s ← s.dropKey?
  let (text, next) ← blockText? s.indent s.cursor
  return { s.push (.scalar text false) with cursor := next, keyAllowed := true }

/-- Whether a plain scalar may begin here. -/
def startsPlain (s : Scan) : Bool :=
  let c := s.cursor.peek
  let isSign := isGap c || isBracket c || c.toNat == 0x60 ||
    ['-', '?', ':', '#', '&', '*', '!', '|', '>', '\'', '"', '%', '@'].contains c
  !isSign ||
    (!isGap (s.cursor.peek 1) && (c == '-' || (s.depth == 0 && (c == '?' || c == ':'))))

/-! ### All tokens -/

/-- The next token, where the place is that of its first character. -/
def token? (s : Scan) : Option Scan :=
  let c := s.cursor.peek
  let gapBehind := isGap (s.cursor.peek 1)
  let inFlow := s.depth != 0
  if c == '%' && s.cursor.column == 0 then s.directive?
  else if s.cursor.column == 0 && s.cursor.atMarker then
    s.marker? (if c == '-' then .documentStart else .documentEnd)
  else if c == '[' then s.opening? .bracketOpen
  else if c.toNat == 0x7b then s.opening? .braceOpen
  else if c == ']' then s.closing? .bracketClose
  else if c.toNat == 0x7d then s.closing? .braceClose
  else if c == ',' then s.comma?
  else if c == '-' && gapBehind then s.dash?
  else if c == '?' && (inFlow || gapBehind) then s.key?
  else if c == ':' && (inFlow || gapBehind) then s.value?
  else if c == '*' then s.name? .reference
  else if c == '&' then s.name? .anchor
  else if c == '!' then s.tag?
  else if (c == '|' || c == '>') && !inFlow then s.block?
  else if c == '\'' || c == '"' then s.quoted?
  else if s.startsPlain then s.plain?
  else none

/-- The tokens with those spliced in, from a position on. -/
def weave (position : Nat) : List Token → List (Nat × Token) → List Token
  | [], spliced => spliced.map Prod.snd
  | t :: rest, spliced =>
    let here := spliced.takeWhile fun e => e.1 == position
    here.map Prod.snd ++ t :: weave (position + 1) rest (spliced.drop here.length)

/-- All tokens from here on. -/
def finish? : Nat → Scan → Option (List Token)
  | 0, _ => none
  | fuel + 1, s => do
    let s := s.toNext (s.cursor.rest.length + 1)
    let s := (← s.dropStale?).unwind (s.cursor.column : Int)
    if s.cursor.peek == endMark then
      let s ← (s.unwind (-1)).dropKey?
      return weave 0 s.read.reverse (s.spliced.reverse.mergeSort fun a b => decide (a.1 ≤ b.1))
    else finish? fuel (← s.token?)

end Scan

/-- Whether a character may stand in a settings file. -/
def isAllowed (c : Char) : Bool :=
  let n := c.toNat
  n == 0x9 || n == 0xA || n == 0xD || (0x20 ≤ n && n ≤ 0x7E) || n == 0x85 ||
    (0xA0 ≤ n && n ≤ 0xFFFD) || 0x10000 ≤ n

/-- The tokens of a whole text. -/
def tokens? (s : String) : Option (List Token) :=
  let cs := s.toList
  if !cs.all isAllowed then none
  else
    let text := match cs with
      | c :: rest => if c == orderMark then rest else cs
      | [] => cs
    Scan.finish? (2 * text.length + 2) { cursor := { rest := text } }

end PhpAudit.Yaml
