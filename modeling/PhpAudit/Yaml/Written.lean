/-
Scalars of a settings file as they are written.

A scalar may go on over several lines.  A single line break inside it is read as a blank, and of
several the first is dropped.  Plain scalars end before a colon or a comment; inside brackets also
before a comma or a bracket.  Between single quotes only a doubled quote is special, between double
quotes there are backslash escapes.  A scalar in a block keeps its lines, or folds them.

* `Yaml.plainText` — a plain scalar;
* `Yaml.quotedText?` — a quoted scalar;
* `Yaml.blockText?` — a scalar in a block of its own.
-/

import PhpAudit.Json.Reader
import PhpAudit.Yaml.Cursor

set_option autoImplicit false

namespace PhpAudit.Yaml

/-! ### Line breaks inside scalars -/

/-- A line break and the empty lines behind it as text. -/
def foldBreaks (first : Char) (more : List Char) : List Char :=
  if first != '\n' then first :: more
  else if more.isEmpty then [' ']
  else more

/-! ### Plain scalars -/

/-- The characters that part the items of a flow value. -/
def isBracket (c : Char) : Bool :=
  c == ',' || c == '[' || c == ']' || c.toNat == 0x7b || c.toNat == 0x7d

/-- A stretch of a plain scalar without blanks. -/
def plainChunk (inFlow : Bool) : List Char → List Char
  | [] => []
  | c :: rest =>
    let next := rest.head?.getD endMark
    if isGap c || (c == ':' && (isGap next || (inFlow && isBracket next)))
        || (inFlow && (isBracket c || c == '?')) then []
    else c :: plainChunk inFlow rest

/-- The empty lines and the indentation behind a line break; none if a marker of a document
follows. -/
def plainBreaks : Nat → List Char → Cursor → Option (List Char) × Cursor
  | 0, done, c => (some done.reverse, c)
  | fuel + 1, done, c =>
    if c.peek == ' ' then plainBreaks fuel done c.step
    else
      match c.lineBreak? with
      | some (b, next) =>
        if next.atMarker then (none, next) else plainBreaks fuel (b :: done) next
      | none => (some done.reverse, c)

/-- What stands between two stretches of a plain scalar, the place behind it, and whether a line
ended there.  Nothing means that the scalar is over. -/
def plainGap (c : Cursor) : List Char × Cursor × Bool :=
  let (blanks, behind) := c.takeWhile (· == ' ')
  match behind.lineBreak? with
  | none => (blanks, behind, false)
  | some (b, next) =>
    if next.atMarker then ([], next, true)
    else
      match plainBreaks (next.rest.length + 1) [] next with
      | (some more, place) => (foldBreaks b more, place, true)
      | (none, place) => ([], place, true)

/-- A plain scalar that must stand at least `indent` far in, the place behind it, and whether it
ended with its line. -/
def plainFrom (inFlow : Bool) (indent : Int) :
    Nat → List Char → List Char → Bool → Cursor → List Char × Cursor × Bool
  | 0, done, _, newLine, c => (done, c, newLine)
  | fuel + 1, done, gap, newLine, c =>
    let chunk := if c.peek == '#' then [] else plainChunk inFlow c.rest
    if chunk.isEmpty then (done, c, newLine)
    else
      let text := done ++ gap ++ chunk
      let (gap, next, newLine) := plainGap (c.advance chunk.length)
      if gap.isEmpty || next.peek == '#' || (!inFlow && decide ((next.column : Int) < indent)) then
        (text, next, newLine)
      else plainFrom inFlow indent fuel text gap newLine next

/-- A plain scalar, the place behind it, and whether it ended with its line. -/
def plainText (inFlow : Bool) (indent : Int) (c : Cursor) : String × Cursor × Bool :=
  let (text, next, newLine) := plainFrom inFlow indent (c.rest.length + 1) [] [] false c
  (String.ofList text, next, newLine)

/-! ### Quoted scalars -/

/-- What a letter behind a backslash stands for. -/
def escape? (c : Char) : Option Char :=
  match c with
  | '0' => some (Char.ofNat 0)
  | 'a' => some (Char.ofNat 7)
  | 'b' => some (Char.ofNat 8)
  | 't' => some '\t'
  | '\t' => some '\t'
  | 'n' => some '\n'
  | 'v' => some (Char.ofNat 11)
  | 'f' => some (Char.ofNat 12)
  | 'r' => some '\r'
  | 'e' => some (Char.ofNat 27)
  | ' ' => some ' '
  | '"' => some '"'
  | '\\' => some '\\'
  | '/' => some '/'
  | 'N' => some (Char.ofNat 0x85)
  | '_' => some (Char.ofNat 0xA0)
  | 'L' => some (Char.ofNat 0x2028)
  | 'P' => some (Char.ofNat 0x2029)
  | _ => none

/-- How many hexadecimal digits follow a letter behind a backslash. -/
def codeLength? (c : Char) : Option Nat :=
  match c with
  | 'x' => some 2
  | 'u' => some 4
  | 'U' => some 8
  | _ => none

/-- The character of so many hexadecimal digits. -/
def codePoint? (digits : List Char) (count : Nat) : Option Char :=
  let read := (digits.take count).mapM Json.hexValue?
  read.bind fun ds =>
    if ds.length == count then some (Char.ofNat (ds.foldl (fun n d => 16 * n + d) 0)) else none

/-- The empty lines and the indentation behind a line break between quotes; a marker of a document
is not allowed there. -/
def quotedBreaks? : Nat → List Char → Cursor → Option (List Char × Cursor)
  | 0, _, _ => none
  | fuel + 1, done, c =>
    if c.atMarker then none
    else
      let c := c.skipWhile fun x => x == ' ' || x == '\t'
      match c.lineBreak? with
      | some (b, next) => quotedBreaks? fuel (b :: done) next
      | none => some (done.reverse, c)

/-- A text between quotes from a place inside it, up to the closing quote; `done` holds what was
read, the last first. -/
def quotedFrom? (isDouble : Bool) : Nat → List Char → Cursor → Option (String × Cursor)
  | 0, _, _ => none
  | fuel + 1, done, c =>
    let x := c.peek
    if x == endMark then none
    else if x == '\'' && !isDouble then
      if c.peek 1 == '\'' then quotedFrom? isDouble fuel ('\'' :: done) (c.advance 2)
      else some (String.ofList done.reverse, c.step)
    else if x == '"' && isDouble then some (String.ofList done.reverse, c.step)
    else if x == '\\' && isDouble then
      let next := c.step
      match escape? next.peek, codeLength? next.peek with
      | some y, _ => quotedFrom? isDouble fuel (y :: done) next.step
      | none, some count =>
        match codePoint? next.step.rest count with
        | some y => quotedFrom? isDouble fuel (y :: done) (next.step.advance count)
        | none => none
      | none, none =>
        match next.lineBreak? with
        | some (_, behind) =>
          match quotedBreaks? (behind.rest.length + 1) [] behind with
          | some (more, place) => quotedFrom? isDouble fuel (more.reverse ++ done) place
          | none => none
        | none => none
    else if x == ' ' || x == '\t' || isBreak x then
      let (blanks, behind) := c.takeWhile fun y => y == ' ' || y == '\t'
      match behind.lineBreak? with
      | none => quotedFrom? isDouble fuel (blanks.reverse ++ done) behind
      | some (b, next) =>
        match quotedBreaks? (next.rest.length + 1) [] next with
        | some (more, place) =>
          quotedFrom? isDouble fuel ((foldBreaks b more).reverse ++ done) place
        | none => none
    else quotedFrom? isDouble fuel (x :: done) c.step

/-- A quoted scalar, from its first quote on, and the place behind it. -/
def quotedText? (c : Cursor) : Option (String × Cursor) :=
  quotedFrom? (c.peek == '"') (c.rest.length + 1) [] c.step

/-! ### Scalars in blocks -/

/-- What becomes of the line breaks at the end of a block. -/
inductive Ending where
  | clip
  | strip
  | keep

/-- What stands behind the sign of a block: how it ends, and how far in it stands. -/
def blockHeader? (c : Cursor) : Option (Ending × Option Nat × Cursor) :=
  let ending? (x : Char) : Option Ending :=
    if x == '+' then some .keep else if x == '-' then some .strip else none
  let depth? (x : Char) : Option Nat := if x.isDigit then some (x.toNat - '0'.toNat) else none
  let (ending, depth, next) :=
    match ending? c.peek, depth? c.peek with
    | some e, _ =>
      match depth? (c.peek 1) with
      | some d => (e, some d, c.advance 2)
      | none => (e, none, c.step)
    | none, some d =>
      match ending? (c.peek 1) with
      | some e => (e, some d, c.advance 2)
      | none => (.clip, some d, c.step)
    | none, none => (.clip, none, c)
  if depth == some 0 || !(next.peek == ' ' || endsLine next.peek) then none
  else
    let blank := next.skipWhile (· == ' ')
    let behind := if blank.peek == '#' then blank.skipWhile (!endsLine ·) else blank
    if !endsLine behind.peek then none
    else some (ending, depth, (behind.lineBreak?.map Prod.snd).getD behind)

/-- The empty lines in front of a block, how far in the farthest of them goes, and the place of the
first line that holds something. -/
def leadingLines : Nat → List Char → Nat → Cursor → List Char × Nat × Cursor
  | 0, done, widest, c => (done.reverse, widest, c)
  | fuel + 1, done, widest, c =>
    if c.peek == ' ' then leadingLines fuel done (max widest c.step.column) c.step
    else
      match c.lineBreak? with
      | some (b, next) => leadingLines fuel (b :: done) widest next
      | none => (done.reverse, widest, c)

/-- At most the indentation of a line. -/
def skipIndent (indent : Nat) (c : Cursor) : Cursor :=
  c.advance ((c.rest.take (indent - c.column)).takeWhile (· == ' ')).length

/-- The empty lines inside a block. -/
def emptyLines (indent : Nat) : Nat → List Char → Cursor → List Char × Cursor
  | 0, done, c => (done.reverse, c)
  | fuel + 1, done, c =>
    let c := skipIndent indent c
    match c.lineBreak? with
    | some (b, next) => emptyLines indent fuel (b :: done) next
    | none => (done.reverse, c)

/-- The lines of a block: its text, the last line break and the empty lines behind it. -/
def blockLines (folded : Bool) (indent : Nat) :
    Nat → List Char → List Char → List Char → Cursor → List Char × List Char × List Char × Cursor
  | 0, text, last, blank, c => (text, last, blank, c)
  | fuel + 1, text, last, blank, c =>
    if c.column != indent || c.peek == endMark then (text, last, blank, c)
    else
      let isText (x : Char) : Bool := x != ' ' && x != '\t'
      let starts := isText c.peek
      let (line, behind) := c.takeWhile (!endsLine ·)
      let (last, next) : List Char × Cursor :=
        match behind.lineBreak? with
        | some (b, next) => ([b], next)
        | none => ([], behind)
      let text := text ++ blank ++ line
      let (blank, place) := emptyLines indent (next.rest.length + 1) [] next
      if place.column == indent && place.peek != endMark then
        let join :=
          if folded && last == ['\n'] && starts && isText place.peek then
            if blank.isEmpty then [' '] else []
          else last
        blockLines folded indent fuel (text ++ join) last blank place
      else (text, last, blank, place)

/-- A scalar in a block, from its sign on, below something with the given indentation, and the place
behind it. -/
def blockText? (parent : Int) (c : Cursor) : Option (String × Cursor) := do
  let (ending, depth, start) ← blockHeader? c.step
  let least := (max 1 (parent + 1)).toNat
  let fuel := start.rest.length + 1
  let (indent, blank, first) :=
    match depth with
    | some d =>
      let indent := least + d - 1
      let (blank, place) := emptyLines indent fuel [] start
      (indent, blank, place)
    | none =>
      let (blank, widest, place) := leadingLines fuel [] 0 start
      (max least widest, blank, place)
  let (text, last, more, place) := blockLines (c.peek == '>') indent fuel [] [] blank first
  let tail := match ending with
    | .clip => last
    | .strip => []
    | .keep => last ++ more
  return (String.ofList (text ++ tail), place)

end PhpAudit.Yaml
