/-
Text patterns.

Rules look for words and shapes in names, strings and lines, and their settings may hold patterns
of the user's.  A pattern is matched by trying its alternatives from left to right and its
repetitions from the longest on, and the first way through wins.  A place in a text is what lies
behind it and what is left, together with what the groups of the pattern have taken so far.

* `Pattern` — the syntax tree;
* `Pattern.run` — matching at a place, with a continuation for what follows;
* `Pattern.search?`, `Pattern.found`, `Pattern.findAll`, `Pattern.covers` — the leftmost match,
  whether there is one, all of them, and matching a whole text.
-/

import PhpAudit.Text.Alphanumeric
import PhpAudit.Text.Blank
import PhpAudit.Text.Case

set_option autoImplicit false

namespace PhpAudit

namespace Pattern

/-! ### Modes -/

/-- How a pattern is read against a text. -/
structure Mode where
  ignoreCase : Bool := false
  /-- Whether lines inside the text have starts and ends of their own. -/
  multiline : Bool := false
  /-- Whether a dot takes a line feed as well. -/
  dotAll : Bool := false
  /-- Whether classes and cases know the letters of ASCII alone. -/
  ascii : Bool := false

/-- What a part of a pattern sets on or off for itself. -/
structure Change where
  ignoreCase : Option Bool := none
  multiline : Option Bool := none
  dotAll : Option Bool := none
  ascii : Option Bool := none

/-- The mode after a change. -/
def Mode.changed (m : Mode) (c : Change) : Mode :=
  { ignoreCase := c.ignoreCase.getD m.ignoreCase
    multiline := c.multiline.getD m.multiline
    dotAll := c.dotAll.getD m.dotAll
    ascii := c.ascii.getD m.ascii }

/-! ### Characters -/

/-- A class of characters with a letter of its own. -/
inductive Class where
  | digit
  | space
  | word
  deriving DecidableEq

/-- Whether a character is in the class. -/
def Class.has (k : Class) (m : Mode) (c : Char) : Bool :=
  if m.ascii && 128 ≤ c.toNat then false
  else
    match k with
    | digit => (Text.digitValue? c).isSome
    | space =>
      if m.ascii then [' ', '\t', '\n', '\r', '\x0b', '\x0c'].contains c else Text.isBlank c
    | word => Text.isWord c

/-- A member of a set of characters: a range of numbers of characters, or a class. -/
inductive Member where
  | range (first last : Nat)
  | ofClass (k : Class) (negated : Bool)

/-- The characters that count as the given one. -/
def Mode.like (m : Mode) (c : Char) : List Char :=
  if !m.ignoreCase then [c]
  else if m.ascii then [c, c.toLower, c.toUpper]
  else c :: Text.lettersLike c

/-- Whether a character falls under the member. -/
def Member.has (member : Member) (m : Mode) (c : Char) : Bool :=
  match member with
  | range first last =>
    (m.like c).any fun d => decide (first ≤ d.toNat) && decide (d.toNat ≤ last)
  | ofClass k negated => k.has m c != negated

/-- Whether two characters are the same letter. -/
def Mode.same (m : Mode) (a b : Char) : Bool :=
  a == b || (m.ignoreCase &&
    if m.ascii then a.toLower == b.toLower else Text.sameLetter a b)

/-- Whether a set holds a character. -/
def Mode.inSet (m : Mode) (negated : Bool) (members : List Member) (c : Char) : Bool :=
  (members.any fun x => x.has m c) != negated

/-! ### Places -/

/-- A place in a text: what lies behind it, the nearest character first, what is left, and what
groups have taken. -/
structure Place where
  behind : List Char := []
  rest : List Char
  groups : List (Nat × List Char) := []

namespace Place

/-- The place after one character that passes a test. -/
def take? (p : Place) (test : Char → Bool) : Option Place :=
  match p.rest with
  | [] => none
  | c :: rest => if test c then some { p with behind := c :: p.behind, rest } else none

/-- The place so many characters back. -/
def back? (p : Place) (count : Nat) : Option Place :=
  if p.behind.length < count then none
  else
    some { p with
      behind := p.behind.drop count, rest := (p.behind.take count).reverse ++ p.rest }

/-- The text between two places of one text. -/
def upTo (p q : Place) : List Char :=
  p.rest.take (p.rest.length - q.rest.length)

/-- What a group has taken. -/
def group? (p : Place) (number : Nat) : Option (List Char) :=
  p.groups.lookup number

/-- The place with what a group has taken. -/
def mark (p : Place) (number : Nat) (text : List Char) : Place :=
  { p with groups := (number, text) :: p.groups.filter fun g => g.1 != number }

/-- The place behind a given text. -/
def takeText? (p : Place) (m : Mode) : List Char → Option Place
  | [] => some p
  | c :: more =>
    let same (d : Char) : Bool :=
      c == d || (m.ignoreCase &&
        if m.ascii then c.toLower == d.toLower else Text.lowerChar c == Text.lowerChar d)
    match p.take? same with
    | some q => takeText? q m more
    | none => none

/-- Whether a word starts or ends at the place. -/
def atEdge (p : Place) (m : Mode) : Bool :=
  let side (c : Option Char) : Bool := c.any (Class.word.has m)
  side p.behind.head? != side p.rest.head?

end Place

/-- A place that a pattern can ask for without taking a character. -/
inductive Anchor where
  /-- The start of the text. -/
  | start
  /-- The start of the text, or of a line where lines count. -/
  | lineStart
  /-- The end of the text, the place before a line feed that ends it, or the end of a line where
  lines count. -/
  | lineEnd
  /-- The end of the text. -/
  | finish
  /-- A place between a word character and another one. -/
  | wordEdge
  /-- Any other place of a text that is not empty. -/
  | inside

/-- Whether the anchor holds at the place. -/
def Anchor.holds (a : Anchor) (m : Mode) (p : Place) : Bool :=
  match a with
  | start => p.behind.isEmpty
  | lineStart => p.behind.isEmpty || (m.multiline && p.behind.head? == some '\n')
  | lineEnd =>
    p.rest.isEmpty || (p.rest.head? == some '\n' && (m.multiline || p.rest.length == 1))
  | finish => p.rest.isEmpty
  | wordEdge => p.atEdge m
  | inside => !(p.behind.isEmpty && p.rest.isEmpty) && !p.atEdge m

end Pattern

/-! ### Patterns -/

/-- A text pattern. -/
inductive Pattern where
  | empty
  | char (c : Char)
  | any
  | set (negated : Bool) (members : List Pattern.Member)
  | anchor (a : Pattern.Anchor)
  | seq (first second : Pattern)
  | alt (left right : Pattern)
  | repeat (body : Pattern) (least : Nat) (most : Option Nat) (greedy : Bool)
  /-- A part whose text is remembered. -/
  | group (number : Nat) (body : Pattern)
  /-- The text of a group once more. -/
  | again (number : Nat)
  /-- One of two patterns, by whether a group has taken something. -/
  | ifTaken (number : Nat) (yes no : Pattern)
  /-- What must follow, or stand so many characters back, or must not. -/
  | look (back : Option Nat) (negated : Bool) (body : Pattern)
  /-- A part of which only the first way through counts. -/
  | atomic (body : Pattern)
  /-- A part with a mode of its own. -/
  | under (change : Pattern.Change) (body : Pattern)

namespace Pattern

/-- What follows a part of a pattern: the end of the match from a place on. -/
abbrev Next := Place → Option Place

/-- Repeats a matcher.  The fuel bounds the number of rounds: beyond the least number, a round that
took nothing is the last one.  `last` is what was left when the round before began. -/
def rounds (body : Place → Next → Option Place) (greedy : Bool) :
    Nat → Nat → Option Nat → Option Nat → Place → Next → Option Place
  | 0, _, _, _, p, k => k p
  | fuel + 1, least, most, last, p, k =>
    if least != 0 then
      body p fun q => rounds body greedy fuel (least - 1) (most.map (· - 1)) last q k
    else
      let left := p.rest.length
      let again : Option Place :=
        if most == some 0 || last == some left then none
        else body p fun q => rounds body greedy fuel 0 (most.map (· - 1)) (some left) q k
      if greedy then again <|> k p else k p <|> again

/-- Matches a pattern at a place and hands the place behind it to the continuation; when that fails,
the next way through is tried. -/
def run : Pattern → Mode → Place → Next → Option Place
  | empty, _, p, k => k p
  | char c, m, p, k => (p.take? (m.same c)).bind k
  | any, m, p, k => (p.take? fun c => m.dotAll || c != '\n').bind k
  | set negated members, m, p, k => (p.take? (m.inSet negated members)).bind k
  | anchor a, m, p, k => if a.holds m p then k p else none
  | seq first second, m, p, k => run first m p fun q => run second m q k
  | alt left right, m, p, k => run left m p k <|> run right m p k
  | .repeat body least most greedy, m, p, k =>
    rounds (run body m) greedy (p.rest.length + least + 2) least most none p k
  | group number body, m, p, k => run body m p fun q => k (q.mark number (p.upTo q))
  | again number, m, p, k => (p.group? number).bind fun text => (p.takeText? m text).bind k
  | ifTaken number yes no, m, p, k =>
    if (p.group? number).isSome then run yes m p k else run no m p k
  | look back negated body, m, p, k =>
    let start := match back with
      | some count => p.back? count
      | none => some p
    match start.bind fun q => run body m q some with
    | some q => if negated then none else k { p with groups := q.groups }
    | none => if negated then k p else none
  | atomic body, m, p, k => (run body m p some).bind k
  | under change body, m, p, k => run body (m.changed change) p k

/-- The leftmost match from a place on: where it starts and where it ends. -/
def searchFrom? (r : Pattern) (m : Mode) (behind : List Char) :
    List Char → Option (Place × Place)
  | [] => (run r m { behind, rest := [] } some).map fun q => ({ behind, rest := [] }, q)
  | c :: rest =>
    let p : Place := { behind, rest := c :: rest }
    match run r m p some with
    | some q => some (p, q)
    | none => searchFrom? r m (c :: behind) rest

/-- The text of the leftmost match. -/
def search? (r : Pattern) (m : Mode) (text : String) : Option String :=
  (searchFrom? r m [] text.toList).map fun x => String.ofList (x.1.upTo x.2)

/-- Whether the pattern matches somewhere. -/
def found (r : Pattern) (m : Mode) (text : String) : Bool :=
  (r.search? m text).isSome

/-- The matches from left to right, each after the end of the one before it. -/
def findAllFrom (r : Pattern) (m : Mode) : Nat → Place → List String
  | 0, _ => []
  | fuel + 1, p =>
    match searchFrom? r m p.behind p.rest with
    | none => []
    | some (first, last) =>
      let taken := first.upTo last
      let next := if taken.isEmpty then last.take? fun _ => true else some last
      String.ofList taken :: (match next with | some q => findAllFrom r m fuel q | none => [])

/-- All matches, from left to right. -/
def findAll (r : Pattern) (m : Mode) (text : String) : List String :=
  findAllFrom r m (text.length + 1) { rest := text.toList }

/-- Whether the pattern matches the text from its start to its end. -/
def covers (r : Pattern) (m : Mode) (text : String) : Bool :=
  (run r m { rest := text.toList } fun q => if q.rest.isEmpty then some q else none).isSome

end Pattern

end PhpAudit
