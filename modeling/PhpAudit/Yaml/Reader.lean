/-
The settings file format.

A settings file is YAML: mappings and lists in blocks by indentation or in brackets, scalars,
anchors with references to them, and entries merged in from other mappings.  A text that is none of
this is refused as a whole.

* `Yaml.Piece` — a value, and whether it stands for a merge when it is a key;
* `Yaml.mapping?` — the mapping of some keys and values;
* `Yaml.parse?` — the value of a whole text.
-/

import PhpAudit.Text.Case
import PhpAudit.Text.Part
import PhpAudit.Yaml.Scalar
import PhpAudit.Yaml.Token

set_option autoImplicit false

namespace PhpAudit.Yaml

/-! ### Values -/

/-- A value, and whether it stands for a merge when it is a key. -/
structure Piece where
  value : Value
  merges : Bool := false

/-- Nothing. -/
def Piece.empty : Piece := ⟨.null, false⟩

/-- The tags of the format. -/
inductive Tag where
  /-- The value has the kind that its text shows. -/
  | shown
  | text
  | null
  | truth
  | whole
  | double
  | list
  | mapping

/-- The tag that a name stands for. -/
def tagOf? (name : String) : Option Tag :=
  let home := "!<tag:yaml.org,2002:"
  let core :=
    if Text.startsWith name "!!" then (name.drop 2).toString
    else if Text.startsWith name home then ((name.drop home.length).dropEnd 1).toString
    else name
  match core with
  | "!" => some .shown
  | "str" => some .text
  | "null" => some .null
  | "bool" => some .truth
  | "int" => some .whole
  | "float" => some .double
  | "seq" => some .list
  | "map" => some .mapping
  | _ => none

/-- A value that passes a test. -/
def only (test : Value → Bool) (v : Value) : Option Piece :=
  if test v then some ⟨v, false⟩ else none

/-- The value of a scalar. -/
def scalarPiece? (tag : Option Tag) (text : String) (isPlain : Bool) : Option Piece :=
  let shown : Option Piece :=
    if text == "<<" then some ⟨.str text, true⟩
    else if text == "=" then none
    else some ⟨resolve text, false⟩
  match tag with
  | none => if isPlain then shown else some ⟨.str text, false⟩
  | some .shown => shown
  | some .text => some ⟨.str text, false⟩
  | some .null => some ⟨.null, false⟩
  | some .truth => only Value.isBool (resolve (Text.lower text))
  | some .whole => only (fun v => v.int?.isSome && !v.isBool) (resolve text)
  | some .double =>
    match (resolve text).number? with
    | some n => n.toFloat?.map fun x => ⟨.float x, false⟩
    | none => none
  | some _ => none

/-- The entries that a merge brings in: those of a mapping, or of several, the first of which
wins. -/
def mergedEntries? : Value → Option (List (Key × Value))
  | .dict entries => some entries
  | .list items => do return (← items.mapM Value.dict?).reverse.flatten
  | _ => none

/-- The mapping of some keys and values; what is merged in comes first. -/
def mapping? (entries : List (Piece × Piece)) : Option Piece := do
  let merged ← (entries.filter fun e => e.1.merges).mapM fun e => mergedEntries? e.2.value
  let own ← (entries.filter fun e => !e.1.merges).mapM fun e => do
    if e.2.merges then none else return (← e.1.value.key?, e.2.value)
  return ⟨.dict (Assoc.ofList (merged.flatten ++ own)), false⟩

/-- The list of some pieces. -/
def list? (items : List Piece) : Option Piece :=
  if items.any Piece.merges then none else some ⟨.list (items.map Piece.value), false⟩

/-! ### From tokens to values -/

/-- What is left to read, and the values of the anchors so far. -/
structure State where
  tokens : List Token
  anchors : Assoc String Piece := []

/-- A piece and what is left. -/
abbrev Result := Option (Piece × State)

/-- The state behind the next token. -/
def State.next (s : State) : State :=
  { s with tokens := s.tokens.drop 1 }

/-- Whether the next token is one of those given. -/
def State.isAt (s : State) (ts : List Token) : Bool :=
  s.tokens.head?.any ts.contains

/-- The state behind a token that must be there. -/
def State.past? (s : State) (t : Token) : Option State :=
  if s.isAt [t] then some s.next else none

/-- The value known under a name from here on. -/
def State.name? (s : State) (anchor : Option String) (p : Piece) : Result :=
  match anchor with
  | none => some (p, s)
  | some name =>
    if Assoc.has s.anchors name then none
    else some (p, { s with anchors := Assoc.put s.anchors name p })

/-- The anchor and the tag in front of a value, in any order. -/
def properties? (s : State) : Option (Option String × Option Tag × State) :=
  match s.tokens with
  | .anchor a :: .tag t :: rest => do return (some a, some (← tagOf? t), { s with tokens := rest })
  | .tag t :: .anchor a :: rest => do return (some a, some (← tagOf? t), { s with tokens := rest })
  | .anchor a :: rest => some (some a, none, { s with tokens := rest })
  | .tag t :: rest => do return (none, some (← tagOf? t), { s with tokens := rest })
  | _ => some (none, none, s)

/-- Whether a list may have the tag. -/
def Tag.fitsList : Option Tag → Bool
  | none | some .shown | some .list => true
  | _ => false

/-- Whether a mapping may have the tag. -/
def Tag.fitsMapping : Option Tag → Bool
  | none | some .shown | some .mapping => true
  | _ => false

mutual

/-- A value.  In a block the value may be a block itself, and below a key it may be a list that
stands as far out as the key. -/
def node? : Nat → Bool → Bool → State → Result
  | 0, _, _, _ => none
  | fuel + 1, inBlock, belowKey, s =>
    match s.tokens with
    | .reference name :: _ => (Assoc.get? s.anchors name).map fun p => (p, s.next)
    | _ => do
      let (anchor, tag, s) ← properties? s
      let (p, after) ← content? fuel inBlock belowKey (anchor.isSome || tag.isSome) tag s
      after.name? anchor p

/-- What stands behind the anchor and the tag of a value. -/
def content? : Nat → Bool → Bool → Bool → Option Tag → State → Result
  | 0, _, _, _, _, _ => none
  | fuel + 1, inBlock, belowKey, marked, tag, s =>
    match s.tokens with
    | .dash :: _ =>
      if belowKey && Tag.fitsList tag then looseItems? fuel [] s
      else if marked then (scalarPiece? tag "" true).map (·, s)
      else none
    | .scalar text isPlain :: _ => (scalarPiece? tag text isPlain).map (·, s.next)
    | .bracketOpen :: _ => if Tag.fitsList tag then flowItems? fuel true [] s.next else none
    | .braceOpen :: _ => if Tag.fitsMapping tag then flowEntries? fuel true [] s.next else none
    | t :: _ =>
      if inBlock && t = .listStart then
        if Tag.fitsList tag then items? fuel [] s.next else none
      else if inBlock && t = .mappingStart then
        if Tag.fitsMapping tag then entries? fuel [] s.next else none
      else if marked then (scalarPiece? tag "" true).map (·, s)
      else none
    | [] => if marked then (scalarPiece? tag "" true).map (·, s) else none

/-- A value of a block, or nothing in front of one of some tokens. -/
def nodeUnless? : Nat → Bool → List Token → State → Result
  | 0, _, _, _ => none
  | fuel + 1, belowKey, ends, s =>
    if s.isAt ends then some (.empty, s) else node? fuel true belowKey s

/-- The items of a list in a block; `done` holds those read, the last first. -/
def items? : Nat → List Piece → State → Result
  | 0, _, _ => none
  | fuel + 1, done, s =>
    if s.isAt [.dash] then do
      let (p, s) ← nodeUnless? fuel false [.dash, .blockEnd] s.next
      items? fuel (p :: done) s
    else do
      let s ← s.past? .blockEnd
      return (← list? done.reverse, s)

/-- The items of a list that stands as far out as its key. -/
def looseItems? : Nat → List Piece → State → Result
  | 0, _, _ => none
  | fuel + 1, done, s =>
    if s.isAt [.dash] then do
      let (p, s) ← nodeUnless? fuel false [.dash, .key, .value, .blockEnd] s.next
      looseItems? fuel (p :: done) s
    else (list? done.reverse).map (·, s)

/-- The entries of a mapping in a block. -/
def entries? : Nat → List (Piece × Piece) → State → Result
  | 0, _, _ => none
  | fuel + 1, done, s =>
    if s.isAt [.key] then do
      let (k, s) ← nodeUnless? fuel true [.key, .value, .blockEnd] s.next
      let (v, s) ←
        if s.isAt [.value] then nodeUnless? fuel true [.key, .value, .blockEnd] s.next
        else some (.empty, s)
      entries? fuel ((k, v) :: done) s
    else do
      let s ← s.past? .blockEnd
      return (← mapping? done.reverse, s)

/-- A value in brackets, or nothing in front of one of some tokens. -/
def flowUnless? : Nat → List Token → State → Result
  | 0, _, _ => none
  | fuel + 1, ends, s =>
    if s.isAt ends then some (.empty, s) else node? fuel false false s

/-- The items of a list in brackets; an item may be a single entry of a mapping. -/
def flowItems? : Nat → Bool → List Piece → State → Result
  | 0, _, _, _ => none
  | fuel + 1, first, done, s =>
    if s.isAt [.bracketClose] then do return (← list? done.reverse, s.next)
    else do
      let s ← if first then some s else s.past? .comma
      if s.isAt [.bracketClose] then return (← list? done.reverse, s.next)
      else if s.isAt [.key] then
        let (k, s) ← flowUnless? fuel [.value, .comma, .bracketClose] s.next
        let (v, s) ←
          if s.isAt [.value] then flowUnless? fuel [.comma, .bracketClose] s.next
          else some (.empty, s)
        flowItems? fuel false ((← mapping? [(k, v)]) :: done) s
      else
        let (p, s) ← node? fuel false false s
        flowItems? fuel false (p :: done) s

/-- The entries of a mapping in braces; an entry may lack its value. -/
def flowEntries? : Nat → Bool → List (Piece × Piece) → State → Result
  | 0, _, _, _ => none
  | fuel + 1, first, done, s =>
    if s.isAt [.braceClose] then do return (← mapping? done.reverse, s.next)
    else do
      let s ← if first then some s else s.past? .comma
      if s.isAt [.braceClose] then return (← mapping? done.reverse, s.next)
      else if s.isAt [.key] then
        let (k, s) ← flowUnless? fuel [.value, .comma, .braceClose] s.next
        let (v, s) ←
          if s.isAt [.value] then flowUnless? fuel [.comma, .braceClose] s.next
          else some (.empty, s)
        flowEntries? fuel false ((k, v) :: done) s
      else
        let (k, s) ← node? fuel false false s
        flowEntries? fuel false ((k, .empty) :: done) s

end

/-! ### Documents -/

/-- Whether a directive can be obeyed: a version must be of the first kind. -/
def isKnown : Token → Bool
  | .directive "YAML" [version] => Text.startsWith version "1."
  | .directive "YAML" _ => false
  | _ => true

/-- Whether a token is a directive. -/
def isDirective : Token → Bool
  | .directive .. => true
  | _ => false

/-- The value of a document; `explicit` tells whether dashes opened it. -/
def document? (explicit : Bool) (tokens : List Token) : Option Value := do
  let isOver := match tokens with
    | [] => true
    | t :: _ => explicit && (isDirective t || [Token.documentStart, .documentEnd].contains t)
  let (p, s) ←
    if isOver then (some (.empty, { tokens }) : Result)
    else node? (8 * tokens.length + 8) true false { tokens }
  let left := s.tokens.dropWhile fun t => t == Token.documentEnd
  if left.isEmpty && !p.merges then return p.value else none

/-- The value of a whole text; none if it is malformed. -/
def parse? (s : String) : Option Value := do
  let tokens ← tokens? s
  let directives := tokens.takeWhile isDirective
  match tokens.drop directives.length with
  | .documentStart :: rest => if directives.all isKnown then document? true rest else none
  | rest => if directives.isEmpty then document? false rest else none

end PhpAudit.Yaml
