/-
Reading text patterns.

A pattern is written with the usual signs: a dot, sets in brackets, groups in parentheses, `|`
between alternatives, `*`, `+`, `?` and counts in braces behind a piece, and escapes with a
backslash.  A question mark behind an opening parenthesis introduces groups of other kinds: with a
name, with flags, that look ahead or back, and so on.  What cannot be read is reported with the
place of the fault.

* `Pattern.readSet`, `Pattern.readCount?`, `Pattern.readFlags` — sets, counts and flags;
* `Pattern.readAlternatives`, `Pattern.readSequence`, `Pattern.readGroup` — patterns;
* `Pattern.parse` — the pattern that a text writes.
-/

import PhpAudit.Pattern.Escape

set_option autoImplicit false

namespace PhpAudit.Pattern

/-! ### Sets -/

/-- One member of a set from its sign. -/
def readMember (sign : String) : Reading Member :=
  match sign.toList with
  | '\\' :: _ => setEscape sign
  | c :: _ => return .range c.toNat c.toNat
  | [] => return .range 0 0

/-- The range between two members, if both are single characters in order. -/
def rangeOf? : Member → Member → Option Member
  | .range a _, .range b _ => if a ≤ b then some (.range a b) else none
  | _, _ => none

/-- Takes the next sign of a set that was opened at a place. -/
def nextInSet (opening : Nat) : Reading String := do
  match ← next with
  | some sign => return sign
  | none => failAt .openSet opening

/-- The members of a set up to its closing bracket; a bracket that comes first belongs to it. -/
def readSet (opening : Nat) : Nat → List Member → Reading (List Member)
  | 0, members => return members
  | fuel + 1, members => do
    let sign ← nextInSet opening
    if sign == "]" && !members.isEmpty then return members
    let first ← readMember sign
    if ← accept "-" then
      let other ← nextInSet opening
      if other == "]" then return members ++ [first, .range 45 45]
      let last ← readMember other
      match rangeOf? first last with
      | some r => readSet opening fuel (members ++ [r])
      | none => fail (.badRange sign other) (sign.length + 1 + other.length)
    else readSet opening fuel (members ++ [first])

/-! ### Counts -/

/-- How often a piece is repeated. -/
structure Count where
  least : Nat
  most : Option Nat

/-- The number from which on a count is too large. -/
def countLimit : Nat := 4294967295

/-- The number that digits write in a count, if there are any. -/
def countOf? (digits : String) : Reading (Option Nat) := do
  if digits == "" then return none
  let n := valueOf 10 digits
  if countLimit ≤ n then throw { reason := .countTooLarge }
  return some n

/-- The count that braces hold; none if they hold something else, which is then left to be read. -/
def readBraces? : Reading (Option Count) := do
  let start ← get
  if (← peek) == some "\x7d" then return none
  let low ← takeAmong Char.isDigit start.signs.length
  let high ← if ← accept "," then takeAmong Char.isDigit start.signs.length else pure low
  if !(← accept "\x7d") then
    modify fun _ => start
    return none
  let least ← countOf? low
  let most ← countOf? high
  if most.any fun m => decide (m < least.getD 0) then failAt .countOrder start.place
  return some ⟨least.getD 0, most⟩

/-- The count that a sign starts. -/
def readCount? (sign : String) : Reading (Option Count) :=
  match sign with
  | "*" => return some ⟨0, none⟩
  | "+" => return some ⟨1, none⟩
  | "?" => return some ⟨0, some 1⟩
  | "\x7b" => readBraces?
  | _ => return none

/-! ### Pieces -/

/-- A piece of a sequence. -/
inductive Piece where
  | place (a : Anchor)
  | counted (p : Pattern)
  | other (p : Pattern)

/-- The pattern of a piece. -/
def Piece.pattern : Piece → Pattern
  | place a => .anchor a
  | counted p | other p => p

/-- The piece of a pattern that is not counted. -/
def Piece.of : Pattern → Piece
  | .anchor a => place a
  | p => other p

/-- The pieces of a sequence as one pattern; they stand last piece first. -/
def joined (pieces : List Piece) : Pattern :=
  match pieces with
  | [] => .empty
  | last :: rest => rest.foldl (fun acc p => .seq p.pattern acc) last.pattern

/-- The last piece repeated: as often as possible, as rarely as possible behind a question mark,
and without a way back behind a plus sign. -/
def repeated (pieces : List Piece) (count : Count) (position : Nat) : Reading (List Piece) :=
  match pieces with
  | [] | .place _ :: _ => failAt .nothingToRepeat position
  | .counted _ :: _ => failAt .repeatedTwice position
  | .other p :: rest => do
    if ← accept "?" then return .counted (.repeat p count.least count.most false) :: rest
    else if ← accept "+" then
      let body := Pattern.repeat (.atomic p) count.least count.most true
      return .counted (.atomic body) :: rest
    else return .counted (.repeat p count.least count.most true) :: rest

/-! ### Flags -/

/-- The letters of flags. -/
def flagLetters : List Char :=
  ['i', 'L', 'm', 's', 'x', 'a', 't', 'u']

/-- The letters that say which characters are letters. -/
def typeLetters : List Char :=
  ['a', 'L', 'u']

/-- The flag that a sign is. -/
def flagOf? (sign : String) : Option Char :=
  match sign.toList with
  | [c] => if flagLetters.contains c then some c else none
  | _ => none

/-- Refuses a sign that is no flag, in other words for a letter. -/
def refuseFlag (sign what : String) : Reading Char :=
  let isLetter (c : Char) := Text.isAlphanumeric c && (Text.digitValue? c).isNone
  if sign != "" && sign.toList.all isLetter then fail .unknownFlag sign.length
  else fail (.missing what) sign.length

/-- Flags that are set on, from the first letter up to a closing sign, which is given as well. -/
def readOn : Nat → Char → List Char → Reading (List Char × String)
  | 0, _, on => return (on, ")")
  | fuel + 1, letter, on => do
    if letter == 'L' then fail (.badFlags "cannot use 'L' flag with a str pattern")
    let on := on ++ [letter]
    if typeLetters.contains letter && on.any fun c => typeLetters.contains c && c != letter then
      fail (.badFlags "flags 'a', 'u' and 'L' are incompatible")
    let sign ← nextOr (.missing "-, : or )")
    if [")", "-", ":"].contains sign then return (on, sign)
    match flagOf? sign with
    | some c => readOn fuel c on
    | none => readOn fuel (← refuseFlag sign "-, : or )") on

/-- Flags that are set off, from the first letter up to a colon. -/
def readOff : Nat → Char → List Char → Reading (List Char)
  | 0, _, off => return off
  | fuel + 1, letter, off => do
    if typeLetters.contains letter then
      fail (.badFlags "cannot turn off flags 'a', 'u' and 'L'")
    let off := off ++ [letter]
    let sign ← nextOr (.missing ":")
    if sign == ":" then return off
    match flagOf? sign with
    | some c => readOff fuel c off
    | none => readOff fuel (← refuseFlag sign ":") off

/-- The flags of a group, on and off, or none if they are for the whole pattern. -/
def readFlags (sign : String) : Reading (Option (List Char × List Char)) := do
  let fuel := (← get).signs.length + 1
  let (on, close) ← match flagOf? sign with
    | some letter => readOn fuel letter []
    | none => pure ([], "-")
  if close == ")" then
    modify fun i => { i with flags := i.flags ++ on }
    return none
  if on.contains 't' then fail (.badFlags "cannot turn on global flag") 1
  let off ← if close == "-" then do
      let sign ← nextOr (.missing "flag")
      match flagOf? sign with
      | some letter => readOff fuel letter []
      | none => readOff fuel (← refuseFlag sign "flag") []
    else pure []
  if off.contains 't' then fail (.badFlags "cannot turn off global flag") 1
  if on.any off.contains then fail (.badFlags "flag turned on and off") 1
  return some (on, off)

/-- What flags change while matching. -/
def changeOf (on off : List Char) : Change :=
  let state (letter : Char) : Option Bool :=
    if off.contains letter then some false else if on.contains letter then some true else none
  { ignoreCase := state 'i', multiline := state 'm', dotAll := state 's'
    ascii := if on.contains 'a' then some true else if on.contains 'u' then some false else none }

/-! ### Groups -/

/-- What an opening parenthesis starts. -/
inductive Opening where
  /-- A group with a number and maybe a name. -/
  | capture (name : Option String)
  /-- A group without a number, whose flags are changed. -/
  | plain (on off : List Char)
  | atomic
  | look (back negated : Bool)
  | test (number : Nat)
  /-- A piece that is complete already, or nothing at all. -/
  | whole (p : Option Pattern)
  /-- Flags for the whole pattern. -/
  | flags

/-- Whether a text can be the name of a group. -/
def isName (s : String) : Bool :=
  match s.toList with
  | [] => false
  | c :: rest =>
    (c == '_' || (Text.isAlphanumeric c && (Text.digitValue? c).isNone)) && rest.all Text.isWord

/-- Takes the name of a group up to its closing sign. -/
def readName (close : String) : Reading String := do
  let name ← takeName close
  if !isName name then fail (.badGroupName name) (name.length + 1)
  return name

/-- The number of the group of a name. -/
def numberOf (name : String) : Reading Nat := do
  match Assoc.get? (← get).names name with
  | some n => return n
  | none => fail (.unknownGroupName name) (name.length + 1)

/-- Skips a comment of a group that was opened at a place. -/
def skipComment (opening : Nat) : Nat → Reading Unit
  | 0 => return ()
  | fuel + 1 => do
    match ← peek with
    | none => failAt .openComment opening
    | some sign =>
      let _ ← next
      if sign != ")" then skipComment opening fuel

/-- The group that a test asks for, by its name or number. -/
def readTest : Reading Nat := do
  let name ← takeName ")"
  let back := name.length + 1
  if isName name then numberOf name
  else
    match Decimal.wholeOfText? name with
    | some (.ofNat n) =>
      if n == 0 then fail .badGroupNumber back
      if 1073741823 ≤ n then fail (.noGroup n) back
      modify fun i =>
        if i.asked.any fun a => a.1 == n then i
        else { i with asked := i.asked ++ [(n, i.place - back)] }
      return n
    | _ => fail (.badGroupName name) back

/-- What stands behind `(?P`. -/
def readNamed : Reading Opening := do
  if ← accept "<" then return .capture (some (← readName ">"))
  if ← accept "=" then
    let name ← readName ")"
    let number ← numberOf name
    return .whole (some (← reference number (name.length + 1)))
  let sign ← nextOr .unfinished
  fail (.unknownExtension ("P" ++ sign)) (sign.length + 2)

/-- What an opening parenthesis at a place starts. -/
def readOpening (opening : Nat) : Reading Opening := do
  if !(← accept "?") then return .capture none
  let sign ← nextOr .unfinished
  match sign with
  | "P" => readNamed
  | ":" => return .plain [] []
  | "#" =>
    skipComment opening ((← get).signs.length + 1)
    return .whole none
  | "=" => return .look false false
  | "!" => return .look false true
  | "<" =>
    match ← nextOr .unfinished with
    | "=" => return .look true false
    | "!" => return .look true true
    | other => fail (.unknownExtension ("<" ++ other)) (other.length + 2)
  | "(" => return .test (← readTest)
  | ">" => return .atomic
  | _ =>
    if sign == "-" || (flagOf? sign).isSome then
      match ← readFlags sign with
      | some (on, off) => return .plain on off
      | none => return .flags
    else fail (.unknownExtension sign) (sign.length + 1)

/-- Takes the parenthesis that closes what was opened at a place. -/
def closeAt (opening : Nat) : Reading Unit := do
  if !(← accept ")") then failAt .openGroup opening

/-- Opens a group, which may have a name that is not taken yet. -/
def openNamed (name : Option String) : Reading Nat := do
  let number ← openGroup
  if let some name := name then
    match Assoc.get? (← get).names name with
    | some earlier => fail (.usedGroupName name number earlier) (name.length + 1)
    | none => modify fun i => { i with names := Assoc.put i.names name number }
  return number

/-- The number of characters that a look-behind goes back. -/
def lookWidth (body : Pattern) : Reading Nat := do
  match ((← get).widthOf body).fixed? with
  | some n => return n
  | none =>
    modify fun i => { i with variableLook := true }
    return 0

/-! ### Patterns -/

/-- Skips the rest of a line. -/
def skipLine : Nat → Reading Unit
  | 0 => return ()
  | fuel + 1 => do
    match ← next with
    | none | some "\n" => return ()
    | some _ => skipLine fuel

/-- Whether a sign is a blank that is passed over where blanks do not count. -/
def isSpacing (sign : String) : Bool :=
  [" ", "\t", "\n", "\r", "\x0b", "\x0c"].contains sign

/-- Whether blanks do not count in the whole pattern. -/
def isVerbose : Reading Bool := do
  return (← get).flags.contains 'x'

mutual

/-- Alternatives up to a closing parenthesis or the end; `top` says that no group is open, and
`first` that nothing has been read. -/
def readAlternatives : Nat → Bool → Bool → Bool → Reading Pattern
  | 0, _, _, _ => return .empty
  | fuel + 1, verbose, top, first => do
    let one ← readSequence fuel verbose first []
    if ← accept "|" then
      let verbose ← if top then isVerbose else pure verbose
      return .alt one (← readAlternatives fuel verbose top false)
    else return one

/-- Pieces up to a bar, a closing parenthesis or the end; those already read stand last first.
`verbose` says that blanks and comments do not count, `first` that flags for the whole pattern can
stand here. -/
def readSequence : Nat → Bool → Bool → List Piece → Reading Pattern
  | 0, _, _, pieces => return joined pieces
  | fuel + 1, verbose, first, pieces => do
    match ← peek with
    | none | some "|" | some ")" => return joined pieces
    | some sign =>
      let position ← here
      let _ ← next
      let add (p : Piece) : Reading Pattern := readSequence fuel verbose first (p :: pieces)
      if verbose && isSpacing sign then readSequence fuel verbose first pieces
      else if verbose && sign == "#" then
        skipLine ((← get).signs.length + 1)
        readSequence fuel verbose first pieces
      else
        match sign with
        | "[" =>
          let negated ← accept "^"
          add (.other (.set negated (← readSet position ((← get).signs.length + 1) [])))
        | "." => add (.other .any)
        | "^" => add (.place .lineStart)
        | "$" => add (.place .lineEnd)
        | "(" =>
          match ← readOpening position with
          | .flags =>
            if !first || !pieces.isEmpty then failAt .lateFlags position
            readSequence fuel (← isVerbose) first pieces
          | .whole p => readSequence fuel verbose first ((p.map Piece.of).toList ++ pieces)
          | opening => add (.other (← readGroup fuel verbose position opening))
        | _ =>
          match ← readCount? sign with
          | some count => readSequence fuel verbose first (← repeated pieces count position)
          | none =>
            if sign.toList.head? == some '\\' then add (.of (← escape sign))
            else add (.other (.char (sign.toList.headD ' ')))

/-- The rest of a group that was opened at a place. -/
def readGroup : Nat → Bool → Nat → Opening → Reading Pattern
  | 0, _, _, _ => return .empty
  | fuel + 1, verbose, position, opening => do
    match opening with
    | .capture name =>
      let number ← openNamed name
      let body ← readAlternatives fuel verbose false false
      closeAt position
      closeGroup number body
      return .group number body
    | .plain on off =>
      let verbose := (verbose || on.contains 'x') && !off.contains 'x'
      let body ← readAlternatives fuel verbose false false
      closeAt position
      return .under (changeOf on off) body
    | .atomic =>
      let body ← readAlternatives fuel verbose false false
      closeAt position
      return .atomic body
    | .look back negated =>
      let outer := (← get).lookBehind
      if back then
        modify fun i => { i with lookBehind := outer.or (some i.groups.length) }
      let body ← readAlternatives fuel verbose false false
      modify fun i => { i with lookBehind := outer }
      closeAt position
      let width ← if back then some <$> lookWidth body else pure none
      return .look width negated body
    | .test number =>
      checkLookBehind number
      let yes ← readSequence fuel verbose false []
      let no ← if ← accept "|" then readSequence fuel verbose false [] else pure .empty
      if (← peek) == some "|" then fail .thirdBranch
      closeAt position
      return .ifTaken number yes no
    | .whole _ | .flags => return .empty

end

/-- The pattern that the input writes. -/
def readPattern : Reading Pattern := do
  let p ← readAlternatives (4 * (← get).length + 8) false true true
  if (← peek).isSome then fail .strayClose
  let i ← get
  match i.asked.find? fun a => decide (i.groups.length < a.1) with
  | some a => failAt (.noGroup a.1) a.2
  | none =>
    if i.variableLook then throw { reason := .variableLookBehind }
    return .under (changeOf i.flags []) p

/-- The pattern that a text writes. -/
def parse (text : String) : Except Fault Pattern :=
  match signs 0 text.toList with
  | ([], true) => .error { reason := .trailingEscape, position := some 0 }
  | (signs, broken) => (readPattern.run { signs, length := text.length, broken }).map Prod.fst

end PhpAudit.Pattern
