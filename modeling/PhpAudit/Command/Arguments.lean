/-
Reading the command line.

A word that starts with a hyphen is a switch, unless it is a negative number, holds a blank or
stands behind a double hyphen.  A long switch may be cut short as long as no other starts the same
way, and takes its value from the next word or behind an equals sign.  Short switches without
values can be run together, and the value of a short switch may follow it directly.  The first word
that is no switch is the target.

* `Command.Arguments` — what the command line says;
* `Command.Error`, `Command.Halt` — why reading stops;
* `Command.Token`, `Command.classify` — what a word is;
* `Command.Reading.run`, `Command.read` — reading word by word.
-/

import PhpAudit.Command.Switch

set_option autoImplicit false

namespace PhpAudit.Command

/-! ### What is read -/

/-- What the command line says. -/
structure Arguments where
  target : Option String := none
  output : Option String := none
  format : String := "html"
  config : Option String := none
  riskThreshold : Option String := none
  excluded : List String := []
  workers : Option Int := none
  timeout : Option Int := none
  disabled : List String := []
  verbose : Bool := false
  quiet : Bool := false
  listRules : Bool := false
  listAnalyzers : Bool := false
  deriving Inhabited

/-- What can be wrong with a command line. -/
inductive Error where
  | ambiguous (word : String) (candidates : List String)
  | ignoredValue (switch : Switch) (value : String)
  | missingValue (switch : Switch)
  | badChoice (switch : Switch) (value : String) (choices : List String)
  | notInteger (switch : Switch) (value : String)
  | notPositive (switch : Switch) (value : String)
  | noSuchPath (path : String)
  | unrecognized (words : List String)
  | loudAndQuiet
  | missingTarget

/-- The wording of each cause. -/
def Error.message : Error → String
  | ambiguous word candidates =>
    "ambiguous option: " ++ word ++ " could match " ++ ", ".intercalate candidates
  | ignoredValue switch value =>
    "argument " ++ switch.label ++ ": ignored explicit argument " ++ Text.quote value
  | missingValue switch => "argument " ++ switch.label ++ ": expected one argument"
  | badChoice switch value choices =>
    "argument " ++ switch.label ++ ": invalid choice: " ++ Text.quote value ++ " (choose from " ++
      ", ".intercalate (choices.map Text.quote) ++ ")"
  | notInteger switch value => "argument " ++ switch.label ++ ": Not an integer: " ++ value
  | notPositive switch value =>
    "argument " ++ switch.label ++ ": Must be a positive integer: " ++ value
  | noSuchPath path => "argument target: Path does not exist: " ++ path
  | unrecognized words => "unrecognized arguments: " ++ " ".intercalate words
  | loudAndQuiet => "--verbose and --quiet cannot be used together"
  | missingTarget => "the following arguments are required: target"

/-- Why reading stops before the end. -/
inductive Halt where
  | help
  | version
  | fault (cause : Error)
  /-- It cannot be told whether there is anything at a path. -/
  | trouble (cause : Disk.Trouble) (path : Path)

/-! ### Words -/

/-- What a word is.  The value of a switch may be written with it. -/
inductive Token where
  | word (text : String)
  | divider
  | switch (which : Switch) (spelling : String) (value : Option String)
  | unknown (text : String)

/-- A text cut at its first equals sign. -/
def cutEquals (word : String) : String × Option String :=
  match Text.cut? ['='] word.toList with
  | some (front, rest) => (String.ofList front, some (String.ofList rest))
  | none => (word, none)

/-- Whether a character is a decimal digit of any script. -/
def isDigit (c : Char) : Bool :=
  (Text.digitValue? c).isSome

/-- Whether a word is a negative number; a line feed may follow it. -/
def isNegativeNumber (word : String) : Bool :=
  match word.toList with
  | '-' :: rest =>
    let body := if rest.getLast? == some '\n' then rest.dropLast else rest
    let whole := body.takeWhile isDigit
    match body.drop whole.length with
    | [] => !whole.isEmpty
    | '.' :: places => !places.isEmpty && places.all isDigit
    | _ => false
  | _ => false

/-- The switches that a word cut short or run together may stand for. -/
def candidates (word : String) : List Token :=
  match word.toList with
  | '-' :: '-' :: _ =>
    let (front, value) := cutEquals word
    (Switch.table.filter fun e => Text.startsWith e.1 front).map fun e =>
      .switch e.2 e.1 value
  | '-' :: c :: rest =>
    Switch.table.filterMap fun e =>
      if e.1 == String.ofList ['-', c] then some (.switch e.2 e.1 (some (String.ofList rest)))
      else if Text.startsWith e.1 word then some (.switch e.2 e.1 none)
      else none
  | _ => []

/-- The spelling of the switch in a token. -/
def Token.spelling : Token → String
  | switch _ spelling _ => spelling
  | word s | unknown s => s
  | divider => "--"

/-- What a word in front of a divider is. -/
def classify (word : String) : Except Error Token :=
  if !Text.startsWith word "-" || word == "-" then .ok (.word word)
  else
    match Switch.ofSpelling? word with
    | some s => .ok (.switch s word none)
    | none =>
      let (front, value) := cutEquals word
      match value, Switch.ofSpelling? front with
      | some v, some s => .ok (.switch s front (some v))
      | _, _ =>
        match candidates word with
        | [t] => .ok t
        | [] =>
          if isNegativeNumber word || word.toList.contains ' ' then .ok (.word word)
          else .ok (.unknown word)
        | several => .error (.ambiguous word (several.map Token.spelling))

/-- What all words are; behind a divider there are no switches. -/
def classifyAll : List String → Except Error (List Token)
  | [] => .ok []
  | word :: rest =>
    if word == "--" then .ok (.divider :: rest.map .word)
    else do
      let t ← classify word
      return t :: (← classifyAll rest)

/-! ### Values -/

/-- A positive whole number. -/
def positive (switch : Switch) (value : String) : Except Error Int :=
  match Decimal.wholeOfText? value with
  | none => .error (.notInteger switch value)
  | some n => if n ≤ 0 then .error (.notPositive switch value) else .ok n

/-- Refuses a value that is not among the choices of a switch. -/
def checkChoice (switch : Switch) (value : String) : Except Error Unit :=
  match switch.choices with
  | none => .ok ()
  | some cs => if cs.contains value then .ok () else .error (.badChoice switch value cs)

/-- The arguments with the value of a switch. -/
def setValue (a : Arguments) (switch : Switch) (value : String) : Except Halt Arguments := do
  (checkChoice switch value).mapError .fault
  match switch with
  | .output => return { a with output := some value }
  | .format => return { a with format := value }
  | .config => return { a with config := some value }
  | .riskThreshold => return { a with riskThreshold := some value }
  | .exclude => return { a with excluded := a.excluded ++ [value] }
  | .workers => return { a with workers := some (← (positive switch value).mapError .fault) }
  | .timeout => return { a with timeout := some (← (positive switch value).mapError .fault) }
  | .disableAnalyzer => return { a with disabled := a.disabled ++ [value] }
  | _ => return a

/-- The arguments with a switch that has no value. -/
def setFlag (a : Arguments) (switch : Switch) : Except Halt Arguments :=
  match switch with
  | .help => .error .help
  | .version => .error .version
  | .verbose => .ok { a with verbose := true }
  | .quiet => .ok { a with quiet := true }
  | .listRules => .ok { a with listRules := true }
  | .listAnalyzers => .ok { a with listAnalyzers := true }
  | _ => .ok a

/-- The arguments with several switches that have no value. -/
def setFlags (a : Arguments) : List Switch → Except Halt Arguments
  | [] => .ok a
  | s :: rest => do setFlags (← setFlag a s) rest

/-! ### Reading -/

/-- How far reading has come. -/
structure Reading where
  arguments : Arguments := {}
  /-- Whether the target is still to come. -/
  open_ : Bool := true
  /-- Whether the last word was the target, so that a divider behind it belongs to it. -/
  atTarget : Bool := false
  extras : List String := []

/-- What a run of short switches comes to. -/
inductive Cluster where
  /-- Switches without values. -/
  | flags (switches : List Switch)
  /-- The last switch takes this value. -/
  | value (switches : List Switch) (last : Switch) (value : String)
  /-- The last switch takes the next word as its value. -/
  | next (switches : List Switch) (last : Switch)

/-- A switch in front of a cluster. -/
def Cluster.after (s : Switch) : Cluster → Cluster
  | flags ss => flags (s :: ss)
  | value ss last v => value (s :: ss) last v
  | next ss last => next (s :: ss) last

/-- Reads the letters behind a short switch that takes no value: each is a switch, and what follows
one that takes a value is that value. -/
def cluster (front : Switch) : List Char → Except Error Cluster
  | [] => .ok (.flags [front])
  | c :: rest =>
    match Switch.ofSpelling? (String.ofList ['-', c]) with
    | none => .error (.ignoredValue front (String.ofList (c :: rest)))
    | some s =>
      if s.takesValue then
        .ok (if rest.isEmpty then .next [front] s else .value [front] s (String.ofList rest))
      else (cluster s rest).map (Cluster.after front)

/-- What a switch with what is written behind it comes to. -/
def resolve (switch : Switch) (spelling : String) (value : Option String) :
    Except Error Cluster :=
  match value with
  | none => .ok (if switch.takesValue then .next [] switch else .flags [switch])
  | some v =>
    if switch.takesValue then .ok (.value [] switch v)
    else if Text.startsWith spelling "--" || v == "" then .error (.ignoredValue switch v)
    else cluster switch v.toList

/-- Reads tokens.  `isThere` tells whether there is anything at a path. -/
def Reading.run (isThere : String → Except Halt Bool) :
    Reading → List Token → Except Halt Reading
  | r, [] => .ok r
  | r, .word w :: rest =>
    if r.open_ then do
      if ← isThere w then
        run isThere
          { r with arguments := { r.arguments with target := some w }, open_ := false
                   atTarget := true } rest
      else throw (.fault (.noSuchPath w))
    else run isThere { r with extras := r.extras ++ [w], atTarget := false } rest
  | r, .divider :: rest =>
    if r.open_ || r.atTarget then run isThere { r with atTarget := false } rest
    else run isThere { r with extras := r.extras ++ ["--"] } rest
  | r, .unknown w :: rest =>
    run isThere { r with extras := r.extras ++ [w], atTarget := false } rest
  | r, .switch s spelling value :: rest => do
    match ← (resolve s spelling value).mapError .fault with
    | .flags ss =>
      let a ← setFlags r.arguments ss
      run isThere { r with arguments := a, atTarget := false } rest
    | .value ss last v =>
      let a ← setValue (← setFlags r.arguments ss) last v
      run isThere { r with arguments := a, atTarget := false } rest
    | .next ss last =>
      match rest with
      | .word v :: more =>
        let a ← setValue (← setFlags r.arguments ss) last v
        run isThere { r with arguments := a, atTarget := false } more
      | _ => throw (.fault (.missingValue last))

/-- Reads a command line. -/
def read (isThere : String → Except Halt Bool) (words : List String) :
    Except Halt Arguments := do
  let tokens ← (classifyAll words).mapError .fault
  let r ← Reading.run isThere {} tokens
  if !r.extras.isEmpty then throw (.fault (.unrecognized r.extras))
  if r.arguments.verbose && r.arguments.quiet then throw (.fault .loudAndQuiet)
  return r.arguments

end PhpAudit.Command
