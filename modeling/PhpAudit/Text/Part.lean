/-
Parts of texts: looking for one text in another, and cutting there.
-/

set_option autoImplicit false

namespace PhpAudit.Text

/-- Whether the text starts with the part. -/
def startsWith (text part : String) : Bool :=
  part.toList.isPrefixOf text.toList

/-- Whether the text ends with the part. -/
def endsWith (text part : String) : Bool :=
  part.toList.isSuffixOf text.toList

/-- What stands behind the last occurrence of a part. -/
def behindLast? (part : List Char) : List Char → Option (List Char)
  | [] => if part.isEmpty then some [] else none
  | c :: rest =>
    match behindLast? part rest with
    | some r => some r
    | none => if part.isPrefixOf (c :: rest) then some ((c :: rest).drop part.length) else none

/-- What stands behind the last occurrence of a part; the whole text if there is none. -/
def afterLast (text part : String) : String :=
  match behindLast? part.toList text.toList with
  | some r => String.ofList r
  | none => text

/-- What stands before the first occurrence of a part, and what behind it. -/
def cut? (part : List Char) : List Char → Option (List Char × List Char)
  | [] => if part.isEmpty then some ([], []) else none
  | c :: rest =>
    if part.isPrefixOf (c :: rest) then some ([], (c :: rest).drop part.length)
    else (cut? part rest).map fun r => (c :: r.1, r.2)

/-- What stands before the first occurrence of a part; the whole text if there is none. -/
def before (text part : String) : String :=
  match cut? part.toList text.toList with
  | some r => String.ofList r.1
  | none => text

/-- Whether the part stands somewhere in the text. -/
def contains (text part : String) : Bool :=
  (cut? part.toList text.toList).isSome

/-- Replaces every occurrence of a part from left to right; `skip` characters belong to an
occurrence already replaced. -/
def replaceFrom (old new : List Char) : Nat → List Char → List Char
  | _, [] => []
  | skip + 1, _ :: rest => replaceFrom old new skip rest
  | 0, c :: rest =>
    if !old.isEmpty && old.isPrefixOf (c :: rest) then
      new ++ replaceFrom old new (old.length - 1) rest
    else c :: replaceFrom old new 0 rest

/-- A part of one character is replaced wherever the character stands. -/
theorem replaceFrom_singleton (old : Char) (new cs : List Char) :
    replaceFrom [old] new 0 cs = cs.flatMap fun c => if c == old then new else [c] := by
  induction cs with
  | nil => rfl
  | cons c cs ih =>
    by_cases hc : c = old
    · simp [replaceFrom, List.isPrefixOf, hc, ih]
    · simp [replaceFrom, List.isPrefixOf, hc, Ne.symm hc, ih]

/-- The text with every occurrence of a part replaced. -/
def replace (text old new : String) : String :=
  String.ofList (replaceFrom old.toList new.toList 0 text.toList)

/-- The text without the given characters at its two ends. -/
def trimOf (text : String) (marks : List Char) : String :=
  let left := text.toList.dropWhile marks.contains
  String.ofList (left.reverse.dropWhile marks.contains).reverse

/-- Pads a text on the left with blanks to a width. -/
def padLeft (text : String) (width : Nat) : String :=
  String.ofList (List.replicate (width - text.length) ' ') ++ text

/-- Pads a text on the right with blanks to a width. -/
def padRight (text : String) (width : Nat) : String :=
  text ++ String.ofList (List.replicate (width - text.length) ' ')

/-- A word with its first letter in upper case; meant for words of ASCII letters. -/
def capitalize (word : String) : String :=
  match word.toList with
  | [] => ""
  | c :: rest => String.ofList (c.toUpper :: rest)

end PhpAudit.Text
