/-
From the bytes of a file to its text.

Most files are UTF-8.  For one that is not, a guess from outside may name its encoding, and is
trusted when it is confident enough; what the encoding cannot read is then replaced.  Without such
a guess every byte stands for the character of its number.
-/

import PhpAudit.Text.Utf8
import PhpAudit.Value.Misuse

set_option autoImplicit false

namespace PhpAudit

/-- An encoding that a guess can name. -/
inductive Encoding where
  | ascii
  | latin1
  | windows1252
  | utf8
  | utf16
  deriving DecidableEq

namespace Encoding

/-! ### Names -/

/-- The encoding of a name; case, hyphens, underscores and blanks make no difference. -/
def ofName? (name : String) : Option Encoding :=
  let letters := name.toList.filter fun c => c != '-' && c != '_' && c != ' '
  match String.ofList (letters.map Char.toLower) with
  | "ascii" | "usascii" => some ascii
  | "iso88591" | "latin1" | "l1" => some latin1
  | "windows1252" | "cp1252" => some windows1252
  | "utf8" => some utf8
  | "utf16" => some utf16
  | _ => none

/-! ### Single bytes -/

/-- The characters that the Windows code page puts in place of 32 control characters; zero stands
for a byte that has none. -/
def windowsHigh : List Nat :=
  [0x20AC, 0, 0x201A, 0x192, 0x201E, 0x2026, 0x2020, 0x2021,
   0x2C6, 0x2030, 0x160, 0x2039, 0x152, 0, 0x17D, 0,
   0, 0x2018, 0x2019, 0x201C, 0x201D, 0x2022, 0x2013, 0x2014,
   0x2DC, 0x2122, 0x161, 0x203A, 0x153, 0, 0x17E, 0x178]

/-- The character of a byte in the Windows code page. -/
def windowsChar (b : UInt8) : Char :=
  if 0x80 ≤ b.toNat && b.toNat < 0xA0 then
    match windowsHigh[b.toNat - 0x80]? with
    | some 0 | none => Text.Decoding.replacement
    | some n => Char.ofNat n
  else Char.ofNat b.toNat

/-- The character of a byte in seven bits. -/
def asciiChar (b : UInt8) : Char :=
  if b.toNat < 0x80 then Char.ofNat b.toNat else Text.Decoding.replacement

/-- The character whose number is the byte. -/
def latinChar (b : UInt8) : Char :=
  Char.ofNat b.toNat

/-! ### Two bytes -/

/-- The numbers of pairs of bytes, and whether a byte is left over. -/
def units (bigFirst : Bool) : List UInt8 → List Nat × Bool
  | [] => ([], false)
  | [_] => ([], true)
  | a :: b :: rest =>
    let n := if bigFirst then a.toNat * 256 + b.toNat else b.toNat * 256 + a.toNat
    let (ns, odd) := units bigFirst rest
    (n :: ns, odd)

/-- Whether a number is the first half of a pair. -/
def isHigh (n : Nat) : Bool :=
  0xD800 ≤ n && n < 0xDC00

/-- Whether a number is the second half of a pair. -/
def isLow (n : Nat) : Bool :=
  0xDC00 ≤ n && n < 0xE000

/-- The characters of the numbers, where a half without its other half is replaced.  What is left
over at the end counts once. -/
def unitChars (odd : Bool) : List Nat → List Char
  | [] => if odd then [Text.Decoding.replacement] else []
  | [n] =>
    if isHigh n then [Text.Decoding.replacement]
    else (if isLow n then Text.Decoding.replacement else Char.ofNat n) :: unitChars odd []
  | n :: m :: rest =>
    if isHigh n then
      if isLow m then
        Char.ofNat (0x10000 + (n - 0xD800) * 1024 + (m - 0xDC00)) :: unitChars odd rest
      else Text.Decoding.replacement :: unitChars odd (m :: rest)
    else
      (if isLow n then Text.Decoding.replacement else Char.ofNat n) :: unitChars odd (m :: rest)

/-- The characters of pairs of bytes; a mark in front tells which byte of a pair comes first. -/
def pairChars (bytes : List UInt8) : List Char :=
  let read (bigFirst : Bool) (rest : List UInt8) : List Char :=
    let (ns, odd) := units bigFirst rest
    unitChars odd ns
  match bytes with
  | 0xFF :: 0xFE :: rest => read false rest
  | 0xFE :: 0xFF :: rest => read true rest
  | rest => read false rest

/-! ### Decoding -/

/-- The text of some bytes; what cannot be read is replaced. -/
def decode (e : Encoding) (bytes : ByteArray) : String :=
  match e with
  | ascii => String.ofList (bytes.toList.map asciiChar)
  | latin1 => String.ofList (bytes.toList.map latinChar)
  | windows1252 => String.ofList (bytes.toList.map windowsChar)
  | utf8 => Text.decodeReplacing bytes
  | utf16 => String.ofList (pairChars bytes.toList)

/-- A guess at the encoding of a file. -/
structure Guess where
  name : Value := .null
  confidence : Value := .int 0

/-- A guess is trusted above this confidence. -/
def leastConfidence : Number :=
  .float 0.6

/-- The name of the encoding that a guess gives, if it is trusted. -/
def Guess.trusted? (g : Guess) : Except Misuse (Option String) :=
  if !g.name.truthy then .ok none
  else
    match g.confidence.number?, g.name with
    | some c, .str name => .ok (if leastConfidence.lt c then some name else none)
    | some c, other =>
      if leastConfidence.lt c then .error (.notEncoding other.kindName) else .ok none
    | none, _ => .error (.unordered ">" g.confidence.kindName "float")

/-- The text of some bytes and the name of the encoding they were read in. -/
def read (bytes : ByteArray) (guess : Option Guess) : Except Misuse (String × String) :=
  match Text.decodeStrict? bytes with
  | some s => .ok (s, "utf-8")
  | none => do
    let name ← match guess with
      | some g => g.trusted?
      | none => pure none
    match name.bind fun n => (ofName? n).map fun e => (e, n) with
    | some (e, n) => return (e.decode bytes, n)
    | none => return (latin1.decode bytes, "latin-1")

end Encoding

end PhpAudit
