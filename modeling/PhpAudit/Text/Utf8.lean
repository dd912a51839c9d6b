/-
Decoding of UTF-8 that accepts every sequence of bytes.

A part that cannot belong to a character is replaced by one replacement character: either a lead
byte with as many continuation bytes as fit it, or a single byte that fits nowhere.
-/

set_option autoImplicit false

namespace PhpAudit.Text

/-- A character that still needs `need` bytes, the next of them between `least` and `greatest`. -/
structure Pending where
  need : Nat
  least : Nat
  greatest : Nat
  code : Nat

/-- What has been decoded, the last character first, and the character that is under way. -/
structure Decoding where
  done : List Char := []
  pending : Option Pending := none

namespace Decoding

/-- The character that stands for what cannot be decoded. -/
def replacement : Char :=
  Char.ofNat 65533

/-- A byte where a character starts. -/
def start (done : List Char) (b : Nat) : Decoding :=
  if b < 128 then ⟨Char.ofNat b :: done, none⟩
  else if b < 194 then ⟨replacement :: done, none⟩
  else if b < 224 then ⟨done, some ⟨1, 128, 191, b - 192⟩⟩
  else if b == 224 then ⟨done, some ⟨2, 160, 191, 0⟩⟩
  else if b == 237 then ⟨done, some ⟨2, 128, 159, 13⟩⟩
  else if b < 240 then ⟨done, some ⟨2, 128, 191, b - 224⟩⟩
  else if b == 240 then ⟨done, some ⟨3, 144, 191, 0⟩⟩
  else if b < 244 then ⟨done, some ⟨3, 128, 191, b - 240⟩⟩
  else if b == 244 then ⟨done, some ⟨3, 128, 143, 4⟩⟩
  else ⟨replacement :: done, none⟩

/-- One more byte. -/
def push (d : Decoding) (byte : UInt8) : Decoding :=
  let b := byte.toNat
  match d.pending with
  | none => start d.done b
  | some p =>
    if p.least ≤ b && b ≤ p.greatest then
      let code := 64 * p.code + (b - 128)
      if p.need ≤ 1 then ⟨Char.ofNat code :: d.done, none⟩
      else ⟨d.done, some ⟨p.need - 1, 128, 191, code⟩⟩
    else start (replacement :: d.done) b

/-- The text after the last byte. -/
def finish (d : Decoding) : String :=
  match d.pending with
  | none => String.ofList d.done.reverse
  | some _ => String.ofList (replacement :: d.done).reverse

end Decoding

/-- The text of an array of bytes.  Well-formed arrays need no replacement. -/
def decodeReplacing (bytes : ByteArray) : String :=
  match String.fromUTF8? bytes with
  | some s => s
  | none => (bytes.data.foldl Decoding.push {}).finish

/-- The text of an array of bytes that must be well-formed. -/
def decodeStrict? (bytes : ByteArray) : Option String :=
  String.fromUTF8? bytes

/-! ### Faults -/

/-- Bytes that are no character: where they start, how many they are, and what is wrong. -/
structure Utf8Fault where
  start : Nat
  size : Nat
  reason : String

/-- What is wrong with the bytes behind the first byte of a character, of which `seen` bytes were
read and `p` says what has to follow. -/
def continuationFault? (start seen : Nat) (p : Pending) : List UInt8 → Option Utf8Fault
  | [] => some ⟨start, seen, "unexpected end of data"⟩
  | byte :: rest =>
    let b := byte.toNat
    if b < p.least || p.greatest < b then some ⟨start, seen, "invalid continuation byte"⟩
    else if p.need ≤ 1 then none
    else continuationFault? start (seen + 1) ⟨p.need - 1, 128, 191, 0⟩ rest

/-- The first fault among bytes, the first of which has the given offset.  Bytes that belong to a
character which has started are passed over: `skip` of them are left. -/
def utf8FaultFrom? (offset skip : Nat) : List UInt8 → Option Utf8Fault
  | [] => none
  | byte :: rest =>
    if 0 < skip then utf8FaultFrom? (offset + 1) (skip - 1) rest
    else
      match Decoding.start [] byte.toNat with
      | ⟨_, some p⟩ =>
        match continuationFault? offset 1 p rest with
        | some f => some f
        | none => utf8FaultFrom? (offset + 1) p.need rest
      | ⟨_, none⟩ =>
        if byte.toNat < 128 then utf8FaultFrom? (offset + 1) 0 rest
        else some ⟨offset, 1, "invalid start byte"⟩

/-- The first bytes that are no character. -/
def utf8Fault? (bytes : ByteArray) : Option Utf8Fault :=
  utf8FaultFrom? 0 0 bytes.toList

/-- An offset within `size`; below zero it counts from the end. -/
def clampOffset (size : Nat) (i : Int) : Nat :=
  if i < 0 then (i + size).toNat else min i.toNat size

/-- The bytes from one offset up to another. -/
def slice (bytes : ByteArray) (start stop : Int) : ByteArray :=
  bytes.extract (clampOffset bytes.size start) (clampOffset bytes.size stop)

end PhpAudit.Text
