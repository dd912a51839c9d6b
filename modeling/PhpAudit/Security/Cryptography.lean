/-
Weak cryptography: broken hash functions and the removed mcrypt extension.
-/

import PhpAudit.Php.Expressions
import PhpAudit.Pattern.Basic
import PhpAudit.Rule.Guard

set_option autoImplicit false

namespace PhpAudit.Security.Cryptography

open Php

/-- Functions that compute a broken hash. -/
def weakHashes : List String :=
  ["md5", "sha1", "md5_file", "sha1_file"]

/-- Broken algorithms by name. -/
def weakAlgorithms : List String :=
  ["md5", "sha1", "md4", "md2", "crc32"]

/-- Parts of names that stand for secrets. -/
def secretWords : List String :=
  ["pass", "pwd", "secret", "token", "key"]

/-- Whether one of the words stands in a text, in any case. -/
def mentionsSecret (text : String) : Bool :=
  let word (w : String) : Pattern := w.toList.foldr (fun c p => .seq (.char c) p) .empty
  secretWords.any fun w => (word w).found { ignoreCase := true } text

/-- The evidence that the called function gives, if it is a weak one. -/
def weakness? (n : Node) : Option Evidence :=
  let name := callName n
  if weakHashes.contains name then
    some (Evidence.add {} "weak_hash" 0.6 s!"{name}() is not collision resistant.")
  else if name == "hash" then
    match argument? n 0 with
    | none => none
    | some given =>
      let algorithm := Text.lower (stringContent given)
      if weakAlgorithms.contains algorithm then
        some (Evidence.add {} "weak_hash" 0.6 s!"hash() uses the {algorithm} algorithm.")
      else none
  else if name == "crypt" then
    some (Evidence.add {} "legacy_crypt" 0.5 "crypt() defaults to weak algorithms.")
  else if Text.startsWith name "mcrypt_" then
    some (Evidence.add {} "removed_extension" 0.8 "The mcrypt extension is unmaintained.")
  else none

/-- What a call is suspected of. -/
def inspect : Rule.Inspection := fun _ n _ =>
  .ok ((weakness? n).map fun e =>
    let name := callName n
    ({ title := "Weak Cryptography"
       description := s!"{name}() is unsuitable for security purposes."
       metadata := [("function", .str name)] },
     if (argument? n (-1)).any fun a => mentionsSecret a.text then
       e.add "sensitive_data" 0.3 "The hashed value looks like a credential."
     else e))

/-- Broken hash functions and ciphers. -/
def rule : Rule :=
  Rule.guarded
    { id := "weak_cryptography"
      name := "Weak Cryptography"
      description := "Use of a broken hash or cipher"
      nodeKinds := ["function_call_expression"] }
    { vulnerability := "weak_cryptography"
      owasp := .cryptography
      risk := .medium
      cweIds := [.int 327, .int 328]
      falsePositives := .float 0.3
      remediation := ["Use password_hash() and password_verify() for passwords",
        "Use hash('sha256') or stronger for integrity checks"] }
    [] (fun _ => []) inspect

end PhpAudit.Security.Cryptography
