/-
Reference data for the kinds of vulnerability that the rules report.

* `Owasp.Profile`, `Owasp.profiles` — what is known about each kind;
* `Owasp.enrich` — adding it to a finding.
-/

import PhpAudit.Finding.Basic
import PhpAudit.Owasp.Category

set_option autoImplicit false

namespace PhpAudit.Owasp

/-- What is known about a kind of vulnerability. -/
structure Profile where
  kind : String
  name : String
  category : Category
  cweIds : List Int
  remediation : String
  references : List String
  tags : List String

/-- The profile as a dictionary. -/
def Profile.toDict (p : Profile) : Dict :=
  [("vulnerability_type", .str p.kind),
   ("name", .str p.name),
   ("owasp_category", .str p.category.code),
   ("owasp_name", .str p.category.name),
   ("cwe_ids", .list (p.cweIds.map .int)),
   ("remediation", .str p.remediation),
   ("references", .ofTexts p.references),
   ("tags", .ofTexts p.tags)]

/-- All profiles. -/
def profiles : List Profile :=
  [{ kind := "sql_injection"
     name := "SQL Injection"
     category := .injection
     cweIds := [89, 564]
     remediation :=
       "Use prepared statements with bound parameters (PDO::prepare or mysqli_prepare) " ++
         "and never build SQL by concatenating request data."
     references := [
        "https://owasp.org/Top10/A03_2021-Injection/",
        "https://cwe.mitre.org/data/definitions/89.html",
        "https://cheatsheetseries.owasp.org/cheatsheets/SQL_Injection_Prevention_Cheat_Sheet.html"]
     tags := ["database", "injection"] },
   { kind := "command_injection"
     name := "OS Command Injection"
     category := .injection
     cweIds := [78]
     remediation :=
       "Avoid shell execution. Where unavoidable, pass every argument through " ++
         "escapeshellarg() and validate it against an allowlist."
     references := [
        "https://owasp.org/Top10/A03_2021-Injection/",
        "https://cwe.mitre.org/data/definitions/78.html",
        "https://cheatsheetseries.owasp.org/cheatsheets/OS_Command_Injection_Defense_Cheat_Sheet.html"]
     tags := ["shell", "injection"] },
   { kind := "code_injection"
     name := "Code Injection"
     category := .injection
     cweIds := [94, 95]
     remediation :=
       "Remove eval(), create_function() and the /e modifier. Dispatch through an " ++
         "explicit map of allowed callables instead."
     references := [
        "https://owasp.org/Top10/A03_2021-Injection/",
        "https://cwe.mitre.org/data/definitions/94.html"]
     tags := ["eval", "injection"] },
   { kind := "file_inclusion"
     name := "File Inclusion"
     category := .injection
     cweIds := [98]
     remediation :=
       "Include only constant paths or map user choices onto an allowlist of files; " ++
         "disable allow_url_include."
     references := [
        "https://owasp.org/www-project-web-security-testing-guide/latest/4-Web_Application_Security_Testing/07-Input_Validation_Testing/11.1-Testing_for_Local_File_Inclusion",
        "https://cwe.mitre.org/data/definitions/98.html"]
     tags := ["include", "lfi", "rfi"] },
   { kind := "path_traversal"
     name := "Path Traversal"
     category := .accessControl
     cweIds := [22]
     remediation :=
       "Resolve paths with realpath() and verify they stay under the intended base " ++
         "directory; use basename() for user supplied file names."
     references := [
        "https://owasp.org/Top10/A01_2021-Broken_Access_Control/",
        "https://cwe.mitre.org/data/definitions/22.html"]
     tags := ["filesystem", "traversal"] },
   { kind := "xss"
     name := "Cross-Site Scripting"
     category := .injection
     cweIds := [79]
     remediation :=
       "Encode output with htmlspecialchars($value, ENT_QUOTES, 'UTF-8') or use a " ++
         "template engine with automatic escaping."
     references := [
        "https://owasp.org/Top10/A03_2021-Injection/",
        "https://cwe.mitre.org/data/definitions/79.html",
        "https://cheatsheetseries.owasp.org/cheatsheets/Cross_Site_Scripting_Prevention_Cheat_Sheet.html"]
     tags := ["output", "xss"] },
   { kind := "insecure_deserialization"
     name := "Insecure Deserialization"
     category := .integrity
     cweIds := [502]
     remediation :=
       "Use json_decode() for untrusted data, or pass ['allowed_classes' => false] to " ++
         "unserialize()."
     references := [
        "https://owasp.org/Top10/A08_2021-Software_and_Data_Integrity_Failures/",
        "https://cwe.mitre.org/data/definitions/502.html",
        "https://cheatsheetseries.owasp.org/cheatsheets/Deserialization_Cheat_Sheet.html"]
     tags := ["deserialization", "object_injection"] },
   { kind := "weak_cryptography"
     name := "Weak Cryptography"
     category := .cryptography
     cweIds := [327, 328]
     remediation :=
       "Use password_hash()/password_verify() for passwords, hash('sha256') or better for " ++
         "integrity, and sodium_* or openssl with AES-GCM for encryption."
     references := [
        "https://owasp.org/Top10/A02_2021-Cryptographic_Failures/",
        "https://cwe.mitre.org/data/definitions/327.html",
        "https://cheatsheetseries.owasp.org/cheatsheets/Password_Storage_Cheat_Sheet.html"]
     tags := ["crypto", "hashing"] },
   { kind := "hardcoded_credentials"
     name := "Hardcoded Credentials"
     category := .authentication
     cweIds := [798]
     remediation :=
       "Load secrets from the environment or a secrets manager (getenv(), vault) and " ++
         "rotate any credential that was committed."
     references := [
        "https://owasp.org/Top10/A07_2021-Identification_and_Authentication_Failures/",
        "https://cwe.mitre.org/data/definitions/798.html"]
     tags := ["secrets", "credentials"] }]

/-- The profile of a kind. -/
def profile? (kind : String) : Option Profile :=
  profiles.find? fun p => p.kind == kind

/-- The profile of the kind that a value names. -/
def profileFor (kind : Value) : Except Misuse (Option Profile) := do
  return (← kind.toKey).str?.bind profile?

/-- The profiles of the category that a value is the code of. -/
def profilesOf (code : Value) : List Profile :=
  profiles.filter fun p => Value.str p.category.code == code

/-- The category that a value is the code of. -/
def categoryFor (code : Value) : Except Misuse (Option Category) := do
  return (← code.toKey).str?.bind Category.ofCode?

/-- A category as a dictionary. -/
def Category.toDict (c : Category) : Dict :=
  [("name", .str c.name), ("description", .str c.description), ("impact", .str c.impact)]

/-- The name of the category that a value is the code of; other values stand for themselves. -/
def categoryName (code : Value) : Except Misuse Value := do
  if !code.truthy then return ""
  match ← categoryFor code with
  | some c => return c.name
  | none => return code

/-- Writes a value under a key that is not there yet. -/
def putNew (m : Dict) (key : String) (v : Value) : Dict :=
  if Assoc.has m key then m else Assoc.put m key v

/-- A finding with the name of its category, references and weakness numbers, where it has none of
its own. -/
def enrich (f : Finding) : Except Misuse Finding := do
  let kind := Assoc.getD f.metadata "vulnerability_type" .null
  let profile ← if kind.truthy then profileFor kind else pure none
  let named ←
    if f.owaspCategory.truthy then
      pure (putNew f.metadata "owasp_name" (← categoryName f.owaspCategory))
    else pure f.metadata
  match profile with
  | none => return { f with metadata := named }
  | some p =>
    return { f with
      metadata := putNew named "references" (.ofTexts p.references)
      cweIds := if f.cweIds.isEmpty then p.cweIds.map .int else f.cweIds }

/-- What is told about the catalogue as a whole. -/
def catalogueInfo : Dict :=
  [("version", .str "1.0.0"),
   ("owasp_version", .str "2021"),
   ("total_categories", .nat 10),
   ("vulnerability_profiles", .nat profiles.length),
   ("categories", .ofTexts (Category.all.map Category.code))]

end PhpAudit.Owasp
