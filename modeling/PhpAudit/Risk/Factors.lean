/-
What makes a vulnerability dangerous.

Seven properties say how an attacker gets at it and what it costs, three more whether it is already
being used, and one how hard it is to fix.  They come as words, which are kept as they are given and
looked up when a risk is scored; a word that is not known counts as the gravest one, except for the
availability, where it counts as low, and for the effort of a fix, where it counts as medium.

* `Risk.Vector`, `Risk.Complexity`, … — the properties with their weights;
* `Risk.Factors` — all of them together;
* `Risk.Factors.read` — taking properties from a dictionary;
* `Risk.profiles` — the kinds of vulnerability that the rules report.
-/

import PhpAudit.Value.Misuse

set_option autoImplicit false

namespace PhpAudit.Risk

/-! ### Properties and their weights -/

/-- From where an attack is made. -/
inductive Vector where
  | network
  | adjacent
  | onHost
  | physical

/-- How much an attack depends on circumstances. -/
inductive Complexity where
  | low
  | high

/-- Which rights an attacker needs. -/
inductive Privileges where
  | none
  | low
  | high

/-- Whether somebody else has to act. -/
inductive Interaction where
  | none
  | required

/-- How much is lost. -/
inductive Impact where
  | none
  | low
  | high

/-- How hard a fix is. -/
inductive Effort where
  | low
  | medium
  | high

/-- The weight of a way of attack. -/
def Vector.weight : Vector → Float
  | network => 0.85
  | adjacent => 0.62
  | onHost => 0.55
  | physical => 0.2

/-- The weight of the circumstances. -/
def Complexity.weight : Complexity → Float
  | low => 0.77
  | high => 0.44

/-- The weight of the rights. -/
def Privileges.weight : Privileges → Float
  | none => 0.85
  | low => 0.62
  | high => 0.27

/-- The weight of the interaction. -/
def Interaction.weight : Interaction → Float
  | none => 0.85
  | required => 0.62

/-- The weight of a loss. -/
def Impact.weight : Impact → Float
  | none => 0.0
  | low => 0.22
  | high => 0.56

/-- What an easy fix adds to the priority. -/
def Effort.bonus : Effort → Nat
  | low => 10
  | medium => 5
  | high => 0

/-! ### Words -/

/-- The meaning of a value in a table of words, or a fallback. -/
def meaning {α : Type} (table : List (String × α)) (fallback : α) (v : Value) :
    Except Misuse α := do
  return ((← v.toKey).str?.bind fun word => table.lookup word).getD fallback

/-- The way of attack that a value names. -/
def Vector.ofValue : Value → Except Misuse Vector :=
  meaning [("network", network), ("adjacent", adjacent), ("local", onHost),
    ("physical", physical)] network

/-- The circumstances that a value names. -/
def Complexity.ofValue : Value → Except Misuse Complexity :=
  meaning [("low", low), ("high", high)] low

/-- The rights that a value names. -/
def Privileges.ofValue : Value → Except Misuse Privileges :=
  meaning [("none", none), ("low", low), ("high", high)] none

/-- The interaction that a value names. -/
def Interaction.ofValue : Value → Except Misuse Interaction :=
  meaning [("none", none), ("required", required)] none

/-- The loss that a value names. -/
def Impact.ofValue (fallback : Impact) : Value → Except Misuse Impact :=
  meaning [("none", none), ("low", low), ("high", high)] fallback

/-- The effort that a value names. -/
def Effort.ofValue : Value → Except Misuse Effort :=
  meaning [("low", low), ("medium", medium), ("high", high)] medium

/-! ### Factors -/

/-- What makes a vulnerability dangerous. -/
structure Factors where
  vector : Value := "network"
  complexity : Value := "low"
  privileges : Value := "none"
  interaction : Value := "none"
  confidentiality : Value := "high"
  integrity : Value := "high"
  availability : Value := "low"
  exploitable : Value := .bool false
  knownExploits : Value := .bool false
  reachable : Value := .bool false
  effort : Value := "medium"

namespace Factors

/-- One property from a dictionary; nothing for a name that is no property. -/
def set? (f : Factors) (key : Key) (v : Value) : Option Factors :=
  match key with
  | .str "attack_vector" => some { f with vector := v }
  | .str "attack_complexity" => some { f with complexity := v }
  | .str "privileges_required" => some { f with privileges := v }
  | .str "user_interaction" => some { f with interaction := v }
  | .str "confidentiality_impact" => some { f with confidentiality := v }
  | .str "integrity_impact" => some { f with integrity := v }
  | .str "availability_impact" => some { f with availability := v }
  | .str "exploitable" => some { f with exploitable := v }
  | .str "known_exploits" => some { f with knownExploits := v }
  | .str "user_reachable" => some { f with reachable := v }
  | .str "fix_complexity" => some { f with effort := v }
  | _ => none

/-- The properties that a dictionary names; other names are passed over. -/
def read (f : Factors) (data : Dict) : Factors :=
  data.foldl (fun f e => (f.set? e.1 e.2).getD f) f

/-- The factors that a value describes. -/
def ofValue (data : Value) : Except Misuse Factors := do
  return ({} : Factors).read (← data.entries "items")

/-- The first name in a dictionary that is no property. -/
def unknown? (data : Dict) : Option Key :=
  (data.find? fun e => (set? {} e.1 e.2).isNone).map Prod.fst

end Factors

/-- A property that holds. -/
def yes : Value :=
  .bool true

/-- The factors of the kinds of vulnerability that the rules report. -/
def profiles : Assoc Key Factors :=
  [("sql_injection",
     { exploitable := yes, knownExploits := yes, reachable := yes, effort := "low" }),
   ("command_injection",
     { availability := "high", exploitable := yes, knownExploits := yes, reachable := yes }),
   ("code_injection",
     { availability := "high", exploitable := yes, knownExploits := yes, reachable := yes }),
   ("file_inclusion",
     { exploitable := yes, knownExploits := yes, reachable := yes, effort := "low" }),
   ("path_traversal",
     { integrity := "low", availability := "none", exploitable := yes, reachable := yes
       effort := "low" }),
   ("xss",
     { interaction := "required", confidentiality := "low", integrity := "low"
       availability := "none", exploitable := yes, knownExploits := yes, reachable := yes
       effort := "low" }),
   ("insecure_deserialization",
     { complexity := "high", availability := "high", exploitable := yes, reachable := yes }),
   ("weak_cryptography",
     { complexity := "high", integrity := "none", availability := "none" }),
   ("hardcoded_credentials",
     { vector := "local", availability := "none", effort := "low" })]

end PhpAudit.Risk
