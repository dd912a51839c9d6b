/-
A bounded cache of parsed files.

Parsed files are kept under their path together with the digest of their content.  The entries are
listed from the least to the most recently used one.  When a store makes the cache too full, a
batch of the least recently used entries goes.  An entry that has become too old counts as absent,
and one that does not belong to its key is dropped with an error.

* `TreeCache`, `TreeCache.Entry`, `TreeCache.Counts` — the state;
* `TreeCache.get`, `TreeCache.put` — looking up and storing;
* `TreeCache.invalidate`, `TreeCache.clear` — dropping entries;
* `TreeCache.statistics` — the counters as a dictionary.
-/

import PhpAudit.SourceFile
import PhpAudit.Timeline
import PhpAudit.Digest.Md5
import PhpAudit.Value.Arithmetic
import PhpAudit.Value.Order

set_option autoImplicit false

namespace PhpAudit

/-- A parsed file with the moment at which it was stored. -/
structure TreeCache.Entry (τ : Type) where
  file : SourceFile
  created : τ

/-- What a cache has counted. -/
structure TreeCache.Counts where
  parsed : Nat := 0
  hits : Nat := 0
  misses : Nat := 0
  faulty : Nat := 0
  recovered : Nat := 0
  grammarFailures : Nat := 0
  evictions : Nat := 0
  bypasses : Nat := 0
  deriving DecidableEq, Inhabited

/-- A bounded cache of parsed files. -/
structure TreeCache (τ : Type) where
  grammar : Grammar
  capacity : Int
  /-- The capacity as it is shown. -/
  capacityShown : Value := .int capacity
  /-- How many entries go at once when the cache is too full. -/
  batch : Int
  /-- The batch as it is shown. -/
  batchShown : Value
  ttl : Option τ := none
  /-- The entries, the least recently used first. -/
  entries : Assoc String (TreeCache.Entry τ) := []
  counts : TreeCache.Counts := {}
  /-- Whether every store fails. -/
  storeFails : Bool := false

namespace TreeCache

variable {τ : Type}

/-- What can go wrong with a cache. -/
inductive Error where
  | capacityNotPositive (given : Value)
  | mismatch (key : String)
  | storeFailed
  | misuse (cause : Misuse)

/-- The wording of each cause. -/
def Error.message : Error → String
  | capacityNotPositive given => "Cache capacity must be positive, got " ++ given.plain
  | mismatch key => s!"Cache entry {key} does not match its content"
  | storeFailed => "cache store failed"
  | misuse cause => cause.message

/-- An empty cache.  A batch that is not given is a tenth of the capacity, and at least one. -/
def make (grammar : Grammar) (size batch : Value) (ttl : Option τ) :
    Except Error (TreeCache τ) := do
  if ← (size.atMost (.int 0)).mapError .misuse then throw (.capacityNotPositive size)
  let capacity ← (Value.wholePart (size.number?.getD (.int 0))).mapError .misuse
  let shown := if batch.truthy then batch else .int (max 1 (capacity / 10))
  return { grammar, capacity, capacityShown := size, batch := shown.int?.getD 1
           batchShown := shown, ttl }

/-- The digest of a content. -/
def digest (content : String) : String :=
  Digest.ofText content

/-- The key of a path and a digest. -/
def key (path digest : String) : String :=
  path ++ ":" ++ digest

/-- What a lookup finds. -/
inductive Lookup where
  | hit (file : SourceFile)
  | miss
  | mismatch (key : String)

/-- Whether an entry is too old at a moment. -/
def expired [Timeline τ] (c : TreeCache τ) (now : τ) (e : Entry τ) : Bool :=
  match c.ttl with
  | none => false
  | some ttl => Timeline.exceeds (Timeline.since now e.created) ttl

/-- Looks up the parse of a content.  A hit becomes the most recently used entry. -/
def get [Timeline τ] (c : TreeCache τ) (now : τ) (path digest : String) : Lookup × TreeCache τ :=
  let k := key path digest
  match Assoc.get? c.entries k with
  | none => (.miss, { c with counts := { c.counts with misses := c.counts.misses + 1 } })
  | some e =>
    if c.expired now e then
      (.miss, { c with entries := Assoc.erase c.entries k
                       counts := { c.counts with misses := c.counts.misses + 1 } })
    else if e.file.digest ≠ digest ∨ e.file.path ≠ path then
      (.mismatch k, { c with entries := Assoc.erase c.entries k })
    else
      (.hit e.file, { c with entries := Assoc.erase c.entries k ++ [(k, e)]
                             counts := { c.counts with hits := c.counts.hits + 1 } })

/-- Drops so many of the least recently used entries. -/
def evict (c : TreeCache τ) (count : Int) : TreeCache τ :=
  let n := (min count (c.entries.length : Int)).toNat
  { c with
    entries := c.entries.drop n
    counts := { c.counts with evictions := c.counts.evictions + n } }

/-- Stores a parse as the most recently used entry, and makes room if the cache is too full. -/
def put (c : TreeCache τ) (now : τ) (path digest : String) (file : SourceFile) : TreeCache τ :=
  let k := key path digest
  let stored := { c with entries := Assoc.erase c.entries k ++ [(k, ⟨file, now⟩)] }
  let excess := (stored.entries.length : Int) - c.capacity
  if 0 < excess then stored.evict (max c.batch excess) else stored

/-- Drops every entry whose key starts with the path and a colon, and tells how many. -/
def invalidate (c : TreeCache τ) (path : String) : Nat × TreeCache τ :=
  let doomed (k : String) : Bool := (path ++ ":").toList.isPrefixOf k.toList
  let kept := c.entries.filter fun e => !doomed e.1
  (c.entries.length - kept.length, { c with entries := kept })

/-- Drops all entries. -/
def clear (c : TreeCache τ) : TreeCache τ :=
  { c with entries := [] }

/-- The keys, the least recently used first. -/
def keys (c : TreeCache τ) : List String :=
  Assoc.keys c.entries

/-- The number of entries. -/
def size (c : TreeCache τ) : Nat :=
  c.entries.length

/-- The share of lookups that were hits. -/
def Counts.hitRate (n : Counts) : Float :=
  let lookups := n.hits + n.misses
  if lookups == 0 then 0.0 else n.hits.toFloat / lookups.toFloat

/-- The counters as a dictionary.  Parsing takes no time on the clock of the run. -/
def statistics (c : TreeCache τ) : Dict :=
  [("files_parsed", .nat c.counts.parsed),
   ("cache_hits", .nat c.counts.hits),
   ("cache_misses", .nat c.counts.misses),
   ("parse_errors", .nat c.counts.faulty),
   ("partial_parses", .nat c.counts.recovered),
   ("provider_failures", .nat c.counts.grammarFailures),
   ("evictions", .nat c.counts.evictions),
   ("cache_bypasses", .nat c.counts.bypasses),
   ("total_parse_time", .float 0.0),
   ("hit_rate", .float c.counts.hitRate),
   ("size", .nat c.size),
   ("capacity", c.capacityShown),
   ("eviction_batch", c.batchShown)]

end TreeCache

end PhpAudit
