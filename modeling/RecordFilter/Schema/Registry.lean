import RecordFilter.Schema.Basic
import RecordFilter.Settings

/-!
# Compiled schemas and marked types

A `SchemaCache` keeps the schemas compiled so far under their type, depth and override flag.  Each
entry has a number of its own, so that a schema kept and one compiled again can be told apart.
Looking up (`SchemaCache.get?`) and keeping (`SchemaCache.insertIfAbsent`) are separate steps: an
entry is never replaced, and of two compilations under one key the first kept one counts.

A `Registry` is a cache, the settings, and the types marked for compilation in order of marking.
-/

namespace RecordFilter

/-- What a compiled schema is kept under. -/
structure SchemaKey where
  type : TypeExpr
  depth : Nat
  overrideIgnores : Bool
deriving Repr, DecidableEq

/-- A schema that was kept, and the number of its entry. -/
structure StoredSchema where
  number : Nat
  schema : Schema

/-- The schemas compiled so far; entries are numbered in order, also across a clearing. -/
structure SchemaCache where
  entries : List (SchemaKey × StoredSchema)
  nextNumber : Nat

namespace SchemaCache

/-- Nothing compiled yet. -/
def empty : SchemaCache := ⟨[], 0⟩

/-- The entry under a key. -/
def get? (c : SchemaCache) (key : SchemaKey) : Option StoredSchema := c.entries.lookup key

/-- Whether there is an entry under a key. -/
def contains (c : SchemaCache) (key : SchemaKey) : Bool := (c.get? key).isSome

/-- The number of entries. -/
def size (c : SchemaCache) : Nat := c.entries.length

/-- Drops all entries. -/
def clear (c : SchemaCache) : SchemaCache := { c with entries := [] }

/-- Keeps a schema unless there is an entry already; gives the entry. -/
def insertIfAbsent (c : SchemaCache) (key : SchemaKey) (schema : Schema) :
    StoredSchema × SchemaCache :=
  match c.get? key with
  | some stored => (stored, c)
  | none =>
    let stored := ⟨c.nextNumber, schema⟩
    (stored, ⟨c.entries ++ [(key, stored)], c.nextNumber + 1⟩)

/-- The entry for a type, compiled if there is none; an absent schema is not kept.  The key is the
identity in the type's descriptor. -/
def compile (c : SchemaCache) (F : TypeFamily) (t : TypeExpr) (depth : Nat)
    (overrideIgnores : Bool) : Option StoredSchema × SchemaCache :=
  let key := ⟨(F.describe t).id, depth, overrideIgnores⟩
  match c.get? key with
  | some stored => (some stored, c)
  | none =>
    match F.schema? t depth overrideIgnores with
    | none => (none, c)
    | some schema =>
      let (stored, c) := c.insertIfAbsent key schema
      (some stored, c)

end SchemaCache

/-- A cache with settings and marked types. -/
structure Registry where
  settings : Settings
  cache : SchemaCache
  marked : List TypeExpr

namespace Registry

/-- Nothing compiled and nothing marked. -/
def withSettings (settings : Settings) : Registry := ⟨settings, .empty, []⟩

/-- Marks a type, unless one with the same identity is marked. -/
def mark (r : Registry) (F : TypeFamily) (t : TypeExpr) : Registry :=
  if r.marked.any fun m => (F.describe m).id = (F.describe t).id then r
  else { r with marked := r.marked ++ [t] }

/-- Marks types in order. -/
def markAll (r : Registry) (F : TypeFamily) (ts : List TypeExpr) : Registry :=
  ts.foldl (fun r t => r.mark F t) r

/-- The entry for a type, compiled if there is none. -/
def compile (r : Registry) (F : TypeFamily) (t : TypeExpr) (depth : Nat)
    (overrideIgnores : Bool) : Option StoredSchema × Registry :=
  let (stored, cache) := r.cache.compile F t depth overrideIgnores
  (stored, { r with cache := cache })

/-- The entry for a type at the depth and with the override of the settings. -/
def compileDefault (r : Registry) (F : TypeFamily) (t : TypeExpr) :
    Option StoredSchema × Registry :=
  r.compile F t r.settings.defaultDepth.toNat r.settings.overrideIgnores

/-- The entries for types in order, those left out that have no schema. -/
def compileAll (r : Registry) (F : TypeFamily) (depth : Nat) (overrideIgnores : Bool) :
    List TypeExpr → List StoredSchema × Registry
  | [] => ([], r)
  | t :: ts =>
    let (stored, r) := r.compile F t depth overrideIgnores
    let (rest, r) := r.compileAll F depth overrideIgnores ts
    (stored.toList ++ rest, r)

/-- The entries for the marked types. -/
def compileMarked (r : Registry) (F : TypeFamily) (depth : Nat) : List StoredSchema × Registry :=
  r.compileAll F depth r.settings.overrideIgnores r.marked

/-- The entry kept for a type at a depth: the one that honours ignore markers before the other. -/
def getCompiled? (r : Registry) (t : TypeExpr) (depth : Nat) : Option StoredSchema :=
  r.cache.get? ⟨t, depth, false⟩ <|> r.cache.get? ⟨t, depth, true⟩

/-- Whether an entry is kept for a type at a depth. -/
def isCompiled (r : Registry) (t : TypeExpr) (depth : Nat) : Bool :=
  (r.getCompiled? t depth).isSome

end Registry

end RecordFilter
