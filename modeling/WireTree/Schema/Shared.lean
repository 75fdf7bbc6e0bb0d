import WireTree.Schema.Build

/-!
# Shared schemas

A shared schema is replaced as a whole. Each replacement counts one version up, so two snapshots are one and the same
schema just when their versions are equal.
-/

namespace WireTree

/-- A schema together with the version that tells it from others of the same content. -/
structure Snapshot where
  schema : Schema
  version : Nat
deriving DecidableEq, Repr

/-- The current schema, which readers take snapshots of. -/
structure SharedSchema where
  current : Snapshot
deriving DecidableEq, Repr

namespace SharedSchema

def ofSchema (schema : Schema) : SharedSchema := ⟨⟨schema, 0⟩⟩

/-- The current schema, which later replacements do not touch. -/
def snapshot (shared : SharedSchema) : Snapshot := shared.current

/-- Puts a new schema in place of the current one, and gives the latter back. -/
def replace (shared : SharedSchema) (schema : Schema) : SharedSchema × Snapshot :=
  (⟨⟨schema, shared.current.version + 1⟩⟩, shared.current)

end SharedSchema

end WireTree
