import WireTree.Proofs.Lookup

/-!
# Where references lead

In a schema that was built every type knows its place, and every field that refers to a type refers to one of the schema.
Both hold of the schema with tables, which is exact, and pass on to the schema without them.
-/

namespace WireTree

/-- The type that the field refers to, if it refers to one, is in the schema. -/
def Schema.Resolves (schema : Schema) (field : FieldDescription) : Prop :=
  match field.typeRef with
  | some (.message ref) => ref.index < schema.messages.length
  | some (.enum ref) => ref.index < schema.enums.length
  | none => True

/-- Every message type is where its own reference says, and its fields refer to types of the schema. -/
structure Schema.Linked (schema : Schema) : Prop where
  ref : ∀ ref type, schema.message? ref = some type → type.ref = ref
  fields : ∀ type ∈ schema.messages, ∀ entry ∈ type.fields, schema.Resolves entry.2

theorem TypeRef.Fits.resolves {schema : Schema} {field : FieldDescription} {ref : TypeRef} {type : FieldType}
    (h : ref.Fits schema.messages.length schema.enums.length type) (href : field.typeRef = some ref) :
    schema.Resolves field := by
  rw [Schema.Resolves, href]
  cases h with
  | message _ hrange => exact hrange
  | group _ hrange => exact hrange
  | enum _ hrange => exact hrange

namespace IndexedSchema

variable {indexed : IndexedSchema}

theorem Exact.linked (h : indexed.Exact) : indexed.schema.Linked where
  ref ref type htype := by
    rw [message?_schema] at htype
    obtain ⟨message, hmessage, rfl⟩ := Option.map_eq_some_iff.1 htype
    exact (h.messages _ _ hmessage).ref
  fields type htype entry hentry := by
    obtain ⟨message, hmem, rfl⟩ := List.mem_map.1 htype
    obtain ⟨place, hplace⟩ := List.mem_iff_getElem?.1 hmem
    have hexact := h.messages place message hplace
    have hfield : message.field? entry.1 = some entry.2 := (Table.get?_eq_some_iff hexact.ascending).2 hentry
    cases href : entry.2.typeRef with
    | none => simp only [Schema.Resolves, href]
    | some ref =>
      have hfits := hexact.typeRef entry.1 entry.2 hfield ref href
      rw [← List.length_map (·.type)] at hfits
      exact hfits.resolves href

end IndexedSchema

namespace Schema

theorem linked_build (steps : List BuildStep) : (build steps).Linked := by
  rw [← IndexedSchema.schema_build]
  exact (IndexedSchema.exact_build steps).linked

variable {schema : Schema} {type : MessageType}

theorem Linked.message?_ref (hlinked : schema.Linked) (htype : type ∈ schema.messages) :
    schema.message? type.ref = some type := by
  obtain ⟨index, hindex⟩ := List.mem_iff_getElem?.1 htype
  rw [hlinked.ref ⟨index⟩ type hindex]
  exact hindex

theorem Linked.resolves_of_field? (hlinked : schema.Linked) (htype : type ∈ schema.messages) {number : Nat}
    {field : FieldDescription} (hfield : type.field? number = some field) : schema.Resolves field :=
  hlinked.fields type htype (number, field) (Table.mem_of_get? hfield)

end Schema

end WireTree
