import Attestation.Data.Subject
import Attestation.Source.Map

/-!
# What a compilation may draw on

The schemas and the data that are supplied, each by name. A schema that is not supplied may be built
in. The rules of the supplied schemas are texts of their own: they are added to the source map, as
far as that has room, and the number of each is kept under the name its schema has for itself.
-/

namespace Attestation

/-- Schemas and data by name. -/
structure DataContext where
  schemas : Table Schema
  /-- Data of witness subjects by alias. -/
  witness : Table Accessor
  /-- Disclosed data by alias. -/
  disclosed : Table Accessor
  /-- The numbers of the sources of rules, by the name of the schema. -/
  ruleSources : Table Nat

namespace DataContext

/-- A schema that is supplied or built in. -/
def schema? (context : DataContext) (name : String) : Option Schema :=
  match context.schemas.find? name with
  | some schema => some schema
  | none => Schema.builtin? name

/-- Adds the rule of a schema, if it has one. -/
def registerRule? (state : DataContext × SourceMap) (schema : Schema) :
    Option (DataContext × SourceMap) :=
  match schema.rule with
  | none => some state
  | some rule => do
    let (context, sources) := state
    let added ← sources.add? rule.source rule.text
    return ({ context with ruleSources := context.ruleSources.insert schema.name sources.size },
      added)

/-- Adds the rules of all supplied schemas, if there is room for them. -/
def registerRules? (context : DataContext) (sources : SourceMap) :
    Option (DataContext × SourceMap) :=
  context.schemas.foldlM (fun state (_, schema) => registerRule? state schema) (context, sources)

/-- The number of the source a schema's rule was added as. -/
def ruleSource? (context : DataContext) (schema : Schema) : Option Nat :=
  context.ruleSources.find? schema.name

end DataContext

end Attestation
