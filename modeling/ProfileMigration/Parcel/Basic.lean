/-
  ProfileMigration.Parcel.Basic

  Parcels, the typed configuration objects of feature profiles:

    Parcel              -- name, type and field tree, with the generated identifier
    Parcel.references   -- the objects it refers to, each once
    Parcel.request      -- the body to create it with, references bound
    Parcel.toJson / ofDocument

  This models `Parcel` with `references` and `to_request`.
-/
import ProfileMigration.Field.References
import ProfileMigration.Parcel.Kind

namespace ProfileMigration

/-- A typed configuration object. -/
structure Parcel where
  /-- The identifier generated in conversion, for references before the push. -/
  id : Option Uuid
  name : String
  description : Option String
  type : ParcelType
  data : FieldMap
deriving DecidableEq

namespace Parcel

/-- The objects it refers to, each once. -/
def references (p : Parcel) : List Uuid := p.data.references

/-- The body to create it with; every reference must have a remote identifier. -/
def request (p : Parcel) (ids : RemoteIds) : Except Uuid Json :=
  (p.data.bind ids).map fun data =>
    .obj ([("data", data.toJson)] ++ Wire.member? "description" (p.description.map .str) ++
      [("name", .str p.name)])

def toJson (p : Parcel) : Json :=
  .obj (Wire.member? "id" (p.id.map fun id => .str id.text) ++ [("name", .str p.name)] ++
    Wire.member? "description" (p.description.map .str) ++
    [("type", p.type.toJson), ("data", p.data.toJson)])

/-- Reads a field tree. -/
def readData : Wire.Reader FieldMap := fun d => do
  match FieldMap.ofJson? (← Wire.written d) with
  | some m => .ok m
  | none => .error (.malformed "a tree of fields")

def ofDocument : Wire.Reader Parcel :=
  Wire.record "Parcel" 5 fun row =>
    Parcel.mk <$> row.optional 0 "id" Wire.uuid <*> row.required 1 "name" Wire.text
      <*> row.optional 2 "description" Wire.text <*> row.required 3 "type" ParcelType.ofDocument
      <*> row.required 4 "data" readData

end Parcel

end ProfileMigration
