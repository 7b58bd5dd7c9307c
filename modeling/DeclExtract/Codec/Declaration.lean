import DeclExtract.Batch
import DeclExtract.Json.Decoder

/-!
# Declarations as JSON

For each type around declarations, how its values are written and how they are read. Every field is
written, an absent one as `null`; only the ordinal of a node is left out where there is none.
Reading is more lenient: fields with an obvious default may be missing, and a record may come as an
array.
-/

namespace DeclExtract

open Json

/-! ### Identities -/

namespace ObjectPath

/-- An object path as a record. -/
def toJson (p : ObjectPath) : Json :=
  record [("pkg_path", ofText p.package), ("obj_path", ofText p.object)]

/-- Reads an object path. -/
def decode : Decoder ObjectPath
  | 0, _ => none
  | _ + 1, j => do
    let r ← asRecord 2 j
    let package ← r.required 0 "pkg_path" asText
    let object ← r.required 1 "obj_path" asText
    some ⟨package, object⟩

end ObjectPath

namespace Position

/-- A position as a record. -/
def toJson (p : Position) : Json :=
  record [("file", ofText p.file), ("line", .natural p.line.toNat),
    ("column", ofOption (fun c ↦ .natural c.toNat) p.column)]

/-- Reads a position. -/
def decode : Decoder Position
  | 0, _ => none
  | _ + 1, j => do
    let r ← asRecord 3 j
    let file ← r.required 0 "file" asText
    let line ← r.required 1 "line" asWord32
    let column ← r.optional 2 "column" asWord32
    some ⟨file, line, column⟩

end Position

namespace Identity

/-- An identity under the name of its kind. -/
def toJson : Identity → Json
  | .path p => record [("path", p.toJson)]
  | .position p => record [("position", p.toJson)]

/-- Reads an identity. -/
def decode : Decoder Identity
  | 0, _ => none
  | budget + 1, j => do
    let (name, content) ← asVariant j
    match name with
    | "path" => (ObjectPath.decode budget content).map .path
    | "position" => (Position.decode budget content).map .position
    | _ => none

end Identity

/-! ### Nodes -/

namespace NodeKind

/-- A kind by its name. -/
def toJson (k : NodeKind) : Json :=
  ofText k.text

/-- Reads a kind. -/
def decode : Decoder NodeKind :=
  asAlternative named?

end NodeKind

namespace EdgeKind

/-- A kind of edge by its name. -/
def toJson (k : EdgeKind) : Json :=
  ofText k.text

/-- Reads a kind of edge. -/
def decode : Decoder EdgeKind :=
  asAlternative named?

end EdgeKind

namespace NamedType

/-- A named type as a record. -/
def toJson (t : NamedType) : Json :=
  record [("name", ofText t.name), ("methods", ofList Identity.toJson t.methods)]

/-- Reads a named type. -/
def decode : Decoder NamedType
  | 0, _ => none
  | budget + 1, j => do
    let r ← asRecord 2 j
    let name ← r.required 0 "name" asText
    let methods ← r.withDefault 1 "methods" [] (asList Identity.decode budget)
    some ⟨name, methods⟩

end NamedType

namespace Node

/-- A list of ids. -/
def idsToJson (ids : List Nat) : Json :=
  ofList .natural ids

/-- Reads a list of ids. -/
def decodeIds : Decoder (List Nat) :=
  asList fun _ ↦ asId

/-- A node as a record. -/
def toJson (n : Node) : Json :=
  record
    ([("id", .natural n.id), ("name", ofText n.name), ("exported", .bool n.exported),
      ("kind", n.kind.toJson), ("path", ofOption ObjectPath.toJson n.path),
      ("position", n.position.toJson), ("named_type", ofOption NamedType.toJson n.namedType),
      ("uses", idsToJson n.uses), ("owns", idsToJson n.owns)]
      ++ match n.subgraph with
        | some ordinal => [("subgraph", .natural ordinal)]
        | none => [])

/-- Reads a node. -/
def decode : Decoder Node
  | 0, _ => none
  | budget + 1, j => do
    let r ← asRecord 10 j
    let id ← r.required 0 "id" asId
    let name ← r.required 1 "name" asText
    let exported ← r.required 2 "exported" asBool
    let kind ← r.required 3 "kind" (NodeKind.decode budget)
    let path ← r.optional 4 "path" (ObjectPath.decode budget)
    let position ← r.withDefault 5 "position" {} (Position.decode budget)
    let namedType ← r.optional 6 "named_type" (NamedType.decode budget)
    let uses ← r.withDefault 7 "uses" [] (decodeIds budget)
    let owns ← r.withDefault 8 "owns" [] (decodeIds budget)
    let subgraph ← r.optional 9 "subgraph" asId
    some { id, name, exported, kind, path, position, namedType, uses, owns, subgraph }

end Node

/-! ### Batches -/

namespace Batch

/-- A batch as a record. -/
def toJson (b : Batch) : Json :=
  record [("nodes", ofList Node.toJson b.nodes)]

/-- Reads a batch. -/
def decode : Decoder Batch
  | 0, _ => none
  | budget + 1, j => do
    let r ← asRecord 1 j
    let nodes ← r.required 0 "nodes" (asList Node.decode budget)
    some ⟨nodes⟩

end Batch

end DeclExtract
