import DeclExtract.Codec.Declaration
import DeclExtract.TypeExpr.Satisfaction

/-!
# Types as JSON

How types, signatures, methods and interfaces are written and read. A type is an object whose only
key says how the type is built. Reading follows the type as deep as its budget allows. The parts of
a type that has several are named; in a text they may also be given by their places (`asContent`).
-/

namespace DeclExtract

open Json

namespace Direction

/-- A direction by its name. -/
def toJson (d : Direction) : Json :=
  ofText d.text

/-- Reads a direction. -/
def decode : Decoder Direction :=
  asAlternative named?

end Direction

/-! ### Writing -/

mutual

/-- A type under the name of its constructor. -/
def TypeExpr.toJson : TypeExpr → Json
  | .basic name => record [("basic", ofText name)]
  | .named package name =>
    record [("named", record [("package", ofOption ofText package), ("name", ofText name)])]
  | .pointer elem => record [("pointer", elem.toJson)]
  | .slice elem => record [("slice", elem.toJson)]
  | .array len elem =>
    record [("array", record [("len", .natural len.toNat), ("elem", elem.toJson)])]
  | .map key value => record [("map", record [("key", key.toJson), ("value", value.toJson)])]
  | .chan dir elem => record [("chan", record [("dir", dir.toJson), ("elem", elem.toJson)])]
  | .func signature => record [("func", signature.toJson)]
  | .interface i => record [("interface", i.toJson)]
  | .struct fields => record [("struct", .array (Field.allToJson fields))]
termination_by structural t => t

/-- A signature as a record. -/
def Signature.toJson : Signature → Json
  | ⟨params, results, variadic⟩ =>
    record [("params", .array (TypeExpr.allToJson params)),
      ("results", .array (TypeExpr.allToJson results)), ("variadic", .bool variadic)]
termination_by structural s => s

/-- A method as a record. -/
def Method.toJson : Method → Json
  | ⟨name, package, signature, identity⟩ =>
    record [("name", ofText name), ("package", ofOption ofText package),
      ("signature", signature.toJson), ("identity", ofOption Identity.toJson identity)]
termination_by structural m => m

/-- An interface as a record. -/
def Interface.toJson : Interface → Json
  | ⟨methods⟩ => record [("methods", .array (Method.allToJson methods))]
termination_by structural i => i

/-- A field as a record. -/
def Field.toJson : Field → Json
  | ⟨name, package, type, embedded⟩ =>
    record [("name", ofText name), ("package", ofOption ofText package), ("ty", type.toJson),
      ("embedded", .bool embedded)]
termination_by structural f => f

/-- Each type of a list. -/
def TypeExpr.allToJson : List TypeExpr → List Json
  | [] => []
  | t :: ts => t.toJson :: TypeExpr.allToJson ts
termination_by structural ts => ts

/-- Each method of a list. -/
def Method.allToJson : List Method → List Json
  | [] => []
  | m :: ms => m.toJson :: Method.allToJson ms
termination_by structural ms => ms

/-- Each field of a list. -/
def Field.allToJson : List Field → List Json
  | [] => []
  | f :: fs => f.toJson :: Field.allToJson fs
termination_by structural fs => fs

end

/-! ### Reading -/

/-- Reads the package and name of a named type. -/
def TypeExpr.decodeNamed (origin : Origin) : Nat → Json → Option TypeExpr
  | 0, _ => none
  | _ + 1, j => do
    let r ← asContent origin 2 j
    let package ← r.optional 0 "package" asText
    let name ← r.required 1 "name" asText
    some (.named package name)

mutual

/-- Reads a type. -/
def TypeExpr.decode (origin : Origin) : Nat → Json → Option TypeExpr
  | 0, _ => none
  | budget + 1, j => do
    let (name, content) ← asVariant j
    match name with
    | "basic" => (asText content).map .basic
    | "named" => TypeExpr.decodeNamed origin budget content
    | "pointer" => (TypeExpr.decode origin budget content).map .pointer
    | "slice" => (TypeExpr.decode origin budget content).map .slice
    | "array" => TypeExpr.decodeArray origin budget content
    | "map" => TypeExpr.decodeMap origin budget content
    | "chan" => TypeExpr.decodeChan origin budget content
    | "func" => (Signature.decode origin budget content).map .func
    | "interface" => (Interface.decode origin budget content).map .interface
    | "struct" => (Field.decodeAll origin budget content).map .struct
    | _ => none
termination_by structural budget => budget

/-- Reads the length and element type of an array type. -/
def TypeExpr.decodeArray (origin : Origin) : Nat → Json → Option TypeExpr
  | 0, _ => none
  | budget + 1, j => do
    let r ← asContent origin 2 j
    let len ← r.required 0 "len" asWord64
    let elem ← r.required 1 "elem" (TypeExpr.decode origin budget)
    some (.array len elem)
termination_by structural budget => budget

/-- Reads the key and value types of a map type. -/
def TypeExpr.decodeMap (origin : Origin) : Nat → Json → Option TypeExpr
  | 0, _ => none
  | budget + 1, j => do
    let r ← asContent origin 2 j
    let key ← r.required 0 "key" (TypeExpr.decode origin budget)
    let value ← r.required 1 "value" (TypeExpr.decode origin budget)
    some (.map key value)
termination_by structural budget => budget

/-- Reads the direction and element type of a channel type. -/
def TypeExpr.decodeChan (origin : Origin) : Nat → Json → Option TypeExpr
  | 0, _ => none
  | budget + 1, j => do
    let r ← asContent origin 2 j
    let dir ← r.required 0 "dir" (Direction.decode budget)
    let elem ← r.required 1 "elem" (TypeExpr.decode origin budget)
    some (.chan dir elem)
termination_by structural budget => budget

/-- Reads a signature. -/
def Signature.decode (origin : Origin) : Nat → Json → Option Signature
  | 0, _ => none
  | budget + 1, j => do
    let r ← asRecord 3 j
    let params ← r.withDefault 0 "params" [] (TypeExpr.decodeAll origin budget)
    let results ← r.withDefault 1 "results" [] (TypeExpr.decodeAll origin budget)
    let variadic ← r.withDefault 2 "variadic" false asBool
    some ⟨params, results, variadic⟩
termination_by structural budget => budget

/-- Reads a method. -/
def Method.decode (origin : Origin) : Nat → Json → Option Method
  | 0, _ => none
  | budget + 1, j => do
    let r ← asRecord 4 j
    let name ← r.required 0 "name" asText
    let package ← r.optional 1 "package" asText
    let signature ← r.required 2 "signature" (Signature.decode origin budget)
    let identity ← r.optional 3 "identity" (Identity.decode budget)
    some ⟨name, package, signature, identity⟩
termination_by structural budget => budget

/-- Reads an interface. -/
def Interface.decode (origin : Origin) : Nat → Json → Option Interface
  | 0, _ => none
  | budget + 1, j => do
    let r ← asRecord 1 j
    let methods ← r.withDefault 0 "methods" [] (Method.decodeAll origin budget)
    some ⟨methods⟩
termination_by structural budget => budget

/-- Reads a field. -/
def Field.decode (origin : Origin) : Nat → Json → Option Field
  | 0, _ => none
  | budget + 1, j => do
    let r ← asRecord 4 j
    let name ← r.required 0 "name" asText
    let package ← r.optional 1 "package" asText
    let type ← r.required 2 "ty" (TypeExpr.decode origin budget)
    let embedded ← r.withDefault 3 "embedded" false asBool
    some ⟨name, package, type, embedded⟩
termination_by structural budget => budget

/-- Reads a list of types. -/
def TypeExpr.decodeAll (origin : Origin) : Nat → Json → Option (List TypeExpr)
  | budget + 1, .array items => items.mapM (TypeExpr.decode origin budget)
  | _, _ => none
termination_by structural budget => budget

/-- Reads a list of methods. -/
def Method.decodeAll (origin : Origin) : Nat → Json → Option (List Method)
  | budget + 1, .array items => items.mapM (Method.decode origin budget)
  | _, _ => none
termination_by structural budget => budget

/-- Reads a list of fields. -/
def Field.decodeAll (origin : Origin) : Nat → Json → Option (List Field)
  | budget + 1, .array items => items.mapM (Field.decode origin budget)
  | _, _ => none
termination_by structural budget => budget

end

/-! ### Method sets and bindings -/

namespace MethodSet

/-- A method set as a record. -/
def toJson (s : MethodSet) : Json :=
  record [("methods", ofList Method.toJson s.methods)]

/-- Reads a method set. -/
def decode (origin : Origin) : Decoder MethodSet
  | 0, _ => none
  | budget + 1, j => do
    let r ← asRecord 1 j
    let methods ← r.withDefault 0 "methods" [] (asList (Method.decode origin) budget)
    some ⟨methods⟩

end MethodSet

namespace Binding

/-- A binding as a record. -/
def toJson (b : Binding) : Json :=
  record [("interface_method", b.required.toJson), ("method", b.provided.toJson)]

end Binding

end DeclExtract
