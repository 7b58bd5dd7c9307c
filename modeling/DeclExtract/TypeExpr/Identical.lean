import DeclExtract.TypeExpr.Basic

/-!
# Identical types

Two types are identical if they are built alike. Basic and named types have to have equal names;
structs have to agree field by field, and signatures parameter by parameter and result by result.
Interfaces are compared as method sets: the two have equally many methods, and each method of the
first has a partner in the second with the same identifier and an identical signature. So the order
of methods plays no part, and neither does the declaration that a method comes from.
-/

namespace DeclExtract

mutual

/-- Whether two types are identical. -/
def TypeExpr.identical : TypeExpr → TypeExpr → Bool
  | .basic x, .basic y => x == y
  | .named p x, .named q y => p == q && x == y
  | .pointer s, .pointer t => s.identical t
  | .slice s, .slice t => s.identical t
  | .array m s, .array n t => m == n && s.identical t
  | .map k s, .map l t => k.identical l && s.identical t
  | .chan d s, .chan e t => d == e && s.identical t
  | .func s, .func t => s.identical t
  | .interface i, .interface j => i.identical j
  | .struct fs, .struct gs => TypeExpr.identicalFields fs gs
  | _, _ => false
termination_by structural s => s

/-- Whether two signatures are identical. -/
def Signature.identical : Signature → Signature → Bool
  | ⟨ps, rs, v⟩, ⟨qs, ss, w⟩ =>
    v == w && TypeExpr.identicalLists ps qs && TypeExpr.identicalLists rs ss
termination_by structural s => s

/-- Whether two interfaces are identical as method sets. -/
def Interface.identical : Interface → Interface → Bool
  | ⟨ms⟩, ⟨ns⟩ => ms.length == ns.length && Interface.covered ms ns
termination_by structural i => i

/-- Whether two lists of types are identical place by place. -/
def TypeExpr.identicalLists : List TypeExpr → List TypeExpr → Bool
  | [], [] => true
  | s :: ss, t :: ts => s.identical t && TypeExpr.identicalLists ss ts
  | _, _ => false
termination_by structural ss => ss

/-- Whether two lists of fields agree place by place. -/
def TypeExpr.identicalFields : List Field → List Field → Bool
  | [], [] => true
  | f :: fs, g :: gs => f.identical g && TypeExpr.identicalFields fs gs
  | _, _ => false
termination_by structural fs => fs

/-- Whether two fields agree: both or neither embedded, one identifier, and identical types. -/
def Field.identical : Field → Field → Bool
  | ⟨name, package, s, embedded⟩, g =>
    embedded == g.embedded && Identifier.same ⟨name, package⟩ g.identifier && s.identical g.type
termination_by structural f => f

/-- Whether each method of the first list has a partner in the second. -/
def Interface.covered : List Method → List Method → Bool
  | [], _ => true
  | m :: ms, ns => m.hasPartner ns && Interface.covered ms ns
termination_by structural ms => ms

/-- Whether some method of the list has the same identifier and an identical signature. -/
def Method.hasPartner : Method → List Method → Bool
  | ⟨name, package, s, _⟩, ns =>
    ns.any fun n ↦ n.identifier.same ⟨name, package⟩ && s.identical n.signature
termination_by structural m => m

end

end DeclExtract
