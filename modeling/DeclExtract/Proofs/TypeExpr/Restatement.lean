import DeclExtract.Proofs.Lists
import DeclExtract.Proofs.TypeExpr.Identical

/-!
# What the comparison of types passes over

A type can be told in several ways that make no difference to whether it is identical to another
one: the methods of an interface may stand in another order, a method may come from another
declaration, and an exported name of a method or field may be recorded with another package.
`TypeExpr.Restates` holds of two types that differ in nothing else, at any depth and in any number
of places.

A type and a restatement of it are identical, each to the other (`TypeExpr.Restates.identical`),
since each method of an interface has its own restatement as a partner. By transitivity they are
then identical to the same types, whichever argument they stand in (`TypeExpr.identical_restated`).
A type restates itself, so identity is reflexive as well.
-/

namespace DeclExtract

/-! ### Telling a type in another way -/

mutual

/-- One type told in two ways: methods of interfaces may be reordered, and whatever
`Method.Restates` and `Field.Restates` allow may differ. -/
inductive TypeExpr.Restates : TypeExpr → TypeExpr → Prop where
  | basic (name : String) : TypeExpr.Restates (.basic name) (.basic name)
  | named (package : Option String) (name : String) :
    TypeExpr.Restates (.named package name) (.named package name)
  | pointer {s t : TypeExpr} (elem : TypeExpr.Restates s t) :
    TypeExpr.Restates (.pointer s) (.pointer t)
  | slice {s t : TypeExpr} (elem : TypeExpr.Restates s t) : TypeExpr.Restates (.slice s) (.slice t)
  | array {s t : TypeExpr} (len : UInt64) (elem : TypeExpr.Restates s t) :
    TypeExpr.Restates (.array len s) (.array len t)
  | map {k l s t : TypeExpr} (key : TypeExpr.Restates k l) (value : TypeExpr.Restates s t) :
    TypeExpr.Restates (.map k s) (.map l t)
  | chan {s t : TypeExpr} (dir : Direction) (elem : TypeExpr.Restates s t) :
    TypeExpr.Restates (.chan dir s) (.chan dir t)
  | func {a b : Signature} (signature : Signature.Restates a b) :
    TypeExpr.Restates (.func a) (.func b)
  | interface {i j : Interface} {reordered : List Method} (order : i.methods.Perm reordered)
    (methods : List.Forall₂ Method.Restates reordered j.methods) :
    TypeExpr.Restates (.interface i) (.interface j)
  | struct {fs gs : List Field} (fields : List.Forall₂ Field.Restates fs gs) :
    TypeExpr.Restates (.struct fs) (.struct gs)

/-- One signature told in two ways: the types in it are. -/
inductive Signature.Restates : Signature → Signature → Prop where
  | mk {a b : Signature} (params : List.Forall₂ TypeExpr.Restates a.params b.params)
    (results : List.Forall₂ TypeExpr.Restates a.results b.results)
    (variadic : a.variadic = b.variadic) : Signature.Restates a b

/-- One method told in two ways: the package of an exported name may differ, and so may the
declaration that the method comes from. -/
inductive Method.Restates : Method → Method → Prop where
  | mk {m n : Method} (name : m.name = n.name)
    (package : m.package = n.package ∨ m.identifier.exported = true)
    (signature : Signature.Restates m.signature n.signature) : Method.Restates m n

/-- One field told in two ways: the package of an exported name may differ. -/
inductive Field.Restates : Field → Field → Prop where
  | mk {f g : Field} (name : f.name = g.name)
    (package : f.package = g.package ∨ f.identifier.exported = true)
    (type : TypeExpr.Restates f.type g.type) (embedded : f.embedded = g.embedded) :
    Field.Restates f g

end

variable {s s' t t' : TypeExpr} {a b : Signature}

/-- A signature restates itself if the types in it do. -/
theorem Signature.Restates.refl_of_types (h : ∀ t ∈ a.types, t.Restates t) : a.Restates a :=
  .mk (List.forall₂_same.mpr fun p hp ↦ h p (List.mem_append_left _ hp))
    (List.forall₂_same.mpr fun r hr ↦ h r (List.mem_append_right _ hr)) rfl

/-- A type restates itself. -/
theorem TypeExpr.Restates.refl (t : TypeExpr) : t.Restates t := by
  induction t using TypeExpr.inductionOn with
  | basic name => exact .basic name
  | named package name => exact .named package name
  | pointer elem ih => exact .pointer ih
  | slice elem ih => exact .slice ih
  | array len elem ih => exact .array len ih
  | map key value ihkey ihvalue => exact .map ihkey ihvalue
  | chan dir elem ih => exact .chan dir ih
  | func a ih => exact .func (.refl_of_types ih)
  | interface i ih =>
    exact .interface (.refl _)
      (List.forall₂_same.mpr fun m hm ↦ .mk rfl (Or.inl rfl) (.refl_of_types (ih m hm)))
  | struct fs ih =>
    exact .struct (List.forall₂_same.mpr fun f hf ↦ .mk rfl (Or.inl rfl) (ih f hf) rfl)

/-! ### A type and its restatement -/

/-- Each of two types is identical to the other. -/
def TypeExpr.MutuallyIdentical (s t : TypeExpr) : Prop :=
  s.identical t = true ∧ t.identical s = true

/-- A signature and a restatement of it are identical if this holds of each type in the
signature. -/
theorem Signature.Restates.identical_of_types (h : a.Restates b)
    (htypes : ∀ s ∈ a.types, ∀ t, s.Restates t → s.MutuallyIdentical t) :
    a.identical b = true ∧ b.identical a = true := by
  obtain ⟨params, results, variadic⟩ := h
  have hparams : List.Forall₂ TypeExpr.MutuallyIdentical a.params b.params :=
    forall₂_imp_of_mem params fun s hs ↦ htypes s (List.mem_append_left _ hs)
  have hresults : List.Forall₂ TypeExpr.MutuallyIdentical a.results b.results :=
    forall₂_imp_of_mem results fun s hs ↦ htypes s (List.mem_append_right _ hs)
  exact ⟨Signature.identical_iff.mpr
    ⟨variadic, hparams.imp fun _ _ h ↦ h.1, hresults.imp fun _ _ h ↦ h.1⟩,
    Signature.identical_iff.mpr
      ⟨variadic.symm, (hparams.imp fun _ _ h ↦ h.2).flip, (hresults.imp fun _ _ h ↦ h.2).flip⟩⟩

/-- A method and a restatement of it have one identifier. -/
theorem Method.Restates.same {m n : Method} (h : m.Restates n) :
    n.identifier.same m.identifier = true ∧ m.identifier.same n.identifier = true := by
  obtain ⟨name, package, -⟩ := h
  have hsame : m.identifier.same n.identifier = true := Identifier.same_iff.mpr ⟨name, package.symm⟩
  exact ⟨Identifier.same_symm hsame, hsame⟩

/-- **A type and a restatement of it are identical, each to the other.** -/
theorem TypeExpr.Restates.identical (h : s.Restates t) : s.MutuallyIdentical t := by
  induction s using TypeExpr.inductionOn generalizing t with
  | basic name =>
    cases h
    exact ⟨identical_basic_iff.mpr rfl, identical_basic_iff.mpr rfl⟩
  | named package name =>
    cases h
    exact ⟨identical_named_iff.mpr rfl, identical_named_iff.mpr rfl⟩
  | pointer elem ih =>
    cases h with
    | pointer helem =>
      exact (ih helem).imp (identical_pointer_iff.mpr ⟨_, rfl, ·⟩)
        (identical_pointer_iff.mpr ⟨_, rfl, ·⟩)
  | slice elem ih =>
    cases h with
    | slice helem =>
      exact (ih helem).imp (identical_slice_iff.mpr ⟨_, rfl, ·⟩)
        (identical_slice_iff.mpr ⟨_, rfl, ·⟩)
  | array len elem ih =>
    cases h with
    | array _ helem =>
      exact (ih helem).imp (identical_array_iff.mpr ⟨_, rfl, ·⟩)
        (identical_array_iff.mpr ⟨_, rfl, ·⟩)
  | map key value ihkey ihvalue =>
    cases h with
    | map hkey hvalue =>
      obtain ⟨hkey, hkey'⟩ := ihkey hkey
      obtain ⟨hvalue, hvalue'⟩ := ihvalue hvalue
      exact ⟨identical_map_iff.mpr ⟨_, _, rfl, hkey, hvalue⟩,
        identical_map_iff.mpr ⟨_, _, rfl, hkey', hvalue'⟩⟩
  | chan dir elem ih =>
    cases h with
    | chan _ helem =>
      exact (ih helem).imp (identical_chan_iff.mpr ⟨_, rfl, ·⟩) (identical_chan_iff.mpr ⟨_, rfl, ·⟩)
  | func a ih =>
    cases h with
    | func hsignature =>
      exact (hsignature.identical_of_types fun s hs t ↦ ih s hs).imp
        (identical_func_iff.mpr ⟨_, rfl, ·⟩) (identical_func_iff.mpr ⟨_, rfl, ·⟩)
  | interface i ih =>
    cases h with
    | @interface _ j reordered horder hmethods =>
      have hlength : i.methods.length = j.methods.length :=
        horder.length_eq.trans hmethods.length_eq
      have hsignature (m : Method) (hm : m ∈ i.methods) (n : Method) (hmn : m.Restates n) :
          m.signature.identical n.signature = true ∧ n.signature.identical m.signature = true := by
        obtain ⟨-, -, signature⟩ := hmn
        exact signature.identical_of_types fun s hs t ↦ ih m hm s hs
      refine ⟨identical_interface_iff.mpr
        ⟨j, rfl, Interface.identical_iff.mpr ⟨hlength, fun m hm ↦ ?_⟩⟩,
        identical_interface_iff.mpr
        ⟨i, rfl, Interface.identical_iff.mpr ⟨hlength.symm, fun n hn ↦ ?_⟩⟩⟩
      · obtain ⟨n, hn, hmn⟩ := exists_of_forall₂ hmethods (horder.mem_iff.mp hm)
        exact ⟨n, hn, hmn.same.1, (hsignature m hm n hmn).1⟩
      · obtain ⟨m, hm, hmn⟩ := exists_of_forall₂ (r := flip Method.Restates) hmethods.flip hn
        have hm := horder.mem_iff.mpr hm
        exact ⟨m, hm, hmn.same.2, (hsignature m hm n hmn).2⟩
  | struct fs ih =>
    cases h with
    | @struct _ gs hfields =>
      have hagree : List.Forall₂ (fun f g ↦ f.identical g = true ∧ g.identical f = true) fs gs := by
        refine forall₂_imp_of_mem hfields fun f hf g hfg ↦ ?_
        obtain ⟨name, package, type, embedded⟩ := hfg
        have hsame : f.identifier.same g.identifier = true :=
          Identifier.same_iff.mpr ⟨name, package.symm⟩
        obtain ⟨htype, htype'⟩ := ih f hf type
        exact ⟨Field.identical_iff.mpr ⟨embedded, hsame, htype⟩,
          Field.identical_iff.mpr ⟨embedded.symm, Identifier.same_symm hsame, htype'⟩⟩
      exact ⟨identical_struct_iff.mpr ⟨gs, rfl, hagree.imp fun _ _ h ↦ h.1⟩,
        identical_struct_iff.mpr ⟨fs, rfl, (hagree.imp fun _ _ h ↦ h.2).flip⟩⟩

/-! ### The comparison of types -/

/-- **Identity of types is reflexive.** -/
theorem TypeExpr.identical_refl (t : TypeExpr) : t.identical t = true :=
  (Restates.refl t).identical.1

/-- Signatures are compared as function types are. -/
theorem Signature.identical_func (a b : Signature) :
    (TypeExpr.func a).identical (.func b) = a.identical b := by
  simp [TypeExpr.identical]

/-- **Identity of signatures is reflexive.** -/
theorem Signature.identical_refl (a : Signature) : a.identical a = true :=
  Signature.identical_func a a ▸ TypeExpr.identical_refl (.func a)

/-- **Types are compared up to restatement.** -/
theorem TypeExpr.identical_restated (hs : s.Restates s') (ht : t.Restates t') :
    s'.identical t' = s.identical t := by
  obtain ⟨hss', hs's⟩ := hs.identical
  obtain ⟨htt', ht't⟩ := ht.identical
  refine Bool.eq_iff_iff.mpr ⟨fun h ↦ ?_, fun h ↦ ?_⟩
  · exact identical_trans hss' (identical_trans h ht't)
  · exact identical_trans hs's (identical_trans h htt')

/-- **Signatures are compared up to restatement.** -/
theorem Signature.identical_restated {a a' b b' : Signature} (ha : a.Restates a')
    (hb : b.Restates b') : a'.identical b' = a.identical b := by
  rw [← Signature.identical_func, ← Signature.identical_func]
  exact TypeExpr.identical_restated (.func ha) (.func hb)

/-- **Identity is a preorder on types and on signatures, up to restatement.** -/
theorem identical_preorder :
    (∀ s : TypeExpr, s.identical s = true) ∧
    (∀ s t u : TypeExpr, s.identical t = true → t.identical u = true → s.identical u = true) ∧
    (∀ s s' t t' : TypeExpr, s.Restates s' → t.Restates t' → s'.identical t' = s.identical t) ∧
    (∀ a : Signature, a.identical a = true) ∧
    (∀ a b c : Signature, a.identical b = true → b.identical c = true → a.identical c = true) ∧
    (∀ a a' b b' : Signature, a.Restates a' → b.Restates b' → a'.identical b' = a.identical b) :=
  ⟨TypeExpr.identical_refl, fun _ _ _ ↦ TypeExpr.identical_trans,
    fun _ _ _ _ ↦ TypeExpr.identical_restated, Signature.identical_refl, fun _ _ _ ↦
    Signature.identical_trans, fun _ _ _ _ ↦ Signature.identical_restated⟩

/-- A method without parameters, as a package declares it. -/
def getter (package name : String) (result : TypeExpr) : Method :=
  ⟨name, some package, ⟨[], [result], false⟩, some (.path ⟨package, name⟩)⟩

/-- A struct around interfaces with the given methods, as a package declares it. -/
def holder (package : String) (methods : List Method) : TypeExpr :=
  .struct [⟨"Items", some package, .slice (.interface ⟨methods⟩), true⟩]

/-- A holder of what can be stepped through and closed. -/
def osHolder : TypeExpr :=
  holder "os" [getter "os" "Next" (.basic "byte"), getter "os" "Close" (.named none "error")]

/-- The same from another package, with the methods in the other order. -/
def netHolder : TypeExpr :=
  holder "net" [getter "net" "Close" (.named none "error"), getter "net" "Next" (.basic "byte")]

theorem identical_preorder_holder :
    osHolder.Restates netHolder ∧ netHolder.identical osHolder = true ∧
    osHolder.identical osHolder = true ∧
    Signature.identical ⟨[osHolder], [], true⟩ ⟨[netHolder], [], true⟩ = true := by
  have hgetter (name : String) (result : TypeExpr) (hname : Text.startsUppercase name = true) :
      (getter "os" name result).Restates (getter "net" name result) :=
    .mk rfl (Or.inr hname) (.mk .nil (.cons (.refl result) .nil) rfl)
  have hholder : osHolder.Restates netHolder :=
    .struct (.cons (.mk rfl (Or.inr (by decide +kernel)) (.slice (.interface (.swap _ _ [])
      (.cons (hgetter "Close" (.named none "error") (by decide +kernel))
        (.cons (hgetter "Next" (.basic "byte") (by decide +kernel)) .nil)))) rfl) .nil)
  have hsignature : Signature.Restates ⟨[osHolder], [], true⟩ ⟨[netHolder], [], true⟩ :=
    .mk (.cons hholder .nil) .nil rfl
  obtain ⟨hrefl, htrans, hrestated, hrefl', -, hrestated'⟩ := identical_preorder
  have hback : netHolder.identical osHolder = true :=
    (hrestated _ _ _ _ hholder (.refl osHolder)).trans (hrefl osHolder)
  have hforth : osHolder.identical netHolder = true :=
    (hrestated _ _ _ _ (.refl osHolder) hholder).trans (hrefl osHolder)
  refine ⟨hholder, hback, htrans osHolder netHolder osHolder hforth hback, ?_⟩
  exact (hrestated' _ _ _ _ (.mk (.cons (.refl osHolder) .nil) .nil rfl) hsignature).trans
    (hrefl' _)

end DeclExtract
