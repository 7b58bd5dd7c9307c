import Mathlib.Data.List.Forall2
import DeclExtract.TypeExpr.Identical

/-!
# What identical types have in common

The comparison of types descends through lists of types, fields and methods. Here it is brought into
a form in which a list is compared by its members: place by place where order counts
(`List.Forall₂`), and by a partner for each member where it does not (`Interface.identical_iff`). A
type that is identical to one built by a constructor is built by the same constructor, from
identical parts (`TypeExpr.identical_pointer_iff` and its like).

A proof about all types is by induction on the types inside (`TypeExpr.inductionOn`). The first of
them is that identity is transitive (`TypeExpr.identical_trans`). Interfaces may repeat a method;
partners are composed one by one, so this does no harm.
-/

namespace DeclExtract

/-! ### Identifiers -/

namespace Identifier

variable {i j k : Identifier}

theorem same_refl (i : Identifier) : i.same i = true :=
  same_iff.mpr ⟨rfl, Or.inr rfl⟩

theorem same_symm (h : i.same j = true) : j.same i = true := by
  obtain ⟨hname, hscope⟩ := same_iff.mp h
  refine same_iff.mpr ⟨hname.symm, hscope.imp (fun hexported ↦ ?_) Eq.symm⟩
  rwa [exported, ← hname]

theorem same_comm (i j : Identifier) : i.same j = j.same i :=
  Bool.eq_iff_iff.mpr ⟨same_symm, same_symm⟩

theorem same_trans (hij : i.same j = true) (hjk : j.same k = true) : i.same k = true := by
  obtain ⟨hname, hscope⟩ := same_iff.mp hij
  obtain ⟨hname', hscope'⟩ := same_iff.mp hjk
  refine same_iff.mpr ⟨hname.trans hname', ?_⟩
  -- the two names are spelled alike, so either both are exported or neither is
  have hexported : j.exported = i.exported := by rw [exported, ← hname, exported]
  rw [hexported] at hscope'
  rcases hscope with hscope | hpackage
  · exact Or.inl hscope
  · exact hscope'.imp_right hpackage.trans

/-- What is one with the first of two identifiers that are one is one with the second. -/
theorem same_congr_right (h : i.same j = true) (k : Identifier) : k.same i = k.same j :=
  Bool.eq_iff_iff.mpr ⟨fun hki ↦ same_trans hki h, fun hkj ↦ same_trans hkj (same_symm h)⟩

end Identifier

/-! ### Types inside a type -/

/-- The types of the parameters and of the results. -/
def Signature.types (s : Signature) : List TypeExpr :=
  s.params ++ s.results

/-- **Induction on the types inside a type.** Those of a function type and of the methods of an
interface are the types of parameters and results; those of a struct are the types of its fields. -/
theorem TypeExpr.inductionOn {motive : TypeExpr → Prop} (t : TypeExpr)
    (basic : ∀ name, motive (.basic name))
    (named : ∀ package name, motive (.named package name))
    (pointer : ∀ elem, motive elem → motive (.pointer elem))
    (slice : ∀ elem, motive elem → motive (.slice elem))
    (array : ∀ len elem, motive elem → motive (.array len elem))
    (map : ∀ key value, motive key → motive value → motive (.map key value))
    (chan : ∀ dir elem, motive elem → motive (.chan dir elem))
    (func : ∀ s, (∀ t ∈ s.types, motive t) → motive (.func s))
    (interface : ∀ i, (∀ m ∈ i.methods, ∀ t ∈ m.signature.types, motive t) → motive (.interface i))
    (struct : ∀ fields, (∀ f ∈ fields, motive f.type) → motive (.struct fields)) : motive t := by
  let Inside (s : Signature) : Prop := ∀ t ∈ s.types, motive t
  have hnil {α : Type} {p : α → Prop} : ∀ x ∈ ([] : List α), p x := fun _ h ↦ nomatch h
  have hcons {α : Type} {p : α → Prop} (x : α) (xs : List α) (hx : p x) (hxs : ∀ y ∈ xs, p y) :
      ∀ y ∈ x :: xs, p y := List.forall_mem_cons.mpr ⟨hx, hxs⟩
  have hsignature (ps rs : List TypeExpr) (variadic : Bool) (hps : ∀ t ∈ ps, motive t)
    (hrs : ∀ t ∈ rs, motive t) :
      Inside ⟨ps, rs, variadic⟩ := fun t ht ↦ (List.mem_append.mp ht).elim (hps t) (hrs t)
  exact @TypeExpr.rec motive Inside (fun m ↦ Inside m.signature)
    (fun i ↦ ∀ m ∈ i.methods, Inside m.signature) (fun f ↦ motive f.type)
    (fun fields ↦ ∀ f ∈ fields, motive f.type) (fun ts ↦ ∀ t ∈ ts, motive t)
    (fun ms ↦ ∀ m ∈ ms, Inside m.signature)
    basic named pointer slice array map chan func interface struct
    hsignature (fun _ _ _ _ h ↦ h) (fun _ h ↦ h)
    (fun _ _ _ _ h ↦ h) hnil hcons hnil hcons hnil hcons t

/-! ### Lists that are compared -/

attribute [local simp] TypeExpr.identical Signature.identical Interface.identical
  TypeExpr.identicalLists TypeExpr.identicalFields Field.identical Interface.covered
  Method.hasPartner

theorem TypeExpr.identicalLists_iff {ss ts : List TypeExpr} :
    TypeExpr.identicalLists ss ts = true ↔ List.Forall₂ (fun s t ↦ s.identical t = true) ss ts := by
  induction ss generalizing ts with
  | nil => cases ts <;> simp
  | cons s ss ih => cases ts <;> simp [ih]

theorem TypeExpr.identicalFields_iff {fs gs : List Field} :
    TypeExpr.identicalFields fs gs = true ↔
      List.Forall₂ (fun f g ↦ f.identical g = true) fs gs := by
  induction fs generalizing gs with
  | nil => cases gs <;> simp
  | cons f fs ih => cases gs <;> simp [ih]

/-- Fields agree when both or neither are embedded, their identifiers are one, and their types are
identical. -/
theorem Field.identical_iff {f g : Field} : f.identical g = true ↔
    f.embedded = g.embedded ∧ f.identifier.same g.identifier = true
      ∧ f.type.identical g.type = true := by
  cases f
  simp [Field.identifier, and_assoc]

/-- **Signatures are identical** when their parameters and their results are, place by place, and
both or neither take any number of arguments. -/
theorem Signature.identical_iff {a b : Signature} : a.identical b = true ↔ a.variadic = b.variadic
    ∧ List.Forall₂ (fun s t ↦ s.identical t = true) a.params b.params
    ∧ List.Forall₂ (fun s t ↦ s.identical t = true) a.results b.results := by
  cases a
  cases b
  simp [TypeExpr.identicalLists_iff, and_assoc]

theorem Method.hasPartner_iff {m : Method} {ns : List Method} : m.hasPartner ns = true ↔
    ∃ n ∈ ns, n.identifier.same m.identifier = true ∧ m.signature.identical n.signature = true := by
  cases m
  simp [Method.identifier]

/-- **Interfaces are identical** when they have equally many methods, and each method of the first
has a partner in the second. -/
theorem Interface.identical_iff {i j : Interface} :
    i.identical j = true ↔
      i.methods.length = j.methods.length ∧ ∀ m ∈ i.methods, ∃ n ∈ j.methods,
        n.identifier.same m.identifier = true ∧ m.signature.identical n.signature = true := by
  have hcovered {ms ns : List Method} :
      Interface.covered ms ns = true ↔ ∀ m ∈ ms, m.hasPartner ns = true := by
    induction ms with
    | nil => simp
    | cons m ms ih => simp [ih]
  cases i
  cases j
  simp [hcovered, Method.hasPartner_iff]

/-! ### Types that are compared -/

namespace TypeExpr

variable {s t u : TypeExpr}

theorem identical_basic_iff {name : String} : (basic name).identical t = true ↔ t = basic name := by
  cases t with
  | basic other => simpa using eq_comm
  | _ => simp

theorem identical_named_iff {package : Option String} {name : String} :
    (named package name).identical t = true ↔ t = named package name := by
  cases t with
  | named package' name' => simpa using and_congr eq_comm eq_comm
  | _ => simp

theorem identical_pointer_iff : (pointer s).identical t = true ↔
    ∃ t', t = pointer t' ∧ s.identical t' = true := by
  cases t <;> simp

theorem identical_slice_iff :
    (slice s).identical t = true ↔ ∃ t', t = slice t' ∧ s.identical t' = true := by
  cases t <;> simp

theorem identical_array_iff {len : UInt64} : (array len s).identical t = true ↔
    ∃ t', t = array len t' ∧ s.identical t' = true := by
  cases t with
  | array len' elem => simpa using fun _ ↦ eq_comm
  | _ => simp

theorem identical_map_iff {key value : TypeExpr} : (map key value).identical t = true ↔
    ∃ key' value', t = map key' value' ∧ key.identical key' = true
      ∧ value.identical value' = true := by
  cases t <;> simp

theorem identical_chan_iff {dir : Direction} : (chan dir s).identical t = true ↔
    ∃ t', t = chan dir t' ∧ s.identical t' = true := by
  cases t with
  | chan dir' elem => simpa using fun _ ↦ eq_comm
  | _ => simp

theorem identical_func_iff {a : Signature} : (func a).identical t = true ↔
    ∃ b, t = func b ∧ a.identical b = true := by
  cases t <;> simp

theorem identical_interface_iff {i : Interface} : (interface i).identical t = true ↔
    ∃ j, t = interface j ∧ i.identical j = true := by
  cases t <;> simp

theorem identical_struct_iff {fs : List Field} : (struct fs).identical t = true ↔
    ∃ gs, t = struct gs ∧ List.Forall₂ (fun f g ↦ f.identical g = true) fs gs := by
  cases t <;> simp [identicalFields_iff]

end TypeExpr

/-! ### Transitivity -/

/-- A relation between lists, place by place, is transitive if it is so at each member of the first
list. -/
theorem forall₂_trans_of_mem {α : Type} {r : α → α → Prop} {xs ys zs : List α}
    (hxy : List.Forall₂ r xs ys) (hyz : List.Forall₂ r ys zs)
    (htrans : ∀ x ∈ xs, ∀ {y z}, r x y → r y z → r x z) : List.Forall₂ r xs zs := by
  induction hxy generalizing zs with
  | nil => exact hyz
  | @cons x y xs ys hfirst _ ih =>
    cases hyz with
    | cons hsecond hrest =>
      exact .cons (htrans x List.mem_cons_self hfirst hsecond)
        (ih hrest fun x hx ↦ htrans x (List.mem_cons_of_mem _ hx))

/-- Identity of signatures is transitive at a signature if identity of types is so at each type in
it. -/
theorem Signature.identical_trans_of_types {a b c : Signature} (hab : a.identical b = true)
    (hbc : b.identical c = true)
    (htypes : ∀ s ∈ a.types, ∀ {t u}, s.identical t = true → t.identical u = true →
      s.identical u = true) : a.identical c = true := by
  obtain ⟨hvariadic, hparams, hresults⟩ := Signature.identical_iff.mp hab
  obtain ⟨hvariadic', hparams', hresults'⟩ := Signature.identical_iff.mp hbc
  exact Signature.identical_iff.mpr ⟨hvariadic.trans hvariadic',
    forall₂_trans_of_mem hparams hparams' fun s hs ↦ htypes s (List.mem_append_left _ hs),
    forall₂_trans_of_mem hresults hresults' fun s hs ↦ htypes s (List.mem_append_right _ hs)⟩

/-- **Identity of types is transitive.** -/
theorem TypeExpr.identical_trans {s t u : TypeExpr} (hst : s.identical t = true)
    (htu : t.identical u = true) : s.identical u = true := by
  induction s using TypeExpr.inductionOn generalizing t u with
  | basic name => rwa [identical_basic_iff.mp hst] at htu
  | named package name => rwa [identical_named_iff.mp hst] at htu
  | pointer elem ih =>
    obtain ⟨t, rfl, helem⟩ := identical_pointer_iff.mp hst
    obtain ⟨u, rfl, helem'⟩ := identical_pointer_iff.mp htu
    exact identical_pointer_iff.mpr ⟨u, rfl, ih helem helem'⟩
  | slice elem ih =>
    obtain ⟨t, rfl, helem⟩ := identical_slice_iff.mp hst
    obtain ⟨u, rfl, helem'⟩ := identical_slice_iff.mp htu
    exact identical_slice_iff.mpr ⟨u, rfl, ih helem helem'⟩
  | array len elem ih =>
    obtain ⟨t, rfl, helem⟩ := identical_array_iff.mp hst
    obtain ⟨u, rfl, helem'⟩ := identical_array_iff.mp htu
    exact identical_array_iff.mpr ⟨u, rfl, ih helem helem'⟩
  | map key value ihkey ihvalue =>
    obtain ⟨key', value', rfl, hkey, hvalue⟩ := identical_map_iff.mp hst
    obtain ⟨key'', value'', rfl, hkey', hvalue'⟩ := identical_map_iff.mp htu
    exact identical_map_iff.mpr ⟨key'', value'', rfl, ihkey hkey hkey', ihvalue hvalue hvalue'⟩
  | chan dir elem ih =>
    obtain ⟨t, rfl, helem⟩ := identical_chan_iff.mp hst
    obtain ⟨u, rfl, helem'⟩ := identical_chan_iff.mp htu
    exact identical_chan_iff.mpr ⟨u, rfl, ih helem helem'⟩
  | func a ih =>
    obtain ⟨b, rfl, hab⟩ := identical_func_iff.mp hst
    obtain ⟨c, rfl, hbc⟩ := identical_func_iff.mp htu
    exact identical_func_iff.mpr ⟨c, rfl, Signature.identical_trans_of_types hab hbc ih⟩
  | interface i ih =>
    obtain ⟨j, rfl, hij⟩ := identical_interface_iff.mp hst
    obtain ⟨k, rfl, hjk⟩ := identical_interface_iff.mp htu
    obtain ⟨hlength, hpartner⟩ := Interface.identical_iff.mp hij
    obtain ⟨hlength', hpartner'⟩ := Interface.identical_iff.mp hjk
    refine identical_interface_iff.mpr
      ⟨k, rfl, Interface.identical_iff.mpr ⟨hlength.trans hlength', fun m hm ↦ ?_⟩⟩
    -- a partner of the partner will do
    obtain ⟨n, hn, hmn, hsignature⟩ := hpartner m hm
    obtain ⟨l, hl, hnl, hsignature'⟩ := hpartner' n hn
    exact ⟨l, hl, Identifier.same_trans hnl hmn,
      Signature.identical_trans_of_types hsignature hsignature' (ih m hm)⟩
  | struct fs ih =>
    obtain ⟨gs, rfl, hfg⟩ := identical_struct_iff.mp hst
    obtain ⟨hs, rfl, hgh⟩ := identical_struct_iff.mp htu
    refine identical_struct_iff.mpr
      ⟨hs, rfl, forall₂_trans_of_mem hfg hgh fun f hf {g h} hfg hgh ↦ ?_⟩
    obtain ⟨hembedded, hsame, htype⟩ := Field.identical_iff.mp hfg
    obtain ⟨hembedded', hsame', htype'⟩ := Field.identical_iff.mp hgh
    exact Field.identical_iff.mpr
      ⟨hembedded.trans hembedded', Identifier.same_trans hsame hsame', ih f hf htype htype'⟩

/-- **Identity of signatures is transitive.** -/
theorem Signature.identical_trans {a b c : Signature} (hab : a.identical b = true)
    (hbc : b.identical c = true) : a.identical c = true :=
  Signature.identical_trans_of_types hab hbc fun _ _ ↦ TypeExpr.identical_trans

end DeclExtract
