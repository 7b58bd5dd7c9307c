import Mathlib.Data.Fintype.EquivFin
import DeclExtract.Proofs.TypeExpr.Restatement

/-!
# Interfaces that list a method twice

Interfaces are compared by their lengths and by partners for the methods of the first one. If two
methods of the first share a partner, a method of the second may be left without one, and then the
comparison comes out differently the other way round. That takes two methods with one identifier,
and the signature of one identical to that of the other (`Method.repeats`).

So a type can rely on being identical to whatever is identical to it just when none of the
interfaces inside it repeats a method (`TypeExpr.identical_symm_iff`). Where none does, partners can
be taken in pairs, and nothing is left over (`exists_of_covered`). Where one does, the repeated
method makes room for a method with a fresh name.
-/

namespace DeclExtract

/-! ### The interfaces inside a type -/

mutual

/-- The interfaces inside a type, at any depth; a type that is an interface counts itself. -/
def TypeExpr.interfaces : TypeExpr → List Interface
  | .basic _ => []
  | .named _ _ => []
  | .pointer elem => elem.interfaces
  | .slice elem => elem.interfaces
  | .array _ elem => elem.interfaces
  | .map key value => key.interfaces ++ value.interfaces
  | .chan _ elem => elem.interfaces
  | .func a => a.interfaces
  | .interface i => i :: i.inner
  | .struct fs => Field.interfacesIn fs
termination_by structural t => t

/-- The interfaces inside the types of a signature. -/
def Signature.interfaces : Signature → List Interface
  | ⟨ps, rs, _⟩ => TypeExpr.interfacesIn ps ++ TypeExpr.interfacesIn rs
termination_by structural a => a

/-- The interfaces inside the methods of an interface. -/
def Interface.inner : Interface → List Interface
  | ⟨ms⟩ => Method.interfacesIn ms
termination_by structural i => i

/-- The interfaces inside each type of a list. -/
def TypeExpr.interfacesIn : List TypeExpr → List Interface
  | [] => []
  | t :: ts => t.interfaces ++ TypeExpr.interfacesIn ts
termination_by structural ts => ts

/-- The interfaces inside each method of a list. -/
def Method.interfacesIn : List Method → List Interface
  | [] => []
  | m :: ms => m.interfaces ++ Method.interfacesIn ms
termination_by structural ms => ms

/-- The interfaces inside the signature of a method. -/
def Method.interfaces : Method → List Interface
  | ⟨_, _, a, _⟩ => a.interfaces
termination_by structural m => m

/-- The interfaces inside each field of a list. -/
def Field.interfacesIn : List Field → List Interface
  | [] => []
  | f :: fs => f.interfaces ++ Field.interfacesIn fs
termination_by structural fs => fs

/-- The interfaces inside the type of a field. -/
def Field.interfaces : Field → List Interface
  | ⟨_, _, t, _⟩ => t.interfaces
termination_by structural f => f

end

section Interfaces

variable {i j : Interface} {a : Signature} {fs : List Field}

theorem Signature.mem_interfaces : i ∈ a.interfaces ↔ ∃ t ∈ a.types, i ∈ t.interfaces := by
  have hall (ts : List TypeExpr) : TypeExpr.interfacesIn ts = ts.flatMap TypeExpr.interfaces := by
    induction ts with
    | nil => rfl
    | cons t ts ih => rw [TypeExpr.interfacesIn, ih, List.flatMap_cons]
  obtain ⟨ps, rs, variadic⟩ := a
  simp only [Signature.interfaces, hall, ← List.flatMap_append, List.mem_flatMap, Signature.types]

theorem TypeExpr.mem_interfaces_interface : i ∈ (TypeExpr.interface j).interfaces ↔
    i = j ∨ ∃ m ∈ j.methods, ∃ t ∈ m.signature.types, i ∈ t.interfaces := by
  have hall (ms : List Method) :
      Method.interfacesIn ms = ms.flatMap fun m ↦ m.signature.interfaces := by
    induction ms with
    | nil => rfl
    | cons m ms ih =>
      cases m
      rw [Method.interfacesIn, ih, List.flatMap_cons, Method.interfaces]
  obtain ⟨ms⟩ := j
  simp only [TypeExpr.interfaces, Interface.inner, hall, List.mem_cons, List.mem_flatMap,
    Signature.mem_interfaces]

theorem TypeExpr.mem_interfaces_struct : i ∈ (TypeExpr.struct fs).interfaces ↔
    ∃ f ∈ fs, i ∈ f.type.interfaces := by
  have hall : Field.interfacesIn fs = fs.flatMap fun f ↦ f.type.interfaces := by
    induction fs with
    | nil => rfl
    | cons f fs ih =>
      cases f
      rw [Field.interfacesIn, ih, List.flatMap_cons, Field.interfaces]
  rw [TypeExpr.interfaces, hall, List.mem_flatMap]

end Interfaces

/-! ### Repeated methods -/

/-- Whether a method says again what another one says: one identifier, and the signature of one of
the two is identical to that of the other. -/
def Method.repeats (m n : Method) : Bool :=
  m.identifier.same n.identifier &&
  (m.signature.identical n.signature || n.signature.identical m.signature)

/-- No two methods of an interface say the same. -/
def Interface.RepeatsNone (i : Interface) : Prop :=
  i.methods.Pairwise fun m n ↦ m.repeats n = false

instance (i : Interface) : Decidable i.RepeatsNone :=
  inferInstanceAs (Decidable (i.methods.Pairwise _))

namespace Method

variable {m n : Method}

theorem repeats_iff : m.repeats n = true ↔ m.identifier.same n.identifier = true ∧
    (m.signature.identical n.signature = true ∨ n.signature.identical m.signature = true) := by
  simp [repeats]

theorem repeats_comm (m n : Method) : m.repeats n = n.repeats m := by
  rw [repeats, repeats, Identifier.same_comm, Bool.or_comm]

/-- Whether a method can stand for another one in an interface: it has the same identifier, and the
other's signature is identical to its own. -/
def IsPartner (m n : Method) : Prop :=
  n.identifier.same m.identifier = true ∧ m.signature.identical n.signature = true

theorem IsPartner.repeats (h : m.IsPartner n) : m.repeats n = true :=
  repeats_iff.mpr ⟨Identifier.same_symm h.1, Or.inl h.2⟩

end Method

/-- A method that stands before the others in some order of an interface that repeats none is
repeated by none of them. -/
theorem Interface.RepeatsNone.not_repeats {i : Interface} (hi : i.RepeatsNone) {m n : Method}
    {rest : List Method} (horder : i.methods.Perm (m :: rest)) (hn : n ∈ rest) :
    ¬ m.repeats n = true := by
  have hpairwise : (m :: rest).Pairwise fun m n ↦ m.repeats n = false :=
    (horder.pairwise_iff fun {m n} h ↦ (n.repeats_comm m).trans h).mp hi
  simpa using List.rel_of_pairwise_cons hpairwise hn

/-- An interface that repeats a method has, in some order of its methods, first a method that has a
partner among the others. -/
theorem Interface.exists_partner {i : Interface} (h : ¬ i.RepeatsNone) :
    ∃ m n rest, i.methods.Perm (m :: rest) ∧ n ∈ rest ∧ m.IsPartner n := by
  simp only [RepeatsNone, List.pairwise_iff_forall_sublist, not_forall, Bool.not_eq_false] at h
  obtain ⟨m, n, hsublist, hrepeats⟩ := h
  obtain ⟨rest, horder⟩ := hsublist.exists_perm_append
  obtain ⟨hsame, hsignature⟩ := Method.repeats_iff.mp hrepeats
  rcases hsignature with hmn | hnm
  · exact ⟨m, n, n :: rest, horder, List.mem_cons_self, Identifier.same_symm hsame, hmn⟩
  · exact ⟨n, m, m :: rest, horder.trans (.swap n m rest), List.mem_cons_self, hsame, hnm⟩

/-! ### Where nothing is repeated -/

/-- **Partners in pairs.** If each member of a list has a partner in another one and no two have a
common partner, then the first list is no longer than the second, and if they are equally long,
every member of the second is the partner of some member of the first. -/
theorem exists_of_covered {α : Type} {r : α → α → Prop} {xs ys : List α}
    (hcovered : ∀ x ∈ xs, ∃ y ∈ ys, r x y)
    (hshared : xs.Pairwise fun x x' ↦ ∀ y, r x y → ¬ r x' y) :
    xs.length ≤ ys.length ∧ (ys.length ≤ xs.length → ∀ y ∈ ys, ∃ x ∈ xs, r x y) := by
  induction xs generalizing ys with
  | nil =>
    refine ⟨Nat.zero_le _, fun hlength y hy ↦ ?_⟩
    rw [List.length_eq_zero_iff.mp (Nat.le_zero.mp hlength)] at hy
    nomatch hy
  | cons x xs ih =>
    obtain ⟨hx, hshared⟩ := List.pairwise_cons.mp hshared
    obtain ⟨y, hy, hxy⟩ := hcovered x List.mem_cons_self
    obtain ⟨before, after, rfl⟩ := List.append_of_mem hy
    -- no other member has `y` for a partner, so `y` can be left out
    have hrest : ∀ x' ∈ xs, ∃ y' ∈ before ++ after, r x' y' := by
      intro x' hx'
      obtain ⟨y', hy', hxy'⟩ := hcovered x' (List.mem_cons_of_mem _ hx')
      have hne : y' ≠ y := fun heq ↦ hx x' hx' y hxy (heq ▸ hxy')
      exact ⟨y', (List.mem_cons.mp (List.perm_middle.mem_iff.mp hy')).resolve_left hne, hxy'⟩
    obtain ⟨hlength, hback⟩ := ih hrest hshared
    have hsize : (before ++ y :: after).length = (before ++ after).length + 1 :=
      List.perm_middle.length_eq
    refine ⟨by rw [hsize]; exact Nat.succ_le_succ hlength, fun hle y' hy' ↦ ?_⟩
    rcases List.mem_cons.mp (List.perm_middle.mem_iff.mp hy') with rfl | hy'
    · exact ⟨x, List.mem_cons_self, hxy⟩
    · rw [hsize] at hle
      obtain ⟨x', hx', hxy'⟩ := hback (Nat.le_of_succ_le_succ hle) y' hy'
      exact ⟨x', List.mem_cons_of_mem _ hx', hxy'⟩

/-- Identity of signatures may be turned round if that of types may be at each type of the first
signature. -/
theorem Signature.identical_symm_of_types {a b : Signature} (hab : a.identical b = true)
    (htypes : ∀ s ∈ a.types, ∀ t, s.identical t = true → t.identical s = true) :
    b.identical a = true := by
  obtain ⟨hvariadic, hparams, hresults⟩ := Signature.identical_iff.mp hab
  exact Signature.identical_iff.mpr ⟨hvariadic.symm,
    (forall₂_imp_of_mem hparams fun s hs ↦ htypes s (List.mem_append_left _ hs)).flip,
    (forall₂_imp_of_mem hresults fun s hs ↦ htypes s (List.mem_append_right _ hs)).flip⟩

/-- Identity of interfaces may be turned round where the first repeats no method, if identity of
types may be at each type in its methods. -/
theorem Interface.identical_symm_of_types {i j : Interface} (hi : i.RepeatsNone)
    (hij : i.identical j = true)
    (htypes : ∀ m ∈ i.methods, ∀ s ∈ m.signature.types, ∀ t, s.identical t = true →
      t.identical s = true) :
    j.identical i = true := by
  obtain ⟨hlength, hpartner⟩ := Interface.identical_iff.mp hij
  have hback (m : Method) (hm : m ∈ i.methods) (b : Signature)
    (h : m.signature.identical b = true) :
      b.identical m.signature = true := Signature.identical_symm_of_types h (htypes m hm)
  -- two methods with a common partner would repeat one another
  have hshared : i.methods.Pairwise fun m m' ↦ ∀ n, m.IsPartner n → ¬ m'.IsPartner n := by
    refine List.Pairwise.imp_of_mem (fun {m m'} hm hm' hrepeats n hn hn' ↦ ?_) hi
    have hsame : m.identifier.same m'.identifier = true :=
      Identifier.same_trans (Identifier.same_symm hn.1) hn'.1
    have hsignature : m.signature.identical m'.signature = true :=
      Signature.identical_trans hn.2 (hback m' hm' n.signature hn'.2)
    rw [Method.repeats_iff.mpr ⟨hsame, Or.inl hsignature⟩] at hrepeats
    nomatch hrepeats
  refine Interface.identical_iff.mpr ⟨hlength.symm, fun n hn ↦ ?_⟩
  obtain ⟨m, hm, hmn⟩ := (exists_of_covered hpartner hshared).2 hlength.symm.le n hn
  exact ⟨m, hm, Identifier.same_symm hmn.1, hback m hm n.signature hmn.2⟩

/-- **Identity may be turned round** where no interface inside the first type repeats a method. -/
theorem TypeExpr.identical_symm_of_repeatsNone {s t : TypeExpr}
    (hs : ∀ i ∈ s.interfaces, i.RepeatsNone) (hst : s.identical t = true) :
    t.identical s = true := by
  induction s using TypeExpr.inductionOn generalizing t with
  | basic name =>
    rw [identical_basic_iff.mp hst]
    exact identical_basic_iff.mpr rfl
  | named package name =>
    rw [identical_named_iff.mp hst]
    exact identical_named_iff.mpr rfl
  | pointer elem ih =>
    obtain ⟨t, rfl, helem⟩ := identical_pointer_iff.mp hst
    exact identical_pointer_iff.mpr ⟨elem, rfl, ih hs helem⟩
  | slice elem ih =>
    obtain ⟨t, rfl, helem⟩ := identical_slice_iff.mp hst
    exact identical_slice_iff.mpr ⟨elem, rfl, ih hs helem⟩
  | array len elem ih =>
    obtain ⟨t, rfl, helem⟩ := identical_array_iff.mp hst
    exact identical_array_iff.mpr ⟨elem, rfl, ih hs helem⟩
  | map key value ihkey ihvalue =>
    obtain ⟨key', value', rfl, hkey, hvalue⟩ := identical_map_iff.mp hst
    obtain ⟨hskey, hsvalue⟩ := List.forall_mem_append.mp hs
    exact identical_map_iff.mpr ⟨key, value, rfl, ihkey hskey hkey, ihvalue hsvalue hvalue⟩
  | chan dir elem ih =>
    obtain ⟨t, rfl, helem⟩ := identical_chan_iff.mp hst
    exact identical_chan_iff.mpr ⟨elem, rfl, ih hs helem⟩
  | func a ih =>
    obtain ⟨b, rfl, hab⟩ := identical_func_iff.mp hst
    refine identical_func_iff.mpr
      ⟨a, rfl, Signature.identical_symm_of_types hab fun s hsa t ↦ ih s hsa fun i hi ↦ ?_⟩
    exact hs i (Signature.mem_interfaces.mpr ⟨s, hsa, hi⟩)
  | interface i ih =>
    obtain ⟨j, rfl, hij⟩ := identical_interface_iff.mp hst
    have hi : i.RepeatsNone := hs i (mem_interfaces_interface.mpr (Or.inl rfl))
    refine identical_interface_iff.mpr
      ⟨i, rfl, Interface.identical_symm_of_types hi hij fun m hm s hsm t ↦ ih m hm s hsm
        fun k hk ↦ ?_⟩
    exact hs k (mem_interfaces_interface.mpr (Or.inr ⟨m, hm, s, hsm, hk⟩))
  | struct fs ih =>
    obtain ⟨gs, rfl, hfields⟩ := identical_struct_iff.mp hst
    refine identical_struct_iff.mpr ⟨fs, rfl, (forall₂_imp_of_mem hfields fun f hf g hfg ↦ ?_).flip⟩
    obtain ⟨hembedded, hsame, htype⟩ := Field.identical_iff.mp hfg
    have hfs : ∀ i ∈ f.type.interfaces, i.RepeatsNone :=
      fun i hi ↦ hs i (mem_interfaces_struct.mpr ⟨f, hf, hi⟩)
    exact Field.identical_iff.mpr ⟨hembedded.symm, Identifier.same_symm hsame, ih f hf hfs htype⟩

/-! ### Where a method is repeated -/

/-- Every name list leaves out some name. -/
theorem exists_freshName (ms : List Method) : ∃ name, ∀ m ∈ ms, m.name ≠ name := by
  obtain ⟨name, hname⟩ := Infinite.exists_notMem_finset (ms.map Method.name).toFinset
  exact ⟨name, fun m hm heq ↦ hname (List.mem_toFinset.mpr (List.mem_map.mpr ⟨m, hm, heq⟩))⟩

/-- A list can be changed at a member so that it is related to the changed list, but not the other
way round. -/
theorem exists_forall₂_not_symm {α : Type} {r : α → α → Prop} (hrefl : ∀ x, r x x) {xs : List α}
    {x x' : α} (hx : x ∈ xs) (h : r x x') (hback : ¬ r x' x) :
    ∃ ys, List.Forall₂ r xs ys ∧ ¬ List.Forall₂ r ys xs := by
  induction xs with
  | nil => nomatch hx
  | cons y ys ih =>
    rcases List.mem_cons.mp hx with rfl | hx
    · refine ⟨x' :: ys, .cons h (List.forall₂_same.mpr fun z _ ↦ hrefl z), fun hforall ↦ ?_⟩
      cases hforall with
      | cons hfirst _ => exact hback hfirst
    · obtain ⟨zs, hzs, hzs'⟩ := ih hx
      refine ⟨y :: zs, .cons (hrefl y) hzs, fun hforall ↦ ?_⟩
      cases hforall with
      | cons _ hrest => exact hzs' hrest

/-- A signature is identical to one that is not identical to it if a type in it is identical to such
a type. -/
theorem Signature.exists_not_symm {a : Signature} {s t : TypeExpr} (hs : s ∈ a.types)
    (hst : s.identical t = true) (hts : ¬ t.identical s = true) :
    ∃ b, a.identical b = true ∧ ¬ b.identical a = true := by
  have hsame (ts : List TypeExpr) : List.Forall₂ (fun s t ↦ s.identical t = true) ts ts :=
    List.forall₂_same.mpr fun t _ ↦ t.identical_refl
  rcases List.mem_append.mp hs with hs | hs
  · obtain ⟨ps, hps, hps'⟩ :=
      exists_forall₂_not_symm (r := fun s t ↦ s.identical t = true) TypeExpr.identical_refl
      hs hst hts
    exact ⟨{ a with params := ps }, Signature.identical_iff.mpr ⟨rfl, hps, hsame _⟩,
      fun h ↦ hps' (Signature.identical_iff.mp h).2.1⟩
  · obtain ⟨rs, hrs, hrs'⟩ :=
      exists_forall₂_not_symm (r := fun s t ↦ s.identical t = true) TypeExpr.identical_refl
      hs hst hts
    exact ⟨{ a with results := rs }, Signature.identical_iff.mpr ⟨rfl, hsame _, hrs⟩,
      fun h ↦ hrs' (Signature.identical_iff.mp h).2.2⟩

/-- An interface that repeats a method is identical to one that has a fresh method in its place. -/
theorem Interface.exists_not_symm_of_repeats {i : Interface} (h : ¬ i.RepeatsNone) :
    ∃ j, i.identical j = true ∧ ¬ j.identical i = true := by
  obtain ⟨m, n, rest, horder, hn, hmn⟩ := Interface.exists_partner h
  obtain ⟨name, hname⟩ := exists_freshName i.methods
  refine ⟨⟨{ m with name := name } :: rest⟩,
    Interface.identical_iff.mpr ⟨horder.length_eq, fun l hl ↦ ?_⟩, fun hback ↦ ?_⟩
  · rcases List.mem_cons.mp (horder.mem_iff.mp hl) with rfl | hl
    · exact ⟨n, List.mem_cons_of_mem _ hn, hmn⟩
    · exact ⟨l, List.mem_cons_of_mem _ hl, Identifier.same_refl _, Signature.identical_refl _⟩
  · obtain ⟨l, hl, hsame, -⟩ := (Interface.identical_iff.mp hback).2 _ List.mem_cons_self
    exact hname l hl (Identifier.same_iff.mp hsame).1

/-- An interface that repeats no method is identical to one that has another signature in the place
of one of its own, if that signature is identical to the other one. -/
theorem Interface.exists_not_symm_of_signature {i : Interface} (hi : i.RepeatsNone) {m : Method}
    (hm : m ∈ i.methods) {b : Signature} (hmb : m.signature.identical b = true)
    (hbm : ¬ b.identical m.signature = true) :
    ∃ j, i.identical j = true ∧ ¬ j.identical i = true := by
  obtain ⟨before, after, hmethods⟩ := List.append_of_mem hm
  have horder : i.methods.Perm (m :: (before ++ after)) := hmethods ▸ List.perm_middle
  refine ⟨⟨{ m with signature := b } :: (before ++ after)⟩,
    Interface.identical_iff.mpr ⟨horder.length_eq, fun l hl ↦ ?_⟩, fun hback ↦ ?_⟩
  · rcases List.mem_cons.mp (horder.mem_iff.mp hl) with rfl | hl
    · exact ⟨_, List.mem_cons_self, Identifier.same_refl _, hmb⟩
    · exact ⟨l, List.mem_cons_of_mem _ hl, Identifier.same_refl _, Signature.identical_refl _⟩
  · obtain ⟨l, hl, hsame, hsignature⟩ := (Interface.identical_iff.mp hback).2 _ List.mem_cons_self
    rcases List.mem_cons.mp (horder.mem_iff.mp hl) with rfl | hl
    · exact hbm hsignature
    · exact hi.not_repeats horder hl
        (Method.IsPartner.repeats ⟨hsame, Signature.identical_trans hmb hsignature⟩)

/-- **A repeated method shows.** A type with an interface inside that repeats a method is identical
to a type that is not identical to it. -/
theorem TypeExpr.exists_not_symm {s : TypeExpr} {i : Interface} (hi : i ∈ s.interfaces)
    (hrepeats : ¬ i.RepeatsNone) : ∃ t, s.identical t = true ∧ ¬ t.identical s = true := by
  induction s using TypeExpr.inductionOn with
  | basic name => nomatch hi
  | named package name => nomatch hi
  | pointer elem ih =>
    obtain ⟨t, hst, hts⟩ := ih hi
    exact ⟨.pointer t, identical_pointer_iff.mpr ⟨t, rfl, hst⟩, by simpa [identical] using hts⟩
  | slice elem ih =>
    obtain ⟨t, hst, hts⟩ := ih hi
    exact ⟨.slice t, identical_slice_iff.mpr ⟨t, rfl, hst⟩, by simpa [identical] using hts⟩
  | array len elem ih =>
    obtain ⟨t, hst, hts⟩ := ih hi
    exact ⟨.array len t, identical_array_iff.mpr ⟨t, rfl, hst⟩, by simpa [identical] using hts⟩
  | map key value ihkey ihvalue =>
    rcases List.mem_append.mp hi with hi | hi
    · obtain ⟨t, hst, hts⟩ := ihkey hi
      exact ⟨.map t value,
        identical_map_iff.mpr ⟨t, value, rfl, hst, identical_refl _⟩, by simp [identical, hts]⟩
    · obtain ⟨t, hst, hts⟩ := ihvalue hi
      exact ⟨.map key t,
        identical_map_iff.mpr ⟨key, t, rfl, identical_refl _, hst⟩, by simp [identical, hts]⟩
  | chan dir elem ih =>
    obtain ⟨t, hst, hts⟩ := ih hi
    exact ⟨.chan dir t, identical_chan_iff.mpr ⟨t, rfl, hst⟩, by simpa [identical] using hts⟩
  | func a ih =>
    obtain ⟨s, hs, hi⟩ := Signature.mem_interfaces.mp hi
    obtain ⟨t, hst, hts⟩ := ih s hs hi
    obtain ⟨b, hab, hba⟩ := Signature.exists_not_symm hs hst hts
    exact ⟨.func b, identical_func_iff.mpr ⟨b, rfl, hab⟩, by rwa [Signature.identical_func]⟩
  | interface j ih =>
    have hlift : (∃ k, j.identical k = true ∧ ¬ k.identical j = true) →
        ∃ t, (interface j).identical t = true ∧ ¬ t.identical (interface j) = true :=
        fun ⟨k, hjk, hkj⟩ ↦
      ⟨.interface k, identical_interface_iff.mpr ⟨k, rfl, hjk⟩, by simpa [identical] using hkj⟩
    by_cases hj : j.RepeatsNone
    · rcases mem_interfaces_interface.mp hi with rfl | ⟨m, hm, s, hs, hi⟩
      · exact absurd hj hrepeats
      · obtain ⟨t, hst, hts⟩ := ih m hm s hs hi
        obtain ⟨b, hmb, hbm⟩ := Signature.exists_not_symm hs hst hts
        exact hlift (Interface.exists_not_symm_of_signature hj hm hmb hbm)
    · exact hlift (Interface.exists_not_symm_of_repeats hj)
  | struct fs ih =>
    obtain ⟨f, hf, hi⟩ := mem_interfaces_struct.mp hi
    obtain ⟨t, hst, hts⟩ := ih f hf hi
    have hrefl (f : Field) : f.identical f = true :=
      Field.identical_iff.mpr ⟨rfl, Identifier.same_refl _, identical_refl _⟩
    have hchanged : f.identical { f with type := t } = true :=
      Field.identical_iff.mpr ⟨rfl, Identifier.same_refl _, hst⟩
    have hback : ¬ Field.identical { f with type := t } f = true :=
      fun h ↦ hts (Field.identical_iff.mp h).2.2
    obtain ⟨gs, hfg, hgf⟩ :=
      exists_forall₂_not_symm (r := fun f g ↦ f.identical g = true) hrefl hf hchanged hback
    exact ⟨.struct gs,
      identical_struct_iff.mpr ⟨gs, rfl, hfg⟩, by simpa [identical, identicalFields_iff] using hgf⟩

/-! ### When identity is symmetric -/

namespace TypeExpr

/-- **Identity can be turned round just where nothing is repeated.** Whatever a type is identical to
is identical to it if and only if no interface inside the type repeats a method. So two types
without repetitions compare alike either way round. -/
theorem identical_symm_iff (s : TypeExpr) :
    ((∀ t, s.identical t = true → t.identical s = true) ↔ ∀ i ∈ s.interfaces, i.RepeatsNone) ∧
    ∀ t : TypeExpr, (∀ i ∈ s.interfaces, i.RepeatsNone) → (∀ i ∈ t.interfaces, i.RepeatsNone) →
      s.identical t = t.identical s := by
  refine ⟨⟨fun hsymm i hi ↦ ?_, fun hs t ↦ identical_symm_of_repeatsNone hs⟩, fun t hs ht ↦ ?_⟩
  · by_contra hrepeats
    obtain ⟨t, hst, hts⟩ := exists_not_symm hi hrepeats
    exact hts (hsymm t hst)
  · exact Bool.eq_iff_iff.mpr ⟨identical_symm_of_repeatsNone hs, identical_symm_of_repeatsNone ht⟩

end TypeExpr

/-- A method without parameters and results. -/
def bareMethod (name : String) : Method :=
  ⟨name, some "io", ⟨[], [], false⟩, none⟩

/-- What can be closed; it says so twice. -/
def closerTwice : TypeExpr :=
  .interface ⟨[bareMethod "Close", bareMethod "Close"]⟩

/-- What can be closed and flushed. -/
def flushCloser : TypeExpr :=
  .interface ⟨[bareMethod "Close", bareMethod "Flush"]⟩

/-- What can be flushed and closed. -/
def closeFlusher : TypeExpr :=
  .interface ⟨[bareMethod "Flush", bareMethod "Close"]⟩

/-- What takes any number of values of a type. -/
def taker (t : TypeExpr) : TypeExpr :=
  .interface ⟨[⟨"Take", some "io", ⟨[t], [], true⟩, none⟩]⟩

theorem identical_symm_taker : (∀ i ∈ (taker flushCloser).interfaces, i.RepeatsNone) ∧
    (∀ i ∈ (taker closeFlusher).interfaces, i.RepeatsNone) ∧
    (taker flushCloser).identical (taker closeFlusher) = true ∧
    (taker closeFlusher).identical (taker flushCloser) = true := by
  have hs : ∀ i ∈ (taker flushCloser).interfaces, i.RepeatsNone := by decide +kernel
  have ht : ∀ i ∈ (taker closeFlusher).interfaces, i.RepeatsNone := by decide +kernel
  have hst : (taker flushCloser).identical (taker closeFlusher) = true := by decide +kernel
  exact ⟨hs, ht, hst, ((TypeExpr.identical_symm_iff _).2 _ hs ht).symm.trans hst⟩

/-- A method that is listed twice hides that another one is missing. -/
theorem identical_closerTwice_ne :
    closerTwice.identical flushCloser ≠ flushCloser.identical closerTwice := by
  decide +kernel

end DeclExtract
