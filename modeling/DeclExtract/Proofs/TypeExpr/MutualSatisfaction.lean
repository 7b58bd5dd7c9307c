import Mathlib.Data.List.Pairwise
import DeclExtract.Proofs.TypeExpr.Repetition
import DeclExtract.Proofs.TypeExpr.Satisfaction

/-!
# Interfaces that satisfy each other

There are two ways to compare interfaces. Identity asks for equally many methods and for a partner
of each method of the first; satisfaction looks each method of one interface up in the other, and
takes the first that it finds. If no interface at any depth has two methods with one identifier, a
partner is what the lookup finds (`Implementor.find?_of_same`), there are as many methods as there
are identifiers, and signatures compare alike either way round. So interfaces are identical just
when each satisfies the other (`Interface.identical_iff_satisfies`). The blank name is left out: it
may have a partner, but it is never found.
-/

namespace DeclExtract

/-! ### Distinct identifiers -/

/-- No two methods of an interface have the same identifier. -/
def Interface.Distinct (i : Interface) : Prop :=
  i.methods.Pairwise fun m n ↦ m.identifier.same n.identifier = false

instance (i : Interface) : Decidable i.Distinct :=
  inferInstanceAs (Decidable (i.methods.Pairwise _))

/-- No interface inside an interface, itself included, has two methods with the same identifier. -/
def Interface.DistinctThroughout (i : Interface) : Prop :=
  ∀ k ∈ (TypeExpr.interface i).interfaces, k.Distinct

instance (i : Interface) : Decidable i.DistinctThroughout :=
  inferInstanceAs (Decidable (∀ k ∈ (TypeExpr.interface i).interfaces, k.Distinct))

/-- No method of an interface has the blank name. -/
def Interface.NoneBlank (i : Interface) : Prop :=
  ∀ m ∈ i.methods, m.name ≠ blankName

instance (i : Interface) : Decidable i.NoneBlank :=
  inferInstanceAs (Decidable (∀ m ∈ i.methods, _))

variable {i j : Interface} {m n : Method}

theorem Interface.Distinct.repeatsNone (hi : i.Distinct) : i.RepeatsNone :=
  hi.imp fun h ↦ by simp [Method.repeats, h]

/-- Methods with one identifier are one method. -/
theorem Interface.Distinct.eq_of_same (hi : i.Distinct) (hm : m ∈ i.methods) (hn : n ∈ i.methods)
    (hsame : m.identifier.same n.identifier = true) : m = n := by
  have : Std.Symm fun m n : Method ↦ m.identifier.same n.identifier = false :=
    ⟨fun m n h ↦ (n.identifier.same_comm m.identifier).trans h⟩
  by_contra hne
  exact Bool.false_ne_true ((hi.forall hm hn hne).symm.trans hsame)

/-! ### Partners and lookups -/

/-- An interface finds the first method with an identifier, unless the name is blank. -/
theorem Implementor.find?_interface {x : Identifier} (hx : x.name ≠ blankName) :
    (Implementor.interface i).find? x = i.methods.find? fun m ↦ m.identifier.same x := by
  rw [find?, Interface.find?, if_neg (by simpa using hx), List.find?_eq_bind_findIdx?_getElem?]
  cases i.methods.findIdx? fun m ↦ m.identifier.same x <;> simp

/-- **A partner is found.** If methods have distinct identifiers, the lookup of an identifier that
is not blank finds the method that has it. -/
theorem Implementor.find?_of_same (hj : j.Distinct) (hblank : m.name ≠ blankName)
    (hn : n ∈ j.methods) (hsame : n.identifier.same m.identifier = true) :
    (Implementor.interface j).find? m.identifier = some n := by
  rw [Implementor.find?_interface hblank]
  have hsome : (j.methods.find? fun l ↦ l.identifier.same m.identifier).isSome = true :=
    List.find?_isSome.mpr ⟨n, hn, hsame⟩
  obtain ⟨found, hfound⟩ := Option.isSome_iff_exists.mp hsome
  have hfoundSame : found.identifier.same m.identifier = true := by
    simpa using List.find?_some hfound
  have heq : found = n := hj.eq_of_same (List.mem_of_find?_eq_some hfound) hn
    (Identifier.same_trans hfoundSame (Identifier.same_symm hsame))
  rw [hfound, heq]

/-- What is found for a method is a method of the interface, with the same identifier. -/
theorem Implementor.mem_of_find?_interface {x : Identifier}
    (h : (Implementor.interface j).find? x = some n) :
    n ∈ j.methods ∧ n.identifier.same x = true := by
  obtain ⟨⟨k, found⟩, hfind, rfl⟩ := Option.map_eq_some_iff.mp h
  obtain ⟨hplace, hsame⟩ := Interface.getElem?_of_find? hfind
  exact ⟨List.mem_of_getElem? hplace, hsame⟩

/-! ### The two comparisons -/

theorem Interface.DistinctThroughout.distinct (hi : i.DistinctThroughout) : i.Distinct :=
  hi i (TypeExpr.mem_interfaces_interface.mpr (Or.inl rfl))

/-- Identity may be turned round at the signature of a method. -/
theorem Interface.DistinctThroughout.identical_symm (hi : i.DistinctThroughout) (hm : m ∈ i.methods)
    {b : Signature} (hmb : m.signature.identical b = true) : b.identical m.signature = true :=
  Signature.identical_symm_of_types hmb fun s hs _ ↦ TypeExpr.identical_symm_of_repeatsNone
  fun k hk ↦
    (hi k (TypeExpr.mem_interfaces_interface.mpr (Or.inr ⟨m, hm, s, hs, hk⟩))).repeatsNone

/-- An interface is satisfied by one that it is identical to. -/
theorem Interface.satisfies_of_identical (hi : i.DistinctThroughout) (hj : j.DistinctThroughout)
    (hblank : i.NoneBlank) (hij : i.identical j = true) :
    (Implementor.interface j).satisfies i = true := by
  refine Implementor.satisfies_iff.mpr fun m hm ↦ ?_
  obtain ⟨n, hn, hsame, hsignature⟩ := (Interface.identical_iff.mp hij).2 m hm
  exact ⟨n, Implementor.find?_of_same hj.distinct (hblank m hm) hn hsame,
    hi.identical_symm hm hsignature⟩

/-- Each method of an interface has a partner in an interface that satisfies it. -/
theorem Interface.exists_partner_of_satisfies (hj : j.DistinctThroughout)
    (hji : (Implementor.interface j).satisfies i = true) :
    ∀ m ∈ i.methods, ∃ n ∈ j.methods, m.IsPartner n := by
  intro m hm
  obtain ⟨n, hfind, hsignature⟩ := Implementor.satisfies_iff.mp hji m hm
  obtain ⟨hn, hsame⟩ := Implementor.mem_of_find?_interface hfind
  exact ⟨n, hn, hsame, hj.identical_symm hn hsignature⟩

/-- An interface with distinct identifiers is no longer than one that has a partner for each of its
methods. -/
theorem Interface.Distinct.length_le (hi : i.Distinct)
    (hpartner : ∀ m ∈ i.methods, ∃ n ∈ j.methods, m.IsPartner n) :
    i.methods.length ≤ j.methods.length := by
  refine (exists_of_covered hpartner (hi.imp fun {m m'} h n hn hn' ↦ ?_)).1
  exact Bool.false_ne_true (h.symm.trans (Identifier.same_trans (Identifier.same_symm hn.1) hn'.1))

/-- **Identity of interfaces is mutual satisfaction**, if no interface inside the two has two
methods with one identifier and no method of the two has the blank name. -/
theorem Interface.identical_iff_satisfies (hi : i.DistinctThroughout) (hj : j.DistinctThroughout)
    (hiblank : i.NoneBlank) (hjblank : j.NoneBlank) :
    (TypeExpr.interface i).identical (.interface j) = true ↔
      (Implementor.interface i).satisfies j = true
        ∧ (Implementor.interface j).satisfies i = true := by
  constructor
  · intro h
    have hback : (TypeExpr.interface j).identical (.interface i) = true :=
      TypeExpr.identical_symm_of_repeatsNone (fun k hk ↦ (hi k hk).repeatsNone) h
    rw [TypeExpr.identical] at h hback
    exact ⟨Interface.satisfies_of_identical hj hi hjblank hback,
      Interface.satisfies_of_identical hi hj hiblank h⟩
  · rintro ⟨hij, hji⟩
    have hpartner := Interface.exists_partner_of_satisfies hj hji
    have hpartner' := Interface.exists_partner_of_satisfies hi hij
    have hlength : i.methods.length = j.methods.length :=
      Nat.le_antisymm (hi.distinct.length_le hpartner) (hj.distinct.length_le hpartner')
    exact TypeExpr.identical_interface_iff.mpr
      ⟨j, rfl, Interface.identical_iff.mpr ⟨hlength, hpartner⟩⟩

/-- What takes values of a type and can be closed. -/
def closingTaker (t : TypeExpr) : Interface :=
  ⟨[⟨"Take", some "io", ⟨[t], [], true⟩, none⟩, bareMethod "Close"]⟩

/-- What can be closed and takes values of a type. -/
def takingCloser (t : TypeExpr) : Interface :=
  ⟨[bareMethod "Close", ⟨"Take", some "fs", ⟨[t], [], true⟩, none⟩]⟩

theorem identical_iff_satisfies_takers :
    ((closingTaker flushCloser).DistinctThroughout ∧ (closingTaker flushCloser).NoneBlank) ∧
    ((takingCloser closeFlusher).DistinctThroughout ∧ (takingCloser closeFlusher).NoneBlank) ∧
    (TypeExpr.interface (closingTaker flushCloser)).identical
      (.interface (takingCloser closeFlusher)) = true ∧
    (Implementor.interface (closingTaker flushCloser)).satisfies
      (takingCloser closeFlusher) = true ∧
    (Implementor.interface (takingCloser closeFlusher)).satisfies
      (closingTaker flushCloser) = true := by
  have hi : (closingTaker flushCloser).DistinctThroughout := by decide +kernel
  have hj : (takingCloser closeFlusher).DistinctThroughout := by decide +kernel
  have hiblank : (closingTaker flushCloser).NoneBlank := by decide +kernel
  have hjblank : (takingCloser closeFlusher).NoneBlank := by decide +kernel
  have hidentical : (TypeExpr.interface (closingTaker flushCloser)).identical
      (.interface (takingCloser closeFlusher)) = true := by decide +kernel
  exact ⟨⟨hi, hiblank⟩, ⟨hj, hjblank⟩, hidentical,
    (Interface.identical_iff_satisfies hi hj hiblank hjblank).mp hidentical⟩

end DeclExtract
