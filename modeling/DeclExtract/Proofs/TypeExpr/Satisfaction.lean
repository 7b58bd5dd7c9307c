import DeclExtract.Proofs.Lists
import DeclExtract.Proofs.TypeExpr.Identical
import DeclExtract.TypeExpr.Satisfaction

/-!
# Satisfying an interface by way of another

A type satisfies an interface if each method of the interface finds a method of the type, and the
signatures are identical (`Implementor.satisfies_iff`). It is the first method with the right
identifier that is found, and a method list may repeat an identifier. Two identifiers that are one
still find the same method (`Implementor.find?_congr`), whatever is looked up in. That is why a
lookup may be done in two steps, first in an interface and then in a type that satisfies it, and
ends at the method that the direct lookup ends at (`Implementor.find?_trans`).

The bindings of a concrete type are the found methods in the order of the interface
(`MethodSet.bindings?_concrete`), so they compose place by place (`Implementor.satisfies_trans`).
-/

namespace DeclExtract

variable {v : Implementor} {s : MethodSet} {i j : Interface} {m found : Method}
variable {x y : Identifier} {k : Nat}

/-! ### Looking up methods -/

theorem MethodSet.find?_congr (h : x.same y = true) : s.find? x = s.find? y := by
  simp [find?, Identifier.same_congr_right h]

theorem Interface.find?_congr (h : x.same y = true) : i.find? x = i.find? y := by
  simp [find?, (Identifier.same_iff.mp h).1, Identifier.same_congr_right h]

/-- What is found stands at its place and has the identifier that is looked up. -/
theorem Interface.getElem?_of_find? (h : i.find? x = some (k, found)) :
    i.methods[k]? = some found ∧ found.identifier.same x = true := by
  simp only [find?] at h
  split at h
  · simp at h
  · split at h
    · simp at h
    next place hplace =>
      obtain ⟨hlt, hsame, -⟩ := List.findIdx?_eq_some_iff_getElem.mp hplace
      simp only [List.getElem?_eq_getElem hlt, Option.map_some, Option.some.injEq,
        Prod.mk.injEq] at h
      obtain ⟨rfl, rfl⟩ := h
      exact ⟨List.getElem?_eq_getElem hlt, hsame⟩

/-- The method that a type has for an identifier: the first that an interface finds, or the first in
a method set. -/
def Implementor.find? (v : Implementor) (x : Identifier) : Option Method :=
  match v with
  | .interface i => (i.find? x).map Prod.snd
  | .concrete s => s.find? x

/-- **Identifiers that are one find the same method.** -/
theorem Implementor.find?_congr (h : x.same y = true) : v.find? x = v.find? y := by
  cases v with
  | interface i => rw [find?, Interface.find?_congr h, find?]
  | concrete s => exact MethodSet.find?_congr h

/-! ### What satisfaction amounts to -/

/-- A method is bound to the method that is found for it, if the signatures are identical. -/
theorem MethodSet.bind?_eq_some_iff {b : Binding} : s.bind? m = some b ↔
    ∃ found, s.find? m.identifier = some found ∧ found.signature.identical m.signature = true
      ∧ ⟨m, found⟩ = b := by
  cases h : s.find? m.identifier <;> simp [bind?, h]

/-- A concrete type binds the methods of an interface one by one; there is nothing special about the
empty one. -/
theorem Implementor.bindings?_concrete :
    (Implementor.concrete s).bindings? i = i.methods.mapM s.bind? := by
  cases h : i.methods <;> simp [bindings?, h]

/-- **Satisfaction.** A type satisfies an interface if each method of the interface finds a method
of the type, and the signatures are identical. -/
theorem Implementor.satisfies_iff : v.satisfies i = true ↔ ∀ m ∈ i.methods,
    ∃ found, v.find? m.identifier = some found ∧ found.signature.identical m.signature = true := by
  cases v with
  | interface t =>
    have hprovides (m : Method) : t.provides m = true ↔ ∃ found,
        (Implementor.interface t).find? m.identifier = some found
          ∧ found.signature.identical m.signature = true := by
      cases h : t.find? m.identifier <;> simp [Interface.provides, find?, h]
    simp only [← hprovides]
    cases h : i.methods <;> simp [satisfies, bindings?, h]
  | concrete s =>
    have hbind (m : Method) : (s.bind? m).isSome = true ↔ ∃ found,
        (Implementor.concrete s).find? m.identifier = some found
          ∧ found.signature.identical m.signature = true := by
      simp [Option.isSome_iff_exists, MethodSet.bind?_eq_some_iff, find?]
    simp only [satisfies, bindings?_concrete, isSome_mapM, List.all_eq_true, hbind]

/-! ### Two steps -/

/-- **A lookup may be done in two steps.** An identifier that finds a method of an interface finds,
in a type that satisfies the interface, the method that this one finds; the signature is identical
to it. -/
theorem Implementor.find?_trans (hvi : v.satisfies i = true) (hfind : i.find? x = some (k, found)) :
    ∃ provided, v.find? found.identifier = some provided ∧ v.find? x = some provided
      ∧ provided.signature.identical found.signature = true := by
  obtain ⟨hplace, hsame⟩ := Interface.getElem?_of_find? hfind
  obtain ⟨provided, hprovided, hsignature⟩ :=
    satisfies_iff.mp hvi found (List.mem_of_getElem? hplace)
  exact ⟨provided, hprovided, (find?_congr hsame).symm.trans hprovided, hsignature⟩

/-- What an interface has for a method that is asked of it: the place, the method there, and that
the signatures are identical. -/
theorem Interface.exists_find? (hij : (Implementor.interface i).satisfies j = true)
    (hm : m ∈ j.methods) :
    ∃ k found, i.find? m.identifier = some (k, found)
      ∧ found.signature.identical m.signature = true := by
  obtain ⟨found, hfound, hsignature⟩ := Implementor.satisfies_iff.mp hij m hm
  obtain ⟨⟨k, _⟩, hfind, rfl⟩ := Option.map_eq_some_iff.mp hfound
  exact ⟨k, _, hfind, hsignature⟩

/-- **Satisfaction by way of an interface.** A type that satisfies an interface satisfies what the
interface satisfies. A concrete type then binds each method of the second interface to the method
that it binds to a method of the first one: the method that is found there. No two methods of a list
need to have different identifiers. -/
theorem Implementor.satisfies_trans (hvi : v.satisfies i = true)
    (hij : (Implementor.interface i).satisfies j = true) :
    v.satisfies j = true ∧ ∀ s, v = .concrete s → ∃ bs cs,
      v.bindings? i = some bs ∧ v.bindings? j = some cs ∧ cs.length = j.methods.length ∧
      ∀ (place : Nat) (m : Method), j.methods[place]? = some m → ∃ k found provided,
        i.find? m.identifier = some (k, found) ∧ i.methods[k]? = some found ∧
        bs[k]? = some ⟨found, provided⟩ ∧ cs[place]? = some ⟨m, provided⟩ := by
  have hvj : v.satisfies j = true := by
    refine satisfies_iff.mpr fun m hm ↦ ?_
    obtain ⟨k, found, hfind, hsignature⟩ := Interface.exists_find? hij hm
    obtain ⟨provided, -, hprovided, hsignature'⟩ := find?_trans hvi hfind
    exact ⟨provided, hprovided, Signature.identical_trans hsignature' hsignature⟩
  refine ⟨hvj, ?_⟩
  rintro s rfl
  obtain ⟨bs, hbs⟩ := Option.isSome_iff_exists.mp hvi
  obtain ⟨cs, hcs⟩ := Option.isSome_iff_exists.mp hvj
  refine ⟨bs, cs, hbs, hcs, ?_, fun place m hm ↦ ?_⟩
  all_goals rw [bindings?_concrete] at hbs hcs
  · simpa using (congrArg List.length (mapM_eq_some_iff.mp hcs)).symm
  · obtain ⟨k, found, hfind, -⟩ := Interface.exists_find? hij (List.mem_of_getElem? hm)
    obtain ⟨provided, hfound, hprovided, -⟩ := find?_trans hvi hfind
    have hk := (Interface.getElem?_of_find? hfind).1
    obtain ⟨b, hb, hbk⟩ := getElem?_of_mapM hbs hk
    obtain ⟨c, hc, hcplace⟩ := getElem?_of_mapM hcs hm
    obtain ⟨_, hfound', -, rfl⟩ := MethodSet.bind?_eq_some_iff.mp hb
    obtain ⟨_, hprovided', -, rfl⟩ := MethodSet.bind?_eq_some_iff.mp hc
    -- both bindings name what the lookup ends at
    obtain rfl := Option.some.inj (hfound.symm.trans hfound')
    obtain rfl := Option.some.inj (hprovided.symm.trans hprovided')
    exact ⟨k, found, provided, hfind, hk, hbk, hcplace⟩

/-- A method that takes bytes, as a package declares it. -/
def bytesMethod (package name : String) : Method :=
  ⟨name, some package, ⟨[.slice (.basic "byte")], [.basic "int", .named none "error"], false⟩,
    some (.path ⟨package, name⟩)⟩

/-- A type that can be read from in two ways, and written to. -/
def file : MethodSet :=
  ⟨[bytesMethod "os" "Read", bytesMethod "os" "Write", bytesMethod "bufio" "Read"]⟩

/-- What can be written to and read from; the second is said twice. -/
def readWriter : Interface :=
  ⟨[bytesMethod "io" "Write", bytesMethod "io" "Read", bytesMethod "fs" "Read"]⟩

/-- What can be read from. -/
def reader : Interface :=
  ⟨[bytesMethod "net" "Read"]⟩

theorem satisfies_trans_file : (Implementor.concrete file).satisfies readWriter = true ∧
    (Implementor.interface readWriter).satisfies reader = true ∧
    (Implementor.concrete file).satisfies reader = true ∧
    ∃ cs : List Binding, (Implementor.concrete file).bindings? reader = some cs
      ∧ cs.length = 1 := by
  have hvi : (Implementor.concrete file).satisfies readWriter = true := by decide +kernel
  have hij : (Implementor.interface readWriter).satisfies reader = true := by decide +kernel
  obtain ⟨hvj, hbindings⟩ := Implementor.satisfies_trans hvi hij
  obtain ⟨_, cs, -, hcs, hlength, -⟩ := hbindings file rfl
  exact ⟨hvi, hij, hvj, cs, hcs, hlength⟩

end DeclExtract
