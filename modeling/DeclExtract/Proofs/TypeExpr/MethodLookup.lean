import DeclExtract.Proofs.TypeExpr.MutualSatisfaction

/-!
# Which method a lookup finds

There are two lookups for methods. That of an interface does not find the blank name; that of a
method set goes by identifiers alone. Both take the first method that they come to, so on one list
of methods they find the same one unless the name is blank (`Interface.find?_eq`). Whether the list
satisfies an interface can then be asked of it as an interface or as a method set: the answers
differ just for interfaces that have a method with the blank name
(`Implementor.satisfies_interface_iff`).

That the first method is taken plays no part where the methods of a concrete type have distinct
identifiers. The method that has an identifier is then the only one
(`MethodSet.Distinct.having_eq_singleton`), wherever it stands in the list. So satisfaction can be
read off without a search, the bindings can be told from the methods that they bind, and the order
of the method set is of no account (`MethodSet.Distinct.decides`).
-/

namespace DeclExtract

variable {s s' : MethodSet} {m n : Method} {x : Identifier}

/-! ### One list of methods, looked up in two ways -/

/-- **An interface finds what a method set finds**, and where it stands; but it does not find the
blank name. -/
theorem Interface.find?_eq (ms : List Method) (x : Identifier) : (⟨ms⟩ : Interface).find? x =
    if x.name = blankName then none
    else ((⟨ms⟩ : MethodSet).find? x).map fun m ↦ (ms.findIdx fun n ↦ n.identifier.same x, m) := by
  by_cases hblank : x.name = blankName
  · simp [find?, hblank]
  rw [if_neg hblank, find?, if_neg (by simpa using hblank), MethodSet.find?,
    List.find?_eq_bind_findIdx?_getElem?]
  cases hplace : ms.findIdx? fun n ↦ n.identifier.same x with
  | none => rfl
  | some place =>
    obtain ⟨-, hfirst⟩ := List.findIdx?_eq_some_iff_findIdx_eq.mp hplace
    rw [Option.bind_some, hfirst]

/-- The method that an interface has for an identifier is that of the method set, unless the name is
blank. -/
theorem Implementor.find?_interface_eq (ms : List Method) (x : Identifier) :
    (Implementor.interface ⟨ms⟩).find? x =
    if x.name = blankName then none else (Implementor.concrete ⟨ms⟩).find? x := by
  rw [find?, Interface.find?_eq, find?]
  split <;> simp

/-- **The interface and the method set of one list of methods** satisfy the same interfaces, except
that the interface satisfies none that has a method with the blank name. -/
theorem Implementor.satisfies_interface_iff (ms : List Method) (t : Interface) :
    ((Implementor.interface ⟨ms⟩).satisfies t = true ↔
      t.NoneBlank ∧ (Implementor.concrete ⟨ms⟩).satisfies t = true) ∧
    ∀ x, (⟨ms⟩ : Interface).find? x = if x.name = blankName then none
      else ((⟨ms⟩ : MethodSet).find? x).map fun m ↦
          (ms.findIdx fun n ↦ n.identifier.same x, m) := by
  refine ⟨?_, Interface.find?_eq ms⟩
  rw [satisfies_iff, satisfies_iff, Interface.NoneBlank, ← forall₂_and]
  refine forall₂_congr fun m _ ↦ ?_
  rw [find?_interface_eq]
  by_cases hblank : m.name = blankName
  · simp [Method.identifier, hblank]
  · simp [Method.identifier, hblank]

/-- A list of one method, which has the blank name. -/
def blankMethods : List Method :=
  [bareMethod blankName]

/-- **A blank method is found in the method set alone**, and so the method set alone satisfies the
interface. -/
theorem Implementor.satisfies_blankMethods_ne :
    (Implementor.interface ⟨blankMethods⟩).satisfies ⟨blankMethods⟩ = false ∧
    (Implementor.concrete ⟨blankMethods⟩).satisfies ⟨blankMethods⟩ = true ∧
    ((⟨blankMethods⟩ : Interface).find? ⟨blankName, some "io"⟩).isSome = false ∧
    ((⟨blankMethods⟩ : MethodSet).find? ⟨blankName, some "io"⟩).isSome = true := by
  decide +kernel

/-! ### Distinct identifiers -/

/-- No two methods of a concrete type have the same identifier. -/
def MethodSet.Distinct (s : MethodSet) : Prop :=
  s.methods.Pairwise fun m n ↦ m.identifier.same n.identifier = false

instance (s : MethodSet) : Decidable s.Distinct :=
  inferInstanceAs (Decidable (s.methods.Pairwise _))

namespace MethodSet

/-- The methods of a concrete type that have an identifier. -/
def having (s : MethodSet) (x : Identifier) : List Method :=
  s.methods.filter fun m ↦ m.identifier.same x

theorem mem_having : m ∈ s.having x ↔ m ∈ s.methods ∧ m.identifier.same x = true :=
  List.mem_filter

/-- The lookup finds the first of them. -/
theorem find?_eq_head? (s : MethodSet) (x : Identifier) : s.find? x = (s.having x).head? :=
  List.head?_filter.symm

namespace Distinct

variable (hs : s.Distinct)

include hs

/-- **A method that has an identifier is the only one that does.** -/
theorem having_eq_singleton (hm : m ∈ s.methods) (hsame : m.identifier.same x = true) :
    s.having x = [m] := by
  obtain ⟨before, after, hsplit⟩ := List.append_of_mem hm
  rw [Distinct, hsplit, List.pairwise_append, List.pairwise_cons] at hs
  obtain ⟨-, ⟨hafter, -⟩, hbefore⟩ := hs
  -- a method with the identifier would have that of `m`
  have hother {k : Method} (hk : k.identifier.same x = true) :
      k.identifier.same m.identifier = true := Identifier.same_trans hk (Identifier.same_symm hsame)
  have hnoneBefore : before.filter (fun k ↦ k.identifier.same x) = [] := by
    refine List.filter_eq_nil_iff.mpr fun k hk hkx ↦ ?_
    exact Bool.false_ne_true ((hbefore k hk m List.mem_cons_self).symm.trans (hother hkx))
  have hnoneAfter : after.filter (fun k ↦ k.identifier.same x) = [] := by
    refine List.filter_eq_nil_iff.mpr fun k hk hkx ↦ ?_
    exact Bool.false_ne_true ((hafter k hk).symm.trans (Identifier.same_symm (hother hkx)))
  rw [having, hsplit, List.filter_append, hnoneBefore, List.filter_cons, if_pos hsame, hnoneAfter]
  rfl

/-- A lookup finds a method just if it is the only one that has the identifier. -/
theorem find?_eq_some_iff : s.find? x = some m ↔ s.having x = [m] := by
  rw [find?_eq_head?]
  constructor
  · intro hhead
    obtain ⟨hm, hsame⟩ := mem_having.mp (List.mem_of_head? hhead)
    exact hs.having_eq_singleton hm hsame
  · intro hsingleton
    rw [hsingleton, List.head?_cons]

/-- **A lookup finds the same method whatever the order of the methods is.** -/
theorem find?_perm (hperm : s'.methods.Perm s.methods) : s'.find? = s.find? := by
  funext x
  have hhaving : (s'.having x).Perm (s.having x) := hperm.filter _
  rw [find?_eq_head?, find?_eq_head?]
  -- there is at most one method to find
  by_cases hnone : s.having x = []
  · rw [hnone] at hhaving ⊢
    rw [hhaving.eq_nil]
  · obtain ⟨m, hm⟩ := List.exists_mem_of_ne_nil _ hnone
    obtain ⟨hmem, hsame⟩ := mem_having.mp hm
    rw [hs.having_eq_singleton hmem hsame] at hhaving ⊢
    rw [List.perm_singleton.mp hhaving]

/-- A method is bound to the only one that has its identifier, if the signatures are identical. -/
theorem bind?_eq_some_iff {b : Binding} : s.bind? b.required = some b ↔
    s.having b.required.identifier = [b.provided] ∧
      b.provided.signature.identical b.required.signature = true := by
  rw [MethodSet.bind?_eq_some_iff, ← hs.find?_eq_some_iff]
  constructor
  · rintro ⟨found, hfound, hsignature, hb⟩
    obtain rfl : found = b.provided := congrArg Binding.provided hb
    exact ⟨hfound, hsignature⟩
  · rintro ⟨hfound, hsignature⟩
    exact ⟨b.provided, hfound, hsignature, rfl⟩

/-- **Satisfaction is decided.** A concrete type whose methods have distinct identifiers satisfies
an interface just if each method of the interface has a method there with the same identifier and an
identical signature. The bindings are one for each method of the interface, in its order, with the
one method that has its identifier. The order of the methods of the concrete type is of no
account. -/
theorem decides (t : Interface) :
    ((Implementor.concrete s).satisfies t = true ↔ ∀ m ∈ t.methods, ∃ n ∈ s.methods,
      n.identifier.same m.identifier = true ∧ n.signature.identical m.signature = true) ∧
    (∀ bs : List Binding, (Implementor.concrete s).bindings? t = some bs ↔
      bs.map Binding.required = t.methods ∧
      ∀ b ∈ bs, s.having b.required.identifier = [b.provided] ∧
        b.provided.signature.identical b.required.signature = true) ∧
    ∀ s' : MethodSet, s'.methods.Perm s.methods →
      (Implementor.concrete s').bindings? t = (Implementor.concrete s).bindings? t := by
  refine ⟨?_, fun bs ↦ ?_, fun s' hperm ↦ ?_⟩
  · rw [Implementor.satisfies_iff]
    refine forall₂_congr fun m _ ↦ ⟨?_, ?_⟩
    · rintro ⟨n, hfind, hsignature⟩
      have hn : n ∈ s.having m.identifier :=
        hs.find?_eq_some_iff.mp hfind ▸ List.mem_singleton_self n
      obtain ⟨hmem, hsame⟩ := mem_having.mp hn
      exact ⟨n, hmem, hsame, hsignature⟩
    · rintro ⟨n, hmem, hsame, hsignature⟩
      exact ⟨n, hs.find?_eq_some_iff.mpr (hs.having_eq_singleton hmem hsame), hsignature⟩
  · have hrequired {m : Method} {b : Binding} (hb : s.bind? m = some b) : b.required = m := by
      obtain ⟨found, -, -, rfl⟩ := MethodSet.bind?_eq_some_iff.mp hb
      rfl
    rw [Implementor.bindings?_concrete, mapM_eq_some_iff_of_inverse hrequired]
    exact and_congr_right fun _ ↦ forall₂_congr fun b _ ↦ hs.bind?_eq_some_iff
  · have hbind : s'.bind? = s.bind? := by
      funext m
      rw [bind?, bind?, hs.find?_perm hperm]
    rw [Implementor.bindings?_concrete, Implementor.bindings?_concrete, hbind]

end Distinct

/-- A type that can be written to, and that two packages can flush, each in its own way. -/
def buffer : MethodSet :=
  ⟨[bytesMethod "os" "Write", bytesMethod "bufio" "flush", bytesMethod "zip" "flush"]⟩

/-- What one of the packages can flush, and what can be written to. -/
def flushWriter : Interface :=
  ⟨[bytesMethod "zip" "flush", bytesMethod "io" "Write"]⟩

theorem decides_buffer :
    buffer.Distinct ∧ (Implementor.concrete buffer).satisfies flushWriter = true ∧
    (∃ bs : List Binding, (Implementor.concrete buffer).bindings? flushWriter = some bs ∧
      bs.map Binding.required = flushWriter.methods ∧ ∀ b ∈ bs,
      buffer.having b.required.identifier = [b.provided]) ∧
    (Implementor.concrete ⟨buffer.methods.reverse⟩).bindings? flushWriter =
      (Implementor.concrete buffer).bindings? flushWriter := by
  have hdistinct : buffer.Distinct := by decide +kernel
  have hsatisfies : (Implementor.concrete buffer).satisfies flushWriter = true := by decide +kernel
  obtain ⟨-, hbindings, horder⟩ := MethodSet.Distinct.decides hdistinct flushWriter
  obtain ⟨bs, hbs⟩ := Option.isSome_iff_exists.mp hsatisfies
  obtain ⟨hrequired, hprovided⟩ := (hbindings bs).mp hbs
  exact ⟨hdistinct, hsatisfies, ⟨bs, hbs, hrequired, fun b hb ↦ (hprovided b hb).1⟩,
    horder ⟨buffer.methods.reverse⟩ (List.reverse_perm _)⟩

end MethodSet

end DeclExtract
