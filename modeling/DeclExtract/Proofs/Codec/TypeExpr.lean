import DeclExtract.Codec.TypeExpr
import DeclExtract.Proofs.Codec.Declaration
import DeclExtract.Proofs.TypeExpr.Identical

/-!
# Types are recovered from their JSON forms

The decoder recovers a type from its JSON form, whatever the type is built from
(`TypeExpr.recovers`), and with it a signature, a method, an interface, a field and a method set.
The proof is by induction on the types inside. Each step goes through the record or the list that
the parts are written in: a signature is recovered if its types are, a method if its signature is,
and so on up to the type (`Signature.recovers_of_types` and its like).

It makes no difference where the form was met (`Origin`), since records are written by name.
-/

namespace DeclExtract

open Json

variable {origin : Origin}

/-! ### Lists of parts

Written and read member by member, as any list is.
-/

theorem TypeExpr.recovers_list {ts : List TypeExpr}
    (h : ∀ t ∈ ts, Recovers (TypeExpr.decode origin) t.toJson t) :
    Recovers (TypeExpr.decodeAll origin) (.array (TypeExpr.allToJson ts)) ts := by
  have hdecode : TypeExpr.decodeAll origin = asList (TypeExpr.decode origin) := by
    funext budget j
    cases budget <;> cases j <;> simp [TypeExpr.decodeAll, asList]
  rw [hdecode, eq_map_of_cons (f := TypeExpr.allToJson) (g := TypeExpr.toJson) rfl fun _ _ ↦ rfl]
  exact .list h

theorem Method.recovers_list {ms : List Method}
    (h : ∀ m ∈ ms, Recovers (Method.decode origin) m.toJson m) :
    Recovers (Method.decodeAll origin) (.array (Method.allToJson ms)) ms := by
  have hdecode : Method.decodeAll origin = asList (Method.decode origin) := by
    funext budget j
    cases budget <;> cases j <;> simp [Method.decodeAll, asList]
  rw [hdecode, eq_map_of_cons (f := Method.allToJson) (g := Method.toJson) rfl fun _ _ ↦ rfl]
  exact .list h

theorem Field.recovers_list {fs : List Field}
    (h : ∀ f ∈ fs, Recovers (Field.decode origin) f.toJson f) :
    Recovers (Field.decodeAll origin) (.array (Field.allToJson fs)) fs := by
  have hdecode : Field.decodeAll origin = asList (Field.decode origin) := by
    funext budget j
    cases budget <;> cases j <;> simp [Field.decodeAll, asList]
  rw [hdecode, eq_map_of_cons (f := Field.allToJson) (g := Field.toJson) rfl fun _ _ ↦ rfl]
  exact .list h

/-! ### From the types inside to what they are inside of -/

theorem Direction.recovers (d : Direction) : Recovers decode d.toJson d where
  plain := .text _
  decode_eq budget _ := by cases budget <;> exact d.named?_text

theorem Signature.recovers_of_types {s : Signature}
    (h : ∀ t ∈ s.types, Recovers (TypeExpr.decode origin) t.toJson t) :
    Recovers (Signature.decode origin) s.toJson s := by
  obtain ⟨params, results, variadic⟩ := s
  have hparams := TypeExpr.recovers_list fun t ht ↦ h t (List.mem_append_left results ht)
  have hresults := TypeExpr.recovers_list fun t ht ↦ h t (List.mem_append_right params ht)
  rw [Signature.toJson]
  refine .record (by simp [hparams.plain, hresults.plain]) fun b hb ↦ ?_
  simp only [List.forall_mem_cons] at hb
  obtain ⟨hparamsb, hresultsb, -⟩ := hb
  simp [Signature.decode, hparams.decode_eq b hparamsb, hresults.decode_eq b hresultsb]

theorem Method.recovers_of_signature {m : Method}
    (h : Recovers (Signature.decode origin) m.signature.toJson m.signature) :
    Recovers (Method.decode origin) m.toJson m := by
  obtain ⟨name, package, signature, identity⟩ := m
  have hidentity : Recovers (fun b ↦ asOption (Identity.decode b))
      (ofOption Identity.toJson identity) identity :=
    .option (by rintro (_ | _) <;> nofun) fun i _ ↦ i.recovers
  rw [Method.toJson]
  refine .record (by simp [Plain.ofOption, h.plain, hidentity.plain]) fun b hb ↦ ?_
  simp only [List.forall_mem_cons] at hb
  obtain ⟨-, -, hsignatureb, hidentityb, -⟩ := hb
  simp [Method.decode, Record.optional, h.decode_eq b hsignatureb, hidentity.decode_eq b hidentityb]

theorem Interface.recovers_of_methods {i : Interface}
    (h : ∀ m ∈ i.methods, Recovers (Method.decode origin) m.toJson m) :
    Recovers (Interface.decode origin) i.toJson i := by
  obtain ⟨methods⟩ := i
  have hmethods := Method.recovers_list h
  rw [Interface.toJson]
  refine .record (by simp [hmethods.plain]) fun b hb ↦ ?_
  simp only [List.forall_mem_cons] at hb
  simp [Interface.decode, hmethods.decode_eq b hb.1]

theorem Field.recovers_of_type {f : Field}
    (h : Recovers (TypeExpr.decode origin) f.type.toJson f.type) :
    Recovers (Field.decode origin) f.toJson f := by
  obtain ⟨name, package, type, embedded⟩ := f
  rw [Field.toJson]
  refine .record (by simp [Plain.ofOption, h.plain]) fun b hb ↦ ?_
  simp only [List.forall_mem_cons] at hb
  obtain ⟨-, -, htypeb, -⟩ := hb
  simp [Field.decode, Record.optional, h.decode_eq b htypeb]

/-! ### All types -/

theorem TypeExpr.recovers (t : TypeExpr) : Recovers (TypeExpr.decode origin) t.toJson t := by
  induction t using TypeExpr.inductionOn with
  | basic name =>
    rw [TypeExpr.toJson]
    exact .record (by simp) fun b _ ↦ by simp [TypeExpr.decode]
  | named package name =>
    have hcontent : Recovers (TypeExpr.decodeNamed origin)
        (record [("package", ofOption ofText package), ("name", ofText name)])
        (.named package name) :=
      .record (by simp [Plain.ofOption]) fun b _ ↦ by
        simp [TypeExpr.decodeNamed, Record.optional]
    rw [TypeExpr.toJson]
    exact .variant hcontent id fun _ ↦ by simp [TypeExpr.decode]
  | pointer elem ih =>
    rw [TypeExpr.toJson]
    exact .variant ih TypeExpr.pointer fun _ ↦ by simp [TypeExpr.decode]
  | slice elem ih =>
    rw [TypeExpr.toJson]
    exact .variant ih TypeExpr.slice fun _ ↦ by simp [TypeExpr.decode]
  | array len elem ih =>
    have hcontent : Recovers (TypeExpr.decodeArray origin)
        (record [("len", .natural len.toNat), ("elem", elem.toJson)]) (.array len elem) := by
      refine .record (by simp [ih.plain]) fun b hb ↦ ?_
      simp only [List.forall_mem_cons] at hb
      simp [TypeExpr.decodeArray, ih.decode_eq b hb.2.1]
    rw [TypeExpr.toJson]
    exact .variant hcontent id fun _ ↦ by simp [TypeExpr.decode]
  | map key value ihkey ihvalue =>
    have hcontent : Recovers (TypeExpr.decodeMap origin)
        (record [("key", key.toJson), ("value", value.toJson)]) (.map key value) := by
      refine .record (by simp [ihkey.plain, ihvalue.plain]) fun b hb ↦ ?_
      simp only [List.forall_mem_cons] at hb
      simp [TypeExpr.decodeMap, ihkey.decode_eq b hb.1, ihvalue.decode_eq b hb.2.1]
    rw [TypeExpr.toJson]
    exact .variant hcontent id fun _ ↦ by simp [TypeExpr.decode]
  | chan dir elem ih =>
    have hcontent : Recovers (TypeExpr.decodeChan origin)
        (record [("dir", dir.toJson), ("elem", elem.toJson)]) (.chan dir elem) := by
      refine .record (by simp [dir.recovers.plain, ih.plain]) fun b hb ↦ ?_
      simp only [List.forall_mem_cons] at hb
      simp [TypeExpr.decodeChan, dir.recovers.decode_eq b hb.1, ih.decode_eq b hb.2.1]
    rw [TypeExpr.toJson]
    exact .variant hcontent id fun _ ↦ by simp [TypeExpr.decode]
  | func signature ih =>
    rw [TypeExpr.toJson]
    exact .variant (Signature.recovers_of_types ih) TypeExpr.func fun _ ↦ by simp [TypeExpr.decode]
  | interface i ih =>
    have hinterface : Recovers (Interface.decode origin) i.toJson i :=
      Interface.recovers_of_methods fun m hm ↦
        Method.recovers_of_signature (Signature.recovers_of_types (ih m hm))
    rw [TypeExpr.toJson]
    exact .variant hinterface TypeExpr.interface fun _ ↦ by simp [TypeExpr.decode]
  | struct fields ih =>
    have hfields := Field.recovers_list fun f hf ↦ Field.recovers_of_type (ih f hf)
    rw [TypeExpr.toJson]
    exact .variant hfields TypeExpr.struct fun _ ↦ by simp [TypeExpr.decode]

theorem Signature.recovers (s : Signature) : Recovers (Signature.decode origin) s.toJson s :=
  recovers_of_types fun t _ ↦ t.recovers

theorem Method.recovers (m : Method) : Recovers (Method.decode origin) m.toJson m :=
  recovers_of_signature m.signature.recovers

theorem Interface.recovers (i : Interface) : Recovers (Interface.decode origin) i.toJson i :=
  recovers_of_methods fun m _ ↦ m.recovers

theorem Field.recovers (f : Field) : Recovers (Field.decode origin) f.toJson f :=
  recovers_of_type f.type.recovers

theorem MethodSet.recovers (s : MethodSet) : Recovers (MethodSet.decode origin) s.toJson s := by
  have hmethods :
      Recovers (asList (Method.decode origin)) (ofList Method.toJson s.methods) s.methods :=
    .list fun m _ ↦ m.recovers
  refine .record (by simp [hmethods.plain]) fun b hb ↦ ?_
  simp only [List.forall_mem_cons] at hb
  simp [MethodSet.decode, hmethods.decode_eq b hb.1]

end DeclExtract
