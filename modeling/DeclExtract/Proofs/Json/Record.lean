import DeclExtract.Json.Decoder
import DeclExtract.Proofs.Json.RoundTrip
import DeclExtract.Proofs.Lists

/-!
# What is decoded from what was encoded

A decoder recovers a value from its JSON form if it gives the value back under any budget that
covers the nesting of the form, and the form is plain, so that the text can take its place
(`Recovers`, `Recovers.read`).

Recovery is shown from the parts: an array of forms gives back the list (`Recovers.list`), and a
record of forms is left to its fields (`Recovers.record`). The keys of an encoded record are
different, so a field is what is looked up under its name (`Record.given?_named`).
-/

namespace DeclExtract.Json

/-! ### Nesting -/

mutual

/-- How many arrays and objects stand around the innermost of them, itself counted. -/
def nesting : Json → Nat
  | .array xs => nestingOfItems xs + 1
  | .object ms => nestingOfMembers ms + 1
  | _ => 0

/-- The deepest nesting of the items of an array. -/
def nestingOfItems : List Json → Nat
  | [] => 0
  | x :: xs => max x.nesting (nestingOfItems xs)

/-- The deepest nesting of the members of an object. -/
def nestingOfMembers : List (Str × Json) → Nat
  | [] => 0
  | (_, v) :: ms => max v.nesting (nestingOfMembers ms)

end

theorem nestingOfItems_le {xs : List Json} {n : Nat} :
    nestingOfItems xs ≤ n ↔ ∀ x ∈ xs, x.nesting ≤ n := by
  induction xs with
  | nil => simp [nestingOfItems]
  | cons x xs ih => simp only [nestingOfItems, Nat.max_le, ih, List.forall_mem_cons]

theorem nestingOfMembers_le {ms : List (Str × Json)} {n : Nat} :
    nestingOfMembers ms ≤ n ↔ ∀ m ∈ ms, m.2.nesting ≤ n := by
  induction ms with
  | nil => simp [nestingOfMembers]
  | cons m ms ih => simp only [nestingOfMembers, Nat.max_le, ih, List.forall_mem_cons]

/-- An array takes one unit of the budget, and what is left covers its items. -/
theorem nesting_array_le {xs : List Json} {budget : Nat} :
    (Json.array xs).nesting ≤ budget ↔ ∃ b, budget = b + 1 ∧ ∀ x ∈ xs, x.nesting ≤ b := by
  simp only [nesting, ← nestingOfItems_le]
  constructor
  · intro h
    exact ⟨budget - 1, by omega, by omega⟩
  · rintro ⟨b, rfl, h⟩
    omega

/-- An object takes one unit of the budget, and what is left covers its members. -/
theorem nesting_object_le {ms : List (Str × Json)} {budget : Nat} :
    (Json.object ms).nesting ≤ budget ↔ ∃ b, budget = b + 1 ∧ ∀ m ∈ ms, m.2.nesting ≤ b := by
  simp only [nesting, ← nestingOfMembers_le]
  constructor
  · intro h
    exact ⟨budget - 1, by omega, by omega⟩
  · rintro ⟨b, rfl, h⟩
    omega

theorem nesting_record_le {ms : List (String × Json)} {budget : Nat} :
    (record ms).nesting ≤ budget ↔ ∃ b, budget = b + 1 ∧ ∀ m ∈ ms, m.2.nesting ≤ b := by
  simp only [record, nesting_object_le, List.forall_mem_map]

@[simp]
theorem nesting_null : Json.null.nesting = 0 :=
  rfl

@[simp]
theorem nesting_bool (b : Bool) : (Json.bool b).nesting = 0 :=
  rfl

@[simp]
theorem nesting_natural (n : Nat) : (Json.natural n).nesting = 0 :=
  rfl

@[simp]
theorem nesting_ofText (s : String) : (ofText s).nesting = 0 :=
  rfl

theorem nesting_ofOption_le {α : Type} {encode : α → Json} {x : Option α} {n : Nat}
    (h : ∀ a ∈ x, (encode a).nesting ≤ n) : (ofOption encode x).nesting ≤ n := by
  cases x with
  | none => exact Nat.zero_le n
  | some a => exact h a rfl

theorem nesting_ofList_le {α : Type} {encode : α → Json} {xs : List α} {n : Nat}
    (h : ∀ x ∈ xs, (encode x).nesting ≤ n) : (ofList encode xs).nesting ≤ n + 1 :=
  nesting_array_le.mpr ⟨n, rfl, List.forall_mem_map.mpr h⟩

theorem nesting_record_le_succ {ms : List (String × Json)} {n : Nat}
    (h : ∀ m ∈ ms, m.2.nesting ≤ n) : (record ms).nesting ≤ n + 1 :=
  nesting_record_le.mpr ⟨n, rfl, h⟩

/-! ### Recovery -/

variable {α : Type} {decode : Decoder α} {a : α}

/-- The decoder gives a value back from its JSON form, which shows all in its text, wherever the
budget covers the nesting of the form. -/
structure Recovers (decode : Decoder α) (j : Json) (a : α) : Prop where
  plain : j.Plain
  decode_eq (budget : Nat) (h : j.nesting ≤ budget) : decode budget j = some a

/-- A value is what is read from the compact text of its JSON form. -/
def ReadsBack (encode : α → Json) (decode : Decoder α) (a : α) : Prop :=
  (parse (encode a).compact).bind (decode depthLimit) = some a

/-- A value that is recovered from its JSON form is read back from the text of the form, unless that
nests too deep. -/
theorem Recovers.readsBack {encode : α → Json} (h : Recovers decode (encode a) a)
    (hnesting : (encode a).nesting ≤ depthLimit) : ReadsBack encode decode a := by
  rw [ReadsBack, h.plain.parse_compact, Option.bind_some, h.decode_eq depthLimit hnesting]

/-- Lists are recovered item by item. -/
theorem Recovers.list {encode : α → Json} {xs : List α}
    (h : ∀ x ∈ xs, Recovers decode (encode x) x) :
    Recovers (asList decode) (ofList encode xs) xs where
  plain := .array (List.forall_mem_map.mpr fun x hx ↦ (h x hx).plain)
  decode_eq budget hbudget := by
    obtain ⟨b, rfl, hitems⟩ := nesting_array_le.mp hbudget
    exact mapM_map_eq_some fun x hx ↦ (h x hx).decode_eq b (List.forall_mem_map.mp hitems x hx)

theorem Plain.record {ms : List (String × Json)} (h : ∀ m ∈ ms, m.2.Plain) : (record ms).Plain :=
  .object (List.forall_mem_map.mpr fun m _ ↦ ⟨m.1, rfl⟩) (List.forall_mem_map.mpr h)

/-- A record is recovered where its fields are, with one unit of the budget less. -/
theorem Recovers.record {ms : List (String × Json)} (hplain : ∀ m ∈ ms, m.2.Plain)
    (h : ∀ b, (∀ m ∈ ms, m.2.nesting ≤ b) → decode (b + 1) (Json.record ms) = some a) :
    Recovers decode (Json.record ms) a where
  plain := .record hplain
  decode_eq budget hbudget := by
    obtain ⟨b, rfl, hmembers⟩ := nesting_record_le.mp hbudget
    exact h b hmembers

/-- An alternative is recovered where its content is. -/
theorem Recovers.variant {β : Type} {content : Json} {decodeContent : Decoder β} {b : β}
    (hcontent : Recovers decodeContent content b) {name : String} (f : β → α)
    (h : ∀ budget,
      decode (budget + 1) (Json.record [(name, content)]) = (decodeContent budget content).map f) :
    Recovers decode (Json.record [(name, content)]) (f b) := by
  refine .record (List.forall_mem_singleton.mpr hcontent.plain) fun budget hbudget ↦ ?_
  have hnesting : content.nesting ≤ budget := hbudget (name, content) List.mem_cons_self
  rw [h, hcontent.decode_eq budget hnesting, Option.map_some]

/-! ### Fields -/

/-- The fields of an encoded record go by their names. -/
@[simp]
theorem asRecord_record (fields : Nat) (ms : List (String × Json)) :
    asRecord fields (record ms) = some (.named ms) := by
  have hnames : (ms.map fun m ↦ (Str.text m.1, m.2)).mapM memberName = some ms :=
    mapM_map_eq_some fun _ _ ↦ rfl
  exact congrArg (Option.map Record.named) hnames

@[simp]
theorem asContent_record (origin : Origin) (fields : Nat) (ms : List (String × Json)) :
    asContent origin fields (record ms) = some (.named ms) := by
  cases origin <;> exact asRecord_record fields ms

@[simp]
theorem asVariant_record (name : String) (content : Json) :
    asVariant (record [(name, content)]) = some (name, content) :=
  rfl

namespace Record

variable {ms : List (String × Json)}

/-- Where no key is given twice, a field is what is looked up under its name. -/
theorem given?_named (hkeys : (ms.map Prod.fst).Nodup) (place : Nat) (name : String) :
    (named ms).given? place name = some (ms.lookup name) := by
  induction ms with
  | nil => rfl
  | cons m ms ih =>
    obtain ⟨k, v⟩ := m
    obtain ⟨hk, hms⟩ := List.nodup_cons.mp hkeys
    by_cases h : k = name
    · subst h
      have hfilter : ms.filter (fun m ↦ m.1 == k) = [] := by
        rw [List.filter_eq_nil_iff]
        intro m hm heq
        exact hk (List.mem_map.mpr ⟨m, hm, beq_iff_eq.mp heq⟩)
      simp [given?, hfilter]
    · have hk : (k == name) = false := by simpa using h
      have hname : (name == k) = false := by simpa using Ne.symm h
      simpa [given?, hk, List.lookup_cons, hname] using ih hms

@[simp]
theorem required_named (hkeys : (ms.map Prod.fst).Nodup) (place : Nat) (name : String)
    (decode : Json → Option α) :
    (named ms).required place name decode = (ms.lookup name).bind decode := by
  rw [required, given?_named hkeys]
  cases ms.lookup name <;> rfl

@[simp]
theorem withDefault_named (hkeys : (ms.map Prod.fst).Nodup) (place : Nat) (name : String)
    (default : α) (decode : Json → Option α) :
    (named ms).withDefault place name default decode
      = ((ms.lookup name).map decode).getD (some default) := by
  rw [withDefault, given?_named hkeys]
  cases ms.lookup name <;> rfl

@[simp]
theorem lookup_cons_of_ne {k name : String} (h : name ≠ k) (v : Json) (ms : List (String × Json)) :
    ((k, v) :: ms).lookup name = ms.lookup name := by
  rw [List.lookup_cons, beq_eq_false_iff_ne.mpr h]

end Record

/-! ### Plain values -/

@[simp]
theorem asText_ofText (s : String) : asText (ofText s) = some s :=
  rfl

@[simp]
theorem asBool_bool (b : Bool) : asBool (.bool b) = some b :=
  rfl

theorem asNat_natural {bound n : Nat} (h : n < bound) : asNat bound (.natural n) = some n :=
  if_pos h

@[simp]
theorem asWord32_natural (w : UInt32) : asWord32 (.natural w.toNat) = some w := by
  rw [asWord32, asNat_natural w.toNat_lt, Option.map_some, UInt32.ofNat_toNat]

@[simp]
theorem asWord64_natural (w : UInt64) : asWord64 (.natural w.toNat) = some w := by
  rw [asWord64, asNat_natural w.toNat_lt, Option.map_some, UInt64.ofNat_toNat]

/-- An optional value is recovered if the value is, and no value is written as the absent one is. -/
theorem asOption_ofOption {decode : Json → Option α} {encode : α → Json} {x : Option α}
    (hnull : ∀ a, encode a ≠ .null) (h : ∀ a ∈ x, decode (encode a) = some a) :
    asOption decode (ofOption encode x) = some x := by
  cases x with
  | none => rfl
  | some a =>
    have hsome : asOption decode (encode a) = (decode (encode a)).map some := by
      unfold asOption
      split
      next heq => exact absurd heq (hnull a)
      next => rfl
    rw [ofOption, hsome, h a rfl, Option.map_some]

@[simp]
theorem asOption_asText (x : Option String) : asOption asText (ofOption ofText x) = some x :=
  asOption_ofOption nofun fun _ _ ↦ rfl

@[simp]
theorem asOption_asWord32 (x : Option UInt32) :
    asOption asWord32 (ofOption (fun w ↦ .natural w.toNat) x) = some x :=
  asOption_ofOption nofun fun w _ ↦ asWord32_natural w

theorem Plain.ofOption {encode : α → Json} {x : Option α} (h : ∀ a ∈ x, (encode a).Plain) :
    (ofOption encode x).Plain := by
  cases x with
  | none => exact .null
  | some a => exact h a rfl

theorem Recovers.option {encode : α → Json} {x : Option α} (hnull : ∀ a, encode a ≠ .null)
    (h : ∀ a ∈ x, Recovers decode (encode a) a) :
    Recovers (fun budget ↦ asOption (decode budget)) (Json.ofOption encode x) x where
  plain := .ofOption fun a ha ↦ (h a ha).plain
  decode_eq budget hbudget := asOption_ofOption hnull fun a ha ↦
    (h a ha).decode_eq budget (by obtain rfl := ha; exact hbudget)

end DeclExtract.Json
