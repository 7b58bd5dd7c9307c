import DeclExtract.Proofs.Json.Literals
import Mathlib.Data.List.DropRight

/-!
# Reading what was written

A value without literals that are kept as written (`Plain`) is read back from its text, be it
compact or indented. Each writer puts its value in front of what follows, so everything is said with
a continuation: a value is read off and the rest is left (`ReadOff`). A container is read off if
what is in it is, whatever blanks its layout has before the members and before the closing mark
(`ReadOff.array`, `ReadOff.object`); the two layouts are instances.

The reader of values counts its steps. Twice the length of the text is enough: an item or member is
shorter than the text in front of which a bracket or comma stands, since nothing of what follows is
dropped (`InFront`).
-/

namespace DeclExtract.Json

open Text

variable {c : Char} {cs rest : List Char} {steps : Nat}

/-! ### Blanks and brackets -/

theorem skipBlanks_of_not_blank (h : isBlank c = false) : skipBlanks (c :: cs) = c :: cs := by
  simp [skipBlanks, h]

/-- Text of blanks alone. -/
def Blank (cs : List Char) : Prop :=
  ∀ b ∈ cs, isBlank b = true

theorem blank_nil : Blank [] :=
  List.forall_mem_nil _

theorem skipBlanks_append {blanks : List Char} (h : Blank blanks) (cs : List Char) :
    skipBlanks (blanks ++ cs) = skipBlanks cs :=
  List.dropWhile_append_of_pos h

theorem skipBlanks_skipBlanks (cs : List Char) : skipBlanks (skipBlanks cs) = skipBlanks cs :=
  List.dropWhile_idempotent isBlank cs

/-- Blanks before a value do not count. -/
theorem readValue_congr {cs' : List Char} (h : skipBlanks cs = skipBlanks cs') :
    readValue steps cs = readValue steps cs' := by
  cases steps with
  | zero => simp only [readValue]
  | succ steps => unfold readValue; rw [h]

/-- Blanks before an item do not count. -/
theorem readItems_congr {cs' : List Char} (h : skipBlanks cs = skipBlanks cs') :
    readItems steps cs = readItems steps cs' := by
  cases steps with
  | zero => simp only [readItems]
  | succ steps => rw [readItems, readItems, readValue_congr h]

/-- Blanks before a member do not count. -/
theorem readMembers_congr {cs' : List Char} (h : skipBlanks cs = skipBlanks cs') :
    readMembers steps cs = readMembers steps cs' := by
  cases steps with
  | zero => simp only [readMembers]
  | succ steps => rw [readMembers, readMembers, readKey, readKey, h]

theorem endsNumber_cons (h : c = ',' ∨ c = ']' ∨ c = '\x7d') : EndsNumber (c :: cs) := by
  rintro _ ⟨rfl⟩
  rcases h with rfl | rfl | rfl <;> decide

/-- Blanks end a number. -/
theorem EndsNumber.append {blanks : List Char} (h : EndsNumber rest) (hblanks : Blank blanks) :
    EndsNumber (blanks ++ rest) := by
  cases blanks with
  | nil => exact h
  | cons b bs =>
    rintro _ ⟨rfl⟩
    have hb := hblanks b List.mem_cons_self
    simp only [isBlank, Bool.or_eq_true, decide_eq_true_eq] at hb
    rcases hb with ((rfl | rfl) | rfl) | rfl <;> decide

/-- Items follow an opening bracket, unless it is closed at once. -/
theorem readValue_bracket (h : (skipBlanks cs).head? ≠ some ']') :
    readValue (steps + 1) ('[' :: cs) = (readItems steps (skipBlanks cs)).map fun (xs, rest) ↦
      (.array xs, rest) := by
  unfold readValue
  rw [skipBlanks_of_not_blank rfl]
  simp only
  split
  next heq => exact absurd (by rw [heq]; rfl) h
  next => rfl

/-- Members follow an opening brace, unless it is closed at once. -/
theorem readValue_brace (h : (skipBlanks cs).head? ≠ some '\x7d') :
    readValue (steps + 1) ('\x7b' :: cs) = (readMembers steps (skipBlanks cs)).map fun (ms, rest) ↦
      (.object ms, rest) := by
  unfold readValue
  rw [skipBlanks_of_not_blank rfl]
  simp only
  split
  next heq => exact absurd (by rw [heq]; rfl) h
  next => rfl

/-! ### Text in front of text -/

/-- A way of putting text in front of other text, whatever that is. -/
def InFront (put : List Char → List Char) : Prop :=
  ∀ rest, put rest = put [] ++ rest

namespace InFront

variable {put put' : List Char → List Char}

theorem append (cs : List Char) : InFront (cs ++ ·) := fun rest ↦ by
  change cs ++ rest = (cs ++ []) ++ rest
  rw [List.append_nil]

theorem comp (h : InFront put) (h' : InFront put') : InFront fun rest ↦ put (put' rest) :=
    fun rest ↦ by
  change put (put' rest) = put (put' []) ++ rest
  rw [h (put' rest), h (put' []), h' rest, List.append_assoc]

theorem foldr {α : Type} {put : α → List Char → List Char} {xs : List α}
    (h : ∀ x ∈ xs, InFront (put x)) : InFront fun rest ↦ xs.foldr put rest := by
  induction xs with
  | nil => exact fun _ ↦ rfl
  | cons x xs ih =>
    obtain ⟨hx, hxs⟩ := List.forall_mem_cons.mp h
    exact hx.comp (ih hxs)

theorem length_le (h : InFront put) (rest : List Char) : rest.length ≤ (put rest).length := by
  rw [h rest, List.length_append]
  exact Nat.le_add_left _ _

end InFront

theorem inFront_writeStr (s : Str) : InFront (writeStr s) :=
  (InFront.append ('"' :: s.body)).comp (InFront.append ['"'])

/-! ### Values in front of text -/

/-- A way of putting a value in front of other text. The value is read off again and the other text
is left, given twice as many steps as the whole is long; and the value is not taken for the end of
an array. -/
structure ReadOff (j : Json) (put : List Char → List Char) : Prop where
  inFront : InFront put
  head?_ne : ∀ rest, (skipBlanks (put rest)).head? ≠ some ']'
  readValue_put : ∀ {rest steps}, EndsNumber rest → 2 * (put rest).length < steps →
    readValue steps (put rest) = some (j, rest)

/-- Blanks may stand before a value. -/
theorem ReadOff.blanks {j : Json} {put : List Char → List Char} {blanks : List Char}
    (h : j.ReadOff put) (hblanks : Blank blanks) : j.ReadOff fun rest ↦ blanks ++ put rest where
  inFront := (InFront.append blanks).comp h.inFront
  head?_ne rest := by
    rw [skipBlanks_append hblanks]
    exact h.head?_ne rest
  readValue_put hrest hsteps := by
    rw [List.length_append] at hsteps
    rw [readValue_congr (skipBlanks_append hblanks _), h.readValue_put hrest (by omega)]

/-! #### Items

Commas stand between items, and blanks may stand before the bracket that closes the array. -/

section

variable {put : Json → List Char → List Char} {x : Json} {xs : List Json} {after tail : List Char}

/-- The items after the first one, and the closing bracket. -/
def itemsAfter (put : Json → List Char → List Char) (after : List Char) (xs : List Json)
    (rest : List Char) : List Char :=
  xs.foldr (fun y tail ↦ ',' :: put y tail) (after ++ ']' :: rest)

theorem itemsAfter_cons :
    itemsAfter put after (x :: xs) rest = ',' :: put x (itemsAfter put after xs rest) := rfl

theorem inFront_itemsAfter (h : ∀ y ∈ xs, y.ReadOff (put y)) : InFront (itemsAfter put after xs) :=
  (InFront.foldr fun y hy ↦ (InFront.append [',']).comp (h y hy).inFront).comp
    ((InFront.append after).comp (InFront.append [']']))

/-- The last item of an array. -/
theorem ReadOff.readItems_singleton (hx : x.ReadOff (put x)) (hafter : Blank after)
    (hsteps : 2 * (put x (after ++ ']' :: rest)).length < steps) :
    readItems (steps + 1) (put x (after ++ ']' :: rest)) = some ([x], rest) := by
  rw [readItems, hx.readValue_put ((endsNumber_cons (by simp)).append hafter) hsteps]
  simp only [skipBlanks_append hafter, skipBlanks_of_not_blank (c := ']') rfl]

/-- An item before others. -/
theorem ReadOff.readItems_cons (hx : x.ReadOff (put x))
    (hsteps : 2 * (put x (',' :: tail)).length < steps)
    (htail : readItems steps tail = some (xs, rest)) :
    readItems (steps + 1) (put x (',' :: tail)) = some (x :: xs, rest) := by
  rw [readItems, hx.readValue_put (endsNumber_cons (by simp)) hsteps]
  simp only [skipBlanks_of_not_blank (c := ',') rfl, htail, Option.map_some]

theorem readItems_itemsAfter (h : ∀ y ∈ x :: xs, y.ReadOff (put y)) (hafter : Blank after)
    (hsteps : 2 * (put x (itemsAfter put after xs rest)).length + 1 < steps) :
    readItems steps (put x (itemsAfter put after xs rest)) = some (x :: xs, rest) := by
  induction xs generalizing x steps with
  | nil =>
    obtain _ | steps := steps
    · omega
    exact (h x List.mem_cons_self).readItems_singleton hafter (by simpa [itemsAfter] using hsteps)
  | cons y ys ih =>
    obtain _ | steps := steps
    · omega
    obtain ⟨hx, hys⟩ := List.forall_mem_cons.mp h
    rw [itemsAfter_cons] at hsteps ⊢
    have hlength := hx.inFront.length_le (',' :: put y (itemsAfter put after ys rest))
    rw [List.length_cons] at hlength
    exact hx.readItems_cons (by omega) (ih hys (by omega))

/-- An array is read off if its items are. -/
theorem ReadOff.array (h : ∀ y ∈ x :: xs, y.ReadOff (put y)) (hafter : Blank after) :
    (Json.array (x :: xs)).ReadOff fun rest ↦ '[' :: put x (itemsAfter put after xs rest) where
  inFront := by
    obtain ⟨hx, hxs⟩ := List.forall_mem_cons.mp h
    exact (InFront.append ['[']).comp (hx.inFront.comp (inFront_itemsAfter hxs))
  head?_ne rest := by simp [skipBlanks_of_not_blank (c := '[') rfl]
  readValue_put {rest steps} hrest hsteps := by
    obtain _ | steps := steps
    · omega
    rw [List.length_cons] at hsteps
    have hread : readItems steps (put x (itemsAfter put after xs rest)) = some (x :: xs, rest) :=
      readItems_itemsAfter h hafter (by omega)
    -- the first item does not start with the bracket that would end an empty array
    rw [readValue_bracket ((h x List.mem_cons_self).head?_ne _),
      readItems_congr (skipBlanks_skipBlanks _), hread, Option.map_some]

end

/-! #### Members

Commas stand between members. Blanks may stand before the key of a member, and before the brace that
closes the object. -/

section

variable {put : Json → List Char → List Char} {k : String} {v : Json} {ms : List (Str × Json)}
  {before after tail : List Char}

/-- The members after the first one, and the closing brace. -/
def membersAfter (put : Json → List Char → List Char) (before after : List Char)
    (ms : List (Str × Json)) (rest : List Char) : List Char :=
  ms.foldr (fun m tail ↦ ',' :: (before ++ writeStr m.1 (':' :: put m.2 tail)))
    (after ++ '\x7d' :: rest)

theorem membersAfter_cons {s : Str} : membersAfter put before after ((s, v) :: ms) rest
    = ',' :: (before ++ writeStr s (':' :: put v (membersAfter put before after ms rest))) := rfl

theorem inFront_member (s : Str) (h : InFront (put v)) :
    InFront fun rest ↦ before ++ writeStr s (':' :: put v rest) :=
  (InFront.append before).comp ((inFront_writeStr s).comp ((InFront.append [':']).comp h))

theorem inFront_membersAfter (h : ∀ m ∈ ms, m.2.ReadOff (put m.2)) :
    InFront (membersAfter put before after ms) :=
  (InFront.foldr fun m hm ↦ (InFront.append [',']).comp (inFront_member m.1 (h m hm).inFront)).comp
    ((InFront.append after).comp (InFront.append ['\x7d']))

theorem readKey_writeStr (hbefore : Blank before) (k : String) (rest : List Char) :
    readKey (before ++ writeStr (.text k) (':' :: rest)) = some (.text k, rest) := by
  simp only [readKey, skipBlanks_append hbefore, writeStr, List.cons_append,
    skipBlanks_of_not_blank (c := '"') rfl, readStr_body, skipBlanks_of_not_blank (c := ':') rfl]

/-- The last member of an object. -/
theorem ReadOff.readMembers_singleton (hv : v.ReadOff (put v)) (hbefore : Blank before)
    (hafter : Blank after) (hsteps : 2 * (put v (after ++ '\x7d' :: rest)).length < steps) :
    readMembers (steps + 1) (before ++ writeStr (.text k) (':' :: put v (after ++ '\x7d' :: rest)))
      = some ([(.text k, v)], rest) := by
  rw [readMembers, readKey_writeStr hbefore]
  simp only [hv.readValue_put ((endsNumber_cons (by simp)).append hafter) hsteps,
    skipBlanks_append hafter, skipBlanks_of_not_blank (c := '\x7d') rfl]

/-- A member before others. -/
theorem ReadOff.readMembers_cons (hv : v.ReadOff (put v)) (hbefore : Blank before)
    (hsteps : 2 * (put v (',' :: tail)).length < steps)
    (htail : readMembers steps tail = some (ms, rest)) :
    readMembers (steps + 1) (before ++ writeStr (.text k) (':' :: put v (',' :: tail)))
      = some ((.text k, v) :: ms, rest) := by
  rw [readMembers, readKey_writeStr hbefore]
  simp only [hv.readValue_put (endsNumber_cons (by simp)) hsteps,
    skipBlanks_of_not_blank (c := ',') rfl, htail, Option.map_some]

theorem readMembers_membersAfter (hkeys : ∀ m ∈ ms, ∃ k, m.1 = .text k) (hv : v.ReadOff (put v))
    (h : ∀ m ∈ ms, m.2.ReadOff (put m.2)) (hbefore : Blank before) (hafter : Blank after)
    (hsteps : 2 * (put v (membersAfter put before after ms rest)).length + 1 < steps) :
    readMembers steps
        (before ++ writeStr (.text k) (':' :: put v (membersAfter put before after ms rest)))
      = some ((.text k, v) :: ms, rest) := by
  induction ms generalizing k v steps with
  | nil =>
    obtain _ | steps := steps
    · omega
    exact hv.readMembers_singleton hbefore hafter (by simpa [membersAfter] using hsteps)
  | cons m ms ih =>
    obtain _ | steps := steps
    · omega
    obtain ⟨_, w⟩ := m
    obtain ⟨⟨l, rfl⟩, htexts⟩ := List.forall_mem_cons.mp hkeys
    obtain ⟨hw, hms⟩ := List.forall_mem_cons.mp h
    rw [membersAfter_cons] at hsteps ⊢
    have hvalue := hv.inFront.length_le
      (',' :: (before ++ writeStr (.text l) (':' :: put w (membersAfter put before after ms rest))))
    have hkey := ((InFront.append before).comp (inFront_writeStr (.text l))).length_le
      (':' :: put w (membersAfter put before after ms rest))
    rw [List.length_cons] at hvalue hkey
    exact hv.readMembers_cons hbefore (by omega) (ih htexts hw hms (by omega))

/-- An object is read off if the values of its members are. -/
theorem ReadOff.object (hkeys : ∀ m ∈ ms, ∃ k, m.1 = .text k) (hv : v.ReadOff (put v))
    (h : ∀ m ∈ ms, m.2.ReadOff (put m.2)) (hbefore : Blank before) (hafter : Blank after) :
    (Json.object ((.text k, v) :: ms)).ReadOff fun rest ↦ '\x7b'
      :: (before ++ writeStr (.text k) (':' :: put v (membersAfter put before after ms rest))) where
  inFront :=
    (InFront.append ['\x7b']).comp
      ((inFront_member (.text k) hv.inFront).comp (inFront_membersAfter h))
  head?_ne rest := by simp [skipBlanks_of_not_blank (c := '\x7b') rfl]
  readValue_put {rest steps} hrest hsteps := by
    obtain _ | steps := steps
    · omega
    have hkey := ((InFront.append before).comp (inFront_writeStr (.text k))).length_le
      (':' :: put v (membersAfter put before after ms rest))
    rw [List.length_cons] at hsteps hkey
    have hread :
        readMembers steps
            (before ++ writeStr (.text k) (':' :: put v (membersAfter put before after ms rest)))
          = some ((.text k, v) :: ms, rest) :=
      readMembers_membersAfter hkeys hv h hbefore hafter (by omega)
    have hstart :
        (skipBlanks (before
            ++ writeStr (.text k) (':' :: put v (membersAfter put before after ms rest)))).head?
          ≠ some '\x7d' := by
      rw [skipBlanks_append hbefore, writeStr, List.cons_append, skipBlanks_of_not_blank rfl,
        List.head?_cons]
      decide
    rw [readValue_brace hstart, readMembers_congr (skipBlanks_skipBlanks _), hread, Option.map_some]

end

/-! ### Plain values -/

/-- A value whose text shows all there is to it: its numbers are natural, and its strings and keys
are Unicode text. -/
inductive Plain : Json → Prop where
  | null : Plain .null
  | bool (b : Bool) : Plain (.bool b)
  | natural (n : Nat) : Plain (.natural n)
  | text (s : String) : Plain (ofText s)
  | array {xs : List Json} (items : ∀ x ∈ xs, Plain x) : Plain (.array xs)
  | object {ms : List (Str × Json)} (keys : ∀ m ∈ ms, ∃ k, m.1 = .text k)
    (members : ∀ m ∈ ms, Plain m.2) : Plain (.object ms)

attribute [simp] Plain.bool Plain.natural Plain.text

/-- The text of a natural number starts with a digit. -/
theorem exists_toDigits_eq_cons (n : Nat) :
    ∃ d ds, Nat.toDigits 10 n = d :: ds ∧ d.isDigit = true := by
  obtain ⟨d, ds, h⟩ := List.exists_cons_of_ne_nil (Nat.toDigits_ne_nil (n := n) (b := 10))
  exact ⟨d, ds, h, Nat.isDigit_of_mem_toDigits (n := n) (b := 10) (by decide) (by decide)
    (by simp [h])⟩

theorem isBlank_eq_false_of_isDigit (h : c.isDigit = true) : isBlank c = false := by
  by_contra hblank
  simp only [isBlank, Bool.not_eq_false, Bool.or_eq_true, decide_eq_true_eq] at hblank
  rcases hblank with ((rfl | rfl) | rfl) | rfl <;> exact absurd h (by decide)

/-- Digits are read as a number. -/
theorem readValue_of_isDigit (h : c.isDigit = true) :
    readValue (steps + 1) (c :: cs) = readUnsigned (c :: cs) := by
  unfold readValue
  rw [skipBlanks_of_not_blank (isBlank_eq_false_of_isDigit h)]
  split
  iterate 6
    next heq => cases heq; exact absurd h (by decide)
  unfold readNumber
  split
  next heq => cases heq; exact absurd h (by decide)
  next => rfl

/-- The text of a number is read off. -/
theorem readOff_natural (n : Nat) : (Json.natural n).ReadOff (Nat.toDigits 10 n ++ ·) := by
  obtain ⟨d, ds, hds, hd⟩ := exists_toDigits_eq_cons n
  refine ⟨InFront.append _, fun rest hstart ↦ ?_, fun {rest steps} hrest hsteps ↦ ?_⟩
  · rw [hds, List.cons_append, skipBlanks_of_not_blank (isBlank_eq_false_of_isDigit hd),
      List.head?_cons, Option.some.injEq] at hstart
    exact absurd (hstart ▸ hd) (by decide)
  · obtain _ | steps := steps
    · omega
    have hread := readUnsigned_toDigits n hrest
    rw [hds, List.cons_append] at hread ⊢
    rw [readValue_of_isDigit hd, hread]

/-- A string is read off. -/
theorem readOff_text (s : String) : (ofText s).ReadOff (writeStr (.text s)) := by
  refine ⟨inFront_writeStr _, fun rest ↦ ?_, fun {rest steps} _ hsteps ↦ ?_⟩
  · rw [writeStr, List.cons_append, skipBlanks_of_not_blank rfl, List.head?_cons]
    decide
  · obtain _ | steps := steps
    · omega
    unfold Json.readValue
    simp only [ofText, writeStr, List.cons_append, skipBlanks_of_not_blank (c := '"') rfl,
      readStr_body s rest, Option.map_some]

/-- A word or an empty container is read off its own text. -/
theorem readOff_word {j : Json} (word : List Char) (hstart : word.head? = some c)
    (hblank : isBlank c = false) (hne : c ≠ ']')
    (hread : ∀ rest steps, Json.readValue (steps + 1) (word ++ rest) = some (j, rest)) :
    j.ReadOff (word ++ ·) := by
  obtain ⟨cs, rfl⟩ := List.head?_eq_some_iff.mp hstart
  refine ⟨InFront.append _, fun rest ↦ ?_, fun {rest steps} _ hsteps ↦ ?_⟩
  · rw [List.cons_append, skipBlanks_of_not_blank hblank, List.head?_cons]
    simpa using hne
  · obtain _ | steps := steps
    · omega
    exact hread rest steps

/-! #### The compact layout -/

theorem writeItems_eq (xs : List Json) (rest : List Char) :
    writeItems xs rest = itemsAfter write [] xs rest := by
  induction xs with
  | nil => rfl
  | cons x xs ih => exact congrArg (fun tail ↦ ',' :: write x tail) ih

theorem writeMembers_eq (ms : List (Str × Json)) (rest : List Char) :
    writeMembers ms rest = membersAfter write [] [] ms rest := by
  induction ms with
  | nil => rfl
  | cons m ms ih => exact congrArg (fun tail ↦ ',' :: writeStr m.1 (':' :: write m.2 tail)) ih

theorem Plain.readOff {j : Json} (h : j.Plain) : j.ReadOff j.write := by
  induction h with
  | null => exact readOff_word "null".toList rfl rfl (by decide) fun _ _ ↦ rfl
  | bool b =>
    cases b with
    | false => exact readOff_word "false".toList rfl rfl (by decide) fun _ _ ↦ rfl
    | true => exact readOff_word "true".toList rfl rfl (by decide) fun _ _ ↦ rfl
  | natural n => exact readOff_natural n
  | text s => exact readOff_text s
  | @array xs items ih =>
    cases xs with
    | nil => exact readOff_word ['[', ']'] rfl rfl (by decide) fun _ _ ↦ rfl
    | cons x xs =>
      have harray := ReadOff.array ih blank_nil
      convert harray using 2 with rest
      exact congrArg (fun tail ↦ '[' :: write x tail) (writeItems_eq xs rest)
  | @object ms keys members ih =>
    obtain _ | ⟨⟨_, v⟩, ms⟩ := ms
    · exact readOff_word ['\x7b', '\x7d'] rfl rfl (by decide) fun _ _ ↦ rfl
    obtain ⟨⟨k, rfl⟩, htexts⟩ := List.forall_mem_cons.mp keys
    obtain ⟨hv, hms⟩ := List.forall_mem_cons.mp ih
    have hobject := ReadOff.object (k := k) htexts hv hms blank_nil blank_nil
    convert hobject using 2 with rest
    exact congrArg (fun tail ↦ '\x7b' :: writeStr (.text k) (':' :: write v tail))
      (writeMembers_eq ms rest)

/-! #### The indented layout -/

/-- A value is read back from a text that goes on with blanks only. -/
theorem ReadOff.parse {j : Json} {put : List Char → List Char} (h : j.ReadOff put)
    (hrest : Blank rest) : parse (String.ofList (put [] ++ rest)) = some j := by
  have hnil : skipBlanks rest = [] := by
    rw [← List.append_nil rest, skipBlanks_append hrest]
    rfl
  have hends : EndsNumber rest := by
    rw [← List.append_nil rest]
    exact EndsNumber.append (by simp [EndsNumber]) hrest
  have hread :=
    h.readValue_put hends (show 2 * (put rest).length < 2 * (put rest).length + 2 by omega)
  rw [h.inFront] at hread
  rw [Json.parse, String.toList_ofList, hread]
  exact if_pos hnil

/-- A value is read back from its compact text. -/
theorem Plain.parse_compact {j : Json} (h : j.Plain) : parse j.compact = some j := by
  simpa [compact] using h.readOff.parse blank_nil

end DeclExtract.Json
