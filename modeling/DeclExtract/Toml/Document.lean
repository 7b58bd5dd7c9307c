import DeclExtract.Toml.Value

/-!
# TOML documents

A document is the entries before the first header, and one section for each header. The headers of a
document have to agree on what the tables are: a table is defined once, a name stands either for one
table or for an array of tables, and an array of tables is written as such from the first time on.
Inside an array of tables, the headers below it belong to its last element, so the same names may
come again in the next element.
-/

namespace DeclExtract.Toml

/-- A header with what stands below it. -/
structure Section where
  /-- The dotted name of the table. -/
  header : List String
  /-- Whether the header adds an element to an array of tables. -/
  isElement : Bool
  /-- The entries of the table. -/
  entries : Entries

/-- A document. -/
structure Document where
  /-- The entries that belong to no section. -/
  entries : Entries
  /-- The sections, in the order of the text. -/
  sections : List Section

/-! ### Lines -/

/-- The tokens after the end of a line, which has to come first. -/
def endLine (ts : List Token) : Option (List Token) :=
  match skipBlanks ts with
  | .newline :: ts => some ts
  | [] => some []
  | _ => none

/-- A header after its opening bracket. -/
def readHeader (ts : List Token) : Option (Section × List Token) := do
  let isElement := ts.head? = some .openBracket
  let ts := if isElement then ts.drop 1 else ts
  let (header, ts) ← readKey (skipBlanks ts)
  let ts ← expect .closeBracket ts
  let ts ← if isElement then expect .closeBracket ts else some ts
  let ts ← endLine ts
  some (⟨header, isElement, []⟩, ts)

/-- An entry on a line of its own, together with the entries before it. -/
def readEntry (before : Entries) (ts : List Token) : Option (Entries × List Token) := do
  let (key, ts) ← readKey ts
  let ts ← expect .equals ts
  let (v, ts) ← readValue (2 * ts.length + 2) (skipBlanks ts)
  let entries ← addEntry v key before
  let ts ← endLine ts
  some (entries, ts)

/-- The entries up to the next header or the end. -/
def readEntryLines : Nat → Entries → List Token → Option (Entries × List Token)
  | 0, _, _ => none
  | steps + 1, before, ts =>
    match skipLines ts with
    | [] => some (before, [])
    | .openBracket :: ts => some (before, .openBracket :: ts)
    | ts =>
      match readEntry before ts with
      | some (entries, ts) => readEntryLines steps entries ts
      | none => none

/-- The sections up to the end. -/
def readSections : Nat → List Token → Option (List Section)
  | 0, _ => none
  | _ + 1, [] => some []
  | steps + 1, .openBracket :: ts => do
    let (s, ts) ← readHeader ts
    let (entries, ts) ← readEntryLines (ts.length + 1) [] ts
    let rest ← readSections steps ts
    some ({ s with entries } :: rest)
  | _ + 1, _ => none

/-! ### Agreement of headers -/

/-- What the headers so far have made of a name. -/
inductive Standing where
  /-- A table that a longer header goes through. -/
  | implied
  /-- A table that has its own header. -/
  | defined
  /-- An array of tables with its number of elements. -/
  | elements (count : Nat)
  deriving Repr, DecidableEq

/-- A table: its names from the outside inwards, each with the number of its element, which is zero
for a table that is no element. -/
abbrev Place := List (String × Nat)

/-- The standing of the names that were used so far, each with the place of the table around it. -/
abbrev Standings := List ((Place × String) × Standing)

/-- The standing of a name. -/
def Standings.get? (known : Standings) (around : Place) (name : String) : Option Standing :=
  (known.find? fun k ↦ k.1 == (around, name)).map Prod.snd

/-- The standings with that of one name added; what was said of the name before no longer counts. -/
def Standings.put (known : Standings) (around : Place) (name : String) (s : Standing) : Standings :=
  ((around, name), s) :: known

/-- The standings after a header, unless it contradicts them. -/
def enter (isElement : Bool) (around : Place) : List String → Standings → Option Standings
  | [], known => some known
  | [name], known =>
    match isElement, known.get? around name with
    | true, none => some (known.put around name (.elements 1))
    | true, some (.elements count) => some (known.put around name (.elements (count + 1)))
    | false, none => some (known.put around name .defined)
    | false, some .implied => some (known.put around name .defined)
    | _, _ => none
  | name :: names, known =>
    match known.get? around name with
    | some (.elements count) => enter isElement (around ++ [(name, count)]) names known
    | some _ => enter isElement (around ++ [(name, 0)]) names known
    | none => enter isElement (around ++ [(name, 0)]) names (known.put around name .implied)

/-- Whether the headers of sections agree with one another. -/
def headersAgree (sections : List Section) : Bool :=
  (sections.foldlM (fun known s ↦ enter s.isElement [] s.header known) []).isSome

/-! ### Documents -/

/-- The document that a text denotes, if it is one. -/
def parse (text : String) : Option Document := do
  let ts ← Token.scan text
  let (entries, ts) ← readEntryLines (ts.length + 1) [] ts
  let sections ← readSections (ts.length + 1) ts
  if headersAgree sections then some ⟨entries, sections⟩ else none

end DeclExtract.Toml
