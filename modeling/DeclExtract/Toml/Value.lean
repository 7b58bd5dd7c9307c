import DeclExtract.Toml.Number
import DeclExtract.Toml.Token

/-!
# Values of TOML text

What can stand to the right of an equals sign. Strings and truth values are taken as they are,
arrays and inline tables by their parts. Numbers and dates are checked for their form and not
evaluated: no setting is a number or a date.

A dotted key opens tables on its way, and a later dotted key may go on in a table that was opened
like that, but in no other value (`addEntry`).
-/

namespace DeclExtract.Toml

/-- A value of TOML text. -/
inductive Value where
  | string (s : String)
  | boolean (b : Bool)
  | number
  | date
  | array (items : List Value)
  /-- A table between braces, which is closed. -/
  | inlineTable (entries : List (String × Value))
  /-- A table that a dotted key has opened, which further dotted keys may extend. -/
  | openTable (entries : List (String × Value))

/-- Keys with their values, in the order of the text. -/
abbrev Entries := List (String × Value)

/-- The entries with one more value under a dotted key, unless the key leads through a value that
cannot be extended. -/
def addEntry (value : Value) : List String → Entries → Option Entries
  | [], _ => none
  | [key], entries => some (entries ++ [(key, value)])
  | key :: keys, entries =>
    match entries.findIdx? fun e ↦ e.1 == key with
    | none => (addEntry value keys []).map fun inner ↦ entries ++ [(key, .openTable inner)]
    | some place =>
      match entries[place]? with
      | some (_, .openTable inner) =>
        (addEntry value keys inner).map fun inner ↦ entries.set place (key, .openTable inner)
      | _ => none

/-! ### Steps along the tokens -/

/-- The tokens without leading blanks. -/
def skipBlanks : List Token → List Token
  | .blanks _ :: ts => ts
  | ts => ts

/-- The tokens without leading blanks and line ends. -/
def skipLines : List Token → List Token
  | .blanks _ :: ts => skipLines ts
  | .newline :: ts => skipLines ts
  | ts => ts

/-- The tokens after a given one, which has to come first. -/
def expect (t : Token) : List Token → Option (List Token)
  | t' :: ts => if t' = t then some ts else none
  | [] => none

/-- The tokens after a given one, if that comes first; otherwise all of them. -/
def skipOne (t : Token) : List Token → List Token
  | t' :: ts => if t' = t then ts else t' :: ts
  | [] => []

/-- A word and the tokens after it. -/
def readWord : List Token → Option (List Char × List Token)
  | .word w :: ts => some (w, ts)
  | _ => none

/-- The tokens after a word, which has to come first. -/
def skipWord (ts : List Token) : Option (List Token) :=
  (readWord ts).map Prod.snd

/-- If the given token comes first, the tokens after it and the word behind it; otherwise all. -/
def skipPart (t : Token) (ts : List Token) : Option (List Token) :=
  match expect t ts with
  | some ts => skipWord ts
  | none => some ts

/-! ### Keys -/

/-- One part of a key: a bare word, or a string of one line. -/
def readKeyPart : List Token → Option (String × List Token)
  | .word w :: ts => some (String.ofList w, ts)
  | .quoted s false :: ts => some (s, ts)
  | _ => none

/-- The further parts of a key, each after a point. -/
def readKeyParts : Nat → List Token → Option (List String × List Token)
  | 0, _ => none
  | steps + 1, ts =>
    match skipBlanks ts with
    | .period :: ts => do
      let (part, ts) ← readKeyPart (skipBlanks ts)
      let (parts, ts) ← readKeyParts steps ts
      some (part :: parts, ts)
    | ts => some ([], ts)

/-- A dotted key, and the tokens after it and its blanks. -/
def readKey (ts : List Token) : Option (List String × List Token) := do
  let (part, ts) ← readKeyPart ts
  let (parts, ts) ← readKeyParts (ts.length + 1) ts
  some (part :: parts, ts)

/-! ### Numbers and dates -/

/-- The exponent of a decimal number, taken from what is left of its word. A mark at the end of the
word may be followed by a plus sign, which is a token of its own, and by the digits. -/
def readExponent (suffix : List Char) (ts : List Token) :
    Option (Option (Bool × List Char) × List Token) :=
  match suffix with
  | [] => some (none, ts)
  | mark :: cs =>
    if mark = 'e' || mark = 'E' then
      match cs with
      | [] => do
        let (w, ts) ← readWord (skipOne .plus ts)
        match ← Number.readRun Number.fractionDigits w with
        | (negative, ds, []) => some (some (negative, ds), ts)
        | _ => none
      | cs =>
        match Number.readRun Number.exponentDigits cs with
        | some (negative, ds, []) => some (some (negative, ds), ts)
        | _ => none
    else none

/-- The tokens after a decimal number whose integral part, with whatever is attached to it, is the
given word and whose fraction is another word. -/
def readDecimal (word : List Char) (fraction : Option (List Char)) (ts : List Token) :
    Option (List Token) := do
  let (_, whole, suffix) ← Number.readRun Number.decimal word
  let (places, suffix) ←
    match fraction, suffix with
    | none, suffix => some ([], suffix)
    | some w, [] => (Number.readRun Number.fractionDigits w).map Prod.snd
    | some _, _ => none
  let (exponent, ts) ← readExponent suffix ts
  if Number.isDecimal whole places exponent then some ts else none

/-- The tokens after a number that starts with a word. -/
def readNumber (word : List Char) (ts : List Token) : Option (List Token) :=
  if ["0x".toList, "0o".toList, "0b".toList].any (·.isPrefixOf word) then
    if Number.isIntegerWord word then some ts else none
  else if word.contains 'e' || word.contains 'E' then readDecimal word none ts
  else
    match ts with
    | .period :: ts => do
      let (fraction, ts) ← readWord ts
      readDecimal word (some fraction) ts
    | ts =>
      if ["inf".toList, "-inf".toList, "nan".toList, "-nan".toList].contains word then some ts
      else if Number.isIntegerWord word then some ts
      else none

/-- Whether two characters stand next to each other in a word. -/
def hasPair (a b : Char) : List Char → Bool
  | c :: d :: cs => (c == a && d == b) || hasPair a b (d :: cs)
  | _ => false

/-- Whether a word starts a date: it has the mark between date and time, or a hyphen that is neither
its sign nor that of an exponent. -/
def startsDate (word : List Char) : Bool :=
  word.contains 'T' || word.contains 't'
    || ((word.drop 1).contains '-' && !hasPair 'e' '-' word && !hasPair 'E' '-' word)

/-- The tokens after the minutes, the seconds, their fraction and the offset of a time. -/
def skipTime (ts : List Token) : Option (List Token) := do
  let ts ← skipWord ts
  let ts ← expect .colon ts
  let ts ← skipWord ts
  let ts ← skipPart .period ts
  let ts ← skipPart .plus ts
  skipPart .colon ts

/-- The tokens after a date or a time, or both with a point or one space between them, where the
first word has been read, and perhaps the colon after it. -/
def skipDate (colonRead : Bool) (ts : List Token) : Option (List Token) :=
  let ts := match ts with
    | .blanks true :: .word _ :: rest => rest
    | ts => ts
  if colonRead then skipTime ts
  else
    match ts with
    | .colon :: ts => skipTime ts
    | ts => some ts

/-- A value that starts with a word: a truth value, a number or a date. -/
def readWordValue (word : List Char) (ts : List Token) : Option (Value × List Token) :=
  if word = "true".toList then some (.boolean true, ts)
  else if word = "false".toList then some (.boolean false, ts)
  else
    match word with
    | [] => none
    | c :: _ =>
      if c.isDigit || c = '-' || word = "inf".toList || word = "nan".toList then
        if startsDate word then (skipDate false ts).map (.date, ·)
        else
          match ts with
          | .colon :: ts => (skipDate true ts).map (.date, ·)
          | ts => (readNumber word ts).map (.number, ·)
      else none

/-! ### Values -/

mutual

/-- A value; the first argument bounds the number of steps. -/
def readValue : Nat → List Token → Option (Value × List Token)
  | 0, _ => none
  | steps + 1, ts =>
    match ts with
    | .quoted s _ :: ts => some (.string s, ts)
    | .word w :: ts => readWordValue w ts
    | .plus :: ts => do
      let (w, ts) ← readWord ts
      let ts ← readNumber w ts
      some (.number, ts)
    | .openBrace :: ts =>
      match skipBlanks ts with
      | .closeBrace :: ts => some (.inlineTable [], ts)
      | ts => (readEntries steps ts []).map fun (entries, ts) ↦ (.inlineTable entries, ts)
    | .openBracket :: ts => (readItems steps ts).map fun (items, ts) ↦ (.array items, ts)
    | _ => none

/-- The items of an array and its closing bracket; blanks, line ends and a last comma may stand
between them. -/
def readItems : Nat → List Token → Option (List Value × List Token)
  | 0, _ => none
  | steps + 1, ts =>
    match skipLines ts with
    | .closeBracket :: ts => some ([], ts)
    | ts =>
      match readValue steps ts with
      | none => none
      | some (v, ts) =>
        match skipLines ts with
        | .comma :: ts => (readItems steps ts).map fun (vs, ts) ↦ (v :: vs, ts)
        | .closeBracket :: ts => some ([v], ts)
        | _ => none

/-- The entries of an inline table and its closing brace, after the entries before them. -/
def readEntries : Nat → List Token → Entries → Option (Entries × List Token)
  | 0, _, _ => none
  | steps + 1, ts, before =>
    match readKey ts with
    | none => none
    | some (key, ts) =>
      match expect .equals ts with
      | none => none
      | some ts =>
        match readValue steps (skipBlanks ts) with
        | none => none
        | some (v, ts) =>
          match addEntry v key before with
          | none => none
          | some entries =>
            match skipBlanks ts with
            | .closeBrace :: ts => some (entries, ts)
            | .comma :: ts => readEntries steps (skipBlanks ts) entries
            | _ => none

end

end DeclExtract.Toml
