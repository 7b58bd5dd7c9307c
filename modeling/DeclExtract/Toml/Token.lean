import DeclExtract.Text.Hexadecimal

/-!
# Tokens of TOML text

The first reading of a TOML text: it falls into punctuation, bare words, strings, blanks and line
ends. A line may end with a carriage return before the line feed, a byte order mark may stand in
front of everything, and a comment counts as nothing at all, since it always runs to the end of its
line.

A reader of a string or of the whole text carries a bound on its steps; every step consumes a
character, so the length of the text is bound enough.
-/

namespace DeclExtract.Toml

/-- A token of TOML text. -/
inductive Token where
  | newline
  /-- Spaces and tabs; `single` says whether it is one space alone. -/
  | blanks (single : Bool)
  | equals
  | period
  | comma
  | colon
  | plus
  | openBrace
  | closeBrace
  | openBracket
  | closeBracket
  /-- Letters, digits, hyphens and underscores: a bare key, a number, a date or a truth value. -/
  | word (text : List Char)
  /-- A string of any of the four kinds, with its escapes resolved. -/
  | quoted (text : String) (multiline : Bool)
  deriving Repr, DecidableEq

namespace Token

/-! ### Characters -/

/-- The text with every carriage return and line feed made one line feed. -/
def foldLineEnds : List Char → List Char
  | '\r' :: '\n' :: cs => '\n' :: foldLineEnds cs
  | c :: cs => c :: foldLineEnds cs
  | [] => []

/-- Whether a character may stand in a bare word. -/
def isWordChar (c : Char) : Bool :=
  c.isAlphanum || c = '-' || c = '_'

/-- Whether a character is a space or a tab. -/
def isBlank (c : Char) : Bool :=
  c = ' ' || c = '\t'

/-- Whether a character may stand in a comment. -/
def isCommentChar (c : Char) : Bool :=
  c = '\t' || 32 ≤ c.toNat

/-- Whether a character may stand unescaped in a string, line ends apart. -/
def isStringChar (c : Char) : Bool :=
  c = '\t' || (32 ≤ c.toNat && c.toNat ≠ 127)

/-! ### Escapes -/

/-- The character with the given hexadecimal number, unless the number is that of a surrogate or of
nothing. -/
def scalar? (digits : List Char) : Option Char := do
  let code ← Text.Hexadecimal.number? digits
  if code.isValidChar then some (Char.ofNat code) else none

/-- The character that an escape of one letter stands for. -/
def letterEscape : Char → Option Char
  | '"' => some '"'
  | '\\' => some '\\'
  | 'b' => some '\x08'
  | 'f' => some '\x0c'
  | 'n' => some '\n'
  | 'r' => some '\r'
  | 't' => some '\t'
  | _ => none

/-- The character of an escape after its backslash, and the rest. -/
def readEscape : List Char → Option (Char × List Char)
  | 'u' :: cs =>
    if 4 ≤ cs.length then (scalar? (cs.take 4)).map fun c ↦ (c, cs.drop 4) else none
  | 'U' :: cs =>
    if 8 ≤ cs.length then (scalar? (cs.take 8)).map fun c ↦ (c, cs.drop 8) else none
  | e :: cs => (letterEscape e).map fun c ↦ (c, cs)
  | [] => none

/-- The rest after a backslash that joins lines: the blanks behind it have to end with a line end,
and all blanks and line ends after that are passed over. -/
def skipLineJoin (cs : List Char) : Option (List Char) :=
  match cs.dropWhile isBlank with
  | '\n' :: cs => some (cs.dropWhile fun c ↦ isBlank c || c = '\n')
  | [] => some []
  | _ => none

/-! ### Strings -/

/-- What kind of string is being read. -/
structure Quoting where
  /-- The character that ends the string. -/
  quote : Char
  /-- Whether a backslash starts an escape. -/
  escapes : Bool
  /-- Whether the string may run over several lines. -/
  multiline : Bool

/-- A string from after its opening quotes to after its closing quotes; `before` is what has been
read, in reverse. Up to two quotes may stand directly before the three that close a string of
several lines. -/
def readString (q : Quoting) : Nat → List Char → List Char → Option (List Char × List Char)
  | 0, _, _ => none
  | _ + 1, _, [] => none
  | steps + 1, before, c :: cs =>
    if c = '\n' then
      if q.multiline then readString q steps ('\n' :: before) cs else none
    else if c = q.quote then
      if q.multiline then
        match cs.takeWhile (· = q.quote) with
        | [] => readString q steps (c :: before) cs
        | [_] => readString q steps (c :: c :: before) (cs.drop 1)
        | [_, _] => some (before.reverse, cs.drop 2)
        | [_, _, _] => some ((c :: before).reverse, cs.drop 3)
        | _ => some ((c :: c :: before).reverse, cs.drop 4)
      else some (before.reverse, cs)
    else if q.escapes && c = '\\' then
      match cs with
      | e :: rest =>
        if q.multiline && (isBlank e || e = '\n') then
          match skipLineJoin (e :: rest) with
          | some rest => readString q steps before rest
          | none => none
        else
          match readEscape (e :: rest) with
          | some (c, rest) => readString q steps (c :: before) rest
          | none => none
      | [] => none
    else if isStringChar c then readString q steps (c :: before) cs
    else none

/-- A string after its first quote. A line end directly after the opening quotes of a string of
several lines is not part of it. -/
def readQuoted (quote : Char) (escapes : Bool) (cs : List Char) :
    Option (Token × List Char) :=
  let finish := fun multiline (text, rest) ↦ (Token.quoted (String.ofList text) multiline, rest)
  match cs.takeWhile (· = quote) with
  | [] => (readString ⟨quote, escapes, false⟩ (cs.length + 1) [] cs).map (finish false)
  | [_] => some (.quoted "" false, cs.drop 1)
  | _ =>
    let cs := cs.drop 2
    let body := if cs.head? = some '\n' then cs.drop 1 else cs
    (readString ⟨quote, escapes, true⟩ (body.length + 1) [] body).map (finish true)

/-! ### Tokens -/

/-- The token of a punctuation character. -/
def punctuation? : Char → Option Token
  | '\n' => some .newline
  | '=' => some .equals
  | '.' => some .period
  | ',' => some .comma
  | ':' => some .colon
  | '+' => some .plus
  | '\x7b' => some .openBrace
  | '\x7d' => some .closeBrace
  | '[' => some .openBracket
  | ']' => some .closeBracket
  | _ => none

/-- The tokens of a text without carriage returns before line feeds. -/
def scanFrom : Nat → List Char → Option (List Token)
  | 0, _ => none
  | _ + 1, [] => some []
  | steps + 1, c :: cs =>
    match punctuation? c with
    | some token => (scanFrom steps cs).map (token :: ·)
    | none =>
      if isBlank c then
        let more := cs.takeWhile isBlank
        let single := c = ' ' && more.isEmpty
        (scanFrom steps (cs.dropWhile isBlank)).map (.blanks single :: ·)
      else if c = '#' then scanFrom steps (cs.dropWhile isCommentChar)
      else if c = '"' then
        match readQuoted '"' true cs with
        | some (token, rest) => (scanFrom steps rest).map (token :: ·)
        | none => none
      else if c = '\x27' then
        match readQuoted '\x27' false cs with
        | some (token, rest) => (scanFrom steps rest).map (token :: ·)
        | none => none
      else if isWordChar c then
        let text := c :: cs.takeWhile isWordChar
        (scanFrom steps (cs.dropWhile isWordChar)).map (.word text :: ·)
      else none

/-- The tokens of a text, or `none` where it holds something that is no token. -/
def scan (text : String) : Option (List Token) :=
  let cs := foldLineEnds text.toList
  let cs := if cs.head? = some '\uFEFF' then cs.drop 1 else cs
  scanFrom (cs.length + 1) cs

end Token

end DeclExtract.Toml
