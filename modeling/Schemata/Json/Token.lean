import Schemata.Json.Basic

/-!
# Tokens of JSON

`tokens?` cuts a text into tokens, one character at a time, and is `none` when some character cannot
belong to any token. A numeral and a word run as far as their characters go and are judged whole.
-/

namespace Schemata.Json

/-- A lexical unit. A text is apart from the other leaves because only a text can be a key. -/
inductive Token where
  | leftBrace
  | rightBrace
  | leftBracket
  | rightBracket
  | colon
  | comma
  | string (s : Option String)
  | leaf (j : Json)
  deriving Repr

/-- A unit of a quoted text: a character, or a surrogate written as an escape. -/
inductive Piece where
  | char (c : Char)
  | surrogate (n : Nat)
  deriving Repr

/-- What a four-digit escape denotes. -/
def Piece.ofCode (n : Nat) : Piece :=
  if 0xD800 ≤ n && n ≤ 0xDFFF then .surrogate n else .char (Char.ofNat n)

/-- The characters of a quoted text: a high and a low surrogate side by side make one character, and
any other surrogate makes the whole `none`. -/
def charsOf? : List Piece → Option (List Char)
  | [] => some []
  | .char c :: rest => (charsOf? rest).map (c :: ·)
  | .surrogate high :: .surrogate low :: rest =>
    if high < 0xDC00 && 0xDC00 ≤ low then
      (charsOf? rest).map (Char.ofNat (0x10000 + (high - 0xD800) * 0x400 + (low - 0xDC00)) :: ·)
    else none
  | .surrogate _ :: _ => none

namespace Token

/-- How far the unit at hand has come; what has been read of it is kept in reverse. -/
inductive State where
  | between
  | word (letters : List Char)
  | numeral (chars : List Char)
  | quoted (pieces : List Piece)
  | escape (pieces : List Piece)
  | code (pieces : List Piece) (value : Nat) (missing : Nat)

/-- The token that a word spells. -/
def ofWord? (letters : List Char) : Option Token :=
  if letters = ['t', 'r', 'u', 'e'] then some (.leaf (.bool true))
  else if letters = ['f', 'a', 'l', 's', 'e'] then some (.leaf (.bool false))
  else if letters = ['n', 'u', 'l', 'l'] then some (.leaf .null)
  else none

/-- The token that a numeral spells. -/
def ofNumeral? (chars : List Char) : Option Token :=
  (Number.ofChars? chars).map fun n ↦ .leaf (.number n)

/-- The token of a quoted text. -/
def ofQuoted (pieces : List Piece) : Token :=
  .string ((charsOf? pieces).map String.ofList)

/-- The character that a one-letter escape denotes. -/
def escaped? : Char → Option Char
  | '"' => some '"'
  | '\\' => some '\\'
  | '/' => some '/'
  | 'b' => some '\x08'
  | 'f' => some '\x0c'
  | 'n' => some '\n'
  | 'r' => some '\r'
  | 't' => some '\t'
  | _ => none

/-- The value of a hexadecimal digit. -/
def hexDigit? (c : Char) : Option Nat :=
  if c.isDigit then some (c.toNat - '0'.toNat)
  else if 'a' ≤ c && c ≤ 'f' then some (c.toNat - 'a'.toNat + 10)
  else if 'A' ≤ c && c ≤ 'F' then some (c.toNat - 'A'.toNat + 10)
  else none

/-- Whether a character can go on in a numeral. -/
def inNumeral (c : Char) : Bool :=
  c.isDigit || c == '-' || c == '+' || c == '.' || c == 'e' || c == 'E'

/-- Begins a unit. Only four characters are white space between tokens. -/
def start : Char → Option (State × List Token)
  | ' ' => some (.between, [])
  | '\t' => some (.between, [])
  | '\n' => some (.between, [])
  | '\r' => some (.between, [])
  | '\x7b' => some (.between, [.leftBrace])
  | '\x7d' => some (.between, [.rightBrace])
  | '[' => some (.between, [.leftBracket])
  | ']' => some (.between, [.rightBracket])
  | ':' => some (.between, [.colon])
  | ',' => some (.between, [.comma])
  | '"' => some (.quoted [], [])
  | c =>
    if c.isDigit || c == '-' then some (.numeral [c], [])
    else if c.isAlpha then some (.word [c], [])
    else none

/-- Ends a unit, if it can end here. -/
def finish : State → Option (List Token)
  | .between => some []
  | .word letters => (ofWord? letters.reverse).map ([·])
  | .numeral chars => (ofNumeral? chars.reverse).map ([·])
  | .quoted _ => none
  | .escape _ => none
  | .code _ _ _ => none

/-- Ends the unit at hand and begins the next. -/
def restart (s : State) (c : Char) : Option (State × List Token) := do
  let ended ← finish s
  let (next, begun) ← start c
  return (next, ended ++ begun)

/-- Takes one character; the tokens that it completes come with the next state. -/
def step (s : State) (c : Char) : Option (State × List Token) :=
  match s with
  | .between => start c
  | .word letters => if c.isAlpha then some (.word (c :: letters), []) else restart s c
  | .numeral chars => if inNumeral c then some (.numeral (c :: chars), []) else restart s c
  | .quoted pieces =>
    if c == '"' then some (.between, [ofQuoted pieces.reverse])
    else if c == '\\' then some (.escape pieces, [])
    else if c.toNat < 0x20 then none
    else some (.quoted (.char c :: pieces), [])
  | .escape pieces =>
    if c == 'u' then some (.code pieces 0 4, [])
    else (escaped? c).map fun e ↦ (.quoted (.char e :: pieces), [])
  | .code pieces value missing =>
    (hexDigit? c).map fun d ↦
      let value := 16 * value + d
      if missing ≤ 1 then (.quoted (.ofCode value :: pieces), [])
      else (.code pieces value (missing - 1), [])

/-- The tokens of the characters that follow a state. -/
def scan (s : State) : List Char → Option (List Token)
  | [] => finish s
  | c :: cs => do
    let (next, ended) ← step s c
    return ended ++ (← scan next cs)

end Token

/-- The tokens of a text. -/
def tokens? (s : String) : Option (List Token) :=
  Token.scan .between s.toList

end Schemata.Json
