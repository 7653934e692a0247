import GatewayRuntime.Lib.GoText

/-!
# Reading JSON texts

`json.Unmarshal` accepts a text that is one JSON value and stores it in the
destination.  The text is read in one pass, as the scanner of `encoding/json`
does: characters become tokens, and tokens move a parser with a stack of open
arrays and objects.

* A string may hold any character from U+0020 on; an escaped surrogate that is
  not half of a pair becomes U+FFFD.
* Arrays and objects may be nested 10000 deep.
* An object keeps its members in the order of the text, repeated names included:
  what a repeated name means is up to the destination.
* The value of a number is left out.
-/

namespace GatewayRuntime
namespace GoJson

universe u

/-- A JSON value. -/
inductive Json where
  | null
  | bool (b : Bool)
  | number
  | string (s : String)
  | array (elements : List Json)
  | object (members : List (String × Json))

section Strings

/-- A piece of a string: a character, or a UTF-16 code unit that was escaped. -/
inductive Piece where
  | rune (c : Char)
  | unit (n : Nat)

/-- A code unit outside a surrogate pair. -/
def unitRune (n : Nat) : Char :=
  if 0xD800 ≤ n ∧ n < 0xE000 then Char.ofNat 0xFFFD else Char.ofNat n

/-- The characters of a string; a code unit waits for the other half of a pair. -/
def runes : Option Nat → List Piece → List Char
  | none, [] => []
  | some n, [] => [unitRune n]
  | none, .rune c :: rest => c :: runes none rest
  | some n, .rune c :: rest => unitRune n :: c :: runes none rest
  | none, .unit n :: rest => runes (some n) rest
  | some hi, .unit lo :: rest =>
      if 0xD800 ≤ hi ∧ hi < 0xDC00 ∧ 0xDC00 ≤ lo ∧ lo < 0xE000 then
        Char.ofNat (0x10000 + (hi - 0xD800) * 0x400 + (lo - 0xDC00)) :: runes none rest
      else unitRune hi :: runes (some lo) rest

/-- The character that a short escape stands for. -/
def escapedRune (c : Char) : Option Char :=
  ("\"\\/bfnrt".toList.zip ['"', '\\', '/', Char.ofNat 8, Char.ofNat 12, '\n', '\r', '\t']).lookup c

/-- The value of a hexadecimal digit. -/
def hexDigit (c : Char) : Option Nat :=
  if c.isDigit then some (c.toNat - 48)
  else if 97 ≤ c.toNat ∧ c.toNat ≤ 102 then some (c.toNat - 87)
  else if 65 ≤ c.toNat ∧ c.toNat ≤ 70 then some (c.toNat - 55)
  else none

end Strings

section Numbers

/-- The exponent of a number, or nothing. -/
def isExponent : List Char → Bool
  | [] => true
  | e :: rest =>
      let digits :=
        match rest with
        | '+' :: ds => ds
        | '-' :: ds => ds
        | ds => ds
      (e == 'e' || e == 'E') && !digits.isEmpty && digits.all Char.isDigit

/-- The fraction and the exponent of a number, or nothing. -/
def isFraction : List Char → Bool
  | '.' :: d :: rest => d.isDigit && isExponent (rest.dropWhile Char.isDigit)
  | rest => isExponent rest

/-- A JSON number. -/
def isNumber (w : List Char) : Bool :=
  let unsigned :=
    match w with
    | '-' :: ds => ds
    | ds => ds
  match unsigned with
  | [] => false
  | '0' :: rest => isFraction rest
  | d :: rest => d.isDigit && isFraction (rest.dropWhile Char.isDigit)

end Numbers

section Tokens

inductive Token where
  | openBrace
  | closeBrace
  | openBracket
  | closeBracket
  | colon
  | comma
  | string (s : String)
  | literal (v : Json)

/-- A word outside strings: a literal or a number. -/
def word (w : List Char) : Option Token :=
  if w = "null".toList then some (.literal .null)
  else if w = "true".toList then some (.literal (.bool true))
  else if w = "false".toList then some (.literal (.bool false))
  else if isNumber w then some (.literal .number)
  else none

def punctuation (c : Char) : Option Token :=
  [('\x7b', Token.openBrace), ('\x7d', .closeBrace), ('[', .openBracket), (']', .closeBracket),
    (':', .colon), (',', .comma)].lookup c

def isBlank (c : Char) : Bool :=
  c == ' ' || c == '\t' || c == '\r' || c == '\n'

/-- Where the scanner is in the text. -/
inductive Scan where
  | outside
  | inWord (w : List Char)
  | inString (pieces : List Piece)
  | escape (pieces : List Piece)
  | hex (pieces : List Piece) (missing : Nat) (n : Nat)

/-- One character: the next place and the tokens that it completes. -/
def scanChar : Scan → Char → Option (Scan × List Token)
  | .outside, c =>
      if isBlank c then some (.outside, [])
      else if c = '"' then some (.inString [], [])
      else
        match punctuation c with
        | some t => some (.outside, [t])
        | none => some (.inWord [c], [])
  | .inWord w, c =>
      if isBlank c then (word w).map fun t => (.outside, [t])
      else
        match punctuation c with
        | some p => (word w).map fun t => (.outside, [t, p])
        | none => some (.inWord (w ++ [c]), [])
  | .inString pieces, c =>
      if c = '"' then some (.outside, [.string (String.ofList (runes none pieces))])
      else if c = '\\' then some (.escape pieces, [])
      else if c.toNat < 32 then none
      else some (.inString (pieces ++ [.rune c]), [])
  | .escape pieces, c =>
      if c = 'u' then some (.hex pieces 3 0, [])
      else (escapedRune c).map fun r => (.inString (pieces ++ [.rune r]), [])
  | .hex pieces missing n, c =>
      (hexDigit c).map fun d =>
        match missing with
        | 0 => (.inString (pieces ++ [.unit (n * 16 + d)]), [])
        | more + 1 => (.hex pieces more (n * 16 + d), [])

/-- The tokens of a text. -/
def tokens : Scan → List Char → Option (List Token)
  | .outside, [] => some []
  | .inWord w, [] => (word w).map fun t => [t]
  | _, [] => none
  | s, c :: rest =>
      (scanChar s c).bind fun next => (tokens next.1 rest).map (next.2 ++ ·)

end Tokens

section Values

/-- An array or an object that is open around the value being read. -/
inductive Frame where
  | element (before : List Json)
  | member (before : List (String × Json)) (name : String)

/-- What the parser has read so far. -/
inductive Parser where
  | value (outer : List Frame)
  | firstElement (outer : List Frame)
  | firstMember (outer : List Frame)
  | nextMember (before : List (String × Json)) (outer : List Frame)
  | afterName (before : List (String × Json)) (name : String) (outer : List Frame)
  | afterElement (before : List Json) (outer : List Frame)
  | afterMember (before : List (String × Json)) (outer : List Frame)
  | finished (v : Json)

/-- A value is complete. -/
def complete (v : Json) : List Frame → Parser
  | [] => .finished v
  | .element before :: rest => .afterElement (before ++ [v]) rest
  | .member before name :: rest => .afterMember (before ++ [(name, v)]) rest

/-- `maxNestingDepth` of the scanner. -/
def maxNestingDepth : Nat := 10000

/-- The first token of a value. -/
def beginValue (outer : List Frame) : Token → Option Parser
  | .string s => some (complete (.string s) outer)
  | .literal v => some (complete v outer)
  | .openBracket =>
      if outer.length < maxNestingDepth then some (.firstElement outer) else none
  | .openBrace =>
      if outer.length < maxNestingDepth then some (.firstMember outer) else none
  | _ => none

/-- One token. -/
def parseToken : Parser → Token → Option Parser
  | .value outer, t => beginValue outer t
  | .firstElement outer, .closeBracket => some (complete (.array []) outer)
  | .firstElement outer, t => beginValue (.element [] :: outer) t
  | .firstMember outer, .closeBrace => some (complete (.object []) outer)
  | .firstMember outer, .string name => some (.afterName [] name outer)
  | .nextMember before outer, .string name => some (.afterName before name outer)
  | .afterName before name outer, .colon => some (.value (.member before name :: outer))
  | .afterElement before outer, .comma => some (.value (.element before :: outer))
  | .afterElement before outer, .closeBracket => some (complete (.array before) outer)
  | .afterMember before outer, .comma => some (.nextMember before outer)
  | .afterMember before outer, .closeBrace => some (complete (.object before) outer)
  | _, _ => none

/-- The JSON value that a text is. -/
def parseText (text : String) : Option Json :=
  (tokens .outside text.toList).bind fun ts =>
    (ts.foldlM parseToken (.value [])).bind fun
      | .finished v => some v
      | _ => none

end Values

section Destinations

/-- A string field: `null` leaves it as it is. -/
def stringField (old : String) : Json → Option String
  | .string s => some s
  | .null => some old
  | _ => none

/-- A boolean field. -/
def boolField (old : Bool) : Json → Option Bool
  | .bool b => some b
  | .null => some old
  | _ => none

/-- A struct: the members are stored one after the other, by a function that
selects the field of a name. -/
def decodeStruct {α : Type u} (zero : α) (store : α → String → Json → Option α) :
    Json → Option α
  | .null => some zero
  | .object members => members.foldlM (fun a member => store a member.1 member.2) zero
  | _ => none

/-- A map: the entries in the order of the text, or `none` for a map that is nil. -/
def decodeMap {α : Type u} (element : Json → Option α) :
    Json → Option (Option (List (String × α)))
  | .null => some none
  | .object members =>
      (members.mapM fun member => (element member.2).map (member.1, ·)).map some
  | _ => none

end Destinations

end GoJson
end GatewayRuntime
