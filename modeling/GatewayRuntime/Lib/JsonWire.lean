import GatewayRuntime.Lib.JsonText

/-!
# JSON bodies

What one side writes as the body of a message and the other side reads from it: a JSON value
becomes a text, the text becomes bytes, and back.

* `json.Marshal` and `json.dumps` differ in the characters that they escape (`Style`).  Both
  write no blanks here.
* Bytes that are no UTF-8 are read as U+FFFD, one by one.
* The value of a number is left out, so one number stands for all of them.

A body that was written is read as the value it was written for, in every style and for every
text in it (`decodeBody_encodeBody`).
-/

namespace GatewayRuntime
namespace GoJson

section Escapes

/-- The characters that a writer leaves as they are, none of them a control character. -/
structure Style where
  plain : Char → Bool
  printable : ∀ c, plain c = true → 32 ≤ c.toNat

/-- `json.Marshal`, which escapes what HTML or JavaScript could take for its own. -/
def marshalStyle : Style where
  plain c := decide (32 ≤ c.toNat) && c != '<' && c != '>' && c != '&' &&
    c.toNat != 0x2028 && c.toNat != 0x2029
  printable := by
    intro c h
    simp only [Bool.and_eq_true, decide_eq_true_eq] at h
    exact h.1.1.1.1.1

/-- `json.dumps`, which writes ASCII texts. -/
def dumpsStyle : Style where
  plain c := decide (32 ≤ c.toNat) && decide (c.toNat ≤ 126)
  printable := by
    intro c h
    simp only [Bool.and_eq_true, decide_eq_true_eq] at h
    exact h.1

/-- A hexadecimal digit. -/
def hexChar (n : Nat) : Char :=
  if n < 10 then Char.ofNat (48 + n) else Char.ofNat (87 + n)

/-- An escaped UTF-16 code unit. -/
def unitEscape (n : Nat) : List Char :=
  ['\\', 'u', hexChar (n / 4096 % 16), hexChar (n / 256 % 16), hexChar (n / 16 % 16),
    hexChar (n % 16)]

/-- The short escapes, by their letters. -/
def shortEscapes : List (Char × Char) :=
  ['"', '\\', Char.ofNat 8, Char.ofNat 12, '\n', '\r', '\t'].zip "\"\\bfnrt".toList

def shortEscape (c : Char) : Option Char :=
  shortEscapes.lookup c

/-- The surrogates of a character outside the first plane. -/
def highSurrogate (c : Char) : Nat := 0xD800 + (c.toNat - 0x10000) / 0x400

def lowSurrogate (c : Char) : Nat := 0xDC00 + (c.toNat - 0x10000) % 0x400

/-- A character inside a string. -/
def escape (style : Style) (c : Char) : List Char :=
  match shortEscape c with
  | some e => ['\\', e]
  | none =>
      if style.plain c then [c]
      else if c.toNat < 0x10000 then unitEscape c.toNat
      else unitEscape (highSurrogate c) ++ unitEscape (lowSurrogate c)

/-- The pieces that a reader makes of it. -/
def pieces (style : Style) (c : Char) : List Piece :=
  if (shortEscape c).isSome || style.plain c then [.rune c]
  else if c.toNat < 0x10000 then [.unit c.toNat]
  else [.unit (highSurrogate c), .unit (lowSurrogate c)]

def writeString (style : Style) (s : String) : List Char :=
  '"' :: (s.toList.flatMap (escape style) ++ ['"'])

theorem hexDigit_hexChar {n : Nat} (h : n < 16) : hexDigit (hexChar n) = some n := by
  revert h
  revert n
  decide

/-- A character that completes some tokens. -/
theorem tokens_cons
    {s s' : Scan} {c : Char} {ts : List Token}
    (h : scanChar s c = some (s', ts)) (rest : List Char) :
    tokens s (c :: rest) = (tokens s' rest).map (ts ++ ·) := by
  have hstep : tokens s (c :: rest) =
      (scanChar s c).bind fun next => (tokens next.1 rest).map (next.2 ++ ·) := by
    cases s <;> rfl
  rw [hstep, h]
  rfl

/-- A character that completes none. -/
theorem tokens_cons_silent
    {s s' : Scan} {c : Char}
    (h : scanChar s c = some (s', [])) (rest : List Char) :
    tokens s (c :: rest) = tokens s' rest := by
  rw [tokens_cons h rest]
  exact Option.map_id'

/-- The reader of a string takes an escaped code unit for that code unit. -/
theorem tokens_unitEscape
    {n : Nat} (h : n < 0x10000) (before : List Piece) (rest : List Char) :
    tokens (.inString before) (unitEscape n ++ rest) =
      tokens (.inString (before ++ [.unit n])) rest := by
  have hdigit (m : Nat) : hexDigit (hexChar (m % 16)) = some (m % 16) :=
    hexDigit_hexChar (Nat.mod_lt m (by decide))
  have hscan (missing m k : Nat) :
      scanChar (.hex before (missing + 1) m) (hexChar (k % 16)) =
        some (.hex before missing (m * 16 + k % 16), []) := by
    rw [scanChar, hdigit]
    rfl
  have hlast (m k : Nat) :
      scanChar (.hex before 0 m) (hexChar (k % 16)) =
        some (.inString (before ++ [.unit (m * 16 + k % 16)]), []) := by
    rw [scanChar, hdigit]
    rfl
  have hvalue : (((0 * 16 + n / 4096 % 16) * 16 + n / 256 % 16) * 16 + n / 16 % 16) * 16 + n % 16
      = n := by
    omega
  show tokens (.inString before) ('\\' :: 'u' :: _) = _
  rw [tokens_cons_silent rfl, tokens_cons_silent rfl]
  show tokens (.hex before 3 0) (hexChar _ :: hexChar _ :: hexChar _ :: hexChar _ :: rest) = _
  rw [tokens_cons_silent (hscan 2 0 _), tokens_cons_silent (hscan 1 _ _),
    tokens_cons_silent (hscan 0 _ _), tokens_cons_silent (hlast _ _), hvalue]

theorem shortEscape_spec
    {c e : Char} (h : shortEscape c = some e) :
    e ≠ 'u' ∧ escapedRune e = some c := by
  have hall : ∀ pair ∈ shortEscapes, pair.2 ≠ 'u' ∧ escapedRune pair.2 = some pair.1 := by
    decide
  obtain ⟨before, after, hlist, -⟩ := List.lookup_eq_some_iff.mp h
  have hmem : (c, e) ∈ shortEscapes := by
    rw [hlist]
    exact List.mem_append_right _ List.mem_cons_self
  exact hall _ hmem

theorem not_special_of_shortEscape_none
    {c : Char} (h : shortEscape c = none) :
    c ≠ '"' ∧ c ≠ '\\' := by
  constructor
  · rintro rfl
    cases h
  · rintro rfl
    cases h

/-- The reader of a string takes an escaped character for its pieces. -/
theorem tokens_escape
    (style : Style) (c : Char) (before : List Piece) (rest : List Char) :
    tokens (.inString before) (escape style c ++ rest) =
      tokens (.inString (before ++ pieces style c)) rest := by
  unfold escape pieces
  cases hshort : shortEscape c with
  | some e =>
      obtain ⟨hne, hescaped⟩ := shortEscape_spec hshort
      have hscan : scanChar (.escape before) e = some (.inString (before ++ [.rune c]), []) := by
        rw [scanChar, if_neg hne, hescaped]
        rfl
      show tokens (.inString before) ('\\' :: e :: rest) = _
      rw [tokens_cons_silent rfl]
      exact tokens_cons_silent hscan rest
  | none =>
      obtain ⟨hquote, hbackslash⟩ := not_special_of_shortEscape_none hshort
      by_cases hplain : style.plain c = true
      · have hprintable : ¬c.toNat < 32 := Nat.not_lt.mpr (style.printable c hplain)
        simp only [hplain, if_true, Bool.or_true]
        refine tokens_cons_silent ?_ rest
        simp [scanChar, hquote, hbackslash, hprintable]
      · simp only [hplain, Bool.false_eq_true, if_false, Option.isSome_none, Bool.or_false]
        by_cases hplane : c.toNat < 0x10000
        · simp only [hplane, if_true]
          exact tokens_unitEscape hplane before rest
        · simp only [hplane, if_false, List.append_assoc]
          have hvalid : c.toNat < 0x110000 := by
            rcases c.valid with h | h
            · exact lt_trans h (by decide)
            · exact h.2
          rw [tokens_unitEscape (by unfold highSurrogate; omega),
            tokens_unitEscape (by unfold lowSurrogate; omega), List.append_assoc]
          rfl

/-- A character is no surrogate. -/
theorem not_surrogate (c : Char) : ¬(0xD800 ≤ c.toNat ∧ c.toNat < 0xE000) := by
  rcases c.valid with h | h
  · have : c.toNat < 0xD800 := h
    omega
  · have : 0xDFFF < c.toNat := h.1
    omega

theorem unitRune_toNat (c : Char) : unitRune c.toNat = c := by
  rw [unitRune, if_neg (not_surrogate c)]
  exact Char.ofNat_toNat c

theorem surrogates_toNat
    {c : Char} (h : ¬c.toNat < 0x10000) :
    0xD800 ≤ highSurrogate c ∧ highSurrogate c < 0xDC00 ∧ 0xDC00 ≤ lowSurrogate c ∧
      lowSurrogate c < 0xE000 ∧
      0x10000 + (highSurrogate c - 0xD800) * 0x400 + (lowSurrogate c - 0xDC00) = c.toNat := by
  have hvalid : c.toNat < 0x110000 := by
    rcases c.valid with h | h
    · exact lt_trans h (by decide)
    · exact h.2
  unfold highSurrogate lowSurrogate
  omega

@[simp] theorem runes_none_rune (c : Char) (rest : List Piece) :
    runes none (.rune c :: rest) = c :: runes none rest := rfl

@[simp] theorem runes_some_rune (d c : Char) (rest : List Piece) :
    runes (some d.toNat) (.rune c :: rest) = d :: c :: runes none rest := by
  rw [runes, unitRune_toNat]

@[simp] theorem runes_none_unit (n : Nat) (rest : List Piece) :
    runes none (.unit n :: rest) = runes (some n) rest := rfl

/-- A character is no half of a pair. -/
@[simp] theorem runes_some_unit (d : Char) (n : Nat) (rest : List Piece) :
    runes (some d.toNat) (.unit n :: rest) = d :: runes (some n) rest := by
  have hsurrogate := not_surrogate d
  rw [runes, if_neg (by omega), unitRune_toNat]

theorem runes_surrogates
    {hi lo : Nat} (h : 0xD800 ≤ hi ∧ hi < 0xDC00 ∧ 0xDC00 ≤ lo ∧ lo < 0xE000) (rest : List Piece) :
    runes (some hi) (.unit lo :: rest) =
      Char.ofNat (0x10000 + (hi - 0xD800) * 0x400 + (lo - 0xDC00)) :: runes none rest := by
  rw [runes, if_pos h]

theorem runes_pair {c : Char} (h : ¬c.toNat < 0x10000) (rest : List Piece) :
    runes (some (highSurrogate c)) (.unit (lowSurrogate c) :: rest) = c :: runes none rest := by
  obtain ⟨hhigh, hhigh', hlow, hlow', hvalue⟩ := surrogates_toNat h
  rw [runes_surrogates ⟨hhigh, hhigh', hlow, hlow'⟩, hvalue, Char.ofNat_toNat]

/-- The pieces of the characters of a text stand for the text, also after a code unit that
waits for its other half. -/
theorem runes_pieces
    (style : Style) (pending : Option Char) (text : List Char) :
    runes (pending.map Char.toNat) (text.flatMap (pieces style)) = pending.toList ++ text := by
  induction text generalizing pending with
  | nil =>
      cases pending with
      | none => rfl
      | some d => simp [runes, unitRune_toNat]
  | cons c text ih =>
      have hnone : runes none (text.flatMap (pieces style)) = text := by
        simpa using ih none
      have hsome : runes (some c.toNat) (text.flatMap (pieces style)) = c :: text := by
        simpa using ih (some c)
      rw [List.flatMap_cons, pieces]
      split_ifs with hrune hplane
      · cases pending with
        | none => rw [Option.map_none, List.singleton_append, runes_none_rune, hnone]; rfl
        | some d => rw [Option.map_some, List.singleton_append, runes_some_rune, hnone]; rfl
      · cases pending with
        | none => rw [Option.map_none, List.singleton_append, runes_none_unit, hsome]; rfl
        | some d => rw [Option.map_some, List.singleton_append, runes_some_unit, hsome]; rfl
      · cases pending with
        | none =>
            rw [Option.map_none, List.cons_append, List.singleton_append, runes_none_unit,
              runes_pair hplane, hnone]
            rfl
        | some d =>
            rw [Option.map_some, List.cons_append, List.singleton_append, runes_some_unit,
              runes_pair hplane, hnone]
            rfl

theorem tokens_escapes
    (style : Style) (text : List Char) (before : List Piece) (rest : List Char) :
    tokens (.inString before) (text.flatMap (escape style) ++ rest) =
      tokens (.inString (before ++ text.flatMap (pieces style))) rest := by
  induction text generalizing before with
  | nil => simp
  | cons c text ih =>
      rw [List.flatMap_cons, List.append_assoc, tokens_escape, ih, List.flatMap_cons,
        List.append_assoc]

/-- A written string is one token. -/
theorem tokens_writeString
    (style : Style) (s : String) (rest : List Char) :
    tokens .outside (writeString style s ++ rest) =
      (tokens .outside rest).map (.string s :: ·) := by
  have hclose : scanChar (.inString (s.toList.flatMap (pieces style))) '"' =
      some (.outside, [.string s]) := by
    have hrunes := runes_pieces style none s.toList
    rw [Option.map_none, Option.toList_none, List.nil_append] at hrunes
    rw [scanChar, if_pos rfl, hrunes, String.ofList_toList]
  rw [writeString, List.cons_append, tokens_cons_silent rfl, List.append_assoc, tokens_escapes]
  exact tokens_cons hclose rest

end Escapes

section Values

mutual

/-- The text of a value, without blanks. -/
def write (style : Style) : Json → List Char
  | .null => "null".toList
  | .bool true => "true".toList
  | .bool false => "false".toList
  | .number => ['0']
  | .string s => writeString style s
  | .array [] => ['[', ']']
  | .array (v :: vs) => '[' :: (write style v ++ writeElements style vs)
  | .object [] => ['\x7b', '\x7d']
  | .object ((name, v) :: members) =>
      '\x7b' :: (writeString style name ++ ':' :: (write style v ++ writeMembers style members))

/-- The further elements of an array, and its end. -/
def writeElements (style : Style) : List Json → List Char
  | [] => [']']
  | v :: vs => ',' :: (write style v ++ writeElements style vs)

/-- The further members of an object, and its end. -/
def writeMembers (style : Style) : List (String × Json) → List Char
  | [] => ['\x7d']
  | (name, v) :: members =>
      ',' :: (writeString style name ++ ':' :: (write style v ++ writeMembers style members))

end

mutual

/-- The tokens of a value. -/
def tokensOf : Json → List Token
  | .null => [.literal .null]
  | .bool b => [.literal (.bool b)]
  | .number => [.literal .number]
  | .string s => [.string s]
  | .array [] => [.openBracket, .closeBracket]
  | .array (v :: vs) => .openBracket :: (tokensOf v ++ elementTokens vs)
  | .object [] => [.openBrace, .closeBrace]
  | .object ((name, v) :: members) =>
      .openBrace :: .string name :: .colon :: (tokensOf v ++ memberTokens members)

def elementTokens : List Json → List Token
  | [] => [.closeBracket]
  | v :: vs => .comma :: (tokensOf v ++ elementTokens vs)

def memberTokens : List (String × Json) → List Token
  | [] => [.closeBrace]
  | (name, v) :: members => .comma :: .string name :: .colon :: (tokensOf v ++ memberTokens members)

end

mutual

/-- How deep arrays and objects are nested in a value. -/
def depth : Json → Nat
  | .array vs => elementDepth vs + 1
  | .object members => memberDepth members + 1
  | _ => 0

def elementDepth : List Json → Nat
  | [] => 0
  | v :: vs => max (depth v) (elementDepth vs)

def memberDepth : List (String × Json) → Nat
  | [] => 0
  | (_, v) :: members => max (depth v) (memberDepth members)

end

/-- A text before which a word ends. -/
def EndsWord (rest : List Char) : Prop :=
  ∀ c rest', rest = c :: rest' → isBlank c = false ∧ (punctuation c).isSome = true

theorem endsWord_nil : EndsWord [] := by
  intro c rest' h
  cases h

theorem endsWord_cons
    {c : Char} {rest : List Char}
    (hblank : isBlank c = false) (hpunctuation : (punctuation c).isSome = true) :
    EndsWord (c :: rest) := by
  rintro c' rest' ⟨⟩
  exact ⟨hblank, hpunctuation⟩

theorem endsWord_writeElements
    (style : Style) (vs : List Json) (rest : List Char) :
    EndsWord (writeElements style vs ++ rest) := by
  cases vs <;> exact endsWord_cons rfl rfl

theorem endsWord_writeMembers
    (style : Style) (members : List (String × Json)) (rest : List Char) :
    EndsWord (writeMembers style members ++ rest) := by
  cases members <;> exact endsWord_cons rfl rfl

/-- The end of a word. -/
theorem tokens_inWord
    {w rest : List Char} {t : Token}
    (hword : word w = some t) (hrest : EndsWord rest) :
    tokens (.inWord w) rest = (tokens .outside rest).map (t :: ·) := by
  cases rest with
  | nil => simp [tokens, hword]
  | cons c rest =>
      obtain ⟨hblank, hpunctuation⟩ := hrest c rest rfl
      obtain ⟨p, hp⟩ := Option.isSome_iff_exists.mp hpunctuation
      have hquote : c ≠ '"' := by
        rintro rfl
        cases hp
      have hinside : scanChar (.inWord w) c = some (.outside, [t, p]) := by
        simp [scanChar, hblank, hp, hword]
      have houtside : scanChar .outside c = some (.outside, [p]) := by
        simp [scanChar, hblank, hp, hquote]
      rw [tokens_cons hinside, tokens_cons houtside, Option.map_map]
      rfl

/-- A character that does not end a word. -/
def isLetter (c : Char) : Bool :=
  !isBlank c && (punctuation c).isNone

/-- A word is one token. -/
theorem tokens_word
    {c : Char} {cs rest : List Char} {t : Token}
    (hquote : c ≠ '"') (hall : (c :: cs).all isLetter = true)
    (hword : word (c :: cs) = some t) (hrest : EndsWord rest) :
    tokens .outside (c :: cs ++ rest) = (tokens .outside rest).map (t :: ·) := by
  have hletters : ∀ d ∈ c :: cs, isBlank d = false ∧ punctuation d = none := by
    intro d hd
    have hletter := List.all_eq_true.mp hall d hd
    simpa [isLetter] using hletter
  have hfirst := hletters c List.mem_cons_self
  have hmore : ∀ (w : List Char) (cs : List Char),
      (∀ d ∈ cs, isBlank d = false ∧ punctuation d = none) →
        tokens (.inWord w) (cs ++ rest) = tokens (.inWord (w ++ cs)) rest := by
    intro w cs hcs
    induction cs generalizing w with
    | nil => rw [List.nil_append, List.append_nil]
    | cons d cs ih =>
        have hd := hcs d List.mem_cons_self
        have hscan : scanChar (.inWord w) d = some (.inWord (w ++ [d]), []) := by
          simp [scanChar, hd.1, hd.2]
        rw [List.cons_append, tokens_cons_silent hscan,
          ih (w ++ [d]) fun e he => hcs e (List.mem_cons_of_mem _ he), List.append_assoc]
        rfl
  have hscan : scanChar .outside c = some (.inWord [c], []) := by
    simp [scanChar, hfirst.1, hfirst.2, hquote]
  rw [List.cons_append, tokens_cons_silent hscan,
    hmore [c] cs fun d hd => hletters d (List.mem_cons_of_mem _ hd)]
  exact tokens_inWord hword hrest

/-- A punctuation character is one token. -/
theorem tokens_punctuation
    {c : Char} {p : Token}
    (hblank : isBlank c = false) (hp : punctuation c = some p) (rest : List Char) :
    tokens .outside (c :: rest) = (tokens .outside rest).map (p :: ·) := by
  have hquote : c ≠ '"' := by
    rintro rfl
    cases hp
  have hscan : scanChar .outside c = some (.outside, [p]) := by
    simp [scanChar, hblank, hp, hquote]
  exact tokens_cons hscan rest

mutual

/-- A written value is read as its tokens. -/
theorem tokens_write (style : Style) :
    ∀ (v : Json) (rest : List Char), EndsWord rest →
      tokens .outside (write style v ++ rest) = (tokens .outside rest).map (tokensOf v ++ ·)
  | .null, rest, hrest => tokens_word (by decide) rfl rfl hrest
  | .bool true, rest, hrest => tokens_word (by decide) rfl rfl hrest
  | .bool false, rest, hrest => tokens_word (by decide) rfl rfl hrest
  | .number, rest, hrest => tokens_word (by decide) rfl rfl hrest
  | .string s, rest, _ => tokens_writeString style s rest
  | .array [], rest, _ => by
      show tokens .outside ('[' :: ']' :: rest) = _
      rw [tokens_punctuation rfl rfl, tokens_punctuation rfl rfl, Option.map_map]
      rfl
  | .array (v :: vs), rest, _ => by
      show tokens .outside ('[' :: ((write style v ++ writeElements style vs) ++ rest)) = _
      rw [tokens_punctuation rfl rfl, List.append_assoc,
        tokens_write style v _ (endsWord_writeElements style vs rest),
        tokens_writeElements style vs rest, Option.map_map, Option.map_map]
      simp [Function.comp_def, tokensOf]
  | .object [], rest, _ => by
      show tokens .outside ('\x7b' :: '\x7d' :: rest) = _
      rw [tokens_punctuation rfl rfl, tokens_punctuation rfl rfl, Option.map_map]
      rfl
  | .object ((name, v) :: members), rest, _ => by
      show tokens .outside ('\x7b' :: ((writeString style name ++ ':' ::
        (write style v ++ writeMembers style members)) ++ rest)) = _
      rw [tokens_punctuation rfl rfl, List.append_assoc, tokens_writeString, List.cons_append,
        tokens_punctuation rfl rfl, List.append_assoc,
        tokens_write style v _ (endsWord_writeMembers style members rest),
        tokens_writeMembers style members rest]
      simp [Function.comp_def, tokensOf]

theorem tokens_writeElements (style : Style) :
    ∀ (vs : List Json) (rest : List Char),
      tokens .outside (writeElements style vs ++ rest) =
        (tokens .outside rest).map (elementTokens vs ++ ·)
  | [], rest => tokens_punctuation rfl rfl rest
  | v :: vs, rest => by
      show tokens .outside (',' :: ((write style v ++ writeElements style vs) ++ rest)) = _
      rw [tokens_punctuation rfl rfl, List.append_assoc,
        tokens_write style v _ (endsWord_writeElements style vs rest),
        tokens_writeElements style vs rest]
      simp [Function.comp_def, elementTokens]

theorem tokens_writeMembers (style : Style) :
    ∀ (members : List (String × Json)) (rest : List Char),
      tokens .outside (writeMembers style members ++ rest) =
        (tokens .outside rest).map (memberTokens members ++ ·)
  | [], rest => tokens_punctuation rfl rfl rest
  | (name, v) :: members, rest => by
      show tokens .outside (',' :: ((writeString style name ++ ':' ::
        (write style v ++ writeMembers style members)) ++ rest)) = _
      rw [tokens_punctuation rfl rfl, List.append_assoc, tokens_writeString, List.cons_append,
        tokens_punctuation rfl rfl, List.append_assoc,
        tokens_write style v _ (endsWord_writeMembers style members rest),
        tokens_writeMembers style members rest]
      simp [Function.comp_def, memberTokens]

end

theorem foldlM_openBracket
    {outer : List Frame} (h : outer.length < maxNestingDepth) (ts : List Token) :
    (.openBracket :: ts).foldlM parseToken (.value outer) =
      ts.foldlM parseToken (.firstElement outer) := by
  have htoken : parseToken (.value outer) .openBracket = some (.firstElement outer) := if_pos h
  rw [List.foldlM_cons, htoken]
  rfl

theorem foldlM_openBrace
    {outer : List Frame} (h : outer.length < maxNestingDepth) (ts : List Token) :
    (.openBrace :: ts).foldlM parseToken (.value outer) =
      ts.foldlM parseToken (.firstMember outer) := by
  have htoken : parseToken (.value outer) .openBrace = some (.firstMember outer) := if_pos h
  rw [List.foldlM_cons, htoken]
  rfl

/-- The first element of an array is read like any other. -/
theorem foldlM_firstElement
    (v : Json) (outer : List Frame) (ts : List Token) :
    (tokensOf v ++ ts).foldlM parseToken (.firstElement outer) =
      (tokensOf v ++ ts).foldlM parseToken (.value (.element [] :: outer)) := by
  rcases v with _ | b | _ | s | (_ | ⟨w, ws⟩) | (_ | ⟨member, members⟩) <;> rfl

mutual

/-- The tokens of a value complete it, if arrays and objects are not nested too deep. -/
theorem parse_tokensOf :
    ∀ (v : Json) (outer : List Frame) (ts : List Token),
      outer.length + depth v ≤ maxNestingDepth →
      (tokensOf v ++ ts).foldlM parseToken (.value outer) =
        ts.foldlM parseToken (complete v outer)
  | .null, _, _, _ => rfl
  | .bool _, _, _, _ => rfl
  | .number, _, _, _ => rfl
  | .string _, _, _, _ => rfl
  | .array [], outer, ts, h => by
      have hopen : outer.length < maxNestingDepth := h
      exact foldlM_openBracket hopen _
  | .array (v :: vs), outer, ts, h => by
      rw [depth, elementDepth] at h
      have hv := parse_tokensOf v (.element [] :: outer) (elementTokens vs ++ ts)
        (by rw [List.length_cons]; omega)
      have hvs := parse_elementTokens vs [v] outer ts (by omega)
      rw [tokensOf, List.cons_append, foldlM_openBracket (by omega), List.append_assoc,
        foldlM_firstElement, hv]
      exact hvs
  | .object [], outer, ts, h => by
      have hopen : outer.length < maxNestingDepth := h
      exact foldlM_openBrace hopen _
  | .object ((name, v) :: members), outer, ts, h => by
      rw [depth, memberDepth] at h
      have hv := parse_tokensOf v (.member [] name :: outer) (memberTokens members ++ ts)
        (by rw [List.length_cons]; omega)
      have hmembers := parse_memberTokens members [(name, v)] outer ts (by omega)
      rw [tokensOf, List.cons_append, foldlM_openBrace (by omega)]
      show ((tokensOf v ++ memberTokens members) ++ ts).foldlM parseToken
        (.value (.member [] name :: outer)) = _
      rw [List.append_assoc, hv]
      exact hmembers

theorem parse_elementTokens :
    ∀ (vs : List Json) (before : List Json) (outer : List Frame) (ts : List Token),
      outer.length + elementDepth vs < maxNestingDepth →
      (elementTokens vs ++ ts).foldlM parseToken (.afterElement before outer) =
        ts.foldlM parseToken (complete (.array (before ++ vs)) outer)
  | [], before, outer, ts, _ => by
      rw [List.append_nil]
      rfl
  | v :: vs, before, outer, ts, h => by
      rw [elementDepth] at h
      have hv := parse_tokensOf v (.element before :: outer) (elementTokens vs ++ ts)
        (by rw [List.length_cons]; omega)
      have hvs := parse_elementTokens vs (before ++ [v]) outer ts (by omega)
      rw [List.append_assoc] at hvs
      show ((tokensOf v ++ elementTokens vs) ++ ts).foldlM parseToken
        (.value (.element before :: outer)) = _
      rw [List.append_assoc, hv]
      exact hvs

theorem parse_memberTokens :
    ∀ (members : List (String × Json)) (before : List (String × Json)) (outer : List Frame)
      (ts : List Token), outer.length + memberDepth members < maxNestingDepth →
      (memberTokens members ++ ts).foldlM parseToken (.afterMember before outer) =
        ts.foldlM parseToken (complete (.object (before ++ members)) outer)
  | [], before, outer, ts, _ => by
      rw [List.append_nil]
      rfl
  | (name, v) :: members, before, outer, ts, h => by
      rw [memberDepth] at h
      have hv := parse_tokensOf v (.member before name :: outer) (memberTokens members ++ ts)
        (by rw [List.length_cons]; omega)
      have hmembers := parse_memberTokens members (before ++ [(name, v)]) outer ts (by omega)
      rw [List.append_assoc] at hmembers
      show ((tokensOf v ++ memberTokens members) ++ ts).foldlM parseToken
        (.value (.member before name :: outer)) = _
      rw [List.append_assoc, hv]
      exact hmembers

end

/-- **A text that was written is read as its value.** -/
theorem parseText_write
    (style : Style) {v : Json} (h : depth v ≤ maxNestingDepth) :
    parseText (String.ofList (write style v)) = some v := by
  have htokens := tokens_write style v [] endsWord_nil
  have hparse := parse_tokensOf v [] [] (by rw [List.length_nil]; omega)
  rw [List.append_nil] at htokens hparse
  rw [parseText, String.toList_ofList, htokens]
  show ((tokensOf v ++ []).foldlM parseToken (.value [])).bind _ = some v
  rw [List.append_nil, hparse]
  rfl

end Values

section Bytes

/-- The characters of some bytes, as Go decodes them. -/
def decodeRunes : Nat → List UInt8 → List Char
  | 0, _ => []
  | _, [] => []
  | n + 1, b :: rest =>
      match ByteArray.utf8DecodeChar? (List.toByteArray (b :: rest)) 0 with
      | some c => c :: decodeRunes n ((b :: rest).drop c.utf8Size)
      | none => Char.ofNat 0xFFFD :: decodeRunes n rest

/-- The text of some bytes. -/
def decodeText (bytes : List UInt8) : String :=
  String.ofList (decodeRunes bytes.length bytes)

/-- The bytes of a text. -/
def encodeText (text : List Char) : List UInt8 :=
  text.flatMap String.utf8EncodeChar

theorem decodeRunes_encodeText
    {n : Nat} {text : List Char} (h : (encodeText text).length ≤ n) :
    decodeRunes n (encodeText text) = text := by
  induction text generalizing n with
  | nil => cases n <;> rfl
  | cons c text ih =>
      rw [encodeText, List.flatMap_cons, List.length_append, String.length_utf8EncodeChar] at h
      rw [encodeText, List.flatMap_cons]
      have hpos := c.utf8Size_pos
      obtain ⟨m, rfl⟩ : ∃ m, n = m + 1 := ⟨n - 1, by omega⟩
      have hrest : decodeRunes m (text.flatMap String.utf8EncodeChar) = text := by
        refine ih ?_
        rw [encodeText]
        omega
      cases hbytes : String.utf8EncodeChar c ++ text.flatMap String.utf8EncodeChar with
      | nil =>
          have hlength := congrArg List.length hbytes
          rw [List.length_append, String.length_utf8EncodeChar, List.length_nil] at hlength
          omega
      | cons b rest =>
          have hdrop : (b :: rest).drop c.utf8Size = text.flatMap String.utf8EncodeChar := by
            rw [← hbytes, ← String.length_utf8EncodeChar, List.drop_left]
          have hdecode : ByteArray.utf8DecodeChar? (List.toByteArray (b :: rest)) 0 = some c := by
            rw [← hbytes, List.toByteArray_append]
            exact ByteArray.utf8DecodeChar?_utf8EncodeChar_append
          rw [decodeRunes, hdecode]
          show c :: decodeRunes m ((b :: rest).drop c.utf8Size) = c :: text
          rw [hdrop, hrest]

/-- The body that holds a value. -/
def encodeBody (style : Style) (v : Json) : List UInt8 :=
  encodeText (write style v)

/-- The value that a body holds. -/
def decodeBody (body : List UInt8) : Option Json :=
  parseText (decodeText body)

/-- **A body that was written is read as its value.** -/
theorem decodeBody_encodeBody
    (style : Style) {v : Json} (h : depth v ≤ maxNestingDepth) :
    decodeBody (encodeBody style v) = some v := by
  rw [decodeBody, decodeText, encodeBody, decodeRunes_encodeText le_rfl]
  exact parseText_write style h

end Bytes

end GoJson
end GatewayRuntime
