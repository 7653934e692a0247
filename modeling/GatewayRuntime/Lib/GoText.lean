import Mathlib.Data.List.DropRight
import Mathlib.Data.List.Sort
import Mathlib.Data.String.Basic
import Mathlib.Tactic

/-!
# Text functions of the Go standard library

Go strings are modelled by `String`; the functions are defined on the list of
their runes and follow the documented behaviour of `strings`, `strconv` and
`net/textproto`.

`toLower` and `equalFold` are given for comparisons in which one side is an
ASCII word: besides the ASCII letters they map exactly the runes whose lower
case (or simple folding) is ASCII, and leave every other rune unchanged.  For
comparisons of arbitrary texts the tables are a parameter (`CaseTables`), as they
change with the version of Unicode.

Where a text goes into an error message, what is written of its runes above ASCII
may therefore differ from Go's message: `toLower` keeps their upper case, and
`quote` writes all of them as they are, where `strconv.Quote` escapes those that
are not printable.  Which texts are refused, and the rest of the message, are
Go's.
-/

namespace GatewayRuntime
namespace GoText

/-- `unicode.IsSpace`. -/
def isSpace (c : Char) : Bool :=
  let n := c.toNat
  (9 ≤ n && n ≤ 13) || n == 0x20 || n == 0x85 || n == 0xA0 || n == 0x1680 ||
    (0x2000 ≤ n && n ≤ 0x200A) || n == 0x2028 || n == 0x2029 || n == 0x202F ||
    n == 0x205F || n == 0x3000

/-- The runes left by `strings.TrimSpace`. -/
def trimRunes (l : List Char) : List Char :=
  (l.dropWhile isSpace).rdropWhile isSpace

/-- `strings.TrimSpace`. -/
def trimSpace (s : String) : String :=
  String.ofList (trimRunes s.toList)

/-- `strings.TrimLeft` with a cutset of one rune. -/
def trimLeft (s : String) (c : Char) : String :=
  String.ofList (s.toList.dropWhile (· == c))

/-- `strings.TrimRight` with a cutset of one rune. -/
def trimRight (s : String) (c : Char) : String :=
  String.ofList (s.toList.rdropWhile (· == c))

/-- `strings.HasPrefix`. -/
def hasPrefix (s pre : String) : Bool :=
  pre.toList.isPrefixOf s.toList

/-- `strings.HasSuffix`. -/
def hasSuffix (s suf : String) : Bool :=
  suf.toList.isSuffixOf s.toList

/-- `strings.Contains`. -/
def contains (s sub : String) : Bool :=
  decide (sub.toList <:+: s.toList)

/-- `unicode.ToLower`, for the runes whose lower case is ASCII. -/
def lowerRune (c : Char) : Char :=
  if c.toNat == 0x130 then 'i' else if c.toNat == 0x212A then 'k' else c.toLower

/-- `strings.ToLower`; runes whose lower case is not ASCII are left as they are. -/
def toLower (s : String) : String :=
  String.ofList (s.toList.map lowerRune)

/-- Simple case folding, for the runes that fold to ASCII. -/
def foldRune (c : Char) : Char :=
  if c.toNat == 0x17F then 's' else if c.toNat == 0x212A then 'k' else c.toLower

/-- `strings.EqualFold`. -/
def equalFold (s t : String) : Bool :=
  s.toList.map foldRune == t.toList.map foldRune

/-- The case tables of `unicode`: the lower case of a rune, and the rune that
stands for its orbit under simple folding. -/
structure CaseTables where
  lower : Char → Char
  fold : Char → Char

/-- `strings.ToLower`, for given tables. -/
def CaseTables.toLower (tables : CaseTables) (s : String) : String :=
  String.ofList (s.toList.map tables.lower)

/-- `strings.EqualFold`, for given tables. -/
def CaseTables.equalFold (tables : CaseTables) (s t : String) : Bool :=
  s.toList.map tables.fold == t.toList.map tables.fold

/-- Case tables with the upper case of a rune, which on ASCII is that of ASCII. -/
structure LetterTables extends CaseTables where
  upper : Char → Char
  upper_ascii : ∀ c : Char, c.toNat < 128 → upper c = c.toUpper

/-- `strings.ToUpper`, for given tables. -/
def LetterTables.toUpper (letters : LetterTables) (s : String) : String :=
  String.ofList (s.toList.map letters.upper)

/-- An ASCII text in upper case stays as it is. -/
theorem LetterTables.toUpper_eq_self
    (letters : LetterTables) {s : String}
    (h : ∀ c ∈ s.toList, c.toNat < 128 ∧ c.toUpper = c) :
    letters.toUpper s = s := by
  have hmap : s.toList.map letters.upper = s.toList := by
    rw [List.map_congr_left fun c hc => (letters.upper_ascii c (h c hc).1).trans (h c hc).2,
      List.map_id']
  rw [toUpper, hmap, String.ofList_toList]

/-- `strings.Cut` at a one-rune separator; `none` when it does not occur. -/
def cut (s : String) (sep : Char) : Option (String × String) :=
  match s.toList.span (fun c => c != sep) with
  | (_, []) => none
  | (before, _ :: after) => some (String.ofList before, String.ofList after)

/-- `strings.Split` at a one-rune separator. -/
def split (s : String) (sep : Char) : List String :=
  (s.toList.splitOn sep).map String.ofList

/-- The value of a nonempty list of decimal digits. -/
def parseDigits : List Char → Option Nat
  | [] => none
  | cs => cs.foldl
      (fun acc c => acc.bind fun n => if c.isDigit then some (n * 10 + (c.toNat - 48)) else none)
      (some 0)

/-- `strconv.ParseInt(s, 10, 64)`; `none` on a syntax or a range error. -/
def parseInt (s : String) : Option Int64 :=
  match s.toList with
  | '-' :: ds =>
      (parseDigits ds).bind fun n =>
        if n ≤ 2 ^ 63 then some (Int64.ofInt (-(n : Int))) else none
  | '+' :: ds =>
      (parseDigits ds).bind fun n => if n < 2 ^ 63 then some (Int64.ofNat n) else none
  | ds => (parseDigits ds).bind fun n => if n < 2 ^ 63 then some (Int64.ofNat n) else none

/-- The text of a rune in quotes; runes above ASCII are taken to be printable. -/
def quoteRune (c : Char) : List Char :=
  let hex (n : Nat) : Char := if n < 10 then Char.ofNat (48 + n) else Char.ofNat (87 + n)
  if c == '"' || c == '\\' then ['\\', c]
  else
    match ([7, 8, 12, 10, 13, 9, 11].zip "abfnrtv".toList).lookup c.toNat with
    | some letter => ['\\', letter]
    | none =>
        if decide (c.toNat < 32) || c.toNat == 127 then
          ['\\', 'x', hex (c.toNat / 16), hex (c.toNat % 16)]
        else [c]

/-- `strconv.Quote`, the verb `%q`, with every rune above ASCII taken to be printable. -/
def quote (s : String) : String :=
  String.ofList ('"' :: s.toList.flatMap quoteRune ++ ['"'])

/-- A byte allowed in a header field name. -/
def isTokenRune (c : Char) : Bool :=
  c.isAlphanum || "!#$%&'*+-.^_`|~".toList.contains c

/-- Upper case at the start and after a hyphen, lower case elsewhere. -/
def canonicalRunes : Bool → List Char → List Char
  | _, [] => []
  | upper, c :: cs =>
      (if upper then c.toUpper else c.toLower) :: canonicalRunes (c == '-') cs

/-- `textproto.CanonicalMIMEHeaderKey`. -/
def canonicalMIMEHeaderKey (s : String) : String :=
  if s.toList.all isTokenRune then String.ofList (canonicalRunes true s.toList) else s

@[simp] theorem toList_trimSpace (s : String) :
    (trimSpace s).toList = trimRunes s.toList := by
  simp [trimSpace]

/-- Containing a string of one rune is containing the rune. -/
theorem contains_rune_iff
    {sub : String} {c : Char} (hsub : sub.toList = [c]) (s : String) :
    contains s sub = true ↔ c ∈ s.toList := by
  rw [contains, decide_eq_true_eq, hsub]
  exact List.singleton_infix_iff _ _

/-- The pieces of a list do not contain the separator. -/
theorem not_mem_of_mem_splitOn
    {sep : Char} {l piece : List Char}
    (h : piece ∈ l.splitOn sep) :
    sep ∉ piece := by
  induction l generalizing piece with
  | nil =>
      simp only [List.splitOn_nil, List.mem_singleton] at h
      simp [h]
  | cons c l ih =>
      rw [List.splitOn_cons_eq_if_modifyHead] at h
      split_ifs at h with hc
      · rcases List.mem_cons.mp h with rfl | h
        · simp
        · exact ih h
      · cases hl : l.splitOn sep with
        | nil =>
            exact absurd hl (List.splitOn_ne_nil sep l)
        | cons first rest =>
            rw [hl, List.modifyHead_cons] at h
            rcases List.mem_cons.mp h with rfl | h
            · have hfirst := ih (hl ▸ List.mem_cons_self)
              simp only [List.mem_cons, not_or]
              exact ⟨fun heq => hc (by simp [heq]), hfirst⟩
            · exact ih (hl ▸ List.mem_cons_of_mem _ h)

theorem not_mem_of_mem_split
    {s piece : String} {sep : Char}
    (h : piece ∈ split s sep) :
    sep ∉ piece.toList := by
  obtain ⟨l, hl, rfl⟩ := List.mem_map.mp h
  simpa using not_mem_of_mem_splitOn hl

/-- A string without the separator is its only piece. -/
theorem split_of_not_mem
    {s : String} {sep : Char}
    (h : sep ∉ s.toList) :
    split s sep = [s] := by
  simp [split, List.splitOn_eq_singleton h]

/-- The pieces of a list put together again with the separator. -/
def joinWith (sep : Char) (pieces : List String) : String :=
  String.ofList ([sep].intercalate (pieces.map String.toList))

theorem split_joinWith
    {sep : Char} {pieces : List String}
    (hsep : ∀ piece ∈ pieces, sep ∉ piece.toList)
    (hne : pieces ≠ []) :
    split (joinWith sep pieces) sep = pieces := by
  have hlists : ∀ l ∈ pieces.map String.toList, sep ∉ l := by
    intro l hl
    obtain ⟨piece, hpiece, rfl⟩ := List.mem_map.mp hl
    exact hsep piece hpiece
  have hmap : pieces.map String.toList ≠ [] := by simpa using hne
  rw [split, joinWith, String.toList_ofList, List.splitOn_intercalate sep hlists hmap,
    List.map_map]
  simp [Function.comp_def]

theorem joinWith_split (s : String) (sep : Char) : joinWith sep (split s sep) = s := by
  rw [joinWith, split, List.map_map]
  have hid : String.toList ∘ String.ofList = id := by
    funext l
    simp
  rw [hid, List.map_id, List.intercalate_splitOn, String.ofList_toList]

/-- A rune other than the separator is in some piece. -/
theorem exists_mem_split_iff
    {s : String} {sep c : Char}
    (hc : c ≠ sep) :
    (∃ piece ∈ split s sep, c ∈ piece.toList) ↔ c ∈ s.toList := by
  have hjoin : ∀ ls : List (List Char), c ∈ [sep].intercalate ls ↔ ∃ l ∈ ls, c ∈ l := by
    intro ls
    induction ls with
    | nil => simp
    | cons l ls ih =>
        cases ls with
        | nil => simp
        | cons l' ls =>
            rw [List.intercalate_cons_cons, List.mem_append, List.mem_append, ih]
            simp [hc]
  have hs := hjoin (s.toList.splitOn sep)
  rw [List.intercalate_splitOn] at hs
  rw [hs]
  simp [split]

/-- A string that trims to nothing is blank. -/
theorem isSpace_of_trimSpace_eq
    {s : String}
    (h : trimSpace s = "") :
    ∀ c ∈ s.toList, isSpace c = true := by
  have hrunes : trimRunes s.toList = [] := by
    rw [← toList_trimSpace, h]
    rfl
  have hall := List.rdropWhile_eq_nil_iff.mp hrunes
  cases hd : s.toList.dropWhile isSpace with
  | nil => exact List.dropWhile_eq_nil_iff.mp hd
  | cons c l =>
      have hhead := List.head?_dropWhile_not isSpace s.toList
      rw [hd] at hhead
      have hspace := hall c (by rw [hd]; exact List.mem_cons_self)
      simp [hspace] at hhead

/-- Dropping from the right keeps a first rune that is not dropped. -/
theorem dropWhile_rdropWhile_cons
    {p : Char → Bool} {c : Char} {l : List Char}
    (hc : p c = false) :
    ((c :: l).rdropWhile p).dropWhile p = (c :: l).rdropWhile p := by
  have hpre : (c :: l).rdropWhile p <+: c :: l :=
    List.rdropWhile_prefix p (c :: l)
  cases h : (c :: l).rdropWhile p with
  | nil =>
      rfl
  | cons d m =>
      rw [h] at hpre
      obtain ⟨rest, hrest⟩ := hpre
      obtain ⟨rfl, -⟩ := List.cons.inj hrest
      simp [hc]

theorem trimRunes_trimRunes (l : List Char) :
    trimRunes (trimRunes l) = trimRunes l := by
  unfold trimRunes
  cases h : l.dropWhile isSpace with
  | nil =>
      simp
  | cons c m =>
      have hc : isSpace c = false := by
        have hhead := List.head?_dropWhile_not isSpace l
        rw [h] at hhead
        simpa using hhead
      rw [dropWhile_rdropWhile_cons hc]
      exact List.rdropWhile_idempotent isSpace (c :: m)

/-- Trimming a trimmed string changes nothing. -/
@[simp] theorem trimSpace_trimSpace (s : String) :
    trimSpace (trimSpace s) = trimSpace s := by
  apply String.toList_inj.mp
  simp [trimRunes_trimRunes]

/-- Distinct strings are strictly increasing once they are sorted. -/
theorem sortedLT_insertionSort
    {l : List String} (h : l.Nodup) :
    (l.insertionSort (· ≤ ·)).SortedLT := by
  refine List.sortedLE_insertionSort.sortedLT_of_nodup ?_
  exact (List.perm_insertionSort _ _).nodup_iff.mpr h

end GoText
end GatewayRuntime
