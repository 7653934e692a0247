import GatewayRuntime.AppApi
import GatewayRuntime.Lib.CleanPath

/-!
# The object keys of uploads

`validateObjectKey` of `internal/appapi` compares the key with what `path.Clean` makes of it
and looks for a prefix as text.  Read by segments, it accepts the trimmed keys made of plain
names whose first names are those of a configured prefix (`validateObjectKey_some_iff`).
-/

namespace GatewayRuntime
namespace AppApi

open GoText

/-- A name that stands for itself in a path. -/
def PlainName (name : String) : Prop :=
  name ≠ "" ∧ name ≠ "." ∧ name ≠ ".."

/-- A configured prefix without the spaces and the slashes around it. -/
def trimmedPrefix (raw : String) : String :=
  trimRight (trimLeft (trimSpace raw) '/') '/'

/-- The names of a key begin with those of a prefix. -/
def Below (pre key : String) : Prop :=
  split pre '/' <+: split key '/'

theorem hasPrefix_iff (s pre : String) :
    hasPrefix s pre = true ↔ pre.toList <+: s.toList :=
  List.isPrefixOf_iff_prefix

theorem forall_plainName_iff (key : String) :
    (∀ name ∈ split key '/', PlainName name) ↔
      ∀ segment ∈ key.toList.splitOn '/', GoUrl.CleanSegment segment := by
  unfold split
  rw [List.forall_mem_map]
  refine forall₂_congr fun segment hsegment => ?_
  have hslash := not_mem_of_mem_splitOn hsegment
  simp [PlainName, GoUrl.CleanSegment, hslash, String.ext_iff]

theorem below_iff (pre key : String) :
    Below pre key ↔ key = pre ∨ hasPrefix key (pre ++ "/") = true := by
  have hinj : Function.Injective String.ofList := fun _ _ => String.ofList_injective
  unfold Below split
  rw [List.prefix_map_iff_of_injective hinj, hasPrefix_iff, String.toList_append,
    GoUrl.splitOn_prefix_iff, String.ext_iff]
  rfl

/-- One prefix of the loop. -/
theorem matchesPrefix_iff (key raw : String) :
    matchesPrefix key raw = true ↔ trimmedPrefix raw ≠ "" ∧ Below (trimmedPrefix raw) key := by
  rw [below_iff]
  unfold matchesPrefix trimmedPrefix
  simp

/-- The loop over the prefixes. -/
theorem any_matchesPrefix_iff (key : String) (prefixes : List String) :
    prefixes.any (matchesPrefix key) = true ↔
      ∃ pre ∈ prefixes, trimmedPrefix pre ≠ "" ∧ Below (trimmedPrefix pre) key := by
  rw [List.any_eq_true]
  exact exists_congr fun pre => and_congr_right fun _ => matchesPrefix_iff key pre

theorem startsWithParent_iff (key : String) :
    GoUrl.StartsWithParent key.toList ↔ key = ".." ∨ hasPrefix key "../" = true := by
  rw [hasPrefix_iff, String.ext_iff]
  rfl

theorem head?_eq_slash_iff (key : String) :
    key.toList.head? = some '/' ↔ hasPrefix key "/" = true := by
  rw [hasPrefix_iff, List.head?_eq_some_iff]
  exact exists_congr fun rest => eq_comm

/-- The checks before the prefixes. -/
theorem forall_plainName_iff_clean (key : String) :
    (∀ name ∈ split key '/', PlainName name) ↔
      ¬hasPrefix key "/" = true ∧ key ≠ "." ∧ ¬(key = ".." ∨ hasPrefix key "../" = true) ∧
        GoPath.clean key = key := by
  have hdot : key.toList ≠ ['.'] ↔ key ≠ "." := by
    rw [ne_eq, ne_eq, String.ext_iff]
    rfl
  rw [forall_plainName_iff, GoUrl.forall_cleanSegment_iff, String.ofList_toList, hdot,
    ← startsWithParent_iff, ← head?_eq_slash_iff]

/-- **The keys that may be uploaded.** -/
theorem validateObjectKey_some_iff (raw : String) (prefixes : List String) (key : String) :
    validateObjectKey raw prefixes = some key ↔
      key = trimSpace raw ∧ key ≠ "" ∧ '\\' ∉ key.toList ∧
        (∀ name ∈ split key '/', PlainName name) ∧
        ∃ pre ∈ prefixes, trimmedPrefix pre ≠ "" ∧ Below (trimmedPrefix pre) key := by
  unfold validateObjectKey
  generalize trimSpace raw = trimmed
  dsimp only
  by_cases hshape : trimmed = "" ∨ hasPrefix trimmed "/" = true ∨ contains trimmed "\\" = true
  · rw [if_pos hshape]
    refine iff_of_false (by simp) ?_
    rintro ⟨rfl, hempty, hbackslash, hnames, -⟩
    have hclean := (forall_plainName_iff_clean _).mp hnames
    rcases hshape with h | h | h
    · exact hempty h
    · exact hclean.1 h
    · exact hbackslash ((contains_rune_iff rfl _).mp h)
  rw [if_neg hshape]
  rw [not_or, not_or, contains_rune_iff rfl] at hshape
  obtain ⟨hempty, hslash, hbackslash⟩ := hshape
  by_cases hunclean : GoPath.clean trimmed = "." ∨ GoPath.clean trimmed = ".." ∨
      hasPrefix (GoPath.clean trimmed) "../" = true ∨ GoPath.clean trimmed ≠ trimmed
  · rw [if_pos hunclean]
    refine iff_of_false (by simp) ?_
    rintro ⟨rfl, -, -, hnames, -⟩
    obtain ⟨-, hdot, hparent, hclean⟩ := (forall_plainName_iff_clean _).mp hnames
    rw [hclean] at hunclean
    tauto
  rw [if_neg hunclean]
  rw [not_or, not_or, not_or, not_ne_iff] at hunclean
  obtain ⟨hdot, hparent, hbelow, hclean⟩ := hunclean
  rw [hclean] at hdot hparent hbelow ⊢
  have hnames := (forall_plainName_iff_clean trimmed).mpr
    ⟨hslash, hdot, not_or.mpr ⟨hparent, hbelow⟩, hclean⟩
  have hany := any_matchesPrefix_iff trimmed prefixes
  constructor
  · intro h
    split_ifs at h with hfound
    obtain rfl := Option.some.inj h
    exact ⟨rfl, hempty, hbackslash, hnames, hany.mp hfound⟩
  · rintro ⟨rfl, -, -, -, hfound⟩
    rw [if_pos (hany.mpr hfound)]

end AppApi
end GatewayRuntime
