import Mathlib.Data.Finmap

/-!
# A `range` loop over a map that its own body edits

`for k, v := range m` visits every entry that was there before the loop and has
not been deleted, once and in an order that the language leaves open.  An entry
that the body creates may be visited or not.

* `Loop` is the state between two rounds: the map, the old entries still to
  come, and the created ones that may still come.
* `Runs` relates the state to every result that some order can give.
* `Normaliser` is a loop body that moves each entry to a normalised name.  The
  section on it says what such a loop can return (`Normaliser.runs_ok`) and
  exactly when all orders return the same (`Normaliser.order_free_iff`).
-/

namespace GatewayRuntime
namespace MapRange

universe u v w

/-- What a loop body does to the map: `m[k] = a` or `delete(m, k)`. -/
inductive Edit (κ : Type u) (α : Type v) where
  | set (k : κ) (a : α)
  | delete (k : κ)

/-- The loop between two rounds. -/
structure Loop (κ : Type u) (α : Type v) where
  data : Finmap fun _ : κ => α
  due : Finset κ
  created : Finset κ

variable {κ : Type u} {α : Type v} {ε : Type w} [DecidableEq κ]

namespace Loop

/-- Before the first round. -/
def start (m : Finmap fun _ : κ => α) : Loop κ α :=
  ⟨m, m.keys, ∅⟩

/-- The entry of `k` is visited. -/
def reach (s : Loop κ α) (k : κ) : Loop κ α :=
  ⟨s.data, s.due.erase k, s.created.erase k⟩

/-- One edit: a new entry may be visited later, a deleted one is not. -/
def apply (s : Loop κ α) : Edit κ α → Loop κ α
  | .set k a =>
      ⟨s.data.insert k a, s.due, if k ∈ s.data then s.created else insert k s.created⟩
  | .delete k => ⟨s.data.erase k, s.due.erase k, s.created.erase k⟩

/-- The round that visits `k` and makes these edits. -/
def round (s : Loop κ α) (k : κ) (edits : List (Edit κ α)) : Loop κ α :=
  edits.foldl apply (s.reach k)

end Loop

/-- `Runs body s r`: from `s`, some order of the remaining rounds returns `r`. -/
inductive Runs (body : κ → α → Except ε (List (Edit κ α))) :
    Loop κ α → Except ε (Finmap fun _ : κ => α) → Prop
  | done {s : Loop κ α} :
      s.due = ∅ →
      Runs body s (.ok s.data)
  | fail {s : Loop κ α} {k : κ} {a : α} {e : ε} :
      k ∈ s.due ∪ s.created →
      s.data.lookup k = some a →
      body k a = .error e →
      Runs body s (.error e)
  | next {s : Loop κ α} {k : κ} {a : α} {edits : List (Edit κ α)}
      {r : Except ε (Finmap fun _ : κ => α)} :
      k ∈ s.due ∪ s.created →
      s.data.lookup k = some a →
      body k a = .ok edits →
      Runs body (s.round k edits) r →
      Runs body s r

/-- A loop body that checks and rewrites a value and stores it under the
normalised name; `replace` says whether the entry of another name is deleted. -/
structure Normaliser (κ : Type u) (α : Type v) (ε : Type w) where
  name : κ → κ
  fix : κ → α → Except ε α
  replace : Bool
  name_name : ∀ k, name (name k) = name k
  fix_fix : ∀ {n a b}, fix n a = .ok b → fix n b = .ok b

namespace Normaliser

variable (N : Normaliser κ α ε)

/-- What the body does with a value that passes the check. -/
def edits (k : κ) (b : α) : List (Edit κ α) :=
  if N.replace = true ∧ N.name k ≠ k then [.delete k, .set (N.name k) b]
  else [.set (N.name k) b]

/-- The loop body. -/
def body (k : κ) (a : α) : Except ε (List (Edit κ α)) :=
  (N.fix (N.name k) a).map (N.edits k)

/-- `k` is another spelling of the name `n`. -/
def Spells (n k : κ) : Prop :=
  N.name k = n ∧ k ≠ n

/-- Every entry passes the check by itself. -/
def Checks (m : Finmap fun _ : κ => α) : Prop :=
  ∀ k a, m.lookup k = some a → ∃ b, N.fix (N.name k) a = .ok b

/-- Two spellings of one name carry the same value once rewritten. -/
def Agrees (m : Finmap fun _ : κ => α) : Prop :=
  ∀ n j k a b, N.Spells n j → N.Spells n k →
    m.lookup j = some a → m.lookup k = some b → N.fix n a = N.fix n b

/-- The entry of a normalised name `n` when the loop is over. -/
inductive Outcome (m : Finmap fun _ : κ => α) (n : κ) : Option α → Prop
  | absent :
      m.lookup n = none →
      (∀ k, N.Spells n k → k ∉ m) →
      Outcome m n none
  | own {a b : α} :
      m.lookup n = some a →
      N.fix n a = .ok b →
      (∀ k, N.Spells n k → k ∉ m) →
      Outcome m n (some b)
  | spelled {k : κ} {a b : α} :
      N.Spells n k →
      m.lookup k = some a →
      N.fix n a = .ok b →
      Outcome m n (some b)

/-- The entry of a normalised name `n` during the loop. -/
inductive Slot (m : Finmap fun _ : κ => α) (s : Loop κ α) (n : κ) : Prop
  | untouched :
      s.data.lookup n = m.lookup n →
      (n ∈ m → n ∈ s.due) →
      (∀ k, N.Spells n k → k ∈ m → k ∈ s.due) →
      Slot m s n
  | own {a b : α} :
      m.lookup n = some a →
      N.fix n a = .ok b →
      s.data.lookup n = some b →
      (∀ k, N.Spells n k → k ∈ m → k ∈ s.due) →
      Slot m s n
  | spelled {k : κ} {a b : α} :
      N.Spells n k →
      m.lookup k = some a →
      N.fix n a = .ok b →
      s.data.lookup n = some b →
      Slot m s n

/-- What holds between two rounds of a loop that began with `m`. -/
structure Inv (m : Finmap fun _ : κ => α) (s : Loop κ α) : Prop where
  due_old : s.due ⊆ m.keys
  created_normal : ∀ k ∈ s.created, N.name k = k
  spelling_due : ∀ k, N.name k ≠ k → k ∈ s.due → s.data.lookup k = m.lookup k
  spelling_past : ∀ k, N.name k ≠ k → k ∉ s.due →
    s.data.lookup k = if N.replace then none else m.lookup k
  slot : ∀ n, N.name n = n → N.Slot m s n

variable {N} {m : Finmap fun _ : κ => α} {s : Loop κ α} {k n : κ} {a b : α}

theorem body_ok {es : List (Edit κ α)} (h : N.body k a = .ok es) :
    ∃ b, N.fix (N.name k) a = .ok b ∧ es = N.edits k b := by
  unfold body at h
  cases hfix : N.fix (N.name k) a with
  | error e => rw [hfix] at h; cases h
  | ok b =>
      rw [hfix] at h
      exact ⟨b, rfl, (Except.ok.inj h).symm⟩

theorem body_of_fix (h : N.fix (N.name k) a = .ok b) :
    N.body k a = .ok (N.edits k b) := by
  rw [body, h]; rfl

theorem body_error {e : ε} (h : N.fix (N.name k) a = .error e) :
    N.body k a = .error e := by
  rw [body, h]; rfl

section Round

theorem round_due : (s.round k (N.edits k b)).due = s.due.erase k := by
  unfold edits
  split_ifs
  · exact Finset.erase_idem
  · rfl

theorem round_lookup_name :
    (s.round k (N.edits k b)).data.lookup (N.name k) = some b := by
  unfold edits
  split_ifs <;> exact Finmap.lookup_insert _

theorem round_lookup_spelling (h : N.name k ≠ k) :
    (s.round k (N.edits k b)).data.lookup k =
      if N.replace then none else s.data.lookup k := by
  unfold edits
  cases hr : N.replace with
  | false =>
      rw [if_neg (by simp), if_neg (by simp)]
      exact Finmap.lookup_insert_of_ne _ h.symm
  | true =>
      rw [if_pos ⟨rfl, h⟩, if_pos rfl]
      exact (Finmap.lookup_insert_of_ne _ h.symm).trans (Finmap.lookup_erase _ _)

theorem round_lookup_other {j : κ} (hk : j ≠ k) (hn : j ≠ N.name k) :
    (s.round k (N.edits k b)).data.lookup j = s.data.lookup j := by
  unfold edits
  split_ifs
  · exact (Finmap.lookup_insert_of_ne _ hn).trans (Finmap.lookup_erase_ne hk)
  · exact Finmap.lookup_insert_of_ne _ hn

theorem mem_set_created {t : Loop κ α} {i j : κ}
    (h : j ∈ (t.apply (.set i b)).created) : j = i ∨ j ∈ t.created := by
  have h' : j ∈ if i ∈ t.data then t.created else insert i t.created := h
  split_ifs at h'
  · exact Or.inr h'
  · exact Finset.mem_insert.mp h'

theorem round_created {j : κ} (h : j ∈ (s.round k (N.edits k b)).created) :
    j = N.name k ∨ j ∈ s.created := by
  unfold edits at h
  split_ifs at h
  · rcases mem_set_created h with h | h
    · exact Or.inl h
    · exact Or.inr (Finset.mem_of_mem_erase (Finset.mem_of_mem_erase h))
  · rcases mem_set_created h with h | h
    · exact Or.inl h
    · exact Or.inr (Finset.mem_of_mem_erase h)

end Round

section Invariant

theorem inv_start : N.Inv m (Loop.start m) where
  due_old := subset_rfl
  created_normal := by
    intro k hk
    exact absurd hk (Finset.notMem_empty k)
  spelling_due := fun _ _ _ => rfl
  spelling_past := by
    intro k _ hk
    have hnone : m.lookup k = none :=
      Finmap.lookup_eq_none.mpr fun h => hk (Finmap.mem_keys.mpr h)
    change m.lookup k = _
    rw [hnone, ite_self]
  slot := fun n _ =>
    .untouched rfl (fun h => Finmap.mem_keys.mpr h) (fun _ _ h => Finmap.mem_keys.mpr h)

/-- An entry that may be visited is an old one that is due, or has a normalised name. -/
theorem Inv.due_of_spelling
    (hi : N.Inv m s)
    (hk : k ∈ s.due ∪ s.created)
    (hne : N.name k ≠ k) :
    k ∈ s.due := by
  rcases Finset.mem_union.mp hk with h | h
  · exact h
  · exact absurd (hi.created_normal k h) hne

/-- The value found under a normalised name comes from an old entry of it. -/
theorem Slot.origin
    (hs : N.Slot m s n)
    (ha : s.data.lookup n = some a) :
    m.lookup n = some a ∨ N.fix n a = .ok a := by
  cases hs with
  | untouched h _ _ => exact Or.inl (h ▸ ha)
  | own _ hfix h _ =>
      rw [h] at ha
      exact Or.inr (Option.some.inj ha ▸ N.fix_fix hfix)
  | spelled _ _ hfix h =>
      rw [h] at ha
      exact Or.inr (Option.some.inj ha ▸ N.fix_fix hfix)

/-- With every entry in order no round fails. -/
theorem Inv.fix_ok
    (hi : N.Inv m s)
    (hc : N.Checks m)
    (hk : k ∈ s.due ∪ s.created)
    (ha : s.data.lookup k = some a) :
    ∃ b, N.fix (N.name k) a = .ok b := by
  by_cases hne : N.name k = k
  · rcases (hi.slot k hne).origin ha with h | h
    · exact hc k a h
    · exact ⟨a, by rw [hne]; exact h⟩
  · rw [hi.spelling_due k hne (hi.due_of_spelling hk hne)] at ha
    exact hc k a ha

/-- The due entries are still in the map. -/
theorem Inv.lookup_due
    (hi : N.Inv m s)
    (hk : k ∈ s.due) :
    ∃ a, s.data.lookup k = some a := by
  obtain ⟨a, ha⟩ := Finmap.mem_iff.mp (Finmap.mem_keys.mp (hi.due_old hk))
  by_cases hne : N.name k = k
  · cases hi.slot k hne with
    | untouched h _ _ => exact ⟨a, h.trans ha⟩
    | own _ _ h _ => exact ⟨_, h⟩
    | spelled _ _ _ h => exact ⟨_, h⟩
  · exact ⟨a, (hi.spelling_due k hne hk).trans ha⟩

/-- A slot that the round does not write. -/
theorem Slot.round_other
    (hs : N.Slot m s n)
    (hk : n ≠ k)
    (hn : n ≠ N.name k) :
    N.Slot m (s.round k (N.edits k b)) n := by
  have hlookup := round_lookup_other (b := b) (s := s) hk hn
  have hdue : ∀ j, N.Spells n j → j ∈ s.due → j ∈ (s.round k (N.edits k b)).due := by
    intro j hj hmem
    rw [round_due]
    refine Finset.mem_erase.mpr ⟨?_, hmem⟩
    rintro rfl
    exact hn hj.1.symm
  cases hs with
  | untouched h hown hspell =>
      refine .untouched (hlookup.trans h) (fun hm => ?_) fun j hj hm => hdue j hj (hspell j hj hm)
      rw [round_due]
      exact Finset.mem_erase.mpr ⟨hk, hown hm⟩
  | own ha hfix h hspell =>
      exact .own ha hfix (hlookup.trans h) fun j hj hm => hdue j hj (hspell j hj hm)
  | spelled hj ha hfix h => exact .spelled hj ha hfix (hlookup.trans h)

/-- The slot of a normalised name after its own round: a value that was already
rewritten stays, by idempotence. -/
theorem Slot.round_own
    (hs : N.Slot m s k)
    (hk : N.name k = k)
    (ha : s.data.lookup k = some a)
    (hb : N.fix k a = .ok b) :
    N.Slot m (s.round k (N.edits k b)) k := by
  have hlookup : (s.round k (N.edits k b)).data.lookup k = some b := by
    have h := round_lookup_name (N := N) (s := s) (k := k) (b := b)
    rwa [hk] at h
  have hdue : ∀ j, N.Spells k j → j ∈ s.due → j ∈ (s.round k (N.edits k b)).due := by
    intro j hj hmem
    rw [round_due]
    exact Finset.mem_erase.mpr ⟨hj.2, hmem⟩
  cases hs with
  | untouched h _ hspell =>
      exact .own (h ▸ ha) hb hlookup fun j hj hm => hdue j hj (hspell j hj hm)
  | own ha' hfix h hspell =>
      rw [h] at ha
      cases ha
      rw [N.fix_fix hfix] at hb
      cases hb
      exact .own ha' hfix hlookup fun j hj hm => hdue j hj (hspell j hj hm)
  | spelled hj ha' hfix h =>
      rw [h] at ha
      cases ha
      rw [N.fix_fix hfix] at hb
      cases hb
      exact .spelled hj ha' hfix hlookup

theorem Inv.round_slot
    (hi : N.Inv m s)
    (hk : k ∈ s.due ∪ s.created)
    (ha : s.data.lookup k = some a)
    (hb : N.fix (N.name k) a = .ok b)
    (hn : N.name n = n) :
    N.Slot m (s.round k (N.edits k b)) n := by
  by_cases hname : n = N.name k
  · subst hname
    by_cases hne : N.name k = k
    · rw [hne] at hb ⊢
      exact (hi.slot k hne).round_own hne ha hb
    · -- another spelling: its old value is what the round has read
      rw [hi.spelling_due k hne (hi.due_of_spelling hk hne)] at ha
      exact .spelled ⟨rfl, Ne.symm hne⟩ ha hb round_lookup_name
  · refine (hi.slot n hn).round_other ?_ hname
    rintro rfl
    exact hname hn.symm

theorem Inv.round
    (hi : N.Inv m s)
    (hk : k ∈ s.due ∪ s.created)
    (ha : s.data.lookup k = some a)
    (hb : N.fix (N.name k) a = .ok b) :
    N.Inv m (s.round k (N.edits k b)) where
  due_old := by
    rw [round_due]
    exact (Finset.erase_subset _ _).trans hi.due_old
  created_normal := by
    intro j hj
    rcases round_created hj with rfl | hj
    · exact N.name_name k
    · exact hi.created_normal j hj
  spelling_due := by
    intro j hne hj
    rw [round_due] at hj
    obtain ⟨hjk, hj⟩ := Finset.mem_erase.mp hj
    have hjn : j ≠ N.name k := fun h => hne (h ▸ N.name_name k)
    rw [round_lookup_other hjk hjn]
    exact hi.spelling_due j hne hj
  spelling_past := by
    intro j hne hj
    rw [round_due] at hj
    by_cases hjk : j = k
    · subst hjk
      rw [round_lookup_spelling hne, hi.spelling_due j hne (hi.due_of_spelling hk hne)]
    · have hjn : j ≠ N.name k := fun h => hne (h ▸ N.name_name k)
      rw [round_lookup_other hjk hjn]
      exact hi.spelling_past j hne fun h => hj (Finset.mem_erase.mpr ⟨hjk, h⟩)
  slot := fun _ hn => hi.round_slot hk ha hb hn

end Invariant

section Results

/-- When nothing is due any more, a slot is settled. -/
theorem Slot.outcome
    (hs : N.Slot m s n)
    (hdue : s.due = ∅) :
    N.Outcome m n (s.data.lookup n) := by
  have hnot : ∀ k, k ∉ s.due := by
    intro k
    rw [hdue]
    exact Finset.notMem_empty k
  cases hs with
  | untouched h hown hspell =>
      have hnone : m.lookup n = none :=
        Finmap.lookup_eq_none.mpr fun hm => hnot n (hown hm)
      rw [h, hnone]
      exact .absent hnone fun k hk hm => hnot k (hspell k hk hm)
  | own ha hfix h hspell =>
      rw [h]
      exact .own ha hfix fun k hk hm => hnot k (hspell k hk hm)
  | spelled hk ha hfix h =>
      rw [h]
      exact .spelled hk ha hfix

/-- What the loop can return: a spelling that is not a normalised name keeps its
old entry or has none, and every normalised name has an outcome. -/
structure Result (N : Normaliser κ α ε) (m m' : Finmap fun _ : κ => α) : Prop where
  spelling : ∀ k, N.name k ≠ k → m'.lookup k = if N.replace then none else m.lookup k
  normal : ∀ n, N.name n = n → N.Outcome m n (m'.lookup n)

theorem result_of_runs
    {r : Except ε (Finmap fun _ : κ => α)}
    (h : Runs N.body s r) :
    N.Inv m s → ∀ m', r = .ok m' → N.Result m m' := by
  induction h with
  | @done s hdue =>
      intro hi m' hm
      cases hm
      refine ⟨fun k hne => hi.spelling_past k hne ?_, fun n hn => (hi.slot n hn).outcome hdue⟩
      rw [hdue]
      exact Finset.notMem_empty k
  | fail _ _ _ =>
      intro _ m' hm
      cases hm
  | next hk ha hbody _ ih =>
      intro hi
      obtain ⟨b, hb, rfl⟩ := body_ok hbody
      exact ih (hi.round hk ha hb)

theorem runs_ok
    {m' : Finmap fun _ : κ => α}
    (h : Runs N.body (Loop.start m) (.ok m')) :
    N.Result m m' :=
  result_of_runs h inv_start m' rfl

/-- No order fails when every entry passes its check. -/
theorem ok_of_checks
    {r : Except ε (Finmap fun _ : κ => α)}
    (hc : N.Checks m)
    (h : Runs N.body s r) :
    N.Inv m s → ∃ m', r = .ok m' := by
  induction h with
  | @done s _ =>
      intro _
      exact ⟨s.data, rfl⟩
  | fail hk ha hbody =>
      intro hi
      obtain ⟨b, hb⟩ := hi.fix_ok hc hk ha
      rw [body_of_fix hb] at hbody
      cases hbody
  | next hk ha hbody _ ih =>
      intro hi
      obtain ⟨b, hb, rfl⟩ := body_ok hbody
      exact ih (hi.round hk ha hb)

theorem Outcome.unique
    {x y : Option α}
    (hag : N.Agrees m)
    (hx : N.Outcome m n x)
    (hy : N.Outcome m n y) :
    x = y := by
  cases hx with
  | absent hm hsp =>
      cases hy with
      | absent _ _ => rfl
      | own ha _ _ => rw [hm] at ha; cases ha
      | spelled hk ha _ => exact absurd (Finmap.mem_of_lookup_eq_some ha) (hsp _ hk)
  | own ha hfix hsp =>
      cases hy with
      | absent hm _ => rw [hm] at ha; cases ha
      | own ha' hfix' _ =>
          rw [ha] at ha'
          cases ha'
          rw [hfix] at hfix'
          exact congrArg some (Except.ok.inj hfix')
      | spelled hk ha' _ => exact absurd (Finmap.mem_of_lookup_eq_some ha') (hsp _ hk)
  | spelled hk ha hfix =>
      cases hy with
      | absent _ hsp => exact absurd (Finmap.mem_of_lookup_eq_some ha) (hsp _ hk)
      | own _ _ hsp => exact absurd (Finmap.mem_of_lookup_eq_some ha) (hsp _ hk)
      | spelled hk' ha' hfix' =>
          have heq := hag _ _ _ _ _ hk hk' ha ha'
          rw [hfix, hfix'] at heq
          exact congrArg some (Except.ok.inj heq)

theorem Result.unique
    {m₁ m₂ : Finmap fun _ : κ => α}
    (hag : N.Agrees m)
    (h₁ : N.Result m m₁)
    (h₂ : N.Result m m₂) :
    m₁ = m₂ := by
  apply Finmap.ext_lookup
  intro k
  by_cases hk : N.name k = k
  · exact (h₁.normal k hk).unique hag (h₂.normal k hk)
  · rw [h₁.spelling k hk, h₂.spelling k hk]

/-- A value stored under a normalised name has been rewritten. -/
theorem Outcome.fixed
    (h : N.Outcome m n (some b)) :
    ∃ a, N.fix n a = .ok b := by
  cases h with
  | own _ hfix _ => exact ⟨_, hfix⟩
  | spelled _ _ hfix => exact ⟨_, hfix⟩

/-- A loop that deletes nothing returns only normalised names when it was given
only such. -/
theorem Result.names_normal_iff
    {m' : Finmap fun _ : κ => α}
    (h : N.Result m m')
    (hr : N.replace = false) :
    (∀ k ∈ m', N.name k = k) ↔ ∀ k ∈ m, N.name k = k := by
  have hsame : ∀ k, N.name k ≠ k → (k ∈ m' ↔ k ∈ m) := by
    intro k hne
    have hlookup : m'.lookup k = m.lookup k := by simpa [hr] using h.spelling k hne
    rw [Finmap.mem_iff, Finmap.mem_iff, hlookup]
  constructor
  · intro hall k hk
    by_contra hne
    exact hne (hall k ((hsame k hne).mpr hk))
  · intro hall k hk
    by_contra hne
    exact hne (hall k ((hsame k hne).mp hk))

end Results

section Orders

/-- With every entry in order, the due entries of `l` can be visited first. -/
theorem visit_first
    (hc : N.Checks m)
    (l : List κ) :
    ∀ s : Loop κ α, N.Inv m s → l.Nodup → (∀ k ∈ l, k ∈ s.due) →
      ∃ t : Loop κ α, N.Inv m t ∧ (∀ k, k ∈ t.due ↔ k ∈ s.due ∧ k ∉ l) ∧
        ∀ r, Runs N.body t r → Runs N.body s r := by
  -- induction on the entries still to be visited
  induction l with
  | nil =>
      intro s hi _ _
      exact ⟨s, hi, by simp, fun _ h => h⟩
  | cons j l ih =>
      intro s hi hnodup hdue
      obtain ⟨hj, hnodup⟩ := List.nodup_cons.mp hnodup
      have hmem : j ∈ s.due := hdue j List.mem_cons_self
      obtain ⟨a, ha⟩ := hi.lookup_due hmem
      have hk : j ∈ s.due ∪ s.created := Finset.mem_union_left _ hmem
      obtain ⟨b, hb⟩ := hi.fix_ok hc hk ha
      have hrest : ∀ k ∈ l, k ∈ (s.round j (N.edits j b)).due := by
        intro k hkl
        rw [round_due]
        refine Finset.mem_erase.mpr ⟨?_, hdue k (List.mem_cons_of_mem _ hkl)⟩
        rintro rfl
        exact hj hkl
      obtain ⟨t, hit, htdue, hruns⟩ := ih _ (hi.round hk ha hb) hnodup hrest
      refine ⟨t, hit, ?_, fun r h => .next hk ha (body_of_fix hb) (hruns r h)⟩
      intro k
      rw [htdue, round_due, Finset.mem_erase, List.mem_cons, not_or]
      tauto

/-- Any spelling may be the last entry visited, and then its value is the final
one of the name. -/
theorem exists_run_last
    (hc : N.Checks m)
    (hs : N.Spells n k)
    (ha : m.lookup k = some a) :
    ∃ m' b, Runs N.body (Loop.start m) (.ok m') ∧
      N.fix n a = .ok b ∧ m'.lookup n = some b := by
  obtain ⟨rfl, hne⟩ := hs
  have hkm : k ∈ m.keys := Finmap.mem_keys.mpr (Finmap.mem_of_lookup_eq_some ha)
  obtain ⟨t, hi, hdue, hruns⟩ :=
    visit_first hc (m.keys.erase k).toList (Loop.start m) inv_start (Finset.nodup_toList _)
      (fun j hj => Finset.mem_of_mem_erase (Finset.mem_toList.mp hj))
  have hkt : k ∈ t.due := (hdue k).mpr ⟨hkm, by simp⟩
  have honly : t.due.erase k = ∅ := by
    apply Finset.eq_empty_of_forall_notMem
    intro j hj
    obtain ⟨hne, hj⟩ := Finset.mem_erase.mp hj
    obtain ⟨hjm, hnot⟩ := (hdue j).mp hj
    exact hnot (Finset.mem_toList.mpr (Finset.mem_erase.mpr ⟨hne, hjm⟩))
  obtain ⟨a', ha'⟩ := hi.lookup_due hkt
  have hk : k ∈ t.due ∪ t.created := Finset.mem_union_left _ hkt
  obtain ⟨b, hb⟩ := hi.fix_ok hc hk ha'
  have hempty : (t.round k (N.edits k b)).due = ∅ := round_due.trans honly
  refine ⟨_, b, hruns _ (.next hk ha' (body_of_fix hb) (.done hempty)), ?_, round_lookup_name⟩
  rw [hi.spelling_due k hne.symm hkt, ha] at ha'
  rw [Option.some.inj ha']
  exact hb

/-- An entry that fails its check may be the first one visited. -/
theorem exists_run_error
    {e : ε}
    (ha : m.lookup k = some a)
    (hb : N.fix (N.name k) a = .error e) :
    Runs N.body (Loop.start m) (.error e) := by
  have hk : k ∈ m.keys := Finmap.mem_keys.mpr (Finmap.mem_of_lookup_eq_some ha)
  exact .fail (Finset.mem_union_left _ hk) ha (body_error hb)

/-- For a map that some order accepts, all orders give the same result exactly
when every entry passes by itself and the spellings of each name agree. -/
theorem order_free_iff
    {m' : Finmap fun _ : κ => α}
    (h : Runs N.body (Loop.start m) (.ok m')) :
    (∀ r, Runs N.body (Loop.start m) r → r = .ok m') ↔ N.Checks m ∧ N.Agrees m := by
  constructor
  · intro hall
    have hc : N.Checks m := by
      intro k a ha
      cases hb : N.fix (N.name k) a with
      | ok b => exact ⟨b, rfl⟩
      | error e => cases hall _ (exists_run_error ha hb)
    refine ⟨hc, ?_⟩
    intro n j k a b hj hk ha hb
    obtain ⟨mj, a', hrunj, hfixj, hlastj⟩ := exists_run_last hc hj ha
    obtain ⟨mk, b', hrunk, hfixk, hlastk⟩ := exists_run_last hc hk hb
    have heq : mj = mk := Except.ok.inj ((hall _ hrunj).trans (hall _ hrunk).symm)
    rw [heq, hlastk] at hlastj
    rw [hfixj, hfixk, Option.some.inj hlastj]
  · rintro ⟨hc, hag⟩ r hr
    obtain ⟨m'', rfl⟩ := ok_of_checks hc hr inv_start
    exact congrArg Except.ok ((runs_ok hr).unique hag (runs_ok h))

/-- The same for a check that is a condition on name and value and a rewriting
`norm` that looks at the value only. -/
theorem checks_and_agrees_iff
    {complete : κ → α → Prop} {norm : α → α}
    (hok : ∀ n a, complete n a → N.fix n a = .ok (norm a))
    (hcomplete : ∀ n a b, N.fix n a = .ok b → complete n a) :
    (N.Checks m ∧ N.Agrees m) ↔
      (∀ k a, m.lookup k = some a → complete (N.name k) a) ∧
      ∀ j k a b, N.name j ≠ j → N.name k ≠ k → N.name j = N.name k →
        m.lookup j = some a → m.lookup k = some b → norm a = norm b := by
  constructor
  · rintro ⟨hc, hag⟩
    have hall : ∀ k a, m.lookup k = some a → complete (N.name k) a := by
      intro k a ha
      obtain ⟨b, hb⟩ := hc k a ha
      exact hcomplete _ _ _ hb
    refine ⟨hall, ?_⟩
    intro j k a b hj hk hjk ha hb
    have hfix := hag (N.name j) j k a b ⟨rfl, hj.symm⟩ ⟨hjk.symm, hjk ▸ hk.symm⟩ ha hb
    rw [hok _ _ (hall j a ha), hok _ _ (hjk ▸ hall k b hb)] at hfix
    exact Except.ok.inj hfix
  · rintro ⟨hall, hag⟩
    refine ⟨fun k a ha => ⟨norm a, hok _ _ (hall k a ha)⟩, ?_⟩
    rintro _ j k a b ⟨rfl, hj⟩ ⟨hjk, hk⟩ ha hb
    have hnorm := hag j k a b hj.symm (hjk ▸ hk.symm) hjk.symm ha hb
    rw [hok _ _ (hall j a ha), hok _ _ (hjk ▸ hall k b hb), hnorm]

end Orders

end Normaliser

end MapRange
end GatewayRuntime
