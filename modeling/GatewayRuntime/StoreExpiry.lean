import GatewayRuntime.Lib.Expiring
import GatewayRuntime.SessionLifecycle
import GatewayRuntime.TokenStore

/-!
# When the entries of the stores end

The session stores and the token stores as stores of expiring entries.  A write is
*exact* if the entry ends at the `ExpiresAt` it was given.  In memory every write is; on
Redis the time to live is a whole number of milliseconds, at least one.

`Session.Lifecycle.getEffect` says what a `Get` of a `LifecycleStore` does to the entry
it looks at.
-/

namespace GatewayRuntime

open Expiring (Entry live Pruned)

/-- The end of an entry with the given `ExpiresAt`; the zero time means that it has none. -/
def expiryOf (expiresAt : Int) : WithTop Int :=
  if expiresAt = 0 then ⊤ else expiresAt

theorem lt_expiryOf {t expiresAt : Int} :
    (t : WithTop Int) < expiryOf expiresAt ↔ expiresAt = 0 ∨ t < expiresAt := by
  unfold expiryOf
  split_ifs with hzero
  · simp [hzero, WithTop.coe_lt_top]
  · simp [hzero, WithTop.coe_lt_coe]

/-- The time to live that Redis gets for an entry ends at the given instant. -/
def redisExact (now expiresAt : Int) : Bool :=
  decide (expiresAt ≠ 0 ∧ now + redisExpiry (GoTime.sub expiresAt now) = expiresAt)

section Views

variable {ι α : Type} (view : ι → α × WithTop Int) (t : Table String ι)

/-- The entries of a map. -/
def entries (sid : String) : Entry Int α :=
  (t.find sid).map view

theorem entries_set (sid : String) (x : ι) :
    entries view (t.set sid x) = Function.update (entries view t) sid (some (view x)) := by
  funext k
  by_cases hk : k = sid
  · subst hk
    simp [entries]
  · simp [entries, Table.find_set_of_ne t x hk, Function.update_of_ne hk]

theorem entries_erase (sid : String) :
    entries view (t.erase sid) = Function.update (entries view t) sid none := by
  funext k
  by_cases hk : k = sid
  · subst hk
    simp [entries]
  · simp [entries, Table.find_erase_of_ne t hk, Function.update_of_ne hk]

variable {view t}

/-- Removing an entry that has ended. -/
theorem pruned_erase
    {now : Int} {sid : String} (h : live now (entries view t sid) = none) (k : String) :
    Pruned now (entries view t k) (entries view (t.erase sid) k) := by
  rw [entries_erase]
  by_cases hk : k = sid
  · subst hk
    rw [Function.update_self]
    exact Or.inr ⟨rfl, h⟩
  · rw [Function.update_of_ne hk]
    exact .refl _ _

theorem live_entries
    {now : Int} {sid : String} {x : ι} (h : t.find sid = some x) :
    live now (entries view t sid) =
      if (now : WithTop Int) < (view x).2 then some (view x).1 else none := by
  simp [live, entries, h]

end Views

namespace Session

/-- A session store whose entries expire. -/
structure ExpiringStore extends Store where
  entry : State → String → Entry Int Session
  exact : (now expiresAt : Int) → Bool
  get_ok_iff :
    ∀ {s now sid v}, (get s now sid).2 = .ok v ↔ live now (entry s sid) = some v
  entry_get :
    ∀ s now sid k, Pruned now (entry s k) (entry (get s now sid).1 k)
  put_ok :
    ∀ {s now v}, (put s now v).2 = .ok () → exact now v.expiresAt = true →
      entry (put s now v).1 = Function.update (entry s) v.id (some (v, expiryOf v.expiresAt))
  put_error :
    ∀ {s now v e}, (put s now v).2 = .error e → (put s now v).1 = s
  entry_delete :
    ∀ s sid, entry (delete s sid) = Function.update (entry s) sid none

section Memory

/-- A session of a `MemoryStore` ends at its `ExpiresAt`. -/
def memoryView (v : Session) : Session × WithTop Int :=
  (v, expiryOf v.expiresAt)

/-- What a `Get` does to an entry and what it returns. -/
theorem MemoryState.get_eq (s : MemoryState) (now : Int) (sid : String) :
    (live now (entries memoryView s.data sid) = none ∧ (s.get now sid).2 = .error errNotFound ∧
        ((s.get now sid).1 = s ∨ (s.get now sid).1 = s.delete sid)) ∨
      ∃ v, live now (entries memoryView s.data sid) = some v ∧ s.get now sid = (s, .ok v) := by
  rcases get_cases s now sid with ⟨hdata, hget⟩ | ⟨v, hdata, hexp, hget⟩ | ⟨v, hdata, hexp, hget⟩
  · refine Or.inl ⟨?_, ?_, Or.inl ?_⟩
    · simp [entries, hdata, live]
    · rw [hget]
    · rw [hget]
  · have hover : ¬ (now : WithTop Int) < expiryOf v.expiresAt := by
      rw [lt_expiryOf]
      simpa [expired, GoTime.isZero] using hexp
    refine Or.inl ⟨?_, ?_, Or.inr ?_⟩
    · rw [live_entries hdata]
      exact if_neg hover
    · rw [hget]
    · rw [hget]
  · refine Or.inr ⟨v, ?_, hget⟩
    rw [live_entries hdata]
    exact if_pos (lt_expiryOf.mpr (expired_eq_false hexp))

/-- The entries of a `MemoryStore`. -/
def memoryExpiring : ExpiringStore where
  toStore := memoryStore
  entry s := entries memoryView (MemoryState.data s)
  exact _ _ := true
  get_ok_iff {s now sid v} := by
    rcases MemoryState.get_eq s now sid with ⟨hnone, herr, -⟩ | ⟨w, hlive, hget⟩
    · simp [memoryStore, herr, hnone]
    · simp [memoryStore, hget, hlive]
  entry_get s now sid k := by
    rcases MemoryState.get_eq s now sid with ⟨hnone, -, hsame | hdelete⟩ | ⟨w, -, hget⟩
    · simp only [memoryStore, hsame]
      exact .refl _ _
    · simp only [memoryStore, hdelete]
      exact pruned_erase hnone k
    · simp only [memoryStore, hget]
      exact .refl _ _
  put_ok _ _ := entries_set _ _ _ _
  put_error h := by cases h
  entry_delete s sid := entries_erase _ _ _

end Memory

section Redis

/-- A session on Redis ends with its time to live, or at its `ExpiresAt`. -/
def redisView (e : RedisEntry) : Session × WithTop Int :=
  (e.value, min (e.deadline : WithTop Int) (expiryOf e.value.expiresAt))

theorem RedisState.get_eq (s : RedisState) (now : Int) (sid : String) :
    (live now (entries redisView s.data sid) = none ∧ (s.get now sid).2 = .error errNotFound ∧
        ((s.get now sid).1 = s ∨ (s.get now sid).1 = s.delete sid)) ∨
      ∃ v, live now (entries redisView s.data sid) = some v ∧ s.get now sid = (s, .ok v) := by
  unfold get
  cases hdata : s.data.find sid with
  | none =>
      exact Or.inl ⟨by simp [entries, hdata, live], rfl, Or.inl rfl⟩
  | some e =>
      have hlive : live now (entries redisView s.data sid) =
          if (now : WithTop Int) < (redisView e).2 then some e.value else none :=
        live_entries hdata
      simp only
      split_ifs with hgone hexpired
      · refine Or.inl ⟨?_, rfl, Or.inl rfl⟩
        rw [hlive]
        refine if_neg fun hlt => ?_
        exact absurd (WithTop.coe_lt_coe.mp (lt_min_iff.mp hlt).1) (not_lt.mpr hgone)
      · refine Or.inl ⟨?_, rfl, Or.inr rfl⟩
        rw [hlive]
        refine if_neg fun hlt => ?_
        have hlater := lt_expiryOf.mp (lt_min_iff.mp hlt).2
        simp [GoTime.isZero] at hexpired
        omega
      · refine Or.inr ⟨e.value, ?_, rfl⟩
        rw [hlive]
        refine if_pos (lt_min (WithTop.coe_lt_coe.mpr (not_le.mp hgone)) (lt_expiryOf.mpr ?_))
        simp [GoTime.isZero] at hexpired
        omega

/-- A `Put` refuses and changes nothing, or it sets the key. -/
theorem RedisState.put_cases (s : RedisState) (now : Int) (v : Session) :
    (∃ e, s.put now v = (s, .error e)) ∨
      s.put now v = (s.set now v (GoTime.sub v.expiresAt now), .ok ()) := by
  unfold put
  split_ifs with hmarshal
  · exact Or.inl ⟨_, rfl⟩
  · simp only
    split_ifs with httl
    · exact Or.inl ⟨_, rfl⟩
    · exact Or.inr rfl

theorem redisView_of_exact
    {v : Session} {now : Int} (h : redisExact now v.expiresAt = true) :
    redisView ⟨v, now + redisExpiry (GoTime.sub v.expiresAt now)⟩ = (v, expiryOf v.expiresAt) := by
  simp only [redisExact, decide_eq_true_eq] at h
  simp [redisView, h.2, expiryOf, h.1]

/-- The entries of the `SessionStore` on Redis. -/
def redisExpiring : ExpiringStore where
  toStore := redisStore
  entry s := entries redisView (RedisState.data s)
  exact := redisExact
  get_ok_iff {s now sid v} := by
    rcases RedisState.get_eq s now sid with ⟨hnone, herr, -⟩ | ⟨w, hlive, hget⟩
    · simp [redisStore, herr, hnone]
    · simp [redisStore, hget, hlive]
  entry_get s now sid k := by
    rcases RedisState.get_eq s now sid with ⟨hnone, -, hsame | hdelete⟩ | ⟨w, -, hget⟩
    · simp only [redisStore, hsame]
      exact .refl _ _
    · simp only [redisStore, hdelete]
      exact pruned_erase hnone k
    · simp only [redisStore, hget]
      exact .refl _ _
  put_ok {s now v} hok hexact := by
    rcases RedisState.put_cases s now v with ⟨e, hput⟩ | hput
    · simp [redisStore, hput] at hok
    · simp only [redisStore, hput]
      rw [← redisView_of_exact hexact]
      exact entries_set _ _ _ _
  put_error {s now v e} h := by
    rcases RedisState.put_cases s now v with ⟨e', hput⟩ | hput
    · exact congrArg Prod.fst hput
    · simp [redisStore, hput] at h
  entry_delete s sid := entries_erase _ _ _

end Redis

section Lifecycle

variable {S : ExpiringStore} {cfg : Lifecycle}

/-- The write of `LastSeen` that a `Get` makes, if any, is exact. -/
def Lifecycle.touchesExactly (cfg : Lifecycle) (S : ExpiringStore) (s : S.State) (now : Int)
    (sid : String) : Bool :=
  match (S.get s now sid).2 with
  | .error _ => true
  | .ok v =>
      match cfg.check now v with
      | .touch v' => S.exact now v'.expiresAt
      | _ => true

/-- What a `Get` of a `LifecycleStore` does to the entry under its key: it is kept, it is
removed as over its lifetime or idle, or it is written back with the same end. -/
inductive Lifecycle.GetEffect (cfg : Lifecycle) (now : Int) (before after : Entry Int Session) :
    Except Err Session → Prop
  | kept
      {r : Except Err Session}
      (hpruned : Pruned now before after)
      (hresult : ∀ v, r = .ok v → live now before = some v) :
      Lifecycle.GetEffect cfg now before after r
  | removed
      {v : Session} {e : Err}
      (hlive : live now before = some v)
      (hexpired : cfg.check now v = .expired)
      (hafter : after = none) :
      Lifecycle.GetEffect cfg now before after (.error e)
  | touched
      {v : Session}
      (hlive : live now before = some v)
      (hafter : after = some ({ v with lastSeen := now }, expiryOf v.expiresAt)) :
      Lifecycle.GetEffect cfg now before after (.ok { v with lastSeen := now })

theorem Lifecycle.getEffect
    {s : S.State} {now : Int} {sid : String}
    (hexact : cfg.touchesExactly S s now sid = true) :
    cfg.GetEffect now (S.entry s sid) (S.entry (cfg.get S.toStore s now sid).1 sid)
        (cfg.get S.toStore s now sid).2 ∧
      ∀ k, k ≠ sid → Pruned now (S.entry s k) (S.entry (cfg.get S.toStore s now sid).1 k) := by
  have hpruned := S.entry_get s now sid
  rcases get_cases cfg S.toStore s now sid with
    ⟨e, -, hget⟩ | ⟨v, hv, ⟨hcheck, hget⟩ | ⟨v', hcheck, hget⟩ | ⟨-, hget⟩⟩
  · rw [hget]
    exact ⟨.kept (hpruned sid) nofun, fun k _ => hpruned k⟩
  · rw [hget, S.entry_delete]
    refine ⟨.removed (S.get_ok_iff.mp hv) hcheck (Function.update_self ..), fun k hk => ?_⟩
    rw [Function.update_of_ne hk]
    exact hpruned k
  · rw [hget]
    obtain ⟨rfl, -⟩ := check_touch hcheck
    have hid : v.id = sid := S.get_ok_id hv
    cases hput : (S.put (S.get s now sid).1 now { v with lastSeen := now }).2 with
    | error e =>
        rw [S.put_error hput]
        exact ⟨.kept (hpruned sid) nofun, fun k _ => hpruned k⟩
    | ok u =>
        have hwrite : S.exact now v.expiresAt = true := by
          simpa [touchesExactly, hv, hcheck] using hexact
        rw [S.put_ok hput hwrite]
        refine ⟨.touched (S.get_ok_iff.mp hv) ?_, fun k hk => ?_⟩
        · rw [← hid]
          exact Function.update_self ..
        · rw [Function.update_of_ne (hid ▸ hk)]
          exact hpruned k
  · rw [hget]
    refine ⟨.kept (hpruned sid) ?_, fun k _ => hpruned k⟩
    rintro _ ⟨⟩
    exact S.get_ok_iff.mp hv

end Lifecycle

end Session

namespace Token

/-- A token store whose entries expire. -/
structure ExpiringStore extends Store where
  entry : State → String → Entry Int TokenSet
  exact : (now expiresAt : Int) → Bool
  value_eq :
    ∀ s now sid, value s now sid = live now (entry s sid)
  entry_get :
    ∀ s now sid k, Pruned now (entry s k) (entry (get s now sid).1 k)
  entry_put_ok :
    ∀ {s now sid x expiresAt}, (put s now sid x expiresAt).2 = .ok () →
      exact now expiresAt = true →
        entry (put s now sid x expiresAt).1 =
          Function.update (entry s) sid (some (x, expiryOf expiresAt))
  put_error :
    ∀ {s now sid x expiresAt e}, (put s now sid x expiresAt).2 = .error e →
      (put s now sid x expiresAt).1 = s
  entry_delete :
    ∀ s sid, entry (delete s sid) = Function.update (entry s) sid none

section Memory

/-- A set of a `MemoryStore` ends at its `expiresAt`. -/
def memoryView (e : MemoryEntry) : TokenSet × WithTop Int :=
  (e.set, expiryOf e.expiresAt)

theorem MemoryEntry.live_iff (e : MemoryEntry) (now : Int) :
    e.live now = true ↔ (now : WithTop Int) < expiryOf e.expiresAt := by
  rw [lt_expiryOf]
  simp [MemoryEntry.live]

theorem MemoryState.value_eq_live (s : MemoryState) (now : Int) (sid : String) :
    s.value now sid = Expiring.live now (entries memoryView s sid) := by
  cases hfind : s.find sid with
  | none =>
      simp [value, entries, hfind, Expiring.live]
  | some e =>
      rw [live_entries hfind]
      by_cases hlive : e.live now = true
      · simp [value, hfind, hlive, memoryView, (e.live_iff now).mp hlive]
      · have hover : ¬ (now : WithTop Int) < expiryOf e.expiresAt :=
          fun hlt => hlive ((e.live_iff now).mpr hlt)
        simp [value, hfind, hlive, memoryView, hover]

/-- The entries of a `MemoryStore`. -/
def memoryExpiring : ExpiringStore where
  toStore := memoryStore
  entry := entries memoryView
  exact _ _ := true
  value_eq := MemoryState.value_eq_live
  entry_get s now sid k := by
    simp only [memoryStore, MemoryState.get]
    cases hfind : Table.find s sid with
    | none =>
        exact .refl _ _
    | some e =>
        simp only
        split_ifs with hlive
        · exact .refl _ _
        · refine pruned_erase ?_ k
          rw [live_entries hfind]
          exact if_neg fun hlt => hlive ((e.live_iff now).mpr hlt)
  entry_put_ok _ _ := entries_set _ _ _ _
  put_error := memoryValues.put_error
  entry_delete s sid := entries_erase _ _ _

end Memory

section Redis

/-- A set on Redis ends with its time to live. -/
def redisView (e : RedisEntry) : TokenSet × WithTop Int :=
  (e.set, e.deadline)

/-- The entries of the `TokenStore` on Redis. -/
def redisExpiring : ExpiringStore where
  toStore := redisStore
  entry := entries redisView
  exact := redisExact
  value_eq s now sid := by
    cases hfind : Table.find s sid with
    | none =>
        simp [redisStore, RedisState.value, entries, hfind, live]
    | some e =>
        simp [redisStore, RedisState.value, live_entries hfind, hfind, redisView]
  entry_get s now sid k := .refl _ _
  entry_put_ok {s now sid x expiresAt} hok hexact := by
    simp only [redisExact, decide_eq_true_eq] at hexact
    rcases RedisState.put_cases s now sid x expiresAt with hput | hput
    · simp [redisStore, hput] at hok
    · have hview : redisView ⟨x, now + redisExpiry (GoTime.sub expiresAt now)⟩ =
          (x, expiryOf expiresAt) := by
        simp [redisView, hexact.2, expiryOf, hexact.1]
      simp only [redisStore, hput]
      rw [← hview]
      exact entries_set _ _ _ _
  put_error := redisValues.put_error
  entry_delete s sid := entries_erase _ _ _

end Redis

end Token
end GatewayRuntime
