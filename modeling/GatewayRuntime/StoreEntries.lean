import GatewayRuntime.StoreExpiry

/-!
# The stores as maps of entries

An `EntryStore` is a store whose state is a map from session identifiers to
entries.  Every operation touches the entry of its own identifier only: `Put`
writes `writes`, `Delete` removes it, and `Get` may remove an entry that has ended.

The memory stores and the stores on Redis are such stores, and so is a
`LifecycleStore` in front of one.
-/

namespace GatewayRuntime

/-- The backends of the stores that `RunWith` chooses from. -/
inductive Backend where
  | memory
  | redis

namespace Session

/-- A session store as a map of entries.  `written` is the session that a `Put`
stores, in the entry `writes`. -/
structure EntryStore extends Store where
  Entry : Type
  session : Entry → Session
  entry : State → String → Option Entry
  written : (now : Int) → Session → Session
  writes : (now : Int) → Session → Entry
  session_writes :
    ∀ now v, session (writes now v) = written now v
  entry_inj :
    ∀ {s s'}, entry s = entry s' → s = s'
  stored_eq :
    ∀ s sid, stored s sid = (entry s sid).isSome
  get_other :
    ∀ {s now sid k}, k ≠ sid → entry (get s now sid).1 k = entry s k
  get_ok :
    ∀ {s now sid v}, (get s now sid).2 = .ok v →
      ∃ e e', entry s sid = some e ∧ entry (get s now sid).1 sid = some e' ∧
        (session e).expiresAt = v.expiresAt ∧ (session e').expiresAt = v.expiresAt
  put_ok :
    ∀ {s now v}, (put s now v).2 = .ok () →
      entry (put s now v).1 = Function.update (entry s) v.id (some (writes now v))
  put_error :
    ∀ {s now v e}, (put s now v).2 = .error e → (put s now v).1 = s
  entry_delete :
    ∀ s sid, entry (delete s sid) = Function.update (entry s) sid none

section Backends

/-- A `Put` to a `MemoryStore` does not fail. -/
theorem memoryStore_put_error
    {s : memoryStore.State} {now : Int} {v : Session} {e : Err}
    (h : (memoryStore.put s now v).2 = .error e) :
    (memoryStore.put s now v).1 = s := by
  cases h

/-- The entries of a `MemoryStore` are its sessions. -/
def memoryEntries : EntryStore where
  toStore := memoryStore
  Entry := Session
  session v := v
  entry s := (MemoryState.data s).find
  written _ v := v
  writes _ v := v
  session_writes _ _ := rfl
  entry_inj {s s'} h := by
    obtain ⟨data, _⟩ := s
    obtain ⟨data', _⟩ := s'
    have hdata : data = data' := h
    subst hdata
    rfl
  stored_eq _ _ := rfl
  get_other {s now sid k} hk := by
    rcases MemoryState.get_cases s now sid with ⟨-, hget⟩ | ⟨w, -, -, hget⟩ | ⟨w, -, -, hget⟩
    · simp only [memoryStore, hget]
    · simp only [memoryStore, hget]
      exact Table.find_erase_of_ne _ hk
    · simp only [memoryStore, hget]
  get_ok {s now sid v} h := by
    rcases MemoryState.get_cases s now sid with ⟨-, hget⟩ | ⟨w, -, -, hget⟩ | ⟨w, hw, -, hget⟩
    · simp [memoryStore, hget] at h
    · simp [memoryStore, hget] at h
    · simp only [memoryStore, hget] at h ⊢
      cases h
      exact ⟨_, _, hw, hw, rfl, rfl⟩
  put_ok _ := Table.find_set _ _ _
  put_error := memoryStore_put_error
  entry_delete _ _ := Table.find_erase _ _

/-- The entries of the `SessionStore` on Redis have a time to live. -/
def redisEntries : EntryStore where
  toStore := redisStore
  Entry := RedisEntry
  session := RedisEntry.value
  entry s := (RedisState.data s).find
  written _ v := v
  writes now v := ⟨v, now + redisExpiry (GoTime.sub v.expiresAt now)⟩
  session_writes _ _ := rfl
  entry_inj {s s'} h := by
    obtain ⟨data, _⟩ := s
    obtain ⟨data', _⟩ := s'
    have hdata : data = data' := h
    subst hdata
    rfl
  stored_eq _ _ := rfl
  get_other {s now sid k} hk := by
    rcases RedisState.get_eq s now sid with ⟨-, -, hsame | hdelete⟩ | ⟨w, -, hget⟩
    · simp only [redisStore, hsame]
    · simp only [redisStore, hdelete]
      exact Table.find_erase_of_ne _ hk
    · simp only [redisStore, hget]
  get_ok {s now sid v} h := by
    obtain ⟨e, he, rfl⟩ := RedisState.get_ok h
    rcases RedisState.get_eq s now sid with ⟨-, herr, -⟩ | ⟨w, -, hget⟩
    · simp [redisStore, herr] at h
    · simp only [redisStore, hget]
      exact ⟨e, e, he, he, rfl, rfl⟩
  put_ok {s now v} h := by
    rcases RedisState.put_cases s now v with ⟨e, hput⟩ | hput
    · simp [redisStore, hput] at h
    · simp only [redisStore, hput]
      exact Table.find_set _ _ _
  put_error := redisExpiring.put_error
  entry_delete _ _ := Table.find_erase _ _

/-- The entries of a backend. -/
def backendEntries : Backend → EntryStore
  | .memory => memoryEntries
  | .redis => redisEntries

theorem backendEntries_written (b : Backend) (now : Int) (v : Session) :
    (backendEntries b).written now v = v := by
  cases b <;> rfl

end Backends

section Lifecycle

variable (cfg : Lifecycle) (S : EntryStore)

theorem Lifecycle.get_other_entry
    {s : S.State} {now : Int} {sid k : String}
    (hk : k ≠ sid) :
    S.entry (cfg.get S.toStore s now sid).1 k = S.entry s k := by
  rcases Lifecycle.get_cases cfg S.toStore s now sid with
    ⟨e, -, hget⟩ | ⟨v, hv, ⟨-, hget⟩ | ⟨v', hcheck, hget⟩ | ⟨-, hget⟩⟩
  · rw [hget]
    exact S.get_other hk
  · rw [hget, S.entry_delete, Function.update_of_ne hk]
    exact S.get_other hk
  · rw [hget]
    obtain ⟨rfl, -⟩ := Lifecycle.check_touch hcheck
    have hid : v.id = sid := S.get_ok_id hv
    cases hput : (S.put (S.get s now sid).1 now { v with lastSeen := now }).2 with
    | error e =>
        rw [S.put_error hput]
        exact S.get_other hk
    | ok u =>
        rw [S.put_ok hput, Function.update_of_ne (hid ▸ hk)]
        exact S.get_other hk
  · rw [hget]
    exact S.get_other hk

/-- The write of `LastSeen` keeps the expiry of the entry. -/
theorem Lifecycle.get_ok_entry
    (hwritten : ∀ now v, S.written now v = v)
    {s : S.State} {now : Int} {sid : String} {v : Session}
    (h : (cfg.get S.toStore s now sid).2 = .ok v) :
    ∃ e e', S.entry s sid = some e ∧ S.entry (cfg.get S.toStore s now sid).1 sid = some e' ∧
      (S.session e).expiresAt = v.expiresAt ∧ (S.session e').expiresAt = v.expiresAt := by
  rcases Lifecycle.get_cases cfg S.toStore s now sid with
    ⟨e, -, hget⟩ | ⟨v₀, hv, ⟨-, hget⟩ | ⟨v', hcheck, hget⟩ | ⟨-, hget⟩⟩
  · rw [hget] at h
    cases h
  · rw [hget] at h
    cases h
  · rw [hget] at h ⊢
    obtain ⟨rfl, -⟩ := Lifecycle.check_touch hcheck
    have hid : v₀.id = sid := S.get_ok_id hv
    cases hput : (S.put (S.get s now sid).1 now { v₀ with lastSeen := now }).2 with
    | error e =>
        rw [hput] at h
        cases h
    | ok u =>
        rw [hput] at h
        cases h
        obtain ⟨e, -, he, -, hexpires, -⟩ := S.get_ok hv
        refine ⟨e, S.writes now { v₀ with lastSeen := now }, he, ?_, hexpires, ?_⟩
        · rw [S.put_ok hput]
          change Function.update (S.entry (S.get s now sid).1) v₀.id _ sid = _
          rw [hid, Function.update_self]
        · rw [S.session_writes, hwritten]
  · rw [hget] at h ⊢
    cases h
    exact S.get_ok hv

variable {cfg} in
/-- A `LifecycleStore` answers that there is no session, unless the store behind it
fails. -/
theorem Lifecycle.get_error
    {next : Store} {s : next.State} {now : Int} {sid : String}
    (hget : ∀ e, (next.get s now sid).2 = .error e → e = errNotFound)
    (hput : ∀ v, (next.get s now sid).2 = .ok v →
      (next.put (next.get s now sid).1 now { v with lastSeen := now }).2 = .ok ())
    {e : Err} (h : (cfg.get next s now sid).2 = .error e) :
    e = errNotFound := by
  rcases Lifecycle.get_cases cfg next s now sid with
    ⟨e', he', hstate⟩ | ⟨v, hv, ⟨-, hstate⟩ | ⟨v', hcheck, hstate⟩ | ⟨-, hstate⟩⟩
  · rw [hstate] at h
    cases h
    exact hget _ he'
  · rw [hstate] at h
    cases h
    rfl
  · obtain ⟨rfl, -⟩ := Lifecycle.check_touch hcheck
    rw [hstate, hput v hv] at h
    cases h
  · rw [hstate] at h
    cases h

/-- The entries of a `LifecycleStore` in front of a store that writes what it is
given. -/
def lifecycleEntries (hwritten : ∀ now v, S.written now v = v) : EntryStore where
  toStore := lifecycleStore cfg S.toStore
  Entry := S.Entry
  session := S.session
  entry := S.entry
  written := cfg.prepare
  writes now v := S.writes now (cfg.prepare now v)
  session_writes now v := by rw [S.session_writes, hwritten]
  entry_inj := S.entry_inj
  stored_eq := S.stored_eq
  get_other := Lifecycle.get_other_entry cfg S
  get_ok := Lifecycle.get_ok_entry cfg S hwritten
  put_ok := S.put_ok
  put_error := S.put_error
  entry_delete := S.entry_delete

/-- The session store of a deployment: a backend, with or without a
`LifecycleStore` in front of it. -/
def deployedEntries (b : Backend) : Option Lifecycle → EntryStore
  | none => backendEntries b
  | some cfg => lifecycleEntries cfg (backendEntries b) (backendEntries_written b)

end Lifecycle

end Session

namespace Token

/-- A token store as a map of entries.  `writes` is the entry that a `Put` of a set
with an expiry stores. -/
structure EntryStore extends ValueStore where
  Entry : Type
  entry : State → String → Option Entry
  writes : (now expiresAt : Int) → TokenSet → Entry
  entry_inj :
    ∀ {s s'}, entry s = entry s' → s = s'
  stored_eq :
    ∀ s sid, stored s sid = (entry s sid).isSome
  get_state :
    ∀ s now sid, (get s now sid).1 = s ∨
      value s now sid = none ∧ (get s now sid).1 = delete s sid
  entry_put_ok :
    ∀ {s now sid x expiresAt}, (put s now sid x expiresAt).2 = .ok () →
      entry (put s now sid x expiresAt).1 =
        Function.update (entry s) sid (some (writes now expiresAt x))
  entry_delete :
    ∀ s sid, entry (delete s sid) = Function.update (entry s) sid none

/-- The entries of a `MemoryStore`: sets with their expiry. -/
def memoryEntries : EntryStore where
  toValueStore := memoryValues
  Entry := MemoryEntry
  entry s := Table.find s
  writes _ expiresAt x := ⟨x, expiresAt⟩
  entry_inj h := h
  stored_eq _ _ := rfl
  get_state s now sid := by
    simp only [memoryValues, memoryStore, MemoryState.get, MemoryState.value]
    cases hfind : Table.find s sid with
    | none => exact Or.inl rfl
    | some e =>
        cases hlive : e.live now with
        | true =>
            simp only [hlive, if_true]
            exact Or.inl rfl
        | false =>
            simp only [hlive, Bool.false_eq_true, if_false]
            exact Or.inr ⟨by simp [hlive], trivial⟩
  entry_put_ok _ := Table.find_set _ _ _
  entry_delete _ _ := Table.find_erase _ _

/-- The entries of the `TokenStore` on Redis: sets with a time to live. -/
def redisEntries : EntryStore where
  toValueStore := redisValues
  Entry := RedisEntry
  entry s := Table.find s
  writes now expiresAt x := ⟨x, now + redisExpiry (GoTime.sub expiresAt now)⟩
  entry_inj h := h
  stored_eq _ _ := rfl
  get_state _ _ _ := Or.inl rfl
  entry_put_ok {s now sid x expiresAt} h := by
    rcases RedisState.put_cases s now sid x expiresAt with hput | hput
    · simp [redisValues, redisStore, hput] at h
    · simp only [redisValues, redisStore, hput]
      exact Table.find_set _ _ _
  entry_delete _ _ := Table.find_erase _ _

/-- The entries of a backend. -/
def backendEntries : Backend → EntryStore
  | .memory => memoryEntries
  | .redis => redisEntries

end Token
end GatewayRuntime
