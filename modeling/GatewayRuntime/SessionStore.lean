import GatewayRuntime.Errors
import GatewayRuntime.Lib.GoTime
import GatewayRuntime.Lib.Table

/-!
# Session stores

`Session.Store` is the interface `session.Store` of the source together with
what its callers rely on: which sessions a store holds, and that its operations
create and remove no others than they should.  `memoryStore` and `redisStore`
are the two implementations, `internal/session/memory.go` and
`internal/store/redis/session.go`; each of their operations is one atomic step.

A state of either store carries the fact that a session is filed under its own
identifier, so that a session read for `sid` is a session with the identifier
`sid` (`Store.get_ok_id`).
-/

namespace GatewayRuntime

/-- `session.Session`. -/
structure Session where
  id : String
  subject : String
  issuer : String
  username : String
  displayName : String
  email : String
  roles : List String
  createdAt : Int
  expiresAt : Int
  lastSeen : Int
deriving DecidableEq

/-- The time to live that a Redis `SET` gets for a positive duration: whole
milliseconds, at least one. -/
def redisExpiry (ttl : Duration) : Int :=
  max 1 (ttl.toInt / Duration.millisecond.toInt) * Duration.millisecond.toInt

theorem redisExpiry_pos (ttl : Duration) :
    0 < redisExpiry ttl :=
  mul_pos (lt_max_of_lt_left zero_lt_one) (by decide)

namespace Session

/-- `ErrNotFound` of `internal/session`. -/
def errNotFound : Err :=
  .leaf .sessionNotFound

/-- A session store: the three operations, the sessions it holds, and what the
operations do to them.  `now` is the clock reading of an operation. -/
structure Store where
  State : Type
  get : State → (now : Int) → String → State × Except Err Session
  put : State → (now : Int) → Session → State × Except Err Unit
  delete : State → String → State
  stored : State → String → Bool
  get_ok_id :
    ∀ {s now sid v}, (get s now sid).2 = .ok v → v.id = sid
  get_ok_stored :
    ∀ {s now sid v}, (get s now sid).2 = .ok v → stored s sid = true
  stored_of_get :
    ∀ {s now sid sid'}, stored (get s now sid).1 sid' = true → stored s sid' = true
  stored_of_put :
    ∀ {s now v sid}, stored (put s now v).1 sid = true → stored s sid = true ∨ v.id = sid
  stored_of_delete :
    ∀ {s sid sid'}, stored (delete s sid) sid' = true → stored s sid' = true
  not_stored_delete :
    ∀ {s sid}, stored (delete s sid) sid = false

section Memory

/-- The map of a `MemoryStore`. -/
structure MemoryState where
  data : Table String Session
  filed : ∀ {sid v}, data.find sid = some v → v.id = sid

namespace MemoryState

/-- `NewMemoryStore`. -/
def empty : MemoryState where
  data := Table.empty
  filed h := by cases h

/-- `MemoryStore.Delete`. -/
def delete (s : MemoryState) (sid : String) : MemoryState where
  data := s.data.erase sid
  filed h := s.filed (Table.find_erase_cases h).2

/-- `MemoryStore.Put`. -/
def put (s : MemoryState) (v : Session) : MemoryState where
  data := s.data.set v.id v
  filed h := by
    rcases Table.find_set_cases h with ⟨rfl, rfl⟩ | ⟨-, hold⟩
    · rfl
    · exact s.filed hold

/-- The expiry test of `MemoryStore.Get`. -/
def expired (v : Session) (now : Int) : Bool :=
  !GoTime.isZero v.expiresAt && !GoTime.after v.expiresAt now

/-- `MemoryStore.Get`, which removes an expired session. -/
def get (s : MemoryState) (now : Int) (sid : String) : MemoryState × Except Err Session :=
  match s.data.find sid with
  | none => (s, .error errNotFound)
  | some v => if expired v now then (s.delete sid, .error errNotFound) else (s, .ok v)

/-- What a `Get` does: it finds nothing, it removes an expired session, or it
returns the session it found. -/
theorem get_cases (s : MemoryState) (now : Int) (sid : String) :
    (s.data.find sid = none ∧ s.get now sid = (s, .error errNotFound)) ∨
      (∃ v, s.data.find sid = some v ∧ expired v now = true ∧
        s.get now sid = (s.delete sid, .error errNotFound)) ∨
      ∃ v, s.data.find sid = some v ∧ expired v now = false ∧ s.get now sid = (s, .ok v) := by
  unfold get
  cases hdata : s.data.find sid with
  | none =>
      exact Or.inl ⟨rfl, rfl⟩
  | some v =>
      right
      cases hexp : expired v now with
      | true =>
          exact Or.inl ⟨v, rfl, hexp, by simp [hexp]⟩
      | false =>
          exact Or.inr ⟨v, rfl, hexp, by simp [hexp]⟩

theorem get_ok
    {s : MemoryState} {now : Int} {sid : String} {v : Session}
    (h : (s.get now sid).2 = .ok v) :
    s.data.find sid = some v := by
  rcases get_cases s now sid with ⟨-, hget⟩ | ⟨w, -, -, hget⟩ | ⟨w, hdata, -, hget⟩
  · rw [hget] at h
    cases h
  · rw [hget] at h
    cases h
  · rw [hget] at h
    cases h
    exact hdata

theorem has_of_has_get
    {s : MemoryState} {now : Int} {sid k : String}
    (h : (s.get now sid).1.data.has k = true) :
    s.data.has k = true := by
  rcases get_cases s now sid with ⟨-, hget⟩ | ⟨w, -, -, hget⟩ | ⟨w, -, -, hget⟩
  · rwa [hget] at h
  · rw [hget] at h
    exact Table.has_of_has_erase h
  · rwa [hget] at h

end MemoryState

theorem expired_eq_false
    {v : Session} {now : Int} (h : MemoryState.expired v now = false) :
    v.expiresAt = 0 ∨ now < v.expiresAt := by
  simpa [MemoryState.expired, GoTime.isZero, or_iff_not_imp_left] using h

/-- `session.MemoryStore`. -/
def memoryStore : Store where
  State := MemoryState
  get := MemoryState.get
  put s _ v := (s.put v, .ok ())
  delete := MemoryState.delete
  stored s sid := s.data.has sid
  get_ok_id h := MemoryState.filed _ (MemoryState.get_ok h)
  get_ok_stored h := Table.has_of_find (MemoryState.get_ok h)
  stored_of_get := MemoryState.has_of_has_get
  stored_of_put := Table.has_of_has_set
  stored_of_delete := Table.has_of_has_erase
  not_stored_delete := Table.has_erase_self _ _

end Memory

section Redis

/-- `encoding/json` writes only instants of the years 0 to 9999. -/
def marshalableTime (t : Int) : Bool :=
  decide (-31622400000000000 ≤ t) && decide (t < 315537897600000000000)

/-- The error of `json.Marshal` for any other instant. -/
def errMarshal : Err :=
  .text ("json: error calling MarshalJSON for type time.Time: " ++
    "Time.MarshalJSON: year outside of range [0,9999]")

/-- `json.Marshal` succeeds on a session. -/
def marshalable (v : Session) : Bool :=
  marshalableTime v.createdAt && marshalableTime v.expiresAt && marshalableTime v.lastSeen

/-- A value under a key, and the instant at which its time to live ends. -/
structure RedisEntry where
  value : Session
  deadline : Int

/-- The session keys of a Redis database. -/
structure RedisState where
  data : Table String RedisEntry
  filed : ∀ {sid e}, data.find sid = some e → e.value.id = sid

namespace RedisState

/-- No session is stored. -/
def empty : RedisState where
  data := Table.empty
  filed h := by cases h

/-- `DEL`. -/
def delete (s : RedisState) (sid : String) : RedisState where
  data := s.data.erase sid
  filed h := s.filed (Table.find_erase_cases h).2

/-- `SET` with a time to live. -/
def set (s : RedisState) (now : Int) (v : Session) (ttl : Duration) : RedisState where
  data := s.data.set v.id ⟨v, now + redisExpiry ttl⟩
  filed h := by
    rcases Table.find_set_cases h with ⟨rfl, rfl⟩ | ⟨-, hold⟩
    · rfl
    · exact s.filed hold

/-- `SessionStore.Get`. -/
def get (s : RedisState) (now : Int) (sid : String) : RedisState × Except Err Session :=
  match s.data.find sid with
  | none => (s, .error errNotFound)
  | some e =>
      if e.deadline ≤ now then (s, .error errNotFound)
      else if !GoTime.isZero e.value.expiresAt && !GoTime.after e.value.expiresAt now then
        (s.delete sid, .error errNotFound)
      else (s, .ok e.value)

/-- `SessionStore.Put`. -/
def put (s : RedisState) (now : Int) (v : Session) : RedisState × Except Err Unit :=
  if marshalable v = false then (s, .error errMarshal)
  else
    let ttl := GoTime.sub v.expiresAt now
    if ttl ≤ 0 then (s, .error errNotFound) else (s.set now v ttl, .ok ())

theorem has_of_has_put
    {s : RedisState} {now : Int} {v : Session} {k : String}
    (h : (s.put now v).1.data.has k = true) :
    s.data.has k = true ∨ v.id = k := by
  unfold put at h
  split at h
  · exact Or.inl h
  · simp only at h
    split at h
    · exact Or.inl h
    · exact Table.has_of_has_set h

theorem get_ok
    {s : RedisState} {now : Int} {sid : String} {v : Session}
    (h : (s.get now sid).2 = .ok v) :
    ∃ e, s.data.find sid = some e ∧ e.value = v := by
  unfold get at h
  cases hdata : s.data.find sid with
  | none =>
      rw [hdata] at h
      cases h
  | some e =>
      rw [hdata] at h
      simp only at h
      split_ifs at h with hgone hexpired
      cases h
      exact ⟨e, rfl, rfl⟩

theorem has_of_has_get
    {s : RedisState} {now : Int} {sid k : String}
    (h : (s.get now sid).1.data.has k = true) :
    s.data.has k = true := by
  unfold get at h
  split at h
  · exact h
  · split at h
    · exact h
    · split at h
      · exact Table.has_of_has_erase h
      · exact h

end RedisState

/-- `redisstore.SessionStore`. -/
def redisStore : Store where
  State := RedisState
  get := RedisState.get
  put := RedisState.put
  delete := RedisState.delete
  stored s sid := s.data.has sid
  get_ok_id h := by
    obtain ⟨e, hdata, hvalue⟩ := RedisState.get_ok h
    rw [← hvalue]
    exact RedisState.filed _ hdata
  get_ok_stored h := by
    obtain ⟨e, hdata, -⟩ := RedisState.get_ok h
    exact Table.has_of_find hdata
  stored_of_get := RedisState.has_of_has_get
  stored_of_put := RedisState.has_of_has_put
  stored_of_delete := Table.has_of_has_erase
  not_stored_delete := Table.has_erase_self _ _

end Redis

section Values

/-- A store together with the sessions its entries hold: an entry holds what the
last successful `Put` of its identifier wrote. -/
structure ValueStore extends Store where
  holds : State → String → Session → Prop
  holds_unique :
    ∀ {s sid v w}, holds s sid v → holds s sid w → v = w
  holds_of_get_ok :
    ∀ {s now sid v}, (get s now sid).2 = .ok v → holds s sid v
  holds_of_get :
    ∀ {s now sid sid' v}, holds (get s now sid).1 sid' v → holds s sid' v
  holds_of_put_ok :
    ∀ {s now v sid w}, (put s now v).2 = .ok () → holds (put s now v).1 sid w →
      (sid = v.id ∧ w = v) ∨ (sid ≠ v.id ∧ holds s sid w)
  holds_of_put_error :
    ∀ {s now v e sid w}, (put s now v).2 = .error e → holds (put s now v).1 sid w →
      holds s sid w
  holds_of_delete :
    ∀ {s sid sid' v}, holds (delete s sid) sid' v → sid' ≠ sid ∧ holds s sid' v

/-- The sessions of a `MemoryStore`. -/
def memoryValues : ValueStore where
  toStore := memoryStore
  holds s sid v := Table.find (MemoryState.data s) sid = some v
  holds_unique hv hw := Option.some.inj (hv.symm.trans hw)
  holds_of_get_ok := MemoryState.get_ok
  holds_of_get {s now sid sid' v} h := by
    rcases MemoryState.get_cases s now sid with ⟨-, hget⟩ | ⟨w, -, -, hget⟩ | ⟨w, -, -, hget⟩
    · simpa [memoryStore, hget] using h
    · simp only [memoryStore, hget] at h
      exact (Table.find_erase_cases h).2
    · simpa [memoryStore, hget] using h
  holds_of_put_ok _ h := Table.find_set_cases h
  holds_of_put_error h _ := by cases h
  holds_of_delete h := Table.find_erase_cases h

/-- The sessions of the `SessionStore` on Redis, whether or not their time to
live has ended. -/
def redisValues : ValueStore where
  toStore := redisStore
  holds s sid v := ∃ e, Table.find (RedisState.data s) sid = some e ∧ e.value = v
  holds_unique hv hw := by
    obtain ⟨e, he, rfl⟩ := hv
    obtain ⟨e', he', rfl⟩ := hw
    rw [Option.some.inj (he.symm.trans he')]
  holds_of_get_ok := RedisState.get_ok
  holds_of_get {s now sid sid' v} h := by
    simp only [redisStore, RedisState.get] at h
    split at h
    · exact h
    · split_ifs at h
      · exact h
      · obtain ⟨e, he, hv⟩ := h
        exact ⟨e, (Table.find_erase_cases he).2, hv⟩
      · exact h
  holds_of_put_ok {s now v sid w} hok h := by
    simp only [redisStore, RedisState.put] at hok h
    split_ifs at hok h
    obtain ⟨e, he, hw⟩ := h
    rcases Table.find_set_cases he with ⟨hsid, rfl⟩ | ⟨hsid, hold⟩
    · exact Or.inl ⟨hsid, hw.symm⟩
    · exact Or.inr ⟨hsid, e, hold, hw⟩
  holds_of_put_error {s now v e sid w} herr h := by
    simp only [redisStore, RedisState.put] at herr h
    split_ifs at herr h
    · exact h
    · exact h
  holds_of_delete h := by
    obtain ⟨e, he, hv⟩ := h
    obtain ⟨hsid, hold⟩ := Table.find_erase_cases he
    exact ⟨hsid, e, hold, hv⟩

end Values

end Session
end GatewayRuntime
