import GatewayRuntime.SessionStore

/-!
# Token stores

`Token.Store` is the interface `token.Store` of the source with what its callers
rely on.  `value` is what a `Get` at a given time finds, `stored` says that
there is an entry at all, and `keeps` that an entry written at one time is still
found at another.  The implementations are `internal/token/memory.go` and
`internal/store/redis/token.go`; each operation is one atomic step.
-/

namespace GatewayRuntime
namespace Token

/-- `token.Set`. -/
structure TokenSet where
  accessToken : String
  refreshToken : String
  idToken : String
  expiryUnix : Int64
deriving DecidableEq

/-- `ErrNotFound` of `internal/token`. -/
def errNotFound : Err :=
  .leaf .tokenNotFound

/-- The answer of a `Get` that finds the given value. -/
def found : Option TokenSet → Except Err TokenSet
  | none => .error errNotFound
  | some x => .ok x

/-- A token store. -/
structure Store where
  State : Type
  get : State → (now : Int) → String → State × Except Err TokenSet
  put : State → (now : Int) → String → TokenSet → (expiresAt : Int) → State × Except Err Unit
  delete : State → String → State
  value : State → (now : Int) → String → Option TokenSet
  stored : State → String → Bool
  keeps : (now expiresAt t : Int) → Prop
  get_result : ∀ s now sid, (get s now sid).2 = found (value s now sid)
  value_get :
    ∀ {s now t sid}, now ≤ t → value (get s now sid).1 t sid = value s t sid
  value_earlier :
    ∀ {s now t sid x}, now ≤ t → value s t sid = some x → value s now sid = some x
  put_ok :
    ∀ {s now t sid x expiresAt}, keeps now expiresAt t →
      (put s now sid x expiresAt).2 = .ok () ∧
        value (put s now sid x expiresAt).1 t sid = some x
  stored_of_value :
    ∀ {s now sid x}, value s now sid = some x → stored s sid = true
  stored_of_get :
    ∀ {s now sid}, stored (get s now sid).1 sid = true → stored s sid = true
  not_stored_delete :
    ∀ {s sid}, stored (delete s sid) sid = false

/-- What a `Get` answers when nothing is stored. -/
theorem Store.get_of_not_stored
    (S : Store) {s : S.State} {sid : String} (now : Int)
    (h : S.stored s sid = false) :
    (S.get s now sid).2 = .error errNotFound := by
  rw [S.get_result]
  cases hvalue : S.value s now sid with
  | none =>
      rfl
  | some x =>
      rw [S.stored_of_value hvalue] at h
      cases h

section Memory

/-- `memoryEntry`. -/
structure MemoryEntry where
  set : TokenSet
  expiresAt : Int

/-- The entry has not expired. -/
def MemoryEntry.live (e : MemoryEntry) (now : Int) : Bool :=
  GoTime.isZero e.expiresAt || GoTime.after e.expiresAt now

/-- The map of a `MemoryStore`. -/
abbrev MemoryState := Table String MemoryEntry

namespace MemoryState

/-- What a `Get` finds. -/
def value (s : MemoryState) (now : Int) (sid : String) : Option TokenSet :=
  (s.find sid).bind fun e => if e.live now then some e.set else none

/-- `MemoryStore.Get`, which removes an expired entry. -/
def get (s : MemoryState) (now : Int) (sid : String) : MemoryState × Except Err TokenSet :=
  match s.find sid with
  | none => (s, .error errNotFound)
  | some e => if e.live now then (s, .ok e.set) else (s.erase sid, .error errNotFound)

/-- `MemoryStore.Put`. -/
def put (s : MemoryState) (sid : String) (x : TokenSet) (expiresAt : Int) : MemoryState :=
  s.set sid ⟨x, expiresAt⟩

theorem live_earlier
    {e : MemoryEntry} {now t : Int} (hle : now ≤ t) (h : e.live t = true) :
    e.live now = true := by
  simp only [MemoryEntry.live, Bool.or_eq_true, GoTime.isZero_iff, GoTime.after_iff] at h ⊢
  omega

theorem get_result (s : MemoryState) (now : Int) (sid : String) :
    (s.get now sid).2 = found (s.value now sid) := by
  unfold get value
  cases s.find sid with
  | none =>
      rfl
  | some e =>
      cases hlive : e.live now <;> simp [hlive, found]

theorem value_get
    {s : MemoryState} {now t : Int} {sid : String} (hle : now ≤ t) :
    (s.get now sid).1.value t sid = s.value t sid := by
  unfold get
  cases hfind : s.find sid with
  | none =>
      rfl
  | some e =>
      cases hlive : e.live now with
      | true =>
          simp [hlive]
      | false =>
          have hlater : e.live t = false := by
            by_contra hne
            rw [live_earlier hle (Bool.of_not_eq_false hne)] at hlive
            cases hlive
          simp [hlive, value, hfind, hlater]

theorem value_earlier
    {s : MemoryState} {now t : Int} {sid : String} {x : TokenSet}
    (hle : now ≤ t) (h : s.value t sid = some x) :
    s.value now sid = some x := by
  unfold value at h ⊢
  cases hfind : s.find sid with
  | none =>
      simp [hfind] at h
  | some e =>
      cases hlive : e.live t with
      | true =>
          simpa [hfind, hlive, live_earlier hle hlive] using h
      | false =>
          simp [hfind, hlive] at h

end MemoryState

/-- `token.MemoryStore`. -/
def memoryStore : Store where
  State := MemoryState
  get := MemoryState.get
  put s _ sid x expiresAt := (s.put sid x expiresAt, .ok ())
  delete s sid := s.erase sid
  value := MemoryState.value
  stored s sid := s.has sid
  keeps _ expiresAt t := expiresAt = 0 ∨ t < expiresAt
  get_result := MemoryState.get_result
  value_get := MemoryState.value_get
  value_earlier := MemoryState.value_earlier
  put_ok h := by
    refine ⟨rfl, ?_⟩
    simp [MemoryState.value, MemoryState.put, MemoryEntry.live, h]
  stored_of_value {s _ sid x} h := by
    cases hfind : s.find sid with
    | none =>
        simp [MemoryState.value, hfind] at h
    | some e =>
        exact Table.has_of_find hfind
  stored_of_get {s now sid} h := by
    unfold MemoryState.get at h
    split at h
    · exact h
    · split at h
      · exact h
      · exact Table.has_of_has_erase h
  not_stored_delete := Table.has_erase_self _ _

end Memory

section Redis

/-- A value under a key, and the instant at which its time to live ends. -/
structure RedisEntry where
  set : TokenSet
  deadline : Int

/-- The token keys of a Redis database. -/
abbrev RedisState := Table String RedisEntry

namespace RedisState

/-- What a `GET` finds. -/
def value (s : RedisState) (now : Int) (sid : String) : Option TokenSet :=
  (s.find sid).bind fun e => if now < e.deadline then some e.set else none

/-- `TokenStore.Put`. -/
def put (s : RedisState) (now : Int) (sid : String) (x : TokenSet) (expiresAt : Int) :
    RedisState × Except Err Unit :=
  let ttl := GoTime.sub expiresAt now
  if ttl ≤ 0 then (s, .error errNotFound)
  else (s.set sid ⟨x, now + redisExpiry ttl⟩, .ok ())

theorem value_earlier
    {s : RedisState} {now t : Int} {sid : String} {x : TokenSet}
    (hle : now ≤ t) (h : s.value t sid = some x) :
    s.value now sid = some x := by
  unfold value at h ⊢
  cases hfind : s.find sid with
  | none =>
      simp [hfind] at h
  | some e =>
      by_cases hlive : t < e.deadline
      · have hnow : now < e.deadline := by omega
        simpa [hfind, hlive, hnow] using h
      · simp [hfind, hlive] at h

end RedisState

/-- `redisstore.TokenStore`. -/
def redisStore : Store where
  State := RedisState
  get s now sid := (s, found (s.value now sid))
  put := RedisState.put
  delete s sid := s.erase sid
  value := RedisState.value
  stored s sid := s.has sid
  keeps now expiresAt t :=
    0 < GoTime.sub expiresAt now ∧ t < now + redisExpiry (GoTime.sub expiresAt now)
  get_result _ _ _ := rfl
  value_get _ := rfl
  value_earlier := RedisState.value_earlier
  put_ok h := by
    have hpos := Int64.not_le.mpr h.1
    simp [RedisState.put, RedisState.value, hpos, h.2]
  stored_of_value {s _ sid x} h := by
    cases hfind : s.find sid with
    | none =>
        simp [RedisState.value, hfind] at h
    | some e =>
        exact Table.has_of_find hfind
  stored_of_get h := h
  not_stored_delete := Table.has_erase_self _ _

end Redis

section Values

theorem MemoryState.value_put
    {s : MemoryState} {t expiresAt : Int} {sid : String} {x y : TokenSet}
    (h : (s.put sid x expiresAt).value t sid = some y) :
    y = x := by
  simp only [value, put, Table.find_set_self, Option.bind_some, Option.ite_none_right_eq_some,
    Option.some.injEq] at h
  exact h.2.symm

/-- What a `Put` on Redis does: it refuses, or it sets the key. -/
theorem RedisState.put_cases
    (s : RedisState) (now : Int) (sid : String) (x : TokenSet) (expiresAt : Int) :
    s.put now sid x expiresAt = (s, .error errNotFound) ∨
      s.put now sid x expiresAt =
        (s.set sid ⟨x, now + redisExpiry (GoTime.sub expiresAt now)⟩, .ok ()) := by
  unfold put
  simp only
  split_ifs
  · exact Or.inl rfl
  · exact Or.inr rfl

theorem RedisState.value_set
    {s : RedisState} {t deadline : Int} {sid : String} {x y : TokenSet}
    (h : RedisState.value (s.set sid ⟨x, deadline⟩) t sid = some y) :
    y = x := by
  simp only [value, Table.find_set_self, Option.bind_some, Option.ite_none_right_eq_some,
    Option.some.injEq] at h
  exact h.2.symm

/-- A token store whose `Put` either writes the given set or changes nothing. -/
structure ValueStore extends Store where
  value_of_put_ok :
    ∀ {s now t sid x expiresAt y}, (put s now sid x expiresAt).2 = .ok () →
      value (put s now sid x expiresAt).1 t sid = some y → y = x
  put_error :
    ∀ {s now sid x expiresAt e}, (put s now sid x expiresAt).2 = .error e →
      (put s now sid x expiresAt).1 = s

/-- The sets of a `MemoryStore`. -/
def memoryValues : ValueStore where
  toStore := memoryStore
  value_of_put_ok _ h := MemoryState.value_put h
  put_error h := by cases h

/-- The sets of the `TokenStore` on Redis. -/
def redisValues : ValueStore where
  toStore := redisStore
  value_of_put_ok {s now t sid x expiresAt y} hok h := by
    rcases RedisState.put_cases s now sid x expiresAt with hput | hput
    · simp [redisStore, hput] at hok
    · simp only [redisStore, hput] at h
      exact RedisState.value_set h
  put_error {s now sid x expiresAt e} h := by
    rcases RedisState.put_cases s now sid x expiresAt with hput | hput
    · exact congrArg Prod.fst hput
    · simp [redisStore, hput] at h

end Values

end Token
end GatewayRuntime
