import GatewayRuntime.SessionStore

/-!
# Flow stores

`Flow.Store` is the interface `auth.FlowStore` of the source: the login flows
that have been started and not yet been completed.  Both implementations,
`MemoryFlowStore` of `internal/auth/flow_store.go` and `FlowStore` of
`internal/store/redis/flow.go`, take a flow in two parts: they remove it from the
store in one atomic step (`consume`; on Redis a `GETDEL`), and then compare its
expiry with the clock (`check`).

The laws say which flows a store holds: what was put is filed under its state,
and a flow that has been consumed is no longer there.
-/

namespace GatewayRuntime

/-- `auth.Flow`. -/
structure Flow where
  state : String
  nonce : String
  codeVerifier : String
  returnTo : String
  expiresAt : Int
deriving DecidableEq

namespace Flow

/-- `ErrFlowNotFound`. -/
def errNotFound : Err :=
  .leaf .flowNotFound

/-- What `Take` returns for the flow it has removed, if any: an expired flow is
not found. -/
def check (now : Int) : Option Flow → Except Err Flow
  | none => .error errNotFound
  | some f => if GoTime.after f.expiresAt now then .ok f else .error errNotFound

/-- A flow store. -/
structure Store where
  State : Type
  put : State → (now : Int) → Flow → State × Except Err Unit
  consume : State → (now : Int) → String → State × Option Flow
  holds : State → String → Flow → Prop
  holds_state :
    ∀ {s k f}, holds s k f → f.state = k
  holds_of_put_ok :
    ∀ {s now f k g}, (put s now f).2 = .ok () → holds (put s now f).1 k g →
      (k = f.state ∧ g = f) ∨ (k ≠ f.state ∧ holds s k g)
  holds_of_put_error :
    ∀ {s now f e k g}, (put s now f).2 = .error e → holds (put s now f).1 k g → holds s k g
  holds_of_consume :
    ∀ {s now k k' f}, holds (consume s now k).1 k' f → k' ≠ k ∧ holds s k' f
  consume_some :
    ∀ {s now k f}, (consume s now k).2 = some f → holds s k f

/-- `Take` as a whole, at one reading of the clock. -/
def Store.take (S : Store) (s : S.State) (now : Int) (k : String) : S.State × Except Err Flow :=
  ((S.consume s now k).1, check now (S.consume s now k).2)

theorem check_ok
    {now : Int} {found : Option Flow} {f : Flow}
    (h : check now found = .ok f) :
    found = some f ∧ now < f.expiresAt := by
  cases found with
  | none =>
      cases h
  | some g =>
      simp only [check] at h
      split_ifs at h with hlive
      cases h
      exact ⟨rfl, by simpa using hlive⟩

section Memory

/-- The map of a `MemoryFlowStore`. -/
structure MemoryState where
  data : Table String Flow
  filed : ∀ {k f}, data.find k = some f → f.state = k

namespace MemoryState

/-- `NewMemoryFlowStore`. -/
def empty : MemoryState where
  data := Table.empty
  filed h := by cases h

/-- `MemoryFlowStore.Put`. -/
def put (s : MemoryState) (f : Flow) : MemoryState where
  data := s.data.set f.state f
  filed h := by
    rcases Table.find_set_cases h with ⟨rfl, rfl⟩ | ⟨-, hold⟩
    · rfl
    · exact s.filed hold

/-- The part of `MemoryFlowStore.Take` before the expiry test. -/
def consume (s : MemoryState) (k : String) : MemoryState × Option Flow :=
  ({ data := s.data.erase k
     filed := fun h => s.filed (Table.find_erase_cases h).2 },
    s.data.find k)

end MemoryState

/-- `auth.MemoryFlowStore`. -/
def memoryStore : Store where
  State := MemoryState
  put s _ f := (s.put f, .ok ())
  consume s _ k := s.consume k
  holds s k f := s.data.find k = some f
  holds_state := MemoryState.filed _
  holds_of_put_ok _ h := Table.find_set_cases h
  holds_of_put_error h _ := by cases h
  holds_of_consume h := Table.find_erase_cases h
  consume_some h := h

end Memory

section Redis

/-- A flow under a key, and the instant at which its time to live ends. -/
structure RedisEntry where
  value : Flow
  deadline : Int

/-- The flow keys of a Redis database. -/
structure RedisState where
  data : Table String RedisEntry
  filed : ∀ {k e}, data.find k = some e → e.value.state = k

namespace RedisState

/-- No flow is stored. -/
def empty : RedisState where
  data := Table.empty
  filed h := by cases h

/-- `SET` with a time to live. -/
def set (s : RedisState) (now : Int) (f : Flow) (ttl : Duration) : RedisState where
  data := s.data.set f.state ⟨f, now + redisExpiry ttl⟩
  filed h := by
    rcases Table.find_set_cases h with ⟨rfl, rfl⟩ | ⟨-, hold⟩
    · rfl
    · exact s.filed hold

/-- `FlowStore.Put`. -/
def put (s : RedisState) (now : Int) (f : Flow) : RedisState × Except Err Unit :=
  if Session.marshalableTime f.expiresAt = false then (s, .error Session.errMarshal)
  else
    let ttl := GoTime.sub f.expiresAt now
    if ttl ≤ 0 then (s, .error errNotFound) else (s.set now f ttl, .ok ())

/-- `GETDEL`: a key whose time to live has ended is absent. -/
def consume (s : RedisState) (now : Int) (k : String) : RedisState × Option Flow :=
  ({ data := s.data.erase k
     filed := fun h => s.filed (Table.find_erase_cases h).2 },
    (s.data.find k).bind fun e => if now < e.deadline then some e.value else none)

/-- What a `Put` does: it refuses, or it sets the key. -/
theorem put_cases (s : RedisState) (now : Int) (f : Flow) :
    (∃ e, s.put now f = (s, .error e)) ∨
      s.put now f = (s.set now f (GoTime.sub f.expiresAt now), .ok ()) := by
  unfold put
  split_ifs with hyear
  · exact Or.inl ⟨_, rfl⟩
  · simp only
    split_ifs with httl
    · exact Or.inl ⟨_, rfl⟩
    · exact Or.inr rfl

end RedisState

/-- `redisstore.FlowStore`. -/
def redisStore : Store where
  State := RedisState
  put := RedisState.put
  consume := RedisState.consume
  holds s k f := ∃ e, Table.find (RedisState.data s) k = some e ∧ e.value = f
  holds_state h := by
    obtain ⟨e, he, rfl⟩ := h
    exact RedisState.filed _ he
  holds_of_put_ok {s now f k g} hok h := by
    rcases RedisState.put_cases s now f with ⟨e, hput⟩ | hput
    · rw [hput] at hok
      cases hok
    · rw [hput] at h
      obtain ⟨e, he, hg⟩ := h
      rcases Table.find_set_cases he with ⟨hk, rfl⟩ | ⟨hk, hold⟩
      · exact Or.inl ⟨hk, hg.symm⟩
      · exact Or.inr ⟨hk, e, hold, hg⟩
  holds_of_put_error {s now f err k g} herr h := by
    rcases RedisState.put_cases s now f with ⟨e, hput⟩ | hput
    · rwa [hput] at h
    · rw [hput] at herr
      cases herr
  holds_of_consume h := by
    obtain ⟨e, he, hf⟩ := h
    obtain ⟨hk, hold⟩ := Table.find_erase_cases he
    exact ⟨hk, e, hold, hf⟩
  consume_some {s now k f} h := by
    simp only [RedisState.consume, Option.bind_eq_some_iff] at h
    obtain ⟨e, he, hlive⟩ := h
    split_ifs at hlive
    cases hlive
    exact ⟨e, he, rfl⟩

end Redis

end Flow
end GatewayRuntime
