import GatewayRuntime.SessionStore

/-!
# The lifecycle store

`LifecycleStore` of `internal/session/lifecycle.go`: a store in front of another
one that bounds the lifetime of a session and the time it may stay idle, and
records activity by writing `LastSeen` back at most once per touch interval.

`check` is the part of `Get` between the read of the underlying store and what
is done to it.  `get` is a whole `Get` without interruption; its steps one by
one are in `SessionDeletion`.  `lifecycleStore` is again a session store.
-/

namespace GatewayRuntime
namespace Session

/-- The settings of a `LifecycleStore`. -/
structure Lifecycle where
  maxLifetime : Duration
  idleTimeout : Duration
  touchInterval : Duration
deriving DecidableEq

/-- What `Get` does with a session it has read: refuse and delete it, write it
back with a new `LastSeen`, or return it. -/
inductive Check where
  | expired
  | touch (v : Session)
  | fresh
deriving DecidableEq

namespace Lifecycle

variable (cfg : Lifecycle)

/-- The test of the absolute lifetime. -/
def lifetimeOver (now : Int) (v : Session) : Bool :=
  decide (0 < cfg.maxLifetime) && !GoTime.isZero v.createdAt &&
    !GoTime.after (GoTime.add v.createdAt cfg.maxLifetime) now

/-- The test of the idle time. -/
def idleOver (now : Int) (v : Session) : Bool :=
  decide (0 < cfg.idleTimeout) && !GoTime.isZero v.lastSeen &&
    !GoTime.after (GoTime.add v.lastSeen cfg.idleTimeout) now

/-- The touch interval, one minute when none is set. -/
def touch : Duration :=
  if cfg.touchInterval ≤ 0 then Duration.minute else cfg.touchInterval

/-- `LastSeen` is to be written back. -/
def touchDue (now : Int) (v : Session) : Bool :=
  decide (0 < cfg.idleTimeout) &&
    (GoTime.isZero v.lastSeen || decide (cfg.touch ≤ GoTime.sub now v.lastSeen))

/-- The decision of `Get` about a session that the underlying store returned. -/
def check (now : Int) (v : Session) : Check :=
  if cfg.lifetimeOver now v then .expired
  else if cfg.idleOver now v then .expired
  else if cfg.touchDue now v then .touch { v with lastSeen := now }
  else .fresh

/-- `LifecycleStore.Get`. -/
def get (next : Store) (s : next.State) (now : Int) (sid : String) :
    next.State × Except Err Session :=
  match next.get s now sid with
  | (s₁, .error e) => (s₁, .error e)
  | (s₁, .ok v) =>
      match cfg.check now v with
      | .expired => (next.delete s₁ sid, .error errNotFound)
      | .touch v' =>
          match next.put s₁ now v' with
          | (s₂, .error e) => (s₂, .error e)
          | (s₂, .ok ()) => (s₂, .ok v')
      | .fresh => (s₁, .ok v)

/-- The session that `LifecycleStore.Put` writes. -/
def prepare (now : Int) (v : Session) : Session :=
  let createdAt := if GoTime.isZero v.createdAt then now else v.createdAt
  let lastSeen := if GoTime.isZero v.lastSeen then now else v.lastSeen
  let absolute := GoTime.add createdAt cfg.maxLifetime
  let expiresAt :=
    if 0 < cfg.maxLifetime ∧
        (GoTime.isZero v.expiresAt = true ∨ GoTime.after v.expiresAt absolute = true) then
      absolute
    else v.expiresAt
  { v with createdAt := createdAt, lastSeen := lastSeen, expiresAt := expiresAt }

/-- `LifecycleStore.Put`. -/
def put (next : Store) (s : next.State) (now : Int) (v : Session) :
    next.State × Except Err Unit :=
  next.put s now (cfg.prepare now v)

@[simp] theorem prepare_id (now : Int) (v : Session) :
    (cfg.prepare now v).id = v.id := by
  rfl

variable {cfg}

/-- A session to be written back differs from the one read in `LastSeen` only. -/
theorem check_touch
    {now : Int} {v v' : Session}
    (h : cfg.check now v = .touch v') :
    v' = { v with lastSeen := now } ∧ cfg.touchDue now v = true ∧
      cfg.lifetimeOver now v = false ∧ cfg.idleOver now v = false := by
  unfold check at h
  split_ifs at h with hlife hidle htouch
  cases h
  exact ⟨rfl, htouch, by simpa using hlife, by simpa using hidle⟩

theorem check_fresh
    {now : Int} {v : Session}
    (h : cfg.check now v = .fresh) :
    cfg.touchDue now v = false ∧
      cfg.lifetimeOver now v = false ∧ cfg.idleOver now v = false := by
  unfold check at h
  split_ifs at h with hlife hidle htouch
  exact ⟨by simpa using htouch, by simpa using hlife, by simpa using hidle⟩

theorem check_expired
    {now : Int} {v : Session}
    (h : cfg.check now v = .expired) :
    cfg.lifetimeOver now v = true ∨ cfg.idleOver now v = true := by
  unfold check at h
  split_ifs at h with hlife hidle
  · exact Or.inl hlife
  · exact Or.inr hidle

/-- What a whole `Get` does, by the read of the underlying store and the
decision about it. -/
theorem get_cases (cfg : Lifecycle) (next : Store) (s : next.State) (now : Int) (sid : String) :
    (∃ e, (next.get s now sid).2 = .error e ∧
        cfg.get next s now sid = ((next.get s now sid).1, .error e)) ∨
      ∃ v, (next.get s now sid).2 = .ok v ∧
        ((cfg.check now v = .expired ∧
            cfg.get next s now sid =
              (next.delete (next.get s now sid).1 sid, .error errNotFound)) ∨
          (∃ v', cfg.check now v = .touch v' ∧
            cfg.get next s now sid =
              ((next.put (next.get s now sid).1 now v').1,
                (next.put (next.get s now sid).1 now v').2.map fun _ => v')) ∨
          (cfg.check now v = .fresh ∧
            cfg.get next s now sid = ((next.get s now sid).1, .ok v))) := by
  unfold get
  obtain ⟨s₁, result⟩ := next.get s now sid
  cases result with
  | error e =>
      exact Or.inl ⟨e, rfl, rfl⟩
  | ok v =>
      refine Or.inr ⟨v, rfl, ?_⟩
      simp only
      cases hcheck : cfg.check now v with
      | expired =>
          exact Or.inl ⟨rfl, rfl⟩
      | touch v' =>
          refine Or.inr (Or.inl ⟨v', rfl, ?_⟩)
          simp only
          obtain ⟨s₂, answer⟩ := next.put s₁ now v'
          cases answer <;> rfl
      | fresh =>
          exact Or.inr (Or.inr ⟨rfl, rfl⟩)

/-- A session returned by a `Get` was read from the underlying store. -/
theorem get_ok
    {next : Store} {s : next.State} {now : Int} {sid : String} {v' : Session}
    (h : (cfg.get next s now sid).2 = .ok v') :
    ∃ v, (next.get s now sid).2 = .ok v ∧
      v' = { v with lastSeen := v'.lastSeen } ∧
      cfg.lifetimeOver now v = false ∧ cfg.idleOver now v = false := by
  rcases get_cases cfg next s now sid with
    ⟨e, -, hget⟩ | ⟨v, hv, ⟨-, hget⟩ | ⟨w, hcheck, hget⟩ | ⟨hcheck, hget⟩⟩
  · rw [hget] at h
    cases h
  · rw [hget] at h
    cases h
  · rw [hget] at h
    obtain ⟨rfl, -, hlife, hidle⟩ := check_touch hcheck
    cases hput : (next.put (next.get s now sid).1 now { v with lastSeen := now }).2 with
    | error e =>
        rw [hput] at h
        cases h
    | ok _ =>
        rw [hput] at h
        cases h
        exact ⟨v, hv, rfl, hlife, hidle⟩
  · rw [hget] at h
    cases h
    obtain ⟨-, hlife, hidle⟩ := check_fresh hcheck
    exact ⟨_, hv, rfl, hlife, hidle⟩

theorem stored_of_get
    {next : Store} {s : next.State} {now : Int} {sid sid' : String}
    (h : next.stored (cfg.get next s now sid).1 sid' = true) :
    next.stored s sid' = true := by
  rcases get_cases cfg next s now sid with
    ⟨e, -, hget⟩ | ⟨v, hv, ⟨-, hget⟩ | ⟨v', hcheck, hget⟩ | ⟨-, hget⟩⟩
  · rw [hget] at h
    exact next.stored_of_get h
  · rw [hget] at h
    exact next.stored_of_get (next.stored_of_delete h)
  · rw [hget] at h
    rcases next.stored_of_put h with hstored | hid
    · exact next.stored_of_get hstored
    · obtain ⟨rfl, -⟩ := check_touch hcheck
      rw [← hid]
      show next.stored s v.id = true
      rw [next.get_ok_id hv]
      exact next.get_ok_stored hv
  · rw [hget] at h
    exact next.stored_of_get h

end Lifecycle

/-- A `LifecycleStore` in front of a store, as a session store. -/
def lifecycleStore (cfg : Lifecycle) (next : Store) : Store where
  State := next.State
  get := cfg.get next
  put := cfg.put next
  delete := next.delete
  stored := next.stored
  get_ok_id h := by
    obtain ⟨v, hv, heq, -, -⟩ := Lifecycle.get_ok h
    have hid : v.id = _ := next.get_ok_id hv
    rw [heq]
    exact hid
  get_ok_stored h := by
    obtain ⟨v, hv, -, -, -⟩ := Lifecycle.get_ok h
    exact next.get_ok_stored hv
  stored_of_get := Lifecycle.stored_of_get
  stored_of_put h := by
    simpa using next.stored_of_put h
  stored_of_delete := next.stored_of_delete
  not_stored_delete := next.not_stored_delete

/-- Eight hours, thirty minutes and one minute. -/
def exampleLifecycle : Lifecycle :=
  ⟨28800000000000, 1800000000000, 60000000000⟩

/-- A session as a login makes it. -/
def exampleSession : Session :=
  ⟨"sid", "u1", "iss", "u", "U", "u@example.org", [], 0, 0, 0⟩

end Session
end GatewayRuntime
