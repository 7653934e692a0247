import GatewayRuntime.Lib.Run
import GatewayRuntime.SessionLifecycle

/-!
# Lifetime bounds of sessions over whole runs

Sequences of `Put`, `Get` and `Delete` calls on a `LifecycleStore` in front of a
`MemoryStore`, with one nondecreasing clock.

The invariant `Bounded` says, for every stored session, that its expiry respects
the absolute lifetime, that it is the session last put but for `LastSeen`, and
that `LastSeen` is less than a touch interval behind the last activity.  Each
operation keeps it (`step_bounded`), and the bounds on a `Get` follow from it.

`LastSeen` is "not set" when it is the zero Time.  A clock that reads the zero
Time therefore switches the idle check off, and the bounds are those of clocks
that do not.
-/

namespace GatewayRuntime
namespace Session

/-- A call on the store. -/
inductive Op where
  | put (v : Session)
  | get (sid : String)
  | delete (sid : String)
deriving DecidableEq

/-- The store, the clock, and what happened so far: the session that the last
`Put` of an identifier wrote, and the time of its last `Put` or successful
`Get`. -/
structure History where
  store : MemoryState
  clock : Int
  written : String → Option Session
  active : String → Option Int

/-- Nothing has happened yet. -/
def History.start (clock : Int) : History where
  store := MemoryState.empty
  clock := clock
  written _ := none
  active _ := none

/-- `LifecycleStore.Get` over the memory store. -/
def memoryGet (cfg : Lifecycle) (s : MemoryState) (now : Int) (sid : String) :
    MemoryState × Except Err Session :=
  cfg.get memoryStore s now sid

/-- One call at a given time; the clock does not run backwards. -/
def step (cfg : Lifecycle) (h : History) (call : Int × Op) : Option History :=
  if call.1 < h.clock then none
  else
    match call.2 with
    | .put v =>
        some
          { store := (cfg.put memoryStore h.store call.1 v).1
            clock := call.1
            written := Function.update h.written v.id (some (cfg.prepare call.1 v))
            active := Function.update h.active v.id (some call.1) }
    | .get sid =>
        some
          { store := (memoryGet cfg h.store call.1 sid).1
            clock := call.1
            written := h.written
            active :=
              if (memoryGet cfg h.store call.1 sid).2.isOk then
                Function.update h.active sid (some call.1)
              else h.active }
    | .delete sid =>
        some { h with store := h.store.delete sid, clock := call.1 }

/-- The calls of a run: a `Put` carries no `LastSeen` or the time of the call. -/
def Op.Timely (t : Int) : Op → Prop
  | .put v => v.lastSeen = 0 ∨ v.lastSeen = t
  | _ => True

section Get

variable {cfg : Lifecycle} {s : MemoryState} {now : Int} {sid : String}

/-- What a `Get` does to the memory store. -/
theorem memoryGet_cases (cfg : Lifecycle) (s : MemoryState) (now : Int) (sid : String) :
    (∃ e, memoryGet cfg s now sid = (s, .error e) ∧ s.data.find sid = none) ∨
      (∃ v e, s.data.find sid = some v ∧ memoryGet cfg s now sid = (s.delete sid, .error e) ∧
        (MemoryState.expired v now = true ∨ cfg.lifetimeOver now v = true ∨
          cfg.idleOver now v = true)) ∨
      ∃ v, s.data.find sid = some v ∧
        MemoryState.expired v now = false ∧
        cfg.lifetimeOver now v = false ∧
        cfg.idleOver now v = false ∧
        (memoryGet cfg s now sid =
            (s.put { v with lastSeen := now }, .ok { v with lastSeen := now }) ∧
            cfg.touchDue now v = true ∨
          memoryGet cfg s now sid = (s, .ok v) ∧ cfg.touchDue now v = false) := by
  unfold memoryGet
  rcases MemoryState.get_cases s now sid with
    ⟨hnone, hread⟩ | ⟨v, hdata, hexp, hread⟩ | ⟨v, hdata, hexp, hread⟩
  · left
    refine ⟨errNotFound, ?_, hnone⟩
    simp [Lifecycle.get, memoryStore, hread]
  · right
    left
    refine ⟨v, errNotFound, hdata, ?_, Or.inl hexp⟩
    simp [Lifecycle.get, memoryStore, hread]
  · right
    cases hcheck : cfg.check now v with
    | expired =>
        left
        refine ⟨v, errNotFound, hdata, ?_, Or.inr (Lifecycle.check_expired hcheck)⟩
        simp [Lifecycle.get, memoryStore, hread, hcheck]
    | touch v' =>
        right
        obtain ⟨rfl, htouch, hlife, hidle⟩ := Lifecycle.check_touch hcheck
        refine ⟨v, hdata, hexp, hlife, hidle, Or.inl ⟨?_, htouch⟩⟩
        simp [Lifecycle.get, memoryStore, hread, hcheck]
    | fresh =>
        right
        obtain ⟨htouch, hlife, hidle⟩ := Lifecycle.check_fresh hcheck
        refine ⟨v, hdata, hexp, hlife, hidle, Or.inr ⟨?_, htouch⟩⟩
        simp [Lifecycle.get, memoryStore, hread, hcheck]

theorem lifetimeOver_eq_false
    {v : Session} (hmax : 0 < cfg.maxLifetime) (h : cfg.lifetimeOver now v = false) :
    v.createdAt = 0 ∨ now < v.createdAt + cfg.maxLifetime.toInt := by
  simpa [Lifecycle.lifetimeOver, hmax, GoTime.isZero, GoTime.add, or_iff_not_imp_left] using h

theorem idleOver_eq_false
    {v : Session} (hidle : 0 < cfg.idleTimeout) (h : cfg.idleOver now v = false) :
    v.lastSeen = 0 ∨ now < v.lastSeen + cfg.idleTimeout.toInt := by
  simpa [Lifecycle.idleOver, hidle, GoTime.isZero, GoTime.add, or_iff_not_imp_left] using h

end Get

/-- What holds of the session stored under an identifier. -/
structure Bounded (cfg : Lifecycle) (h : History) (sid : String) (v : Session) : Prop where
  lifetime : v.expiresAt ≤ v.createdAt + cfg.maxLifetime.toInt
  unset : v.expiresAt = 0 → v.createdAt + cfg.maxLifetime.toInt = 0
  written : ∃ p, h.written sid = some p ∧ v = { p with lastSeen := v.lastSeen }
  seen : v.lastSeen ≠ 0
  active : ∃ a, h.active sid = some a ∧ a - v.lastSeen < cfg.touchInterval.toInt

section Invariant

variable {cfg : Lifecycle} {h : History} {sid : String} {t : Int}

/-- The expiry that a `Put` writes: the client's own, cut at the absolute lifetime. -/
theorem prepare_expiresAt (hmax : 0 < cfg.maxLifetime) (v : Session) :
    (cfg.prepare t v).expiresAt =
      if v.expiresAt = 0 ∨
          (cfg.prepare t v).createdAt + cfg.maxLifetime.toInt < v.expiresAt then
        (cfg.prepare t v).createdAt + cfg.maxLifetime.toInt
      else v.expiresAt := by
  simp [Lifecycle.prepare, GoTime.add, hmax]

theorem prepare_lifetime (hmax : 0 < cfg.maxLifetime) (v : Session) :
    (cfg.prepare t v).expiresAt ≤ (cfg.prepare t v).createdAt + cfg.maxLifetime.toInt := by
  rw [prepare_expiresAt hmax]
  split_ifs <;> omega

theorem prepare_unset (hmax : 0 < cfg.maxLifetime) {v : Session}
    (hzero : (cfg.prepare t v).expiresAt = 0) :
    (cfg.prepare t v).createdAt + cfg.maxLifetime.toInt = 0 := by
  rw [prepare_expiresAt hmax] at hzero
  split_ifs at hzero <;> omega

theorem prepare_lastSeen {v : Session} (htimely : (Op.put v).Timely t) :
    (cfg.prepare t v).lastSeen = t := by
  simp only [Lifecycle.prepare]
  rcases htimely with hzero | hnow
  · simp [hzero]
  · simp [hnow]

/-- What holds of a session after a `Put` of it. -/
theorem bounded_of_put
    {v : Session} {h' : History}
    (hmax : 0 < cfg.maxLifetime) (htouch : 0 < cfg.touchInterval)
    (ht : t ≠ 0) (htimely : (Op.put v).Timely t)
    (hwritten : h'.written v.id = some (cfg.prepare t v))
    (hactive : h'.active v.id = some t) :
    Bounded cfg h' v.id (cfg.prepare t v) := by
  have hseen : (cfg.prepare t v).lastSeen = t := prepare_lastSeen htimely
  have hpos : 0 < cfg.touchInterval.toInt := by
    simpa using Int64.lt_iff_toInt_lt.mp htouch
  refine ⟨prepare_lifetime hmax v, prepare_unset hmax, ⟨_, hwritten, rfl⟩, ?_, t, hactive, ?_⟩
  · rw [hseen]
    exact ht
  · rw [hseen]
    omega

/-- A call about another identifier does not matter. -/
theorem Bounded.frame
    {h' : History} {v : Session}
    (hb : Bounded cfg h sid v)
    (hwritten : h'.written sid = h.written sid)
    (hactive : h'.active sid = h.active sid) :
    Bounded cfg h' sid v := by
  obtain ⟨hlife, hunset, hw, hseen, ha⟩ := hb
  rw [← hwritten] at hw
  rw [← hactive] at ha
  exact ⟨hlife, hunset, hw, hseen, ha⟩

/-- A successful `Get` at `t`, with or without a touch, keeps the bounds. -/
theorem Bounded.of_get
    {h' : History} {v : Session} {seen : Int}
    (hb : Bounded cfg h sid v)
    (hwritten : h'.written sid = h.written sid)
    (hactive : h'.active sid = some t)
    (hseen : seen ≠ 0)
    (hrecent : t - seen < cfg.touchInterval.toInt) :
    Bounded cfg h' sid { v with lastSeen := seen } := by
  obtain ⟨p, hp, hv⟩ := hb.written
  refine ⟨hb.lifetime, hb.unset, ⟨p, ?_, ?_⟩, hseen, t, hactive, hrecent⟩
  · rw [hwritten]
    exact hp
  · rw [hv]

/-- A session that is not touched was seen less than a touch interval ago. -/
theorem recent_of_not_touchDue
    {v : Session}
    (hidle : 0 < cfg.idleTimeout) (htouch : 0 < cfg.touchInterval)
    (h : cfg.touchDue t v = false) :
    t - v.lastSeen < cfg.touchInterval.toInt := by
  have hinterval : cfg.touch = cfg.touchInterval := by
    simp [Lifecycle.touch, Int64.not_le.mpr htouch]
  simp only [Lifecycle.touchDue, hidle, decide_true, Bool.true_and, Bool.or_eq_false_iff,
    decide_eq_false_iff_not, hinterval, Int64.not_le] at h
  exact (GoTime.sub_lt_iff htouch t v.lastSeen).mp h.2

/-- Every stored session is bounded. -/
def AllBounded (cfg : Lifecycle) (h : History) : Prop :=
  ∀ sid v, h.store.data.find sid = some v → Bounded cfg h sid v

theorem put_bounded
    {v : Session} {h' : History}
    (hmax : 0 < cfg.maxLifetime) (htouch : 0 < cfg.touchInterval)
    (ht : t ≠ 0) (htimely : (Op.put v).Timely t)
    (hinv : AllBounded cfg h)
    (hstep : step cfg h (t, .put v) = some h') :
    AllBounded cfg h' := by
  simp only [step] at hstep
  split_ifs at hstep
  cases hstep
  intro sid w hw
  rcases Table.find_set_cases hw with ⟨rfl, rfl⟩ | ⟨hsid, hold⟩
  · exact bounded_of_put hmax htouch ht htimely (by simp) (by simp)
  · rw [Lifecycle.prepare_id] at hsid
    exact (hinv sid w hold).frame (by simp [hsid]) (by simp [hsid])

theorem get_bounded
    {k : String} {h' : History}
    (hidle : 0 < cfg.idleTimeout) (htouch : 0 < cfg.touchInterval)
    (ht : t ≠ 0)
    (hinv : AllBounded cfg h)
    (hstep : step cfg h (t, .get k) = some h') :
    AllBounded cfg h' := by
  have hpos : 0 < cfg.touchInterval.toInt := by
    simpa using Int64.lt_iff_toInt_lt.mp htouch
  simp only [step] at hstep
  split_ifs at hstep with hclock hok
  · cases hstep
    intro sid w hw
    simp only at hw
    rcases memoryGet_cases cfg h.store t k with
      ⟨e, hget, -⟩ | ⟨v, e, -, hget, -⟩ | ⟨v, hdata, -, -, -, ⟨hget, -⟩ | ⟨hget, hfresh⟩⟩
    · simp [hget, Except.isOk, Except.toBool] at hok
    · simp [hget, Except.isOk, Except.toBool] at hok
    · rw [hget] at hw
      obtain rfl : v.id = k := h.store.filed hdata
      rcases Table.find_set_cases hw with ⟨rfl, rfl⟩ | ⟨hsid, hold⟩
      · exact (hinv v.id v hdata).of_get (t := t) rfl (by simp) ht (by omega)
      · exact (hinv sid w hold).frame rfl (Function.update_of_ne hsid _ _)
    · rw [hget] at hw
      by_cases hsid : sid = k
      · subst hsid
        obtain rfl : v = w := Option.some.inj (hdata.symm.trans hw)
        have hb := hinv sid v hdata
        exact hb.of_get (t := t) rfl (by simp) hb.seen (recent_of_not_touchDue hidle htouch hfresh)
      · exact (hinv sid w hw).frame rfl (by simp [hsid])
  · cases hstep
    intro sid w hw
    simp only at hw
    rcases memoryGet_cases cfg h.store t k with
      ⟨e, hget, -⟩ | ⟨v, e, -, hget, -⟩ | ⟨v, -, -, -, -, ⟨hget, -⟩ | ⟨hget, -⟩⟩
    · rw [hget] at hw
      exact (hinv sid w hw).frame rfl rfl
    · rw [hget] at hw
      exact (hinv sid w (Table.find_erase_cases hw).2).frame rfl rfl
    · simp [hget, Except.isOk, Except.toBool] at hok
    · simp [hget, Except.isOk, Except.toBool] at hok

theorem delete_bounded
    {k : String} {h' : History}
    (hinv : AllBounded cfg h)
    (hstep : step cfg h (t, .delete k) = some h') :
    AllBounded cfg h' := by
  simp only [step] at hstep
  split_ifs at hstep
  cases hstep
  intro sid w hw
  exact (hinv sid w (Table.find_erase_cases hw).2).frame rfl rfl

end Invariant

section Runs

variable {cfg : Lifecycle}

/-- The condition on a call: the clock does not read the zero Time, and a `Put`
carries no other `LastSeen` than its own time. -/
def Admissible (call : Int × Op) : Prop :=
  call.1 ≠ 0 ∧ call.2.Timely call.1

/-- One admissible call keeps every stored session bounded. -/
theorem step_bounded
    {h h' : History} {call : Int × Op}
    (hmax : 0 < cfg.maxLifetime) (hidle : 0 < cfg.idleTimeout) (htouch : 0 < cfg.touchInterval)
    (hinv : AllBounded cfg h)
    (hcall : Admissible call)
    (hstep : step cfg h call = some h') :
    AllBounded cfg h' := by
  obtain ⟨t, op⟩ := call
  cases op with
  | put v =>
      exact put_bounded hmax htouch hcall.1 hcall.2 hinv hstep
  | get sid =>
      exact get_bounded hidle htouch hcall.1 hinv hstep
  | delete sid =>
      exact delete_bounded hinv hstep

/-- Every run of admissible calls keeps every stored session bounded. -/
theorem run_bounded
    (hmax : 0 < cfg.maxLifetime) (hidle : 0 < cfg.idleTimeout) (htouch : 0 < cfg.touchInterval)
    {calls : List (Int × Op)} {h h' : History}
    (hinv : AllBounded cfg h)
    (hcalls : ∀ call ∈ calls, Admissible call)
    (hrun : Run.exec (step cfg) h calls = some h') :
    AllBounded cfg h' := by
  induction calls generalizing h with
  | nil =>
      cases hrun
      exact hinv
  | cons call calls ih =>
      obtain ⟨h₁, hstep, hrest⟩ := Run.exec_cons_success hrun
      have hinv₁ := step_bounded hmax hidle htouch hinv (hcalls call (by simp)) hstep
      exact ih hinv₁ (fun c hc => hcalls c (by simp [hc])) hrest

/-- The bounds on a `Get` that returns a session. -/
theorem get_within_bounds
    {h : History} {t : Int} {sid : String} {v' : Session}
    (hmax : 0 < cfg.maxLifetime) (hidle : 0 < cfg.idleTimeout)
    (hinv : AllBounded cfg h)
    (hget : (memoryGet cfg h.store t sid).2 = .ok v') :
    ∃ v, h.store.data.find sid = some v ∧
      t < v.createdAt + cfg.maxLifetime.toInt ∧
      t < v.expiresAt ∧
      t < v.lastSeen + cfg.idleTimeout.toInt := by
  have hpos : 0 < cfg.maxLifetime.toInt := by
    simpa using Int64.lt_iff_toInt_lt.mp hmax
  rcases memoryGet_cases cfg h.store t sid with
    ⟨e, hres, -⟩ | ⟨v, e, -, hres, -⟩ | ⟨v, hdata, hexp, hlife, hidl, -⟩
  · rw [hres] at hget
    cases hget
  · rw [hres] at hget
    cases hget
  · have hb := hinv sid v hdata
    have hunset := hb.unset
    have hbound := hb.lifetime
    have hseen := hb.seen
    have h₁ := expired_eq_false hexp
    have h₂ := lifetimeOver_eq_false hmax hlife
    have h₃ := idleOver_eq_false hidle hidl
    refine ⟨v, hdata, ?_, ?_, ?_⟩
    · omega
    · omega
    · omega

/-- A `Get` changes no stored field but `LastSeen`. -/
theorem get_preserves_fields
    {s : MemoryState} {t : Int} {sid k : String} {v' : Session}
    (h : (memoryGet cfg s t sid).1.data.find k = some v') :
    ∃ v, s.data.find k = some v ∧ v' = { v with lastSeen := v'.lastSeen } := by
  rcases memoryGet_cases cfg s t sid with
    ⟨e, hres, -⟩ | ⟨v, e, -, hres, -⟩ | ⟨v, hdata, -, -, -, ⟨hres, -⟩ | ⟨hres, -⟩⟩
  · rw [hres] at h
    exact ⟨v', h, rfl⟩
  · rw [hres] at h
    exact ⟨v', (Table.find_erase_cases h).2, rfl⟩
  · rw [hres] at h
    obtain rfl : v.id = sid := s.filed hdata
    rcases Table.find_set_cases h with ⟨rfl, rfl⟩ | ⟨-, hold⟩
    · exact ⟨v, hdata, rfl⟩
    · exact ⟨v', hold, rfl⟩
  · rw [hres] at h
    exact ⟨v', h, rfl⟩

/-- A `Get` refused before the expiry is refused for idleness, and then the last
activity is more than the idle timeout less the touch interval ago. -/
theorem refused_only_if_idle
    {h : History} {t : Int} {sid : String} {v : Session} {e : Err}
    (hinv : AllBounded cfg h)
    (hdata : h.store.data.find sid = some v)
    (hexpires : t < v.expiresAt)
    (hget : (memoryGet cfg h.store t sid).2 = .error e) :
    ∃ a, h.active sid = some a ∧
      cfg.idleTimeout.toInt - cfg.touchInterval.toInt < t - a := by
  have hb := hinv sid v hdata
  rcases memoryGet_cases cfg h.store t sid with
    ⟨e, -, hnone⟩ | ⟨w, e, hw, -, hreason⟩ | ⟨w, -, -, -, -, ⟨hres, -⟩ | ⟨hres, -⟩⟩
  · rw [hdata] at hnone
    cases hnone
  · rw [hdata] at hw
    cases hw
    have hlife := hb.lifetime
    have hidle : v.lastSeen + cfg.idleTimeout.toInt ≤ t := by
      rcases hreason with hexp | hover | hover
      · simp [MemoryState.expired, GoTime.isZero] at hexp
        omega
      · simp [Lifecycle.lifetimeOver, GoTime.isZero, GoTime.add] at hover
        omega
      · simp [Lifecycle.idleOver, GoTime.isZero, GoTime.add] at hover
        exact hover.2
    obtain ⟨a, ha, hrecent⟩ := hb.active
    exact ⟨a, ha, by omega⟩
  · rw [hres] at hget
    cases hget
  · rw [hres] at hget
    cases hget

/-- The lifetime bounds after a run: on what is stored, on a `Get` that returns
a session, on what `Get` changes, and on a `Get` that is refused. -/
structure LifetimeBounds (cfg : Lifecycle) (h : History) : Prop where
  absolute :
    ∀ sid v, h.store.data.find sid = some v → v.expiresAt ≤ v.createdAt + cfg.maxLifetime.toInt
  returned :
    ∀ t sid v', (memoryGet cfg h.store t sid).2 = .ok v' →
      ∃ v, h.store.data.find sid = some v ∧
        t < v.createdAt + cfg.maxLifetime.toInt ∧
        t < v.expiresAt ∧
        t < v.lastSeen + cfg.idleTimeout.toInt
  asWritten :
    ∀ sid v, h.store.data.find sid = some v →
      ∃ p, h.written sid = some p ∧ v = { p with lastSeen := v.lastSeen }
  unchanged :
    ∀ t sid k v', (memoryGet cfg h.store t sid).1.data.find k = some v' →
      ∃ v, h.store.data.find k = some v ∧ v' = { v with lastSeen := v'.lastSeen }
  refused :
    ∀ t sid v e, h.store.data.find sid = some v → t < v.expiresAt →
      (memoryGet cfg h.store t sid).2 = .error e →
      ∃ a, h.active sid = some a ∧
        cfg.idleTimeout.toInt - cfg.touchInterval.toInt < t - a

/-- **Lifetime bounds over whole runs**, for clocks that never read the zero
Time. -/
theorem lifetime_bounds
    (cfg : Lifecycle)
    (hmax : 0 < cfg.maxLifetime) (hidle : 0 < cfg.idleTimeout) (htouch : 0 < cfg.touchInterval)
    (clock : Int) (calls : List (Int × Op)) (h : History)
    (hcalls : ∀ call ∈ calls, Admissible call)
    (hrun : Run.exec (step cfg) (History.start clock) calls = some h) :
    LifetimeBounds cfg h := by
  have hempty : AllBounded cfg (History.start clock) := by
    intro sid v hv
    cases hv
  have hinv : AllBounded cfg h := run_bounded hmax hidle htouch hempty hcalls hrun
  refine ⟨?_, ?_, ?_, ?_, ?_⟩
  · intro sid v hv
    exact (hinv sid v hv).lifetime
  · intro t sid v' hget
    exact get_within_bounds hmax hidle hinv hget
  · intro sid v hv
    exact (hinv sid v hv).written
  · intro t sid k v' hv'
    exact get_preserves_fields hv'
  · intro t sid v e hv hexpires hget
    exact refused_only_if_idle hinv hv hexpires hget

/-- A session that is put, read with a touch and read again. -/
def exampleCalls : List (Int × Op) :=
  [(1, .put exampleSession), (120000000001, .get "sid"), (130000000001, .get "sid")]

theorem lifetime_bounds_login :
    ∃ h,
      Run.exec (step exampleLifecycle) (History.start 1) exampleCalls = some h ∧
        h.active "sid" = some 130000000001 ∧
        LifetimeBounds exampleLifecycle h :=
  ⟨_, rfl, rfl,
    lifetime_bounds exampleLifecycle (by decide) (by decide) (by decide) 1 exampleCalls _
      (by simp [exampleCalls, Admissible, Op.Timely, exampleSession]) rfl⟩

/-- A clock that reads the zero Time when a session is put: the session is
returned by a `Get` that finds it idle for the whole idle timeout. -/
theorem lifetime_bounds_fail_zero_time :
    (0 < exampleLifecycle.maxLifetime ∧ 0 < exampleLifecycle.idleTimeout ∧
        0 < exampleLifecycle.touchInterval) ∧
      (Op.put exampleSession).Timely 0 ∧
      ∃ h,
        Run.exec (step exampleLifecycle) (History.start 0) [(0, .put exampleSession)] = some h ∧
          ¬LifetimeBounds exampleLifecycle h := by
  refine ⟨by decide, Or.inl rfl, _, rfl, ?_⟩
  intro hbounds
  obtain ⟨v, hv, -, -, hidle⟩ := hbounds.returned 1800000000000 "sid" _ rfl
  cases hv
  revert hidle
  decide

end Runs

end Session
end GatewayRuntime
