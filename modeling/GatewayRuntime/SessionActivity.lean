import GatewayRuntime.SessionLifetime

/-!
# Activity keeps a session alive

`Config.Validate` of `internal/app` accepts session settings with
`0 < TouchInterval ≤ IdleTimeout ≤ MaxLifetime`.  `LifecycleStore.Get` writes
`LastSeen` back once `TouchInterval` has passed since it, and refuses a session
once `IdleTimeout` has.  With a shorter touch interval the difference of the two
is a gap at which reads keep a session alive.  With equal durations a read that
would write `LastSeen` back is already refused, so that no activity helps:
`session_kept_alive_iff`.

The runs are those of any `Put`, `Get` and `Delete` calls on a `LifecycleStore` in
front of any store that returns what was put into it.  A session is active at the
`LastSeen` it is put with (the time of the `Put`, when none is given) and at
every successful `Get`.
-/

namespace GatewayRuntime
namespace Session

section Model

/-- The checks of `Config.Validate` on the session settings. -/
def Lifecycle.validate (cfg : Lifecycle) : Except String Unit :=
  if cfg.maxLifetime ≠ 0 ∨ cfg.idleTimeout ≠ 0 ∨ cfg.touchInterval ≠ 0 then
    if cfg.maxLifetime ≤ 0 then .error "session max lifetime must be positive"
    else if cfg.idleTimeout ≤ 0 ∨ cfg.maxLifetime < cfg.idleTimeout then
      .error "session idle timeout must be positive and <= max lifetime"
    else if cfg.touchInterval ≤ 0 ∨ cfg.idleTimeout < cfg.touchInterval then
      .error "session touch interval must be positive and <= idle timeout"
    else .ok ()
  else .ok ()

/-- The underlying store, the clock, and when each session was last active. -/
structure Watch (next : ValueStore) where
  store : next.State
  clock : Int
  active : String → Option Int

variable (cfg : Lifecycle) (next : ValueStore)

/-- One call at a given time; the clock does not run backwards. -/
def watchStep (w : Watch next) (call : Int × Op) : Option (Watch next) :=
  if call.1 < w.clock then none
  else
    match call.2 with
    | .put v =>
        some
          { store := (cfg.put next.toStore w.store call.1 v).1
            clock := call.1
            active :=
              if (cfg.put next.toStore w.store call.1 v).2.isOk then
                Function.update w.active v.id (some (cfg.prepare call.1 v).lastSeen)
              else w.active }
    | .get sid =>
        some
          { store := (cfg.get next.toStore w.store call.1 sid).1
            clock := call.1
            active :=
              if (cfg.get next.toStore w.store call.1 sid).2.isOk then
                Function.update w.active sid (some call.1)
              else w.active }
    | .delete sid =>
        some { w with store := next.delete w.store sid, clock := call.1 }

/-- Nothing has been put yet; the store may hold sessions of earlier runs. -/
def Watch.start (s : next.State) (clock : Int) : Watch next where
  store := s
  clock := clock
  active _ := none

variable {next}

/-- A `Get` finds a session within its absolute lifetime and refuses it as
idle. -/
def RefusedIdle (s : next.State) (now : Int) (sid : String) : Prop :=
  ∃ v, (next.get s now sid).2 = .ok v ∧
    now < GoTime.add v.createdAt cfg.maxLifetime ∧
    cfg.idleOver now v = true

/-- A session is read at most `g` after it was last active. -/
def Attended (g : Int) (w : Watch next) (call : Int × Op) : Prop :=
  match call.2 with
  | .get sid => ∀ a, w.active sid = some a → call.1 ≤ a + g
  | _ => True

/-- A session put or read before is not refused as idle. -/
def NotRefused (w : Watch next) (call : Int × Op) : Prop :=
  match call.2 with
  | .get sid => w.active sid ≠ none → ¬RefusedIdle cfg w.store call.1 sid
  | _ => True

/-- Reads at most `g` apart keep every session from being refused as idle. -/
def KeptAlive (g : Int) : Prop :=
  ∀ (next : ValueStore) (s : next.State) (clock : Int) (calls : List (Int × Op)) (w : Watch next),
    Run.exec (watchStep cfg next) (Watch.start next s clock) calls = some w →
      Run.Guarded (watchStep cfg next) (Attended g) (Watch.start next s clock) calls →
      Run.Guarded (watchStep cfg next) (NotRefused cfg) (Watch.start next s clock) calls

end Model

section Alive

variable {cfg : Lifecycle} {next : ValueStore} {w : Watch next} {t : Int}

/-- `LastSeen` of a stored session is less than a touch interval behind its last
activity. -/
def Recent (cfg : Lifecycle) (w : Watch next) : Prop :=
  ∀ sid a v, w.active sid = some a → next.holds w.store sid v →
    v.lastSeen = 0 ∨ a - v.lastSeen < cfg.touchInterval.toInt

theorem isOk_eq_true {α : Type} {x : Except Err α} (h : x.isOk = true) :
    ∃ a, x = .ok a := by
  cases x with
  | error e =>
      cases h
  | ok a =>
      exact ⟨a, rfl⟩

theorem eq_error_of_not_isOk {α : Type} {x : Except Err α} (h : ¬x.isOk = true) :
    ∃ e, x = .error e := by
  cases x with
  | error e =>
      exact ⟨e, rfl⟩
  | ok a =>
      exact absurd rfl h

theorem put_recent
    {v : Session} {w' : Watch next}
    (htouch : 0 < cfg.touchInterval)
    (hinv : Recent cfg w)
    (hstep : watchStep cfg next w (t, .put v) = some w') :
    Recent cfg w' := by
  have hpos : 0 < cfg.touchInterval.toInt := by
    simpa using Int64.lt_iff_toInt_lt.mp htouch
  simp only [watchStep] at hstep
  split_ifs at hstep with hclock hok
  · cases hstep
    obtain ⟨⟨⟩, hput⟩ := isOk_eq_true hok
    intro sid a u ha hu
    rcases next.holds_of_put_ok hput hu with ⟨hsid, rfl⟩ | ⟨hsid, hold⟩
    · rw [Lifecycle.prepare_id] at hsid
      subst hsid
      simp only [Function.update_self, Option.some.injEq] at ha
      right
      omega
    · rw [Lifecycle.prepare_id] at hsid
      simp only [Function.update_of_ne hsid] at ha
      exact hinv sid a u ha hold
  · cases hstep
    obtain ⟨e, hput⟩ := eq_error_of_not_isOk hok
    intro sid a u ha hu
    exact hinv sid a u ha (next.holds_of_put_error hput hu)

/-- What a store holds after a `Get` was there before, and if the `Get`
returned it, it was seen less than a touch interval ago; or the `Get` wrote it. -/
theorem holds_of_lifecycle_get
    {s : next.State} {sid sid' : String} {u : Session}
    (hidle : 0 < cfg.idleTimeout) (htouch : 0 < cfg.touchInterval)
    (h : next.holds (cfg.get next.toStore s t sid).1 sid' u) :
    (next.holds s sid' u ∧
        (sid' = sid → (cfg.get next.toStore s t sid).2.isOk = true →
          t - u.lastSeen < cfg.touchInterval.toInt)) ∨
      (sid' = sid ∧ u.lastSeen = t ∧ (cfg.get next.toStore s t sid).2.isOk = true) := by
  rcases Lifecycle.get_cases cfg next.toStore s t sid with
    ⟨e, -, hget⟩ | ⟨v, hv, ⟨-, hget⟩ | ⟨v', hcheck, hget⟩ | ⟨hcheck, hget⟩⟩
  · rw [hget] at h ⊢
    exact Or.inl ⟨next.holds_of_get h, fun _ hok => by cases hok⟩
  · rw [hget] at h ⊢
    exact Or.inl
      ⟨next.holds_of_get (next.holds_of_delete h).2, fun _ hok => by cases hok⟩
  · rw [hget] at h ⊢
    obtain ⟨rfl, -, -, -⟩ := Lifecycle.check_touch hcheck
    have hid : v.id = sid := next.get_ok_id hv
    cases hput : (next.put (next.get s t sid).1 t { v with lastSeen := t }).2 with
    | error e =>
        have hold := next.holds_of_put_error hput h
        exact Or.inl ⟨next.holds_of_get hold, fun _ hok => by cases hok⟩
    | ok _ =>
        rcases next.holds_of_put_ok hput h with ⟨hsid, rfl⟩ | ⟨hsid, hold⟩
        · exact Or.inr ⟨hsid.trans hid, rfl, rfl⟩
        · left
          refine ⟨next.holds_of_get hold, ?_⟩
          intro heq _
          exact absurd (heq.trans hid.symm) hsid
  · rw [hget] at h ⊢
    have hold := next.holds_of_get h
    left
    refine ⟨hold, ?_⟩
    intro hsid _
    subst hsid
    rw [next.holds_unique hold (next.holds_of_get_ok hv)]
    exact recent_of_not_touchDue hidle htouch (Lifecycle.check_fresh hcheck).1

theorem get_recent
    {k : String} {w' : Watch next}
    (hidle : 0 < cfg.idleTimeout) (htouch : 0 < cfg.touchInterval)
    (hinv : Recent cfg w)
    (hstep : watchStep cfg next w (t, .get k) = some w') :
    Recent cfg w' := by
  have hpos : 0 < cfg.touchInterval.toInt := by
    simpa using Int64.lt_iff_toInt_lt.mp htouch
  simp only [watchStep] at hstep
  split_ifs at hstep with hclock hok
  · cases hstep
    intro sid a u ha hu
    by_cases hsid : sid = k
    · subst hsid
      simp only [Function.update_self, Option.some.injEq] at ha
      subst ha
      rcases holds_of_lifecycle_get hidle htouch hu with ⟨-, hrecent⟩ | ⟨-, hseen, -⟩
      · exact Or.inr (hrecent rfl hok)
      · right
        omega
    · simp only [Function.update_of_ne hsid] at ha
      rcases holds_of_lifecycle_get hidle htouch hu with ⟨hold, -⟩ | ⟨heq, -⟩
      · exact hinv sid a u ha hold
      · exact absurd heq hsid
  · cases hstep
    intro sid a u ha hu
    rcases holds_of_lifecycle_get hidle htouch hu with ⟨hold, -⟩ | ⟨-, -, hsome⟩
    · exact hinv sid a u ha hold
    · exact absurd hsome hok

theorem watchStep_recent
    {call : Int × Op} {w' : Watch next}
    (hidle : 0 < cfg.idleTimeout) (htouch : 0 < cfg.touchInterval)
    (hinv : Recent cfg w)
    (hstep : watchStep cfg next w call = some w') :
    Recent cfg w' := by
  obtain ⟨t, op⟩ := call
  cases op with
  | put v =>
      exact put_recent htouch hinv hstep
  | get sid =>
      exact get_recent hidle htouch hinv hstep
  | delete sid =>
      simp only [watchStep] at hstep
      split_ifs at hstep
      cases hstep
      intro k a u ha hu
      exact hinv k a u ha (next.holds_of_delete hu).2

/-- A session read within the gap is not refused. -/
theorem notRefused_of_attended
    {call : Int × Op}
    (hidle : 0 < cfg.idleTimeout)
    (hinv : Recent cfg w)
    (hcall : Attended (cfg.idleTimeout.toInt - cfg.touchInterval.toInt) w call) :
    NotRefused cfg w call := by
  obtain ⟨t, op⟩ := call
  cases op with
  | put v =>
      trivial
  | delete sid =>
      trivial
  | get sid =>
      rintro hactive ⟨v, hv, -, hover⟩
      obtain ⟨a, ha⟩ := Option.ne_none_iff_exists'.mp hactive
      have hgap : t ≤ a + (cfg.idleTimeout.toInt - cfg.touchInterval.toInt) := hcall a ha
      simp only [Lifecycle.idleOver, hidle, decide_true, Bool.true_and, Bool.and_eq_true,
        Bool.not_eq_true', GoTime.after_eq_false_iff, GoTime.add] at hover
      rcases hinv sid a v ha (next.holds_of_get_ok hv) with hzero | hrecent
      · simp [hzero, GoTime.isZero] at hover
      · omega

/-- Below the idle timeout, the touch interval leaves a gap. -/
theorem keptAlive_of_touch_lt
    (hidle : 0 < cfg.idleTimeout) (htouch : 0 < cfg.touchInterval) :
    KeptAlive cfg (cfg.idleTimeout.toInt - cfg.touchInterval.toInt) := by
  intro next s clock calls w _ hattended
  refine hattended.imp_of_invariant (I := Recent cfg) ?_ ?_ ?_
  · intro w call w' hinv _ hstep
    exact watchStep_recent hidle htouch hinv hstep
  · intro w call hinv hcall
    exact notRefused_of_attended hidle hinv hcall
  · intro sid a v ha
    cases ha

end Alive

section Starved

variable {cfg : Lifecycle}

/-- A session to be put at time 1 whose absolute lifetime ends after the idle
timeout: a new one, or, where the two durations are equal, one with a later
`CreatedAt`. -/
def pollSession (cfg : Lifecycle) : Session :=
  { exampleSession with
    createdAt := if cfg.idleTimeout < cfg.maxLifetime then 0 else 1 + cfg.idleTimeout.toInt }

/-- One read per nanosecond, from time 2 on. -/
def polls (n : Nat) : List (Int × Op) :=
  (List.range n).map fun i => ((i : Int) + 2, .get "sid")

/-- The store after the `Put`, with the session last read at the given time. -/
def pollWatch (cfg : Lifecycle) (t : Int) : Watch memoryValues where
  store := MemoryState.empty.put (cfg.prepare 1 (pollSession cfg))
  clock := t
  active := Function.update (fun _ => none) "sid" (some t)

theorem polls_succ (n : Nat) :
    polls (n + 1) = polls n ++ [((n : Int) + 2, .get "sid")] := by
  simp [polls, List.range_succ]

theorem pollSession_lifetime (hmax : 0 < cfg.maxLifetime) (hidle : 0 < cfg.idleTimeout) :
    1 + cfg.idleTimeout.toInt <
      (cfg.prepare 1 (pollSession cfg)).createdAt + cfg.maxLifetime.toInt := by
  have hpos : 0 < cfg.idleTimeout.toInt := by
    simpa using Int64.lt_iff_toInt_lt.mp hidle
  have hmaxpos : 0 < cfg.maxLifetime.toInt := by
    simpa using Int64.lt_iff_toInt_lt.mp hmax
  by_cases hlt : cfg.idleTimeout < cfg.maxLifetime
  · have hgap := Int64.lt_iff_toInt_lt.mp hlt
    have hcreated : (cfg.prepare 1 (pollSession cfg)).createdAt = 1 := by
      simp [Lifecycle.prepare, pollSession, hlt]
    omega
  · have hne : GoTime.isZero (1 + cfg.idleTimeout.toInt) = false := by
      simp only [GoTime.isZero, beq_eq_false_iff_ne]
      omega
    have hcreated :
        (cfg.prepare 1 (pollSession cfg)).createdAt = 1 + cfg.idleTimeout.toInt := by
      simp [Lifecycle.prepare, pollSession, hlt, hne]
    omega

theorem pollSession_lastSeen :
    (cfg.prepare 1 (pollSession cfg)).lastSeen = 1 := by
  simp [Lifecycle.prepare, pollSession, exampleSession]

theorem pollSession_expiresAt (hmax : 0 < cfg.maxLifetime) :
    (cfg.prepare 1 (pollSession cfg)).expiresAt =
      (cfg.prepare 1 (pollSession cfg)).createdAt + cfg.maxLifetime.toInt := by
  rw [prepare_expiresAt hmax]
  simp [pollSession, exampleSession]

/-- The memory store returns the session while it has not expired. -/
theorem pollSession_read
    {t : Int}
    (hmax : 0 < cfg.maxLifetime) (hidle : 0 < cfg.idleTimeout)
    (ht : t ≤ 1 + cfg.idleTimeout.toInt) :
    memoryValues.get (MemoryState.empty.put (cfg.prepare 1 (pollSession cfg))) t "sid" =
      (MemoryState.empty.put (cfg.prepare 1 (pollSession cfg)),
        .ok (cfg.prepare 1 (pollSession cfg))) := by
  have hlater := pollSession_lifetime hmax hidle
  have hexp : MemoryState.expired (cfg.prepare 1 (pollSession cfg)) t = false := by
    simp only [MemoryState.expired, pollSession_expiresAt hmax, Bool.and_eq_false_iff,
      Bool.not_eq_false', GoTime.after_iff]
    right
    omega
  have hfind :
      (MemoryState.empty.put (cfg.prepare 1 (pollSession cfg))).data.find "sid" =
        some (cfg.prepare 1 (pollSession cfg)) :=
    Table.find_set_self _ _ _
  simp [memoryValues, memoryStore, MemoryState.get, hfind, hexp]

/-- A read before the idle timeout neither refuses nor touches the session. -/
theorem pollSession_fresh
    {t : Int}
    (hmax : 0 < cfg.maxLifetime) (hidle : 0 < cfg.idleTimeout)
    (heq : cfg.touchInterval = cfg.idleTimeout)
    (ht : t < 1 + cfg.idleTimeout.toInt) :
    cfg.check t (cfg.prepare 1 (pollSession cfg)) = .fresh := by
  have hlater := pollSession_lifetime hmax hidle
  have hlife : cfg.lifetimeOver t (cfg.prepare 1 (pollSession cfg)) = false := by
    simp only [Lifecycle.lifetimeOver, GoTime.add,
      Bool.and_eq_false_iff, Bool.not_eq_false', GoTime.after_iff]
    right
    omega
  have hover : cfg.idleOver t (cfg.prepare 1 (pollSession cfg)) = false := by
    simp only [Lifecycle.idleOver, pollSession_lastSeen, GoTime.add,
      Bool.and_eq_false_iff, Bool.not_eq_false', GoTime.after_iff]
    right
    omega
  have htouch : cfg.touchDue t (cfg.prepare 1 (pollSession cfg)) = false := by
    have hinterval : cfg.touch = cfg.idleTimeout := by
      simp [Lifecycle.touch, heq, Int64.not_le.mpr hidle]
    have hlt := (GoTime.sub_lt_iff hidle t 1).mpr (by omega)
    simp [Lifecycle.touchDue, hinterval, pollSession_lastSeen, hidle, hlt, GoTime.isZero]
  simp [Lifecycle.check, hlife, hover, htouch]

/-- One read before the idle timeout only moves the clock. -/
theorem poll_step
    {n : Nat}
    (hmax : 0 < cfg.maxLifetime) (hidle : 0 < cfg.idleTimeout)
    (heq : cfg.touchInterval = cfg.idleTimeout)
    (hn : (n : Int) + 1 < cfg.idleTimeout.toInt) :
    watchStep cfg memoryValues (pollWatch cfg ((n : Int) + 1)) ((n : Int) + 2, .get "sid") =
      some (pollWatch cfg ((n : Int) + 2)) := by
  have hget :
      cfg.get memoryValues.toStore (pollWatch cfg ((n : Int) + 1)).store ((n : Int) + 2) "sid" =
        ((pollWatch cfg ((n : Int) + 1)).store, .ok (cfg.prepare 1 (pollSession cfg))) := by
    simp only [Lifecycle.get, pollWatch, pollSession_read hmax hidle (t := (n : Int) + 2) (by omega),
      pollSession_fresh hmax hidle heq (t := (n : Int) + 2) (by omega)]
  have hclock : ¬(n : Int) + 2 < (pollWatch cfg ((n : Int) + 1)).clock := by
    simp only [pollWatch]
    omega
  simp only [watchStep, hclock, if_false, hget]
  simp [pollWatch, Except.isOk, Except.toBool]

/-- The reads before the idle timeout, one after the other. -/
theorem polls_run
    {g : Int} (n : Nat)
    (hmax : 0 < cfg.maxLifetime) (hidle : 0 < cfg.idleTimeout)
    (heq : cfg.touchInterval = cfg.idleTimeout) (hg : 0 < g)
    (hn : (n : Int) < cfg.idleTimeout.toInt) :
    Run.exec (watchStep cfg memoryValues) (pollWatch cfg 1) (polls n) =
        some (pollWatch cfg ((n : Int) + 1)) ∧
      Run.Guarded (watchStep cfg memoryValues) (Attended g) (pollWatch cfg 1) (polls n) := by
  induction n with
  | zero =>
      exact ⟨rfl, trivial⟩
  | succ n ih =>
      obtain ⟨hrun, hguard⟩ := ih (by omega)
      have hstep := poll_step hmax hidle heq (n := n) (by omega)
      rw [polls_succ]
      refine ⟨?_, hguard.append ?_⟩
      · rw [Run.exec_append, hrun]
        simp only [Option.bind_some, Run.exec, hstep, Option.some.injEq]
        congr 1
      · intro w hw
        cases hrun.symm.trans hw
        refine ⟨?_, fun _ _ => trivial⟩
        intro a ha
        have hsome : some ((n : Int) + 1) = some a := by
          simpa [pollWatch] using ha
        cases hsome
        omega

/-- With a touch interval as long as the idle timeout no gap keeps a session
alive. -/
theorem not_keptAlive_of_touch_eq
    {g : Int}
    (hmax : 0 < cfg.maxLifetime) (hidle : 0 < cfg.idleTimeout)
    (heq : cfg.touchInterval = cfg.idleTimeout) (hg : 0 < g) :
    ¬KeptAlive cfg g := by
  have hpos : 0 < cfg.idleTimeout.toInt := by
    simpa using Int64.lt_iff_toInt_lt.mp hidle
  have hlater := pollSession_lifetime hmax hidle
  obtain ⟨n, hn⟩ : ∃ n : Nat, cfg.idleTimeout.toInt = (n : Int) + 1 :=
    ⟨(cfg.idleTimeout.toInt - 1).toNat, by omega⟩
  intro halive
  have hput :
      watchStep cfg memoryValues (Watch.start memoryValues MemoryState.empty 0)
          (1, .put (pollSession cfg)) =
        some (pollWatch cfg 1) := by
    simp [watchStep, Watch.start, pollWatch, Lifecycle.put, memoryValues, memoryStore,
      pollSession_lastSeen, Except.isOk, Except.toBool]
    rfl
  obtain ⟨hrun, hguard⟩ := polls_run n hmax hidle heq hg (by omega)
  have hclock : ¬(n : Int) + 2 < (pollWatch cfg ((n : Int) + 1)).clock := by
    simp only [pollWatch]
    omega
  obtain ⟨w, hlast⟩ :
      ∃ w, watchStep cfg memoryValues (pollWatch cfg ((n : Int) + 1))
        ((n : Int) + 2, .get "sid") = some w := by
    simp only [watchStep, hclock, if_false]
    exact ⟨_, rfl⟩
  have hattended : Attended g (pollWatch cfg ((n : Int) + 1)) ((n : Int) + 2, .get "sid") := by
    intro a ha
    have hsome : some ((n : Int) + 1) = some a := by
      simpa [pollWatch] using ha
    cases hsome
    omega
  have hall :=
    halive memoryValues MemoryState.empty 0
      ((1, .put (pollSession cfg)) :: (polls n ++ [((n : Int) + 2, .get "sid")])) w
      (by simp [Run.exec, hput, Run.exec_append, hrun, hlast])
      ⟨trivial, fun w₁ hw₁ => by
        cases hput.symm.trans hw₁
        refine hguard.append ?_
        intro w₂ hw₂
        cases hrun.symm.trans hw₂
        exact ⟨hattended, fun _ _ => trivial⟩⟩
  have hnot := ((hall.2 _ hput).append_right hrun).1
  refine hnot (by simp [pollWatch]) ⟨cfg.prepare 1 (pollSession cfg), ?_, ?_, ?_⟩
  · rw [show (pollWatch cfg ((n : Int) + 1)).store =
        MemoryState.empty.put (cfg.prepare 1 (pollSession cfg)) from rfl,
      pollSession_read hmax hidle (by simp only; omega)]
  · simp only [GoTime.add]
    omega
  · simp only [Lifecycle.idleOver, pollSession_lastSeen, hidle, GoTime.add, decide_true,
      Bool.true_and, Bool.and_eq_true, Bool.not_eq_true', GoTime.after_eq_false_iff]
    exact ⟨rfl, by omega⟩

end Starved

section Result

variable {cfg : Lifecycle}

theorem validate_ok
    (hmax : 0 < cfg.maxLifetime)
    (h : cfg.validate = .ok ()) :
    0 < cfg.idleTimeout ∧ cfg.idleTimeout ≤ cfg.maxLifetime ∧
      0 < cfg.touchInterval ∧ cfg.touchInterval ≤ cfg.idleTimeout := by
  have hne : cfg.maxLifetime ≠ 0 := by
    intro hzero
    rw [hzero] at hmax
    exact absurd hmax (by decide)
  unfold Lifecycle.validate at h
  simp only [hne, ne_eq, not_false_eq_true, true_or, if_true] at h
  split_ifs at h with hlife hidle htouch
  simp only [not_or, Int64.not_le, Int64.not_lt] at hidle htouch
  exact ⟨hidle.1, hidle.2, htouch.1, htouch.2⟩

/-- **When activity keeps a session alive.**  For accepted settings there is a gap
at which reads keep every session from being refused as idle, exactly if the
touch interval is shorter than the idle timeout. -/
theorem session_kept_alive_iff
    (cfg : Lifecycle)
    (hmax : 0 < cfg.maxLifetime)
    (hvalid : cfg.validate = .ok ()) :
    (∃ g : Int, 0 < g ∧ KeptAlive cfg g) ↔ cfg.touchInterval < cfg.idleTimeout := by
  obtain ⟨hidle, -, htouch, hle⟩ := validate_ok hmax hvalid
  refine ⟨?_, ?_⟩
  · rintro ⟨g, hg, halive⟩
    by_contra hnot
    have heq : cfg.touchInterval = cfg.idleTimeout :=
      Int64.le_antisymm hle (Int64.not_lt.mp hnot)
    exact not_keptAlive_of_touch_eq hmax hidle heq hg halive
  · intro hlt
    have hgap := Int64.lt_iff_toInt_lt.mp hlt
    exact ⟨_, by omega, keptAlive_of_touch_lt hidle htouch⟩

/-- Eight hours, thirty minutes and one minute. -/
theorem session_kept_alive_example :
    exampleLifecycle.validate = .ok () ∧ ∃ g : Int, 0 < g ∧ KeptAlive exampleLifecycle g :=
  ⟨by decide,
    (session_kept_alive_iff exampleLifecycle (by decide) (by decide)).mpr (by decide)⟩

/-- Eight hours and thirty minutes, with a touch interval of thirty minutes too:
accepted, and no gap keeps a session alive. -/
theorem session_starved_example :
    (⟨28800000000000, 1800000000000, 1800000000000⟩ : Lifecycle).validate = .ok () ∧
      ¬∃ g : Int, 0 < g ∧ KeptAlive ⟨28800000000000, 1800000000000, 1800000000000⟩ g := by
  refine ⟨by decide, ?_⟩
  rintro ⟨g, hg, halive⟩
  exact not_keptAlive_of_touch_eq (by decide) (by decide) rfl hg halive

end Result

end Session
end GatewayRuntime
