import GatewayRuntime.Lib.Run
import GatewayRuntime.SessionLifecycle

/-!
# Deletion of a session under concurrency

Any number of `LifecycleStore.Get` calls, logouts, invalidations by the token
manager and logins on one shared session store.  The steps are the operations of
the underlying store, each atomic, and the moment at which a `Get` reads the
clock; they interleave in any order.

A `Get` writes back the session it has read, so its `Put` may follow a `Delete`
of the same session by another party and file the session again
(`deleted_session_returns`).  `deletion_final` says that this is the only way:
if every such `Put` finds its session still stored, no `Get` that starts after
the deletion returns the session.

`get_uninterrupted` ties the steps to `Lifecycle.get`.
-/

namespace GatewayRuntime
namespace Session

/-- Where a `LifecycleStore.Get` call stands. -/
inductive GetPc where
  | idle
  | reading (sid : String)
  | checking (sid : String) (v : Session)
  | deleting (sid : String)
  | putting (v : Session)
  | returned (result : Except Err Session)

/-- The steps.  `nextGet`, `nextPut` and `nextDelete` are those of a `Get` on
the underlying store; `logout` and `invalidate` are the `Sessions.Delete` of
`Service.Logout` and of `StoreManager.invalidate`; `login` is the `Sessions.Put`
of a login. -/
inductive Event where
  | start (i : Nat) (sid : String)
  | nextGet (i : Nat)
  | check (i : Nat)
  | nextPut (i : Nat)
  | nextDelete (i : Nat) (sid : String)
  | logout (sid : String)
  | invalidate (sid : String)
  | login (v : Session)
  | tick (t : Int)

/-- The identifier whose deletion on the underlying store a step completes. -/
def Event.deletes : Event → Option String
  | nextDelete _ sid => some sid
  | logout sid => some sid
  | invalidate sid => some sid
  | _ => none

/-- The `Get` call a step belongs to. -/
def Event.caller : Event → Option Nat
  | start i _ => some i
  | nextGet i => some i
  | check i => some i
  | nextPut i => some i
  | nextDelete i _ => some i
  | _ => none

/-- The shared store, the clock and the `Get` calls. -/
structure Shared (S : Store) where
  store : S.State
  now : Int
  calls : Nat → GetPc

namespace Shared

variable {S : Store}

/-- A step of call `i` that leaves the store in state `store`. -/
def advance (w : Shared S) (i : Nat) (store : S.State) (pc : GetPc) : Shared S where
  store := store
  now := w.now
  calls := Function.update w.calls i pc

@[simp] theorem advance_store (w : Shared S) (i : Nat) (store : S.State) (pc : GetPc) :
    (w.advance i store pc).store = store := by
  rfl

@[simp] theorem advance_now (w : Shared S) (i : Nat) (store : S.State) (pc : GetPc) :
    (w.advance i store pc).now = w.now := by
  rfl

@[simp] theorem advance_calls_self (w : Shared S) (i : Nat) (store : S.State) (pc : GetPc) :
    (w.advance i store pc).calls i = pc := by
  simp [advance]

theorem advance_calls_of_ne
    (w : Shared S) {i j : Nat} (store : S.State) (pc : GetPc) (hj : j ≠ i) :
    (w.advance i store pc).calls j = w.calls j := by
  simp [advance, hj]

end Shared

/-- Where a `Get` goes with the session it has read. -/
def afterCheck (sid : String) (v : Session) : Check → GetPc
  | .expired => .deleting sid
  | .touch v' => .putting v'
  | .fresh => .returned (.ok v)

/-- Where a `Get` goes with the answer of the underlying `Get`. -/
def afterRead (sid : String) : Except Err Session → GetPc
  | .error e => .returned (.error e)
  | .ok v => .checking sid v

/-- One step; `none` when the step is not the next one of its call. -/
def sharedStep (S : Store) (cfg : Lifecycle) (w : Shared S) : Event → Option (Shared S)
  | .start i sid =>
      match w.calls i with
      | .idle => some (w.advance i w.store (.reading sid))
      | _ => none
  | .nextGet i =>
      match w.calls i with
      | .reading sid =>
          some (w.advance i (S.get w.store w.now sid).1
            (afterRead sid (S.get w.store w.now sid).2))
      | _ => none
  | .check i =>
      match w.calls i with
      | .checking sid v => some (w.advance i w.store (afterCheck sid v (cfg.check w.now v)))
      | _ => none
  | .nextPut i =>
      match w.calls i with
      | .putting v =>
          some (w.advance i (S.put w.store w.now v).1
            (.returned ((S.put w.store w.now v).2.map fun _ => v)))
      | _ => none
  | .nextDelete i sid =>
      match w.calls i with
      | .deleting sid' =>
          if sid' = sid then
            some (w.advance i (S.delete w.store sid) (.returned (.error errNotFound)))
          else none
      | _ => none
  | .logout sid => some { w with store := S.delete w.store sid }
  | .invalidate sid => some { w with store := S.delete w.store sid }
  | .login v => some { w with store := (cfg.put S w.store w.now v).1 }
  | .tick t => if w.now ≤ t then some { w with now := t } else none

/-- A `Put` that writes a session back finds it still stored. -/
def touchFindsSession {S : Store} (w : Shared S) : Event → Bool
  | .nextPut i =>
      match w.calls i with
      | .putting v => S.stored w.store v.id
      | _ => true
  | _ => true

section Steps

variable {S : Store} {cfg : Lifecycle} {w w' : Shared S} {i : Nat} {sid : String} {e : Event}

theorem start_success
    (h : sharedStep S cfg w (.start i sid) = some w') :
    w.calls i = .idle ∧ w' = w.advance i w.store (.reading sid) := by
  simp only [sharedStep] at h
  split at h
  · rename_i hpc
    cases h
    exact ⟨hpc, rfl⟩
  · cases h

theorem nextGet_success
    (h : sharedStep S cfg w (.nextGet i) = some w') :
    ∃ sid, w.calls i = .reading sid ∧
      w' = w.advance i (S.get w.store w.now sid).1
        (afterRead sid (S.get w.store w.now sid).2) := by
  simp only [sharedStep] at h
  split at h
  · rename_i sid hpc
    cases h
    exact ⟨sid, hpc, rfl⟩
  · cases h

theorem check_success
    (h : sharedStep S cfg w (.check i) = some w') :
    ∃ sid v, w.calls i = .checking sid v ∧
      w' = w.advance i w.store (afterCheck sid v (cfg.check w.now v)) := by
  simp only [sharedStep] at h
  split at h
  · rename_i sid v hpc
    cases h
    exact ⟨sid, v, hpc, rfl⟩
  · cases h

theorem nextPut_success
    (h : sharedStep S cfg w (.nextPut i) = some w') :
    ∃ v, w.calls i = .putting v ∧
      w' = w.advance i (S.put w.store w.now v).1
        (.returned ((S.put w.store w.now v).2.map fun _ => v)) := by
  simp only [sharedStep] at h
  split at h
  · rename_i v hpc
    cases h
    exact ⟨v, hpc, rfl⟩
  · cases h

theorem nextDelete_success
    (h : sharedStep S cfg w (.nextDelete i sid) = some w') :
    w.calls i = .deleting sid ∧
      w' = w.advance i (S.delete w.store sid) (.returned (.error errNotFound)) := by
  simp only [sharedStep] at h
  split at h
  · rename_i sid' hpc
    split_ifs at h with hsid
    cases h
    subst hsid
    exact ⟨hpc, rfl⟩
  · cases h

theorem tick_success
    {t : Int} (h : sharedStep S cfg w (.tick t) = some w') :
    w.now ≤ t ∧ w' = { w with now := t } := by
  simp only [sharedStep] at h
  split_ifs at h with hle
  cases h
  exact ⟨hle, rfl⟩

/-- A deleting step leaves no entry for its identifier. -/
theorem not_stored_of_deletes
    (hdel : e.deletes = some sid)
    (h : sharedStep S cfg w e = some w') :
    S.stored w'.store sid = false := by
  cases e with
  | nextDelete i k =>
      cases hdel
      obtain ⟨-, rfl⟩ := nextDelete_success h
      exact S.not_stored_delete
  | logout k =>
      cases hdel
      cases h
      exact S.not_stored_delete
  | invalidate k =>
      cases hdel
      cases h
      exact S.not_stored_delete
  | start i k | nextGet i | check i | nextPut i | login v | tick t =>
      cases hdel

/-- Only a login and a `Put` that does not find its session create an entry. -/
theorem stored_of_step
    (hguard : touchFindsSession w e = true)
    (hlogin : ∀ v, e = .login v → v.id ≠ sid)
    (h : sharedStep S cfg w e = some w')
    (hstored : S.stored w'.store sid = true) :
    S.stored w.store sid = true := by
  cases e with
  | start i k =>
      obtain ⟨-, rfl⟩ := start_success h
      exact hstored
  | nextGet i =>
      obtain ⟨k, -, rfl⟩ := nextGet_success h
      exact S.stored_of_get hstored
  | check i =>
      obtain ⟨k, v, -, rfl⟩ := check_success h
      exact hstored
  | nextPut i =>
      obtain ⟨v, hpc, rfl⟩ := nextPut_success h
      rcases S.stored_of_put hstored with hold | hid
      · exact hold
      · simpa [touchFindsSession, hpc, hid] using hguard
  | nextDelete i k =>
      obtain ⟨-, rfl⟩ := nextDelete_success h
      exact S.stored_of_delete hstored
  | logout k =>
      cases h
      exact S.stored_of_delete hstored
  | invalidate k =>
      cases h
      exact S.stored_of_delete hstored
  | login v =>
      cases h
      rcases S.stored_of_put hstored with hold | hid
      · exact hold
      · exact absurd hid (hlogin v rfl)
  | tick t =>
      obtain ⟨-, rfl⟩ := tick_success h
      exact hstored

theorem absent_of_step
    (hguard : touchFindsSession w e = true)
    (hlogin : ∀ v, e = .login v → v.id ≠ sid)
    (h : sharedStep S cfg w e = some w')
    (habsent : S.stored w.store sid = false) :
    S.stored w'.store sid = false := by
  by_contra hstored
  have hold := stored_of_step hguard hlogin h (Bool.of_not_eq_false hstored)
  rw [habsent] at hold
  cases hold

/-- A call that is still to read a deleted session, or has returned an error. -/
def Empty (w : Shared S) (i : Nat) (sid : String) : Prop :=
  w.calls i = .reading sid ∨ ∃ err, w.calls i = .returned (.error err)

theorem Empty.not_ok
    (h : Empty w i sid) (v : Session) :
    w.calls i ≠ .returned (.ok v) := by
  rintro hok
  rcases h with hpc | ⟨err, hpc⟩
  · rw [hpc] at hok
    cases hok
  · rw [hpc] at hok
    cases hok

/-- A step of another call leaves a call where it is. -/
theorem Empty.advance
    {j : Nat} {store : S.State} {pc : GetPc}
    (h : Empty w i sid)
    (hj : j = i → pc = .reading sid ∨ ∃ err, pc = .returned (.error err)) :
    Empty (w.advance j store pc) i sid := by
  unfold Empty
  by_cases hij : i = j
  · subst hij
    rw [Shared.advance_calls_self]
    exact hj rfl
  · rw [Shared.advance_calls_of_ne w store pc hij]
    exact h

/-- While a session is not stored, a call for it comes to nothing. -/
theorem Empty.step
    (hempty : Empty w i sid)
    (habsent : S.stored w.store sid = false)
    (h : sharedStep S cfg w e = some w') :
    Empty w' i sid := by
  have hpc : ∀ {pc}, w.calls i = pc → pc = .reading sid ∨ ∃ err, pc = .returned (.error err) := by
    rintro pc rfl
    exact hempty
  cases e with
  | start j k =>
      obtain ⟨hj, rfl⟩ := start_success h
      apply hempty.advance
      rintro rfl
      rcases hpc hj with hbad | ⟨err, hbad⟩ <;> cases hbad
  | nextGet j =>
      obtain ⟨k, hj, rfl⟩ := nextGet_success h
      apply hempty.advance
      rintro rfl
      rcases hpc hj with hk | ⟨err, hbad⟩
      · cases hk
        cases hread : (S.get w.store w.now sid).2 with
        | error err =>
            exact Or.inr ⟨err, by simp [afterRead]⟩
        | ok v =>
            rw [S.get_ok_stored hread] at habsent
            cases habsent
      · cases hbad
  | check j =>
      obtain ⟨k, v, hj, rfl⟩ := check_success h
      apply hempty.advance
      rintro rfl
      rcases hpc hj with hbad | ⟨err, hbad⟩ <;> cases hbad
  | nextPut j =>
      obtain ⟨v, hj, rfl⟩ := nextPut_success h
      apply hempty.advance
      rintro rfl
      rcases hpc hj with hbad | ⟨err, hbad⟩ <;> cases hbad
  | nextDelete j k =>
      obtain ⟨hj, rfl⟩ := nextDelete_success h
      apply hempty.advance
      rintro rfl
      exact Or.inr ⟨errNotFound, rfl⟩
  | logout k =>
      cases h
      exact hempty
  | invalidate k =>
      cases h
      exact hempty
  | login v =>
      cases h
      exact hempty
  | tick t =>
      obtain ⟨-, rfl⟩ := tick_success h
      exact hempty

end Steps

section Runs

variable {S : Store} {cfg : Lifecycle} {sid : String}

/-- No step of the run is a login that creates `sid`. -/
def NoLogin (sid : String) (es : List Event) : Prop :=
  ∀ v, Event.login v ∈ es → v.id ≠ sid

theorem NoLogin.head
    {e : Event} {es : List Event} (h : NoLogin sid (e :: es)) :
    ∀ v, e = .login v → v.id ≠ sid := by
  rintro v rfl
  exact h v (by simp)

theorem NoLogin.tail
    {e : Event} {es : List Event} (h : NoLogin sid (e :: es)) :
    NoLogin sid es :=
  fun v hv => h v (by simp [hv])

/-- A deleted session stays deleted. -/
theorem absent_of_run
    {w w' : Shared S} {es : List Event}
    (habsent : S.stored w.store sid = false)
    (hlogin : NoLogin sid es)
    (hguard : Run.Guarded (sharedStep S cfg) (fun w e => touchFindsSession w e = true) w es)
    (hrun : Run.exec (sharedStep S cfg) w es = some w') :
    S.stored w'.store sid = false := by
  induction es generalizing w with
  | nil =>
      cases hrun
      exact habsent
  | cons e es ih =>
      obtain ⟨w₁, hstep, hrest⟩ := Run.exec_cons_success hrun
      have habsent₁ := absent_of_step hguard.1 hlogin.head hstep habsent
      exact ih habsent₁ hlogin.tail (hguard.2 w₁ hstep) hrest

/-- A call for a deleted session comes to nothing. -/
theorem empty_of_run
    {w w' : Shared S} {es : List Event} {i : Nat}
    (hempty : Empty w i sid)
    (habsent : S.stored w.store sid = false)
    (hlogin : NoLogin sid es)
    (hguard : Run.Guarded (sharedStep S cfg) (fun w e => touchFindsSession w e = true) w es)
    (hrun : Run.exec (sharedStep S cfg) w es = some w') :
    Empty w' i sid := by
  induction es generalizing w with
  | nil =>
      cases hrun
      exact hempty
  | cons e es ih =>
      obtain ⟨w₁, hstep, hrest⟩ := Run.exec_cons_success hrun
      have habsent₁ := absent_of_step hguard.1 hlogin.head hstep habsent
      exact ih (hempty.step habsent hstep) habsent₁ hlogin.tail (hguard.2 w₁ hstep) hrest

/-- **Deletion is final** in every run in which each `Put` that writes a session
back finds it still stored: a `Get` that starts after a completed deletion does
not return the session, unless a login creates it anew. -/
theorem deletion_final
    (S : Store) (cfg : Lifecycle) (w₀ w : Shared S)
    (before between after : List Event) (del : Event) (sid : String) (i : Nat)
    (hdel : del.deletes = some sid)
    (hlogin : NoLogin sid (between ++ after))
    (hguard :
      Run.Guarded (sharedStep S cfg) (fun w e => touchFindsSession w e = true) w₀
        (before ++ del :: (between ++ .start i sid :: after)))
    (hrun :
      Run.exec (sharedStep S cfg) w₀
        (before ++ del :: (between ++ .start i sid :: after)) = some w) :
    ∀ v, w.calls i ≠ .returned (.ok v) := by
  obtain ⟨w₁, hbefore, hrun₁⟩ := Run.exec_append_success hrun
  have hguard₁ := hguard.append_right hbefore
  obtain ⟨w₂, hstep₂, hrun₂⟩ := Run.exec_cons_success hrun₁
  have hguard₂ := hguard₁.2 w₂ hstep₂
  have habsent₂ : S.stored w₂.store sid = false := not_stored_of_deletes hdel hstep₂
  obtain ⟨w₃, hbetween, hrun₃⟩ := Run.exec_append_success hrun₂
  have hguard₃ := hguard₂.append_right hbetween
  obtain ⟨w₄, hstep₄, hafter⟩ := Run.exec_cons_success hrun₃
  have habsent₃ : S.stored w₃.store sid = false := by
    apply absent_of_run habsent₂ _ _ hbetween
    · exact fun v hv => hlogin v (List.mem_append_left _ hv)
    · exact hguard₂.append_left
  obtain ⟨-, rfl⟩ := start_success hstep₄
  have hempty : Empty (w₃.advance i w₃.store (.reading sid)) i sid := by
    left
    simp
  have hfinal : Empty w i sid :=
    empty_of_run hempty habsent₃ (fun v hv => hlogin v (List.mem_append_right _ hv))
      (hguard₃.2 _ hstep₄) hafter
  exact hfinal.not_ok

/-- A login, a `Get` that is about to write the session back. -/
def touchPending : List Event :=
  [.login exampleSession, .start 0 "sid", .nextGet 0, .tick 120000000001, .check 0]

/-- A store on which nothing has happened yet. -/
def quietShared : Shared memoryStore where
  store := MemoryState.empty
  now := 1
  calls _ := .idle

/-- The pending `Put` comes first: the session is gone after the logout. -/
theorem deletion_final_after_touch :
    ∃ w,
      Run.exec (sharedStep memoryStore exampleLifecycle) quietShared
          ((touchPending ++ [.nextPut 0]) ++
            .logout "sid" :: ([] ++ .start 1 "sid" :: [.nextGet 1])) = some w ∧
        w.calls 1 = .returned (.error errNotFound) ∧
        ∀ v, w.calls 1 ≠ .returned (.ok v) := by
  refine ⟨_, rfl, rfl, ?_⟩
  exact deletion_final memoryStore exampleLifecycle quietShared _ (touchPending ++ [.nextPut 0])
    [] [.nextGet 1] (.logout "sid") "sid" 1 rfl (by simp [NoLogin]) (by decide) rfl

/-- The logout comes first: the pending `Put` files the session again, and a
later `Get` returns it. -/
theorem deleted_session_returns :
    Event.deletes (.logout "sid") = some "sid" ∧
      NoLogin "sid" ([.nextPut 0] ++ [.nextGet 1, .check 1]) ∧
      ∃ w v,
        Run.exec (sharedStep memoryStore exampleLifecycle) quietShared
            (touchPending ++
              .logout "sid" :: ([.nextPut 0] ++ .start 1 "sid" :: [.nextGet 1, .check 1])) =
          some w ∧
        w.calls 1 = .returned (.ok v) :=
  ⟨rfl, by simp [NoLogin], _, _, rfl, rfl⟩

end Runs

section Sequential

variable {S : Store} {cfg : Lifecycle}

/-- The steps of a `Get` up to the answer of the underlying `Get`. -/
theorem exec_start_nextGet
    (cfg : Lifecycle) (w : Shared S) {i : Nat} (sid : String) (hidle : w.calls i = .idle) :
    ∃ w₁, Run.exec (sharedStep S cfg) w [.start i sid, .nextGet i] = some w₁ ∧
      w₁.store = (S.get w.store w.now sid).1 ∧
      w₁.now = w.now ∧
      w₁.calls i = afterRead sid (S.get w.store w.now sid).2 := by
  refine ⟨(w.advance i w.store (.reading sid)).advance i (S.get w.store w.now sid).1
    (afterRead sid (S.get w.store w.now sid).2), ?_, rfl, rfl, by simp⟩
  simp [Run.exec, sharedStep, hidle]

/-- **Without interruption the steps of a `Get` are `Lifecycle.get`**: the same
store and the same answer. -/
theorem get_uninterrupted
    (w : Shared S) (i : Nat) (sid : String) (hidle : w.calls i = .idle) :
    ∃ es w',
      (∀ e ∈ es, e.caller = some i) ∧
        Run.exec (sharedStep S cfg) w es = some w' ∧
        w'.store = (cfg.get S w.store w.now sid).1 ∧
        w'.calls i = .returned (cfg.get S w.store w.now sid).2 := by
  obtain ⟨w₁, hrun, hstore, hnow, hpc⟩ := exec_start_nextGet cfg w sid hidle
  have hext : ∀ {es w'}, Run.exec (sharedStep S cfg) w₁ es = some w' →
      Run.exec (sharedStep S cfg) w ([.start i sid, .nextGet i] ++ es) = some w' := by
    intro es w' hes
    rw [Run.exec_append, hrun]
    exact hes
  rcases Lifecycle.get_cases cfg S w.store w.now sid with
    ⟨e, hread, hget⟩ | ⟨v, hread, ⟨hcheck, hget⟩ | ⟨v', hcheck, hget⟩ | ⟨hcheck, hget⟩⟩
  · rw [hread] at hpc
    refine ⟨[.start i sid, .nextGet i], w₁, by simp [Event.caller], hrun, ?_, ?_⟩
    · rw [hget, hstore]
    · rw [hget, hpc]
      rfl
  · rw [hread] at hpc
    refine ⟨[.start i sid, .nextGet i] ++ [.check i, .nextDelete i sid],
      (w₁.advance i w₁.store (.deleting sid)).advance i (S.delete w₁.store sid)
        (.returned (.error errNotFound)), by simp [Event.caller], hext ?_, ?_, ?_⟩
    · simp [Run.exec, sharedStep, hpc, afterRead, afterCheck, hnow, hcheck]
    · rw [hget, ← hstore]
      rfl
    · rw [hget]
      simp
  · rw [hread] at hpc
    refine ⟨[.start i sid, .nextGet i] ++ [.check i, .nextPut i],
      (w₁.advance i w₁.store (.putting v')).advance i (S.put w₁.store w.now v').1
        (.returned ((S.put w₁.store w.now v').2.map fun _ => v')),
      by simp [Event.caller], hext ?_, ?_, ?_⟩
    · simp [Run.exec, sharedStep, hpc, afterRead, afterCheck, hnow, hcheck]
    · rw [hget, ← hstore]
      rfl
    · rw [hget, ← hstore]
      simp
  · rw [hread] at hpc
    refine ⟨[.start i sid, .nextGet i] ++ [.check i], w₁.advance i w₁.store (.returned (.ok v)),
      by simp [Event.caller], hext ?_, ?_, ?_⟩
    · simp [Run.exec, sharedStep, hpc, afterRead, afterCheck, hnow, hcheck]
    · rw [hget, ← hstore]
      rfl
    · rw [hget]
      simp

end Sequential

end Session
end GatewayRuntime
