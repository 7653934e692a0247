import GatewayRuntime.AccessToken

/-!
# Tokens after a logout

`Service.Logout` deletes the token set of its session without taking the refresh
lock.  A call that has already read its answer and the session's expiry may
still write the refreshed set (`tokens_survive_logout`).  In every run in which
no refreshed set is written after the deletion, a successful logout leaves no
token set behind, and later calls return no token (`logout_leaves_no_tokens`).
-/

namespace GatewayRuntime
namespace Token

/-- The logout has deleted the token set and has not failed. -/
def LogoutPc.deleted : LogoutPc → Bool
  | .deleteSession _ => true
  | .endSession _ => true
  | .returned (.ok _) => true
  | _ => false

section Steps

variable {T : Store} {S : Session.Store} {L : Locker} {c : Setting}
  {w w' : World T S L} {o : Outcome} {e : Event}

/-- A refreshed set is written only while the logout has not deleted the token
set. -/
def persistsBeforeDelete (w : World T S L) : Event → Bool
  | .call i .ok =>
      match w.calls i with
      | .persist _ _ _ => !w.logout.deleted
      | _ => true
  | _ => true

/-- A step of the logout moves no call, and a logout past its deletion has just
deleted the token set or was past it before. -/
theorem logoutStep_cases
    (hsid : c.sid ≠ "")
    (h : logoutStep c w o = some w') :
    w'.calls = w.calls ∧
      (w'.logout.deleted = true →
        w'.tokens = T.delete w.tokens c.sid ∨
          w.logout.deleted = true ∧ w'.tokens = w.tokens) := by
  refine ⟨(logoutStep_moved h).calls, ?_⟩
  cases logoutStep_effect h with
  | skip hempty =>
      exact absurd hempty hsid
  | start | fail =>
      simp [LogoutPc.deleted]
  | load | loadFault =>
      unfold afterLoad
      split
      · simp [LogoutPc.deleted]
      · split_ifs <;> simp [LogoutPc.deleted]
  | deleteTokens =>
      exact fun _ => Or.inl rfl
  | deleteSession hpc | endSession hpc =>
      rw [hpc]
      exact fun _ => Or.inr ⟨rfl, rfl⟩

/-- Only a write creates an entry. -/
theorem TokenEffect.not_stored
    {i : Nat} {tokens : T.State}
    (heffect : TokenEffect c w i tokens)
    (hnot : T.stored w.tokens c.sid = false)
    (hpersist : ∀ h fresh expiresAt, w.calls i ≠ .persist h fresh expiresAt) :
    T.stored tokens c.sid = false := by
  cases heffect with
  | unchanged =>
      exact hnot
  | read =>
      by_contra hstored
      rw [T.stored_of_get (Bool.of_not_eq_false hstored)] at hnot
      cases hnot
  | delete =>
      exact T.not_stored_delete
  | put hpc =>
      exact absurd hpc (hpersist _ _ _)

/-- **One step**: past the deletion of the token set no entry is stored. -/
theorem step_deleted
    (hsid : c.sid ≠ "")
    (hguard : persistsBeforeDelete w e = true)
    (hinv : w.logout.deleted = true → T.stored w.tokens c.sid = false)
    (h : step c w e = some w') :
    w'.logout.deleted = true → T.stored w'.tokens c.sid = false := by
  intro hdeleted
  cases e with
  | spawn i =>
      obtain ⟨-, rfl⟩ := spawn_success h
      exact hinv hdeleted
  | call i o =>
      obtain ⟨pc, hmoved⟩ := callStep_moved h
      rw [hmoved.logout] at hdeleted
      by_cases hpersist : ∃ k fresh expiresAt, w.calls i = .persist k fresh expiresAt
      · obtain ⟨k, fresh, expiresAt, hpc⟩ := hpersist
        have heffect := callStep_effect h
        rw [hpc] at heffect
        cases heffect with
        | persist =>
            simp [persistsBeforeDelete, hpc, hdeleted] at hguard
        | persistFault =>
            exact hinv hdeleted
      · push Not at hpersist
        exact hmoved.tokens.not_stored (hinv hdeleted) hpersist
  | logout o =>
      obtain ⟨-, hcases⟩ := logoutStep_cases hsid h
      rcases hcases hdeleted with htokens | ⟨hbefore, htokens⟩
      · rw [htokens]
        exact T.not_stored_delete
      · rw [htokens]
        exact hinv hbefore
  | tick t =>
      obtain ⟨-, rfl⟩ := tick_success h
      exact hinv hdeleted
  | expireLock =>
      obtain ⟨lock, -, rfl⟩ := expireLock_success h
      exact hinv hdeleted

end Steps

section After

variable {T : Store} {S : Session.Store} {L : Locker} {c : Setting}
  {w w' : World T S L} {e : Event} {i : Nat}

/-- A call that has not begun, is about to read, or has returned. -/
def Pc.settled : Pc → Bool
  | .idle => true
  | .start => true
  | .done _ => true
  | _ => false

/-- The logout is over, nothing is stored and no call is under way; call `i` has
returned no token. -/
structure Quiet (c : Setting) (w : World T S L) (i : Nat) : Prop where
  ended : ∃ result, w.logout = .returned result
  absent : T.stored w.tokens c.sid = false
  settled : ∀ j, (w.calls j).settled = true
  failed : ∀ token, w.calls i ≠ .done (.ok token)

/-- A call that reads while nothing is stored returns an error. -/
theorem callStep_of_settled
    {j : Nat} {o : Outcome}
    (hsettled : (w.calls j).settled = true)
    (habsent : T.stored w.tokens c.sid = false)
    (h : callStep c w j o = some w') :
    ∃ err, w'.calls = Function.update w.calls j (.done (.error err)) := by
  have heffect := callStep_effect h
  clear h
  generalize w.calls j = pc at heffect hsettled
  cases heffect with
  | firstGet =>
      rw [T.get_of_not_stored w.now habsent]
      exact ⟨errNotFound, rfl⟩
  | firstGetFault =>
      exact ⟨_, rfl⟩
  | _ =>
      simp [Pc.settled] at hsettled

/-- Moving a call to a settled place without a token keeps the rest. -/
theorem Quiet.update
    {j : Nat} {pc : Pc}
    (hq : Quiet c w i)
    (hpc : pc.settled = true)
    (hno : ∀ token, pc ≠ .done (.ok token))
    (hlogout : w'.logout = w.logout)
    (htokens : T.stored w'.tokens c.sid = false)
    (hcalls : w'.calls = Function.update w.calls j pc) :
    Quiet c w' i := by
  refine ⟨by rw [hlogout]; exact hq.ended, htokens, ?_, ?_⟩
  · intro k
    rw [hcalls]
    by_cases hk : k = j
    · subst hk
      simpa using hpc
    · rw [Function.update_of_ne hk]
      exact hq.settled k
  · intro token
    rw [hcalls]
    by_cases hi : i = j
    · subst hi
      simpa using hno token
    · rw [Function.update_of_ne hi]
      exact hq.failed token

/-- One step keeps the quiet after a logout. -/
theorem Quiet.step
    (hq : Quiet c w i)
    (h : step c w e = some w') :
    Quiet c w' i := by
  cases e with
  | spawn j =>
      obtain ⟨-, rfl⟩ := spawn_success h
      refine hq.update ?_ ?_ rfl hq.absent rfl
      · unfold entry
        split_ifs <;> rfl
      · unfold entry
        split_ifs <;> simp
  | call j o =>
      obtain ⟨pc, hmoved⟩ := callStep_moved h
      obtain ⟨err, hcalls⟩ := callStep_of_settled (hq.settled j) hq.absent h
      refine hq.update rfl (by simp) hmoved.logout ?_ hcalls
      apply hmoved.tokens.not_stored hq.absent
      intro k fresh expiresAt hpc
      have hbad := hq.settled j
      rw [hpc] at hbad
      cases hbad
  | logout o =>
      obtain ⟨result, hended⟩ := hq.ended
      simp [Token.step, logoutStep, hended] at h
  | tick t =>
      obtain ⟨-, rfl⟩ := tick_success h
      exact ⟨hq.ended, hq.absent, hq.settled, hq.failed⟩
  | expireLock =>
      obtain ⟨lock, -, rfl⟩ := expireLock_success h
      exact ⟨hq.ended, hq.absent, hq.settled, hq.failed⟩

end After

section Runs

variable {T : Store} {S : Session.Store} {L : Locker}

theorem Finished.settled {w : World T S L} (h : Finished w) (i : Nat) :
    (w.calls i).settled = true := by
  rcases h i with hi | ⟨result, hi⟩
  · rw [hi]
    rfl
  · rw [hi]
    rfl

/-- No tokens are left after a logout: the store holds no entry, and no call made
later returns a token. -/
def NoTokensLeft (c : Setting) (w : World T S L) : Prop :=
  T.stored w.tokens c.sid = false ∧
    ∀ es w' i token,
      w.calls i = .idle → Run.exec (step c) w es = some w' → w'.calls i ≠ .done (.ok token)

/-- **Logout leaves no tokens** in every run in which no refreshed set is written
after the logout has deleted the token set. -/
theorem logout_leaves_no_tokens
    (T : Store) (S : Session.Store) (L : Locker) (c : Setting) (hsid : c.sid ≠ "")
    (w₀ w : World T S L) (es : List Event) (url : String)
    (hstart : w₀.logout = .notCalled)
    (hguard : Run.Guarded (step c) (fun w e => persistsBeforeDelete w e = true) w₀ es)
    (hrun : Run.exec (step c) w₀ es = some w)
    (hreturned : w.logout = .returned (.ok url))
    (hfinished : Finished w) :
    NoTokensLeft c w := by
  have hinv : w.logout.deleted = true → T.stored w.tokens c.sid = false := by
    refine Run.invariant_of_guarded
      (I := fun w : World T S L => w.logout.deleted = true → T.stored w.tokens c.sid = false)
      ?_ ?_ hguard hrun
    · intro s e s' hs hg hstep
      exact step_deleted hsid hg hs hstep
    · intro hdeleted
      rw [hstart] at hdeleted
      cases hdeleted
  have habsent : T.stored w.tokens c.sid = false := by
    apply hinv
    rw [hreturned]
    rfl
  refine ⟨habsent, ?_⟩
  intro es' w' i token hidle hrun'
  have hquiet : Quiet c w i := by
    refine ⟨⟨_, hreturned⟩, habsent, hfinished.settled, ?_⟩
    intro token' hdone
    rw [hidle] at hdone
    cases hdone
  have hquiet' : Quiet c w' i :=
    Run.exec_invariant (I := fun s => Quiet c s i) (fun _ _ _ hs hstep => hs.step hstep)
      hquiet hrun'
  exact hquiet'.failed token

/-- A refresh that ends before the logout begins. -/
theorem logout_after_refresh :
    ∃ w,
      Run.exec (step sampleSetting) memoryWorld
          (refreshStarts 0 ++ refreshAnswered 0 ++ refreshEnds 0 ++ logoutSteps) = some w ∧
        w.calls 0 = .done (.ok "access-1") ∧
        NoTokensLeft sampleSetting w := by
  obtain ⟨w, hrun, hcall, hlogout⟩ :
      ∃ w,
        Run.exec (step sampleSetting) memoryWorld
            (refreshStarts 0 ++ refreshAnswered 0 ++ refreshEnds 0 ++ logoutSteps) = some w ∧
          w.calls 0 = .done (.ok "access-1") ∧
          w.logout = .returned (.ok "/") :=
    ⟨_, rfl, rfl, rfl⟩
  have hfinished : Finished w := by
    apply finished_of_run (fun _ => rfl) hrun
    intro i hi
    obtain rfl : i = 0 := by
      simpa [refreshStarts, refreshAnswered, refreshEnds, logoutSteps] using hi
    exact ⟨_, hcall⟩
  exact ⟨w, hrun, hcall,
    logout_leaves_no_tokens memoryStore Session.memoryStore memoryLocker sampleSetting
      (by decide) memoryWorld w _ "/" rfl (by decide) hrun hlogout hfinished⟩

/-- A whole logout between the reading of the session's expiry and the writing of
the refreshed set: the logout succeeds, the call ends, the refreshed set is
stored, and a later call returns its access token. -/
theorem tokens_survive_logout :
    sampleSetting.sid ≠ "" ∧ memoryWorld.logout = .notCalled ∧
      ∃ w,
        Run.exec (step sampleSetting) memoryWorld
            (refreshStarts 0 ++ refreshAnswered 0 ++ logoutSteps ++ refreshEnds 0) = some w ∧
          w.logout = .returned (.ok "/") ∧
          Finished w ∧
          memoryStore.stored w.tokens "sid" = true ∧
          ¬NoTokensLeft sampleSetting w := by
  obtain ⟨w, w', hrun, hcall, hlogout, hstored, hidle, hrun', hcall'⟩ :
      ∃ w w',
        Run.exec (step sampleSetting) memoryWorld
            (refreshStarts 0 ++ refreshAnswered 0 ++ logoutSteps ++ refreshEnds 0) = some w ∧
          w.calls 0 = .done (.ok "access-1") ∧
          w.logout = .returned (.ok "/") ∧
          memoryStore.stored w.tokens "sid" = true ∧
          w.calls 1 = .idle ∧
          Run.exec (step sampleSetting) w [.spawn 1, .call 1 .ok, .call 1 .ok] = some w' ∧
          w'.calls 1 = .done (.ok "access-1") :=
    ⟨_, _, rfl, rfl, rfl, rfl, rfl, rfl, rfl⟩
  refine ⟨by decide, rfl, w, hrun, hlogout, ?_, hstored, ?_⟩
  · apply finished_of_run (fun _ => rfl) hrun
    intro i hi
    obtain rfl : i = 0 := by
      simpa [refreshStarts, refreshAnswered, refreshEnds, logoutSteps] using hi
    exact ⟨_, hcall⟩
  · rintro ⟨-, hlater⟩
    exact hlater _ w' 1 "access-1" hidle hrun' hcall'

end Runs

end Token
end GatewayRuntime
