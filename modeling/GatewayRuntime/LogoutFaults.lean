import GatewayRuntime.AccessToken

/-!
# Logout with failing stores

`Service.Logout` as one call that nothing interrupts.  Each of its three store
operations may fail, and then has no effect; what `EndSessionURL` answers is
arbitrary.  `logout_runs` says that the steps of `AccessToken` compute this function.

The token set goes before the session, so a call that stops half way leaves a
session without tokens, never tokens without a session, and can be repeated
(`logout_under_faults`).
-/

namespace GatewayRuntime
namespace Token

section Model

/-- Which operations of a logout fail, and what the identity provider answers. -/
structure LogoutFaults where
  load : Option Err
  deleteTokens : Option Err
  deleteSession : Option Err
  endSession : (idToken : String) → Except Err String

/-- The id token that `Logout` goes on with, or the error that it returns. -/
def loadedIdToken : Except Err TokenSet → Except Err String
  | .ok ts => .ok ts.idToken
  | .error e =>
      if GoError.is e .tokenNotFound then .ok ""
      else .error (.wrap "load logout token: " "" e)

variable (T : Store) (S : Session.Store)

/-- `Service.Logout`, with both stores configured. -/
def logout (req : LogoutRequest) (faults : LogoutFaults) (now : Int) (sid : String)
    (tokens : T.State) (sessions : S.State) : (T.State × S.State) × Except Err String :=
  if sid = "" then ((tokens, sessions), .ok req.logoutReturn)
  else
    let loaded := withFault faults.load tokens (T.get tokens now sid)
    match loadedIdToken loaded.2 with
    | .error e => ((loaded.1, sessions), .error e)
    | .ok idToken =>
        match faults.deleteTokens with
        | some e => ((loaded.1, sessions), .error (.wrap "delete logout token: " "" e))
        | none =>
            let tokens := T.delete loaded.1 sid
            match faults.deleteSession with
            | some e => ((tokens, sessions), .error (.wrap "delete session: " "" e))
            | none =>
                let sessions := S.delete sessions sid
                if req.global = true ∧ idToken ≠ "" then
                  ((tokens, sessions), faults.endSession idToken)
                else ((tokens, sessions), .ok req.logoutReturn)

/-- The stores are healthy and `EndSessionURL` works. -/
structure LogoutFaults.Healthy (faults : LogoutFaults) : Prop where
  load : faults.load = none
  deleteTokens : faults.deleteTokens = none
  deleteSession : faults.deleteSession = none
  endSession : ∀ idToken, ∃ url, faults.endSession idToken = .ok url

end Model

section Exits

/-- **The exits of a logout.**  Before the deletion of the tokens nothing has
changed but what the read has dropped; after it the session is still there, or gone
as well. -/
inductive LogoutExit (T : Store) (S : Session.Store) (sid : String) (before : S.State) :
    (T.State × S.State) × Except Err String → Prop
  | early {tokens : T.State} {e : Err} :
      LogoutExit T S sid before ((tokens, before), .error e)
  | tokensDeleted {tokens : T.State} {e : Err} :
      LogoutExit T S sid before ((T.delete tokens sid, before), .error e)
  | bothDeleted {tokens : T.State} {result : Except Err String} :
      LogoutExit T S sid before ((T.delete tokens sid, S.delete before sid), result)

variable {T : Store} {S : Session.Store} {sid : String} (req : LogoutRequest)
  (faults : LogoutFaults) (now : Int) (tokens : T.State) (sessions : S.State)

theorem logout_exit (hsid : sid ≠ "") :
    LogoutExit T S sid sessions (logout T S req faults now sid tokens sessions) := by
  unfold logout
  rw [if_neg hsid]
  dsimp only
  cases loadedIdToken (withFault faults.load tokens (T.get tokens now sid)).2 with
  | error e => exact .early
  | ok idToken =>
      cases faults.deleteTokens with
      | some e => exact .early
      | none =>
          cases faults.deleteSession with
          | some e => exact .tokensDeleted
          | none =>
              dsimp only
              split_ifs
              · exact .bothDeleted
              · exact .bothDeleted

/-- A healthy read never makes a logout fail. -/
theorem loadedIdToken_get (sid : String) :
    ∃ idToken, loadedIdToken (T.get tokens now sid).2 = .ok idToken := by
  rw [T.get_result]
  cases T.value tokens now sid with
  | none => exact ⟨"", rfl⟩
  | some ts => exact ⟨ts.idToken, rfl⟩

variable {faults} in
/-- With healthy stores a logout succeeds, whatever the stores hold. -/
theorem logout_healthy
    (h : faults.Healthy)
    (hsid : sid ≠ "") :
    ∃ tokens' url,
      logout T S req faults now sid tokens sessions =
        ((T.delete tokens' sid, S.delete sessions sid), .ok url) := by
  obtain ⟨idToken, hload⟩ := loadedIdToken_get now tokens sid
  obtain ⟨url, hurl⟩ := h.endSession idToken
  unfold logout
  rw [if_neg hsid, h.load, h.deleteTokens, h.deleteSession]
  simp only [withFault, hload]
  by_cases hglobal : req.global = true ∧ idToken ≠ ""
  · exact ⟨_, url, by rw [if_pos hglobal, hurl]⟩
  · exact ⟨_, req.logoutReturn, by rw [if_neg hglobal]⟩

end Exits

section Steps

variable {T : Store} {S : Session.Store} {L : Locker} {c : Setting}

/-- How an operation with this fault ends. -/
def outcomeOf : Option Err → Outcome
  | none => .ok
  | some e => .fault e

theorem apply_outcomeOf
    {σ α : Type} (fault : Option Err) (before : σ) (normal : σ × Except Err α) :
    (outcomeOf fault).apply before normal = some (withFault fault before normal) := by
  cases fault <;> rfl

theorem afterLoad_eq (r : Except Err TokenSet) :
    afterLoad r =
      match loadedIdToken r with
      | .error e => .returned (.error e)
      | .ok idToken => .deleteTokens idToken := by
  cases r with
  | ok ts => rfl
  | error e =>
      simp only [afterLoad, loadedIdToken]
      split_ifs <;> rfl

/-- The steps of a logout that nothing interrupts compute `logout`. -/
theorem logout_runs
    (w : World T S L) (faults : LogoutFaults)
    (hsid : c.sid ≠ "")
    (hpc : w.logout = .notCalled) :
    ∃ outcomes, Run.exec (logoutStep c) w outcomes = some
      { w with
        tokens := (logout T S c.request faults w.now c.sid w.tokens w.sessions).1.1
        sessions := (logout T S c.request faults w.now c.sid w.tokens w.sessions).1.2
        logout := .returned (logout T S c.request faults w.now c.sid w.tokens w.sessions).2 } := by
  unfold logout
  rw [if_neg hsid]
  dsimp only
  have hload := apply_outcomeOf faults.load w.tokens (T.get w.tokens w.now c.sid)
  generalize withFault faults.load w.tokens (T.get w.tokens w.now c.sid) = loaded at hload ⊢
  have hafter := afterLoad_eq loaded.2
  cases hid : loadedIdToken loaded.2 with
  | error e =>
      refine ⟨[.ok, outcomeOf faults.load], ?_⟩
      simp [Run.exec, logoutStep, hpc, hsid, hload, hafter, hid]
  | ok idToken =>
      cases faults.deleteTokens with
      | some e =>
          refine ⟨[.ok, outcomeOf faults.load, .fault e], ?_⟩
          simp [Run.exec, logoutStep, hpc, hsid, hload, hafter, hid]
      | none =>
          cases faults.deleteSession with
          | some e =>
              refine ⟨[.ok, outcomeOf faults.load, .ok, .fault e], ?_⟩
              simp [Run.exec, logoutStep, hpc, hsid, hload, hafter, hid]
          | none =>
              by_cases hglobal : c.request.global = true ∧ idToken ≠ ""
              · refine ⟨[.ok, outcomeOf faults.load, .ok, .ok, .url (faults.endSession idToken)], ?_⟩
                simp [Run.exec, logoutStep, hpc, hsid, hload, hafter, hid, afterSessionDeleted,
                  hglobal]
              · refine ⟨[.ok, outcomeOf faults.load, .ok, .ok], ?_⟩
                simp [Run.exec, logoutStep, hpc, hsid, hload, hafter, hid, afterSessionDeleted,
                  hglobal]

end Steps

section Law

/-- **Logout under store faults.**  Success means that neither the token set nor the
session is stored; an error leaves the session as it was, or no token set; and
whatever a logout leaves, a later one with healthy stores succeeds and leaves
neither. -/
theorem logout_under_faults
    (T : Store) (S : Session.Store) (sid : String) (hsid : sid ≠ "")
    (req req' : LogoutRequest) (faults faults' : LogoutFaults) (now now' : Int)
    (tokens tokens₁ : T.State) (sessions sessions₁ : S.State) (result : Except Err String)
    (h : logout T S req faults now sid tokens sessions = ((tokens₁, sessions₁), result)) :
    (∀ url, result = .ok url → T.stored tokens₁ sid = false ∧ S.stored sessions₁ sid = false) ∧
      (∀ e, result = .error e →
        sessions₁ = sessions ∨
          sessions₁ = S.delete sessions sid ∧ T.stored tokens₁ sid = false) ∧
      (faults'.Healthy →
        ∃ tokens₂ sessions₂ url,
          logout T S req' faults' now' sid tokens₁ sessions₁ =
            ((tokens₂, sessions₂), .ok url) ∧
          T.stored tokens₂ sid = false ∧ S.stored sessions₂ sid = false) := by
  have hexit := logout_exit req faults now tokens sessions hsid
  rw [h] at hexit
  refine ⟨?_, ?_, ?_⟩
  · rintro url rfl
    cases hexit with
    | bothDeleted => exact ⟨T.not_stored_delete, S.not_stored_delete⟩
  · rintro e rfl
    cases hexit with
    | early => exact Or.inl rfl
    | tokensDeleted => exact Or.inl rfl
    | bothDeleted => exact Or.inr ⟨rfl, T.not_stored_delete⟩
  · intro hhealthy
    obtain ⟨tokens', url, hlogout⟩ := logout_healthy req' now' tokens₁ sessions₁ hhealthy hsid
    exact ⟨_, _, url, hlogout, T.not_stored_delete, S.not_stored_delete⟩

/-- The parts of `logout_under_faults` for a logout whose session store fails. -/
theorem logout_under_faults_retried :
    ∃ tokens₁ sessions₁ e tokens₂ sessions₂ url,
      logout memoryStore Session.memoryStore ⟨true, "/"⟩
          ⟨none, none, some (.text "redis down"), fun _ => .ok ""⟩ 0 "sid"
          memoryWorld.tokens memoryWorld.sessions =
        ((tokens₁, sessions₁), .error e) ∧
      Session.memoryStore.stored sessions₁ "sid" = true ∧
      logout memoryStore Session.memoryStore ⟨false, "/"⟩
          ⟨none, none, none, fun _ => .ok "https://idp.example.com/logout"⟩ 7 "sid"
          tokens₁ sessions₁ =
        ((tokens₂, sessions₂), .ok url) ∧
      memoryStore.stored tokens₂ "sid" = false ∧
      Session.memoryStore.stored sessions₂ "sid" = false := by
  obtain ⟨tokens₁, sessions₁, e, hfailed, hkept⟩ :
      ∃ tokens₁ sessions₁ e,
        logout memoryStore Session.memoryStore ⟨true, "/"⟩
            ⟨none, none, some (.text "redis down"), fun _ => .ok ""⟩ 0 "sid"
            memoryWorld.tokens memoryWorld.sessions =
          ((tokens₁, sessions₁), .error e) ∧
        Session.memoryStore.stored sessions₁ "sid" = true :=
    ⟨_, _, _, rfl, rfl⟩
  obtain ⟨-, -, hretry⟩ := logout_under_faults memoryStore Session.memoryStore "sid" (by decide)
    _ ⟨false, "/"⟩ _ ⟨none, none, none, fun _ => .ok "https://idp.example.com/logout"⟩ _ 7
    _ _ _ _ _ hfailed
  obtain ⟨tokens₂, sessions₂, url, hdone, htokens, hsessions⟩ :=
    hretry ⟨rfl, rfl, rfl, fun _ => ⟨_, rfl⟩⟩
  exact ⟨tokens₁, sessions₁, e, tokens₂, sessions₂, url, hfailed, hkept, hdone, htokens, hsessions⟩

end Law

end Token
end GatewayRuntime
