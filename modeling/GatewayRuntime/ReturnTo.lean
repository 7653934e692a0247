import GatewayRuntime.Lib.Redirect
import GatewayRuntime.LoginOnce

/-!
# Where a login returns to

`Handler.callback` of `internal/auth/http.go` redirects the browser to the `return_to`
with which the login was started.  `StartLogin` accepts it by what `url.Parse` finds in
it (`safeLocalReturnTo_iff`), and every result of a callback carries an accepted one
(`returnTo_accepted`).

What is accepted need not start with a slash, and a browser takes a backslash for a
slash.  `login_redirects_local_iff` says which of the accepted addresses keep the
browser at the origin of the application.
-/

namespace GatewayRuntime
namespace Auth

open GoUrl

section Accepted

theorem hasPrefix_slash_iff (v : String) :
    GoText.hasPrefix v "/" = true ↔ v.toList.head? = some '/' := by
  unfold GoText.hasPrefix
  cases v.toList with
  | nil => simp
  | cons c rest => simpa using eq_comm

/-- `safeLocalReturnTo`, by the parts that `url.Parse` finds. -/
theorem safeLocalReturnTo_iff (v : String) :
    safeLocalReturnTo v = true ↔
      ∃ ref, parse v = some ref ∧ ref.scheme = "" ∧ ref.host = "" ∧
        ref.url.path.toList.head? = some '/' ∧ GoText.hasPrefix v "//" = false := by
  unfold safeLocalReturnTo
  cases parse v with
  | none => simp
  | some ref => simp [← hasPrefix_slash_iff, and_assoc]

/-- The address of a login that has not been issued yet. -/
def Pc.pending : Pc → Option String
  | .draw returnTo => some returnTo
  | .readClock _ _ _ returnTo => some returnTo
  | .putFlow flow => some flow.returnTo
  | _ => none

/-- Only accepted addresses are pending or issued. -/
structure Accepts {F : Flow.Store} (w : World F) : Prop where
  pending : ∀ i v, (w.calls i).pending = some v → safeLocalReturnTo v = true
  issued : ∀ f ∈ w.issued, safeLocalReturnTo f.returnTo = true

variable {F : Flow.Store} {svc : Service}

theorem Accepts.move
    {w w₁ : World F} (h : Accepts w) {i : Nat} {pc : Pc}
    (hcalls : w₁.calls = w.calls)
    (hissued : ∀ f ∈ w₁.issued, safeLocalReturnTo f.returnTo = true)
    (hpc : ∀ v, pc.pending = some v → safeLocalReturnTo v = true) :
    Accepts (w₁.goto i pc) where
  pending j v hv := by
    by_cases hj : j = i
    · subst hj
      simp only [World.goto, Function.update_self] at hv
      exact hpc v hv
    · simp only [World.goto, Function.update_of_ne hj, hcalls] at hv
      exact h.pending j v hv
  issued := hissued

theorem Accepts.leave
    {w : World F} (h : Accepts w) (i : Nat) {pc : Pc}
    (hpc : pc.pending = none) :
    Accepts (w.goto i pc) :=
  h.move rfl h.issued fun v hv => by rw [hpc] at hv; cases hv

theorem beginLogin_pending
    {returnTo v : String} (h : (beginLogin svc returnTo).pending = some v) :
    safeLocalReturnTo v = true := by
  unfold beginLogin at h
  simp only at h
  split_ifs at h with _ hempty hsafe hsafe
  · cases h
  · cases h
    exact hsafe
  · cases h
  · cases h
    exact hsafe
  · cases h

theorem accepts_callStep
    {w w' : World F} {i : Nat} {input : Input}
    (h : Accepts w) (hstep : callStep svc w i input = some w') :
    Accepts w' := by
  unfold callStep at hstep
  split at hstep <;> try cases hstep
  · exact h.move rfl h.issued fun v => beginLogin_pending
  · unfold beginCallback
    split_ifs <;> exact h.leave i rfl
  · exact h.leave i rfl
  · next hpc =>
      split_ifs at hstep
      cases hstep
      exact h.move rfl h.issued fun v hv => h.pending i v (by rw [hpc]; exact hv)
  · next hpc =>
      exact h.move rfl h.issued fun v hv => h.pending i v (by rw [hpc]; exact hv)
  · exact h.leave i rfl
  · next flow hpc =>
      split at hstep
      · cases hstep
        exact h.move rfl h.issued (by nofun)
      · cases hstep
        refine h.move rfl ?_ (by nofun)
        intro f hf
        rcases List.mem_cons.mp hf with rfl | hf
        · exact h.pending i _ (by rw [hpc]; rfl)
        · exact h.issued f hf
  · exact h.move rfl h.issued (by nofun)
  · exact h.leave i rfl
  · exact h.move rfl h.issued (by nofun)
  · next found _ _ =>
      cases Flow.check w.now found with
      | error e => exact h.leave i rfl
      | ok flow => exact h.leave i rfl
  · exact h.move rfl h.issued (by nofun)
  · next r _ =>
      cases r with
      | error e => exact h.leave i rfl
      | ok result =>
          unfold afterExchange
          simp only
          split_ifs <;> exact h.leave i rfl
  · exact h.leave i rfl
  · split_ifs at hstep
    cases hstep
    exact h.move rfl h.issued (by nofun)
  · exact h.leave i rfl
  · exact h.leave i rfl
  · exact h.move rfl h.issued (by nofun)
  · exact h.leave i rfl
  · exact h.leave i rfl
  · exact h.leave i rfl
  · exact h.leave i rfl

theorem accepts_step
    {w w' : World F} {e : Event}
    (h : Accepts w) (hstep : step svc w e = some w') :
    Accepts w' := by
  cases e with
  | call i input => exact accepts_callStep h hstep
  | tick t =>
      simp only [step] at hstep
      split_ifs at hstep
      cases hstep
      exact ⟨h.pending, h.issued⟩

/-- In every run over a flow store that was empty at the start, the result of a callback
carries an address that `StartLogin` has accepted. -/
theorem returnTo_accepted
    {start : Int} {flows : F.State} (hempty : ∀ k f, ¬F.holds flows k f)
    {events : List Event} {w : World F}
    (hrun : Run.exec (step svc) (World.initial start flows) events = some w)
    {i : Nat} {r : CallbackResult} (hdone : w.calls i = .callbackDone (.ok r)) :
    safeLocalReturnTo r.returnTo = true := by
  have hinv : Inv svc w :=
    Run.exec_invariant (I := Inv svc) (fun _ _ _ h hstep => inv_step h hstep)
      (inv_initial start hempty) hrun
  have haccepts : Accepts w :=
    Run.exec_invariant (I := Accepts) (fun _ _ _ h hstep => accepts_step h hstep)
      ⟨by nofun, by nofun⟩ hrun
  have hresult := hinv.genuine.calls i
  rw [hdone] at hresult
  obtain ⟨s, hs, -, hreturnTo⟩ := hresult
  obtain ⟨⟨f, hf, heq⟩, -⟩ := hinv.genuine.sessions s hs
  have hsafe := haccepts.issued f hf
  rwa [← hreturnTo, heq]

end Accepted

section Local

/-- The `Location` of `Handler.callback`; a callback that fails has none. -/
def callbackLocation : Except Err CallbackResult → Option String
  | .error _ => none
  | .ok r => some (Redirect.location "/auth/callback" r.returnTo)

/-- The address starts with exactly one slash, and so does what the browser reads of the
`Location`. -/
def LocalReturn (v : String) : Prop :=
  Redirect.StaysLocal v.toList ∧
    Redirect.StaysLocal (Redirect.seen (Redirect.location "/auth/callback" v).toList)

/-- An address that starts with a slash, not followed by a backslash, and whose cleaned path
does not open with one. -/
structure PlainReturn (v : String) : Prop where
  rooted : v.toList.head? = some '/'
  second : v.toList.tail.head? ≠ some '\\'
  opens : Redirect.OpensPlain (Redirect.elements v.toList) (Redirect.hasTrailingSlash v.toList)

theorem localReturn_iff
    {v : String} (h : safeLocalReturnTo v = true) :
    LocalReturn v ↔ PlainReturn v := by
  obtain ⟨ref, hparse, hscheme, hhost, -, hone⟩ := (safeLocalReturnTo_iff v).mp h
  have hlocation (hrooted : v.toList.head? = some '/') :
      Redirect.StaysLocal (Redirect.seen (Redirect.location "/auth/callback" v).toList) ↔
        Redirect.OpensPlain (Redirect.elements v.toList)
          (Redirect.hasTrailingSlash v.toList) := by
    obtain ⟨l, hl⟩ := List.head?_eq_some_iff.mp hrooted
    rw [hl]
    refine Redirect.staysLocal_location_iff hparse hscheme hhost ?_
    rw [Redirect.absolute, if_pos hrooted, hl]
  constructor
  · rintro ⟨⟨hrooted, -, hsecond⟩, hlocal⟩
    exact ⟨hrooted, hsecond, (hlocation hrooted).mp hlocal⟩
  · rintro ⟨hrooted, hsecond, hopens⟩
    refine ⟨⟨hrooted, ?_, hsecond⟩, (hlocation hrooted).mpr hopens⟩
    intro hslash
    obtain ⟨l, hl⟩ := List.head?_eq_some_iff.mp hrooted
    rw [hl, List.tail_cons] at hslash
    obtain ⟨l', rfl⟩ := List.head?_eq_some_iff.mp hslash
    simp [GoText.hasPrefix, hl] at hone

/-- **Login redirects.**  An accepted address keeps the browser at the origin of the
application exactly when it is plain; and the `Location` of a callback is that of an
accepted address. -/
theorem login_redirects_local_iff (svc : Service) (F : Flow.Store) :
    (∀ v, safeLocalReturnTo v = true → (LocalReturn v ↔ PlainReturn v)) ∧
    ∀ (start : Int) (flows : F.State), (∀ k f, ¬F.holds flows k f) →
      ∀ (events : List Event) (w : World F),
        Run.exec (step svc) (World.initial start flows) events = some w →
        ∀ i result location, w.calls i = .callbackDone result →
          callbackLocation result = some location →
            ∃ v, safeLocalReturnTo v = true ∧
              location = Redirect.location "/auth/callback" v := by
  refine ⟨fun v hv => localReturn_iff hv, ?_⟩
  intro start flows hempty events w hrun i result location hdone hlocation
  cases result with
  | error e => cases hlocation
  | ok r =>
      have hreturn := returnTo_accepted hempty hrun hdone
      exact ⟨r.returnTo, hreturn, (Option.some.inj hlocation).symm⟩

section Sample

def returnService : Service :=
  ⟨true, true, "https://gw/callback", 0, 0, id⟩

/-- A login that returns to `v`, and its callback. -/
def returningTo (v : String) : List Event :=
  [.call 0 (.login v), .call 0 (.random "s" "n" "v"), .call 0 .ok, .call 0 .ok,
    .call 0 (.url (.ok "https://idp/authorize")),
    .call 1 (.callback "s" "c"), .call 1 .ok, .call 1 .ok, .call 1 .ok,
    .call 1 (.answer (.ok ⟨⟨"alice", "idp", "", "", "", []⟩, ⟨"a", "r", "i", 0⟩⟩)),
    .call 1 (.randomID "sid"), .call 1 .ok, .call 1 .ok, .call 1 .ok]

theorem login_redirects_local_plain :
    LocalReturn "/orders/../cart?tab=1" ∧
      Redirect.location "/auth/callback" "/orders/../cart?tab=1" = "/cart?tab=1" := by
  have hsafe : safeLocalReturnTo "/orders/../cart?tab=1" = true := by decide +kernel
  refine ⟨((login_redirects_local_iff returnService Flow.memoryStore).1 _ hsafe).mpr ?_, ?_⟩
  · exact ⟨by decide +kernel, by decide +kernel, by decide +kernel⟩
  · decide +kernel

/-- A backslash after the slash is accepted and sent, and so is one that the cleaning of the
path brings to its start. -/
theorem backslash_leaves_origin :
    (∃ w r,
      Run.exec (step returnService) (World.initial 1 Flow.MemoryState.empty)
          (returningTo "/\\evil.example") = some (w : World Flow.memoryStore) ∧
        w.calls 1 = .callbackDone (.ok r) ∧
        callbackLocation (.ok r) = some "/\\evil.example" ∧
        safeLocalReturnTo r.returnTo = true ∧ ¬LocalReturn r.returnTo) ∧
    safeLocalReturnTo "/x/../\\evil.example" = true ∧
    Redirect.StaysLocal "/x/../\\evil.example".toList ∧
    Redirect.location "/auth/callback" "/x/../\\evil.example" = "/\\evil.example" := by
  have hsafe : safeLocalReturnTo "/\\evil.example" = true := by decide +kernel
  have hlocation : Redirect.location "/auth/callback" "/\\evil.example" = "/\\evil.example" := by
    decide +kernel
  have hleaves : ¬Redirect.StaysLocal "/\\evil.example".toList := by decide +kernel
  obtain ⟨w, r, hrun, hdone, hreturn⟩ :
      ∃ w r,
        Run.exec (step returnService) (World.initial 1 Flow.MemoryState.empty)
            (returningTo "/\\evil.example") = some (w : World Flow.memoryStore) ∧
          w.calls 1 = .callbackDone (.ok r) ∧ r.returnTo = "/\\evil.example" :=
    ⟨_, _, rfl, rfl, rfl⟩
  refine ⟨⟨w, r, hrun, hdone, ?_, hreturn ▸ hsafe, ?_⟩, ?_, ?_, ?_⟩
  · rw [callbackLocation, hreturn, hlocation]
  · rw [hreturn]
    exact fun hlocal => hleaves hlocal.1
  · decide +kernel
  · decide +kernel
  · decide +kernel

end Sample

end Local

end Auth
end GatewayRuntime
