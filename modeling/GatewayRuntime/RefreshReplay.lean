import GatewayRuntime.SingleFlight

/-!
# A rotated refresh token is not presented again

The identity provider rotates a refresh token when it answers a `RefreshTokens` call
with a different one.  The ledger of a run records which refresh tokens were presented
and which were rotated away.

Behind the memory lock one call at a time works on the stored set.  From the answer on
until the refreshed set is written, or the set is deleted, the store may hold a token
that has been rotated away; the call that got the answer is *settling*.  If its `Put`
or its `Delete` fails, the rotated token stays in the store and the next call presents
it again (`rotated_token_replayed`).  In every run in which these operations do not
fail over a rotated token, and in which the identity provider does not hand out a token
that it has rotated away, no rotated token is presented (`rotated_token_not_replayed`).
-/

namespace GatewayRuntime
namespace Token

section Ledger

/-- What the ledger records about a refresh token. -/
inductive LedgerEntry where
  | presented (refreshToken : String)
  | rotated (refreshToken : String)
deriving DecidableEq

/-- No token is presented after it was rotated away; the last entry comes first. -/
def NeverReplayed (ledger : List LedgerEntry) : Prop :=
  ledger.Pairwise fun later earlier => ∀ r, earlier = .rotated r → later ≠ .presented r

theorem NeverReplayed.presented
    {ledger : List LedgerEntry} {r : String}
    (h : NeverReplayed ledger)
    (hr : LedgerEntry.rotated r ∉ ledger) :
    NeverReplayed (.presented r :: ledger) := by
  refine List.pairwise_cons.mpr ⟨?_, h⟩
  rintro _ hmem r' rfl heq
  cases heq
  exact hr hmem

theorem NeverReplayed.rotated
    {ledger : List LedgerEntry}
    (h : NeverReplayed ledger) (r : String) :
    NeverReplayed (.rotated r :: ledger) := by
  refine List.pairwise_cons.mpr ⟨?_, h⟩
  intro _ _ _ _ heq
  cases heq

end Ledger

section System

variable {T : Store} {S : Session.Store}

/-- A state together with the ledger of the run that led to it. -/
structure Audited (T : Store) (S : Session.Store) where
  world : World T S memoryLocker
  ledger : List LedgerEntry

/-- What an event adds to the ledger. -/
def recorded (w : World T S memoryLocker) : Event → List LedgerEntry
  | .call i o =>
      match w.calls i, o with
      | .refresh _ cur, .ok => [.presented cur.refreshToken]
      | .inFlight _ cur, .answer (.ok answer) =>
          if answer.refreshToken ≠ "" ∧ answer.refreshToken ≠ cur.refreshToken then
            [.rotated cur.refreshToken]
          else []
      | _, _ => []
  | _ => []

/-- One event, with what it adds to the ledger. -/
def auditedStep (c : Setting) (a : Audited T S) (e : Event) : Option (Audited T S) :=
  (step c a.world e).map fun w => ⟨w, recorded a.world e ++ a.ledger⟩

theorem auditedStep_success
    {c : Setting} {a a' : Audited T S} {e : Event}
    (h : auditedStep c a e = some a') :
    step c a.world e = some a'.world ∧ a'.ledger = recorded a.world e ++ a.ledger := by
  simp only [auditedStep, Option.map_eq_some_iff] at h
  obtain ⟨w, hw, rfl⟩ := h
  exact ⟨hw, rfl⟩

/-- The ledger is only a record: the audited runs are the runs. -/
theorem exec_audited (c : Setting) (a : Audited T S) (es : List Event) :
    (Run.exec (auditedStep c) a es).map Audited.world = Run.exec (step c) a.world es := by
  induction es generalizing a with
  | nil =>
      rfl
  | cons e es ih =>
      cases hstep : step c a.world e with
      | none =>
          simp [Run.exec, auditedStep, hstep]
      | some w =>
          simp [Run.exec, auditedStep, hstep, ih]

/-- The token store returns a set whose refresh token has been rotated away. -/
def Audited.holdsRotated (c : Setting) (a : Audited T S) : Bool :=
  match T.value a.world.tokens a.world.now c.sid with
  | none => false
  | some x => decide (LedgerEntry.rotated x.refreshToken ∈ a.ledger)

/-- The identity provider hands out no token that it has rotated away, and neither the
`Put` of a refreshed set nor the `Delete` of `invalidate` fails while the store holds a
rotated token. -/
def Audited.settles (c : Setting) (a : Audited T S) : Event → Bool
  | .call i o =>
      match a.world.calls i, o with
      | .inFlight _ _, .answer (.ok answer) =>
          decide (LedgerEntry.rotated answer.refreshToken ∉ a.ledger)
      | .persist _ fresh expiresAt, .ok =>
          (T.put a.world.tokens a.world.now c.sid fresh expiresAt).2.isOk || !a.holdsRotated c
      | .persist _ _ _, .fault _ => !a.holdsRotated c
      | .dropTokens _ _, .fault _ => !a.holdsRotated c
      | _, _ => true
  | _ => true

end System

section Invariant

variable {T : ValueStore} {S : Session.Store} {c : Setting}

/-- The refresh token that a call behind the lock goes on with. -/
def Pc.refreshToken : Pc → Option String
  | .checkSecond _ cur => some cur.refreshToken
  | .refresh _ cur => some cur.refreshToken
  | .inFlight _ cur => some cur.refreshToken
  | .checkAnswer _ cur answer => some (merge cur answer).refreshToken
  | .expiry _ fresh => some fresh.refreshToken
  | .persist _ fresh _ => some fresh.refreshToken
  | _ => none

/-- The call has got its answer and has neither written the refreshed set nor deleted
the stored one. -/
def Pc.settling : Pc → Bool
  | .checkAnswer _ _ _ => true
  | .expiry _ _ => true
  | .persist _ _ _ => true
  | .dropTokens _ _ => true
  | _ => false

theorem Pc.inside_of_refreshToken
    {pc : Pc} {r : String} (h : pc.refreshToken = some r) :
    pc.inside = true := by
  cases pc <;> first | rfl | cases h

theorem Pc.inside_of_settling
    {pc : Pc} (h : pc.settling = true) :
    pc.inside = true := by
  cases pc <;> first | rfl | cases h

@[simp] theorem refreshToken_leave (h : Option Nat) (result : Except Err String) :
    (leave h result).refreshToken = none := by
  cases h <;> rfl

/-- A place where the call goes on with no refresh token. -/
theorem Pc.no_refreshToken
    {pc : Pc} (h : pc.refreshToken = none) (ledger : List LedgerEntry) :
    ∀ r, pc.refreshToken = some r → LedgerEntry.rotated r ∉ ledger := by
  intro r hr
  rw [h] at hr
  cases hr

theorem refreshToken_afterDropTokens (m : Manager) (k : Option Nat) (err : Err) :
    (afterDropTokens m k err).refreshToken = none := by
  unfold afterDropTokens
  split_ifs
  · rfl
  · simp

/-- No set that the token store returns from now on has a rotated refresh token. -/
def StoredClean (c : Setting) (T : ValueStore) (tokens : T.State) (now : Int)
    (ledger : List LedgerEntry) : Prop :=
  ∀ t x, now ≤ t → T.value tokens t c.sid = some x →
    LedgerEntry.rotated x.refreshToken ∉ ledger

/-- The invariant: no call goes on with a rotated token, and the store holds none unless
a call is settling. -/
structure Unreplayed (c : Setting) (a : Audited T.toStore S) : Prop where
  exclusive : Exclusive c a.world
  calls : ∀ i r, (a.world.calls i).refreshToken = some r → LedgerEntry.rotated r ∉ a.ledger
  stored : (∃ i, (a.world.calls i).settling = true) ∨
    StoredClean c T a.world.tokens a.world.now a.ledger
  ledger : NeverReplayed a.ledger

namespace StoredClean

variable {tokens : T.State} {now : Int} {ledger : List LedgerEntry}

theorem later
    (h : StoredClean c T tokens now ledger) {t : Int} (hle : now ≤ t) :
    StoredClean c T tokens t ledger :=
  fun t' x ht hx => h t' x (hle.trans ht) hx

theorem read
    (h : StoredClean c T tokens now ledger) :
    StoredClean c T (T.get tokens now c.sid).1 now ledger := by
  intro t x ht hx
  rw [T.value_get ht] at hx
  exact h t x ht hx

theorem delete (tokens : T.State) (now : Int) (ledger : List LedgerEntry) :
    StoredClean c T (T.delete tokens c.sid) now ledger := by
  intro t x _ hx
  have hstored := T.stored_of_value hx
  rw [T.not_stored_delete] at hstored
  cases hstored

/-- A `Put` that succeeds leaves the set it was given. -/
theorem put_ok
    {x : TokenSet} {expiresAt : Int}
    (hok : (T.put tokens now c.sid x expiresAt).2 = .ok ())
    (hx : LedgerEntry.rotated x.refreshToken ∉ ledger) :
    StoredClean c T (T.put tokens now c.sid x expiresAt).1 now ledger := by
  intro t y _ hy
  rw [T.value_of_put_ok hok hy]
  exact hx

theorem of_not_holdsRotated
    {a : Audited T.toStore S} (h : a.holdsRotated c = false) :
    StoredClean c T a.world.tokens a.world.now a.ledger := by
  intro t x ht hx
  have hnow := T.value_earlier ht hx
  simpa [Audited.holdsRotated, hnow] using h

end StoredClean

namespace Unreplayed

variable {a a' : Audited T.toStore S} {i : Nat} {pc : Pc}

/-- A call moves, and the ledger does not change.  The token it goes on with has not been
rotated away; it settles, or the store is as clean as before, or it is clean. -/
theorem move
    (h : Unreplayed c a)
    (hexclusive : Exclusive c a'.world)
    (hledger : a'.ledger = a.ledger)
    (hcalls : a'.world.calls = Function.update a.world.calls i pc)
    (htoken : ∀ r, pc.refreshToken = some r → LedgerEntry.rotated r ∉ a.ledger)
    (hstored : pc.settling = true ∨
      ((a.world.calls i).settling = false ∧
        (StoredClean c T a.world.tokens a.world.now a.ledger →
          StoredClean c T a'.world.tokens a'.world.now a.ledger)) ∨
      StoredClean c T a'.world.tokens a'.world.now a.ledger) :
    Unreplayed c a' where
  exclusive := hexclusive
  calls := by
    intro j r hr
    rw [hledger]
    rcases Run.update_cases hcalls j with ⟨rfl, hself⟩ | ⟨-, hother⟩
    · rw [hself] at hr
      exact htoken r hr
    · rw [hother] at hr
      exact h.calls j r hr
  stored := by
    rw [hledger]
    rcases hstored with hsettling | ⟨hnot, hkeep⟩ | hclean
    · refine Or.inl ⟨i, ?_⟩
      rw [hcalls, Function.update_self]
      exact hsettling
    · rcases h.stored with ⟨j, hj⟩ | hclean
      · have hji : j ≠ i := by
          rintro rfl
          rw [hnot] at hj
          cases hj
        refine Or.inl ⟨j, ?_⟩
        rw [hcalls, Function.update_of_ne hji]
        exact hj
      · exact Or.inr (hkeep hclean)
    · exact Or.inr hclean
  ledger := by
    rw [hledger]
    exact h.ledger

/-- A call that does not settle moves, and the token store is as before. -/
theorem pass
    (h : Unreplayed c a)
    (hexclusive : Exclusive c a'.world)
    (hnot : (a.world.calls i).settling = false)
    (hledger : a'.ledger = a.ledger)
    (hcalls : a'.world.calls = Function.update a.world.calls i pc)
    (htokens : a'.world.tokens = a.world.tokens)
    (hnow : a'.world.now = a.world.now)
    (htoken : ∀ r, pc.refreshToken = some r → LedgerEntry.rotated r ∉ a.ledger) :
    Unreplayed c a' := by
  refine h.move hexclusive hledger hcalls htoken (Or.inr (Or.inl ⟨hnot, ?_⟩))
  rw [htokens, hnow]
  exact id

/-- Behind the lock nobody settles but the call that is there. -/
theorem storedClean_of_inside
    (h : Unreplayed c a)
    (hinside : (a.world.calls i).inside = true)
    (hnot : (a.world.calls i).settling = false) :
    StoredClean c T a.world.tokens a.world.now a.ledger := by
  rcases h.stored with ⟨j, hj⟩ | hclean
  · obtain rfl := h.exclusive.inside_unique (Pc.inside_of_settling hj) hinside
    rw [hnot] at hj
    cases hj
  · exact hclean

/-- A token is presented that has not been rotated away. -/
theorem present
    {k : Option Nat} {cur : TokenSet}
    (h : Unreplayed c a)
    (hexclusive : Exclusive c a'.world)
    (hpc : a.world.calls i = .refresh k cur)
    (hledger : a'.ledger = .presented cur.refreshToken :: a.ledger)
    (hcalls : a'.world.calls = Function.update a.world.calls i (.inFlight k cur))
    (htokens : a'.world.tokens = a.world.tokens)
    (hnow : a'.world.now = a.world.now) :
    Unreplayed c a' := by
  have hcur : LedgerEntry.rotated cur.refreshToken ∉ a.ledger :=
    h.calls i _ (by rw [hpc]; rfl)
  have hmoved : Unreplayed c (⟨a'.world, a.ledger⟩ : Audited T.toStore S) := by
    refine h.pass hexclusive (by rw [hpc]; rfl) rfl hcalls htokens hnow ?_
    rintro r ⟨⟩
    exact hcur
  refine ⟨hexclusive, ?_, ?_, ?_⟩
  · intro j r hr
    simpa [hledger] using hmoved.calls j r hr
  · simpa [StoredClean, hledger] using hmoved.stored
  · rw [hledger]
    exact h.ledger.presented hcur

/-- The token that a call has presented is rotated away. -/
theorem rotate
    {k : Option Nat} {cur answer : TokenSet}
    (h : Unreplayed c a)
    (hexclusive : Exclusive c a'.world)
    (hpc : a.world.calls i = .inFlight k cur)
    (hnew : answer.refreshToken ≠ "" ∧ answer.refreshToken ≠ cur.refreshToken)
    (hanswer : LedgerEntry.rotated answer.refreshToken ∉ a.ledger)
    (hledger : a'.ledger = .rotated cur.refreshToken :: a.ledger)
    (hcalls : a'.world.calls = Function.update a.world.calls i (.checkAnswer k cur answer)) :
    Unreplayed c a' := by
  have hself : a'.world.calls i = .checkAnswer k cur answer := by
    rw [hcalls, Function.update_self]
  refine ⟨hexclusive, ?_, Or.inl ⟨i, by rw [hself]; rfl⟩, ?_⟩
  · intro j r hr
    obtain rfl := hexclusive.inside_unique (Pc.inside_of_refreshToken hr)
      (show (a'.world.calls i).inside = true by rw [hself]; rfl)
    rw [hself] at hr
    have heq : r = answer.refreshToken := by
      simpa [Pc.refreshToken, merge, hnew.1] using hr.symm
    rw [hledger, heq]
    simpa [hnew.2] using hanswer
  · rw [hledger]
    exact h.ledger.rotated _

/-- The answer does not rotate the token. -/
theorem answered
    {k : Option Nat} {cur answer : TokenSet}
    (h : Unreplayed c a)
    (hexclusive : Exclusive c a'.world)
    (hpc : a.world.calls i = .inFlight k cur)
    (hold : ¬ (answer.refreshToken ≠ "" ∧ answer.refreshToken ≠ cur.refreshToken))
    (hledger : a'.ledger = a.ledger)
    (hcalls : a'.world.calls = Function.update a.world.calls i (.checkAnswer k cur answer)) :
    Unreplayed c a' := by
  refine h.move hexclusive hledger hcalls ?_ (Or.inl rfl)
  have hmerge : (merge cur answer).refreshToken = cur.refreshToken := by
    by_cases hempty : answer.refreshToken = ""
    · exact if_pos hempty
    · exact (if_neg hempty).trans (by_contra fun hne => hold ⟨hempty, hne⟩)
  rintro r ⟨⟩
  rw [hmerge]
  exact h.calls i _ (by rw [hpc]; rfl)

/-- **One step of a call.** -/
theorem call
    {o : Outcome}
    (hlocker : c.manager.hasLocker = true)
    (h : Unreplayed c a)
    (hguard : a.settles c (.call i o) = true)
    (haudited : auditedStep c a (.call i o) = some a') :
    Unreplayed c a' := by
  obtain ⟨hstep, hledger⟩ := auditedStep_success haudited
  clear haudited
  have hexclusive := h.exclusive.step hlocker hstep
  obtain ⟨w', ledger'⟩ := a'
  have heffect := callStep_effect (show callStep c a.world i o = some w' from hstep)
  clear hstep
  generalize hpc : a.world.calls i = pc at heffect
  simp only at hledger
  cases heffect with
  | firstGet =>
      refine h.move hexclusive (by simp [hledger, recorded, hpc]) rfl ?_
        (Or.inr (Or.inl ⟨by rw [hpc]; rfl, fun hclean => hclean.read⟩))
      cases (T.get a.world.tokens a.world.now c.sid).2 <;> simp [afterFirstGet, Pc.refreshToken]
  | firstGetFault =>
      exact h.move hexclusive (by simp [hledger, recorded, hpc]) rfl
        (by simp [afterFirstGet, Pc.refreshToken])
        (Or.inr (Or.inl ⟨by rw [hpc]; rfl, fun hclean => hclean⟩))
  | firstCheck =>
      refine h.pass hexclusive (by rw [hpc]; rfl) (by simp [hledger, recorded, hpc]) rfl rfl rfl ?_
      unfold afterFirstCheck
      split_ifs <;> simp [Pc.refreshToken]
  | enter | enterFault | acquire | acquireFault | release | abandon =>
      exact h.pass hexclusive (by rw [hpc]; rfl) (by simp [hledger, recorded, hpc]) rfl rfl rfl
        (Pc.no_refreshToken rfl _)
  | reread =>
      have hclean := h.storedClean_of_inside (i := i) (by rw [hpc]; rfl) (by rw [hpc]; rfl)
      refine h.move hexclusive (by simp [hledger, recorded, hpc]) rfl ?_
        (Or.inr (Or.inr hclean.read))
      rw [T.get_result]
      cases hvalue : T.value a.world.tokens a.world.now c.sid with
      | none =>
          simp [found, afterReread]
      | some x =>
          rintro r ⟨⟩
          exact hclean _ x le_rfl hvalue
  | rereadFault =>
      have hclean := h.storedClean_of_inside (i := i) (by rw [hpc]; rfl) (by rw [hpc]; rfl)
      exact h.move hexclusive (by simp [hledger, recorded, hpc]) rfl
        (by simp [afterReread]) (Or.inr (Or.inr hclean))
  | secondCheck =>
      refine h.pass hexclusive (by rw [hpc]; rfl) (by simp [hledger, recorded, hpc]) rfl rfl rfl ?_
      unfold afterSecondCheck
      split_ifs
      · simp
      · simp
      · rintro r ⟨⟩
        exact h.calls i _ (by rw [hpc]; rfl)
  | refresh =>
      exact h.present hexclusive hpc (by simp [hledger, recorded, hpc]) rfl rfl rfl
  | @answer k cur r =>
      cases r with
      | error e =>
          exact h.move hexclusive (by simp [hledger, recorded, hpc]) rfl
            (Pc.no_refreshToken rfl _) (Or.inl rfl)
      | ok answer =>
          simp only [Audited.settles, hpc, decide_eq_true_eq] at hguard
          by_cases hnew : answer.refreshToken ≠ "" ∧ answer.refreshToken ≠ cur.refreshToken
          · exact h.rotate hexclusive hpc hnew hguard (by simp [hledger, recorded, hpc, hnew]) rfl
          · exact h.answered hexclusive hpc hnew
              (by simp only [hledger, recorded, hpc, if_neg hnew, List.nil_append]) rfl
  | answerCheck =>
      refine h.move hexclusive (by simp [hledger, recorded, hpc]) rfl ?_ (Or.inl ?_)
      · unfold afterAnswerCheck
        split_ifs
        · exact Pc.no_refreshToken rfl _
        · exact fun r hr => h.calls i r (by rw [hpc]; exact hr)
      · unfold afterAnswerCheck
        split_ifs <;> rfl
  | @expiry k fresh =>
      have hfresh := h.calls i fresh.refreshToken (by rw [hpc]; rfl)
      refine h.move hexclusive (by simp [hledger, recorded, hpc]) rfl ?_ (Or.inl ?_)
      · cases (S.get a.world.sessions a.world.now c.sid).2 with
        | error e => exact Pc.no_refreshToken rfl _
        | ok v =>
            rintro r ⟨⟩
            exact hfresh
      · cases (S.get a.world.sessions a.world.now c.sid).2 <;> rfl
  | expiryFault | noSessions =>
      exact h.move hexclusive (by simp [hledger, recorded, hpc]) rfl
        (Pc.no_refreshToken rfl _) (Or.inl rfl)
  | @persist k fresh expiresAt =>
      have hfresh := h.calls i fresh.refreshToken (by rw [hpc]; rfl)
      refine h.move hexclusive (by simp [hledger, recorded, hpc]) rfl ?_ (Or.inr (Or.inr ?_))
      · cases (T.put a.world.tokens a.world.now c.sid fresh expiresAt).2 <;> simp [afterPersist]
      · cases hput : (T.put a.world.tokens a.world.now c.sid fresh expiresAt).2 with
        | ok u => exact .put_ok hput hfresh
        | error e =>
            have hclean : a.holdsRotated c = false := by
              simpa [Audited.settles, hpc, hput, Except.isOk, Except.toBool] using hguard
            have hsame : StoredClean c T
                (T.put a.world.tokens a.world.now c.sid fresh expiresAt).1 a.world.now
                a.ledger := by
              rw [T.put_error hput]
              exact .of_not_holdsRotated hclean
            exact hsame
  | persistFault =>
      exact h.move hexclusive (by simp [hledger, recorded, hpc]) rfl (by simp [afterPersist])
        (Or.inr (Or.inr (.of_not_holdsRotated (by simpa [Audited.settles, hpc] using hguard))))
  | dropTokens =>
      exact h.move hexclusive (by simp [hledger, recorded, hpc]) rfl
        (Pc.no_refreshToken (refreshToken_afterDropTokens _ _ _) _)
        (Or.inr (Or.inr (.delete _ _ _)))
  | dropTokensFault =>
      exact h.move hexclusive (by simp [hledger, recorded, hpc]) rfl
        (Pc.no_refreshToken (refreshToken_afterDropTokens _ _ _) _)
        (Or.inr (Or.inr (.of_not_holdsRotated (by simpa [Audited.settles, hpc] using hguard))))
  | dropSession | dropSessionFault =>
      exact h.pass hexclusive (by rw [hpc]; rfl) (by simp [hledger, recorded, hpc]) rfl rfl rfl
        (by simp)

/-- A step of the logout reads the set or deletes it. -/
theorem logout
    {o : Outcome}
    (hlocker : c.manager.hasLocker = true)
    (h : Unreplayed c a)
    (haudited : auditedStep c a (.logout o) = some a') :
    Unreplayed c a' := by
  obtain ⟨hstep, hledger⟩ := auditedStep_success haudited
  have hmoved := logoutStep_moved hstep
  have hsame : a'.ledger = a.ledger := hledger
  refine ⟨h.exclusive.step hlocker hstep, ?_, ?_, ?_⟩
  · rw [hmoved.calls, hsame]
    exact h.calls
  · rw [hmoved.calls, hmoved.now, hsame]
    refine h.stored.imp_right fun hclean => ?_
    have heffect := logoutStep_effect hstep
    generalize a'.world = w' at heffect ⊢
    cases heffect with
    | load =>
        exact hclean.read
    | deleteTokens =>
        exact .delete _ _ _
    | skip _ | start | loadFault | deleteSession _ | endSession _ | fail =>
        exact hclean
  · rw [hsame]
    exact h.ledger

/-- **One step.** -/
theorem step
    {e : Event}
    (hlocker : c.manager.hasLocker = true)
    (h : Unreplayed c a)
    (hguard : a.settles c e = true)
    (haudited : auditedStep c a e = some a') :
    Unreplayed c a' := by
  cases e with
  | spawn i =>
      obtain ⟨hstep, hledger⟩ := auditedStep_success haudited
      have hexclusive := h.exclusive.step hlocker hstep
      obtain ⟨hidle, heq⟩ := spawn_success hstep
      refine h.pass hexclusive (by rw [hidle]; rfl) hledger (congrArg World.calls heq)
        (by rw [heq]; rfl) (by rw [heq]; rfl) ?_
      unfold entry
      split_ifs <;> exact Pc.no_refreshToken rfl _
  | call i o =>
      exact h.call hlocker hguard haudited
  | logout o =>
      exact h.logout hlocker haudited
  | tick t =>
      obtain ⟨hstep, hledger⟩ := auditedStep_success haudited
      have hexclusive := h.exclusive.step hlocker hstep
      obtain ⟨hle, heq⟩ := tick_success hstep
      have hsame : a'.ledger = a.ledger := hledger
      refine ⟨hexclusive, ?_, ?_, ?_⟩
      · rw [heq, hsame]
        exact h.calls
      · rw [heq, hsame]
        exact h.stored.imp_right fun hclean => hclean.later hle
      · rw [hsame]
        exact h.ledger
  | expireLock =>
      obtain ⟨hstep, -⟩ := auditedStep_success haudited
      obtain ⟨lock, hexpire, -⟩ := expireLock_success hstep
      cases hexpire

/-- Nothing has been called yet. -/
theorem initial
    {w : World T.toStore S memoryLocker}
    (hidle : ∀ i, w.calls i = .idle) :
    Unreplayed c (⟨w, []⟩ : Audited T.toStore S) := by
  refine ⟨exclusive_of_idle c hidle, ?_, Or.inr ?_, .nil⟩
  · intro i r hr
    simp [hidle, Pc.refreshToken] at hr
  · intro t x _ _
    simp

end Unreplayed

end Invariant

section Results

/-- **A rotated refresh token is not presented again**, in every run in which the
operations that settle a refresh do not fail over a rotated token and the identity
provider does not hand out a token that it has rotated away. -/
theorem rotated_token_not_replayed
    (T : ValueStore) (S : Session.Store) (c : Setting)
    (hlocker : c.manager.hasLocker = true)
    (w : World T.toStore S memoryLocker)
    (hidle : ∀ i, w.calls i = .idle)
    (es : List Event) (a : Audited T.toStore S)
    (hguard : Run.Guarded (auditedStep c) (fun a e => a.settles c e = true) ⟨w, []⟩ es)
    (hrun : Run.exec (auditedStep c) ⟨w, []⟩ es = some a) :
    NeverReplayed a.ledger := by
  have hinv : Unreplayed c a :=
    Run.invariant_of_guarded (I := Unreplayed c)
      (fun _ _ _ h hg hstep => h.step hlocker hg hstep) (.initial hidle) hguard hrun
  exact hinv.ledger

/-- Two calls, each of which refreshes. -/
def twoRefreshes : List Event :=
  List.flatten
    [refreshStarts 0,
      [.call 0 (.answer (.ok ⟨"access-1", "refresh-1", "", 1100⟩)), .call 0 .ok, .call 0 .ok],
      refreshEnds 0,
      [.tick (sampleNow + 90000000000)],
      refreshStarts 1,
      [.call 1 (.answer (.ok ⟨"access-2", "refresh-2", "", 5000⟩)), .call 1 .ok, .call 1 .ok],
      refreshEnds 1]

theorem two_refreshes_not_replayed :
    ∃ a : Audited memoryValues.toStore Session.memoryStore,
      Run.exec (auditedStep sampleSetting) ⟨memoryWorld, []⟩ twoRefreshes = some a ∧
      a.ledger = [.rotated "refresh-1", .presented "refresh-1", .rotated "refresh-0",
        .presented "refresh-0"] ∧
      NeverReplayed a.ledger :=
  ⟨_, rfl, rfl, rotated_token_not_replayed memoryValues Session.memoryStore sampleSetting rfl
    memoryWorld (fun _ => rfl) twoRefreshes _ (by decide +kernel) rfl⟩

/-- The `Put` of the refreshed set fails, and the next call presents the rotated token. -/
theorem rotated_token_replayed :
    sampleSetting.manager.hasLocker = true ∧ (∀ i, memoryWorld.calls i = .idle) ∧
      ∃ a : Audited memoryValues.toStore Session.memoryStore,
        Run.exec (auditedStep sampleSetting) ⟨memoryWorld, []⟩
            (refreshStarts 0 ++ refreshAnswered 0 ++
              [.call 0 (.fault (.text "connection refused")), .call 0 .ok] ++ refreshStarts 1) =
          some a ∧
        a.ledger = [.presented "refresh-0", .rotated "refresh-0", .presented "refresh-0"] ∧
        ¬ NeverReplayed a.ledger := by
  refine ⟨rfl, fun _ => rfl, _, rfl, rfl, ?_⟩
  intro h
  exact (List.pairwise_cons.mp h).1 (.rotated "refresh-0") (by decide +kernel) "refresh-0" rfl rfl

end Results

end Token
end GatewayRuntime
