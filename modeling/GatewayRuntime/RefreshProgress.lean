import GatewayRuntime.RefreshExclusion
import GatewayRuntime.SingleFlight

/-!
# Refreshes come to an end

A call of `AccessToken` may wait for the refresh lock, and nothing in the code bounds that wait
but the context of the request.  Two things are shown about it.

A call takes at most thirteen steps, whatever the other calls do.  And it is never locked out.
With the memory lock the calls of any run can be brought to their ends without a fault: the
channel of the key is empty only while a call is behind the lock, and that call does not wait for
anything but the identity provider.  The Redis lock, which is polled, is the subject of
`RefreshPolling`.
-/

namespace GatewayRuntime
namespace Token

section Rank

variable {T : Store} {S : Session.Store} {L : Locker} {c : Setting} {w w' : World T S L} {i : Nat}

/-- The steps that a call can still take. -/
def Pc.rank : Pc → Nat
  | .idle => 13
  | .start => 13
  | .checkFirst _ => 12
  | .enterLock => 11
  | .awaitLock _ => 10
  | .reread _ => 9
  | .checkSecond _ _ => 8
  | .refresh _ _ => 7
  | .inFlight _ _ => 6
  | .checkAnswer _ _ _ => 5
  | .expiry _ _ => 4
  | .dropTokens _ _ => 3
  | .persist _ _ _ => 2
  | .dropSession _ _ => 2
  | .unlock _ _ => 1
  | .done _ => 0

theorem rank_leave_le (h : Option Nat) (result : Except Err String) :
    (leave h result).rank ≤ 1 := by
  cases h <;> simp [leave, Pc.rank]

/-- Every step of a call lowers its rank. -/
theorem rank_lt_of_effect
    {pc : Pc} {o : Outcome} (h : CallEffect c w i pc o w') :
    (w'.calls i).rank < pc.rank := by
  have hleave (k : Option Nat) (result : Except Err String) {n : Nat} (hn : 1 < n) :
      (leave k result).rank < n :=
    lt_of_le_of_lt (rank_leave_le k result) hn
  cases h <;> rw [goto_calls_self]
  case firstGet => cases (T.get w.tokens w.now c.sid).2 <;> simp [afterFirstGet, Pc.rank]
  case firstGetFault => simp [afterFirstGet, Pc.rank]
  case firstCheck => unfold afterFirstCheck; split_ifs <;> simp [Pc.rank]
  case enterFault | acquireFault => simp [lockFailed, Pc.rank]
  case reread =>
    cases (T.get w.tokens w.now c.sid).2
    · exact hleave _ _ (by simp [Pc.rank])
    · simp [afterReread, Pc.rank]
  case rereadFault => exact hleave _ _ (by simp [Pc.rank])
  case secondCheck =>
    unfold afterSecondCheck
    split_ifs
    · exact hleave _ _ (by simp [Pc.rank])
    · exact hleave _ _ (by simp [Pc.rank])
    · simp [Pc.rank]
  case answer h cur r => cases r <;> simp [afterRefresh, Pc.rank]
  case answerCheck => unfold afterAnswerCheck; split_ifs <;> simp [Pc.rank]
  case expiry => cases (S.get w.sessions w.now c.sid).2 <;> simp [afterExpiry, Pc.rank]
  case expiryFault => simp [afterExpiry, Pc.rank]
  case persist h fresh expiresAt =>
    cases (T.put w.tokens w.now c.sid fresh expiresAt).2 <;> exact hleave _ _ (by simp [Pc.rank])
  case persistFault => exact hleave _ _ (by simp [Pc.rank])
  case dropTokens | dropTokensFault =>
    unfold afterDropTokens
    split_ifs
    · simp [Pc.rank]
    · exact hleave _ _ (by simp [Pc.rank])
  case dropSession | dropSessionFault => exact hleave _ _ (by simp [Pc.rank])
  all_goals simp [Pc.rank]

theorem rank_entry_le (c : Setting) : (entry c).rank ≤ 13 := by
  unfold entry
  split_ifs <;> simp [Pc.rank]

/-- The event is a step of call `i`. -/
def Event.stepOf (i : Nat) : Event → Bool
  | .call j _ => decide (j = i)
  | _ => false

/-- What an event costs a call. -/
theorem stepOf_add_rank_le
    {e : Event} (h : step c w e = some w') :
    (e.stepOf i).toNat + (w'.calls i).rank ≤ (w.calls i).rank := by
  cases e with
  | spawn j =>
      obtain ⟨hidle, rfl⟩ := spawn_success h
      by_cases hij : i = j
      · subst hij
        rw [goto_calls_self, hidle]
        simpa [Event.stepOf, Pc.rank] using rank_entry_le c
      · rw [goto_calls_of_ne _ _ hij]
        simp [Event.stepOf]
  | call j o =>
      by_cases hij : i = j
      · subst hij
        have hlt := rank_lt_of_effect (callStep_effect h)
        simp only [Event.stepOf, decide_true, Bool.toNat_true]
        omega
      · obtain ⟨pc, hmoved⟩ := callStep_moved h
        rw [hmoved.calls, Function.update_of_ne hij]
        simp [Event.stepOf, Ne.symm hij]
  | logout o =>
      rw [(logoutStep_moved h).calls]
      simp [Event.stepOf]
  | tick t =>
      obtain ⟨-, rfl⟩ := tick_success h
      simp [Event.stepOf]
  | expireLock =>
      obtain ⟨lock, -, rfl⟩ := expireLock_success h
      simp [Event.stepOf]

/-- In a run the steps of a call are paid by its rank. -/
theorem steps_add_rank_le
    {es : List Event} (hrun : Run.exec (step c) w es = some w') :
    es.countP (Event.stepOf i) + (w'.calls i).rank ≤ (w.calls i).rank := by
  induction es generalizing w with
  | nil =>
      cases hrun
      simp
  | cons e es ih =>
      obtain ⟨w₁, hstep, hrest⟩ := Run.exec_cons_success hrun
      have hhead := stepOf_add_rank_le (i := i) hstep
      have htail := ih hrest
      rw [List.countP_cons]
      cases hof : e.stepOf i <;> simp only [hof, Bool.toNat_true, Bool.toNat_false] at hhead ⊢ <;>
        simp <;> omega

end Rank

section Alone

variable {T : Store} {S : Session.Store} {L : Locker} {c : Setting} {w w' : World T S L} {i : Nat}
variable (r : Except Err TokenSet)

/-- The next operation of a call succeeds, and the identity provider answers `r`. -/
def smoothly : Pc → Outcome
  | .inFlight _ _ => .answer r
  | _ => .ok

/-- A call that is under way can go on, unless it waits for the lock or the lock does not take
its element back. -/
theorem exists_callStep
    (hidle : w.calls i ≠ .idle) (hdone : ∀ result, w.calls i ≠ .done result)
    (hacquire : ∀ h, w.calls i = .awaitLock h →
      (L.acquire w.lock w.now c.manager.effectiveLockTTL c.key h).isSome)
    (hrelease : ∀ h result, w.calls i = .unlock h result → (L.release w.lock c.key h).isSome) :
    ∃ w', callStep c w i (smoothly r (w.calls i)) = some w' := by
  unfold callStep
  cases hpc : w.calls i with
  | idle => exact absurd hpc hidle
  | done result => exact absurd hpc (hdone result)
  | awaitLock h =>
      obtain ⟨lock, hlock⟩ := Option.isSome_iff_exists.mp (hacquire h hpc)
      exact ⟨_, by simp [smoothly, hlock]; rfl⟩
  | unlock h result =>
      obtain ⟨lock, hlock⟩ := Option.isSome_iff_exists.mp (hrelease h result hpc)
      exact ⟨_, by simp [smoothly, hlock]; rfl⟩
  | expiry h fresh =>
      simp only [smoothly, Outcome.apply]
      split_ifs
      · exact ⟨_, rfl⟩
      · exact ⟨_, rfl⟩
  | start | checkFirst | enterLock | reread | checkSecond | refresh | inFlight | checkAnswer
  | persist | dropTokens | dropSession =>
      exact ⟨_, rfl⟩

/-- The event is a step of call `i` without a fault. -/
def Smooth (i : Nat) (e : Event) : Prop :=
  e = .call i .ok ∨ e = .call i (.answer r)

theorem smooth_smoothly (pc : Pc) :
    Smooth r i (.call i (smoothly r pc)) := by
  cases pc <;> first | exact Or.inl rfl | exact Or.inr rfl

theorem smoothly_ne_fault (pc : Pc) (e : Err) :
    smoothly r pc ≠ .fault e := by
  cases pc <;> exact fun h => by cases h

/-- A property of the states of a run without faults, with which a call that is to unlock can. -/
structure Sound (c : Setting) (I : World T S L → Prop) : Prop where
  kept : ∀ {w w' j o}, I w → callStep c w j o = some w' → (∀ e, o ≠ .fault e) → I w'
  released : ∀ {w j h result}, I w → w.calls j = .unlock h result →
    (L.release w.lock c.key h).isSome

/-- What a continuation of `w` by some events brings about: call `i` has returned. -/
structure Returned (c : Setting) (w : World T S L) (i : Nat) (P : Event → Prop)
    (I : World T S L → Prop) (es : List Event) (w' : World T S L) : Prop where
  events : ∀ e ∈ es, P e
  run : Run.exec (step c) w es = some w'
  done : ∃ result, w'.calls i = .done result
  sound : I w'

variable {r} {I : World T S L → Prop} {P : Event → Prop}

/-- One step in front of a continuation. -/
theorem Returned.cons
    {e : Event} {w₁ : World T S L} {es : List Event}
    (he : P e) (hstep : step c w e = some w₁) (h : Returned c w₁ i P I es w') :
    Returned c w i P I (e :: es) w' where
  events := List.forall_mem_cons.mpr ⟨he, h.events⟩
  run := by
    simp only [Run.exec, hstep]
    exact h.run
  done := h.done
  sound := h.sound

/-- A run in front of a continuation. -/
theorem Returned.append
    {es₁ es₂ : List Event} {w₁ : World T S L}
    (hevents : ∀ e ∈ es₁, P e) (hrun : Run.exec (step c) w es₁ = some w₁)
    (h : Returned c w₁ i P I es₂ w') :
    Returned c w i P I (es₁ ++ es₂) w' where
  events e he := (List.mem_append.mp he).elim (hevents e) (h.events e)
  run := by
    rw [Run.exec_append, hrun]
    exact h.run
  done := h.done
  sound := h.sound

/-- What the next step of a call leaves. -/
structure Next (I : World T S L → Prop) (i : Nat) (w w₁ : World T S L) : Prop where
  sound : I w₁
  now : w₁.now = w.now
  rank : (w₁.calls i).rank < (w.calls i).rank
  made : w₁.calls i ≠ .idle
  others : ∀ j, j ≠ i → w₁.calls j = w.calls j

theorem Sound.next_of_step
    {o : Outcome} {w₁ : World T S L} (hI : Sound c I) (hw : I w)
    (ho : ∀ e, o ≠ .fault e) (hstep : callStep c w i o = some w₁) :
    Next I i w w₁ := by
  have hlt := rank_lt_of_effect (callStep_effect hstep)
  obtain ⟨pc, hmoved⟩ := callStep_moved hstep
  refine ⟨hI.kept hw hstep ho, hmoved.now, hlt, ?_, fun j hj => ?_⟩
  · intro hidle
    rw [hidle] at hlt
    revert hlt
    cases w.calls i <;> simp [Pc.rank]
  · rw [hmoved.calls, Function.update_of_ne hj]

/-- **A call that does not wait for the lock goes on.** -/
theorem Sound.next
    (hI : Sound c I) (r : Except Err TokenSet) (hw : I w) (hmade : w.calls i ≠ .idle)
    (hdone : ∀ result, w.calls i ≠ .done result) (hawait : ∀ h, w.calls i ≠ .awaitLock h) :
    ∃ w₁, callStep c w i (smoothly r (w.calls i)) = some w₁ ∧ Next I i w w₁ := by
  obtain ⟨w₁, hstep⟩ := exists_callStep r hmade hdone (fun h hpc => absurd hpc (hawait h))
    (fun h result hunlock => hI.released hw hunlock)
  exact ⟨w₁, hstep, hI.next_of_step hw (smoothly_ne_fault r _) hstep⟩

/-- **A call behind the lock returns** by its own steps; the other calls stay where they are. -/
theorem Sound.leaves
    (hI : Sound c I) (r : Except Err TokenSet) (hw : I w) (hrank : (w.calls i).rank ≤ 9) :
    ∃ es w', Returned c w i (Smooth r i) I es w' ∧ ∀ j, j ≠ i → w'.calls j = w.calls j := by
  generalize hn : (w.calls i).rank = n at hrank
  induction n using Nat.strong_induction_on generalizing w with
  | _ n ih =>
  by_cases hdone : ∃ result, w.calls i = .done result
  · exact ⟨[], w, ⟨by simp, rfl, hdone, hw⟩, fun _ _ => rfl⟩
  · have hbehind (pc : Pc) (hpc : 9 < pc.rank) : w.calls i ≠ pc := by
      rintro rfl
      omega
    obtain ⟨w₁, hstep, hnext⟩ := hI.next r hw (hbehind .idle (by simp [Pc.rank]))
      (not_exists.mp hdone) (fun h => hbehind (.awaitLock h) (by simp [Pc.rank]))
    have hlt := hnext.rank
    obtain ⟨es, w', hreturned, hothers⟩ := ih _ (hn ▸ hlt) hnext.sound rfl (by omega)
    exact ⟨_, w', hreturned.cons (smooth_smoothly r _) hstep,
      fun j hj => (hothers j hj).trans (hnext.others j hj)⟩

/-- **A call returns** if some events let it have the lock that it waits for. -/
theorem Sound.returns
    (hI : Sound c I) (r : Except Err TokenSet)
    (hown : ∀ e, Smooth r i e → P e)
    (hfree : ∀ w h, I w → w.calls i = .awaitLock h →
      ∃ es w₁, (∀ e ∈ es, P e) ∧ Run.exec (step c) w es = some w₁ ∧ w₁.calls i = .awaitLock h ∧
        I w₁ ∧ (L.acquire w₁.lock w₁.now c.manager.effectiveLockTTL c.key h).isSome)
    (hw : I w) (hmade : w.calls i ≠ .idle) :
    ∃ es w', Returned c w i P I es w' := by
  generalize hn : (w.calls i).rank = n
  induction n using Nat.strong_induction_on generalizing w with
  | _ n ih =>
  by_cases hdone : ∃ result, w.calls i = .done result
  · exact ⟨[], w, by simp, rfl, hdone, hw⟩
  by_cases hawait : ∃ h, w.calls i = .awaitLock h
  · obtain ⟨h, hawait⟩ := hawait
    obtain ⟨es, w₁, hevents, hrun, hawait₁, hw₁, hacquire⟩ := hfree w h hw hawait
    obtain ⟨w₂, hstep⟩ := exists_callStep r (c := c) (w := w₁) (i := i) (by simp [hawait₁])
      (by simp [hawait₁]) (fun h' hpc => by rw [hawait₁] at hpc; cases hpc; exact hacquire)
      (by simp [hawait₁])
    have hnext := hI.next_of_step hw₁ (smoothly_ne_fault r _) hstep
    have hlt := hnext.rank
    rw [hawait₁, ← hawait, hn] at hlt
    obtain ⟨es', w', hreturned⟩ := ih _ hlt hnext.sound hnext.made rfl
    exact ⟨_, w', (hreturned.cons (hown _ (smooth_smoothly r _)) hstep).append hevents hrun⟩
  · obtain ⟨w₁, hstep, hnext⟩ := hI.next r hw hmade (not_exists.mp hdone) (not_exists.mp hawait)
    obtain ⟨es, w', hreturned⟩ := ih _ (hn ▸ hnext.rank) hnext.sound hnext.made rfl
    exact ⟨_, w', hreturned.cons (hown _ (smooth_smoothly r _)) hstep⟩

/-- A call that has returned stays so. -/
theorem done_of_step
    {e : Event} {result : Except Err String}
    (hdone : w.calls i = .done result) (h : step c w e = some w') :
    w'.calls i = .done result := by
  cases e with
  | spawn j =>
      obtain ⟨hidle, rfl⟩ := spawn_success h
      have hij : i ≠ j := by
        rintro rfl
        rw [hdone] at hidle
        cases hidle
      rw [goto_calls_of_ne _ _ hij]
      exact hdone
  | call j o =>
      obtain ⟨pc, hmoved⟩ := callStep_moved h
      have hij : i ≠ j := by
        rintro rfl
        simp [step, callStep, hdone] at h
      rw [hmoved.calls, Function.update_of_ne hij]
      exact hdone
  | logout o =>
      rw [(logoutStep_moved h).calls]
      exact hdone
  | tick t =>
      obtain ⟨-, rfl⟩ := tick_success h
      exact hdone
  | expireLock =>
      obtain ⟨lock, -, rfl⟩ := expireLock_success h
      exact hdone

theorem done_of_run
    {es : List Event} {result : Except Err String}
    (hdone : w.calls i = .done result) (hrun : Run.exec (step c) w es = some w') :
    w'.calls i = .done result :=
  Run.exec_invariant (I := fun w => w.calls i = .done result)
    (fun _ _ _ hw hstep => done_of_step hw hstep) hdone hrun

end Alone

section Memory

variable {T : Store} {S : Session.Store} {c : Setting} {w w' : World T S memoryLocker} {i : Nat}

/-- The unlock of `MemoryLocker` does not fail. -/
def Unlocks {L : Locker} (w : World T S L) : Event → Prop
  | .call i (.fault _) => ∀ h result, w.calls i ≠ .unlock h result
  | _ => True

/-- Mutual exclusion, and the other half: the channel of the key is empty only while a call is
behind the lock. -/
structure Manned (c : Setting) (w : World T S memoryLocker) : Prop where
  exclusive : Exclusive c w
  holder : ∀ h, w.locks.locks.find c.key = some h → w.locks.filled h = false →
    ∃ i, (w.calls i).holder = some h

theorem manned_of_idle
    (c : Setting) (hidle : ∀ i, w.calls i = .idle) (hlock : w.locks = .empty) :
    Manned c w where
  exclusive := exclusive_of_idle c hidle
  holder h hfind := by
    rw [hlock] at hfind
    cases hfind

/-- A call moves and the lock stays. -/
theorem Manned.keep
    {pc : Pc} (hinv : Manned c w) (hinv' : Exclusive c w')
    (hcalls : w'.calls = Function.update w.calls i pc)
    (hlock : w'.locks = w.locks) (hholder : pc.holder = (w.calls i).holder) :
    Manned c w' where
  exclusive := hinv'
  holder h hfind hempty := by
    rw [hlock] at hfind hempty
    obtain ⟨j, hj⟩ := hinv.holder h hfind hempty
    exact ⟨j, (holder_of_move hcalls hholder j).trans hj⟩

/-- A call gives its element back unless that fails. -/
theorem release_of_unlock
    {L : Locker} {w w' : World T S L} {o : Outcome} {h : Nat} {result : Except Err String}
    (hpc : w.calls i = .unlock h result) (hunlock : Unlocks w (.call i o))
    (hstep : callStep c w i o = some w') :
    L.release w.lock c.key h = some w'.lock := by
  cases o <;> simp only [callStep, hpc, reduceCtorEq] at hstep
  case ok =>
    obtain ⟨lock, hlock, rfl⟩ := Option.map_eq_some_iff.mp hstep
    exact hlock
  case fault e =>
    exact absurd hpc (hunlock h result)

/-- **One step** keeps the invariant, unless an unlock fails. -/
theorem Manned.step
    {e : Event} (hlocker : c.manager.hasLocker = true)
    (hinv : Manned c w) (hunlock : Unlocks w e) (h : step c w e = some w') :
    Manned c w' := by
  have hexclusive := hinv.exclusive.step hlocker h
  cases e with
  | spawn i =>
      obtain ⟨hidle, rfl⟩ := spawn_success h
      refine hinv.keep hexclusive rfl rfl ?_
      rw [(entry_outside c).1, hidle]
      rfl
  | call i o =>
      obtain ⟨pc, hmoved⟩ := callStep_moved h
      have heffect := hmoved.lock
      have hcalls := hmoved.calls
      have hreleased (k : Nat) (result : Except Err String) (hpc : w.calls i = .unlock k result) :
          Manned c w' := by
        refine ⟨hexclusive, fun h' hfind hempty => ?_⟩
        have hlock : w'.locks = w.locks.setFilled k true :=
          release_memory (release_of_unlock hpc hunlock h)
        have hheld := hinv.exclusive.held i k (by rw [hpc]; rfl)
        rw [hlock] at hfind hempty
        obtain rfl := Option.some.inj (hheld.1.symm.trans hfind)
        simp [MemoryLocks.setFilled] at hempty
      generalize hlock : w'.lock = lock at heffect
      cases heffect with
      | keep hholder hawait hinside =>
          exact hinv.keep hexclusive hcalls hlock hholder
      | enter hpc =>
          have hholder : (Pc.awaitLock (w.locks.enter c.key).2).holder = (w.calls i).holder := by
            rw [hpc]
            rfl
          have hlock' : w'.locks = (w.locks.enter c.key).1 := hlock
          cases hfind : w.locks.locks.find c.key with
          | some k =>
              rw [MemoryLocks.enter_of_find hfind] at hlock'
              exact hinv.keep hexclusive hcalls hlock' hholder
          | none =>
              -- The channel is made with its element in it.
              refine ⟨hexclusive, fun h' hfind' hempty => ?_⟩
              rw [hlock'] at hfind' hempty
              simp only [MemoryLocks.enter, hfind, MemoryLocks.create, Table.find_set_self,
                Option.some.injEq] at hfind' hempty
              subst hfind'
              simp at hempty
      | acquire hpc hacquire =>
          refine ⟨hexclusive, fun h' hfind hempty => ⟨i, ?_⟩⟩
          obtain ⟨-, hlock'⟩ := acquire_memory hacquire
          have hlocks : w'.locks = w.locks.setFilled _ false := hlock.trans hlock'
          rw [hlocks] at hfind
          have hawaited := hinv.exclusive.awaited i _ hpc
          obtain rfl := Option.some.inj (hawaited.symm.trans hfind)
          rw [hcalls, Function.update_self]
          rfl
      | release hpc hrelease =>
          exact hreleased _ _ hpc
      | abandon hpc =>
          exact hreleased _ _ hpc
  | logout o =>
      have hmoved := logoutStep_moved h
      have hlock : w'.locks = w.locks := hmoved.lock
      refine ⟨hexclusive, ?_⟩
      rw [hmoved.calls, hlock]
      exact hinv.holder
  | tick t =>
      obtain ⟨-, rfl⟩ := tick_success h
      exact ⟨hexclusive, hinv.holder⟩
  | expireLock =>
      simp [Token.step, memoryLocker] at h

theorem unlocks_of_ne_fault
    {L : Locker} {w : World T S L} {o : Outcome} (h : ∀ e, o ≠ .fault e) :
    Unlocks w (.call i o) := by
  cases o <;> first | trivial | exact absurd rfl (h _)

theorem sound_manned (hlocker : c.manager.hasLocker = true) :
    Sound c (Manned (T := T) (S := S) c) where
  kept hw hstep ho := hw.step hlocker (unlocks_of_ne_fault ho) hstep
  released {w j h result} hw hpc := by
    have hempty := (hw.exclusive.held j h (by rw [hpc]; rfl)).2
    have hempty' : (w.lock : MemoryLocks).filled h = false := hempty
    simp [memoryLocker, hempty']

theorem rank_le_of_holder {pc : Pc} {h : Nat} (hpc : pc.holder = some h) :
    pc.rank ≤ 9 := by
  cases pc <;> simp [Pc.holder] at hpc <;> simp [Pc.rank]

/-- The event is a step of a call without a fault; `r` has an answer of the identity provider
for each call. -/
def SmoothAny (r : Nat → Except Err TokenSet) (e : Event) : Prop :=
  ∃ i, Smooth (r i) i e

/-- The call that waits gets the lock when the call behind it has left. -/
theorem Manned.free
    (hlocker : c.manager.hasLocker = true) (r : Nat → Except Err TokenSet)
    (w : World T S memoryLocker) (h : Nat) (hinv : Manned c w) (hpc : w.calls i = .awaitLock h) :
    ∃ es w₁, (∀ e ∈ es, SmoothAny r e) ∧ Run.exec (Token.step c) w es = some w₁ ∧
      w₁.calls i = .awaitLock h ∧ Manned c w₁ ∧
      (memoryLocker.acquire w₁.lock w₁.now c.manager.effectiveLockTTL c.key h).isSome := by
  have hgranted {w₁ : World T S memoryLocker} (hfilled : w₁.locks.filled h = true) :
      (memoryLocker.acquire w₁.lock w₁.now c.manager.effectiveLockTTL c.key h).isSome := by
    have hfilled' : (w₁.lock : MemoryLocks).filled h = true := hfilled
    simp [memoryLocker, hfilled']
  cases hfilled : w.locks.filled h with
  | true =>
      exact ⟨[], w, by simp, rfl, hpc, hinv, hgranted hfilled⟩
  | false =>
      obtain ⟨j, hj⟩ := hinv.holder h (hinv.exclusive.awaited i h hpc) hfilled
      obtain ⟨es, w₁, hleft, hothers⟩ :=
        (sound_manned hlocker).leaves (r j) hinv (rank_le_of_holder hj)
      have hij : i ≠ j := by
        rintro rfl
        rw [hpc] at hj
        cases hj
      have hpc₁ : w₁.calls i = .awaitLock h := (hothers i hij).trans hpc
      refine ⟨es, w₁, fun e he => ⟨j, hleft.events e he⟩, hleft.run, hpc₁, hleft.sound,
        hgranted ?_⟩
      -- Otherwise another call would be behind the lock, and would have been before.
      by_contra hempty
      obtain ⟨k, hk⟩ := hleft.sound.holder h (hleft.sound.exclusive.awaited i h hpc₁)
        (by simpa using hempty)
      by_cases hkj : k = j
      · subst hkj
        obtain ⟨result, hdone⟩ := hleft.done
        rw [hdone] at hk
        cases hk
      · rw [hothers k hkj] at hk
        exact hkj (hinv.exclusive.unique k j h h hk hj)

theorem not_spawn_of_smooth
    {r : Nat → Except Err TokenSet} {es : List Event} (h : ∀ e ∈ es, SmoothAny r e) :
    Event.spawn i ∉ es := by
  intro hmem
  obtain ⟨j, hj | hj⟩ := h _ hmem <;> cases hj

/-- The calls of a list return, one after the other. -/
theorem Manned.all_return
    (hlocker : c.manager.hasLocker = true) (r : Nat → Except Err TokenSet)
    (hinv : Manned c w) (calls : List Nat) :
    ∃ es w', (∀ e ∈ es, SmoothAny r e) ∧ Run.exec (Token.step c) w es = some w' ∧
      ∀ i ∈ calls, w'.calls i = .idle ∨ ∃ result, w'.calls i = .done result := by
  induction calls generalizing w with
  | nil =>
      exact ⟨[], w, by simp, rfl, by simp⟩
  | cons i rest ih =>
      by_cases hidle : w.calls i = .idle
      · obtain ⟨es, w', hevents, hrun, hrest⟩ := ih hinv
        refine ⟨es, w', hevents, hrun, List.forall_mem_cons.mpr ⟨Or.inl ?_, hrest⟩⟩
        exact idle_of_run (not_spawn_of_smooth hevents) hidle hrun
      · obtain ⟨es₁, w₁, hreturned⟩ := (sound_manned hlocker).returns (r i) (P := SmoothAny r)
          (fun e he => ⟨i, he⟩) (Manned.free hlocker r) hinv hidle
        obtain ⟨es, w', hevents, hrun, hrest⟩ := ih hreturned.sound
        obtain ⟨result, hdone⟩ := hreturned.done
        refine ⟨es₁ ++ es, w', ?_, ?_, List.forall_mem_cons.mpr
          ⟨Or.inr ⟨result, done_of_run hdone hrun⟩, hrest⟩⟩
        · exact fun e he => (List.mem_append.mp he).elim (hreturned.events e) (hevents e)
        · rw [Run.exec_append, hreturned.run]
          exact hrun

/-- The calls that some events make. -/
def spawned (es : List Event) : List Nat :=
  es.filterMap fun
    | .spawn i => some i
    | _ => none

/-- **Refreshes end.**  Behind the memory lock, any run in which no unlock fails can be continued
without a fault, whatever the identity provider answers to each call, until every call has
returned; and no call takes more than thirteen steps in the whole. -/
theorem refresh_runs_complete
    (T : Store) (S : Session.Store) (c : Setting) (hlocker : c.manager.hasLocker = true)
    (w₀ w : World T S memoryLocker) (es : List Event)
    (hidle : ∀ i, w₀.calls i = .idle) (hlock : w₀.locks = .empty)
    (hunlock : Run.Guarded (step c) Unlocks w₀ es)
    (hrun : Run.exec (step c) w₀ es = some w) (r : Nat → Except Err TokenSet) :
    ∃ es' w', (∀ e ∈ es', SmoothAny r e) ∧ Run.exec (step c) w es' = some w' ∧ Finished w' ∧
      ∀ i, (es ++ es').countP (Event.stepOf i) ≤ 13 := by
  have hinv : Manned c w :=
    Run.invariant_of_guarded (fun _ _ _ hw hg hstep => hw.step hlocker hg hstep)
      (manned_of_idle c hidle hlock) hunlock hrun
  obtain ⟨es', w', hevents, hrun', hreturned⟩ := hinv.all_return hlocker r (spawned es)
  refine ⟨es', w', hevents, hrun', fun i => ?_, fun i => ?_⟩
  · by_cases hi : Event.spawn i ∈ es
    · exact hreturned i (List.mem_filterMap.mpr ⟨_, hi, rfl⟩)
    · exact Or.inl (idle_of_run (not_spawn_of_smooth hevents) (idle_of_run hi (hidle i) hrun) hrun')
  · have hwhole : Run.exec (step c) w₀ (es ++ es') = some w' := by
      rw [Run.exec_append, hrun]
      exact hrun'
    have hpaid := steps_add_rank_le (i := i) hwhole
    rw [hidle i] at hpaid
    exact (Nat.le_add_right _ _).trans hpaid

/-- A call is behind the lock when another one waits for it. -/
def waitingCalls : List Event :=
  refreshStarts 0 ++ [.spawn 1, .call 1 .ok, .call 1 .ok, .call 1 .ok]

/-- The second call cannot go on, and yet both calls can be brought to their ends, with an answer
for the first that differs from that for the second. -/
theorem refresh_runs_complete_waiting :
    ∃ w, Run.exec (step sampleSetting) memoryWorld waitingCalls = some w ∧
      (callStep sampleSetting w 1 .ok).isNone = true ∧
      ∃ es' w', (∀ e ∈ es', SmoothAny
          (fun i => .error (.text (if i = 0 then "server_error" else "invalid_grant"))) e) ∧
        Run.exec (step sampleSetting) w es' = some w' ∧ Finished w' ∧
        ∀ i, (waitingCalls ++ es').countP (Event.stepOf i) ≤ 13 := by
  have hblocked : (Run.exec (step sampleSetting) memoryWorld waitingCalls).map
      (fun w => (callStep sampleSetting w 1 .ok).isNone) = some true := by
    decide +kernel
  obtain ⟨w, hrun, hw⟩ := Option.map_eq_some_iff.mp hblocked
  refine ⟨w, hrun, hw, ?_⟩
  exact refresh_runs_complete memoryStore Session.memoryStore sampleSetting rfl memoryWorld w _
    (fun _ => rfl) rfl (by simp [waitingCalls, refreshStarts, Run.Guarded, Unlocks]) hrun _

end Memory

end Token
end GatewayRuntime
