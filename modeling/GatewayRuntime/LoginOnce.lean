import GatewayRuntime.Lib.Ticket
import GatewayRuntime.LoginFlow

/-!
# A login state is used once

Over any interleaving of `StartLogin` and `CompleteCallback` calls, a state leads to
at most one exchange, with the nonce and the code verifier of its own login, and an
exchange to at most one session.

The states are tickets: minted when they are drawn, issued and deposited by `Put`,
taken out by the first callback that names them, and passed on through the exchange
and the creation of a session.  The session ids are tickets as well.  That a record
carries the data of the flow it comes from is a second invariant, `Genuine`.
-/

namespace GatewayRuntime
namespace Auth

open Token (TokenSet)
open Relation (ReflTransGen)

variable {F : Flow.Store} {svc : Service}

section Tickets

/-- The state that a call has in hand, and the stages it has passed: issued, exchanged,
turned into a session. -/
def Pc.ticket : Pc → Option (String × Nat)
  | .readClock state _ _ _ => some (state, 0)
  | .putFlow flow => some (flow.state, 0)
  | .check _ (some flow) _ => some (flow.state, 1)
  | .exchange _ flow _ => some (flow.state, 1)
  | .awaitExchange flow => some (flow.state, 2)
  | .drawSession flow _ => some (flow.state, 2)
  | .readSessionClock flow _ _ => some (flow.state, 2)
  | .putSession flow _ _ => some (flow.state, 2)
  | _ => none

/-- The states as tickets. -/
def World.tickets (w : World F) : Ticket.State String Nat where
  minted k := k ∈ w.drawn
  stored k := ∃ f, F.holds w.flows k f
  holder i := (w.calls i).ticket
  passed
    | 0 => w.issued.map Flow.state
    | 1 => w.exchanges.map ExchangeCall.state
    | 2 => w.sessions.map CreatedSession.state
    | _ => []

/-- The session id that a call has drawn for the session it creates. -/
def Pc.sessionTicket : Pc → Option (String × Nat)
  | .readSessionClock _ _ sessionID => some (sessionID, 0)
  | .putSession _ session _ => some (session.id, 0)
  | _ => none

/-- The session ids as tickets. -/
def World.sessionTickets (w : World F) : Ticket.State String Nat where
  minted k := k ∈ w.drawn
  stored _ := False
  holder i := (w.calls i).sessionTicket
  passed
    | 0 => w.sessions.map CreatedSession.sessionID
    | _ => []

theorem tickets_goto (w : World F) (i : Nat) (pc : Pc) :
    (w.goto i pc).tickets =
      { w.tickets with holder := Function.update w.tickets.holder i pc.ticket } := by
  have hholder : (fun j => (Function.update w.calls i pc j).ticket) =
      Function.update (fun j => (w.calls j).ticket) i pc.ticket :=
    Function.comp_update Pc.ticket w.calls i pc
  simp only [World.goto, World.tickets, hholder]

theorem sessionTickets_goto (w : World F) (i : Nat) (pc : Pc) :
    (w.goto i pc).sessionTickets =
      { w.sessionTickets with
        holder := Function.update w.sessionTickets.holder i pc.sessionTicket } := by
  have hholder : (fun j => (Function.update w.calls i pc j).sessionTicket) =
      Function.update (fun j => (w.calls j).sessionTicket) i pc.sessionTicket :=
    Function.comp_update Pc.sessionTicket w.calls i pc
  simp only [World.goto, World.sessionTickets, hholder]

/-- A call goes on with the ticket it has in hand, or without one. -/
theorem moves_goto
    (w : World F) (i : Nat) (pc : Pc)
    (h : pc.ticket = (w.calls i).ticket ∨ pc.ticket = none) :
    ReflTransGen (Ticket.Move 1) w.tickets (w.goto i pc).tickets := by
  rw [tickets_goto]
  rcases h with h | h
  · rw [h, show (w.calls i).ticket = w.tickets.holder i from rfl, Function.update_eq_self]
  · rw [h]
    exact ReflTransGen.single (.drop i)

theorem sessionMoves_goto
    (w : World F) (i : Nat) (pc : Pc)
    (h : pc.sessionTicket = (w.calls i).sessionTicket ∨ pc.sessionTicket = none) :
    ReflTransGen (Ticket.Move 0) w.sessionTickets (w.goto i pc).sessionTickets := by
  rw [sessionTickets_goto]
  rcases h with h | h
  · rw [h, show (w.calls i).sessionTicket = w.sessionTickets.holder i from rfl,
      Function.update_eq_self]
  · rw [h]
    exact ReflTransGen.single (.drop i)

end Tickets

section Effects

/-- What the place of a call says about the records. -/
def Pc.Genuine (w : World F) : Pc → Prop
  | .authorize flow => flow ∈ w.issued
  | .check _ (some flow) takenAt => flow ∈ w.issued ∧ takenAt ≤ w.now
  | .exchange _ flow takenAt => flow ∈ w.issued ∧ takenAt < flow.expiresAt
  | .awaitExchange flow => flow ∈ w.issued ∧ ∃ x ∈ w.exchanges, x.state = flow.state
  | .drawSession flow _ => flow ∈ w.issued ∧ ∃ x ∈ w.exchanges, x.state = flow.state
  | .readSessionClock flow _ _ => flow ∈ w.issued ∧ ∃ x ∈ w.exchanges, x.state = flow.state
  | .putSession flow _ _ => flow ∈ w.issued ∧ ∃ x ∈ w.exchanges, x.state = flow.state
  | .putTokens flow session _ => ⟨flow.state, session.id, flow.returnTo⟩ ∈ w.sessions
  | .callbackDone (.ok r) =>
      ∃ s ∈ w.sessions, s.sessionID = r.sessionID ∧ s.returnTo = r.returnTo
  | _ => True

/-- What a step of call `i` can do: the call goes on by itself, with what it has in hand or
without it, or one of the stores, the records and the drawn values changes. -/
inductive Effect (svc : Service) (w : World F) (i : Nat) : World F → Prop
  | move
      (pc : Pc)
      (hticket : pc.ticket = (w.calls i).ticket ∨ pc.ticket = none)
      (hsession : pc.sessionTicket = (w.calls i).sessionTicket ∨ pc.sessionTicket = none)
      (hgenuine : (w.calls i).Genuine w → pc.Genuine w) :
      Effect svc w i (w.goto i pc)
  | random
      {returnTo state nonce verifier : String}
      (hpc : w.calls i = .draw returnTo)
      (hnew : (state :: nonce :: verifier :: w.drawn).Nodup) :
      Effect svc w i
        ({ w with drawn := state :: nonce :: verifier :: w.drawn }.goto i
          (.readClock state nonce verifier returnTo))
  | putFlow
      {flow : Flow}
      (hpc : w.calls i = .putFlow flow)
      (hok : (F.put w.flows w.now flow).2 = .ok ()) :
      Effect svc w i
        ({ w with flows := (F.put w.flows w.now flow).1, issued := flow :: w.issued }.goto i
          (.authorize flow))
  | putFlowError
      {flow : Flow} {e : Err}
      (herr : (F.put w.flows w.now flow).2 = .error e) :
      Effect svc w i
        ({ w with flows := (F.put w.flows w.now flow).1 }.goto i (.loginDone (.error e)))
  | authorize
      {flow : Flow} {r : Except Err String}
      (hpc : w.calls i = .authorize flow) :
      Effect svc w i
        ({ w with
          urls := ⟨flow.state, flow.nonce, svc.S256 flow.codeVerifier, svc.redirectURI⟩ ::
            w.urls }.goto i (.loginDone r))
  | take
      {state code : String}
      (hpc : w.calls i = .take state code) :
      Effect svc w i
        ({ w with flows := (F.consume w.flows w.now state).1 }.goto i
          (.check code (F.consume w.flows w.now state).2 w.now))
  | exchange
      {code : String} {flow : Flow} {takenAt : Int}
      (hpc : w.calls i = .exchange code flow takenAt) :
      Effect svc w i
        ({ w with
          exchanges := ⟨flow.state, takenAt, code, flow.codeVerifier, svc.redirectURI, flow.nonce⟩ ::
            w.exchanges }.goto i (.awaitExchange flow))
  | randomID
      {flow : Flow} {result : ExchangeResult} {sessionID : String}
      (hpc : w.calls i = .drawSession flow result)
      (hnew : (sessionID :: w.drawn).Nodup) :
      Effect svc w i
        ({ w with drawn := sessionID :: w.drawn }.goto i
          (.readSessionClock flow result sessionID))
  | putSession
      {flow : Flow} {session : Session} {tokens : TokenSet}
      (hpc : w.calls i = .putSession flow session tokens) :
      Effect svc w i
        ({ w with sessions := ⟨flow.state, session.id, flow.returnTo⟩ :: w.sessions }.goto i
          (.putTokens flow session tokens))

/-- The call goes on with nothing in hand. -/
theorem Effect.leave
    {w : World F} {i : Nat} {pc : Pc}
    (hticket : pc.ticket = none)
    (hsession : pc.sessionTicket = none)
    (hgenuine : pc.Genuine w) :
    Effect svc w i (w.goto i pc) :=
  .move pc (Or.inr hticket) (Or.inr hsession) fun _ => hgenuine

theorem effect_of_callStep
    {w w' : World F} {i : Nat} {input : Input}
    (h : callStep svc w i input = some w') :
    Effect svc w i w' := by
  unfold callStep at h
  split at h <;> try cases h
  · next hpc =>
      -- `StartLogin`
      unfold beginLogin
      simp only
      split_ifs <;> exact .leave rfl rfl trivial
  · next hpc =>
      -- `CompleteCallback`
      unfold beginCallback
      split_ifs <;> exact .leave rfl rfl trivial
  · exact .leave rfl rfl trivial
  · next hpc =>
      split_ifs at h with hnew
      cases h
      exact .random hpc hnew
  · next hpc =>
      exact .move _ (Or.inl (by rw [hpc]; rfl)) (Or.inr rfl) fun _ => trivial
  · exact .leave rfl rfl trivial
  · next hpc =>
      split at h
      · next herr =>
          cases h
          exact .putFlowError herr
      · next hok =>
          cases h
          exact .putFlow hpc hok
  · next hpc =>
      exact .authorize hpc
  · exact .leave rfl rfl trivial
  · next hpc =>
      exact .take hpc
  · next code found takenAt hpc =>
      -- the expiry test of `Take`
      cases hcheck : Flow.check w.now found with
      | error e =>
          exact .leave rfl rfl trivial
      | ok flow =>
          obtain ⟨rfl, hlive⟩ := Flow.check_ok hcheck
          refine .move _ (Or.inl (by rw [hpc]; rfl)) (Or.inr rfl) fun hgenuine => ?_
          rw [hpc] at hgenuine
          exact ⟨hgenuine.1, lt_of_le_of_lt hgenuine.2 hlive⟩
  · next hpc =>
      exact .exchange hpc
  · next flow r hpc =>
      cases r with
      | error e =>
          exact .leave rfl rfl trivial
      | ok result =>
          unfold afterExchange
          simp only
          split_ifs
          · exact .leave rfl rfl trivial
          · refine .move _ (Or.inl (by rw [hpc]; rfl)) (Or.inr rfl) fun hgenuine => ?_
            rw [hpc] at hgenuine
            exact hgenuine
  · exact .leave rfl rfl trivial
  · next hpc =>
      split_ifs at h with hnew
      cases h
      exact .randomID hpc hnew
  · next hpc =>
      refine .move _ (Or.inl (by rw [hpc]; rfl)) (Or.inl (by rw [hpc]; rfl)) fun hgenuine => ?_
      rw [hpc] at hgenuine
      exact hgenuine
  · exact .leave rfl rfl trivial
  · next hpc =>
      exact .putSession hpc
  · exact .leave rfl rfl trivial
  · next hpc =>
      refine .move _ (Or.inr rfl) (Or.inr rfl) fun hgenuine => ?_
      rw [hpc] at hgenuine
      exact ⟨_, hgenuine, rfl, rfl⟩
  · exact .leave rfl rfl trivial
  · exact .leave rfl rfl trivial

end Effects

section Moves

/-- A login draws a new state. -/
theorem moves_random
    {w : World F} {i : Nat} {returnTo state nonce verifier : String}
    (hpc : w.calls i = .draw returnTo)
    (hnew : (state :: nonce :: verifier :: w.drawn).Nodup) :
    ReflTransGen (Ticket.Move 1) w.tickets
      ({ w with drawn := state :: nonce :: verifier :: w.drawn }.goto i
        (.readClock state nonce verifier returnTo)).tickets := by
  have hstate : state ∉ w.drawn := fun hmem =>
    (List.nodup_cons.mp hnew).1 (List.mem_cons_of_mem _ (List.mem_cons_of_mem _ hmem))
  have hmint : Ticket.Move 1 w.tickets _ :=
    .mint i state (by simp [World.tickets, hpc, Pc.ticket]) hstate
  refine (ReflTransGen.single hmint).tail (.lose (fun k hk => ?_) (fun k hk => hk) ?_ rfl)
  · rcases hk with hk | rfl
    · exact List.mem_cons_of_mem _ (List.mem_cons_of_mem _ (List.mem_cons_of_mem _ hk))
    · exact List.mem_cons_self
  · rw [tickets_goto]
    rfl

/-- A flow that is put is issued and deposited. -/
theorem moves_putFlow
    {w : World F} {i : Nat} {flow : Flow}
    (hpc : w.calls i = .putFlow flow)
    (hok : (F.put w.flows w.now flow).2 = .ok ()) :
    ReflTransGen (Ticket.Move 1) w.tickets
      ({ w with flows := (F.put w.flows w.now flow).1, issued := flow :: w.issued }.goto i
        (.authorize flow)).tickets := by
  have hpass : Ticket.Move 1 w.tickets _ :=
    .pass (c := i) (i := flow.state) (n := 0) (by simp [World.tickets, hpc, Pc.ticket])
  refine ((ReflTransGen.single hpass).tail
    (.deposit (c := i) (i := flow.state) (Function.update_self i _ w.tickets.holder))).tail
    (.lose (fun k hk => hk) ?_ ?_ ?_)
  · rintro k ⟨g, hg⟩
    rcases F.holds_of_put_ok hok hg with ⟨hk, _⟩ | ⟨_, hg⟩
    · exact Or.inr hk
    · exact Or.inl ⟨g, hg⟩
  · rw [tickets_goto]
    exact (Function.update_idem _ _ _).symm
  · funext n
    match n with
    | 0 => rfl
    | 1 => rfl
    | 2 => rfl
    | _ + 3 => rfl

/-- A flow that is not put leaves the store as it was. -/
theorem moves_putFlow_error
    {w : World F} {i : Nat} {flow : Flow} {e : Err}
    (herr : (F.put w.flows w.now flow).2 = .error e) :
    ReflTransGen (Ticket.Move 1) w.tickets
      ({ w with flows := (F.put w.flows w.now flow).1 }.goto i (.loginDone (.error e))).tickets := by
  have hdrop : Ticket.Move 1 w.tickets _ := .drop i
  refine (ReflTransGen.single hdrop).tail (.lose (fun k hk => hk) ?_ ?_ rfl)
  · rintro k ⟨g, hg⟩
    exact ⟨g, F.holds_of_put_error herr hg⟩
  · rw [tickets_goto]
    rfl

/-- A callback takes the flow of its state out of the store, if there is one. -/
theorem moves_take
    {w : World F} {i : Nat} {state code : String}
    (hpc : w.calls i = .take state code) :
    ReflTransGen (Ticket.Move 1) w.tickets
      ({ w with flows := (F.consume w.flows w.now state).1 }.goto i
        (.check code (F.consume w.flows w.now state).2 w.now)).tickets := by
  have hfree : w.tickets.holder i = none := by
    simp [World.tickets, hpc, Pc.ticket]
  cases hfound : (F.consume w.flows w.now state).2 with
  | none =>
      refine ReflTransGen.single (.lose (fun k hk => hk) ?_ ?_ rfl)
      · rintro k ⟨g, hg⟩
        exact ⟨g, (F.holds_of_consume hg).2⟩
      · rw [tickets_goto]
        exact (Function.update_eq_self_iff.mpr hfree.symm)
  | some flow =>
      have hholds := F.consume_some hfound
      have htake : Ticket.Move 1 w.tickets _ :=
        .take (c := i) (i := state) hfree ⟨flow, hholds⟩
      refine (ReflTransGen.single htake).tail (.lose (fun k hk => hk) ?_ ?_ rfl)
      · rintro k ⟨g, hg⟩
        obtain ⟨hk, hg⟩ := F.holds_of_consume hg
        exact ⟨⟨g, hg⟩, hk⟩
      · rw [tickets_goto, ← F.holds_state hholds]
        rfl

/-- The code of a state is exchanged. -/
theorem moves_exchange
    {w : World F} {i : Nat} {code : String} {flow : Flow} {takenAt : Int}
    (hpc : w.calls i = .exchange code flow takenAt)
    {call : ExchangeCall} (hcall : call.state = flow.state) :
    ReflTransGen (Ticket.Move 1) w.tickets
      ({ w with exchanges := call :: w.exchanges }.goto i (.awaitExchange flow)).tickets := by
  have hpass : Ticket.Move 1 w.tickets _ :=
    .pass (c := i) (i := flow.state) (n := 1) (by simp [World.tickets, hpc, Pc.ticket])
  refine (ReflTransGen.single hpass).tail (.lose (fun k hk => hk) (fun k hk => hk) ?_ ?_)
  · rw [tickets_goto]
    rfl
  · funext n
    match n with
    | 0 => rfl
    | 1 => exact congrArg (· :: w.exchanges.map ExchangeCall.state) hcall
    | 2 => rfl
    | _ + 3 => rfl

/-- A session is created for a state. -/
theorem moves_putSession
    {w : World F} {i : Nat} {flow : Flow} {session : Session} {tokens : TokenSet}
    (hpc : w.calls i = .putSession flow session tokens)
    {created : CreatedSession} (hcreated : created.state = flow.state) :
    ReflTransGen (Ticket.Move 1) w.tickets
      ({ w with sessions := created :: w.sessions }.goto i
        (.putTokens flow session tokens)).tickets := by
  have hpass : Ticket.Move 1 w.tickets _ :=
    .pass (c := i) (i := flow.state) (n := 2) (by simp [World.tickets, hpc, Pc.ticket])
  refine ((ReflTransGen.single hpass).tail (.drop i)).tail
    (.lose (fun k hk => hk) (fun k hk => hk) ?_ ?_)
  · rw [tickets_goto]
    exact (Function.update_idem _ _ _).symm
  · funext n
    match n with
    | 0 => rfl
    | 1 => rfl
    | 2 => exact congrArg (· :: w.sessions.map CreatedSession.state) hcreated
    | _ + 3 => rfl

/-- Every step of a call is some moves of the states. -/
theorem moves_of_effect
    {w w' : World F} {i : Nat}
    (h : Effect svc w i w') :
    ReflTransGen (Ticket.Move 1) w.tickets w'.tickets := by
  cases h with
  | move pc hticket _ _ => exact moves_goto w i pc hticket
  | random hpc hnew => exact moves_random hpc hnew
  | putFlow hpc hok => exact moves_putFlow hpc hok
  | putFlowError herr => exact moves_putFlow_error herr
  | @authorize flow r hpc =>
      exact moves_goto { w with urls := _ } i _ (Or.inr rfl)
  | take hpc => exact moves_take hpc
  | exchange hpc => exact moves_exchange hpc rfl
  | @randomID flow result sessionID hpc hnew =>
      refine ReflTransGen.single (.lose (fun k hk => List.mem_cons_of_mem _ hk) (fun k hk => hk) ?_ rfl)
      rw [tickets_goto]
      exact Function.update_eq_self_iff.mpr (by simp [World.tickets, hpc, Pc.ticket])
  | putSession hpc => exact moves_putSession hpc rfl

/-- Every step of a call is some moves of the session ids. -/
theorem sessionMoves_of_effect
    {w w' : World F} {i : Nat}
    (h : Effect svc w i w') :
    ReflTransGen (Ticket.Move 0) w.sessionTickets w'.sessionTickets := by
  cases h with
  | move pc _ hsession _ => exact sessionMoves_goto w i pc hsession
  | @random returnTo state nonce verifier hpc hnew =>
      refine ReflTransGen.single (.lose (fun k hk => ?_) (fun k hk => hk) ?_ rfl)
      · exact List.mem_cons_of_mem _ (List.mem_cons_of_mem _ (List.mem_cons_of_mem _ hk))
      · rw [sessionTickets_goto]
        exact Function.update_eq_self_iff.mpr (by simp [World.sessionTickets, hpc, Pc.sessionTicket])
  | putFlow hpc hok => exact sessionMoves_goto { w with flows := _, issued := _ } i _ (Or.inr rfl)
  | putFlowError herr => exact sessionMoves_goto { w with flows := _ } i _ (Or.inr rfl)
  | authorize hpc => exact sessionMoves_goto { w with urls := _ } i _ (Or.inr rfl)
  | take hpc => exact sessionMoves_goto { w with flows := _ } i _ (Or.inr rfl)
  | exchange hpc => exact sessionMoves_goto { w with exchanges := _ } i _ (Or.inr rfl)
  | @randomID flow result sessionID hpc hnew =>
      have hmint : Ticket.Move 0 w.sessionTickets _ :=
        .mint i sessionID (by simp [World.sessionTickets, hpc, Pc.sessionTicket])
          (List.nodup_cons.mp hnew).1
      refine (ReflTransGen.single hmint).tail (.lose (fun k hk => ?_) (fun k hk => hk) ?_ rfl)
      · rcases hk with hk | rfl
        · exact List.mem_cons_of_mem _ hk
        · exact List.mem_cons_self
      · rw [sessionTickets_goto]
        rfl
  | @putSession flow session tokens hpc =>
      have hpass : Ticket.Move 0 w.sessionTickets _ :=
        .pass (c := i) (i := session.id) (n := 0)
          (by simp [World.sessionTickets, hpc, Pc.sessionTicket])
      refine ((ReflTransGen.single hpass).tail (.drop i)).tail
        (.lose (fun k hk => hk) (fun k hk => hk) ?_ ?_)
      · rw [sessionTickets_goto]
        exact (Function.update_idem _ _ _).symm
      · funext n
        match n with
        | 0 => rfl
        | _ + 1 => rfl

end Moves

section Genuineness

/-- The records of `w` are kept in `w'`, and time does not go back. -/
structure Extends (w w' : World F) : Prop where
  now_le : w.now ≤ w'.now
  issued : ∀ {f}, f ∈ w.issued → f ∈ w'.issued
  exchanges : ∀ {x}, x ∈ w.exchanges → x ∈ w'.exchanges
  sessions : ∀ {s}, s ∈ w.sessions → s ∈ w'.sessions

theorem Pc.Genuine.mono
    {w w' : World F} (h : Extends w w') {pc : Pc}
    (hpc : pc.Genuine w) :
    pc.Genuine w' := by
  have hexchange {f : Flow} (hf : f ∈ w.issued ∧ ∃ x ∈ w.exchanges, x.state = f.state) :
      f ∈ w'.issued ∧ ∃ x ∈ w'.exchanges, x.state = f.state := by
    obtain ⟨hf, x, hx, hstate⟩ := hf
    exact ⟨h.issued hf, x, h.exchanges hx, hstate⟩
  cases pc with
  | authorize flow => exact h.issued hpc
  | check code found takenAt =>
      cases found with
      | none => trivial
      | some flow => exact ⟨h.issued hpc.1, hpc.2.trans h.now_le⟩
  | exchange code flow takenAt => exact ⟨h.issued hpc.1, hpc.2⟩
  | awaitExchange flow => exact hexchange hpc
  | drawSession flow result => exact hexchange hpc
  | readSessionClock flow result sessionID => exact hexchange hpc
  | putSession flow session tokens => exact hexchange hpc
  | putTokens flow session tokens => exact h.sessions hpc
  | callbackDone result =>
      cases result with
      | error e => trivial
      | ok r =>
          obtain ⟨s, hs, hr⟩ := hpc
          exact ⟨s, h.sessions hs, hr⟩
  | _ => trivial

/-- The records stem from the flows that were issued. -/
structure Genuine (svc : Service) (w : World F) : Prop where
  held : ∀ {k f}, F.holds w.flows k f → f ∈ w.issued
  calls : ∀ i, (w.calls i).Genuine w
  urls : ∀ u ∈ w.urls, ∃ f ∈ w.issued,
    u = ⟨f.state, f.nonce, svc.S256 f.codeVerifier, svc.redirectURI⟩
  exchanges : ∀ x ∈ w.exchanges, ∃ f ∈ w.issued,
    x = ⟨f.state, x.takenAt, x.code, f.codeVerifier, svc.redirectURI, f.nonce⟩ ∧
      x.takenAt < f.expiresAt
  sessions : ∀ s ∈ w.sessions, (∃ f ∈ w.issued, s = ⟨f.state, s.sessionID, f.returnTo⟩) ∧
    ∃ x ∈ w.exchanges, x.state = s.state

/-- After a step of call `i`, the places of the calls are genuine if its own is. -/
theorem genuine_calls_goto
    {w w' : World F} {i : Nat} {pc : Pc}
    (hcalls : ∀ j, (w.calls j).Genuine w)
    (hsame : w'.calls = w.calls)
    (hextends : Extends w w')
    (hpc : pc.Genuine w') (j : Nat) :
    ((w'.goto i pc).calls j).Genuine (w'.goto i pc) := by
  have hgoto : Extends w' (w'.goto i pc) := ⟨le_rfl, id, id, id⟩
  refine Pc.Genuine.mono hgoto ?_
  by_cases hj : j = i
  · subst hj
    simpa [World.goto] using hpc
  · have hold : (w'.goto i pc).calls j = w.calls j := by
      rw [← hsame]
      exact Function.update_of_ne hj pc w'.calls
    rw [hold]
    exact (hcalls j).mono hextends

theorem genuine_of_effect
    {w w' : World F} {i : Nat}
    (hg : Genuine svc w)
    (h : Effect svc w i w') :
    Genuine svc w' := by
  cases h with
  | move pc _ _ hgenuine =>
      exact ⟨hg.held, genuine_calls_goto hg.calls rfl ⟨le_rfl, id, id, id⟩ (hgenuine (hg.calls i)),
        hg.urls, hg.exchanges, hg.sessions⟩
  | random hpc hnew =>
      exact ⟨hg.held, genuine_calls_goto hg.calls rfl ⟨le_rfl, id, id, id⟩ trivial,
        hg.urls, hg.exchanges, hg.sessions⟩
  | @putFlow flow hpc hok =>
      refine ⟨?_, genuine_calls_goto hg.calls rfl ⟨le_rfl, List.mem_cons_of_mem _, id, id⟩
        List.mem_cons_self, ?_, ?_, ?_⟩
      · intro k f hf
        rcases F.holds_of_put_ok hok hf with ⟨_, rfl⟩ | ⟨_, hold⟩
        · exact List.mem_cons_self
        · exact List.mem_cons_of_mem _ (hg.held hold)
      · intro u hu
        obtain ⟨f, hf, rfl⟩ := hg.urls u hu
        exact ⟨f, List.mem_cons_of_mem _ hf, rfl⟩
      · intro x hx
        obtain ⟨f, hf, hx⟩ := hg.exchanges x hx
        exact ⟨f, List.mem_cons_of_mem _ hf, hx⟩
      · intro s hs
        obtain ⟨⟨f, hf, hs⟩, hx⟩ := hg.sessions s hs
        exact ⟨⟨f, List.mem_cons_of_mem _ hf, hs⟩, hx⟩
  | putFlowError herr =>
      exact ⟨fun hf => hg.held (F.holds_of_put_error herr hf),
        genuine_calls_goto hg.calls rfl ⟨le_rfl, id, id, id⟩ trivial,
        hg.urls, hg.exchanges, hg.sessions⟩
  | @authorize flow r hpc =>
      have hflow := hg.calls i
      rw [hpc] at hflow
      refine ⟨hg.held, genuine_calls_goto hg.calls rfl ⟨le_rfl, id, id, id⟩ trivial, ?_,
        hg.exchanges, hg.sessions⟩
      rintro u (_ | ⟨_, hu⟩)
      · exact ⟨flow, hflow, rfl⟩
      · exact hg.urls u hu
  | @take state code hpc =>
      refine ⟨fun hf => hg.held (F.holds_of_consume hf).2,
        genuine_calls_goto hg.calls rfl ⟨le_rfl, id, id, id⟩ ?_,
        hg.urls, hg.exchanges, hg.sessions⟩
      cases hfound : (F.consume w.flows w.now state).2 with
      | none => trivial
      | some flow => exact ⟨hg.held (F.consume_some hfound), le_rfl⟩
  | @exchange code flow takenAt hpc =>
      have hflow := hg.calls i
      rw [hpc] at hflow
      refine ⟨hg.held, genuine_calls_goto hg.calls rfl ⟨le_rfl, id, List.mem_cons_of_mem _, id⟩
        ⟨hflow.1, _, List.mem_cons_self, rfl⟩, hg.urls, ?_, ?_⟩
      · rintro x (_ | ⟨_, hx⟩)
        · exact ⟨flow, hflow.1, rfl, hflow.2⟩
        · exact hg.exchanges x hx
      · intro s hs
        obtain ⟨hf, x, hx, hstate⟩ := hg.sessions s hs
        exact ⟨hf, x, List.mem_cons_of_mem _ hx, hstate⟩
  | @randomID flow result sessionID hpc hnew =>
      have hflow := hg.calls i
      rw [hpc] at hflow
      exact ⟨hg.held, genuine_calls_goto hg.calls rfl ⟨le_rfl, id, id, id⟩ hflow,
        hg.urls, hg.exchanges, hg.sessions⟩
  | @putSession flow session tokens hpc =>
      have hflow := hg.calls i
      rw [hpc] at hflow
      refine ⟨hg.held, genuine_calls_goto hg.calls rfl ⟨le_rfl, id, id, List.mem_cons_of_mem _⟩
        List.mem_cons_self, hg.urls, hg.exchanges, ?_⟩
      rintro s (_ | ⟨_, hs⟩)
      · exact ⟨⟨flow, hflow.1, rfl⟩, hflow.2⟩
      · exact hg.sessions s hs

end Genuineness

section Results

/-- The invariant of a run. -/
structure Inv (svc : Service) (w : World F) : Prop where
  states : Ticket.Sound 1 w.tickets
  sessionIDs : Ticket.Sound 0 w.sessionTickets
  genuine : Genuine svc w

theorem inv_step
    {w w' : World F} {e : Event}
    (h : Inv svc w)
    (hstep : step svc w e = some w') :
    Inv svc w' := by
  cases e with
  | call i input =>
      have heffect := effect_of_callStep hstep
      exact ⟨h.states.of_moves (moves_of_effect heffect),
        h.sessionIDs.of_moves (sessionMoves_of_effect heffect),
        genuine_of_effect h.genuine heffect⟩
  | tick t =>
      simp only [step] at hstep
      split_ifs at hstep with hle
      cases hstep
      have hextends : Extends w { w with now := t } := ⟨hle, id, id, id⟩
      exact ⟨h.states, h.sessionIDs, h.genuine.held, fun i => (h.genuine.calls i).mono hextends,
        h.genuine.urls, h.genuine.exchanges, h.genuine.sessions⟩

theorem inv_initial
    {flows : F.State} (now : Int)
    (hempty : ∀ k f, ¬ F.holds flows k f) :
    Inv svc (World.initial now flows) where
  states := by
    refine .of_empty (fun _ => rfl) ?_ fun m => ?_
    · rintro k ⟨f, hf⟩
      exact hempty k f hf
    · match m with
      | 0 | 1 | 2 | _ + 3 => rfl
  sessionIDs := by
    refine .of_empty (fun _ => rfl) (fun _ => id) fun m => ?_
    match m with
    | 0 | _ + 1 => rfl
  genuine := by
    refine ⟨fun hf => absurd hf (hempty _ _), fun _ => trivial, ?_, ?_, ?_⟩
    all_goals simp [World.initial]

/-- In every run over a flow store that was empty at the start: a state leads to at most one
exchange; that exchange was made for a flow that was issued under the state and taken before
its expiry, with the nonce and the code verifier of that flow, whose challenge went into the
authorization URL of its login; and every session belongs to exactly one exchange and goes
back to where its login came from. -/
theorem login_state_one_time
    (svc : Service) (F : Flow.Store) (start : Int) (flows : F.State)
    (hempty : ∀ k f, ¬ F.holds flows k f)
    (events : List Event) (w : World F)
    (hrun : Run.exec (step svc) (World.initial start flows) events = some w) :
    (w.issued.map Flow.state).Nodup ∧
    (w.exchanges.map ExchangeCall.state).Nodup ∧
    (∀ x ∈ w.exchanges, ∃ f ∈ w.issued, x.state = f.state ∧ x.takenAt < f.expiresAt ∧
      x.nonce = f.nonce ∧ x.codeVerifier = f.codeVerifier ∧
      ∀ u ∈ w.urls, u.state = x.state →
        u.nonce = x.nonce ∧ u.codeChallenge = svc.S256 x.codeVerifier) ∧
    (∀ state, state ∉ w.issued.map Flow.state → state ∉ w.exchanges.map ExchangeCall.state) ∧
    (w.sessions.map CreatedSession.sessionID).Nodup ∧
    (w.sessions.map CreatedSession.state).Nodup ∧
    (∀ s ∈ w.sessions, (∃! x, x ∈ w.exchanges ∧ x.state = s.state) ∧
      ∃ f ∈ w.issued, f.state = s.state ∧ s.returnTo = f.returnTo) ∧
    ∀ i r, w.calls i = .callbackDone (.ok r) →
      ∃ s ∈ w.sessions, s.sessionID = r.sessionID ∧ s.returnTo = r.returnTo := by
  have hinv : Inv svc w :=
    Run.exec_invariant (I := Inv svc) (fun _ _ _ h hstep => inv_step h hstep)
      (inv_initial start hempty) hrun
  have hissued : (w.issued.map Flow.state).Nodup := hinv.states.passed_nodup 0
  have hexchanges : (w.exchanges.map ExchangeCall.state).Nodup := hinv.states.passed_nodup 1
  have hsame {f g : Flow} (hf : f ∈ w.issued) (hg : g ∈ w.issued) (h : f.state = g.state) :
      f = g := List.inj_on_of_nodup_map hissued hf hg h
  refine ⟨hissued, hexchanges, ?_, ?_, hinv.sessionIDs.passed_nodup 0, hinv.states.passed_nodup 2,
    ?_, ?_⟩
  · intro x hx
    obtain ⟨f, hf, heq, hlive⟩ := hinv.genuine.exchanges x hx
    rw [heq]
    refine ⟨f, hf, rfl, hlive, rfl, rfl, fun u hu hstate => ?_⟩
    obtain ⟨g, hg, rfl⟩ := hinv.genuine.urls u hu
    obtain rfl := hsame hg hf hstate
    exact ⟨rfl, rfl⟩
  · intro state hnew hmem
    obtain ⟨x, hx, rfl⟩ := List.mem_map.mp hmem
    obtain ⟨f, hf, heq, _⟩ := hinv.genuine.exchanges x hx
    exact hnew (List.mem_map.mpr ⟨f, hf, by rw [heq]⟩)
  · intro s hs
    obtain ⟨⟨f, hf, heq⟩, x, hx, hstate⟩ := hinv.genuine.sessions s hs
    refine ⟨⟨x, ⟨hx, hstate⟩, fun y hy => ?_⟩, f, hf, by rw [heq], by rw [heq]⟩
    exact List.inj_on_of_nodup_map hexchanges hy.1 hx (hy.2.trans hstate.symm)
  · intro i r hpc
    have hdone := hinv.genuine.calls i
    rw [hpc] at hdone
    exact hdone

/-- Two callbacks race for the state of one login. -/
def racingCallbacks : List Event :=
  [.call 0 (.login "/app"), .call 0 (.random "s" "n" "v"), .call 0 .ok, .call 0 .ok,
    .call 0 (.url (.ok "https://idp/authorize")),
    .call 1 (.callback "s" "c"), .call 2 (.callback "s" "c"), .call 1 .ok, .call 2 .ok,
    .tick (1 + 299 * 1000000000), .call 2 .ok, .call 1 .ok, .call 1 .ok,
    .call 1 (.answer (.ok ⟨⟨"alice", "idp", "", "", "", []⟩, ⟨"a", "r", "i", 0⟩⟩)),
    .call 1 (.randomID "sid"), .call 1 .ok, .call 1 .ok, .call 1 .ok]

theorem racing_callbacks_one_exchange :
    ∃ w : World Flow.memoryStore,
      Run.exec (step ⟨true, true, "https://gw/callback", 0, 0, id⟩)
        (World.initial 1 Flow.MemoryState.empty) racingCallbacks = some w ∧
      w.exchanges.length = 1 ∧ (w.exchanges.map ExchangeCall.state).Nodup ∧
      w.sessions = [⟨"s", "sid", "/app"⟩] := by
  refine ⟨_, rfl, rfl, ?_, rfl⟩
  exact (login_state_one_time ⟨true, true, "https://gw/callback", 0, 0, id⟩ Flow.memoryStore 1
    Flow.MemoryState.empty (by nofun) racingCallbacks _ rfl).2.1

end Results

end Auth
end GatewayRuntime
