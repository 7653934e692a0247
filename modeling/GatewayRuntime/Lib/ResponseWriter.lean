import Mathlib.Data.List.Basic

/-!
# Response writers

An `http.ResponseWriter` as a state with its two operations, and the writer of the server in
`net/http`: the status of a response is decided once.  An informational status is sent at
once and decides nothing, a write decides for 200, and so does the end of the handler.

`finalStatus` runs the server's writer; `decidedStatus` says which of the calls decides.
-/

namespace GatewayRuntime
namespace ResponseWriter

universe u

/-- A call on a writer; of a write the number of bytes that the server takes is kept. -/
inductive Call where
  | writeHeader (status : Nat)
  | write (taken : Nat)
deriving DecidableEq

/-- A writer with states in `σ`. -/
structure Writer (σ : Type u) where
  writeHeader : σ → (status : Nat) → σ
  write : σ → (taken : Nat) → σ

namespace Writer

variable {σ : Type u}

/-- One call. -/
def step (w : Writer σ) (s : σ) : Call → σ
  | .writeHeader status => w.writeHeader s status
  | .write taken => w.write s taken

/-- The calls of a handler. -/
def run (w : Writer σ) (s : σ) (calls : List Call) : σ :=
  calls.foldl w.step s

@[simp] theorem run_nil (w : Writer σ) (s : σ) :
    w.run s [] = s :=
  rfl

@[simp] theorem run_cons (w : Writer σ) (s : σ) (call : Call) (calls : List Call) :
    w.run s (call :: calls) = w.run (w.step s call) calls :=
  rfl

end Writer

section Statuses

/-- The statuses passed to `WriteHeader`. -/
def headers (calls : List Call) : List Nat :=
  calls.filterMap fun
    | .writeHeader status => some status
    | .write _ => none

@[simp] theorem headers_nil :
    headers [] = [] :=
  rfl

@[simp] theorem headers_writeHeader (status : Nat) (calls : List Call) :
    headers (.writeHeader status :: calls) = status :: headers calls :=
  rfl

@[simp] theorem headers_write (taken : Nat) (calls : List Call) :
    headers (.write taken :: calls) = headers calls :=
  rfl

/-- The calls pass statuses that exist. -/
def Wellformed (calls : List Call) : Prop :=
  ∀ status ∈ headers calls, 100 ≤ status ∧ status ≤ 599

instance (calls : List Call) : Decidable (Wellformed calls) :=
  inferInstanceAs (Decidable (∀ status ∈ headers calls, 100 ≤ status ∧ status ≤ 599))

/-- The status that is sent: the first one that is not informational and comes before any write,
or 200. -/
def decidedStatus : List Call → Nat
  | [] => 200
  | .write _ :: _ => 200
  | .writeHeader status :: calls =>
      if status = 101 ∨ 200 ≤ status then status else decidedStatus calls

/-- Without a status 200 is sent. -/
theorem decidedStatus_of_headers_eq_nil {calls : List Call} (h : headers calls = []) :
    decidedStatus calls = 200 := by
  match calls with
  | [] => rfl
  | .write _ :: _ => rfl

end Statuses

section Server

/-- The response of the server. -/
structure Response where
  wroteHeader : Bool
  status : Nat
  informational : List Nat
  written : Nat
deriving DecidableEq

/-- The response before the first call. -/
def Response.start : Response :=
  ⟨false, 0, [], 0⟩

/-- `response.WriteHeader`. -/
def Response.writeHeader (s : Response) (status : Nat) : Response :=
  if s.wroteHeader then s
  else if 100 ≤ status ∧ status ≤ 199 ∧ status ≠ 101 then
    { s with informational := s.informational ++ [status] }
  else { s with wroteHeader := true, status := status }

/-- `response.Write`. -/
def Response.write (s : Response) (taken : Nat) : Response :=
  let s := if s.wroteHeader then s else s.writeHeader 200
  { s with written := s.written + taken }

/-- `response.finishRequest`. -/
def Response.finish (s : Response) : Response :=
  if s.wroteHeader then s else s.writeHeader 200

/-- The writer that a server hands to a handler. -/
def server : Writer Response where
  writeHeader := Response.writeHeader
  write := Response.write

/-- The status that the client gets. -/
def finalStatus (calls : List Call) : Nat :=
  (server.run .start calls).finish.status

/-- A decided status stays. -/
theorem run_decided
    {s : Response} (h : s.wroteHeader = true) (calls : List Call) :
    (server.run s calls).finish.status = s.status := by
  induction calls generalizing s with
  | nil =>
      simp [Response.finish, h]
  | cons call calls ih =>
      have hstep : (server.step s call).wroteHeader = true ∧
          (server.step s call).status = s.status := by
        cases call <;> simp [Writer.step, server, Response.writeHeader, Response.write, h]
      rw [Writer.run_cons, ih hstep.1, hstep.2]

theorem run_undecided
    {s : Response} (h : s.wroteHeader = false)
    {calls : List Call} (hcalls : Wellformed calls) :
    (server.run s calls).finish.status = decidedStatus calls := by
  induction calls generalizing s with
  | nil =>
      simp [Response.finish, Response.writeHeader, h, decidedStatus]
  | cons call calls ih =>
      rw [Writer.run_cons]
      cases call with
      | write taken =>
          rw [run_decided]
          · simp [Writer.step, server, Response.write, Response.writeHeader, h, decidedStatus]
          · simp [Writer.step, server, Response.write, Response.writeHeader, h]
      | writeHeader status =>
          have hstatus := hcalls status (by simp)
          unfold decidedStatus
          split_ifs with hdecides
          · have hfinal : ¬(100 ≤ status ∧ status ≤ 199 ∧ status ≠ 101) := by omega
            rw [run_decided]
            · simp [Writer.step, server, Response.writeHeader, h, hfinal]
            · simp [Writer.step, server, Response.writeHeader, h, hfinal]
          · have hinformational : 100 ≤ status ∧ status ≤ 199 ∧ status ≠ 101 := by omega
            refine ih ?_ fun status' h' => hcalls status' (by simp [h'])
            simp [Writer.step, server, Response.writeHeader, h, hinformational]

/-- The server sends the status that the calls decide for. -/
theorem finalStatus_eq {calls : List Call} (h : Wellformed calls) :
    finalStatus calls = decidedStatus calls :=
  run_undecided rfl h

end Server

end ResponseWriter
end GatewayRuntime
