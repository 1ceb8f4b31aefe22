import Anolis.Provider.ProviderHandle

/-!
# The bytes of a session

The steps of a session with the number of bytes that each writes to the provider. Only a `write`
that answers with a count writes bytes, so the count is read off the place of the thread and what
the schedule answers; the steps are those of `session` (`session_of_wire`).
-/

namespace Anolis.Provider

open Lib

/-- The bytes that a step writes. -/
def bytesWritten : SessionPc → SessionChoice → Nat
  | .send _ _ (.write (.write _)), .wrote _ (.wrote n) => n
  | _, _ => 0

/-- The effect of a step, and the bytes it writes. -/
structure WireEffect where
  effect : SessionEffect
  bytes : Nat

/-- The session with its bytes. -/
def wire (cfg : HandleConfig) : Machine SessionShared SessionPc WireEffect SessionChoice where
  next sh _ pc c := (sessionNext cfg sh pc c).map fun r => (⟨r.1, bytesWritten pc c⟩, r.2)
  apply sh t e := sh.apply t e.effect

/-- A trace of the session with its bytes. -/
abbrev WireTrace := Trace SessionState (ThreadId × WireEffect)

/-- A step without its bytes. -/
def withoutBytes (i : SessionState × ThreadId × WireEffect) :
    SessionState × ThreadId × SessionEffect :=
  (i.1, i.2.1, i.2.2.effect)

section
variable {cfg : HandleConfig} {g₀ g g' : SessionState} {tr : WireTrace} {t : ThreadId}
  {e : WireEffect}

/-- A step of the wire is a step of a thread, with the bytes of its choice. -/
theorem wire_step_inv (h : (wire cfg).lts.step g (t, e) g') :
    ∃ c pc', sessionNext cfg g.shared (g.thread t) c = some (e.effect, pc') ∧
      e.bytes = bytesWritten (g.thread t) c ∧ g'.shared = g.shared.apply t e.effect ∧
      g'.thread t = pc' ∧ ∀ u, u ≠ t → g'.thread u = g.thread u := by
  obtain ⟨c, pc', hnext, hshared, hth, hother⟩ := Machine.step_inv h
  obtain ⟨⟨e', pc''⟩, hsession, heq⟩ := Option.map_eq_some_iff.mp hnext
  obtain ⟨he, rfl⟩ := Prod.mk.inj heq
  obtain rfl : (⟨e', bytesWritten (g.thread t) c⟩ : WireEffect) = e := he
  exact ⟨c, pc'', hsession, rfl, hshared, hth, hother⟩

theorem session_step_of_wire (h : (wire cfg).lts.step g (t, e) g') :
    (session cfg).lts.step g (t, e.effect) g' := by
  obtain ⟨c, hc⟩ := h
  simp only [Machine.process, wire, Option.map_map, Option.map_eq_some_iff] at hc
  obtain ⟨⟨e', pc'⟩, hnext, heq⟩ := hc
  cases heq
  exact ⟨c, by simp [Machine.process, session, hnext]⟩

theorem session_of_wire (h : Run (wire cfg).lts g₀ tr g) :
    Run (session cfg).lts g₀ (tr.map withoutBytes) g := by
  induction h with
  | refl => exact Run.refl
  | snoc _ hstep ih =>
    rw [List.map_append]
    exact Run.snoc ih (session_step_of_wire hstep)

end

end Anolis.Provider
