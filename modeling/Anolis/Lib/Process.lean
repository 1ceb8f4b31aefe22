import Anolis.Lib.Lts

/-!
# Systems given by one step function

A `Process` is a system whose step is a function: from a state and a choice of the environment it
gives the label of the step and the next state, or `none` where the choice is not possible. Its runs
are the runs of `Process.lts`. A list of choices can be executed, so a concrete run is a computation
(`Process.run_of_passes`).
-/

namespace Anolis.Lib

/-- A system over the states `σ` with the labels `ℓ` and the choices `χ`. -/
structure Process (σ ℓ χ : Type) where
  next : σ → χ → Option (ℓ × σ)

namespace Process

variable {σ ℓ χ : Type}

/-- The steps of the system. -/
def lts (P : Process σ ℓ χ) : Lts σ ℓ where
  step s l s' := ∃ c, P.next s c = some (l, s')

/-- The run of a list of choices. `none` when one of them is not possible. -/
def exec (P : Process σ ℓ χ) : σ → List χ → Option (Trace σ ℓ × σ)
  | s, [] => some ([], s)
  | s, c :: rest =>
    (P.next s c).bind fun r => (P.exec r.2 rest).map fun q => ((s, r.1) :: q.1, q.2)

theorem exec_run {P : Process σ ℓ χ} {choices : List χ} {s s' : σ} {tr : Trace σ ℓ}
    (h : P.exec s choices = some (tr, s')) : Run P.lts s tr s' := by
  induction choices generalizing s tr with
  | nil =>
    cases h
    exact Run.refl
  | cons c rest ih =>
    simp only [exec, Option.bind_eq_some_iff, Option.map_eq_some_iff, Prod.mk.injEq] at h
    obtain ⟨⟨l, s₁⟩, hnext, ⟨tr', s₂⟩, hrest, rfl, rfl⟩ := h
    exact Run.cons ⟨c, hnext⟩ (ih hrest)

/-- A list of choices that passes a check gives a run that passes it. -/
theorem run_of_passes (P : Process σ ℓ χ) (s : σ) (choices : List χ) (p : Trace σ ℓ → σ → Prop)
    (h : ∃ r ∈ P.exec s choices, p r.1 r.2) : ∃ tr s', Run P.lts s tr s' ∧ p tr s' := by
  obtain ⟨⟨tr, s'⟩, hexec, hp⟩ := h
  exact ⟨tr, s', exec_run hexec, hp⟩

end Process

end Anolis.Lib
