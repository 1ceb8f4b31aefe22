import Anolis.Automation.SignalNodes

/-!
# The spacing of a gate's emissions

`EmitOnChangeOrIntervalNode` compares with `min_spacing_ms` where the key has changed, but not where
the keepalive is due. So its emissions are spaced exactly where no keepalive is shorter than the
spacing.
-/

namespace Anolis.Automation

/-- The emissions of a gate over a list of ticks. -/
def emissions (keepaliveS minSpacingMs : Int) :
    Option (Int × String) → List EmitTick → List (Int × EmitReason)
  | _, [] => []
  | last, tick :: ticks =>
    let (_, reason, last') := emitTick keepaliveS minSpacingMs last tick
    (reason.map fun r => (tick.nowMs, r)).toList ++ emissions keepaliveS minSpacingMs last' ticks

/-- The later of two emissions is forced, or not too early. -/
abbrev Spaced (minSpacingMs : Int) (a b : Int × EmitReason) : Prop :=
  b.2 ≠ .force → a.1 + minSpacingMs ≤ b.1

variable {keepaliveS minSpacingMs : Int}

section
variable (h : keepaliveS ≤ 0 ∨ minSpacingMs ≤ keepaliveS * 1000)
include h

theorem spaced_emitReason {last : Int × String} {nowMs : Int} {key : String} {force : Bool}
    {r r₀ : EmitReason}
    (hr : emitReason keepaliveS minSpacingMs (some last) key nowMs force = some r) :
    Spaced minSpacingMs (last.1, r₀) (nowMs, r) := by
  intro hforce
  simp only [emitReason] at hr
  split_ifs at hr with _ hchanged hkeep <;> cases hr
  · exact absurd rfl hforce
  · dsimp only
    omega
  · dsimp only
    omega

/-- What carries a run: the last emission is spaced from the next one. -/
theorem emissions_spaced_from (last : Option (Int × String)) (r₀ : EmitReason)
    (ticks : List EmitTick) :
    ((last.map fun l => (l.1, r₀)).toList ++
      emissions keepaliveS minSpacingMs last ticks).IsChain (Spaced minSpacingMs) := by
  induction ticks generalizing last r₀ with
  | nil => cases last <;> simp [emissions]
  | cons tick ticks ih =>
    unfold emissions
    fun_cases emitTick keepaliveS minSpacingMs last tick
    case case1 | case2 | case3 => simpa using ih last r₀
    case case4 key _ _ r hr =>
      have hrest := ih (some (tick.nowMs, key)) r
      cases last with
      | none => simpa using hrest
      | some l => exact .cons_cons (spaced_emitReason h hr) hrest

end

/-- A key that stays is emitted again after the keepalive. -/
theorem emissions_keepalive (hkeep : 0 < keepaliveS) (hspacing : 0 ≤ minSpacingMs) :
    emissions keepaliveS minSpacingMs none
        [⟨some "a", 0, false⟩, ⟨some "a", keepaliveS * 1000, false⟩] =
      [(0, .first), (keepaliveS * 1000, .keepalive)] := by
  have hbounds : ¬ (keepaliveS < 0 ∨ minSpacingMs < 0) := by omega
  simp [emissions, emitTick, emitReason, hbounds, hkeep]

/-- Every emission that is not forced is at least `min_spacing_ms` after the one before, whatever
the ticks, exactly where no keepalive is shorter than the spacing. -/
theorem emissions_are_spaced :
    (∀ ticks, (emissions keepaliveS minSpacingMs none ticks).IsChain (Spaced minSpacingMs)) ↔
      keepaliveS ≤ 0 ∨ minSpacingMs ≤ keepaliveS * 1000 := by
  refine ⟨fun hspaced => ?_, fun h ticks => emissions_spaced_from h none .first ticks⟩
  by_contra hshort
  have hchain := hspaced [⟨some "a", 0, false⟩, ⟨some "a", keepaliveS * 1000, false⟩]
  rw [emissions_keepalive (by omega) (by omega)] at hchain
  have hapart : 0 + minSpacingMs ≤ keepaliveS * 1000 := by
    simpa using hchain
  omega

theorem emissions_are_spaced_keepalive :
    (emissions 1 1000 none [⟨some "a", 0, false⟩, ⟨some "a", 1000, false⟩]).IsChain (Spaced 1000) :=
  emissions_are_spaced.mpr (.inr (by decide)) _

/-- A keepalive of a second emits again a second after an emission, whatever the spacing. -/
theorem keepalive_emits_early : ¬ ∀ (keepaliveS minSpacingMs : Int) (ticks : List EmitTick),
    0 ≤ keepaliveS → 0 ≤ minSpacingMs → ticks.IsChain (·.nowMs ≤ ·.nowMs) →
    (emissions keepaliveS minSpacingMs none ticks).IsChain (Spaced minSpacingMs) := by
  intro h
  have := h 1 5000 [⟨some "a", 0, false⟩, ⟨some "a", 1000, false⟩]
  revert this
  decide

end Anolis.Automation
