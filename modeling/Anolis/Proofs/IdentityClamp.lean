import Anolis.Health.HealthSnapshot

/-!
# A clamped identity is UTF-8

A text may be cut before a byte that continues no character (`Lib.Utf8.valid_cut`), and the loop of
`clamp_identity` finds the last such place that is in bounds.
-/

namespace Anolis.Proofs.IdentityClamp

open Health Lib Lib.Utf8

variable {value : Bytes} {cut : Nat}

theorem walkBack_last (h : valid value) (hcut : cut < value.length) :
    walkBack value cut ≤ cut ∧ valid (value.take (walkBack value cut)) ∧
      ∀ k ≤ cut, valid (value.take k) → k ≤ walkBack value cut := by
  induction cut with
  | zero => exact ⟨le_rfl, rfl, fun k hk _ => hk⟩
  | succ cut ih =>
    have hiff := valid_take h hcut
    rw [walkBack]
    split
    case isFalse hb => exact ⟨le_rfl, hiff.mpr hb, fun k hk _ => hk⟩
    case isTrue hb =>
      obtain ⟨hle, hvalid, hlast⟩ := ih (by omega)
      refine ⟨by omega, hvalid, fun k hk hvk => hlast k ?_ hvk⟩
      have : k ≠ cut + 1 := fun heq => hiff.mp (heq ▸ hvk) hb
      omega

/-- The clamped identity is the longest start of the text that is UTF-8 and in bounds. -/
theorem clamp_is_longest (h : valid value) :
    clampIdentity value <+: value ∧ valid (clampIdentity value) ∧
      (clampIdentity value).length ≤ 128 ∧ (value.length ≤ 128 → clampIdentity value = value) ∧
      ∀ p, p <+: value → valid p → p.length ≤ 128 → p.length ≤ (clampIdentity value).length := by
  unfold clampIdentity kMaxIdentityLen
  split
  case isTrue hle => exact ⟨List.prefix_rfl, h, hle, fun _ => rfl, fun p hp _ _ => hp.length_le⟩
  case isFalse hlong =>
    obtain ⟨hle, hvalid, hlast⟩ := walkBack_last h (Nat.lt_of_not_le hlong)
    refine ⟨List.take_prefix .., hvalid, by simp; omega, fun hshort => absurd hshort hlong, ?_⟩
    intro p hp hvp hlen
    have := hlast p.length hlen (by rwa [← List.prefix_iff_eq_take.mp hp])
    simp
    omega

theorem clamp_is_longest_split :
    valid (clampIdentity (List.replicate 127 0x61 ++ [0xC3, 0xA9])) :=
  (clamp_is_longest (by decide +kernel)).2.1

end Anolis.Proofs.IdentityClamp
