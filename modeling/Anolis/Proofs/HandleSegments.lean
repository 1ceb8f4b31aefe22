import Anolis.Proofs.ProviderTable

/-!
# The handles of a configuration

`is_handle` scans for the slashes. It accepts the texts that are `parts` segments with a slash
between each two, and the stop chain's monitor cuts such a text at the last of its slashes.
-/

namespace Anolis.Proofs.HandleSegments

open CallRouting Control Anolis.Runtime

/-- A part of a handle. -/
abbrev Segment (seg : List Char) : Prop := seg ≠ [] ∧ '/' ∉ seg

/-- The scan, with the part `cur` of the segment it is in behind it. -/
theorem isHandleFrom_iff {parts count start : Nat} {cur rest : List Char} (hcur : '/' ∉ cur) :
    isHandleFrom parts count (start + cur.length) start rest ↔
      (∀ seg ∈ (cur ++ rest).splitOn '/', Segment seg) ∧
        count + ((cur ++ rest).splitOn '/').length = parts + 1 := by
  induction rest generalizing count start cur with
  | nil => simp [isHandleFrom, List.splitOn_eq_singleton hcur, hcur]
  | cons c rest ih =>
    by_cases hc : c = '/'
    · subst hc
      have := @ih (count + 1) (start + cur.length + 1) [] (by simp)
      simp [isHandleFrom, List.splitOn_append_cons_self_of_not_mem hcur] at this ⊢
      rw [this]
      simp [and_assoc, Nat.add_assoc, Nat.add_comm 1, hcur]
    · have := @ih count start (cur ++ [c]) (by simp [hcur, Ne.symm hc])
      simpa [isHandleFrom, hc, Nat.add_assoc] using this

/-- A text of `parts` segments, with a slash between each two. -/
def Joined (value : String) (parts : Nat) : Prop :=
  ∃ segs : List (List Char), segs.length = parts ∧ (∀ seg ∈ segs, Segment seg) ∧
    value.toList = ['/'].intercalate segs

theorem isHandle_iff {value : String} {parts : Nat} (hparts : 0 < parts) :
    isHandle value parts ↔ Joined value parts := by
  have hscan := @isHandleFrom_iff parts 1 0 [] value.toList (by simp)
  simp only [List.length_nil, Nat.add_zero, List.nil_append] at hscan
  rw [isHandle, hscan]
  constructor
  · rintro ⟨hsegs, hlen⟩
    exact ⟨_, by omega, hsegs, (List.intercalate_splitOn '/').symm⟩
  · rintro ⟨segs, hlen, hsegs, hvalue⟩
    rw [hvalue, List.splitOn_intercalate '/' (fun l hl => (hsegs l hl).2)
      (List.length_pos_iff.mp (hlen ▸ hparts))]
    exact ⟨hsegs, by omega⟩

/-- The handles of the configuration: which texts `is_handle` accepts, and what the monitor makes of
a status signal that is accepted. -/
theorem handles_parse_uniquely {value : String} {parts : Nat} (hparts : 0 < parts) :
    (isHandle value parts ↔ Joined value parts) ∧ ∀ status : StopChainStatus,
      isHandle status.signal 3 → ∃ a b c, Segment a ∧ Segment b ∧ Segment c ∧
      statusDevice status = String.ofList (a ++ '/' :: b) ∧ statusSignal status = String.ofList c ∧
      status.signal = statusDevice status ++ "/" ++ statusSignal status := by
  refine ⟨isHandle_iff hparts, fun status hstatus => ?_⟩
  obtain ⟨segs, hlen, hsegs, hsignal⟩ := (isHandle_iff (by decide)).mp hstatus
  obtain ⟨a, b, c, rfl⟩ := List.length_eq_three.mp hlen
  simp only [List.forall_mem_cons] at hsegs
  have hrev : status.signal.toList.reverse = c.reverse ++ '/' :: (a ++ '/' :: b).reverse := by
    simp [hsignal, List.intercalate, List.intersperse]
  have hc : '/' ∉ c.reverse := by simpa using hsegs.2.2.1.2
  have hdevice : statusDevice status = String.ofList (a ++ '/' :: b) := by
    rw [statusDevice, hrev, dropWhile_append_slash hc, if_pos
      (List.mem_reverse.mp (by simp [hrev]))]
    simp
  have hid : statusSignal status = String.ofList c := by
    rw [statusSignal, hrev, takeWhile_append_slash hc, List.reverse_reverse]
  refine ⟨a, b, c, hsegs.1, hsegs.2.1, hsegs.2.2.1, hdevice, hid, String.toList_inj.mp ?_⟩
  rw [← List.reverse_inj, hrev, hdevice, hid]
  simp

theorem handles_parse_uniquely_pair : isHandle "p/d" 2 :=
  (handles_parse_uniquely Nat.two_pos).1.mpr ⟨[['p'], ['d']], rfl, by decide, by decide⟩

end Anolis.Proofs.HandleSegments
