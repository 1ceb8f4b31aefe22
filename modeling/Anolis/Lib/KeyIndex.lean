import Mathlib.Data.List.Induction
import Mathlib.Data.List.Nodup
import Mathlib.Logic.Function.Basic

/-!
# An index from keys to positions

A list of entries with keys, and the map from a key to a position that a loop from front to back
fills (`keyIndex`): of two entries with one key it keeps the later position.
-/

namespace Anolis.Lib

universe u v

variable {α : Type u} {κ : Type v} [DecidableEq κ] {key : α → κ} {xs : List α}

/-- The index that a loop over the entries fills. -/
def keyIndex (key : α → κ) (xs : List α) : κ → Option Nat :=
  xs.zipIdx.foldl (fun index entry => Function.update index (key entry.1) (some entry.2))
    fun _ => none

theorem keyIndex_snoc (key : α → κ) (xs : List α) (x : α) :
    keyIndex key (xs ++ [x]) = Function.update (keyIndex key xs) (key x) (some xs.length) := by
  simp [keyIndex, List.zipIdx_append]

theorem keyIndex_sound {k : κ} {i : Nat} (h : keyIndex key xs k = some i) :
    ∃ x, xs[i]? = some x ∧ key x = k := by
  induction xs using List.reverseRecOn with
  | nil => cases h
  | append_singleton xs x ih =>
    rw [keyIndex_snoc] at h
    by_cases hk : k = key x
    · subst hk
      rw [Function.update_self] at h
      cases h
      exact ⟨x, List.getElem?_concat_length, rfl⟩
    · rw [Function.update_of_ne hk] at h
      obtain ⟨y, hy, hkey⟩ := ih h
      refine ⟨y, ?_, hkey⟩
      rw [List.getElem?_append_left (List.getElem?_eq_some_iff.mp hy).1]
      exact hy

theorem keyIndex_find (key : α → κ) (xs : List α) (k : κ) :
    (keyIndex key xs k).bind (fun i => xs[i]?) = xs.reverse.find? fun x => key x = k := by
  induction xs using List.reverseRecOn with
  | nil => rfl
  | append_singleton xs x ih =>
    rw [keyIndex_snoc, List.reverse_concat, List.find?_cons]
    by_cases hk : k = key x
    · subst hk
      simp
    · rw [Function.update_of_ne hk, decide_eq_false fun h => hk h.symm]
      rw [← ih]
      -- the positions of the others are below the new one
      cases hi : keyIndex key xs k with
      | none => rfl
      | some i =>
        obtain ⟨y, hy, -⟩ := keyIndex_sound hi
        exact List.getElem?_append_left (List.getElem?_eq_some_iff.mp hy).1

theorem keyIndex_isSome {x : α} (hx : x ∈ xs) : ∃ i, keyIndex key xs (key x) = some i := by
  induction xs using List.reverseRecOn with
  | nil => cases hx
  | append_singleton xs y ih =>
    rw [keyIndex_snoc]
    by_cases hk : key x = key y
    · exact ⟨xs.length, by rw [hk, Function.update_self]⟩
    · rw [Function.update_of_ne hk]
      rcases List.mem_append.mp hx with hx | hx
      · exact ih hx
      · exact absurd (congrArg key (List.mem_singleton.mp hx)) hk

/-- Where the keys are distinct, the index has the positions of the entries and nothing else. -/
theorem keyIndex_eq_some (hnodup : (xs.map key).Nodup) (k : κ) (i : Nat) :
    keyIndex key xs k = some i ↔ ∃ x, xs[i]? = some x ∧ key x = k := by
  refine ⟨keyIndex_sound, ?_⟩
  rintro ⟨x, hx, rfl⟩
  obtain ⟨j, hj⟩ : ∃ j, keyIndex key xs (key x) = some j :=
    keyIndex_isSome (List.mem_of_getElem? hx)
  obtain ⟨y, hy, hkey⟩ := keyIndex_sound hj
  have hsame : (xs.map key)[j]? = (xs.map key)[i]? := by
    rw [List.getElem?_map, List.getElem?_map, hx, hy]
    exact congrArg some hkey
  have hlt : j < (xs.map key).length := by
    rw [List.length_map]
    exact (List.getElem?_eq_some_iff.mp hy).1
  rw [hj, (List.getElem?_inj hlt hnodup).mp hsame]

end Anolis.Lib
