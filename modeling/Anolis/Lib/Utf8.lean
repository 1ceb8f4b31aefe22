import Mathlib.Data.List.Lex
import Mathlib.Order.Defs.LinearOrder

/-!
# Byte strings and UTF-8

A C++ string is any list of bytes. `Utf8.valid` says which of them are UTF-8: a machine reads the
bytes one by one, and its state is what the bytes of the character that it is in may still be. Over
long forms, surrogates and characters above `U+10FFFF` are refused by the ranges.

Byte strings are ordered byte by byte, as `std::string` compares them.
-/

namespace Anolis.Lib

/-- A C++ string. -/
abbrev Bytes := List UInt8

/-- The bytes of a text that is written in ASCII. -/
def ascii (s : String) : Bytes := s.toList.map fun c => UInt8.ofNat c.toNat

instance instLinearOrderByte : LinearOrder UInt8 where
  le_refl := UInt8.le_refl
  le_trans _ _ _ := UInt8.le_trans
  le_antisymm _ _ := UInt8.le_antisymm
  le_total := UInt8.le_total
  lt_iff_le_not_ge a b := by
    rw [UInt8.not_le]
    exact ⟨fun h => ⟨UInt8.le_of_lt h, h⟩, fun h => h.2⟩
  toDecidableLE := inferInstance
  toDecidableLT := inferInstance
  toDecidableEq := inferInstance

namespace Utf8

/-- The bytes that a continuation byte may be, from the first to the last. -/
abbrev Range := UInt8 × UInt8

/-- The ranges of the bytes that follow the first byte of a character. -/
def follow (lead : UInt8) : Option (List Range) :=
  if lead < 0x80 then some []
  else if 0xC2 ≤ lead ∧ lead ≤ 0xDF then some [(0x80, 0xBF)]
  else if lead = 0xE0 then some [(0xA0, 0xBF), (0x80, 0xBF)]
  else if lead = 0xED then some [(0x80, 0x9F), (0x80, 0xBF)]
  else if 0xE1 ≤ lead ∧ lead ≤ 0xEF then some [(0x80, 0xBF), (0x80, 0xBF)]
  else if lead = 0xF0 then some [(0x90, 0xBF), (0x80, 0xBF), (0x80, 0xBF)]
  else if 0xF1 ≤ lead ∧ lead ≤ 0xF3 then some [(0x80, 0xBF), (0x80, 0xBF), (0x80, 0xBF)]
  else if lead = 0xF4 then some [(0x80, 0x8F), (0x80, 0xBF), (0x80, 0xBF)]
  else none

/-- One byte. The state is the ranges of the bytes that its character still needs. -/
def step : List Range → UInt8 → Option (List Range)
  | [], b => follow b
  | range :: rest, b => if range.1 ≤ b ∧ b ≤ range.2 then some rest else none

/-- The state after a byte string. -/
def run : List Range → Bytes → Option (List Range)
  | pending, [] => some pending
  | pending, b :: rest => (step pending b).bind fun pending' => run pending' rest

/-- Is the byte string UTF-8. -/
def valid (s : Bytes) : Bool := run [] s = some []

/-- A pending byte is a continuation byte. -/
def Continues (pending : List Range) : Prop := ∀ range ∈ pending, 0x80 ≤ range.1 ∧ range.2 ≤ 0xBF

theorem continues_follow {lead : UInt8} {pending : List Range} (h : follow lead = some pending) :
    Continues pending := by
  unfold follow at h
  unfold Continues
  -- the ranges one by one: a `decide` of the whole would go through every byte
  split_ifs at h <;> cases h <;>
    simp only [List.forall_mem_cons, List.not_mem_nil, false_implies, implies_true, and_true] <;>
    decide

theorem continues_step {pending pending' : List Range} {b : UInt8} (hp : Continues pending)
    (h : step pending b = some pending') : Continues pending' := by
  cases pending with
  | nil => exact continues_follow h
  | cons range rest =>
    simp only [step] at h
    split at h
    · cases h
      exact fun r hr => hp r (List.mem_cons_of_mem _ hr)
    · cases h

theorem follow_ascii {b : UInt8} (h : b < 0x80) : follow b = some [] := by
  unfold follow
  rw [if_pos h]

/-- Is the byte `0b10xxxxxx`. -/
def isContinuation (b : UInt8) : Bool := b &&& 0xC0 = 0x80

theorem isContinuation_iff (b : UInt8) : (isContinuation b ↔ 0x80 ≤ b ∧ b ≤ 0xBF) ∧
    (isContinuation b → follow b = none) := by
  obtain ⟨b⟩ := b
  revert b
  decide +kernel

theorem run_cut {s t : Bytes} {b : UInt8} {pending pending' : List Range} (hp : Continues pending)
    (h : run pending (s ++ b :: t) = some pending') :
    run pending s = some [] ↔ ¬ isContinuation b := by
  induction s generalizing pending with
  | nil =>
    obtain ⟨next, hstep, -⟩ := Option.bind_eq_some_iff.mp h
    cases pending with
    | nil =>
      refine iff_of_true rfl fun hb => ?_
      rw [step, (isContinuation_iff b).2 hb] at hstep
      cases hstep
    | cons range rest =>
      obtain ⟨hlow, hhigh⟩ := hp range List.mem_cons_self
      have hin : range.1 ≤ b ∧ b ≤ range.2 := by
        by_contra hout
        simp [step, hout] at hstep
      have hb := (isContinuation_iff b).1.mpr ⟨le_trans hlow hin.1, le_trans hin.2 hhigh⟩
      simp [run, hb]
  | cons c s ih =>
    obtain ⟨next, hstep, hrest⟩ := Option.bind_eq_some_iff.mp h
    simpa [run, hstep] using ih (continues_step hp hstep) hrest

/-- A text in UTF-8 may be cut before a byte that continues no character, and nowhere else. -/
theorem valid_take {s : Bytes} {k : Nat} (h : valid s) (hk : k < s.length) :
    valid (s.take k) ↔ ¬ isContinuation (s.getD k 0) := by
  rw [← List.getElem_eq_getD (h := hk) 0]
  simp only [valid, decide_eq_true_eq] at h ⊢
  rw [← List.take_append_drop k s, List.drop_eq_getElem_cons hk] at h
  exact run_cut (by simp [Continues]) h

end Utf8

end Anolis.Lib
