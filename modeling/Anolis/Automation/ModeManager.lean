import Mathlib.Logic.Relation

/-!
# The runtime modes

The four modes, their texts, and `is_valid_transition`. The transition rules of the safety
document are stated apart from the code as `Documented`; `documented_iff` says that the code's
check, for two different modes, is that graph.

How `set_mode` runs, with its two lock sections and its callbacks, is in
`Anolis.Runtime.SetMode`.
-/

namespace Anolis.Automation

/-- `RuntimeMode`. -/
inductive RuntimeMode
  | manual | auto | idle | fault
deriving DecidableEq

/-- `mode_to_string`. -/
def modeToString : RuntimeMode → String
  | .manual => "MANUAL"
  | .auto => "AUTO"
  | .idle => "IDLE"
  | .fault => "FAULT"

/-- `ModeManager::is_valid_transition`. -/
def isValidTransition (src dst : RuntimeMode) : Bool :=
  if src = dst then true
  else if dst = .fault then true
  else if src = .fault then dst = .manual
  else if src = .manual then dst = .auto || dst = .idle
  else if src = .auto || src = .idle then dst = .manual
  else false

@[simp] theorem isValidTransition_fault (m : RuntimeMode) : isValidTransition m .fault := by
  cases m <;> rfl

/-- The transition rules of the safety document: `IDLE <-> MANUAL`, `MANUAL <-> AUTO`,
`Any -> FAULT`, `FAULT -> MANUAL` (recovery path). -/
inductive Documented : RuntimeMode → RuntimeMode → Prop
  | idleManual : Documented .idle .manual
  | manualIdle : Documented .manual .idle
  | manualAuto : Documented .manual .auto
  | autoManual : Documented .auto .manual
  | anyFault (m : RuntimeMode) : Documented m .fault
  | recovery : Documented .fault .manual

theorem documented_iff {a b : RuntimeMode} (hne : a ≠ b) :
    isValidTransition a b ↔ Documented a b := by
  constructor
  · cases a <;> cases b <;>
      first | exact fun _ => .anyFault _ | (intro; constructor) |
        (intro h; exact absurd h (by decide)) | exact absurd rfl hne
  · rintro (_ | _ | _ | _ | m | _) <;> simp [isValidTransition]

end Anolis.Automation
