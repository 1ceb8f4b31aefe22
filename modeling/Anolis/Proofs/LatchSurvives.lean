import Anolis.Proofs.LatchPowerLoss
import Anolis.Proofs.StoredHistory

/-!
# The latch and the death of the process

Any number of threads engage and clear the latch, the operations on the file system fail in any way,
and the process is killed and started again at any point. The latch and its time go together; a
latch whose `save` returned `true` comes back with the next process until a `clear` commits; a
`save` that fails or is interrupted takes nothing away that was on the disk; and a startup finds no
latch only where there is no file.
-/

namespace Anolis.Proofs.LatchSurvives

open Anolis.Runtime Control LatchFile Lib StoredHistory

/-- A step in which `trigger` or `hold` engages the latch. -/
def Engages (l : LifeEvent) : Prop := ∃ t e, l = .step t e ∧ e.runtime = some (.control .engage)

/-- A step in which a `save` returns `true`. -/
def Saves (l : LifeEvent) : Prop :=
  ∃ t e effect next error, l = .step t e ∧ e.file = .file effect next ∧
    effect.result = some (.saved true error)

/-- A step in which a `clear` commits. -/
def Clears (l : LifeEvent) : Prop := ∃ t e, l = .step t e ∧ e.runtime = some (.control .unlatch)

section
variable {cfg : SystemConfig} {store : LatchStore} {g₀ g g' : StoredState} {tr : LifeTrace}
  {l : LifeEvent} {i : StoredState × LifeEvent} {tr₁ tr₂ : LifeTrace}

theorem save_of_engages (hg : LifeSound g) (h : LifeStep cfg store g l g') (hl : Engages l) :
    ∃ ms reason, storeEvent l = .save ms reason := by
  obtain ⟨t, e, rfl, he⟩ := hl
  cases h with
  | step h =>
    obtain ⟨hstep, -⟩ := stored_step h
    generalize g'.thread t = w' at hstep
    cases hstep with
    | run _ _ hengage => exact absurd (Option.some.inj he) hengage
    | engage now reason => exact ⟨now, reason, rfl⟩
    | unlatch | file => cases he
    | saved hfile hresult hnext =>
      obtain ⟨hop, -⟩ := awaitsSave_of_saved hfile hresult (hg.files t)
      obtain ⟨rfl, -⟩ := of_awaitsSave (threadStep_of_next hnext) (hg.shaped t) hop
      cases he

theorem clears_of_remove (h : LifeStep cfg store g l g') (hl : storeEvent l = .remove) :
    Clears l := by
  cases h with
  | @step t e _ h =>
    obtain ⟨hstep, -⟩ := stored_step h
    generalize g'.thread t = w' at hstep
    cases hstep with
    | unlatch => exact ⟨t, _, rfl, rfl⟩
    | run | engage | file | saved => cases hl
  | restart => cases hl

theorem no_remove
    (h : Run (life cfg store) g₀ (tr₁ ++ i :: tr₂) g) (hnone : ∀ k ∈ tr₂, ¬ Clears k.2) :
    ∀ k ∈ tr₂.map historyStep, k.2.2 ≠ .remove := by
  intro k hk hremove
  obtain ⟨j, hj, rfl⟩ := List.mem_map.mp hk
  obtain ⟨-, s₁, -, hrest⟩ := h.at_step
  obtain ⟨-, -, s', -, -, hstep, -⟩ := hrest.of_mem hj
  exact hnone j hj (clears_of_remove hstep hremove)

theorem history_cut (h0 : LifeStart store g₀)
    (h : Run (life cfg store) g₀ (tr₁ ++ i :: tr₂) g) : Run (storeMachine store).lts (history g₀)
      (tr₁.map historyStep ++ historyStep i :: tr₂.map historyStep) (history g) := by
  have hrun := history_run h0 h
  rwa [List.map_append, List.map_cons] at hrun

theorem attached_of_present {disk : Disk Bytes} (hfile : store.file? disk ≠ none) (io : LoadIo)
    (now : Int64) : (attachLatchStore store disk io now).latched := by
  have hstate : (store.load disk io).state ≠ .absent := fun h => hfile (file_of_absent h)
  simp [attachLatchStore, hstate]

/-- The latch survives the death of the process. -/
theorem latch_survives_restart (h0 : LifeStart store g₀) (h : Run (life cfg store) g₀ tr g) :
    (g.shared.shared.latched ↔ g.shared.latchedAtMs.isSome) ∧
    (∀ tr₁ i tr₂, tr = tr₁ ++ i :: tr₂ → Saves i.2 → (∀ k ∈ tr₂, ¬ Clears k.2) →
      ∀ io now, (attachLatchStore store g.shared.disk io now).latched) ∧
    (∀ tr₁ i tr₂, tr = tr₁ ++ i :: tr₂ → Engages i.2 → (∀ k ∈ tr₂, ¬ Clears k.2) →
      ((store.load i.1.shared.disk {}).state = .latched →
        (store.load g.shared.disk {}).state = .latched) ∧
      (store.file? i.1.shared.disk ≠ none → store.file? g.shared.disk ≠ none)) ∧
    ∀ io, (store.load g.shared.disk io).state = .absent → store.file? g.shared.disk = none := by
  refine ⟨(lifeSound_run h0 h).latch, ?_, ?_, fun io habsent => file_of_absent habsent⟩
  · rintro tr₁ ⟨s, l⟩ tr₂ rfl ⟨t, e, effect, next, error, rfl, he, hsaved⟩ hnone io now
    have hfile : store.file? (history g).shared.disk ≠ none :=
      present_run (history_start h0) (history_cut h0 h) he hsaved (no_remove h hnone)
    exact attached_of_present hfile io now
  · rintro tr₁ ⟨s, l⟩ tr₂ rfl hengages hnone
    obtain ⟨hbefore, s₁, hstep, -⟩ := h.at_step
    obtain ⟨ms, reason, hsave⟩ := save_of_engages (lifeSound_run h0 hbefore) hstep hengages
    refine ⟨fun hloads => ?_, fun hpresent => ?_⟩
    · have hloads' : Loads store (history g).shared.disk :=
        loads_run (history_start h0) h0.noLinks (history_cut h0 h) hsave (load_latched.mp hloads)
          (no_remove h hnone)
      exact load_latched.mpr hloads'
    · exact present_since (history_start h0) (history_cut h0 h) hsave hpresent (no_remove h hnone)

end

/-! ### A trigger, a kill and the next process -/

open LatchPowerLoss (simStore emptyData)

def simConfig : SystemConfig := { automation := { enabled := false } }

/-- A process over a disk, with the latch that it finds. -/
def freshProcess (disk : Disk Bytes) : StoredState where
  shared :=
    { shared := { mode := .manual, latched := (attachLatchStore simStore disk {} 0).latched }
      latchedAtMs := (attachLatchStore simStore disk {} 0).latchedAtMs
      restoredReason := (attachLatchStore simStore disk {} 0).restoredReason
      disk := disk }
  thread _ := {}

theorem freshProcess_restarted (disk : Disk Bytes) :
    Restarted simStore disk {} 0 (freshProcess disk) where
  start := ⟨fun _ => rfl, rfl, rfl, fun _ => rfl, rfl⟩
  files _ := rfl
  kept := rfl
  latch := rfl

theorem freshProcess_start : LifeStart simStore (freshProcess emptyData.shared.disk) where
  start := (freshProcess_restarted _).start
  files _ := rfl
  latch := attached_latch simStore _ {} 0
  rooted := LatchPowerLoss.emptyData_start.rooted
  noLinks := by
    intro d n d' n' i h
    cases h

/-- A `trigger` up to the end of its `save`. -/
def triggerSaves : List (ThreadId × StoredChoice) :=
  [(0, .run (.start .trigger)), (0, .run .go), (0, .engage 1700000000000 (ascii "button"))] ++
    List.replicate 3 (0, .file .ok) ++ [(0, .file (.wrote 113))] ++ List.replicate 4 (0, .file .ok)

/-- The last step is a `save` that returns `true`. -/
def savesLast (tr : StoredTrace) : Bool :=
  match tr.getLast? with
  | some (_, _, ⟨_, .file effect _⟩) => effect.result = some (.saved true [])
  | _ => false

/-- A step of one process. -/
def lifeStep (i : StoredState × ThreadId × StoredEffect) : StoredState × LifeEvent :=
  (i.1, .step i.2.1 i.2.2)

theorem life_of_stored {cfg : SystemConfig} {store : LatchStore} {g₀ g : StoredState}
    {tr : StoredTrace} (h : Run (stored cfg store).lts g₀ tr g) :
    Run (life cfg store) g₀ (tr.map lifeStep) g := by
  rw [← List.filterMap_eq_map]
  refine Run.refines (f := id) ?_ ?_ h
  · intro tr g l g' _ _ hview
    cases hview
  · intro tr g l g' j _ hstep hview
    cases hview
    exact ⟨rfl, LifeStep.step hstep⟩

/-- A `trigger` saves the latch, the process is killed before the ladder, and the next one comes up
latched. -/
theorem latch_survives_restart_mid_trigger :
    ∃ tr i g, Run (life simConfig simStore) (freshProcess emptyData.shared.disk)
        (tr ++ [i, (g, .restart)]) (freshProcess g.shared.disk) ∧
      Saves i.2 ∧ (freshProcess g.shared.disk).shared.shared.latched = true := by
  obtain ⟨tr, g, hrun, hcheck⟩ := Machine.run_of_passes (stored simConfig simStore)
    (freshProcess emptyData.shared.disk) triggerSaves (fun tr _ => savesLast tr)
    (by decide +kernel)
  unfold savesLast at hcheck
  split at hcheck
  · rename_i s t runtime effect next hlast
    have hsaved : effect.result = some (.saved true []) := by simpa using hcheck
    have htr := List.dropLast_append_getLast? _ hlast
    have hlife : Run (life simConfig simStore) (freshProcess emptyData.shared.disk)
        (tr.dropLast.map lifeStep ++ [(s, .step t ⟨runtime, .file effect next⟩), (g, .restart)])
        (freshProcess g.shared.disk) := by
      have hbefore := life_of_stored hrun
      rw [← htr, List.map_append] at hbefore
      have hkilled := Run.snoc hbefore (LifeStep.restart {} 0
        (freshProcess_restarted g.shared.disk))
      rwa [List.append_assoc] at hkilled
    have hsaves : Saves (.step t ⟨runtime, .file effect next⟩) := ⟨t, _, effect, next, [], rfl, rfl,
      hsaved⟩
    refine ⟨_, _, g, hlife, hsaves, ?_⟩
    refine (latch_survives_restart freshProcess_start hlife).2.1 _ _ _ rfl hsaves ?_ {} 0
    rintro k hk ⟨t, e, hk', -⟩
    rw [List.mem_singleton.mp hk] at hk'
    cases hk'
  · cases hcheck

end Anolis.Proofs.LatchSurvives
