import Anolis.Proofs.LatchFile

/-!
# A saved latch and a power loss

`save` syncs the temporary file before the rename and the directory `estop` after it, so the entry
of the latch file is durable when it returns `true`. The entry of `estop` itself in `data_dir` is
not synced by anything in the store. So a saved latch survives a power loss where that entry is
durable (`saved_latch_survives_power_loss`), and the first latch of an installation, for which
`save` makes the directory, can be gone (`new_directory_is_lost`).
-/

namespace Anolis.Proofs.LatchPowerLoss

open Control LatchFile Lib

section
variable {store : LatchStore} {disk disk' : Disk Bytes} {op next : FileOp}
  {result : Option FileResult}

/-- Whatever a power loss makes of the entry of the latch file, there is one. -/
def FileDurable (store : LatchStore) (disk : Disk Bytes) : Prop :=
  ∃ d, store.dir? disk = some d ∧ disk.isDir d ∧
    ∀ i, (disk.entry d store.fileName).MayBe i → i ≠ none

theorem fileDurable_step (hroot : Rooted store disk)
    (h : FileStep store disk op disk' result next) (hop : op ≠ .remove .unlink)
    (hdurable : FileDurable store disk) : FileDurable store disk' := by
  obtain ⟨d, hdir, hisDir, hentry⟩ := hdurable
  have hd : d < disk.next := dir_below hroot hdir
  refine ⟨d, dir_step hroot h hdir, ((kinds_step h).2 d hd).trans hisDir, ?_⟩
  by_cases htouch : touchesFile op
  · obtain ⟨ms, reason, rfl⟩ := of_touchesFile htouch hop
    cases h with
    | quiet | linked => exact hentry
    | rename _ _ hdir' _ htmp =>
      obtain rfl := Option.some.inj (hdir.symm.trans hdir')
      obtain ⟨_, heq⟩ := Disk.move_eq store.fileName htmp
      rw [heq, Disk.entry_bind fun h => tmpName_ne_fileName store h.2.symm, Disk.entry_bind_self]
      -- the new file, or what was there before
      intro i hi
      rcases hi with hi | hi
      · rw [hi]
        exact Option.some_ne_none _
      · exact hentry i (List.mem_cons.mp hi)
  · intro i hi
    exact hentry i ((fileEntry_step h (by simpa using htouch) hd).2 i hi)

theorem fileDurable_settle (d : Ino) (h : FileDurable store disk) :
    FileDurable store (disk.settle d) := by
  obtain ⟨d', hdir, hisDir, hentry⟩ := h
  refine ⟨d', ?_, hisDir, fun i hi => hentry i ((stays_settle disk d d' _).2 i hi)⟩
  rw [LatchStore.dir?, lookup_settle]
  exact hdir

theorem fileDurable_syncDir {d : Ino} (hdir : store.dir? disk = some d)
    (hfile : store.file? disk ≠ none) : FileDurable store (disk.settle d) := by
  obtain ⟨i, hi⟩ := Option.ne_none_iff_exists'.mp hfile
  obtain ⟨d', hdir', hisDir, hnow⟩ := lookup_eq_some hi
  obtain rfl := Option.some.inj (hdir.symm.trans hdir')
  refine ⟨d, by rw [LatchStore.dir?, lookup_settle]; exact hdir, hisDir, ?_⟩
  rw [Disk.entry_settle_self]
  intro j hj
  have hj : j = some i := by simpa [Entry.MayBe, Entry.settled, hnow] using hj
  rw [hj]
  exact Option.some_ne_none _

/-- The entry of `estop` in `data_dir` is durable. -/
def DirDurable (store : LatchStore) (disk : Disk Bytes) : Prop :=
  ∀ i, (disk.entry store.root LatchStore.dirName).MayBe i →
    i = (disk.entry store.root LatchStore.dirName).now

theorem present_of_powerLoss (hroot : Rooted store disk) (hfile : FileDurable store disk)
    (hdir : DirDurable store disk) (hloss : PowerLoss disk disk') : store.file? disk' ≠ none := by
  obtain ⟨d, hd, hisDir, hentry⟩ := hfile
  have hd' : store.dir? disk' = some d := by
    have hsame := hdir _ (hloss.entry store.root LatchStore.dirName)
    rw [LatchStore.dir?, Disk.lookup, hloss.isDir, hroot.isDir, if_pos rfl, hsame, ← hroot.dir?, hd]
  have hisDir' : disk'.isDir d := by rw [hloss.isDir, hisDir]
  have hlookup : store.file? disk' = (disk'.entry d store.fileName).now := lookup_dir hd' hisDir'
  rw [hlookup]
  exact hentry _ (hloss.entry d store.fileName)

end

/-- A latch that `save` reported as saved, and that no `remove` was called for since, is found after
a power loss at any time at which the entry of `estop` in `data_dir` is durable, however the
operations of the history and of the load go. -/
theorem saved_latch_survives_power_loss {store : LatchStore} {g₀ g i : Global StoreState Unit}
    {tr₁ tr₂ : StoreTrace} {t : ThreadId} {effect : FileEffect} {next : FileOp} {error : Bytes}
    {disk : Disk Bytes} (h0 : StoreStart store g₀)
    (h : Run (storeMachine store).lts g₀ (tr₁ ++ (i, t, .file effect next) :: tr₂) g)
    (hsaved : effect.result = some (.saved true error)) (hnone : ∀ k ∈ tr₂, k.2.2 ≠ .remove)
    (hdir : DirDurable store g.shared.disk) (hloss : PowerLoss g.shared.disk disk) (io : LoadIo) :
    (store.load disk io).state ≠ .absent := by
  have hdurable : FileDurable store g.shared.disk := by
    refine until_removal (keeps_of_fileStep ?_ ?_) h0 h (fun hs hstep => ?_) hnone
    · exact fun s disk' result next hs hremoval h => fileDurable_step hs.rooted h (hremoval _)
    · exact fun disk => fileDurable_settle store.root
    · obtain ⟨ms, reason, d, hop, hdir, hdisk, rfl⟩ := of_saved hstep hsaved
      have hplace := hs.save
      rw [hop] at hplace
      refine ⟨?_, fun pc hpc => by cases hpc⟩
      show FileDurable store (effect.apply i.shared.disk)
      rw [hdisk]
      exact fileDurable_syncDir hdir hplace
  intro habsent
  exact present_of_powerLoss (sound_run h0 h).rooted hdurable hdir hloss (file_of_absent habsent)

/-! ### A first latch -/

def simStore : LatchStore where
  root := 0
  dataDir := ascii "/data"
  configDir := ascii "/config"

/-- An empty `data_dir`. -/
def emptyData : Global StoreState Unit where
  shared :=
    { disk :=
        { content := fun _ => []
          synced := fun _ => false
          isDir := fun i => i = 0
          entry := fun _ _ => {}
          next := 1
          bounded := fun d n i h => by simp [Entry.MayBe] at h } }
  thread _ := ()

/-- A `data_dir` with `estop` in it, made long ago. -/
def usedData : Global StoreState Unit where
  shared :=
    { disk :=
        { content := fun _ => []
          synced := fun _ => false
          isDir := fun i => i = 0 || i = 1
          entry := fun d n => if d = 0 ∧ n = LatchStore.dirName then ⟨some 1, []⟩ else {}
          next := 2
          bounded := fun d n i h => by
            split at h
            · obtain rfl : i = 1 := by simpa [Entry.MayBe] using h
              exact Nat.lt_succ_self 1
            · simp [Entry.MayBe] at h } }
  thread _ := ()

theorem emptyData_start : StoreStart simStore emptyData := ⟨⟨rfl, Nat.lt_succ_self 0⟩, rfl⟩

theorem usedData_start : StoreStart simStore usedData := ⟨⟨rfl, Nat.lt_succ_of_lt Nat.one_pos⟩, rfl⟩

/-- A `save` in which everything succeeds, with the whole text in one write. -/
def savesOnce : List (ThreadId × StoreChoice) :=
  [(0, .save 1700000000000 (ascii "button"))] ++ List.replicate 3 (0, .file .ok) ++
    [(0, .file (.wrote 113))] ++ List.replicate 4 (0, .file .ok)

/-- The last step of a history is a `save` that returns `true`. -/
def endsSaved (tr : StoreTrace) : Bool :=
  match tr.getLast? with
  | some (_, _, .file effect _) => effect.result = some (.saved true [])
  | _ => false

theorem of_endsSaved {tr : StoreTrace} (h : endsSaved tr) :
    ∃ tr₁ i t effect next, tr = tr₁ ++ [(i, t, .file effect next)] ∧
      effect.result = some (.saved true []) := by
  unfold endsSaved at h
  split at h
  · rename_i i t effect next hlast
    exact ⟨_, i, t, effect, next, (List.dropLast_append_getLast? _ hlast).symm, by simpa using h⟩
  · cases h

theorem powerLoss_refl (disk : Disk Bytes) : PowerLoss disk disk :=
  ⟨rfl, fun _ _ => .inl rfl, fun _ _ => rfl⟩

/-- A latch saved into a directory that was there before. -/
theorem saved_latch_survives_power_loss_used :
    ∃ tr i t effect next g, StoreStart simStore usedData ∧
      Run (storeMachine simStore).lts usedData (tr ++ [(i, t, .file effect next)]) g ∧
      effect.result = some (.saved true []) ∧ DirDurable simStore g.shared.disk ∧
      (simStore.load g.shared.disk {}).state ≠ .absent := by
  obtain ⟨tr, g, hrun, hcheck⟩ := Machine.run_of_passes (storeMachine simStore) usedData savesOnce
    (fun tr g => endsSaved tr ∧ (g.shared.disk.entry 0 LatchStore.dirName).older.isEmpty)
    (by decide +kernel)
  obtain ⟨hends, holder⟩ := hcheck
  obtain ⟨tr₁, i, t, effect, next, rfl, hsaved⟩ := of_endsSaved hends
  have hdurable : DirDurable simStore g.shared.disk := by
    intro j hj
    rcases hj with hj | hj
    · exact hj
    · have hnil : (g.shared.disk.entry 0 LatchStore.dirName).older = [] := by simpa using holder
      rw [show simStore.root = 0 from rfl, hnil] at hj
      cases hj
  exact ⟨tr₁, i, t, effect, next, g, usedData_start, hrun, hsaved, hdurable,
    saved_latch_survives_power_loss usedData_start hrun hsaved (by simp) hdurable
      (powerLoss_refl _) {}⟩

/-- The latch of an empty `data_dir` is gone after a power loss, and `save` had returned `true`. -/
theorem new_directory_is_lost : ∃ tr i t effect next g disk, StoreStart simStore emptyData ∧
      Run (storeMachine simStore).lts emptyData (tr ++ [(i, t, .file effect next)]) g ∧
      effect.result = some (.saved true []) ∧ PowerLoss g.shared.disk disk ∧
      (simStore.load disk {}).state = .absent := by
  obtain ⟨tr, g, hrun, hcheck⟩ := Machine.run_of_passes (storeMachine simStore) emptyData savesOnce
    (fun tr g => endsSaved tr ∧ (g.shared.disk.entry 0 LatchStore.dirName).older.contains none)
    (by decide +kernel)
  obtain ⟨hends, holder⟩ := hcheck
  obtain ⟨tr₁, i, t, effect, next, rfl, hsaved⟩ := of_endsSaved hends
  refine ⟨tr₁, i, t, effect, next, g, g.shared.disk.bind 0 LatchStore.dirName none (by simp),
    emptyData_start, hrun, hsaved, ⟨rfl, fun d n => ?_, fun _ _ => rfl⟩, ?_⟩
  · by_cases hentry : d = 0 ∧ n = LatchStore.dirName
    · obtain ⟨rfl, rfl⟩ := hentry
      rw [Disk.entry_bind_self]
      exact Or.inr (by simpa [Entry.set] using holder)
    · rw [Disk.entry_bind hentry]
      exact Or.inl rfl
  · have hgone : simStore.file? (g.shared.disk.bind 0 LatchStore.dirName none (by simp)) =
      none := by
      rw [LatchStore.file?, LatchStore.dir?, Disk.lookup, show simStore.root = 0 from rfl,
        Disk.entry_bind_self]
      split <;> rfl
    simp [LatchStore.load, hgone]

end Anolis.Proofs.LatchPowerLoss
