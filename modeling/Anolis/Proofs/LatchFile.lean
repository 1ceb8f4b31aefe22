import Anolis.Control.LatchStore
import Anolis.Lib.JsonRoundTrip

/-!
# What the store's steps do to the latch file

The steps of `save` write to the temporary file only, and the rename puts a complete record in the
place of the latch file. So a latch file stays where it is until a `remove` takes it away
(`present_run`), and a record that can be loaded stays one that can be loaded (`loads_run`), however
the operations on the file system go and wherever the process is killed.

The frame lemmas are first: which entries, files and directories a step leaves alone.
-/

namespace Anolis.Proofs.LatchFile

open Control Lib

variable {ms : Int64} {reason : Bytes} {s : StoreState} {store : LatchStore}

section
variable {disk disk' : Disk Bytes} {op next : FileOp} {result : Option FileResult} {d i : Ino}
  {n : Bytes}

/-! ### Names -/

theorem fileName_length (store : LatchStore) : store.fileName.length = 21 := by
  simp [LatchStore.fileName, hex16, ascii]

theorem tmpName_length (store : LatchStore) : store.tmpName.length = 25 := by
  simp [LatchStore.tmpName, fileName_length, ascii]

theorem tmpName_ne_fileName (store : LatchStore) : store.tmpName ≠ store.fileName := by
  intro h
  have hlength := congrArg List.length h
  rw [tmpName_length, fileName_length] at hlength
  omega

theorem fileName_ne_dirName (store : LatchStore) : store.fileName ≠ LatchStore.dirName := by
  intro h
  have hlength := congrArg List.length h
  rw [fileName_length] at hlength
  exact absurd hlength (by decide)

theorem tmpName_ne_dirName (store : LatchStore) : store.tmpName ≠ LatchStore.dirName := by
  intro h
  have hlength := congrArg List.length h
  rw [tmpName_length] at hlength
  exact absurd hlength (by decide)

/-! ### What a step leaves alone -/

/-- `data_dir` exists. -/
structure Rooted (store : LatchStore) (disk : Disk Bytes) : Prop where
  isDir : disk.isDir store.root
  below : store.root < disk.next

theorem Rooted.dir? (h : Rooted store disk) :
    store.dir? disk = (disk.entry store.root LatchStore.dirName).now := by
  simp [LatchStore.dir?, Disk.lookup, h.isDir]

theorem dir_below (h : Rooted store disk) (hdir : store.dir? disk = some d) : d < disk.next := by
  rw [h.dir?] at hdir
  exact disk.bounded _ _ _ (.inl hdir.symm)

/-- The entry is what it was, and a power loss makes nothing else of it. -/
def Stays (e e' : Entry) : Prop := e'.now = e.now ∧ ∀ i, e'.MayBe i → e.MayBe i

theorem Stays.rfl {e : Entry} : Stays e e := ⟨Eq.refl _, fun _ h => h⟩

theorem stays_settle (disk : Disk Bytes) (d d' : Ino) (n : Bytes) :
    Stays (disk.entry d' n) ((disk.settle d).entry d' n) := by
  by_cases hd : d' = d
  · subst hd
    rw [Disk.entry_settle_self]
    exact ⟨Eq.refl _, fun i h => .inl (by simpa [Entry.MayBe, Entry.settled] using h)⟩
  · rw [Disk.entry_settle hd]
    exact .rfl

theorem kinds_step (h : FileStep store disk op disk' result next) :
    disk.next ≤ disk'.next ∧ ∀ i, i < disk.next → disk'.isDir i = disk.isDir i := by
  cases h with
  | mkdir | create => exact ⟨Nat.le_succ _, fun i hi => Disk.isDir_make hi⟩
  | rename ms reason hdir hisDir htmp =>
    obtain ⟨_, heq⟩ := Disk.move_eq store.fileName htmp
    rw [heq]
    exact ⟨Nat.le_refl _, fun _ _ => rfl⟩
  | _ => exact ⟨Nat.le_refl _, fun _ _ => rfl⟩

theorem Rooted.step (hroot : Rooted store disk) (h : FileStep store disk op disk' result next) :
    Rooted store disk' := by
  obtain ⟨hnext, hkinds⟩ := kinds_step h
  exact ⟨(hkinds _ hroot.below).trans hroot.isDir, Nat.lt_of_lt_of_le hroot.below hnext⟩

theorem content_step (h : FileStep store disk op disk' result next) (hi : i < disk.next)
    (hne : store.tmp? disk ≠ some i) : disk'.content i = disk.content i := by
  have hother : ∀ j content synced, store.tmp? disk = some j →
      (disk.setContent j content synced).content i = disk.content i := by
    intro j content synced hj
    have hij : i ≠ j := fun heq => hne (heq ▸ hj)
    exact Function.update_of_ne hij ..
  cases h with
  | mkdir | create => exact Disk.content_make hi
  | truncate ms reason htmp | append ms reason rest count htmp | syncTmp ms reason htmp =>
    exact hother _ _ _ htmp
  | rename ms reason hdir hisDir htmp =>
    obtain ⟨_, heq⟩ := Disk.move_eq store.fileName htmp
    rw [heq]
    rfl
  | _ => rfl

section

variable (hroot : Rooted store disk) (h : FileStep store disk op disk' result next)
  (hdir : store.dir? disk = some d)
include hroot h hdir

theorem dirEntry_step : Stays (disk.entry store.root LatchStore.dirName)
      (disk'.entry store.root LatchStore.dirName) := by
  have hfile : ∀ d', ¬ (store.root = d' ∧ LatchStore.dirName = store.fileName) := fun _ heq =>
    fileName_ne_dirName store heq.2.symm
  have htmp : ∀ d', ¬ (store.root = d' ∧ LatchStore.dirName = store.tmpName) := fun _ heq =>
    tmpName_ne_dirName store heq.2.symm
  cases h with
  | mkdir ms reason hisDir hnone =>
    rw [hdir] at hnone
    cases hnone
  | create =>
    rw [Disk.entry_make hroot.below (htmp _)]
    exact .rfl
  | rename ms reason hdir hisDir hsource =>
    obtain ⟨_, heq⟩ := Disk.move_eq store.fileName hsource
    rw [heq, Disk.entry_bind (htmp _), Disk.entry_bind (hfile _)]
    exact .rfl
  | discard =>
    rw [Disk.entry_bind (htmp _)]
    exact .rfl
  | unlink =>
    rw [Disk.entry_bind (hfile _)]
    exact .rfl
  | syncDir | syncRemoved => exact stays_settle ..
  | _ => exact .rfl

theorem dir_step : store.dir? disk' = some d := by
  rw [(hroot.step h).dir?, (dirEntry_step hroot h hdir).1, ← hroot.dir?, hdir]

end

/-- Is the step the rename of a `save` or the removal of a `remove`. -/
def touchesFile : FileOp → Bool
  | .save _ _ .rename | .remove .unlink => true
  | _ => false

theorem of_touchesFile (h : touchesFile op) (hop : op ≠ .remove .unlink) :
    ∃ ms reason, op = .save ms reason .rename := by
  unfold touchesFile at h
  split at h
  · exact ⟨_, _, rfl⟩
  · exact absurd rfl hop
  · cases h

theorem fileEntry_step (h : FileStep store disk op disk' result next) (hop : touchesFile op = false)
    (hd : d < disk.next) : Stays (disk.entry d store.fileName) (disk'.entry d store.fileName) := by
  have htmp : ∀ d', ¬ (d = d' ∧ store.fileName = store.tmpName) := fun _ heq =>
    tmpName_ne_fileName store heq.2.symm
  have hdirName : ∀ d', ¬ (d = d' ∧ store.fileName = LatchStore.dirName) := fun _ heq =>
    fileName_ne_dirName store heq.2
  cases h with
  | mkdir =>
    rw [Disk.entry_make hd (hdirName _)]
    exact .rfl
  | create =>
    rw [Disk.entry_make hd (htmp _)]
    exact .rfl
  | discard =>
    rw [Disk.entry_bind (htmp _)]
    exact .rfl
  | linked | rename | unlink => cases hop
  | syncDir | syncRemoved => exact stays_settle ..
  | _ => exact .rfl

theorem noLinks_step (hroot : Rooted store disk) (hlinks : disk.NoLinks)
    (h : FileStep store disk op disk' result next) : disk'.NoLinks := by
  cases h with
  | mkdir => exact Disk.noLinks_make hlinks hroot.below
  | create ms reason hdir => exact Disk.noLinks_make hlinks (dir_below hroot hdir)
  | rename ms reason hdir hisDir htmp =>
    exact Disk.noLinks_move hlinks (tmpName_ne_fileName store) htmp
  | discard | unlink => exact Disk.noLinks_unlink hlinks
  | syncDir | syncRemoved => exact Disk.noLinks_settle hlinks
  | _ => exact hlinks

/-! ### The latch file -/

theorem lookup_eq_some (h : ((store.dir? disk).bind fun d => disk.lookup d n) = some i) :
    ∃ d, store.dir? disk = some d ∧ disk.isDir d ∧ (disk.entry d n).now = some i := by
  obtain ⟨d, hdir, hlookup⟩ := Option.bind_eq_some_iff.mp h
  unfold Disk.lookup at hlookup
  split at hlookup
  · rename_i hisDir
    exact ⟨d, hdir, hisDir, hlookup⟩
  · cases hlookup

theorem tmp_ne_file (hlinks : disk.NoLinks) (hfile : store.file? disk = some i) :
    store.tmp? disk ≠ some i := by
  intro htmp
  obtain ⟨d, -, -, hfile⟩ := lookup_eq_some hfile
  obtain ⟨d', -, -, htmp⟩ := lookup_eq_some htmp
  exact tmpName_ne_fileName store (hlinks _ _ _ _ _ htmp hfile).2

theorem file_step (hroot : Rooted store disk) (h : FileStep store disk op disk' result next)
    (hop : touchesFile op = false) (hfile : store.file? disk = some i) :
    store.file? disk' = some i := by
  obtain ⟨d, hdir, hisDir, hnow⟩ := lookup_eq_some hfile
  have hd : d < disk.next := dir_below hroot hdir
  have hisDir' : disk'.isDir d := ((kinds_step h).2 d hd).trans hisDir
  exact (lookup_dir (dir_step hroot h hdir) hisDir').trans
    ((fileEntry_step h hop hd).1.trans hnow)

/-- After the rename the latch file is what the temporary file was. -/
theorem file_rename (hroot : Rooted store disk)
    (h : FileStep store disk (.save ms reason .rename) disk' none (.save ms reason .syncDir)) :
    ∃ i, store.tmp? disk = some i ∧ store.file? disk' = some i ∧
      disk'.content i = disk.content i ∧ disk'.isDir i = disk.isDir i := by
  have hstep := h
  cases h with
  | quiet h => cases h
  | linked _ _ htmp hfile => exact ⟨_, htmp, hfile, rfl, rfl⟩
  | @rename _ _ d i hdir hisDir htmp =>
    obtain ⟨_, heq⟩ := Disk.move_eq store.fileName htmp
    have hi : i < disk.next := disk.bounded _ _ _ (.inl htmp.symm)
    refine ⟨i, (lookup_dir hdir hisDir).trans htmp, ?_, by rw [heq]; rfl, (kinds_step hstep).2 i hi⟩
    have hisDir' := ((kinds_step hstep).2 d (dir_below hroot hdir)).trans hisDir
    refine (lookup_dir (dir_step hroot hstep hdir) hisDir').trans ?_
    rw [heq, Disk.entry_bind fun h => tmpName_ne_fileName store h.2.symm, Disk.entry_bind_self]
    rfl

/-! ### Records -/

theorem readable_record (hconfig : Utf8.valid store.configDir)
    (hreason : Utf8.valid reason) :
    Json.Readable Json.literalFormat (store.record ms reason) := by
  have hms : Json.fits ms.toInt := by
    have hlow := ms.le_toInt
    have hhigh := ms.toInt_lt
    simp only [Json.fits, decide_eq_true_eq]
    omega
  refine .object (by simp only [List.map]; decide) ?_ ?_
  · simp only [List.forall_mem_cons]
    decide
  · simp only [List.forall_mem_cons]
    exact ⟨.string hconfig, .bool true, .int hms, .string hreason, .int (by decide),
      List.forall_mem_nil _⟩

theorem dump_record (store : LatchStore) (ms : Int64) (reason : Bytes) :
    Json.dump Json.literalFormat (store.record ms reason) =
      if Utf8.valid store.configDir && Utf8.valid reason then
        some (Json.text Json.literalFormat (store.record ms reason))
      else none := by
  have hutf8 : Json.isUtf8 (store.record ms reason) =
      (Utf8.valid store.configDir && Utf8.valid reason) := by
    have hkeys : ∀ key ∈ [ascii "config_dir", ascii "latched", ascii "latched_at_epoch_ms",
        ascii "reason", ascii "schema_version"], Utf8.valid key = true := by
      decide
    simp only [List.forall_mem_cons] at hkeys
    simp [LatchStore.record, Json.isUtf8, Json.isUtf8Fields, Json.isUtf8Field, hkeys]
  rw [Json.dump, hutf8]

theorem judge_record {text : Bytes}
    (h : Json.dump Json.literalFormat (store.record ms reason) = some text) :
    (store.judge (text ++ [0x0A])).state = .latched := by
  rw [dump_record] at h
  split at h
  · rename_i hutf8
    obtain ⟨hconfig, hreason⟩ := Bool.and_eq_true_iff.mp hutf8
    cases h
    have hparse : Json.parse Json.literalFormat
        (Json.text Json.literalFormat (store.record ms reason) ++ [0x0A]) =
          some (store.record ms reason) :=
      Json.parse_text (readable_record hconfig hreason) (Json.delimited_cons (by simp) []) rfl
    have hlatched : (store.record ms reason).get? (ascii "latched") = some (.bool true) := rfl
    have hdir : (store.record ms reason).get? (ascii "config_dir") =
        some (.string store.configDir) := rfl
    simp only [LatchStore.judge, hparse, Option.getD_some, hlatched, hdir, if_true]
  · cases h

/-- What the temporary file is at a place of a `save`: what is written of the text and what is still
to be written are the text. -/
def Writing (store : LatchStore) (disk : Disk Bytes) (ms : Int64) (reason rest : Bytes) : Prop :=
  ∃ i text, store.tmp? disk = some i ∧ disk.isDir i = false ∧
    Json.dump Json.literalFormat (store.record ms reason) = some text ∧
    disk.content i ++ rest = text ++ [0x0A]

/-- What the places of a `save` say about the disk. -/
def SaveSound (store : LatchStore) (disk : Disk Bytes) : FileOp → Prop
  | .save _ _ (.serialise true) =>
    ∃ i, store.tmp? disk = some i ∧ disk.isDir i = false ∧ disk.content i = []
  | .save ms reason (.write rest) => Writing store disk ms reason rest
  | .save ms reason .syncTmp | .save ms reason .rename => Writing store disk ms reason []
  | .save _ _ .syncDir => store.file? disk ≠ none
  | _ => True

theorem saveSound_step (hroot : Rooted store disk) (h : FileStep store disk op disk' result next)
    (hop : SaveSound store disk op) : SaveSound store disk' next := by
  have hself : ∀ i content synced, (disk.setContent i content synced).content i = content :=
    fun i content synced => Function.update_self ..
  cases h with
  | quiet h =>
    cases h with
    | serialised ms reason text hdump =>
      obtain ⟨i, htmp, hfile, hempty⟩ := hop
      exact ⟨i, text, htmp, hfile, hdump, by rw [hempty]; rfl⟩
    | written => exact hop
    | _ => trivial
  | @create ms reason d hdir hisDir hnone =>
    have hstep : FileStep store disk (.save ms reason .openTmp) (disk.make d store.tmpName false)
        none (.save ms reason (.serialise true)) := .create ms reason hdir hisDir hnone
    have hd : d < disk.next := dir_below hroot hdir
    refine ⟨disk.next, ?_, Disk.isDir_make_new, Disk.content_make_new⟩
    refine (lookup_dir (dir_step hroot hstep hdir) ((Disk.isDir_make hd).trans hisDir)).trans ?_
    rw [Disk.entry_make_self hd]
    rfl
  | truncate ms reason htmp hfile => exact ⟨_, htmp, hfile, hself _ _ _⟩
  | append ms reason rest count htmp hfile =>
    obtain ⟨i, text, htmp', -, hdump, htext⟩ := hop
    obtain rfl := Option.some.inj (htmp.symm.trans htmp')
    refine ⟨_, text, htmp, hfile, hdump, ?_⟩
    rw [hself, List.append_assoc, List.take_append_drop, htext]
  | syncTmp ms reason htmp hfile =>
    obtain ⟨i, text, htmp', -, hdump, htext⟩ := hop
    obtain rfl := Option.some.inj (htmp.symm.trans htmp')
    exact ⟨_, text, htmp, hfile, hdump, by rw [hself, htext]⟩
  | linked ms reason htmp hfile =>
    show store.file? disk ≠ none
    simp [hfile]
  | rename ms reason hdir hisDir htmp =>
    obtain ⟨i, -, hfile, -⟩ := file_rename hroot (.rename ms reason hdir hisDir htmp)
    show store.file? _ ≠ none
    simp [hfile]
  | _ => trivial

/-- A latch file that is loaded as a record. -/
def Loads (store : LatchStore) (disk : Disk Bytes) : Prop :=
  ∃ i, store.file? disk = some i ∧ disk.isDir i = false ∧
    (store.judge (disk.content i)).state = .latched

theorem load_latched : (store.load disk {}).state = .latched ↔ Loads store disk := by
  unfold LatchStore.load Loads
  cases hfile : store.file? disk with
  | none => simp
  | some i =>
    cases hdir : disk.isDir i with
    | false => simp [hdir]
    | true => simp [hdir, LatchStore.judge, Json.parse, Json.withoutMark, Json.lex, Json.lexEnd,
        Json.parseTokens, Json.get?, LatchStore.unreadable]

theorem judge_ne_absent (content : Bytes) : (store.judge content).state ≠ .absent := by
  unfold LatchStore.judge
  simp only
  split
  · split
    · split <;> simp [LatchStore.unreadable]
    · simp [LatchStore.unreadable]
  · simp [LatchStore.unreadable]

theorem file_of_absent {io : LoadIo} (h : (store.load disk io).state = .absent) :
    store.file? disk = none := by
  unfold LatchStore.load at h
  split at h
  · cases h
  · split at h
    · assumption
    · split at h
      · cases h
      · exact absurd h (judge_ne_absent _)

theorem loads_rename (hroot : Rooted store disk)
    (htmp : SaveSound store disk (.save ms reason .rename))
    (h : FileStep store disk (.save ms reason .rename) disk' none (.save ms reason .syncDir)) :
    Loads store disk' := by
  obtain ⟨i, hi, hfile, hcontent, hisDir⟩ := file_rename hroot h
  obtain ⟨j, text, hj, hnotDir, hdump, htext⟩ := htmp
  obtain rfl := Option.some.inj (hi.symm.trans hj)
  refine ⟨i, hfile, hisDir.trans hnotDir, ?_⟩
  rw [hcontent, ← List.append_nil (disk.content i), htext]
  exact judge_record hdump

/-- A record stays a record, unless a `remove` takes it away. -/
theorem loads_step (hroot : Rooted store disk) (hlinks : disk.NoLinks)
    (htmp : SaveSound store disk op) (h : FileStep store disk op disk' result next)
    (hop : op ≠ .remove .unlink) (hloads : Loads store disk) : Loads store disk' := by
  by_cases htouch : touchesFile op
  · obtain ⟨ms, reason, rfl⟩ := of_touchesFile htouch hop
    cases h with
    | quiet => exact hloads
    | linked _ _ hi hfile => exact loads_rename hroot htmp (.linked ms reason hi hfile)
    | rename _ _ hdir hisDir hi => exact loads_rename hroot htmp (.rename ms reason hdir hisDir hi)
  · obtain ⟨i, hfile, hisDir, hjudge⟩ := hloads
    have hi : i < disk.next := by
      obtain ⟨d, -, -, hnow⟩ := lookup_eq_some hfile
      exact disk.bounded _ _ _ (.inl hnow.symm)
    refine ⟨i, file_step hroot h (by simpa using htouch) hfile,
      ((kinds_step h).2 i hi).trans hisDir, ?_⟩
    rw [content_step h hi (tmp_ne_file hlinks hfile)]
    exact hjudge

theorem present_step (hroot : Rooted store disk) (h : FileStep store disk op disk' result next)
    (hop : op ≠ .remove .unlink) (hfile : store.file? disk ≠ none) : store.file? disk' ≠ none := by
  obtain ⟨i, hi⟩ := Option.ne_none_iff_exists'.mp hfile
  by_cases htouch : touchesFile op
  · obtain ⟨ms, reason, rfl⟩ := of_touchesFile htouch hop
    cases h with
    | quiet | linked _ _ htmp hlinked => exact hfile
    | rename _ _ hdir hisDir htmp =>
      obtain ⟨j, -, hj, -⟩ := file_rename hroot (.rename ms reason hdir hisDir htmp)
      simp [hj]
  · simp [file_step hroot h (by simpa using htouch) hi]

end

/-! ### Histories -/

abbrev StoreTrace := Trace (Global StoreState Unit) (ThreadId × StoreEvent)

/-- The steps of a history. -/
inductive StoreStep (store : LatchStore) (s : StoreState) : StoreEvent → Prop
  | other : StoreStep store s .other
  | save (ms : Int64) (reason : Bytes) (h : s.op = .idle) : StoreStep store s (.save ms reason)
  | remove (h : s.op = .idle) : StoreStep store s .remove
  | file {e : FileEffect} {next : FileOp}
      (h : FileStep store s.disk s.op (e.apply s.disk) e.result next) :
      StoreStep store s (.file e next)
  | killed : StoreStep store s .killed
  | syncRoot : StoreStep store s .syncRoot

section
variable {g₀ g g' : Global StoreState Unit} {t : ThreadId} {e : StoreEvent} {tr : StoreTrace}
  {tr₁ tr₂ : StoreTrace} {Q : Disk Bytes → Prop} {effect : FileEffect}

theorem store_step (h : (storeMachine store).lts.step g (t, e) g') :
    g'.shared = g.shared.apply store e ∧ StoreStep store g.shared e := by
  obtain ⟨c, th', hnext, hshared, -⟩ := Machine.step_inv h
  refine ⟨hshared, ?_⟩
  obtain ⟨e', hevent, heq⟩ := Option.map_eq_some_iff.mp hnext
  obtain rfl : e' = e := (Prod.mk.inj heq).1
  cases c with
  | other | kill | syncRoot =>
    cases hevent
    constructor
  | save ms reason =>
    simp only [storeNext] at hevent
    split at hevent
    · cases hevent
      exact .save ms reason ‹_›
    · cases hevent
  | remove =>
    simp only [storeNext] at hevent
    split at hevent
    · cases hevent
      exact .remove ‹_›
    · cases hevent
  | file c =>
    obtain ⟨⟨effect, next⟩, hfile, rfl⟩ := Option.map_eq_some_iff.mp hevent
    exact .file (fileStep_of_next hfile)

/-- A disk to start with: `data_dir` exists. -/
structure StoreStart (store : LatchStore) (g : Global StoreState Unit) : Prop where
  rooted : Rooted store g.shared.disk
  idle : g.shared.op = .idle

/-- What holds in every state of a history. -/
structure StoreSound (store : LatchStore) (s : StoreState) : Prop where
  rooted : Rooted store s.disk
  save : SaveSound store s.disk s.op

theorem lookup_settle (disk : Disk Bytes) (d d' : Ino) (n : Bytes) :
    (disk.settle d).lookup d' n = disk.lookup d' n := by
  simp only [Disk.lookup, (stays_settle disk d d' n).1]
  rfl

theorem file_settle (disk : Disk Bytes) (d : Ino) :
    store.file? (disk.settle d) = store.file? disk := by
  simp only [LatchStore.file?, LatchStore.dir?, lookup_settle]

theorem saveSound_settle {disk : Disk Bytes} {op : FileOp} (d : Ino) (h : SaveSound store disk op) :
    SaveSound store (disk.settle d) op := by
  have htmp : store.tmp? (disk.settle d) = store.tmp? disk := by
    simp only [LatchStore.tmp?, LatchStore.dir?, lookup_settle]
  unfold SaveSound Writing at h ⊢
  rw [htmp, file_settle]
  exact h

theorem StoreSound.step (hs : StoreSound store s) (h : StoreStep store s e) :
    StoreSound store (s.apply store e) := by
  cases h with
  | other => exact hs
  | save | remove | killed => exact ⟨hs.rooted, trivial⟩
  | file h => exact ⟨hs.rooted.step h, saveSound_step hs.rooted h hs.save⟩
  | syncRoot => exact ⟨⟨hs.rooted.isDir, hs.rooted.below⟩, saveSound_settle store.root hs.save⟩

theorem sound_run (h0 : StoreStart store g₀) (h : Run (storeMachine store).lts g₀ tr g) :
    StoreSound store g.shared := by
  refine Run.induct (J := fun _ g => StoreSound store g.shared) ?_ ?_ h
  · exact ⟨h0.rooted, by rw [h0.idle]; trivial⟩
  · intro tr g l g' _ hs hstep
    obtain ⟨hshared, hstep⟩ := store_step hstep
    rw [hshared]
    exact hs.step hstep

/-! ### Until a removal -/

/-- No `remove` is running. -/
def NoRemoval (s : StoreState) : Prop := ∀ pc, s.op ≠ .remove pc

theorem NoRemoval.step (hs : NoRemoval s) (h : StoreStep store s e) (he : e ≠ .remove) :
    NoRemoval (s.apply store e) := by
  intro pc hpc
  cases h with
  | other => exact hs pc hpc
  | save | killed => cases hpc
  | remove => exact he rfl
  | syncRoot => exact hs pc hpc
  | @file effect next h =>
    obtain rfl : next = .remove pc := hpc
    generalize hop : s.op = op at h
    generalize effect.apply s.disk = disk' at h
    generalize effect.result = result at h
    cases h with
    | quiet h => cases h
    | unlink => exact hs _ hop

variable {i : Global StoreState Unit × ThreadId × StoreEvent}

/-- What holds of the disk behind a step, and every step keeps that is none of a removal, holds
until a `remove` begins. -/
theorem until_removal
    (hkeep : ∀ s e, StoreSound store s → NoRemoval s → StoreStep store s e → Q s.disk →
      Q (s.apply store e).disk)
    (h0 : StoreStart store g₀) (h : Run (storeMachine store).lts g₀ (tr₁ ++ i :: tr₂) g)
    (hmake : StoreSound store i.1.shared → StoreStep store i.1.shared i.2.2 →
      Q (i.1.shared.apply store i.2.2).disk ∧ NoRemoval (i.1.shared.apply store i.2.2))
    (hnone : ∀ k ∈ tr₂, k.2.2 ≠ .remove) : Q g.shared.disk := by
  have hbehind : (∀ k ∈ tr₂, k.2.2 ≠ .remove) → Q g.shared.disk ∧ NoRemoval g.shared := by
    refine Run.after_step (T := (storeMachine store).lts)
      (K := fun behind g => (∀ k ∈ behind, k.2.2 ≠ .remove) → Q g.shared.disk ∧ NoRemoval g.shared)
      ?_ ?_ h
    · intro s' hrun hstep _
      obtain ⟨hshared, hstep⟩ := store_step hstep
      rw [hshared]
      exact hmake (sound_run h0 hrun) hstep
    · intro tr s l s' behind hrun hstep hk hnone
      obtain ⟨hshared, hstep⟩ := store_step hstep
      obtain ⟨hQ, hremoval⟩ := hk fun k hk => hnone k (List.mem_append_left _ hk)
      have hl : l.2 ≠ .remove := hnone (s, l) List.mem_concat_self
      rw [hshared]
      exact ⟨hkeep _ _ (sound_run h0 hrun) hremoval hstep hQ, hremoval.step hstep hl⟩
  exact (hbehind hnone).1

/-- A step that leaves the disk as it is keeps what holds of it, so the steps of the file system are
to be looked at. -/
theorem keeps_of_fileStep (hfile : ∀ s disk' result next, StoreSound store s → NoRemoval s →
      FileStep store s.disk s.op disk' result next → Q s.disk → Q disk')
    (hsettle : ∀ disk, Q disk → Q (disk.settle store.root)) :
    ∀ s e, StoreSound store s → NoRemoval s → StoreStep store s e → Q s.disk →
      Q (s.apply store e).disk := by
  intro s e hs hremoval hstep hQ
  cases hstep with
  | other | save | remove | killed => exact hQ
  | file h => exact hfile s _ _ _ hs hremoval h hQ
  | syncRoot => exact hsettle _ hQ

theorem present_keeps : ∀ s e, StoreSound store s → NoRemoval s → StoreStep store s e →
    store.file? s.disk ≠ none → store.file? (s.apply store e).disk ≠ none := by
  refine keeps_of_fileStep (Q := fun disk => store.file? disk ≠ none) ?_ ?_
  · exact fun s disk' result next hs hremoval h => present_step hs.rooted h (hremoval _)
  · intro disk h
    rwa [file_settle]

theorem loads_settle {disk : Disk Bytes} (d : Ino) (h : Loads store disk) :
    Loads store (disk.settle d) := by
  unfold Loads at h ⊢
  rw [file_settle]
  exact h

theorem loads_keeps : ∀ s e, StoreSound store s → NoRemoval s → StoreStep store s e →
    s.disk.NoLinks ∧ Loads store s.disk →
    (s.apply store e).disk.NoLinks ∧ Loads store (s.apply store e).disk := by
  refine keeps_of_fileStep (Q := fun disk => disk.NoLinks ∧ Loads store disk) ?_ ?_
  · intro s disk' result next hs hremoval h hQ
    exact ⟨noLinks_step hs.rooted hQ.1 h, loads_step hs.rooted hQ.1 hs.save h (hremoval _) hQ.2⟩
  · exact fun disk hQ => ⟨Disk.noLinks_settle hQ.1, loads_settle store.root hQ.2⟩

theorem noLinks_run (h0 : StoreStart store g₀) (hlinks : g₀.shared.disk.NoLinks)
    (h : Run (storeMachine store).lts g₀ tr g) : g.shared.disk.NoLinks := by
  refine Run.induct (J := fun _ g => g.shared.disk.NoLinks) hlinks ?_ h
  intro tr g l g' hrun hg hstep
  obtain ⟨hshared, hstep⟩ := store_step hstep
  rw [hshared]
  generalize l.2 = e at hstep
  cases hstep with
  | other | save | remove | killed => exact hg
  | file h => exact noLinks_step (sound_run h0 hrun).rooted hg h
  | syncRoot => exact Disk.noLinks_settle hg

theorem of_saved {next : FileOp} {error : Bytes} (h : StoreStep store s (.file effect next))
    (hsaved : effect.result = some (.saved true error)) :
    ∃ ms reason d, s.op = .save ms reason .syncDir ∧ store.dir? s.disk = some d ∧
      effect.apply s.disk = s.disk.settle d ∧ next = .idle := by
  cases h with
  | file h =>
    rw [hsaved] at h
    generalize hop : s.op = op at h
    generalize effect.apply s.disk = disk' at h
    cases h with
    | quiet h => cases h
    | syncDir ms reason hdir => exact ⟨ms, reason, _, rfl, hdir, rfl, rfl⟩

/-- Until a `remove` begins, the file of a `save` that returned `true` is there. -/
theorem present_run {next : FileOp}
    {error : Bytes} (h0 : StoreStart store g₀)
    (h : Run (storeMachine store).lts g₀ (tr₁ ++ i :: tr₂) g) (hi : i.2.2 = .file effect next)
    (hsaved : effect.result = some (.saved true error)) (hnone : ∀ k ∈ tr₂, k.2.2 ≠ .remove) :
    store.file? g.shared.disk ≠ none := by
  refine until_removal (Q := fun disk => store.file? disk ≠ none) present_keeps h0 h
    (fun hs hstep => ?_) hnone
  rw [hi] at hstep ⊢
  obtain ⟨ms, reason, d, hop, hdir, hdisk, rfl⟩ := of_saved hstep hsaved
  have hplace := hs.save
  rw [hop] at hplace
  refine ⟨?_, fun pc hpc => by cases hpc⟩
  show store.file? (effect.apply i.1.shared.disk) ≠ none
  rw [hdisk, file_settle]
  exact hplace

/-- From the beginning of a `save` until a `remove` begins, a file that was there is there. -/
theorem present_since (h0 : StoreStart store g₀)
    (h : Run (storeMachine store).lts g₀ (tr₁ ++ i :: tr₂) g) (hi : i.2.2 = .save ms reason)
    (hpresent : store.file? i.1.shared.disk ≠ none) (hnone : ∀ k ∈ tr₂, k.2.2 ≠ .remove) :
    store.file? g.shared.disk ≠ none := by
  refine until_removal (Q := fun disk => store.file? disk ≠ none) present_keeps h0 h
    (fun hs hstep => ?_) hnone
  rw [hi]
  exact ⟨hpresent, fun pc hpc => by cases hpc⟩

/-- From the beginning of a `save` until a `remove` begins, a record that was there is there. -/
theorem loads_run
    (h0 : StoreStart store g₀) (hlinks : g₀.shared.disk.NoLinks)
    (h : Run (storeMachine store).lts g₀ (tr₁ ++ i :: tr₂) g) (hi : i.2.2 = .save ms reason)
    (hloads : Loads store i.1.shared.disk) (hnone : ∀ k ∈ tr₂, k.2.2 ≠ .remove) :
    Loads store g.shared.disk := by
  have hlinks' : i.1.shared.disk.NoLinks := noLinks_run h0 hlinks h.at_step.1
  refine (until_removal (Q := fun disk => disk.NoLinks ∧ Loads store disk) loads_keeps h0 h
    (fun hs hstep => ?_) hnone).2
  rw [hi]
  exact ⟨⟨hlinks', hloads⟩, fun pc hpc => by cases hpc⟩

end

end Anolis.Proofs.LatchFile
