import Anolis.Lib.Disk
import Anolis.Lib.Json
import Anolis.Lib.Machine

/-!
# The latch on disk

The latch file of `latch_store.cpp`: where it is (`path_for`), what a startup reads from it
(`load`), and how it is written (`save`) and removed (`remove`). `save` and `remove` are routines of
the process that runs them: `SavePc` and `RemovePc` are the places, and a step is one operation on
the file system. A process may be killed between any two of them, and a write may take several
steps, so it may be killed with any part of the text written.

The outcome of each operation is the schedule's (`FileChoice`), where the file system allows it to
succeed. `data_dir` exists; it is the directory `root`.

Left out: `schema_version` is written and never read. A second name of one of the files, a file
that another program changes meanwhile, and the Windows branches.
-/

namespace Anolis.Control

open Lib

/-! ### Names -/

/-- A `LatchStore`. -/
structure LatchStore where
  root : Ino
  dataDir : Bytes
  configDir : Bytes

/-- The FNV-1a hash of 64 bits. -/
def fnv1a (s : Bytes) : Nat :=
  s.foldl (fun hash c => (hash ^^^ c.toNat) * 0x100000001b3 % 2 ^ 64) 0xcbf29ce484222325

/-- `{:016x}`. -/
def hex16 (n : Nat) : Bytes :=
  (List.range 16).map fun k => Json.hexDigit (UInt8.ofNat (n / 16 ^ (15 - k) % 16))

namespace LatchStore

def dirName : Bytes := ascii "estop"

/-- The name of the latch file (`path_for`). -/
def fileName (store : LatchStore) : Bytes := hex16 (fnv1a store.configDir) ++ ascii ".json"

/-- The name of the file that becomes the latch file. -/
def tmpName (store : LatchStore) : Bytes := store.fileName ++ ascii ".tmp"

/-- The texts of the paths, as the messages print them. -/
def dirPath (store : LatchStore) : Bytes := store.dataDir ++ ascii "/" ++ dirName

def filePath (store : LatchStore) : Bytes := store.dirPath ++ ascii "/" ++ store.fileName

def tmpPath (store : LatchStore) : Bytes := store.filePath ++ ascii ".tmp"

/-- The directory of the latch files. -/
def dir? (store : LatchStore) (disk : Disk Bytes) : Option Ino := disk.lookup store.root dirName

/-- The latch file. -/
def file? (store : LatchStore) (disk : Disk Bytes) : Option Ino :=
  (store.dir? disk).bind fun d => disk.lookup d store.fileName

/-- The file that becomes the latch file. -/
def tmp? (store : LatchStore) (disk : Disk Bytes) : Option Ino :=
  (store.dir? disk).bind fun d => disk.lookup d store.tmpName

end LatchStore

/-! ### Loading -/

/-- `PersistedLatch::State`. -/
inductive PersistedState
  | absent | latched | unreadable
deriving DecidableEq

/-- `PersistedLatch`. -/
structure PersistedLatch where
  state : PersistedState := .absent
  latchedAtEpochMs : Option Int64 := none
  detail : Bytes := []
deriving DecidableEq

/-- How the operations of a `load` go: the error of the check whether the file exists, whether the
file can be opened, and how much can be read of it where the reading fails. -/
structure LoadIo where
  checkError : Option Bytes := none
  opens : Bool := true
  readUpTo : Option Nat := none

/-- The time in a record, where there is one. An unsigned number that is too large is wrapped. -/
def recordedAt (doc : Json Bytes) : Option Int64 :=
  match doc.get? (ascii "latched_at_epoch_ms") with
  | some (.int i) => some (Int64.ofInt i)
  | _ => none

namespace LatchStore

/-- A text about the latch file. -/
def about (store : LatchStore) (what : Bytes) : Bytes :=
  ascii "the latch file " ++ store.filePath ++ what

def unreadable (store : LatchStore) (what : Bytes) : PersistedLatch :=
  { state := .unreadable, detail := store.about what }

/-- What the content of the file says. -/
def judge (store : LatchStore) (content : Bytes) : PersistedLatch :=
  let doc := (Json.parse Json.literalFormat content).getD .null
  match doc.get? (ascii "latched") with
  | some (.bool true) =>
    match doc.get? (ascii "config_dir") with
    | some (.string s) =>
      if s = store.configDir then
        { state := .latched
          latchedAtEpochMs := recordedAt doc
          detail := store.about (ascii " records a software stop") }
      else store.unreadable (otherDir store)
    | _ => store.unreadable (otherDir store)
  | _ => store.unreadable (ascii " is present but not a valid latch record")
where
  otherDir (store : LatchStore) : Bytes :=
    ascii " does not name this config directory (" ++ store.configDir ++ ascii ")"

/-- `load`. -/
def load (store : LatchStore) (disk : Disk Bytes) (io : LoadIo) : PersistedLatch :=
  match io.checkError with
  | some message => store.unreadable (ascii " could not be checked: " ++ message)
  | none =>
    match store.file? disk with
    | none => {}
    | some i =>
      if !io.opens then store.unreadable (ascii " is present but could not be read")
      else
        -- a read that fails later is not noticed: what was read is judged
        let content := if disk.isDir i then [] else disk.content i
        store.judge ((io.readUpTo.map content.take).getD content)

/-- The record of an engaged latch. The members are in the order of their keys. -/
def record (store : LatchStore) (latchedAtEpochMs : Int64) (reason : Bytes) : Json Bytes :=
  .object
    [(ascii "config_dir", .string store.configDir), (ascii "latched", .bool true),
      (ascii "latched_at_epoch_ms", .int latchedAtEpochMs.toInt), (ascii "reason", .string reason),
      (ascii "schema_version", .int 1)]

end LatchStore

/-! ### Saving and removing -/

/-- How an operation on the file system goes. `wrote` is a write of some bytes. -/
inductive FileChoice
  | ok
  | failed (message : Bytes)
  | wrote (count : Nat)

/-- Where a `save` is. `discard` removes the temporary file and returns the error. -/
inductive SavePc
  | createDir | openTmp
  | serialise (opened : Bool)
  | write (rest : Bytes)
  | syncTmp | rename | syncDir
  | discard (error : Bytes)
deriving DecidableEq

/-- Where a `remove` is. -/
inductive RemovePc
  | unlink | syncDir
deriving DecidableEq

/-- What a `save` or a `remove` comes to: its boolean with its error text, or the exception of
`dump`. -/
inductive FileResult
  | saved (ok : Bool) (error : Bytes)
  | threw
  | removed (ok : Bool) (error : Bytes)
deriving DecidableEq

/-- What the process does with the latch file. -/
inductive FileOp
  | idle
  | save (latchedAtEpochMs : Int64) (reason : Bytes) (pc : SavePc)
  | remove (pc : RemovePc)
deriving DecidableEq

/-- A step: the operation on the file system that succeeds in it, and the result where it is the
last one. -/
structure FileEffect where
  op : Option (DiskOp Bytes) := none
  result : Option FileResult := none
deriving DecidableEq

/-- A disk after a step. -/
def FileEffect.apply (e : FileEffect) (disk : Disk Bytes) : Disk Bytes :=
  (e.op.bind disk.perform).getD disk

/-- A step of a `save` that goes on. -/
def goesOn (ms : Int64) (reason : Bytes) (op : Option (DiskOp Bytes)) (pc : SavePc) :
    Option (FileEffect × FileOp) :=
  some ({ op := op }, .save ms reason pc)

/-- A step that is the last one. -/
def ends (op : Option (DiskOp Bytes)) (result : FileResult) : Option (FileEffect × FileOp) :=
  some ({ op := op, result := some result }, .idle)

/-- A step of `save`. -/
def saveNext (store : LatchStore) (disk : Disk Bytes) (ms : Int64) (reason : Bytes) :
    SavePc → FileChoice → Option (FileEffect × FileOp)
  | .createDir, .ok =>
    match store.dir? disk with
    | none => goesOn ms reason (some (.mkdir store.root LatchStore.dirName)) .openTmp
    | some d => if disk.isDir d then goesOn ms reason none .openTmp else none
  | .createDir, .failed message =>
    ends none (.saved false (ascii "cannot create " ++ store.dirPath ++ ascii ": " ++ message))
  | .openTmp, .ok =>
    match store.dir? disk with
    | some d => goesOn ms reason (some (.create d store.tmpName)) (.serialise true)
    | none => none
  | .openTmp, .failed _ => goesOn ms reason none (.serialise false)
  -- the text is made after the file was opened, whether or not that worked
  | .serialise opened, .ok =>
    match Json.dump Json.literalFormat (store.record ms reason) with
    | none => ends none .threw
    | some text =>
      if opened then goesOn ms reason none (.write (text ++ [0x0A]))
      else goesOn ms reason none (.discard (ascii "cannot write " ++ store.tmpPath))
  | .write rest, .wrote count =>
    match store.tmp? disk with
    | some i =>
      if 0 < count ∧ count ≤ rest.length then
        goesOn ms reason (some (.append i (rest.take count))) (.write (rest.drop count))
      else none
    | none => none
  | .write [], .ok => goesOn ms reason none .syncTmp
  | .write _, .failed _ =>
    goesOn ms reason none (.discard (ascii "cannot write " ++ store.tmpPath))
  | .syncTmp, .ok =>
    match store.tmp? disk with
    | some i => goesOn ms reason (some (.syncFile i)) .rename
    | none => none
  | .syncTmp, .failed _ =>
    goesOn ms reason none (.discard (ascii "cannot sync " ++ store.tmpPath))
  | .rename, .ok =>
    match store.dir? disk with
    | some d => goesOn ms reason (some (.rename d store.tmpName store.fileName)) .syncDir
    | none => none
  | .rename, .failed message =>
    goesOn ms reason none (.discard (ascii "cannot rename " ++ store.tmpPath ++ ascii " to " ++
      store.filePath ++ ascii ": " ++ message))
  | .syncDir, .ok =>
    match store.dir? disk with
    | some d => ends (some (.syncDir d)) (.saved true [])
    | none => none
  | .syncDir, .failed _ =>
    ends none (.saved false (ascii "wrote " ++ store.filePath ++ ascii " but cannot sync " ++
      store.dirPath))
  -- the outcome of this removal is not looked at
  | .discard error, .ok =>
    match store.dir? disk, store.tmp? disk with
    | some d, some _ => ends (some (.unlink d store.tmpName)) (.saved false error)
    | _, _ => ends none (.saved false error)
  | .discard error, .failed _ => ends none (.saved false error)
  | _, _ => none

/-- A step of `remove`. -/
def removeNext (store : LatchStore) (disk : Disk Bytes) :
    RemovePc → FileChoice → Option (FileEffect × FileOp)
  | .unlink, .ok =>
    match store.dir? disk, store.file? disk with
    | some d, some _ => some ({ op := some (.unlink d store.fileName) }, .remove .syncDir)
    -- nothing was on disk, so nothing to make durable
    | _, _ => ends none (.removed true [])
  | .unlink, .failed message =>
    ends none (.removed false (ascii "cannot remove " ++ store.filePath ++ ascii ": " ++ message))
  | .syncDir, .ok =>
    match store.dir? disk with
    | some d => ends (some (.syncDir d)) (.removed true [])
    | none => none
  | .syncDir, .failed _ =>
    ends none (.removed false (ascii "removed " ++ store.filePath ++ ascii " but cannot sync " ++
      store.dirPath))
  | _, _ => none

/-- A step of what the process does with the latch file. An operation on the file system that
cannot succeed is no step. -/
def fileNext (store : LatchStore) (disk : Disk Bytes) (op : FileOp) (c : FileChoice) :
    Option (FileEffect × FileOp) :=
  let step :=
    match op with
    | .idle => none
    | .save ms reason pc => saveNext store disk ms reason pc c
    | .remove pc => removeNext store disk pc c
  step.filter fun next => next.1.op.all fun op => (disk.perform op).isSome

/-! ### A history of the store

What one process after the other does with the latch file: `save` and `remove` one at a time, and a
kill in the middle of one. Something else on the machine may sync `data_dir`. -/

structure StoreState where
  disk : Disk Bytes
  op : FileOp := .idle

inductive StoreEvent
  -- nothing happens to the latch file
  | other
  | save (latchedAtEpochMs : Int64) (reason : Bytes)
  | remove
  | file (e : FileEffect) (next : FileOp)
  | killed
  | syncRoot
deriving DecidableEq

inductive StoreChoice
  | other
  | save (latchedAtEpochMs : Int64) (reason : Bytes)
  | remove
  | file (c : FileChoice)
  | kill
  | syncRoot

def storeNext (store : LatchStore) (s : StoreState) : StoreChoice → Option StoreEvent
  | .other => some .other
  | .save ms reason => if s.op = .idle then some (.save ms reason) else none
  | .remove => if s.op = .idle then some .remove else none
  | .file c => (fileNext store s.disk s.op c).map fun r => .file r.1 r.2
  | .kill => some .killed
  | .syncRoot => some .syncRoot

def StoreState.apply (store : LatchStore) (s : StoreState) : StoreEvent → StoreState
  | .other => s
  | .save ms reason => { s with op := .save ms reason .createDir }
  | .remove => { s with op := .remove .unlink }
  | .file e next => ⟨e.apply s.disk, next⟩
  | .killed => { s with op := .idle }
  | .syncRoot => { s with disk := s.disk.settle store.root }

/-- The histories of a latch file. -/
def storeMachine (store : LatchStore) : Machine StoreState Unit StoreEvent StoreChoice where
  next s _ _ c := (storeNext store s c).map fun e => (e, ())
  apply s _ e := s.apply store e

/-! ### The steps by name -/

/-- A step that leaves the disk as it is. -/
inductive QuietStep (store : LatchStore) : FileOp → Option FileResult → FileOp → Prop
  | createDir (ms : Int64) (reason : Bytes) :
      QuietStep store (.save ms reason .createDir) none (.save ms reason .openTmp)
  | openFails (ms : Int64) (reason : Bytes) :
      QuietStep store (.save ms reason .openTmp) none (.save ms reason (.serialise false))
  | threw (ms : Int64) (reason : Bytes) (opened : Bool)
      (hdump : Json.dump Json.literalFormat (store.record ms reason) = none) :
      QuietStep store (.save ms reason (.serialise opened)) (some .threw) .idle
  | serialised (ms : Int64) (reason text : Bytes)
      (hdump : Json.dump Json.literalFormat (store.record ms reason) = some text) :
      QuietStep store (.save ms reason (.serialise true)) none
        (.save ms reason (.write (text ++ [0x0A])))
  | written (ms : Int64) (reason : Bytes) :
      QuietStep store (.save ms reason (.write [])) none (.save ms reason .syncTmp)
  | discards (ms : Int64) (reason : Bytes) (pc : SavePc) (error : Bytes) :
      QuietStep store (.save ms reason pc) none (.save ms reason (.discard error))
  | saveFails (ms : Int64) (reason : Bytes) (pc : SavePc) (error : Bytes) :
      QuietStep store (.save ms reason pc) (some (.saved false error)) .idle
  | removed (pc : RemovePc) (ok : Bool) (error : Bytes) :
      QuietStep store (.remove pc) (some (.removed ok error)) .idle

/-- The steps, by what they do to the disk. -/
inductive FileStep (store : LatchStore) (disk : Disk Bytes) :
    FileOp → Disk Bytes → Option FileResult → FileOp → Prop
  | quiet {op next : FileOp} {result : Option FileResult} (h : QuietStep store op result next) :
      FileStep store disk op disk result next
  | mkdir (ms : Int64) (reason : Bytes) (hroot : disk.isDir store.root)
      (hnone : store.dir? disk = none) :
      FileStep store disk (.save ms reason .createDir)
        (disk.make store.root LatchStore.dirName true) none (.save ms reason .openTmp)
  | create (ms : Int64) (reason : Bytes) {d : Ino} (hdir : store.dir? disk = some d)
      (hisDir : disk.isDir d) (hnone : store.tmp? disk = none) :
      FileStep store disk (.save ms reason .openTmp) (disk.make d store.tmpName false) none
        (.save ms reason (.serialise true))
  | truncate (ms : Int64) (reason : Bytes) {i : Ino} (htmp : store.tmp? disk = some i)
      (hfile : disk.isDir i = false) :
      FileStep store disk (.save ms reason .openTmp) (disk.setContent i [] false) none
        (.save ms reason (.serialise true))
  | append (ms : Int64) (reason rest : Bytes) (count : Nat) {i : Ino}
      (htmp : store.tmp? disk = some i) (hfile : disk.isDir i = false) :
      FileStep store disk (.save ms reason (.write rest))
        (disk.setContent i (disk.content i ++ rest.take count) false) none
        (.save ms reason (.write (rest.drop count)))
  | syncTmp (ms : Int64) (reason : Bytes) {i : Ino} (htmp : store.tmp? disk = some i)
      (hfile : disk.isDir i = false) :
      FileStep store disk (.save ms reason .syncTmp) (disk.setContent i (disk.content i) true) none
        (.save ms reason .rename)
  -- the two names are one file
  | linked (ms : Int64) (reason : Bytes) {i : Ino} (htmp : store.tmp? disk = some i)
      (hfile : store.file? disk = some i) :
      FileStep store disk (.save ms reason .rename) disk none (.save ms reason .syncDir)
  | rename (ms : Int64) (reason : Bytes) {d i : Ino} (hdir : store.dir? disk = some d)
      (hisDir : disk.isDir d) (htmp : (disk.entry d store.tmpName).now = some i) :
      FileStep store disk (.save ms reason .rename) (disk.move d store.tmpName store.fileName) none
        (.save ms reason .syncDir)
  | syncDir (ms : Int64) (reason : Bytes) {d : Ino} (hdir : store.dir? disk = some d) :
      FileStep store disk (.save ms reason .syncDir) (disk.settle d) (some (.saved true [])) .idle
  | discard (ms : Int64) (reason error : Bytes) {d : Ino} (hdir : store.dir? disk = some d) :
      FileStep store disk (.save ms reason (.discard error))
        (disk.bind d store.tmpName none (by simp)) (some (.saved false error)) .idle
  | unlink {d : Ino} (hdir : store.dir? disk = some d) :
      FileStep store disk (.remove .unlink) (disk.bind d store.fileName none (by simp)) none
        (.remove .syncDir)
  | syncRemoved {d : Ino} (hdir : store.dir? disk = some d) :
      FileStep store disk (.remove .syncDir) (disk.settle d) (some (.removed true [])) .idle

variable {store : LatchStore} {disk : Disk Bytes} {d : Ino} {op : DiskOp Bytes}

theorem lookup_dir {n : Bytes} (hdir : store.dir? disk = some d) (hisDir : disk.isDir d) :
    ((store.dir? disk).bind fun d => disk.lookup d n) = (disk.entry d n).now := by
  simp [hdir, Disk.lookup, hisDir]

theorem apply_op (result : Option FileResult) (h : (disk.perform op).isSome) :
    disk.perform op = some (FileEffect.apply ⟨some op, result⟩ disk) := by
  obtain ⟨disk', hdisk⟩ := Option.isSome_iff_exists.mp h
  simp [FileEffect.apply, hdisk]

variable {disk' : Disk Bytes}

theorem apply_syncDir (h : disk.perform (.syncDir d) = some disk') : disk' = disk.settle d := by
  simp only [Disk.perform] at h
  split at h
  · exact (Option.some.inj h).symm
  · cases h

theorem apply_unlink {n : Bytes}
    (h : disk.perform (.unlink d n) = some disk') : disk' = disk.bind d n none (by simp) := by
  simp only [Disk.perform] at h
  split at h
  · exact (Option.some.inj h).symm
  · cases h

variable {next : FileOp} {c : FileChoice} {result : Option FileResult}

theorem removeStep_of_next {pc : RemovePc} {e : FileEffect}
    (h : removeNext store disk pc c = some (e, next))
    (hcan : e.op.all (fun op => (disk.perform op).isSome)) :
    FileStep store disk (.remove pc) (e.apply disk) e.result next := by
  revert h
  fun_cases removeNext store disk pc c <;> intro h
  case case1 d _ _ hdir =>
    cases h
    rw [apply_unlink (apply_op none hcan)]
    exact .unlink hdir
  case case4 d hdir =>
    cases h
    rw [apply_syncDir (apply_op _ hcan)]
    exact .syncRemoved hdir
  all_goals
    cases h
  all_goals exact .quiet (.removed ..)

/-- A step of a `save` that performs an operation on the file system. -/
theorem saveOp_of_next {ms : Int64} {reason : Bytes} {pc : SavePc}
    (h : saveNext store disk ms reason pc c = some (⟨some op, result⟩, next))
    (hcan : disk.perform op = some disk') :
    FileStep store disk (.save ms reason pc) disk' result next := by
  revert h
  fun_cases saveNext store disk ms reason pc c <;> intro h <;> cases h <;>
    simp only [Disk.perform, Option.ite_none_left_eq_some, Option.ite_none_right_eq_some,
      Option.some.injEq] at hcan
  case case1 hnone =>
    obtain ⟨hdir, rfl⟩ := hcan
    exact .mkdir ms reason (Bool.and_eq_true_iff.mp hdir).1 hnone
  case case5 d hdir =>
    obtain ⟨hisDir, hcan⟩ := hcan
    have hisDir : disk.isDir d := by simpa using hisDir
    have htmp : store.tmp? disk = (disk.entry d store.tmpName).now := lookup_dir hdir hisDir
    split at hcan
    · rename_i hnone
      cases hcan
      exact .create ms reason hdir hisDir (htmp.trans hnone)
    · rename_i i hsome
      obtain ⟨hfile, hcan⟩ := Option.ite_none_left_eq_some.mp hcan
      cases hcan
      exact .truncate ms reason (htmp.trans hsome) (by simpa using hfile)
  case case11 htmp _ =>
    obtain ⟨hfile, rfl⟩ := hcan
    exact .append ms reason _ _ htmp (by simpa using hfile)
  case case16 htmp =>
    obtain ⟨hfile, rfl⟩ := hcan
    exact .syncTmp ms reason htmp (by simpa using hfile)
  case case19 d hdir =>
    obtain ⟨hisDir, hcan⟩ := hcan
    have hisDir : disk.isDir d := by simpa using hisDir
    have htmp : store.tmp? disk = (disk.entry d store.tmpName).now := lookup_dir hdir hisDir
    have hfile : store.file? disk = (disk.entry d store.fileName).now := lookup_dir hdir hisDir
    split at hcan
    · cases hcan
    · rename_i i hsome
      split_ifs at hcan with hsame <;> cases hcan
      · exact .linked ms reason (htmp.trans hsome) (hfile.trans hsame)
      · exact .rename ms reason hdir hisDir hsome
  case case22 hdir =>
    obtain ⟨-, rfl⟩ := hcan
    exact .syncDir ms reason hdir
  case case25 hdir =>
    obtain ⟨-, rfl⟩ := hcan
    exact .discard ms reason _ hdir

theorem saveQuiet_of_next {ms : Int64} {reason : Bytes} {pc : SavePc}
    (h : saveNext store disk ms reason pc c = some (⟨none, result⟩, next)) :
    QuietStep store (.save ms reason pc) result next := by
  revert h
  fun_cases saveNext store disk ms reason pc c <;> intro h <;> cases h
  all_goals first
    | exact .createDir ..
    | exact .openFails ..
    | exact .threw _ _ _ ‹_›
    | exact .serialised _ _ _ ‹_›
    | exact .written ..
    | exact .discards ..
    | exact .saveFails ..

theorem fileStep_of_next {op : FileOp} {e : FileEffect}
    (h : fileNext store disk op c = some (e, next)) :
    FileStep store disk op (e.apply disk) e.result next := by
  obtain ⟨hstep, hcan⟩ := Option.filter_eq_some_iff.mp h
  cases op with
  | idle => cases hstep
  | remove pc => exact removeStep_of_next hstep hcan
  | save ms reason pc =>
    obtain ⟨op, result⟩ := e
    cases op with
    | none => exact .quiet (saveQuiet_of_next hstep)
    | some op => exact saveOp_of_next hstep (apply_op result hcan)

end Anolis.Control
