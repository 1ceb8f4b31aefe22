import Anolis.Lib.Utf8
import Mathlib.Algebra.GroupWithZero.Nat

/-!
# Files of records, one a line

A file that is only appended to, with one record a line, by a process that can be killed and on a
machine that can lose power.

* `records`: what a reader makes of a file. It takes the lines one by one, skips empty ones and
  those that are no records.
* `appendLine`: one append. A writer that finds the last line without its end (`torn`) ends it
  first. The environment decides how far the append gets (`AppendFate`).
* `records_appendLine`: an append adds its record exactly where the whole text got into the file
  (`Append.whole`), and changes no other record, whatever an earlier append left behind.

The text of a record has to be `Framed`: it has no line break, and what is cut off of it is no
record. A file is never longer than `maxFileSize`.
-/

namespace Anolis.Lib.RecordLog

def newline : UInt8 := 0x0A

/-! ### Lines -/

/-- The ended lines of a text, and what follows the last of them. -/
structure Scan where
  ended : List Bytes := []
  rest : Bytes := []

def Scan.next (scan : Scan) (b : UInt8) : Scan :=
  if b = newline then ⟨scan.ended ++ [scan.rest], []⟩ else { scan with rest := scan.rest ++ [b] }

def Scan.after (scan : Scan) (s : Bytes) : Scan := s.foldl Scan.next scan

/-- The lines of a text. The last one may be empty, and is one that a reader skips then. -/
def lines (s : Bytes) : List Bytes :=
  let scan := Scan.after {} s
  scan.ended ++ [scan.rest]

/-- Has the last line no end. -/
def torn (s : Bytes) : Bool := !s.isEmpty && s.getLast? != some newline

section
variable (scan : Scan) (s t : Bytes)

theorem Scan.after_append : scan.after (s ++ t) = (scan.after s).after t := List.foldl_append

theorem Scan.after_newline :
    scan.after (newline :: t) = (⟨scan.ended ++ [scan.rest], []⟩ : Scan).after t := rfl

theorem Scan.after_inline (h : newline ∉ s) : scan.after s = ⟨scan.ended, scan.rest ++ s⟩ := by
  induction s generalizing scan with
  | nil => simp [Scan.after]
  | cons b s ih =>
    have hb : b ≠ newline := fun hb => h (hb ▸ List.mem_cons_self)
    have hs : newline ∉ s := fun hs => h (List.mem_cons_of_mem _ hs)
    show (scan.next b).after s = _
    rw [ih _ hs, Scan.next, if_neg hb, List.append_assoc]
    rfl

theorem Scan.after_ended (done : List Bytes) : (⟨done ++ scan.ended, scan.rest⟩ : Scan).after s =
      ⟨done ++ (scan.after s).ended, (scan.after s).rest⟩ := by
  induction s generalizing scan with
  | nil => rfl
  | cons b s ih =>
    show ((⟨done ++ scan.ended, scan.rest⟩ : Scan).next b).after s = _
    have hnext : (⟨done ++ scan.ended, scan.rest⟩ : Scan).next b =
        ⟨done ++ (scan.next b).ended, (scan.next b).rest⟩ := by
      unfold Scan.next
      split <;> simp
    rw [hnext, ih]
    rfl

theorem torn_iff : torn s ↔ (Scan.after {} s).rest ≠ [] := by
  rcases List.eq_nil_or_concat s with rfl | ⟨s, b, rfl⟩
  · simp [torn, Scan.after]
  · rw [List.concat_eq_append, Scan.after_append]
    show _ ↔ ((Scan.after {} s).next b).rest ≠ []
    unfold Scan.next
    by_cases hb : b = newline <;> simp [torn, hb]

theorem lines_append : lines (s ++ newline :: t) = lines s ++ lines t := by
  have h := Scan.after_ended {} t ((Scan.after {} s).ended ++ [(Scan.after {} s).rest])
  simp only [List.append_nil] at h
  simp only [lines, Scan.after_append, Scan.after_newline, h, List.append_assoc]

theorem lines_ended (h : torn s = false) : lines (s ++ t) = (Scan.after {} s).ended ++ lines t := by
  have hrest : (Scan.after {} s).rest = [] := by
    by_contra hne
    rw [(torn_iff s).mpr hne] at h
    cases h
  rw [lines, Scan.after_append]
  generalize Scan.after {} s = scan at hrest
  obtain ⟨ended, rest⟩ := scan
  obtain rfl : rest = [] := hrest
  have hafter := Scan.after_ended {} t ended
  rw [List.append_nil] at hafter
  simp [hafter, lines]

theorem lines_inline (h : newline ∉ s) : lines s = [s] := by
  rw [lines, Scan.after_inline _ _ h]
  rfl

end

/-! ### Records -/

section
variable {α : Type} (decode : Bytes → Option α)

/-- What a reader makes of a line. -/
def readLine (line : Bytes) : Option α := if line.isEmpty then none else decode line

/-- What a reader makes of a file. -/
def records (s : Bytes) : List α := (lines s).filterMap (readLine decode)

/-- The text is one of a record, and no line break or shorter text is. -/
structure Framed (text : Bytes) (r : α) : Prop where
  inline : newline ∉ text
  nonempty : text ≠ []
  reads : decode text = some r
  cut : ∀ p, p <+: text → p ≠ text → decode p = none

@[simp] theorem readLine_nil : readLine decode [] = none := rfl

@[simp] theorem records_nil : records decode [] = [] := rfl

theorem records_append (s t : Bytes) :
    records decode (s ++ newline :: t) = records decode s ++ records decode t := by
  rw [records, lines_append, List.filterMap_append]
  rfl

theorem records_newline (s : Bytes) : records decode (s ++ [newline]) = records decode s := by
  rw [records_append, records_nil, List.append_nil]

theorem records_ended {s : Bytes} (h : torn s = false) (t : Bytes) :
    records decode (s ++ t) = records decode s ++ records decode t := by
  have hs := lines_ended s [] h
  rw [List.append_nil] at hs
  have hempty : (lines []).filterMap (readLine decode) = [] := rfl
  rw [records, records, lines_ended s t h, hs, List.filterMap_append, List.filterMap_append, hempty,
    List.append_nil]
  rfl

theorem records_inline {s : Bytes} (h : newline ∉ s) :
    records decode s = (readLine decode s).toList := by
  rw [records, lines_inline s h]
  cases hline : readLine decode s <;> simp [hline]

variable {decode}

/-- The beginning of a line that was to be the text of a record, and its end. -/
theorem Framed.records_take {text : Bytes} {r : α} (h : Framed decode text r) (n : Nat) :
    records decode ((text ++ [newline]).take n) = if text.length ≤ n then [r] else [] := by
  have hwhole : readLine decode text = some r := by
    rw [readLine, if_neg (by simpa using h.nonempty), h.reads]
  split
  · rename_i hn
    rw [List.take_append, List.take_of_length_le hn]
    -- the line has its end or has none
    rcases Nat.eq_zero_or_pos (n - text.length) with hzero | hpos
    · rw [hzero, List.take_zero, List.append_nil, records_inline decode h.inline, hwhole]
      rfl
    · rw [List.take_of_length_le (Nat.succ_le_of_lt hpos), records_newline,
        records_inline decode h.inline, hwhole]
      rfl
  · rename_i hn
    have hlt : n < text.length := Nat.lt_of_not_le hn
    have hpart : text.take n <+: text := List.take_prefix n text
    have hne : text.take n ≠ text := by
      intro heq
      have hlen := congrArg List.length heq
      rw [List.length_take] at hlen
      omega
    have hinline : newline ∉ text.take n := fun hmem => h.inline (List.mem_of_mem_take hmem)
    rw [List.take_append_of_le_length (Nat.le_of_lt hlt), records_inline decode hinline, readLine,
      h.cut _ hpart hne]
    simp

end

/-! ### Files -/

/-- The largest size of a file: `off_t` has 64 bits. -/
def maxFileSize : Nat := 2 ^ 63 - 1

/-- A file that is only appended to. -/
structure LogFile where
  content : Bytes
  /-- How many of the bytes are on storage. -/
  synced : Nat
  /-- Is the file's directory entry on storage. -/
  linked : Bool
  synced_le : synced ≤ content.length
  bounded : content.length ≤ maxFileSize

namespace LogFile

/-- A file that was just created. -/
def new : LogFile := ⟨[], 0, false, Nat.le_refl 0, Nat.zero_le _⟩

/-- How many more bytes the file can have. -/
def room (f : LogFile) : Nat := maxFileSize - f.content.length

/-- The file with as many of the bytes behind it as it can have. -/
def write (f : LogFile) (bytes : Bytes) : LogFile where
  content := f.content ++ bytes.take f.room
  synced := f.synced
  linked := f.linked
  synced_le := by
    have h := f.synced_le
    rw [List.length_append]
    omega
  bounded := by
    have h := f.bounded
    rw [List.length_append, List.length_take]
    unfold room
    omega

/-- The file after its bytes were synced. -/
def sync (f : LogFile) : LogFile :=
    { f with synced := f.content.length, synced_le := Nat.le_refl _ }

/-- The file after its directory was synced. -/
def link (f : LogFile) : LogFile := { f with linked := true }

/-- What a power loss leaves of a file whose entry is there: the bytes on storage, and in place of
the others any bytes that are not more. -/
def afterLoss (f : LogFile) (tail : Bytes) : LogFile where
  content := f.content.take f.synced ++ tail.take (f.content.length - f.synced)
  synced := (f.content.take f.synced ++ tail.take (f.content.length - f.synced)).length
  linked := true
  synced_le := Nat.le_refl _
  bounded := by
    have h := f.synced_le
    have hbounded := f.bounded
    rw [List.length_append, List.length_take, List.length_take]
    omega

/-- What the writer has to write first. -/
def repair (f : LogFile) : Bytes := if torn f.content then [newline] else []

end LogFile

/-! ### Appending -/

/-- How far an append gets. -/
inductive AppendFate
  | ok
  | killedBefore
  | cannotOpen
  -- the write or the close fails, with this many bytes in the file
  | writeFails (n : Nat)
  | killedWriting (n : Nat)
  | syncFails
  -- killed between the sync of the file and the one of the directory
  | killedSynced
  | dirSyncFails
deriving DecidableEq

/-- What the writer knows of an append in the end. -/
inductive AppendResult
  | ok
  | cannotOpen
  | writeFailed
  | syncFailed
  | dirSyncFailed
  -- the text could not be made
  | threw
  | killed
deriving DecidableEq

structure Append where
  result : AppendResult
  file : Option LogFile
  /-- Did the whole text get into the file. -/
  whole : Bool := false
  /-- Was the directory synced. -/
  dirSynced : Bool := false

/-- The bytes of an append: the end of a torn line, the text and its line break. A writer whose text
cannot be made leaves the first of them. -/
def lineBytes (f : LogFile) (text : Option Bytes) : Bytes :=
  f.repair ++ (text.map fun t => t ++ [newline]).getD []

/-- Are the first `n` bytes of an append enough for the text. -/
def reaches (f : LogFile) (text : Option Bytes) (n : Nat) : Bool :=
  text.any fun t => f.repair.length + t.length ≤ min n f.room

/-- The syncs of an append whose bytes are all in the file `f`. -/
def syncLine (fate : AppendFate) (created : Bool) (f : LogFile) : Append :=
  if fate = .syncFails then { result := .syncFailed, file := some f, whole := true }
  else if fate = .killedSynced then { result := .killed, file := some f.sync, whole := true }
  else if !created then { result := .ok, file := some f.sync, whole := true }
  -- the entry of a new file
  else if fate = .dirSyncFails then
    { result := .dirSyncFailed, file := some f.sync, whole := true }
  else { result := .ok, file := some f.sync.link, whole := true, dirSynced := true }

/-- An append to a file, which it creates where there is none. -/
def appendLine (text : Option Bytes) (fate : AppendFate) (file : Option LogFile) : Append :=
  let f := file.getD .new
  let data := lineBytes f text
  -- the append ends with `n` bytes in the file
  let written (n : Nat) (result : AppendResult) : Append :=
    { result, file := some (f.write (data.take n)), whole := reaches f text n }
  match fate with
  | .killedBefore => { result := .killed, file }
  | .cannotOpen => { result := .cannotOpen, file }
  | .killedWriting n => written n .killed
  | .writeFails n => written n (if text.isSome then .writeFailed else .threw)
  | fate =>
    if text.isNone then written data.length .threw
    else if f.room < data.length then written data.length .writeFailed
    else syncLine fate file.isNone (f.write data)

/-! ### What an append does -/

/-- What can come of an append. -/
inductive Appends (text : Option Bytes) (file : Option LogFile) : Append → Prop
  | untouched {result : AppendResult} (hresult : result = .killed ∨ result = .cannotOpen) :
      Appends text file { result, file }
  | written {result : AppendResult} (n : Nat)
      (hresult : result = .killed ∨ (text = none ∧ result = .threw) ∨
        (text.isSome ∧ result = .writeFailed)) :
      Appends text file
        { result
          file := some ((file.getD .new).write ((lineBytes (file.getD .new) text).take n))
          whole := reaches (file.getD .new) text n }
  | whole {fate : AppendFate} (htext : text.isSome)
      (hroom : (lineBytes (file.getD .new) text).length ≤ (file.getD .new).room) :
      Appends text file
        (syncLine fate file.isNone ((file.getD .new).write (lineBytes (file.getD .new) text)))

theorem reaches_all (f : LogFile) {text : Option Bytes} (htext : text.isSome)
    (h : (lineBytes f text).length ≤ f.room) : reaches f text (lineBytes f text).length := by
  obtain ⟨t, rfl⟩ := Option.isSome_iff_exists.mp htext
  simp only [lineBytes, Option.map_some, Option.getD_some, List.length_append] at h
  simp only [reaches, lineBytes, Option.any_some, Option.map_some, Option.getD_some,
    List.length_append, decide_eq_true_eq]
  omega

theorem isSome_of_not_isNone {text : Option Bytes} (h : ¬ text.isNone) : text.isSome := by
  cases text with
  | none => exact absurd rfl h
  | some _ => rfl

theorem appendLine_appends (text : Option Bytes) (fate : AppendFate) (file : Option LogFile) :
    Appends text file (appendLine text fate file) := by
  fun_cases appendLine text fate file
  case case1 => exact .untouched (.inl rfl)
  case case2 => exact .untouched (.inr rfl)
  case case3 n => exact .written n (.inl rfl)
  case case4 n =>
    refine .written n (.inr ?_)
    cases text <;> simp
  case case5 htext _ _ _ _ => exact .written _ (.inr (.inl
    ⟨Option.isNone_iff_eq_none.mp htext, rfl⟩))
  case case6 htext hroom _ _ _ _ =>
    exact .written _ (.inr (.inr ⟨isSome_of_not_isNone htext, rfl⟩))
  case case7 htext hroom _ _ _ _ =>
    exact .whole (isSome_of_not_isNone htext) (Nat.le_of_not_lt hroom)

section
variable {α : Type} {decode : Bytes → Option α} {text : Option Bytes} {fate : AppendFate}
  {file : Option LogFile} {f : LogFile} {r : α}

/-- What a reader makes of a file that may not be there. -/
def recordsOf (decode : Bytes → Option α) (file : Option LogFile) : List α :=
  (file.map fun f => records decode f.content).getD []

theorem recordsOf_getD (file : Option LogFile) :
    records decode (file.getD .new).content = recordsOf decode file := by
  cases file <;> rfl

/-- The bytes of an append, as far as they got into the file, add the record or nothing. -/
theorem records_take_line (f : LogFile) {t : Bytes} (h : Framed decode t r) (n : Nat) :
    records decode (f.content ++ (f.repair ++ (t ++ [newline])).take n) =
      records decode f.content ++ if f.repair.length + t.length ≤ n then [r] else [] := by
  unfold LogFile.repair
  cases htorn : torn f.content with
  | true =>
    -- the torn line gets its end first
    cases n with
    | zero => simp
    | succ n =>
      rw [if_pos rfl, List.singleton_append, List.take_succ_cons, records_append, h.records_take]
      simp [Nat.add_comm 1]
  | false => simp [records_ended decode htorn, h.records_take]

theorem records_take_repair (f : LogFile) (n : Nat) :
    records decode (f.content ++ f.repair.take n) = records decode f.content := by
  unfold LogFile.repair
  split
  · cases n with
    | zero => simp
    | succ n => rw [List.take_succ_cons, List.take_nil, records_newline]
  · simp

theorem records_write (f : LogFile) (h : ∀ t ∈ text, Framed decode t r) (n : Nat) :
    records decode (f.write ((lineBytes f text).take n)).content =
      records decode f.content ++ if reaches f text n then [r] else [] := by
  simp only [LogFile.write, List.take_take, reaches, lineBytes, Nat.min_comm n]
  cases text with
  | none => simp [records_take_repair]
  | some t => simp [records_take_line f (h t rfl)]

theorem content_write {data : Bytes} (h : data.length ≤ f.room) :
    (f.write data).content = f.content ++ data := by
  show f.content ++ data.take f.room = f.content ++ data
  rw [List.take_of_length_le h]

theorem records_whole (f : LogFile) (h : ∀ t ∈ text, Framed decode t r)
    (htext : text.isSome) (hroom : (lineBytes f text).length ≤ f.room) :
    records decode (f.write (lineBytes f text)).content = records decode f.content ++ [r] := by
  have hwrite := records_write f h (lineBytes f text).length
  rwa [List.take_length, reaches_all f htext hroom, if_pos rfl] at hwrite

theorem syncLine_whole (fate : AppendFate) (created : Bool) (f : LogFile) :
    (syncLine fate created f).whole := by
  unfold syncLine
  split_ifs <;> rfl

theorem syncLine_file (fate : AppendFate) (created : Bool) (f : LogFile) :
    ∃ f', (syncLine fate created f).file = some f' ∧ f'.content = f.content ∧
      f.synced ≤ f'.synced ∧ (f.linked → f'.linked) := by
  have hsync : f.synced ≤ f.sync.synced := f.synced_le
  unfold syncLine
  split_ifs
  · exact ⟨f, rfl, rfl, Nat.le_refl _, id⟩
  · exact ⟨f.sync, rfl, rfl, hsync, id⟩
  · exact ⟨f.sync, rfl, rfl, hsync, id⟩
  · exact ⟨f.sync, rfl, rfl, hsync, id⟩
  · exact ⟨f.sync.link, rfl, rfl, hsync, fun _ => rfl⟩

/-- An append adds its record where the whole text got into the file, and changes nothing else. -/
theorem records_appendLine (h : ∀ t ∈ text, Framed decode t r) :
    recordsOf decode (appendLine text fate file).file =
      recordsOf decode file ++ if (appendLine text fate file).whole then [r] else [] := by
  rw [← recordsOf_getD file]
  generalize happend : appendLine text fate file = a
  have hcases := appendLine_appends text fate file
  rw [happend] at hcases
  cases hcases with
  | untouched => simp [recordsOf_getD]
  | written n => exact records_write _ h n
  | @whole fate htext hroom =>
    obtain ⟨f', hfile, hcontent, -, -⟩ := syncLine_file fate file.isNone
      ((file.getD .new).write (lineBytes (file.getD .new) text))
    rw [syncLine_whole, if_pos rfl, hfile, ← records_whole _ h htext hroom, ← hcontent]
    rfl

/-! ### Appends that fail behind the text -/

/-- The write of an append fails, and the whole text is in the file then. -/
def failsWhole (text : Option Bytes) (fate : AppendFate) (file : Option LogFile) : Bool :=
  let f := file.getD .new
  let data := lineBytes f text
  match fate with
  | .writeFails n => reaches f text n
  | .killedBefore | .cannotOpen | .killedWriting _ => false
  -- the file cannot have the line break
  | .ok | .syncFails | .killedSynced | .dirSyncFails =>
    decide (f.room < data.length) && reaches f text data.length

theorem failsWhole_link (text : Option Bytes) (fate : AppendFate) (file : Option LogFile) :
    failsWhole text fate (file.map .link) = failsWhole text fate file := by
  cases file <;> rfl

theorem reaches_text {n : Nat} (h : reaches f text n) : text.isSome :=
    by
  cases text with
  | none => cases h
  | some t => rfl

theorem failsWhole_result (h : failsWhole text fate file) :
    (appendLine text fate file).result = .writeFailed := by
  cases fate with
  | writeFails n =>
    have htext : text.isSome := reaches_text h
    simp [appendLine, htext]
  | ok | syncFails | killedSynced | dirSyncFails =>
    obtain ⟨hroom, hreaches⟩ := Bool.and_eq_true_iff.mp h
    have htext : text.isNone = false := by
      rw [← Option.not_isSome, reaches_text hreaches]
      rfl
    simp [appendLine, htext, of_decide_eq_true hroom]
  | killedBefore | cannotOpen | killedWriting n => cases h

/-- What the writer knows of an append whose whole text is in the file. -/
theorem appendLine_whole (h : (appendLine text fate file).whole) :
    (appendLine text fate file).result = .ok ∨ (appendLine text fate file).result = .syncFailed ∨
    (appendLine text fate file).result = .dirSyncFailed ∨
    (appendLine text fate file).result = .killed ∨
    ((appendLine text fate file).result = .writeFailed ∧ failsWhole text fate file) := by
  revert h
  fun_cases appendLine text fate file
  all_goals intro h
  case case1 | case2 => cases h
  case case3 => exact .inr (.inr (.inr (.inl rfl)))
  case case4 n =>
    -- without a text nothing is whole
    cases text with
    | none => cases h
    | some t => exact .inr (.inr (.inr (.inr ⟨rfl, h⟩)))
  case case5 htext _ _ _ _ =>
    cases text with
    | none => cases h
    | some t => cases htext
  case case6 hroom hbefore hopen hwriting hfails =>
    refine .inr (.inr (.inr (.inr ⟨rfl, ?_⟩)))
    have hboth := Bool.and_eq_true_iff.mpr ⟨decide_eq_true hroom, h⟩
    cases fate with
    | ok | syncFails | killedSynced | dirSyncFails => exact hboth
    | killedBefore => exact absurd rfl hbefore
    | cannotOpen => exact absurd rfl hopen
    | killedWriting n => exact absurd rfl (hwriting n)
    | writeFails n => exact absurd rfl (hfails n)
  case case7 =>
    unfold syncLine
    split_ifs <;> simp

/-- An append that got to the syncs has its whole text in the file. -/
theorem appendLine_synced (h : (appendLine text fate file).result = .ok ∨
    (appendLine text fate file).result = .syncFailed ∨
    (appendLine text fate file).result = .dirSyncFailed) : (appendLine text fate file).whole := by
  have hcases := appendLine_appends text fate file
  generalize appendLine text fate file = a at hcases h
  cases hcases with
  | untouched hresult => rcases hresult with rfl | rfl <;> simp at h
  | written n hresult => rcases hresult with rfl | ⟨-, rfl⟩ | ⟨-, rfl⟩ <;> simp at h
  | whole htext hroom => exact syncLine_whole _ _ _

theorem appendLine_text (h : (appendLine text fate file).whole) : text.isSome := by
  have hcases := appendLine_appends text fate file
  generalize appendLine text fate file = a at hcases h
  cases hcases with
  | untouched => cases h
  | written n => exact reaches_text h
  | whole htext => exact htext

theorem appendLine_threw (h : (appendLine text fate file).result = .threw) : text = none := by
  have hcases := appendLine_appends text fate file
  generalize appendLine text fate file = a at hcases h
  cases hcases with
  | untouched hresult => rcases hresult with rfl | rfl <;> cases h
  | written n hresult =>
    rcases hresult with rfl | ⟨hnone, -⟩ | ⟨-, rfl⟩
    · cases h
    · exact hnone
    · cases h
  | whole =>
    unfold syncLine at h
    split_ifs at h

theorem appendLine_unsynced (h : (appendLine text fate file).result = .syncFailed ∨
      (appendLine text fate file).result = .dirSyncFailed) :
    reaches (file.getD .new) text (lineBytes (file.getD .new) text).length ∧
      (fate = .syncFails ∨ fate = .dirSyncFails ∧ file.isNone) := by
  revert h
  fun_cases appendLine text fate file
  all_goals intro h
  case case7 htext hroom _ _ _ _ =>
    refine ⟨reaches_all _ (isSome_of_not_isNone htext) (Nat.le_of_not_lt hroom), ?_⟩
    unfold syncLine at h
    split_ifs at h <;> simp_all
  case case4 => split at h <;> simp at h
  all_goals simp at h

/-- An append fails, and the whole text is in the file then: in the write, or in one of the
syncs. -/
def leavesWhole (text : Option Bytes) (fate : AppendFate) (file : Option LogFile) : Bool :=
  failsWhole text fate file ||
    (reaches (file.getD .new) text (lineBytes (file.getD .new) text).length &&
      (decide (fate = .syncFails) || (decide (fate = .dirSyncFails) && file.isNone)))

/-- An append whose whole text is in the file succeeded, where none that fails leaves it there. -/
theorem appendLine_leaves (hleaves : leavesWhole text fate file = false)
    (h : (appendLine text fate file).whole)
    (halive : (appendLine text fate file).result ≠ .killed) :
    (appendLine text fate file).result = .ok := by
  obtain ⟨hfails, hsyncs⟩ := Bool.or_eq_false_iff.mp hleaves
  rcases appendLine_whole h with hok | hsync | hdir | hkilled | ⟨-, hwrite⟩
  · exact hok
  · obtain ⟨hall, hfate⟩ := appendLine_unsynced (.inl hsync)
    rcases hfate with hf | ⟨hf, hnew⟩ <;> simp_all
  · obtain ⟨hall, hfate⟩ := appendLine_unsynced (.inr hdir)
    rcases hfate with hf | ⟨hf, hnew⟩ <;> simp_all
  · exact absurd hkilled halive
  · rw [hfails] at hwrite
    cases hwrite

/-! ### How many records a file can have -/

theorem length_filterMap_readLine (decode : Bytes → Option α) (ls : List Bytes) :
    (ls.filterMap (readLine decode)).length ≤ (ls.map List.length).sum := by
  induction ls with
  | nil => simp
  | cons line ls ih =>
    cases line with
    | nil =>
      rw [List.filterMap_cons, readLine_nil]
      simpa using ih
    | cons b line =>
      rw [List.filterMap_cons]
      cases readLine decode (b :: line) with
      | none => simp only [List.map_cons, List.sum_cons]; omega
      | some r => simp only [List.map_cons, List.sum_cons, List.length_cons]; omega

theorem Scan.after_length (scan : Scan) (s : Bytes) :
    ((scan.after s).ended.map List.length).sum + (scan.after s).rest.length ≤
      (scan.ended.map List.length).sum + scan.rest.length + s.length := by
  induction s generalizing scan with
  | nil => exact Nat.le_refl _
  | cons b s ih =>
    have hnext : ((scan.next b).ended.map List.length).sum + (scan.next b).rest.length ≤
        (scan.ended.map List.length).sum + scan.rest.length + 1 := by
      unfold Scan.next
      split
      · simp
      · simp
        omega
    have hrest := ih (scan.next b)
    show (((scan.next b).after s).ended.map List.length).sum +
      ((scan.next b).after s).rest.length ≤ _
    rw [List.length_cons]
    omega

theorem length_records_le (decode : Bytes → Option α) (s : Bytes) :
    (records decode s).length ≤ s.length := by
  have hlines := length_filterMap_readLine decode (lines s)
  have hscan : ((Scan.after {} s).ended.map List.length).sum + (Scan.after {} s).rest.length ≤
      s.length := by
    simpa using Scan.after_length {} s
  have hsum : ((lines s).map List.length).sum =
      ((Scan.after {} s).ended.map List.length).sum + (Scan.after {} s).rest.length := by
    simp [lines]
  rw [records]
  omega

theorem length_recordsOf_le (decode : Bytes → Option α) (file : Option LogFile) :
    (recordsOf decode file).length ≤ maxFileSize := by
  cases file with
  | none => exact Nat.zero_le _
  | some f => exact (length_records_le decode f.content).trans f.bounded

/-! ### What stays -/

/-- Nothing of a file is lost. -/
structure LogFile.Extends (f f' : LogFile) : Prop where
  content : f.content <+: f'.content
  synced : f.synced ≤ f'.synced
  linked : f.linked → f'.linked

theorem LogFile.Extends.refl (f : LogFile) : f.Extends f := ⟨List.prefix_rfl, Nat.le_refl _, id⟩

theorem LogFile.Extends.trans {f g h : LogFile} (hfg : f.Extends g) (hgh : g.Extends h) :
    f.Extends h :=
  ⟨hfg.content.trans hgh.content, hfg.synced.trans hgh.synced, fun hf => hgh.linked (hfg.linked hf)⟩

theorem write_extends (f : LogFile) (data : Bytes) : f.Extends (f.write data) :=
  ⟨List.prefix_append _ _, Nat.le_refl _, id⟩

theorem appendLine_extends (text : Option Bytes) (fate : AppendFate)
    (h : file = some f) : ∃ f', (appendLine text fate file).file = some f' ∧ f.Extends f' := by
  subst h
  generalize happend : appendLine text fate (some f) = a
  have hcases := appendLine_appends text fate (some f)
  rw [happend] at hcases
  cases hcases with
  | untouched => exact ⟨f, rfl, .refl f⟩
  | written n => exact ⟨_, rfl, write_extends _ _⟩
  | @whole fate htext hroom =>
    obtain ⟨f', hfile, hcontent, hsynced, hlinked⟩ := syncLine_file fate false
      (f.write (lineBytes f text))
    have hwrite := write_extends f (lineBytes f text)
    exact ⟨f', hfile, hcontent ▸ hwrite.content, hwrite.synced.trans hsynced, fun hf =>
      hlinked (hwrite.linked hf)⟩

/-- The record is in the file, and with the end of its line it is on storage. -/
def OnStorage (decode : Bytes → Option α) (f : LogFile) (r : α) : Prop :=
  ∃ a b, f.content.take f.synced = a ++ newline :: b ∧ r ∈ records decode a

theorem OnStorage.extends {f f' : LogFile} (h : OnStorage decode f r) (hf : f.Extends f') :
    OnStorage decode f' r := by
  obtain ⟨a, b, htake, hr⟩ := h
  obtain ⟨more, hmore⟩ := hf.content
  have hpart : f.content.take f.synced <+: f'.content.take f'.synced := by
    rw [← hmore, ← List.take_append_of_le_length f.synced_le]
    exact List.take_prefix_take_left hf.synced
  obtain ⟨c, hc⟩ := hpart
  exact ⟨a, b ++ c, by rw [← hc, htake]; simp, hr⟩

theorem OnStorage.afterLoss (h : OnStorage decode f r) (tail : Bytes) :
    OnStorage decode (f.afterLoss tail) r := by
  obtain ⟨a, b, htake, hr⟩ := h
  refine ⟨a, b ++ tail.take (f.content.length - f.synced), ?_, hr⟩
  show (f.afterLoss tail).content.take (f.afterLoss tail).content.length = _
  rw [List.take_length]
  show f.content.take f.synced ++ _ = _
  rw [htake, List.append_assoc, List.cons_append]

theorem OnStorage.mem (h : OnStorage decode f r) : r ∈ records decode f.content := by
  obtain ⟨a, b, htake, hr⟩ := h
  rw [← List.take_append_drop f.synced f.content, htake, List.append_assoc, List.cons_append,
    records_append]
  exact List.mem_append_left _ hr

/-- The records of a file that is on storage as a whole, with its last line ended. -/
theorem onStorage_of_mem (hr : r ∈ records decode f.content)
    (hsynced : f.synced = f.content.length) (htorn : torn f.content = false) :
    OnStorage decode f r := by
  rcases List.eq_nil_or_concat f.content with hnil | ⟨a, b, hconcat⟩
  · rw [hnil] at hr
    cases hr
  · rw [List.concat_eq_append] at hconcat
    have hb : b = newline := by simpa [torn, hconcat] using htorn
    subst hb
    rw [hconcat, records_newline] at hr
    exact ⟨a, [], by rw [hsynced, List.take_length, hconcat], hr⟩

theorem syncLine_ok {created : Bool} (h : (syncLine fate created f).result = .ok) :
    (syncLine fate created f).dirSynced = created ∧
    ∃ f', (syncLine fate created f).file = some f' ∧ f'.content = f.content ∧
      f'.synced = f.content.length ∧ (created → f'.linked) := by
  unfold syncLine at h ⊢
  split_ifs at h ⊢ with hsync hkilled hcreated hdir
  · exact ⟨by simpa using hcreated, f.sync, rfl, rfl, rfl, fun hnew => by simp [hnew] at hcreated⟩
  · exact ⟨by simpa using hcreated, f.sync.link, rfl, rfl, rfl, fun _ => rfl⟩

theorem torn_lineBytes (htext : text.isSome) : torn (f.content ++ lineBytes f text) = false := by
  obtain ⟨t, rfl⟩ := Option.isSome_iff_exists.mp htext
  have hconcat : f.content ++ lineBytes f (some t) = f.content ++ f.repair ++ t ++ [newline] := by
    simp [lineBytes]
  rw [hconcat]
  simp [torn]

/-- An append that succeeds leaves its line on storage, and with a new file its entry. -/
theorem appendLine_ok (h : (appendLine text fate file).result = .ok) :
    (appendLine text fate file).whole ∧ (file = none → (appendLine text fate file).dirSynced) ∧
    ∃ f', (appendLine text fate file).file = some f' ∧ f'.synced = f'.content.length ∧
      torn f'.content = false ∧ (file = none → f'.linked) := by
  have hcases := appendLine_appends text fate file
  generalize happend : appendLine text fate file = a at hcases h
  cases hcases with
  | untouched hresult => rcases hresult with hresult | hresult <;> simp [hresult] at h
  | written n hresult =>
    rcases hresult with hresult | ⟨-, hresult⟩ | ⟨-, hresult⟩ <;> simp [hresult] at h
  | @whole fate htext hroom =>
    obtain ⟨hdir, f', hfile, hcontent, hsynced, hlinked⟩ := syncLine_ok h
    refine ⟨syncLine_whole _ _ _, fun hnew => ?_, f', hfile, ?_, ?_, fun hnew => ?_⟩
    · rw [hdir, hnew]
      rfl
    · rw [hcontent, hsynced]
    · rw [hcontent, content_write hroom, torn_lineBytes htext]
    · exact hlinked (by rw [hnew]; rfl)

end

end Anolis.Lib.RecordLog
