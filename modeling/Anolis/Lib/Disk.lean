import Mathlib.Logic.Function.Basic

/-!
# A file system that can lose power

Files and directories are numbered. A directory gives each name at most one of them, and
`bounded` says that no name has a number that was not given out yet. The operations answer `none`
where the file system refuses them.

What a power loss leaves is part of the state. A file is `synced` while its content is what was last
synced. An entry of a directory keeps, next to what it is (`now`), what it was since the directory
was last synced (`older`): a power loss may bring any of these back (`PowerLoss`). The content of a
file that is not synced can be anything afterwards.

A process that is killed leaves the disk as it is.
-/

namespace Anolis.Lib

variable {dir : Bool}

/-- Files and directories are numbered. -/
abbrev Ino := Nat

/-- A name in a directory: what it names, and what it named since the last sync. -/
structure Entry where
  now : Option Ino := none
  older : List (Option Ino) := []

/-- What the entry can be after a power loss. -/
def Entry.MayBe (e : Entry) (i : Option Ino) : Prop := i = e.now ∨ i ∈ e.older

/-- The entry with another file or none. -/
def Entry.set (e : Entry) (i : Option Ino) : Entry := ⟨i, e.now :: e.older⟩

/-- The entry after a sync of its directory. -/
def Entry.settled (e : Entry) : Entry := ⟨e.now, []⟩

/-- A file system over the names `ν`. -/
structure Disk (ν : Type) where
  content : Ino → List UInt8
  synced : Ino → Bool
  isDir : Ino → Bool
  entry : Ino → ν → Entry
  next : Ino
  bounded : ∀ d n i, (entry d n).MayBe (some i) → i < next

namespace Disk

variable {ν : Type} [DecidableEq ν]

/-- What a name of a directory is. -/
def lookup (disk : Disk ν) (d : Ino) (n : ν) : Option Ino :=
  if disk.isDir d then (disk.entry d n).now else none

/-! ### Operations -/

/-- A name of a directory gets another file or none. -/
def bind (disk : Disk ν) (d : Ino) (n : ν) (i : Option Ino) (h : ∀ j ∈ i, j < disk.next) :
    Disk ν where
  content := disk.content
  synced := disk.synced
  isDir := disk.isDir
  entry := Function.update disk.entry d
    (Function.update (disk.entry d) n ((disk.entry d n).set i))
  next := disk.next
  bounded d' n' j hj := by
    rcases eq_or_ne d' d with rfl | hd
    · rw [Function.update_self] at hj
      rcases eq_or_ne n' n with rfl | hn
      · rw [Function.update_self] at hj
        rcases hj with hj | hj
        · exact h j hj.symm
        · exact disk.bounded _ _ _ (by simpa [Entry.set, Entry.MayBe] using hj)
      · rw [Function.update_of_ne hn] at hj
        exact disk.bounded _ _ _ hj
    · rw [Function.update_of_ne hd] at hj
      exact disk.bounded _ _ _ hj

/-- A new file or directory, with no name yet. -/
def alloc (disk : Disk ν) (dir : Bool) : Disk ν where
  content := Function.update disk.content disk.next []
  synced := Function.update disk.synced disk.next false
  isDir := Function.update disk.isDir disk.next dir
  entry := Function.update disk.entry disk.next fun _ => {}
  next := disk.next + 1
  bounded d n i hi := by
    rcases eq_or_ne d disk.next with rfl | hd
    · rw [Function.update_self] at hi
      simp [Entry.MayBe] at hi
    · rw [Function.update_of_ne hd] at hi
      exact Nat.lt_succ_of_lt (disk.bounded d n i hi)

/-- A new file or directory under a name. -/
def make (disk : Disk ν) (d : Ino) (n : ν) (dir : Bool) : Disk ν :=
  (disk.alloc dir).bind d n (some disk.next) fun j hj => by
    obtain rfl : disk.next = j := by simpa using hj
    exact Nat.lt_succ_self _

/-- A file with another content. -/
def setContent (disk : Disk ν) (i : Ino) (content : List UInt8) (synced : Bool) : Disk ν :=
  { disk with
    content := Function.update disk.content i content
    synced := Function.update disk.synced i synced }

/-- The file of one name gets another name, and the first one none. -/
def move (disk : Disk ν) (d : Ino) (source target : ν) : Disk ν :=
  match h : (disk.entry d source).now with
  | none => disk
  | some i =>
    (disk.bind d target (some i) fun j hj => by
      obtain rfl : i = j := by simpa using hj
      exact disk.bounded d source _ (Or.inl h.symm)).bind d source none (by simp)

/-- The directory's entries are synced. -/
def settle (disk : Disk ν) (d : Ino) : Disk ν where
  content := disk.content
  synced := disk.synced
  isDir := disk.isDir
  entry := Function.update disk.entry d fun n => (disk.entry d n).settled
  next := disk.next
  bounded d' n i hi := by
    rcases eq_or_ne d' d with rfl | hd
    · rw [Function.update_self] at hi
      exact disk.bounded _ n i (Or.inl (by simpa [Entry.MayBe, Entry.settled] using hi))
    · rw [Function.update_of_ne hd] at hi
      exact disk.bounded _ _ _ hi

end Disk

/-- The operations of a process on a file system, by the numbers of the directory or file. -/
inductive DiskOp (ν : Type)
  | mkdir (d : Ino) (n : ν)
  -- opened for writing, created or truncated
  | create (d : Ino) (n : ν)
  | append (i : Ino) (bytes : List UInt8)
  | syncFile (i : Ino)
  | syncDir (d : Ino)
  | rename (d : Ino) (source target : ν)
  | unlink (d : Ino) (n : ν)
deriving DecidableEq

/-- What an operation that succeeds does. `none` where it cannot succeed. -/
def Disk.perform {ν : Type} [DecidableEq ν] (disk : Disk ν) : DiskOp ν → Option (Disk ν)
  | .mkdir d n =>
    if disk.isDir d && (disk.entry d n).now.isNone then some (disk.make d n true) else none
  | .create d n =>
    if !disk.isDir d then none
    else
      match (disk.entry d n).now with
      | none => some (disk.make d n false)
      | some i => if disk.isDir i then none else some (disk.setContent i [] false)
  | .append i bytes =>
    if disk.isDir i then none else some (disk.setContent i (disk.content i ++ bytes) false)
  | .syncFile i =>
    if disk.isDir i then none else some (disk.setContent i (disk.content i) true)
  | .syncDir d => if disk.isDir d then some (disk.settle d) else none
  | .rename d source target =>
    if !disk.isDir d then none
    else
      match (disk.entry d source).now with
      | none => none
      | some i =>
        -- two names of one file stay as they are
        if (disk.entry d target).now = some i then some disk
        else if disk.isDir i || (disk.entry d target).now.any disk.isDir then none
        else some (disk.move d source target)
  | .unlink d n =>
    if disk.isDir d && (disk.entry d n).now.isSome then some (disk.bind d n none (by simp))
    else none

/-! ### What the operations leave alone -/

namespace Disk

variable {ν : Type} [DecidableEq ν] {disk : Disk ν} {d d' i : Ino} {n n' : ν}

theorem entry_bind {j : Option Ino} {h : ∀ k ∈ j, k < disk.next} (hne : ¬ (d' = d ∧ n' = n)) :
    (disk.bind d n j h).entry d' n' = disk.entry d' n' := by
  by_cases hd : d' = d
  · subst hd
    have hn : n' ≠ n := fun hn => hne ⟨rfl, hn⟩
    simp [bind, hn]
  · simp [bind, hd]

theorem entry_bind_self {j : Option Ino} {h : ∀ k ∈ j, k < disk.next} :
    (disk.bind d n j h).entry d n = (disk.entry d n).set j := by
  simp [bind]

theorem entry_make (hd : d' < disk.next) (hne : ¬ (d' = d ∧ n' = n)) :
    (disk.make d n dir).entry d' n' = disk.entry d' n' := by
  rw [make, entry_bind hne]
  simp [alloc, Function.update_of_ne (Nat.ne_of_lt hd)]

theorem entry_make_self (hd : d < disk.next) :
    (disk.make d n dir).entry d n = (disk.entry d n).set (some disk.next) := by
  rw [make, entry_bind_self]
  simp [alloc, Function.update_of_ne (Nat.ne_of_lt hd)]

theorem entry_make_new (hd : d < disk.next) : (disk.make d n dir).entry disk.next n' = {} := by
  rw [make, entry_bind fun h => Nat.ne_of_gt hd h.1]
  simp [alloc]

theorem isDir_make (hd : d' < disk.next) : (disk.make d n dir).isDir d' = disk.isDir d' :=
  Function.update_of_ne (Nat.ne_of_lt hd) ..

theorem isDir_make_new : (disk.make d n dir).isDir disk.next = dir :=
  Function.update_self ..

theorem content_make (hi : i < disk.next) : (disk.make d n dir).content i = disk.content i :=
  Function.update_of_ne (Nat.ne_of_lt hi) ..

theorem content_make_new : (disk.make d n dir).content disk.next = [] :=
  Function.update_self ..

theorem below_none (next : Ino) : ∀ k ∈ (none : Option Ino), k < next := nofun

theorem move_eq {source : ν} (target : ν) (h : (disk.entry d source).now = some i) :
    ∃ hi, disk.move d source target =
      (disk.bind d target (some i) hi).bind d source none (below_none _) := by
  have hi : ∀ k ∈ some i, k < disk.next := by
    intro k hk
    obtain rfl : i = k := by simpa using hk
    exact disk.bounded d source _ (.inl h.symm)
  refine ⟨hi, ?_⟩
  unfold move
  split
  · rename_i hnone
    rw [hnone] at h
    cases h
  · rename_i j hj
    obtain rfl : j = i := Option.some.inj (hj.symm.trans h)
    rfl

omit [DecidableEq ν] in
theorem entry_settle (hd : d' ≠ d) : (disk.settle d).entry d' n = disk.entry d' n := by
  simp [settle, hd]

omit [DecidableEq ν] in
theorem entry_settle_self : (disk.settle d).entry d n = (disk.entry d n).settled := by
  simp [settle]

end Disk

/-- No two names are one file. -/
def Disk.NoLinks {ν : Type} (disk : Disk ν) : Prop :=
  ∀ d n d' n' i, (disk.entry d n).now = some i → (disk.entry d' n').now = some i → d = d' ∧ n = n'

namespace Disk

variable {ν : Type} [DecidableEq ν] {disk : Disk ν} {d : Ino}

theorem noLinks_make {n : ν} (h : disk.NoLinks) (hd : d < disk.next) :
    (disk.make d n dir).NoLinks := by
  -- what a name is, where it was there before
  have hnow : ∀ d' n' i, ((disk.make d n dir).entry d' n').now = some i →
      (d' = d ∧ n' = n ∧ i = disk.next) ∨ ((disk.entry d' n').now = some i ∧ i < disk.next) := by
    intro d' n' i hi
    by_cases hself : d' = d ∧ n' = n
    · obtain ⟨rfl, rfl⟩ := hself
      rw [entry_make_self hd] at hi
      exact .inl ⟨rfl, rfl, (Option.some.inj hi).symm⟩
    · right
      rcases eq_or_ne d' disk.next with rfl | hnew
      · rw [entry_make_new hd] at hi
        cases hi
      · have heq : (disk.make d n dir).entry d' n' = disk.entry d' n' := by
          rw [make, entry_bind hself]
          simp [alloc, Function.update_of_ne hnew]
        rw [heq] at hi
        exact ⟨hi, disk.bounded _ _ _ (.inl hi.symm)⟩
  intro d₁ n₁ d₂ n₂ i h₁ h₂
  rcases hnow _ _ _ h₁ with ⟨hd₁, hn₁, hi₁⟩ | ⟨hold₁, hlt₁⟩ <;>
    rcases hnow _ _ _ h₂ with ⟨hd₂, hn₂, hi₂⟩ | ⟨hold₂, hlt₂⟩
  · exact ⟨hd₁.trans hd₂.symm, hn₁.trans hn₂.symm⟩
  · exact absurd hi₁ (Nat.ne_of_lt hlt₂)
  · exact absurd hi₂ (Nat.ne_of_lt hlt₁)
  · exact h _ _ _ _ _ hold₁ hold₂

theorem noLinks_unlink {n : ν} (h : disk.NoLinks) :
    (disk.bind d n none (below_none _)).NoLinks := by
  have hnow : ∀ d' n' i, ((disk.bind d n none (below_none _)).entry d' n').now = some i →
      (disk.entry d' n').now = some i := by
    intro d' n' i hi
    by_cases hself : d' = d ∧ n' = n
    · obtain ⟨rfl, rfl⟩ := hself
      rw [entry_bind_self] at hi
      cases hi
    · rwa [entry_bind hself] at hi
  intro d₁ n₁ d₂ n₂ i h₁ h₂
  exact h _ _ _ _ _ (hnow _ _ _ h₁) (hnow _ _ _ h₂)

theorem noLinks_move {source target : ν} {i : Ino} (h : disk.NoLinks) (hne : source ≠ target)
    (hi : (disk.entry d source).now = some i) : (disk.move d source target).NoLinks := by
  obtain ⟨hbelow, heq⟩ := move_eq target hi
  rw [heq]
  have hnow : ∀ d' n' j,
      (((disk.bind d target (some i) hbelow).bind d source none (below_none _)).entry d' n').now =
        some j →
      (d' = d ∧ n' = target ∧ j = i) ∨
        ((disk.entry d' n').now = some j ∧ ¬ (d' = d ∧ n' = source)) := by
    intro d' n' j hj
    by_cases hsource : d' = d ∧ n' = source
    · obtain ⟨rfl, rfl⟩ := hsource
      rw [entry_bind_self] at hj
      cases hj
    · rw [entry_bind hsource] at hj
      by_cases htarget : d' = d ∧ n' = target
      · obtain ⟨rfl, rfl⟩ := htarget
        rw [entry_bind_self] at hj
        exact .inl ⟨rfl, rfl, (Option.some.inj hj).symm⟩
      · rw [entry_bind htarget] at hj
        exact .inr ⟨hj, hsource⟩
  intro d₁ n₁ d₂ n₂ j h₁ h₂
  rcases hnow _ _ _ h₁ with ⟨hd₁, hn₁, hj₁⟩ | ⟨hold₁, hne₁⟩ <;>
    rcases hnow _ _ _ h₂ with ⟨hd₂, hn₂, hj₂⟩ | ⟨hold₂, hne₂⟩
  · exact ⟨hd₁.trans hd₂.symm, hn₁.trans hn₂.symm⟩
  · exact absurd (h _ _ _ _ _ (hj₁ ▸ hold₂) hi) hne₂
  · exact absurd (h _ _ _ _ _ (hj₂ ▸ hold₁) hi) hne₁
  · exact h _ _ _ _ _ hold₁ hold₂

omit [DecidableEq ν] in
theorem noLinks_settle (h : disk.NoLinks) : (disk.settle d).NoLinks := by
  have hnow : ∀ d' n, ((disk.settle d).entry d' n).now = (disk.entry d' n).now := by
    intro d' n
    rcases eq_or_ne d' d with rfl | hd
    · rw [entry_settle_self]
      rfl
    · rw [entry_settle hd]
  intro d₁ n₁ d₂ n₂ i h₁ h₂
  rw [hnow] at h₁ h₂
  exact h _ _ _ _ _ h₁ h₂

end Disk

/-- What a power loss can leave of a disk. -/
structure PowerLoss {ν : Type} (disk disk' : Disk ν) : Prop where
  isDir : disk'.isDir = disk.isDir
  entry : ∀ d n, (disk.entry d n).MayBe (disk'.entry d n).now
  content : ∀ i, disk.synced i → disk'.content i = disk.content i

end Anolis.Lib
