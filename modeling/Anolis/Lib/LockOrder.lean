import Anolis.Lib.Machine
import Mathlib.Logic.Relation

/-!
# Programs that take locks, and lock orders

A `LockProg` is what is left of a program when only its locks are looked at: scopes that hold a
lock, one after the other or one inside the other, with every branch open. Any number of threads run
such programs over one table of lock owners (`lockMachine`). The locks are not recursive: a thread
that wants a lock waits while anyone holds it, itself included.

`WaitsFor` is the relation from a thread to the holder of the lock it waits for. A deadlock is a
cycle of it. Where the locks have ranks and every scope is opened below the ranks that are held
(`Respects`), no reachable state has one (`no_wait_cycle`).
-/

namespace Anolis.Lib

/-- The locks of a program. -/
inductive LockProg (L : Type)
  | skip
  /-- a scope that holds `l` -/
  | guard (l : L) (body : LockProg L)
  /-- `q` after `p`, unless a return or an exception ends the block after `p` -/
  | seq (p q : LockProg L)
  | choice (p q : LockProg L)
deriving DecidableEq

namespace LockProg

variable {L : Type}

/-- Takes `l` and gives it back. -/
abbrev lock (l : L) : LockProg L := .guard l .skip

/-- A step that may be skipped. -/
def opt (p : LockProg L) : LockProg L := .choice p .skip

/-- A loop over a list. -/
def each {α : Type} (f : α → LockProg L) : List α → LockProg L
  | [] => .skip
  | a :: as => .seq (f a) (each f as)

/-- The ranks of the locks rise: the program takes locks of rank `n` and above, and inside a scope
only locks above that of the scope. -/
def Respects (rank : L → Nat) (n : Nat) : LockProg L → Prop
  | .skip => True
  | .guard l body => n ≤ rank l ∧ Respects rank (rank l + 1) body
  | .seq p q => Respects rank n p ∧ Respects rank n q
  | .choice p q => Respects rank n p ∧ Respects rank n q

section
variable {rank : L → Nat} {n : Nat} {p q : LockProg L}

@[simp] theorem respects_skip : Respects rank n .skip := trivial

@[simp] theorem respects_guard {l : L} {body : LockProg L} :
    Respects rank n (.guard l body) ↔ n ≤ rank l ∧ Respects rank (rank l + 1) body := Iff.rfl

@[simp] theorem respects_seq :
    Respects rank n (.seq p q) ↔ Respects rank n p ∧ Respects rank n q := Iff.rfl

@[simp] theorem respects_choice :
    Respects rank n (.choice p q) ↔ Respects rank n p ∧ Respects rank n q := Iff.rfl

@[simp] theorem respects_opt {p : LockProg L} : Respects rank n p.opt ↔ Respects rank n p := by
  simp [opt]

theorem respects_each {α : Type} {f : α → LockProg L} {as : List α}
    (h : ∀ a ∈ as, Respects rank n (f a)) : Respects rank n (each f as) := by
  induction as with
  | nil => exact trivial
  | cons a as ih =>
    exact ⟨h a (List.mem_cons_self ..), ih fun b hb => h b (List.mem_cons_of_mem _ hb)⟩

end

end LockProg

/-! ### Threads -/

/-- What a thread has still to do: run a program, or end the scope of a lock. -/
inductive LockFrame (L : Type)
  | run (p : LockProg L)
  | release (l : L)
deriving DecidableEq

inductive LockEffect (L : Type)
  | silent
  | acquire (l : L)
  | release (l : L)

/-- What the schedule decides: which operation a thread starts, which branch it takes, and where a
block ends early. -/
inductive LockChoice (ω : Type)
  | go
  | start (op : ω)
  | left | right
  | leave

section
variable {L ω : Type}

/-- One step of a thread. A thread that has nothing to do may start an operation. -/
def lockNext (program : ω → LockProg L) (owner : L → Option ThreadId) :
    List (LockFrame L) → LockChoice ω → Option (LockEffect L × List (LockFrame L))
  | [], .start op => some (.silent, [.run (program op)])
  | [], _ => none
  | .release l :: st, _ => some (.release l, st)
  | .run .skip :: st, _ => some (.silent, st)
  | .run (.guard l body) :: st, _ =>
    if (owner l).isSome then none else some (.acquire l, .run body :: .release l :: st)
  | .run (.seq p _) :: st, .leave => some (.silent, .run p :: st)
  | .run (.seq p q) :: st, _ => some (.silent, .run p :: .run q :: st)
  | .run (.choice p _) :: st, .left => some (.silent, .run p :: st)
  | .run (.choice _ q) :: st, .right => some (.silent, .run q :: st)
  | .run (.choice _ _) :: _, _ => none

variable [DecidableEq L]

/-- What an effect does to the owners of the locks. -/
def lockApply (owner : L → Option ThreadId) (t : ThreadId) :
    LockEffect L → L → Option ThreadId
  | .silent => owner
  | .acquire l => Function.update owner l (some t)
  | .release l => Function.update owner l none

/-- Any number of threads that run the operations `ω`. -/
def lockMachine (program : ω → LockProg L) :
    Machine (L → Option ThreadId) (List (LockFrame L)) (LockEffect L) (LockChoice ω) where
  next owner _ st c := lockNext program owner st c
  apply := lockApply

end

section
variable {L ω : Type}

abbrev LockState (L : Type) := Global (L → Option ThreadId) (List (LockFrame L))

/-- No lock is held, and no thread runs anything. -/
def LockStart (g : LockState L) : Prop := (∀ l, g.shared l = none) ∧ ∀ t, g.thread t = []

/-- The lock that a thread is about to take. -/
def wants : List (LockFrame L) → Option L
  | .run (.guard l _) :: _ => some l
  | _ => none

/-- The thread `t` waits for a lock that `u` holds. -/
def WaitsFor (g : LockState L) (t u : ThreadId) : Prop :=
  ∃ l, wants (g.thread t) = some l ∧ g.shared l = some u

/-! ### The order of the locks -/

variable {rank : L → Nat} {owner : L → Option ThreadId} {e : LockEffect L}
  {st st' : List (LockFrame L)} {l : L} {c : LockChoice ω}

/-- The ranks that a thread may still take: those above the lock it took last. -/
def floor (rank : L → Nat) : List (LockFrame L) → Nat
  | [] => 0
  | .run _ :: st => floor rank st
  | .release l :: _ => rank l + 1

/-- The locks of a thread rise towards the top, and what it still runs takes locks above them. -/
def Fits (rank : L → Nat) : List (LockFrame L) → Prop
  | [] => True
  | .run p :: st => p.Respects rank (floor rank st) ∧ Fits rank st
  | .release l :: st => floor rank st ≤ rank l ∧ Fits rank st

theorem Fits.floor_le {st : List (LockFrame L)} (h : Fits rank st)
    (hw : wants st = some l) : floor rank st ≤ rank l := by
  match st, hw with
  | .run (.guard l _) :: st, rfl => exact h.1.1

theorem Fits.lt_floor {st : List (LockFrame L)} (h : Fits rank st)
    (hl : .release l ∈ st) : rank l < floor rank st := by
  induction st with
  | nil => cases hl
  | cons f st ih =>
    cases f with
    | run p =>
      rcases List.mem_cons.mp hl with hl | hl
      · cases hl
      · exact ih h.2 hl
    | release l' =>
      rcases List.mem_cons.mp hl with hl | hl
      · cases hl
        exact Nat.lt_succ_self _
      · exact Nat.lt_succ_of_lt (Nat.lt_of_lt_of_le (ih h.2 hl) h.1)

theorem Fits.step {program : ω → LockProg L} (hops : ∀ op, (program op).Respects rank 0)
    (h : Fits rank st) (hnext : lockNext program owner st c = some (e, st')) : Fits rank st' := by
  revert hnext
  fun_cases lockNext program owner st c <;> intro hnext <;> cases hnext
  case case1 op => exact ⟨hops op, trivial⟩
  case case3 | case4 => exact h.2
  case case6 l body st _ => exact ⟨h.1.2, h.1.1, h.2⟩
  case case7 => exact ⟨h.1.1, h.2⟩
  case case8 => exact ⟨h.1.1, h.1.2, h.2⟩
  case case9 => exact ⟨h.1.1, h.2⟩
  case case10 => exact ⟨h.1.2, h.2⟩

variable [DecidableEq L] {program : ω → LockProg L} {g₀ g : LockState L}
  {tr : Trace (LockState L) (ThreadId × LockEffect L)}

/-- The holder of a lock has its scope open. -/
def Owned (g : LockState L) : Prop :=
  ∀ l t, g.shared l = some t → .release l ∈ g.thread t

/-- A step of the thread `t` keeps the scopes of its locks open. -/
theorem owned_next {t : ThreadId} (hnext : lockNext program owner st c = some (e, st'))
    (h : owner l = some t → .release l ∈ st) (hl : lockApply owner t e l = some t) :
    .release l ∈ st' := by
  revert hnext hl
  fun_cases lockNext program owner st c <;> intro hnext hl <;> cases hnext
  case case3 l' =>
    rcases eq_or_ne l l' with rfl | heq
    · simp [lockApply] at hl
    · rw [lockApply, Function.update_of_ne heq] at hl
      simpa [heq] using h hl
  case case6 l' body st hfree =>
    by_cases heq : l = l'
    · simp [heq]
    · rw [lockApply, Function.update_of_ne heq] at hl
      simpa [heq] using h hl
  all_goals simpa using h hl

theorem lockApply_other {t u : ThreadId}
    (hu : u ≠ t) (h : lockApply owner t e l = some u) : owner l = some u := by
  cases e with
  | silent => exact h
  | acquire l' =>
    rcases eq_or_ne l l' with rfl | heq
    · simp [lockApply, Ne.symm hu] at h
    · rwa [lockApply, Function.update_of_ne heq] at h
  | release l' =>
    rcases eq_or_ne l l' with rfl | heq
    · simp [lockApply] at h
    · rwa [lockApply, Function.update_of_ne heq] at h

theorem owned_run (h0 : LockStart g₀) (h : Run (lockMachine program).lts g₀ tr g) : Owned g := by
  refine Run.induct (J := fun _ g => Owned g) ?_ ?_ h
  · intro l t hl
    rw [h0.1] at hl
    cases hl
  · rintro tr g ⟨t, e⟩ g' - ih hstep l u hl
    obtain ⟨c, st', hnext, hsh, hth, hother⟩ := Machine.step_inv hstep
    have hnext : lockNext program g.shared (g.thread t) c = some (e, st') := hnext
    have hsh : g'.shared = lockApply g.shared t e := hsh
    rw [hsh] at hl
    rcases eq_or_ne u t with rfl | hu
    · rw [hth]
      exact owned_next hnext (ih l u) hl
    · rw [hother u hu]
      exact ih l u (lockApply_other hu hl)

variable (hops : ∀ op, (program op).Respects rank 0) (h0 : LockStart g₀)
  (h : Run (lockMachine program).lts g₀ tr g)
include hops h0 h

theorem fits_run (t : ThreadId) : Fits rank (g.thread t) := by
  refine Machine.thread_inv (C := fun _ _ => True) (P := fun _ st => Fits rank st) ?_ ?_ h
    (fun _ _ => trivial) t
  · intro t
    rw [h0.2]
    trivial
  · intro g t c e st' _ hnext hfits
    exact hfits.step hops hnext

theorem rank_lt_of_wants {u : ThreadId} {l l' : L}
    (howner : g.shared l = some u) (hl' : wants (g.thread u) = some l') : rank l < rank l' := by
  have hfits := fits_run hops h0 h u
  have hheld : .release l ∈ g.thread u := owned_run h0 h l u howner
  exact Nat.lt_of_lt_of_le (hfits.lt_floor hheld) (hfits.floor_le hl')

/-- No reachable state has a cycle of threads each of which waits for a lock of the next. -/
theorem no_wait_cycle (t : ThreadId) : ¬ Relation.TransGen (WaitsFor g) t t := by
  -- along a chain of waits, a lock wanted at its end is above the one wanted at its start
  have hchain : ∀ {t u : ThreadId}, Relation.TransGen (WaitsFor g) t u → ∀ l l',
      wants (g.thread t) = some l → wants (g.thread u) = some l' → rank l < rank l' := by
    intro t u hchain
    induction hchain with
    | single hwait =>
      intro l l' hl hl'
      obtain ⟨l₁, hl₁, howner⟩ := hwait
      rw [hl] at hl₁
      cases hl₁
      exact rank_lt_of_wants hops h0 h howner hl'
    | tail _ hwait ih =>
      intro l l' hl hl'
      obtain ⟨l₁, hl₁, howner⟩ := hwait
      exact Nat.lt_trans (ih l l₁ hl hl₁) (rank_lt_of_wants hops h0 h howner hl')
  intro hcycle
  obtain ⟨u, hwait, -⟩ := Relation.TransGen.head'_iff.mp hcycle
  obtain ⟨l, hl, -⟩ := hwait
  exact Nat.lt_irrefl _ (hchain hcycle l l hl hl)

end
end Anolis.Lib
