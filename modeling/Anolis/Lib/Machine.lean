import Anolis.Lib.Process
import Mathlib.Logic.Function.Basic

/-!
# Threads over a shared state

A `Machine` is a program run by any number of threads over one shared state. `next` says what
a thread does from its own local state: it reads the shared state and answers with an effect
and the thread's next local state, or `none` when the thread cannot go on now (it waits for a
lock). `apply` says what an effect of a thread does to the shared state. A step of the machine
is one such step of one thread, so the runs of `Machine.lts` are the interleavings.

The choice argument of `next` carries what the thread's code does not decide: an answer of the
environment, an operation to start. A step exists for every choice that `next` accepts.
-/

namespace Anolis.Lib

/-- Threads are numbered. -/
abbrev ThreadId := Nat

/-- The state of a machine: the shared state, and each thread's own state. -/
structure Global (σ θ : Type) where
  shared : σ
  thread : ThreadId → θ

/-- A program of threads. `σ` is the shared state, `θ` a thread's own state, `ε` the effects,
`χ` the choices. -/
structure Machine (σ θ ε χ : Type) where
  next : σ → ThreadId → θ → χ → Option (ε × θ)
  apply : σ → ThreadId → ε → σ

variable {σ θ ε χ : Type}

namespace Machine

/-- The machine as one process: a choice is a thread and the choice for its step. -/
def process (M : Machine σ θ ε χ) : Process (Global σ θ) (ThreadId × ε) (ThreadId × χ) where
  next g c := (M.next g.shared c.1 (g.thread c.1) c.2).map fun r =>
    ((c.1, r.1), ⟨M.apply g.shared c.1 r.1, Function.update g.thread c.1 r.2⟩)

/-- The interleavings of the machine's threads. A label is the thread and its effect. -/
def lts (M : Machine σ θ ε χ) : Lts (Global σ θ) (ThreadId × ε) := M.process.lts

variable {M : Machine σ θ ε χ} {g g' : Global σ θ} {l : ThreadId × ε}

/-- A step of the machine is a `next` of one thread. The shared state changes by the effect,
and the other threads stay as they are. -/
theorem step_inv (h : M.lts.step g l g') :
    ∃ c th', M.next g.shared l.1 (g.thread l.1) c = some (l.2, th') ∧
      g'.shared = M.apply g.shared l.1 l.2 ∧ g'.thread l.1 = th' ∧
      ∀ u, u ≠ l.1 → g'.thread u = g.thread u := by
  obtain ⟨⟨t, c⟩, hc⟩ := h
  obtain ⟨⟨e, th'⟩, hnext, heq⟩ := Option.map_eq_some_iff.mp hc
  cases heq
  refine ⟨c, th', hnext, rfl, ?_, fun u hu => ?_⟩
  · exact Function.update_self ..
  · exact Function.update_of_ne hu ..

variable {g₀ : Global σ θ} {tr : Trace (Global σ θ) (ThreadId × ε)}

/-- The rule for a property of each thread by itself: it holds of every thread of a run, if the
thread's own steps keep it. -/
theorem thread_inv {C : Global σ θ → ThreadId × ε → Prop} {P : ThreadId → θ → Prop}
    (h0 : ∀ t, P t (g₀.thread t))
    (hkeep : ∀ g t c e th', C g (t, e) → M.next g.shared t (g.thread t) c = some (e, th') →
      P t (g.thread t) → P t th')
    (h : Run M.lts g₀ tr g) (hC : ∀ i ∈ tr, C i.1 i.2) : ∀ t, P t (g.thread t) := by
  refine Run.induct_of (C := C) (J := fun _ g => ∀ t, P t (g.thread t)) h0 ?_ h hC
  intro tr g l g' _ _ ih hc hstep t
  obtain ⟨c, th', hnext, -, hth, hother⟩ := step_inv hstep
  by_cases ht : t = l.1
  · subst ht
    rw [hth]
    exact hkeep g l.1 c l.2 th' hc hnext (ih l.1)
  · rw [hother t ht]
    exact ih t

variable {t : ThreadId}

theorem untouched (h : Run M.lts g₀ tr g) (ht : ∀ i ∈ tr, i.2.1 ≠ t) :
    g.thread t = g₀.thread t ∧ ∀ i ∈ tr, i.1.thread t = g₀.thread t := by
  refine Run.keeps (P := fun s => s.thread t = g₀.thread t) (L := fun l => l.1 ≠ t) ?_ h ht rfl
  intro s l s' hs hl hstep
  obtain ⟨-, -, -, -, -, hother⟩ := step_inv hstep
  exact (hother t (Ne.symm hl)).trans hs

/-- What holds of every thread at the start of a run is to be checked on the threads `ts` that
take its steps. -/
theorem all_threads
    {ts : List ThreadId} {P : θ → Prop} (h : Run M.lts g₀ tr g) (hts : ∀ i ∈ tr, i.2.1 ∈ ts)
    (hstart : ∀ t, P (g₀.thread t)) : ((∀ t ∈ ts, P (g.thread t)) → ∀ t, P (g.thread t)) ∧
      ∀ i ∈ tr, (∀ t ∈ ts, P (i.1.thread t)) → ∀ t, P (i.1.thread t) := by
  have hothers : ∀ t, t ∉ ts → g.thread t = g₀.thread t ∧ ∀ i ∈ tr, i.1.thread t = g₀.thread t :=
    fun t ht => untouched h fun i hi hit => ht (hit ▸ hts i hi)
  refine ⟨fun hp t => ?_, fun i hi hp t => ?_⟩
  · by_cases ht : t ∈ ts
    · exact hp t ht
    · rw [(hothers t ht).1]
      exact hstart t
  · by_cases ht : t ∈ ts
    · exact hp t ht
    · rw [(hothers t ht).2 i hi]
      exact hstart t

theorem exists_step {c : χ} {e : ε} {th' : θ}
    (h : M.next g.shared t (g.thread t) c = some (e, th')) :
    ∃ g', M.lts.step g (t, e) g' ∧ g'.shared = M.apply g.shared t e ∧ g'.thread t = th' ∧
      ∀ u, u ≠ t → g'.thread u = g.thread u := by
  refine ⟨⟨M.apply g.shared t e, Function.update g.thread t th'⟩, ⟨(t, c), ?_⟩, rfl, ?_,
    fun u hu => ?_⟩
  · simp only [process, h, Option.map_some]
  · exact Function.update_self ..
  · exact Function.update_of_ne hu ..

theorem step_of_next {c : χ} {e : ε} {th' : θ}
    (h : M.next g.shared t (g.thread t) c = some (e, th'))
    (hshared : g'.shared = M.apply g.shared t e) (hself : g'.thread t = th')
    (hother : ∀ u, u ≠ t → g'.thread u = g.thread u) : M.lts.step g (t, e) g' := by
  have hthreads : g'.thread = Function.update g.thread t th' := by
    funext u
    by_cases hu : u = t
    · rw [hu, hself, Function.update_self]
    · rw [hother u hu, Function.update_of_ne hu]
  obtain ⟨shared, thread⟩ := g'
  refine ⟨(t, c), ?_⟩
  simp only [process, h, Option.map_some, ← hthreads, ← hshared]

/-! ### Executing a schedule -/

/-- A schedule whose trace and last state pass a check gives a run that passes it. -/
theorem run_of_passes (M : Machine σ θ ε χ) (g : Global σ θ) (sched : List (ThreadId × χ))
    (p : Trace (Global σ θ) (ThreadId × ε) → Global σ θ → Prop)
    (h : ∃ r ∈ M.process.exec g sched, p r.1 r.2) : ∃ tr g', Run M.lts g tr g' ∧ p tr g' :=
  M.process.run_of_passes g sched p h

/-- Two schedules, the second from the last state of the first, that pass a check give a run and one
that goes on from it. -/
theorem runs_of_passesThen (M : Machine σ θ ε χ) (g : Global σ θ)
    (sched₁ sched₂ : List (ThreadId × χ)) (p : Trace (Global σ θ) (ThreadId × ε) → Global σ θ →
      Trace (Global σ θ) (ThreadId × ε) → Global σ θ → Prop)
    (h : ∃ r ∈ M.process.exec g sched₁, ∃ q ∈ M.process.exec r.2 sched₂, p r.1 r.2 q.1 q.2) :
    ∃ tr₁ g₁ tr₂ g₂, Run M.lts g tr₁ g₁ ∧ Run M.lts g₁ tr₂ g₂ ∧ p tr₁ g₁ tr₂ g₂ := by
  obtain ⟨⟨tr₁, g₁⟩, hexec₁, ⟨tr₂, g₂⟩, hexec₂, hp⟩ := h
  exact ⟨tr₁, g₁, tr₂, g₂, Process.exec_run hexec₁, Process.exec_run hexec₂, hp⟩

/-! ### Locks -/

/-- What a step of the thread `t` may do to a lock. `o` and `o'` are the owner before and
after the step, `b` and `b'` say whether the thread is inside the lock's section. The step
leaves both alone, or it takes the free lock and goes inside, or it leaves the section and
frees the lock. -/
def LockStep (t : ThreadId) (o o' : Option ThreadId) (b b' : Bool) : Prop :=
  (o' = o ∧ b' = b) ∨ (o = none ∧ o' = some t ∧ b = false ∧ b') ∨
    (o' = none ∧ b ∧ b' = false)

/-- The owner of the lock is the thread inside its section. -/
def LockInv (owner : σ → Option ThreadId) (inside : θ → Bool) (g : Global σ θ) : Prop :=
  ∀ t, inside (g.thread t) ↔ owner g.shared = some t

variable {owner : σ → Option ThreadId} {inside : θ → Bool}

section

variable
  (hlock : ∀ sh t th c e th', M.next sh t th c = some (e, th') →
    LockStep t (owner sh) (owner (M.apply sh t e)) (inside th) (inside th'))
include hlock

theorem lock_step
    (hg : LockInv owner inside g) (h : M.lts.step g l g') : LockInv owner inside g' := by
  obtain ⟨c, th', hnext, hsh, hth, hother⟩ := step_inv h
  have hl := hlock _ _ _ _ _ _ hnext
  rw [← hsh, ← hth] at hl
  have hself := hg l.1
  intro u
  by_cases hu : u = l.1
  · subst hu
    rcases hl with ⟨ho, hb⟩ | ⟨-, ho, -, hb⟩ | ⟨ho, -, hb⟩
    · rw [ho, hb]; exact hself
    · simp [ho, hb]
    · simp [ho, hb]
  · rw [hother u hu, hg u]
    rcases hl with ⟨ho, -⟩ | ⟨hfree, ho, -, -⟩ | ⟨ho, hb, -⟩
    · rw [ho]
    · simp [ho, hfree, Ne.symm hu]
    · simp [ho, hself.mp hb, Ne.symm hu]

theorem lock_inv (h : Run M.lts g₀ tr g) (h0 : LockInv owner inside g₀) : LockInv owner inside g :=
  Run.induct (J := fun _ g => LockInv owner inside g) h0
    (fun _ _ _ _ _ hg hs => lock_step hlock hg hs) h

end

theorem lock_excl (hg : LockInv owner inside g) {u : ThreadId} (ht : inside (g.thread t))
    (hu : inside (g.thread u)) : t = u := by
  have h := (hg t).mp ht
  rw [(hg u).mp hu] at h
  exact (Option.some.inj h).symm

/-- A lock is given back. If the holder of the lock can always take a step that frees it or
lowers the holder's rank, then a run leads to the free lock, and a thread that is not the
holder takes no step in it. `R` is an invariant of the states, `L` says which effects the holder's
steps have. -/
theorem frees (owner : σ → Option ThreadId) {R : Global σ θ → Prop} {L : ε → Prop}
    (rank : Global σ θ → ThreadId → Nat)
    (hholder : ∀ s u, R s → owner s.shared = some u → ∃ e s', M.lts.step s (u, e) s' ∧ L e ∧
      R s' ∧ (∀ v, v ≠ u → s'.thread v = s.thread v) ∧
      (owner s'.shared = none ∨ (owner s'.shared = some u ∧ rank s' u < rank s u)))
    (hg : R g) (ht : owner g.shared ≠ some t) :
    ∃ tr g', Run M.lts g tr g' ∧ (∀ i ∈ tr, i.2.1 ≠ t ∧ L i.2.2) ∧ R g' ∧
      g'.thread t = g.thread t ∧ owner g'.shared = none := by
  obtain ⟨tr, g', hrun, hL, ⟨hR, hth, -⟩, hfree⟩ := Run.reaches_by (T := M.lts)
    (I := fun s => R s ∧ s.thread t = g.thread t ∧ owner s.shared ≠ some t)
    (G := fun s => owner s.shared = none) (L := fun l => l.1 ≠ t ∧ L l.2)
    (fun s => (owner s.shared).elim 0 (rank s))
    (by
      rintro s ⟨hR, hth, hne⟩ hheld
      obtain ⟨u, hu⟩ := Option.ne_none_iff_exists'.mp hheld
      have htu : t ≠ u := fun h => hne (h ▸ hu)
      obtain ⟨e, s', hstep, he, hR', hother, hafter⟩ := hholder s u hR hu
      have hth' : s'.thread t = g.thread t := (hother t htu).trans hth
      have hlabels : ∀ i ∈ [(s, u, e)], i.2.1 ≠ t ∧ L i.2.2 := by
        intro i hi
        rw [List.mem_singleton.mp hi]
        exact ⟨Ne.symm htu, he⟩
      rcases hafter with hfree | ⟨hsame, hlt⟩
      · exact ⟨_, s', Run.single hstep, hlabels, ⟨hR', hth', by simp [hfree]⟩, .inl hfree⟩
      · refine ⟨_, s', Run.single hstep, hlabels, ⟨hR', hth', ?_⟩, .inr ?_⟩
        · rw [hsame]
          exact fun h => htu (Option.some.inj h).symm
        · simpa only [hsame, hu, Option.elim_some] using hlt)
    ⟨hg, rfl, ht⟩
  exact ⟨tr, g', hrun, hL, hR, hth, hfree⟩

end Machine

end Anolis.Lib
