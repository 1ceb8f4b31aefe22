import Mathlib.Data.List.Induction

/-!
# Labelled transition systems and their runs

A labelled transition system is a step relation `step s l s'`. A run is recorded by its
trace: the list of its steps, oldest first, each with the state it was taken in and its
label. Keeping the state in the trace lets a condition on a step (`C s l`) and a property of
an intermediate state be read off the trace.
-/

namespace Anolis.Lib

universe u v

/-- A labelled transition system over the states `σ` and the labels `ℓ`. -/
structure Lts (σ : Type u) (ℓ : Type v) where
  /-- `step s l s'`: in the state `s` the system can take a step labelled `l` to `s'`. -/
  step : σ → ℓ → σ → Prop

/-- The steps of a run, oldest first: the state before each step, and its label. -/
abbrev Trace (σ : Type u) (ℓ : Type v) := List (σ × ℓ)

theorem some_pair {α : Type u} {β : Type v} {a a' : α} {b b' : β} :
    (some (a, b) = some (a', b')) = (a = a' ∧ b = b') := by
  rw [Option.some.injEq, Prod.mk.injEq]

theorem forall_snoc {α : Type u} {P : α → Prop} {l : List α} {a : α} (h : ∀ x ∈ l, P x) (ha : P a) :
    ∀ x ∈ l ++ [a], P x :=
  List.forall_mem_append.mpr ⟨h, List.forall_mem_singleton.mpr ha⟩

variable {σ : Type u} {ℓ : Type v} {T : Lts σ ℓ}

/-- The steps from the last one that is `p` on, that one included. -/
def sinceLast {α : Type u} (p : α → Bool) (tr : List α) : List α :=
  tr.foldl (fun acc i => if p i then [i] else acc ++ [i]) []

variable {α : Type u}

@[simp] theorem sinceLast_snoc (p : α → Bool) (tr : List α) (i : α) :
    sinceLast p (tr ++ [i]) = if p i then [i] else sinceLast p tr ++ [i] := by
  simp only [sinceLast, List.foldl_append, List.foldl_cons, List.foldl_nil]

theorem sinceLast_suffix (p : α → Bool) (tr : List α) : sinceLast p tr <:+ tr := by
  induction tr using List.reverseRecOn with
  | nil => exact List.suffix_rfl
  | append_singleton tr i ih =>
    rw [sinceLast_snoc]
    split
    · exact List.suffix_append _ _
    · obtain ⟨l, hl⟩ := ih
      exact ⟨l, by rw [← List.append_assoc, hl]⟩

/-- The last step that is `p`. -/
def lastStep {α : Type u} (p : α → Bool) (tr : List α) : Option α :=
  tr.foldl (fun acc i => if p i then some i else acc) none

@[simp] theorem lastStep_snoc (p : α → Bool) (tr : List α) (i : α) :
    lastStep p (tr ++ [i]) = if p i then some i else lastStep p tr := by
  simp only [lastStep, List.foldl_append, List.foldl_cons, List.foldl_nil]

/-- The last step of one of two kinds is the last step of its kind. -/
theorem lastStep_or {p q : α → Bool} {tr : List α} {i : α}
    (h : lastStep (fun x => p x || q x) tr = some i) :
    lastStep p tr = some i ∨ lastStep q tr = some i := by
  induction tr using List.reverseRecOn with
  | nil => cases h
  | append_singleton tr j ih =>
    rw [lastStep_snoc] at h
    rw [lastStep_snoc, lastStep_snoc]
    cases hp : p j <;> cases hq : q j <;> simp_all

/-- `Run T s₀ tr s`: the system can go from `s₀` to `s` by the steps of `tr`. -/
inductive Run (T : Lts σ ℓ) (s₀ : σ) : Trace σ ℓ → σ → Prop
  | refl : Run T s₀ [] s₀
  | snoc {tr : Trace σ ℓ} {s s' : σ} {l : ℓ} :
      Run T s₀ tr s → T.step s l s' → Run T s₀ (tr ++ [(s, l)]) s'

namespace Run

variable {s₀ s : σ} {tr : Trace σ ℓ} {J : Trace σ ℓ → σ → Prop}

/-- The induction rule for a property of the trace and the state together. -/
theorem induct (h0 : J [] s₀)
    (hstep : ∀ tr s l s', Run T s₀ tr s → J tr s → T.step s l s' → J (tr ++ [(s, l)]) s')
    (h : Run T s₀ tr s) : J tr s := by
  induction h with
  | refl => exact h0
  | snoc hr hs ih => exact hstep _ _ _ _ hr ih hs

/-- The induction rule for runs whose steps all meet the condition `C`. -/
theorem induct_of {C : σ → ℓ → Prop} (h0 : J [] s₀)
    (hstep : ∀ tr s l s', Run T s₀ tr s → (∀ i ∈ tr, C i.1 i.2) → J tr s → C s l →
      T.step s l s' → J (tr ++ [(s, l)]) s') (h : Run T s₀ tr s)
    (hC : ∀ i ∈ tr, C i.1 i.2) : J tr s := by
  induction h with
  | refl => exact h0
  | @snoc tr _ _ _ hr hs ih =>
    have hbefore : ∀ i ∈ tr, C i.1 i.2 := fun i hi => hC i (List.mem_append_left _ hi)
    exact hstep _ _ _ _ hr hbefore (ih hbefore) (hC (_, _) (by simp)) hs

variable {s' : σ}

theorem single {l : ℓ} (h : T.step s l s') : Run T s [(s, l)] s' :=
  snoc refl h

variable {tr₁ tr₂ : Trace σ ℓ}

theorem append {s₁ s₂ : σ} (h₁ : Run T s₀ tr₁ s₁)
    (h₂ : Run T s₁ tr₂ s₂) : Run T s₀ (tr₁ ++ tr₂) s₂ := by
  induction h₂ with
  | refl => simpa using h₁
  | snoc _ hs ih => rw [← List.append_assoc]; exact snoc ih hs

/-- A run with a first step: the step, then the rest of the run. -/
theorem cons {s'' : σ} {l : ℓ} (h : T.step s l s')
    (hr : Run T s' tr s'') : Run T s ((s, l) :: tr) s'' :=
  append (single h) hr

theorem eq_of_nil (h : Run T s₀ [] s) : s = s₀ := by
  generalize htr : ([] : Trace σ ℓ) = tr at h
  cases h with
  | refl => rfl
  | snoc _ _ => simp at htr

variable {i : σ × ℓ}

theorem of_snoc (h : Run T s₀ (tr ++ [i]) s') : Run T s₀ tr i.1 ∧ T.step i.1 i.2 s' := by
  generalize htr : tr ++ [i] = tr' at h
  cases h with
  | refl => simp at htr
  | snoc hr hs =>
    obtain ⟨rfl, hi⟩ := List.append_inj' htr rfl
    simp only [List.cons.injEq, and_true] at hi
    subst hi
    exact ⟨hr, hs⟩

theorem split (h : Run T s₀ (tr₁ ++ tr₂) s) : ∃ s₁, Run T s₀ tr₁ s₁ ∧ Run T s₁ tr₂ s := by
  induction tr₂ using List.reverseRecOn generalizing s with
  | nil => exact ⟨s, by simpa using h, refl⟩
  | append_singleton tr₂ i ih =>
    rw [← List.append_assoc] at h
    obtain ⟨hr, hs⟩ := of_snoc h
    obtain ⟨s₁, h₁, h₂⟩ := ih hr
    exact ⟨s₁, h₁, snoc h₂ hs⟩

theorem of_cons (h : Run T s₀ (i :: tr) s) :
    i.1 = s₀ ∧ ∃ s₁, T.step i.1 i.2 s₁ ∧ Run T s₁ tr s := by
  obtain ⟨s₁, h₁, h₂⟩ := split (show Run T s₀ ([i] ++ tr) s from h)
  obtain ⟨h₀, hs⟩ := of_snoc (show Run T s₀ ([] ++ [i]) s₁ from h₁)
  exact ⟨eq_of_nil h₀, s₁, hs, h₂⟩

/-- A run cut at one of its steps: the step is taken in the state that the steps before it
reach, and the later steps go on from there. -/
theorem at_step (h : Run T s₀ (tr₁ ++ i :: tr₂) s) :
    Run T s₀ tr₁ i.1 ∧ ∃ s₁, T.step i.1 i.2 s₁ ∧ Run T s₁ tr₂ s := by
  obtain ⟨s', h₁, h₂⟩ := split h
  obtain ⟨rfl, hrest⟩ := of_cons h₂
  exact ⟨h₁, hrest⟩

/-- Each step of a run is taken in the state that the steps before it reach. -/
theorem of_mem (h : Run T s₀ tr s) (hi : i ∈ tr) :
    ∃ tr₁ tr₂ s₁, tr = tr₁ ++ i :: tr₂ ∧ Run T s₀ tr₁ i.1 ∧ T.step i.1 i.2 s₁ ∧ Run T s₁ tr₂ s := by
  obtain ⟨tr₁, tr₂, rfl⟩ := List.append_of_mem hi
  obtain ⟨h₁, s₁, hs, h₂⟩ := at_step h
  exact ⟨tr₁, tr₂, s₁, rfl, h₁, hs, h₂⟩

variable {L : ℓ → Prop}

/-- A property of the first state that every step labelled in `L` keeps holds in the last
state of a run whose labels are all in `L`, and in every state between. -/
theorem keeps {P : σ → Prop}
    (hkeep : ∀ s l s', P s → L l → T.step s l s' → P s') (h : Run T s₀ tr s) (hL : ∀ i ∈ tr, L i.2)
    (h0 : P s₀) : P s ∧ ∀ i ∈ tr, P i.1 := by
  induction h with
  | refl => exact ⟨h0, by simp⟩
  | @snoc tr s s' l hr hs ih =>
    obtain ⟨hP, hall⟩ := ih fun i hi => hL i (by simp [hi])
    refine ⟨hkeep _ _ _ hP (hL (s, l) (by simp)) hs, fun i hi => ?_⟩
    rcases List.mem_append.mp hi with hi | hi
    · exact hall i hi
    · rw [List.mem_singleton.mp hi]
      exact hP

/-- The rule for what holds behind one step of a run. The step makes `K` hold with no step behind
it, and every later step keeps it. -/
theorem after_step {K : Trace σ ℓ → σ → Prop}
    (hmake : ∀ s', Run T s₀ tr₁ i.1 → T.step i.1 i.2 s' → K [] s')
    (hkeep : ∀ tr s l s' behind, Run T s₀ tr s → T.step s l s' → K behind s →
      K (behind ++ [(s, l)]) s') (h : Run T s₀ (tr₁ ++ i :: tr₂) s) : K tr₂ s := by
  obtain ⟨h₁, s₁, hstep, h₂⟩ := at_step h
  have hmade : K [] s₁ := hmake s₁ h₁ hstep
  clear h
  induction h₂ with
  | refl => exact hmade
  | snoc hr hs ih => exact hkeep _ _ _ _ _ (append h₁ (cons hstep hr)) hs ih

/-- The rule for what an event owes. An event (`E`) makes `K` hold with no step behind it, and
every later step keeps it. Then `K` holds of every event of a run and the steps behind it. -/
theorem after_event {α : Type} {E : σ × ℓ → Option α} {K : α → Trace σ ℓ → σ → Prop}
    (hmake : ∀ tr s l s' a, Run T s₀ tr s → T.step s l s' → E (s, l) = some a → K a [] s')
    (hkeep : ∀ tr s l s' a behind, Run T s₀ tr s → T.step s l s' → K a behind s →
      K a (behind ++ [(s, l)]) s') (h : Run T s₀ tr s) {a : α} (htr : tr = tr₁ ++ i :: tr₂)
    (hi : E i = some a) : K a tr₂ s := by
  subst htr
  exact after_step (fun s' hr hs => hmake _ _ _ s' a hr hs hi)
    (fun tr s l s' behind hr hs hk => hkeep tr s l s' a behind hr hs hk) h

/-- The refinement rule. Where each step of `T` is seen (`view`) as a step of `U` or as none that
changes what `f` shows of the state, a run of `T` is seen as a run of `U`. -/
theorem refines {σ' ℓ' : Type} {U : Lts σ' ℓ'} {f : σ → σ'} {view : σ × ℓ → Option (σ' × ℓ')}
    (hstay : ∀ tr s l s', Run T s₀ tr s → T.step s l s' → view (s, l) = none → f s' = f s)
    (hgo : ∀ tr s l s' j, Run T s₀ tr s → T.step s l s' → view (s, l) = some j →
      j.1 = f s ∧ U.step (f s) j.2 (f s'))
    (h : Run T s₀ tr s) : Run U (f s₀) (tr.filterMap view) (f s) := by
  induction h with
  | refl => exact refl
  | @snoc tr s s' l hr hs ih =>
    rw [List.filterMap_append]
    cases hview : view (s, l) with
    | none =>
      rw [hstay tr s l s' hr hs hview]
      simpa [hview] using ih
    | some j =>
      obtain ⟨hj, hstep⟩ := hgo tr s l s' j hr hs hview
      have hlast : List.filterMap view [(s, l)] = [(f s, j.2)] := by simp [hview, ← hj]
      rw [hlast]
      exact snoc ih hstep

variable {I : σ → Prop} {G : σ → Prop}

/-- The progress rule. From every state that meets the invariant `I`, a run with labels in `L`
leads to one that meets it too and is at the goal `G` or has a smaller measure. Then a run with
labels in `L` leads to the goal. -/
theorem reaches_by (μ : σ → Nat)
    (hprog : ∀ s, I s → ¬ G s → ∃ tr s', Run T s tr s' ∧ (∀ i ∈ tr, L i.2) ∧ I s' ∧
      (G s' ∨ μ s' < μ s))
    (hs : I s) : ∃ tr s', Run T s tr s' ∧ (∀ i ∈ tr, L i.2) ∧ I s' ∧ G s' := by
  induction hn : μ s using Nat.strongRecOn generalizing s with
  | _ n ih =>
    by_cases hG : G s
    · exact ⟨[], s, refl, by simp, hs, hG⟩
    · obtain ⟨tr, s', hrun, hL, hs', hG' | hlt⟩ := hprog s hs hG
      · exact ⟨tr, s', hrun, hL, hs', hG'⟩
      · obtain ⟨tr', s'', hrun', hL', hs'', hG''⟩ := ih (μ s') (hn ▸ hlt) hs' rfl
        refine ⟨tr ++ tr', s'', append hrun hrun', fun i hi => ?_, hs'', hG''⟩
        exact (List.mem_append.mp hi).elim (hL i) (hL' i)

theorem reaches (μ : σ → Nat)
    (hprog : ∀ s, I s → ¬ G s → ∃ tr s', Run T s tr s' ∧ I s' ∧ (G s' ∨ μ s' < μ s))
    (hs : I s) : ∃ tr s', Run T s tr s' ∧ I s' ∧ G s' := by
  obtain ⟨tr, s', hrun, -, hs', hG⟩ := reaches_by (T := T) (I := I) (G := G)
    (L := fun _ => True) μ (fun s hs hG => by
      obtain ⟨tr, s', hrun, hs', hor⟩ := hprog s hs hG
      exact ⟨tr, s', hrun, fun _ _ => trivial, hs', hor⟩) hs
  exact ⟨tr, s', hrun, hs', hG⟩

/-- The counting rule. `E` says which token a step uses, where it uses one; a step needs the
token it uses (`Tok`) in the state it is taken in. In the states that meet the invariant `I`, no
step labelled in `L` makes a token, and a step that uses one leaves none at all. Then a run
whose labels are all in `L` uses a token at most once, and only one that it began with. -/
theorem at_most_once {α : Type} {Tok : α → σ → Prop} {E : σ × ℓ → Option α}
    (hinv : ∀ s l s', I s → L l → T.step s l s' → I s')
    (hneed : ∀ s l s' a, I s → T.step s l s' → E (s, l) = some a → Tok a s)
    (hmake : ∀ s l s' a, I s → L l → T.step s l s' → Tok a s' → Tok a s)
    (huse : ∀ s l s' a b, I s → T.step s l s' → E (s, l) = some a → ¬ Tok b s') (h : Run T s₀ tr s)
    (hL : ∀ i ∈ tr, L i.2) (h0 : I s₀) :
    (tr.countP fun i => (E i).isSome) ≤ 1 ∧ ∀ i ∈ tr, ∀ a, E i = some a → Tok a s₀ := by
  -- Along the run: a used token leaves none, and every token was there at the start.
  suffices hrun : I s ∧ (tr.countP fun i => (E i).isSome) ≤ 1 ∧
      (0 < (tr.countP fun i => (E i).isSome) → ∀ b, ¬ Tok b s) ∧
      (∀ b, Tok b s → Tok b s₀) ∧ ∀ i ∈ tr, ∀ a, E i = some a → Tok a s₀ from
    ⟨hrun.2.1, hrun.2.2.2.2⟩
  induction h with
  | refl => exact ⟨h0, by simp, by simp, fun _ => id, by simp⟩
  | @snoc tr s s' l hr hs ih =>
    obtain ⟨hI, hle, hnone, hback, hall⟩ := ih fun i hi => hL i (by simp [hi])
    have hl : L l := hL (s, l) (by simp)
    rw [List.countP_append, List.countP_singleton]
    refine ⟨hinv _ _ _ hI hl hs, ?_⟩
    cases hE : E (s, l) with
    | none =>
      simp only [Option.isSome_none, Bool.false_eq_true, if_false, Nat.add_zero]
      refine ⟨hle, fun hpos b hb => hnone hpos b (hmake _ _ _ _ hI hl hs hb),
        fun b hb => hback b (hmake _ _ _ _ hI hl hs hb), fun i hi a ha => ?_⟩
      rcases List.mem_append.mp hi with hi | hi
      · exact hall i hi a ha
      · rw [List.mem_singleton.mp hi, hE] at ha
        cases ha
    | some a =>
      have hTok : Tok a s := hneed _ _ _ _ hI hs hE
      have hzero : (tr.countP fun i => (E i).isSome) = 0 := by
        by_contra hne
        exact hnone (Nat.pos_of_ne_zero hne) a hTok
      simp only [hzero, Option.isSome_some, if_true]
      refine ⟨Nat.le_refl _, fun _ b => huse _ _ _ _ _ hI hs hE,
        fun b hb => hback b (hmake _ _ _ _ hI hl hs hb), fun i hi b hb => ?_⟩
      rcases List.mem_append.mp hi with hi | hi
      · exact hall i hi b hb
      · rw [List.mem_singleton.mp hi, hE] at hb
        rw [← Option.some.inj hb]
        exact hback a hTok

end Run

end Anolis.Lib
