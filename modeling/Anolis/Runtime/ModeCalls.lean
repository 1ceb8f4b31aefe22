import Anolis.Runtime.System

/-!
# The `set_mode` calls of a run

What a run says about one `set_mode` call. A call begins with the step that reads the mode and
ends with the step that returns, and a thread runs one at a time, so the call that a thread is
inside of is what the thread did since it last read the mode: `callTrace t tr` is the part of
the trace since then, `callLog t tr` the thread's own `set_mode` effects in it.
-/

namespace Anolis.Runtime

open Automation Control Lib Lib.Machine

variable {m : SetMode} {mode shown : RuntimeMode} {tr : SystemTrace} {cfg : SystemConfig}
  {sh : Shared} {t : ThreadId} {th th' : Thread} {new : RuntimeMode} {pc : SetModePc} {c : Choice}
  {n : SetModeNext}

/-- A step of a trace. -/
abbrev Item := SystemState × ThreadId × Effect

/-! ### The log of a call -/

/-- The `set_mode` effect of the thread `t` in a step. -/
def modeEffect? (t : ThreadId) (i : Item) : Option ModeEffect :=
  match i.2.2 with
  | .mode e => if i.2.1 = t then some e else none
  | _ => none

/-- The function that a step dispatches to, and what `ask` says of the request. -/
def dispatched? {α : Type} (ask : CallRequest → α) (i : Item) : Option (String × α) :=
  match i.2.2 with
  | .call (.dispatch target request _) => some (target.name, ask request)
  | _ => none

theorem dispatched?_eq_some {α : Type} {ask : CallRequest →
    α} {i : Item} {name : String} {answer : α}
    (h : dispatched? ask i = some (name, answer)) :
    ∃ target request args, i.2.2 = .call (.dispatch target request args) ∧ target.name = name ∧
      ask request = answer := by
  unfold dispatched? at h
  split at h
  · rename_i target request args he
    cases h
    exact ⟨target, request, args, he, rfl, rfl⟩
  · cases h

/-- The effect a call begins with. -/
def ModeEffect.isEntry : ModeEffect → Bool
  | .readMode _ _ => true
  | _ => false

/-- The run since the thread `t` last began a `set_mode`. -/
def callTrace (t : ThreadId) (tr : SystemTrace) : SystemTrace :=
  sinceLast (fun i => (modeEffect? t i).any ModeEffect.isEntry) tr

/-- What the thread `t` did in its last `set_mode`. -/
def callLog (t : ThreadId) (tr : SystemTrace) : List ModeEffect :=
  (callTrace t tr).filterMap (modeEffect? t)

/-- The log after one more effect. -/
def record (log : List ModeEffect) (e : ModeEffect) : List ModeEffect :=
  if e.isEntry then [e] else log ++ [e]

@[simp] theorem modeEffect?_self (t : ThreadId) (g : SystemState) (e : ModeEffect) :
    modeEffect? t (g, t, .mode e) = some e := by
  simp [modeEffect?]

theorem modeEffect?_of_ne {u : ThreadId} (h : u ≠ t) (g : SystemState) (e : Effect) :
    modeEffect? t (g, u, e) = none := by
  cases e <;> simp [modeEffect?, h]

theorem callLog_own (t : ThreadId) (tr : SystemTrace) (g : SystemState) (e : ModeEffect) :
    callLog t (tr ++ [(g, t, .mode e)]) = record (callLog t tr) e := by
  simp only [callLog, callTrace, sinceLast_snoc, modeEffect?_self, Option.any_some, record]
  split <;> simp

theorem callLog_of_none {i : Item} (h : modeEffect? t i = none) :
    callLog t (tr ++ [i]) = callLog t tr := by
  simp [callLog, callTrace, h]

theorem eq_of_modeEffect? {i : Item} {e : ModeEffect} (h : modeEffect? t i = some e) :
    i.2 = (t, .mode e) := by
  obtain ⟨s, u, e'⟩ := i
  cases e' with
  | mode e' =>
    simp only [modeEffect?] at h
    split at h
    · rename_i hu
      rw [Option.some.inj h, show u = t from hu]
    · cases h
  | _ => cases h

theorem mem_callLog {e : ModeEffect} (h : e ∈ callLog t tr) :
    ∃ s, (s, t, .mode e) ∈ callTrace t tr := by
  obtain ⟨⟨s, l⟩, hi, hie⟩ := List.mem_filterMap.mp h
  obtain rfl : l = (t, .mode e) := eq_of_modeEffect? hie
  exact ⟨s, hi⟩

theorem mem_of_mem_callTrace {i : Item} (h : i ∈ callTrace t tr) : i ∈ tr :=
  (sinceLast_suffix _ _).subset h

theorem mem_callTrace_snoc {i j : Item} (h : (modeEffect? t i).any ModeEffect.isEntry = false)
    (hj : j ∈ callTrace t tr ∨ j = i) : j ∈ callTrace t (tr ++ [i]) := by
  simpa [callTrace, h] using hj

/-! ### The induction rule -/

/-- The place after a step that does not return. -/
def SetModeNext.pc? : SetModeNext → Option SetModePc
  | .go pc | .call pc _ => some pc
  | .ret _ => none

section
variable {e : Effect}

theorem SetModeStep.of_isEntry {e : ModeEffect} (h : SetModeStep cfg sh t new c pc e n)
    (he : e.isEntry) : pc = .enter := by
  cases h
  case enter => rfl
  case beforeHookGo run _ _ hrun | beforeHookCall run _ _ _ hrun | afterHookGo run _ _ hrun
    | afterHookCall run _ _ _ hrun =>
    obtain rfl | ⟨request, rfl | rfl⟩ := run.step_effect hrun <;> cases he
  all_goals cases he

theorem SetModeStep.isEntry_of_enter {e : ModeEffect} (h : SetModeStep cfg sh t new c .enter e n) :
    e.isEntry := by
  cases h
  rfl

theorem SetMode.callReturned_enter (result : CallResult) (h : m.pc = .enter) :
    (m.callReturned result).pc = .enter := by
  simp [SetMode.callReturned, h]

/-- Where the `set_mode` after a step of its thread comes from: it starts, a step of its own
takes it there, or it is where it was, up to the result of a hook's call. -/
theorem ThreadStep.mode_cases (h : ThreadStep cfg sh t th e th') (hm : th'.mode = some m) :
    (th.mode = none ∧ m.pc = .enter ∧ ∃ e', e = .control e') ∨
      (∃ pc c e' n, e = .mode e' ∧ th.call = none ∧ th.mode = some ⟨m.new, pc⟩ ∧
        SetModeStep cfg sh t m.new c pc e' n ∧ n.pc? = some m.pc) ∨
      ((∃ e', e = .call e') ∧ (th.mode = some m ∨
        ∃ m₀ result, th.mode = some m₀ ∧ m = m₀.callReturned result)) := by
  cases h with
  | @call request pc c e n hcall h =>
    refine .inr (.inr ⟨⟨e, rfl⟩, ?_⟩)
    cases n with
    | go pc => exact .inl hm
    | ret result =>
      simp only [Thread.withCall] at hm
      split at hm
      · rename_i m₀ hm₀
        exact .inr ⟨m₀, result, hm₀, (Option.some.inj hm).symm⟩
      · rename_i hm₀
        rw [hm₀] at hm
        cases hm
  | @mode new pc c e n hcall hmode h =>
    refine .inr (.inl ⟨pc, c, e, n, rfl, hcall, ?_⟩)
    cases n with
    | go pc' | call pc' request =>
      cases hm
      exact ⟨hmode, h, rfl⟩
    | ret ok => cases hm
  | @op op e n hcall hmode hop h =>
    refine .inl ⟨hmode, ?_, e, rfl⟩
    cases n with
    | setMode op' new =>
      cases hm
      rfl
    | go op' | call op' request =>
      simp only [Thread.withOp, hmode] at hm
      cases hm

theorem ThreadStep.mode_new (h : ThreadStep cfg sh t th e th') {m' : SetMode}
    (hm : th.mode = some m) (hm' : th'.mode = some m') : m'.new = m.new := by
  rcases h.mode_cases hm' with ⟨hnone, -⟩ | ⟨pc, c, e', n, -, -, hm₀, -⟩ |
    ⟨-, hm₀ | ⟨m₀, result, hm₀, rfl⟩⟩
  · rw [hm] at hnone
    cases hnone
  · rw [hm] at hm₀
    rw [Option.some.inj hm₀]
  · rw [hm] at hm₀
    rw [Option.some.inj hm₀]
  · rw [hm] at hm₀
    rw [Option.some.inj hm₀, SetMode.callReturned_new]

end

/-- The induction rule for a property of a running `set_mode` and its log, in runs whose steps
all meet the condition `C`: it holds where a call starts, each of its steps keeps it, and so
does the result of a hook's call. -/
theorem call_induct {g₀ : SystemState} (h0 : SystemStart g₀)
    {C : SystemState → ThreadId × Effect → Prop} {K : ThreadId → SetMode → List ModeEffect → Prop}
    (hstart : ∀ t new log, K t { new := new } log)
    (hmode : ∀ tr g t new c pc e n pc', SystemRun cfg g₀ tr g → (∀ i ∈ tr, C i.1 i.2) →
      (g.thread t).mode = some ⟨new, pc⟩ → (g.thread t).call = none →
      SetModeStep cfg g.shared t new c pc e n → n.pc? = some pc' → K t ⟨new, pc⟩ (callLog t tr) →
      K t ⟨new, pc'⟩ (record (callLog t tr) e))
    (hcall : ∀ t m result log, K t m log → K t (m.callReturned result) log) {g : SystemState}
    (h : SystemRun cfg g₀ tr g) (hC : ∀ i ∈ tr, C i.1 i.2) :
    ∀ t m, (g.thread t).mode = some m → K t m (callLog t tr) := by
  refine Run.induct_of (C := C)
    (J := fun tr g => ∀ t m, (g.thread t).mode = some m → K t m (callLog t tr)) ?_ ?_ h hC
  · intro t m hm
    rw [h0.idle] at hm
    cases hm
  · rintro tr g ⟨u, e⟩ g' hrun hCtr ih - hstep t m hm
    obtain ⟨th', hth, hts, -, hother⟩ := system_step hstep
    rcases eq_or_ne t u with rfl | htu
    · rw [hth] at hm
      rcases hts.mode_cases hm with ⟨-, hpc, e', rfl⟩ | ⟨pc, c, e', n, rfl, hcall₀, hm₀, hs, hn⟩ |
        ⟨⟨e', rfl⟩, hsame | ⟨m₀, result, hm₀, rfl⟩⟩
      · obtain ⟨new, pc⟩ := m
        obtain rfl : pc = .enter := hpc
        exact hstart t new _
      · rw [callLog_own]
        exact hmode tr g t m.new c pc e' n m.pc hrun hCtr hm₀ hcall₀ hs hn (ih t _ hm₀)
      · rw [callLog_of_none rfl]
        exact ih t m hsame
      · rw [callLog_of_none rfl]
        exact hcall _ _ _ _ (ih t m₀ hm₀)
    · rw [callLog_of_none (modeEffect?_of_ne (Ne.symm htu) g e)]
      rw [hother t htu] at hm
      exact ih t m hm

/-! ### The place of a call -/

/-- What the place of a `set_mode(new)` says, where the current mode is `current`. A call whose
target is FAULT meets no commit guard and never fails. -/
def SetModePc.Placed (current new : RuntimeMode) : SetModePc → Prop
  | .enter => True
  | .before shown _ | .beforeHook shown _ _ _ | .relock shown | .recheck shown =>
    shown ≠ new ∧ isValidTransition shown new
  | .guards prev rest =>
    prev = current ∧ prev ≠ new ∧ isValidTransition prev new ∧ (new = .fault → rest = [])
  | .release ok | .done ok => new = .fault → ok
  | .after _ _ | .inAfter _ _ _ | .afterHook _ _ _ _ => True

section
variable {e : ModeEffect}

theorem SetModePc.entered_placed (cfg : SystemConfig) (current mode new : RuntimeMode) :
    (SetModePc.entered cfg new current).Placed mode new := by
  unfold SetModePc.entered
  split
  · exact fun _ => rfl
  · rename_i hne
    split
    · rename_i hvalid
      exact ⟨hne, hvalid⟩
    · rename_i hinvalid
      rintro rfl
      exact absurd (isValidTransition_fault current) hinvalid

theorem SetModePc.answered_placed (rest : List BeforeCallback) (ok : Bool) (hne : shown ≠ new)
    (hvalid : isValidTransition shown new) :
    (SetModePc.answered new shown rest ok).Placed mode new := by
  unfold SetModePc.answered
  split
  · exact ⟨hne, hvalid⟩
  · rename_i hno
    intro hfault
    simp [hfault] at hno

theorem SetModePc.rechecked_placed (cfg : SystemConfig) (current : RuntimeMode)
    (hne : shown ≠ new) : (SetModePc.rechecked cfg new shown current).Placed current new := by
  unfold SetModePc.rechecked
  split
  · exact fun _ => rfl
  · rename_i hrebase
    split
    · rename_i hmoved
      exact fun h => absurd h hmoved.2
    · rename_i hsame
      split
      · rename_i hinvalid
        rintro rfl
        simp at hinvalid
      · rename_i hvalid
        refine ⟨rfl, ?_, by simpa using hvalid, fun h => by simp [h]⟩
        -- a mode that moved under a FAULT entry is not FAULT, else it is where it was shown
        rintro rfl
        by_cases hfault : current = .fault
        · exact hrebase ⟨Ne.symm hne, hfault, hfault⟩
        · exact hsame ⟨Ne.symm hne, hfault⟩

theorem SetModeStep.placed (h : SetModeStep cfg sh t new c pc e n)
    (hpc : pc.Placed sh.mode new) {pc' : SetModePc} (hn : n.pc? = some pc') :
    pc'.Placed (sh.applyMode t e).mode new := by
  cases h
  case ret => cases hn
  all_goals cases hn
  case enter => exact SetModePc.entered_placed _ _ _ _
  case beforeAnswer | beforeHookEnd => exact SetModePc.answered_placed _ _ hpc.1 hpc.2
  case recheck => exact SetModePc.rechecked_placed _ _ hpc.1
  case guardAccepts prev guard rest hjudge =>
    obtain ⟨hcur, hne, hvalid, hfault⟩ := hpc
    exact ⟨hcur, hne, hvalid, fun h => absurd (hfault h) (by simp)⟩
  case guardRejects prev guard rest hjudge => exact fun h => absurd (hpc.2.2.2 h) (by simp)
  case beforeEnd | beforeHooks | beforeHookGo | beforeHookCall | relock | release => exact hpc
  case commit | afterHooks | afterStart | afterFinish | afterHookGo | afterHookCall |
      afterHookEnd => trivial
  case afterEnd => exact fun _ => rfl

/-- How a call comes to the guards: by its second look at the mode, or past a guard that
accepted. -/
theorem SetModeStep.to_guards {prev : RuntimeMode} {rest : List CommitGuard}
    (h : SetModeStep cfg sh t new c pc e n) (hn : n.pc? = some (.guards prev rest)) :
    ((∃ shown, pc = .recheck shown) ∧ rest = if new = .fault then [] else cfg.callbacks.guards) ∨
      ∃ guard, pc = .guards prev (guard :: rest) ∧ guard.judge cfg sh new c = some true := by
  generalize hpc' : SetModePc.guards prev rest = pc' at hn
  cases h
  case ret => cases hn
  all_goals cases hn
  case enter => exact Bool.noConfusion (hpc' ▸ SetModePc.entered_locked _)
  case beforeAnswer | beforeHookEnd =>
    exact Bool.noConfusion (hpc' ▸ SetModePc.answered_locked _ _ _)
  case recheck shown =>
    refine .inl ⟨⟨shown, rfl⟩, ?_⟩
    unfold SetModePc.rechecked at hpc'
    repeat' split at hpc'
    all_goals cases hpc'
    · simp_all
    · simp_all
  case guardAccepts guard rest' hjudge =>
    obtain ⟨rfl, rfl⟩ := SetModePc.guards.inj hpc'
    exact .inr ⟨guard, rfl, hjudge⟩
  all_goals cases hpc'

theorem SetModePc.Placed.of_unlocked {mode' : RuntimeMode} (h : pc.Placed mode new)
    (hpc : pc.locked = false ∨ mode' = mode) : pc.Placed mode' new := by
  rcases hpc with hpc | rfl
  · cases pc with
    | guards => cases hpc
    | _ => exact h
  · exact h

theorem SetMode.callReturned_placed (result : CallResult) (h : m.pc.Placed mode m.new) :
    (m.callReturned result).pc.Placed mode (m.callReturned result).new := by
  unfold SetMode.callReturned
  split
  · rename_i hpc
    rw [hpc] at h
    exact h
  · trivial
  · exact h

/-- Only a commit writes the mode, and its thread is at the end of the guards. -/
theorem ThreadStep.mode_eq {e : Effect} (h : ThreadStep cfg sh t th e th') :
    ((sh.apply t e).mode = sh.mode ∧ ∀ prev new, e ≠ .mode (.commit prev new)) ∨
      ∃ prev new, e = .mode (.commit prev new) ∧ th.call = none ∧
        th.mode = some ⟨new, .guards prev []⟩ ∧
        th' = th.withMode new (.go (.after prev cfg.callbacks.after)) := by
  cases h with
  | call hcall h | op hcall hmode hop h => exact .inl ⟨by simp [Shared.apply], by simp⟩
  | @mode new pc c e n hcall hmode h =>
    by_cases hcommit : ∃ prev dst, e = .commit prev dst
    · obtain ⟨prev, dst, rfl⟩ := hcommit
      obtain ⟨rfl, rfl, rfl⟩ := h.of_commit
      exact .inr ⟨prev, dst, rfl, hcall, hmode, rfl⟩
    · refine .inl ⟨?_, fun prev dst he => hcommit ⟨prev, dst, Effect.mode.inj he⟩⟩
      cases e with
      | commit prev dst => exact absurd ⟨prev, dst, rfl⟩ hcommit
      | afterFinished =>
        simp only [Shared.apply, Shared.applyMode]
        split <;> rfl
      | _ => rfl

end

theorem placed_run {g₀ g : SystemState} (h0 : SystemStart g₀) (h : SystemRun cfg g₀ tr g) :
    ∀ t m, (g.thread t).mode = some m → m.pc.Placed g.shared.mode m.new := by
  refine Run.induct
    (J := fun _ g => ∀ t m, (g.thread t).mode = some m → m.pc.Placed g.shared.mode m.new) ?_ ?_ h
  · intro t m hm
    rw [h0.idle] at hm
    cases hm
  · rintro tr g ⟨u, e⟩ g' hrun ih hstep t m hm
    obtain ⟨th', hth, hts, hsh, hother⟩ := system_step hstep
    rcases eq_or_ne t u with rfl | htu
    · rw [hth] at hm
      rw [hsh]
      rcases hts.mode_cases hm with ⟨-, hpc, -⟩ | ⟨pc, c, e', n, rfl, -, hm₀, hs, hn⟩ |
        ⟨⟨e', rfl⟩, hsame | ⟨m₀, result, hm₀, rfl⟩⟩
      · rw [hpc]
        trivial
      · exact hs.placed (ih t _ hm₀) hn
      · simpa [Shared.apply] using ih t m hsame
      · simpa [Shared.apply] using SetMode.callReturned_placed result (ih t m₀ hm₀)
    · rw [hother t htu] at hm
      refine (ih t m hm).of_unlocked ?_
      rw [hsh]
      rcases hts.mode_eq with ⟨hmode, -⟩ | ⟨prev, new, -, -, hu, -⟩
      · exact .inr hmode
      · -- the committing thread holds the lock, so this one is outside
        refine .inl (Bool.eq_false_of_not_eq_true fun hlocked => htu ?_)
        exact Machine.lock_excl (modeLock_run h0 hrun)
          (by simpa [Thread.holdsMode, hm] using hlocked)
          (by simp [Thread.holdsMode, hu, SetModePc.locked])

/-! ### A settled FAULT entry -/

/-- Places of a `set_mode(FAULT)` whose outcome is settled: it has committed, or has found the
mode to be FAULT. -/
def settledPc : SetModePc → Bool
  | .release _ | .after _ _ | .inAfter _ _ _ | .afterHook _ _ _ _ | .done _ => true
  | _ => false

section
variable {pc' : SetModePc} {e : ModeEffect} {current : RuntimeMode}

theorem settledPc_entered
    (h : settledPc (SetModePc.entered cfg .fault current)) : current = .fault := by
  unfold SetModePc.entered at h
  split at h
  · assumption
  · simp [settledPc] at h

theorem settledPc_rechecked
    (h : settledPc (SetModePc.rechecked cfg .fault shown current)) : current = .fault := by
  unfold SetModePc.rechecked at h
  split at h
  · rename_i hc
    exact hc.2.2
  · simp [settledPc] at h

/-- The step that settles a `set_mode(FAULT)` leaves the mode at FAULT, with the mode lock free
or held by this very call. -/
theorem settledPc_step (h : SetModeStep cfg sh t .fault c pc e n)
    (hplaced : pc.Placed sh.mode .fault) (hpc : settledPc pc = false)
    (hn : n.pc? = some pc') (hpc' : settledPc pc') :
    (sh.applyMode t e).mode = .fault ∧ ((sh.applyMode t e).modeLock = none ∨
      pc.locked ∧ (sh.applyMode t e).modeLock = sh.modeLock) := by
  cases h
  case ret => cases hn
  all_goals cases hn
  case enter hfree => exact ⟨settledPc_entered hpc', .inl hfree⟩
  case recheck => exact ⟨settledPc_rechecked hpc', .inr ⟨rfl, rfl⟩⟩
  case commit => exact ⟨rfl, .inl rfl⟩
  case guardRejects => exact absurd (hplaced.2.2.2 rfl) (by simp)
  case beforeAnswer | beforeHookEnd => simp [SetModePc.answered, settledPc] at hpc'
  all_goals first | exact Bool.noConfusion hpc' | exact Bool.noConfusion hpc

end

theorem settledPc_callReturned (m : SetMode) (result : CallResult) :
    settledPc (m.callReturned result).pc = settledPc m.pc := by
  unfold SetMode.callReturned
  split <;> rename_i h <;> simp [h, settledPc]

/-- The thread's `set_mode(FAULT)` is settled. -/
def settled (th : Thread) : Bool := th.mode.any fun m => m.new = .fault && settledPc m.pc

/-! ### AUTO past a guard -/

/-- AUTO, or a `set_mode(AUTO)` that the guard cannot stop any more. -/
def AutoPast (guard : CommitGuard) (g : SystemState) : Prop :=
  g.shared.mode = .auto ∨ ∃ u prev rest,
    (g.thread u).mode = some ⟨.auto, .guards prev rest⟩ ∧ guard ∉ rest

section
variable {g g' : SystemState} {e : Effect} {guard : CommitGuard}

theorem AutoPast.not_of_free (hlock : LockInv Shared.modeLock Thread.holdsMode g)
    (hfree : g.shared.modeLock = none) (hmode : g.shared.mode ≠ .auto) : ¬ AutoPast guard g := by
  rintro (hauto | ⟨u, prev, rest, hu, -⟩)
  · exact hmode hauto
  · have hheld := (hlock u).mp (by simp [Thread.holdsMode, hu, SetModePc.locked])
    rw [hfree] at hheld
    cases hheld

/-- After the step that settles a `set_mode(FAULT)`, nothing is in AUTO past a guard: the mode is
FAULT, and no other thread is inside the lock. -/
theorem AutoPast.not_of_settled (hplaced : ∀ t m, (g.thread t).mode = some m →
      m.pc.Placed g.shared.mode m.new) (hlock : LockInv Shared.modeLock Thread.holdsMode g)
    (hlock' : LockInv Shared.modeLock Thread.holdsMode g')
    (hstep : (system cfg).lts.step g (t, e) g')
    (hno : settled (g.thread t) = false) (hyes : settled (g'.thread t)) : ¬ AutoPast guard g' := by
  obtain ⟨th', hth, hts, hsh, -⟩ := system_step hstep
  obtain ⟨⟨new, pc'⟩, hm, hset⟩ := Option.any_eq_true _ _ |>.mp hyes
  simp only [Bool.and_eq_true, decide_eq_true_eq] at hset
  obtain ⟨rfl, hpc'⟩ := hset
  rcases hts.mode_cases (hth ▸ hm) with ⟨-, rfl, -⟩ | ⟨pc, c, e', n, rfl, -, hm₀, hs, hn⟩ |
      ⟨-, hsame | ⟨m₀, result, hm₀, heq⟩⟩
  · -- the call has only begun
    cases hpc'
  · -- its own step settles it: it leaves the mode FAULT, and the lock to nobody else
    have hpc : settledPc pc = false := by simpa [settled, hm₀] using hno
    obtain ⟨hmode, howner⟩ := settledPc_step hs (hplaced t _ hm₀) hpc hn hpc'
    have howner' : ∀ u, g'.shared.modeLock = some u → u = t := by
      intro u hu
      rw [hsh] at hu
      rcases howner with hfree | ⟨hlocked, hsame⟩
      · rw [show g.shared.apply t (.mode e') = g.shared.applyMode t e' from rfl, hfree] at hu
        cases hu
      · have ht := (hlock t).mp (by simp [Thread.holdsMode, hm₀, hlocked])
        rw [show g.shared.apply t (.mode e') = g.shared.applyMode t e' from rfl, hsame, ht] at hu
        exact (Option.some.inj hu).symm
    rintro (hauto | ⟨u, prev, rest, hu, -⟩)
    · rw [hsh] at hauto
      exact absurd (hmode.symm.trans hauto) (by decide)
    · obtain rfl := howner' u ((hlock' u).mp (by simp [Thread.holdsMode, hu, SetModePc.locked]))
      rw [hm] at hu
      cases hu
  -- the steps of a hook's call, its return among them, do not settle the `set_mode`
  · simp [settled, hsame, hpc'] at hno
  · have hpc₀ := settledPc_callReturned m₀ result
    have hnew : m₀.new = .fault := by rw [← SetMode.callReturned_new m₀ result, ← heq]
    rw [← heq, hpc'] at hpc₀
    simp [settled, hm₀, ← hpc₀, hnew] at hno

/-- While the guard refuses AUTO, no step brings AUTO past it. -/
theorem AutoPast.back (hgate : guard ∈ cfg.callbacks.guards)
    (hrefuses : ∀ c, guard.judge cfg g.shared .auto c ≠ some true)
    (hstep : (system cfg).lts.step g (t, e) g') (h : AutoPast guard g') : AutoPast guard g := by
  obtain ⟨th', hth, hts, hsh, hother⟩ := system_step hstep
  rcases h with hauto | ⟨u, prev, rest, hu, hrest⟩
  · rw [hsh] at hauto
    rcases hts.mode_eq with ⟨hsame, -⟩ | ⟨prev, new, rfl, -, hm, -⟩
    · exact .inl (hsame ▸ hauto)
    · -- a commit of AUTO has no guard left to pass
      obtain rfl : new = .auto := hauto
      exact .inr ⟨t, prev, [], hm, by simp⟩
  · rcases eq_or_ne u t with rfl | hut
    · rcases hts.mode_cases (hth ▸ hu) with ⟨-, hpc, -⟩ | ⟨pc, c, e', n, rfl, -, hm₀, hs, hn⟩ |
        ⟨-, hsame | ⟨m₀, result, hm₀, heq⟩⟩
      · cases hpc
      · rcases hs.to_guards hn with ⟨-, hguards⟩ | ⟨guard', rfl, hjudge⟩
        · -- all guards are still ahead, this one among them
          obtain rfl : rest = cfg.callbacks.guards := by simpa using hguards
          exact absurd hgate hrest
        · refine .inr ⟨u, prev, guard' :: rest, hm₀, fun hmem => ?_⟩
          rcases List.mem_cons.mp hmem with rfl | hmem
          · exact hrefuses c hjudge
          · exact hrest hmem
      · exact .inr ⟨u, prev, rest, hsame, hrest⟩
      · have hlocked : m₀.pc.locked := by
          rw [← SetMode.callReturned_locked m₀ result, ← heq]
          rfl
        rw [SetMode.callReturned_of_locked result hlocked] at heq
        exact .inr ⟨u, prev, rest, heq ▸ hm₀, hrest⟩
    · rw [hother u hut] at hu
      exact .inr ⟨u, prev, rest, hu, hrest⟩

end

/-! ### The after-callbacks that are left -/

/-- The callbacks that a committed `set_mode` has still to finish. -/
def afterRest? : SetModePc → Option (List AfterCallback)
  | .after _ rest => some rest
  | .inAfter _ callback rest => some (callback :: rest)
  | .afterHook _ hooks _ rest => some (.hooks hooks :: rest)
  | _ => none

/-- The transition that a thread still has to finish: its target, and the after-callbacks it has
not finished. -/
def afterWork (th : Thread) : Option (RuntimeMode × List AfterCallback) :=
  th.mode.bind fun m => (afterRest? m.pc).map (m.new, ·)

section
variable {e : Effect}

theorem afterRest?_entered (current : RuntimeMode) :
    afterRest? (SetModePc.entered cfg new current) = none := by
  unfold SetModePc.entered
  repeat' split
  all_goals rfl

theorem afterRest?_answered (shown : RuntimeMode) (rest : List BeforeCallback) (ok : Bool) :
    afterRest? (SetModePc.answered new shown rest ok) = none := by
  unfold SetModePc.answered
  split <;> rfl

theorem afterRest?_rechecked (shown current : RuntimeMode) :
    afterRest? (SetModePc.rechecked cfg new shown current) = none := by
  unfold SetModePc.rechecked
  repeat' split
  all_goals rfl

theorem afterRest?_callReturned (m : SetMode) (result : CallResult) :
    afterRest? (m.callReturned result).pc = afterRest? m.pc := by
  unfold SetMode.callReturned
  split <;> rename_i h <;> simp [h, afterRest?]

/-- What a step of a `set_mode` does to the after-callbacks that are left: it commits and all of
them are, it finishes the first one, it finds none left, or it leaves them. -/
theorem SetModeStep.afterRest?_cases {pc' : SetModePc} {e : ModeEffect}
    (h : SetModeStep cfg sh t new c pc e n) (hn : n.pc? = some pc') :
    (∃ prev, e = .commit prev new ∧ afterRest? pc' = some cfg.callbacks.after) ∨
      (∃ callback prev rest, e = .afterFinished callback prev new ∧
        afterRest? pc = some (callback :: rest) ∧ afterRest? pc' = some rest) ∨
      (e = .silent ∧ afterRest? pc = some [] ∧ afterRest? pc' = none) ∨
      (afterRest? pc' = afterRest? pc ∧ (∀ prev dst, e ≠ .commit prev dst) ∧
        ∀ callback prev dst, e ≠ .afterFinished callback prev dst) := by
  cases h
  case ret => cases hn
  all_goals cases hn
  case commit prev => exact .inl ⟨prev, rfl, rfl⟩
  case afterFinish prev callback rest => exact .inr (.inl ⟨callback, prev, rest, rfl, rfl, rfl⟩)
  case afterHookEnd prev hooks run rest e ok hrun =>
    exact .inr (.inl ⟨.hooks hooks, prev, rest, rfl, rfl, rfl⟩)
  case afterEnd => exact .inr (.inr (.inl ⟨rfl, rfl, rfl⟩))
  all_goals refine .inr (.inr (.inr ?_))
  case enter => exact ⟨afterRest?_entered _, by simp, by simp⟩
  case beforeAnswer | beforeHookEnd => exact ⟨afterRest?_answered _ _ _, by simp, by simp⟩
  case recheck => exact ⟨afterRest?_rechecked _ _, by simp, by simp⟩
  case beforeHookGo hrun | beforeHookCall hrun | afterHookGo hrun | afterHookCall hrun =>
    refine ⟨rfl, ?_⟩
    obtain rfl | ⟨request, rfl | rfl⟩ := HookRun.step_effect hrun <;> exact ⟨by simp, by simp⟩
  all_goals exact ⟨rfl, by simp, by simp⟩

theorem ThreadStep.afterWork_cases (h : ThreadStep cfg sh t th e th') :
    (∃ prev new, e = .mode (.commit prev new) ∧ afterWork th' = some (new, cfg.callbacks.after)) ∨
      (∃ callback prev new rest, e = .mode (.afterFinished callback prev new) ∧
        afterWork th = some (new, callback :: rest) ∧ afterWork th' = some (new, rest)) ∨
      (∃ new, e = .mode .silent ∧ afterWork th = some (new, []) ∧ afterWork th' = none) ∨
      (afterWork th' = afterWork th ∧ (∀ prev dst, e ≠ .mode (.commit prev dst)) ∧
        ∀ callback prev dst, e ≠ .mode (.afterFinished callback prev dst)) := by
  cases h with
  | @call request pc c e n hcall h =>
    refine .inr (.inr (.inr ⟨?_, by simp, by simp⟩))
    cases n with
    | go pc => rfl
    | ret result =>
      simp only [Thread.withCall]
      split
      · rename_i m hm
        simp [afterWork, hm, afterRest?_callReturned, SetMode.callReturned_new]
      · rename_i hm
        simp [afterWork, hm]
  | @mode new pc c e n hcall hmode h =>
    cases hn : n.pc? with
    | some pc' =>
      have hwork : afterWork th = (afterRest? pc).map (new, ·) := by simp [afterWork, hmode]
      have hwork' : afterWork (th.withMode new n) = (afterRest? pc').map (new, ·) := by
        cases n with
        | go pc'' | call pc'' request =>
          cases hn
          rfl
        | ret ok => cases hn
      rw [hwork, hwork']
      rcases SetModeStep.afterRest?_cases h hn with ⟨prev, rfl, hrest⟩ |
        ⟨callback, prev, rest, rfl, hrest, hrest'⟩ | ⟨rfl, hrest, hrest'⟩ | ⟨hsame, hc, hf⟩
      · exact .inl ⟨prev, new, rfl, by simp [hrest]⟩
      · exact .inr (.inl ⟨callback, prev, new, rest, rfl, by simp [hrest], by simp [hrest']⟩)
      · exact .inr (.inr (.inl ⟨new, rfl, by simp [hrest], by simp [hrest']⟩))
      · refine .inr (.inr (.inr ⟨by rw [hsame], ?_, ?_⟩))
        · exact fun prev dst he => hc prev dst (Effect.mode.inj he)
        · exact fun callback prev dst he => hf callback prev dst (Effect.mode.inj he)
    | none =>
      -- the call returns
      cases h
      case ret ok =>
        exact .inr (.inr (.inr ⟨by simp [afterWork, Thread.withMode, hmode, afterRest?],
          by simp, by simp⟩))
      all_goals cases hn
  | @op op e n hcall hmode hop h =>
    refine .inr (.inr (.inr ⟨?_, by simp, by simp⟩))
    cases n <;> simp [afterWork, Thread.withOp, hmode, afterRest?]

end

end Anolis.Runtime
