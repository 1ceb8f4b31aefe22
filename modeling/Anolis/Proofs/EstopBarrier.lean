import Anolis.Runtime.System

/-!
# What is still dispatched after an e-stop

`execute_call` checks the latch twice, before and after it takes its provider's lock, and the
latch is a flag that another thread sets at any moment. So a call that passed its second check
just before can still be dispatched. `estop_barrier` says that this is all: while the latch
stays engaged, at most one such call is dispatched to a provider, one that was already past
its second check under that provider's lock; and none is after another call took that lock.

The calls the latch lets through on purpose are exempt (`exempt`): the ladder's, and under rung
none the FAULT hooks of the trigger's own `set_mode(FAULT)`. `Admission` is the invariant
behind the second kind: the admitted thread is inside that entry, or has left it and is about
to withdraw the admission.

A call past its second check is the token of the counting rule (`Token`). Under the latch no
step makes one (`token_back`), a dispatch uses one (`token_of_barred`), and the provider's lock
makes it unique (`no_token_after`).
-/

namespace Anolis.Proofs.EstopBarrier

open Anolis.Runtime Control Lib Lib.Machine Registry

variable {cfg : SystemConfig} {t : ThreadId} {e : Effect}

/-- The thread is inside the `set_mode(FAULT)` of its own trigger, whose planned rung is
none. -/
def inFaultEntry (th : Thread) : Bool :=
  (th.op matches .trigger (.fault .none)) && th.mode.any fun m => m.new = .fault

/-- The latch lets the request through on purpose. -/
def exempt (th : Thread) (request : CallRequest) : Bool :=
  request.safeState || (request.faultEntryHook && inFaultEntry th)

/-- A step that dispatches an actuating request to the provider `p` that is not exempt: the
thread, the target and the request. -/
def barred (p : String) (i : SystemState × ThreadId × Effect) :
    Option (ThreadId × Target × CallRequest) :=
  match i.2.2 with
  | .call (.dispatch target request _) =>
    if target.providerId = p && isActuating target.spec &&
        !exempt (i.1.thread i.2.1) request then
      some (i.2.1, target, request)
    else none
  | _ => none

/-- Is the step the commit of a `clear`. -/
def isUnlatch : Effect → Bool
  | .control .unlatch => true
  | _ => false

/-! ### The admission -/

/-- The thread that the latch admits is inside its FAULT entry, or has just left it. -/
def Admission (g : SystemState) : Prop :=
  ∀ t, g.shared.admitted = some t → inFaultEntry (g.thread t) ∨
    ((g.thread t).op = .trigger .withdraw ∧ (g.thread t).mode = none ∧ (g.thread t).call = none)

section
variable {sh : Shared} {th th' : Thread}

theorem inFaultEntry_step (h : ThreadStep cfg sh t th e th') (hin : inFaultEntry th) :
    inFaultEntry th' ∨ (th'.op = .trigger .withdraw ∧ th'.mode = none ∧ th'.call = none) := by
  obtain ⟨hop, hmode⟩ := Bool.and_eq_true_iff.mp hin
  obtain ⟨m, hm, hnew⟩ := Option.any_eq_true _ _ |>.mp hmode
  cases h with
  | @call request pc c e n hcall h =>
    left
    -- the call is one of the entry's hooks; its return goes to the `set_mode`
    cases n with
    | go pc => exact hin
    | ret result => simpa [Thread.withCall, inFaultEntry, hm, hop] using hnew
  | @mode new pc c e n hcall hmode' h =>
    obtain rfl : ⟨new, pc⟩ = m := Option.some.inj (hmode'.symm.trans hm)
    cases n with
    | go pc | call pc request =>
      exact .inl (by simpa [Thread.withMode, inFaultEntry, hop] using hnew)
    | ret ok =>
      refine .inr ⟨?_, rfl, hcall⟩
      simp only [Thread.withMode]
      split at hop
      · rename_i hop'
        rw [hop']
        rfl
      · cases hop
  | op hcall hmode' hop' h => simp [hm] at hmode'

theorem inFaultEntry_of_admitHooks (h : ThreadStep cfg sh t th (.control .admitHooks) th') :
    inFaultEntry th' := by
  cases h with
  | op hcall hmode hop h =>
    cases h
    rfl

theorem admitted_apply {u : ThreadId} (h : (sh.apply t e).admitted = some u) :
    sh.admitted = some u ∨ (u = t ∧ e = .control .admitHooks) := by
  cases e with
  | call e | mode e => exact .inl (by simpa [Shared.apply] using h)
  | control e =>
    cases e with
    | admitHooks => exact .inr ⟨(Option.some.inj h).symm, rfl⟩
    | withdraw => cases h
    | _ => exact .inl h

end

theorem admission_step {cfg : SystemConfig} {g g' : SystemState} {u : ThreadId} {e : Effect}
    (hg : Admission g) (hstep : (system cfg).lts.step g (u, e) g') : Admission g' := by
  obtain ⟨th', hth, h, hsh, hother⟩ := system_step hstep
  intro t ht
  rw [hsh] at ht
  rcases admitted_apply ht with hold | ⟨rfl, rfl⟩
  · by_cases htu : t = u
    · subst htu
      rw [hth]
      rcases hg _ hold with hin | ⟨hop, hmode, hcall⟩
      · exact inFaultEntry_step h hin
      · -- the next step of that thread withdraws the admission
        exfalso
        cases h with
        | call hcall' => simp [hcall] at hcall'
        | mode _ hmode' => simp [hmode] at hmode'
        | op _ _ hop' h =>
          rw [hop] at hop'
          subst hop'
          cases h
          cases ht
    · rw [hother t htu]
      exact hg t hold
  · rw [hth]
    exact .inl (inFaultEntry_of_admitHooks h)

theorem admission_run {cfg : SystemConfig} {g₀ g : SystemState} {tr : SystemTrace}
    (h0 : SystemStart g₀) (h : SystemRun cfg g₀ tr g) : Admission g :=
  Run.induct (J := fun _ g => Admission g) (fun t ht => by rw [h0.admitted] at ht; cases ht)
    (fun _ _ _ _ _ hg hs => admission_step hg hs) h

/-! ### The token -/

/-- The thread's call is past its second latch check, and is an actuating one to the provider
`p` that is not exempt. -/
def Token (p : String) (a : ThreadId × Target × CallRequest) (g : SystemState) : Prop :=
  ∃ pc, (g.thread a.1).call = some ⟨a.2.2, pc⟩ ∧ pc.armed = some a.2.1 ∧
    a.2.1.providerId = p ∧ isActuating a.2.1.spec ∧ exempt (g.thread a.1) a.2.2 = false

/-- What holds while the latch is engaged: the latch, the admission, and the provider's lock. -/
structure Engaged (p : String) (g : SystemState) : Prop where
  latched : g.shared.latched
  admission : Admission g
  lock : LockInv (fun sh => sh.providerLock p) (Thread.holdsProvider p) g

section
variable {p : String} {g g' : SystemState}

theorem latched_step (hlatched : g.shared.latched) (he : isUnlatch e = false)
    (hstep : (system cfg).lts.step g (t, e) g') : g'.shared.latched := by
  obtain ⟨-, -, -, hsh, -⟩ := system_step hstep
  rw [hsh]
  exact Shared.latched_apply (fun h => by simp [h, isUnlatch] at he) hlatched

theorem Engaged.step (hg : Engaged p g) (he : isUnlatch e = false)
    (hstep : (system cfg).lts.step g (t, e) g') : Engaged p g' where
  latched := latched_step hg.latched he hstep
  admission := admission_step hg.admission hstep
  lock := Machine.lock_step
    (fun _ _ _ _ _ _ hn => (threadStep_of_next hn).providerLock p) hg.lock hstep

variable {a : ThreadId × Target × CallRequest}

theorem barred_eq_some (h : barred p (g, t, e) = some a) :
    ∃ args, e = .call (.dispatch a.2.1 a.2.2 args) ∧ a.1 = t ∧ a.2.1.providerId = p ∧
      isActuating a.2.1.spec ∧ exempt (g.thread t) a.2.2 = false := by
  unfold barred at h
  split at h
  · rename_i target request args he
    split at h
    · rename_i hcond
      cases h
      simp only [Bool.and_eq_true, decide_eq_true_eq, Bool.not_eq_true'] at hcond
      exact ⟨args, he, rfl, hcond.1.1, hcond.1.2, hcond.2⟩
    · cases h
  · cases h

/-- A barred dispatch needs the token it uses, and its thread is armed no longer after it. -/
theorem token_of_barred
    (hstep : (system cfg).lts.step g (t, e) g') (h : barred p (g, t, e) = some a) :
    Token p a g ∧ ∀ request pc, (g'.thread t).call = some ⟨request, pc⟩ → pc.armed = none := by
  obtain ⟨args, rfl, rfl, hp, hact, hex⟩ := barred_eq_some h
  obtain ⟨th', hth, hts, -, -⟩ := system_step hstep
  cases hts with
  | @call request pc c e n hcall hnext =>
    obtain ⟨rfl, harmed, hn⟩ := callNext_dispatch hnext
    refine ⟨⟨pc, hcall, harmed, hp, hact, hex⟩, fun request' pc' hcall' => ?_⟩
    rw [hth] at hcall'
    cases n with
    | go pc'' =>
      cases hcall'
      exact hn
    | ret result =>
      simp only [Thread.withCall] at hcall'
      split at hcall' <;> cases hcall'

/-- A call that is past its second check after a step was so before, or passed it in this very
step; and its thread stays where it was around the call. -/
theorem armed_back {sh : Shared} {th th' : Thread} {request : CallRequest} {pc : CallPc}
    {target : Target} (h : ThreadStep cfg sh t th e th') (hcall : th'.call = some ⟨request, pc⟩)
    (harmed : pc.armed = some target) :
    th'.op = th.op ∧ th'.mode = th.mode ∧ ∃ pc₀, th.call = some ⟨request, pc₀⟩ ∧
      (pc₀.armed = some target ∨
        latchHolds request target.spec sh.latched (sh.admits t) = false) := by
  cases h with
  | @call request₀ pc₀ c e n hcall₀ hnext =>
    cases n with
    | go pc' =>
      cases hcall
      exact ⟨rfl, rfl, pc₀, hcall₀, callNext_armed hnext harmed⟩
    | ret result =>
      simp only [Thread.withCall] at hcall
      split at hcall <;> cases hcall
  | @mode new pc₀ c e n hcall₀ hmode h =>
    -- a call that starts here is at its first gate
    cases n with
    | call pc' request' =>
      cases hcall
      cases harmed
    | _ => simp [Thread.withMode, hcall₀] at hcall
  | @op op e n hcall₀ hmode hop h =>
    cases n with
    | call op' request' =>
      cases hcall
      cases harmed
    | _ => simp [Thread.withOp, hcall₀] at hcall

/-- While the latch is engaged, a token was there before the step: the second check lets only
exempt calls through. -/
theorem token_back (hg : Engaged p g)
    (hstep : (system cfg).lts.step g (t, e) g') (h : Token p a g') : Token p a g := by
  obtain ⟨th', hth, hts, -, hother⟩ := system_step hstep
  obtain ⟨u, target, request⟩ := a
  obtain ⟨pc, hcall, harmed, hp, hact, hex⟩ := h
  dsimp only at hcall harmed hp hact hex
  by_cases hu : u = t
  · subst hu
    rw [hth] at hcall hex
    obtain ⟨hop, hmode, pc₀, hcall₀, hbefore⟩ := armed_back hts hcall harmed
    -- around the call the thread has not moved, so it is exempt now if it was before
    have hex₀ : exempt (g.thread u) request = false := by
      rw [← hex]
      simp only [exempt, inFaultEntry, hop, hmode]
    rcases hbefore with hpc₀ | hpass
    · exact ⟨pc₀, hcall₀, hpc₀, hp, hact, hex₀⟩
    · -- the check passed under the engaged latch, so the call is exempt
      exfalso
      rw [hg.latched] at hpass
      have hsafe : request.safeState = false := by
        cases hs : request.safeState with
        | false => rfl
        | true => simp [exempt, hs] at hex₀
      -- an admitted thread is inside its FAULT entry, so a hook's call of its own is exempt
      have hhook : (request.faultEntryHook && g.shared.admits u) = false := by
        by_contra hne
        rw [Bool.not_eq_false, Bool.and_eq_true] at hne
        have hadm : g.shared.admitted = some u := of_decide_eq_true hne.2
        rcases hg.admission u hadm with hin | ⟨-, -, hnone⟩
        · simp [exempt, hne.1, hin] at hex₀
        · rw [hcall₀] at hnone
          cases hnone
      rw [latchHolds_of_actuating hact hsafe hhook] at hpass
      cases hpass
  · rw [hother u hu] at hcall hex
    exact ⟨pc, hcall, harmed, hp, hact, hex⟩

theorem Token.holds (h : Token p a g) : (g.thread a.1).holdsProvider p := by
  obtain ⟨pc, hcall, harmed, rfl, -, -⟩ := h
  simp [Thread.holdsProvider, hcall, CallPc.held_of_armed harmed]

/-- A barred dispatch leaves no token: its own is used, and its thread held the lock. -/
theorem no_token_after {b : ThreadId × Target × CallRequest} (hg : Engaged p g)
    (hstep : (system cfg).lts.step g (t, e) g') (h : barred p (g, t, e) = some a) :
    ¬ Token p b g' := by
  intro hb
  obtain ⟨htok, hnone⟩ := token_of_barred hstep h
  obtain ⟨-, -, hat, -⟩ := barred_eq_some h
  have hb₀ := token_back hg hstep hb
  -- both are inside the provider's lock
  have hab : a.1 = b.1 := Machine.lock_excl hg.lock htok.holds hb₀.holds
  obtain ⟨pc, hcall, harmed, -⟩ := hb
  rw [← hab, hat] at hcall
  rw [hnone _ _ hcall] at harmed
  cases harmed

theorem no_token_at_lock (hg : Engaged p g)
    (hstep : (system cfg).lts.step g (t, .call (.lockProvider p)) g') : ¬ Token p a g := by
  intro ha
  obtain ⟨th', -, hts, -, -⟩ := system_step hstep
  have howner : g.shared.providerLock p = some a.1 := (hg.lock a.1).mp ha.holds
  cases hts with
  | call hcall hnext =>
    rw [callNext_lockProvider hnext] at howner
    cases howner

end

/-- After an e-stop, from any reachable state with the latch engaged and until a `clear`
commits:

- at most one actuating call that is not exempt is dispatched to a provider, and it is one that
  in that state had already passed its second latch check under the provider's lock;
- once a later call has taken the provider's lock, none is. -/
theorem estop_barrier (cfg : SystemConfig) {g₀ g g' : SystemState} {tr₀ tr : SystemTrace}
    (h0 : SystemStart g₀) (hrun₀ : SystemRun cfg g₀ tr₀ g) (hlatched : g.shared.latched)
    (hrun : SystemRun cfg g tr g') (hclear : ∀ i ∈ tr, isUnlatch i.2.2 = false) (p : String) :
    ((tr.countP fun i => (barred p i).isSome) ≤ 1 ∧
      ∀ i ∈ tr, ∀ a, barred p i = some a → ∃ pc, (g.thread a.1).call = some ⟨a.2.2, pc⟩ ∧
        pc.armed = some a.2.1 ∧ pc.held = some p) ∧
    ∀ tr₁ i tr₂, tr = tr₁ ++ i :: tr₂ → i.2.2 = .call (.lockProvider p) →
      ∀ j ∈ tr₂, barred p j = none := by
  have hengaged : Engaged p g := ⟨hlatched, admission_run h0 hrun₀, providerLock_run h0 hrun₀ p⟩
  have hinv : ∀ s l s', Engaged p s → isUnlatch l.2 = false → (system cfg).lts.step s l s' →
      Engaged p s' := fun s l s' hs hl hstep => hs.step hl hstep
  refine ⟨?_, ?_⟩
  · obtain ⟨hcount, hstart⟩ := Run.at_most_once (I := Engaged p)
      (L := fun l => isUnlatch l.2 = false) (E := barred p) hinv
      (fun s l s' a _ hstep hE => (token_of_barred hstep hE).1)
      (fun s l s' a hs _ hstep ha => token_back hs hstep ha)
      (fun s l s' a b hs hstep hE => no_token_after hs hstep hE) hrun hclear hengaged
    refine ⟨hcount, fun i hi a ha => ?_⟩
    obtain ⟨pc, hcall, harmed, hp, -⟩ := hstart i hi a ha
    exact ⟨pc, hcall, harmed, by rw [CallPc.held_of_armed harmed, hp]⟩
  · rintro tr₁ ⟨s, t, e⟩ tr₂ rfl he j hj
    dsimp only at he
    subst he
    obtain ⟨hrun₁, s₁, hstep, hrun₂⟩ := hrun.at_step
    have hs : Engaged p s := (Run.keeps hinv hrun₁
      (fun i hi => hclear i (List.mem_append_left _ hi)) hengaged).1
    -- no token when the lock is taken, so none from then on
    have hkeeps := Run.keeps (P := fun s => Engaged p s ∧ ∀ a, ¬ Token p a s)
      (L := fun l => isUnlatch l.2 = false)
      (fun s l s' hs hl hstep =>
        ⟨hs.1.step hl hstep, fun a ha => hs.2 a (token_back hs.1 hstep ha)⟩)
      hrun₂ (fun i hi => hclear i (List.mem_append_right _ (List.mem_cons_of_mem _ hi)))
      ⟨hs.step rfl hstep, fun a ha => no_token_at_lock hs hstep (token_back hs hstep ha)⟩
    cases hb : barred p j with
    | none => rfl
    | some a =>
      obtain ⟨-, -, s₂, -, -, hstep', -⟩ := hrun₂.of_mem hj
      exact absurd (token_of_barred hstep' hb).1 ((hkeeps.2 j hj).2 a)

/-! ### A call that an e-stop comes too late for -/

/-- A runtime with one device, `sim0/valve`, that can be opened and closed. -/
def valveWorld (mode : Automation.RuntimeMode) : SystemState where
  shared :=
    { mode := mode
      registry := ⟨[{ providerId := "sim0", deviceId := "valve",
                      functionsById := { entries := [
                        ("close",
                          { functionId := 2, functionName := "close", category := .actuate }),
                        ("open",
                          { functionId := 1, functionName := "open",
                            category := .actuate })] } }]⟩ }
  thread _ := {}

theorem valveWorld_start (mode : Automation.RuntimeMode) : SystemStart (valveWorld mode) :=
  ⟨fun _ => rfl, rfl, rfl, fun _ => rfl, rfl⟩

def valveConfig : SystemConfig := { automation := { enabled := true } }

/-- A thread opens the valve by hand, up to the wait for the provider's lock. -/
def openToLock (t : ThreadId) : List (ThreadId × Choice) :=
  [(t, .start (.call "sim0/valve" 0 "open" SortedMap.empty)), (t, .go), (t, .go),
    (t, .found true), (t, .available true)] ++ List.replicate 5 (t, .go)

/-- A hook's or a rung's call, from the look-up of its provider to the answer, and `n` steps. -/
def callThrough (t : ThreadId) (n : Nat) : List (ThreadId × Choice) :=
  [(t, .found true), (t, .available true)] ++ List.replicate 10 (t, .go) ++
    [(t, .reply (.ok SortedMap.empty))] ++ List.replicate n (t, .go)

/-- Thread 1 opens the valve and passes its second latch check; then thread 2 triggers the
e-stop. -/
def openThenTrigger : List (ThreadId × Choice) :=
  openToLock 1 ++ [(1, .go), (1, .go), (2, .start .trigger), (2, .go), (2, .go)]

/-- Thread 1 goes on to dispatch its call and to return. -/
def dispatchOpen : List (ThreadId × Choice) :=
  [(1, .go), (1, .go), (1, .go), (1, .reply (.ok SortedMap.empty)), (1, .go)]

/-- The one call that was past its second check is dispatched after the latch is set. -/
theorem estop_barrier_valve :
    ∃ tr₀ g tr g', SystemRun valveConfig (valveWorld .manual) tr₀ g ∧ g.shared.latched ∧
      SystemRun valveConfig g tr g' ∧ (tr.countP fun i => (barred "sim0" i).isSome) = 1 ∧
      ∃ request pc, (g.thread 1).call = some ⟨request, pc⟩ ∧ pc.held = some "sim0" := by
  obtain ⟨tr₀, g, tr, g', hrun₀, hrun, hp⟩ := Machine.runs_of_passesThen (system valveConfig)
    (valveWorld .manual) openThenTrigger dispatchOpen
    (fun _ g tr _ => g.shared.latched ∧ (∀ i ∈ tr, isUnlatch i.2.2 = false) ∧
      ∃ i ∈ tr, ∃ a ∈ barred "sim0" i, a.1 = 1) (by decide)
  obtain ⟨hlatched, hclear, i, hi, ⟨t, target, request⟩, ha, rfl⟩ := hp
  have hbarrier := (estop_barrier valveConfig (valveWorld_start .manual) hrun₀ hlatched hrun
    hclear "sim0").1
  obtain ⟨pc, hcall, -, hheld⟩ := hbarrier.2 i hi _ ha
  refine ⟨tr₀, g, tr, g', hrun₀, hlatched, hrun, ?_, request, pc, hcall, hheld⟩
  have hpos : 0 < tr.countP fun i => (barred "sim0" i).isSome :=
    List.countP_pos_iff.mpr ⟨i, hi, by rw [ha]; rfl⟩
  have := hbarrier.1
  omega

/-- A request is dispatched by the one thread that is inside the lock of its provider. -/
theorem dispatch_is_exclusive {cfg : SystemConfig} {g₀ g s : SystemState} {tr : SystemTrace}
    {t : ThreadId} {target : Target} {request : CallRequest} {args : Protocol.ArgMap}
    (h0 : SystemStart g₀) (hrun : SystemRun cfg g₀ tr g)
    (hi : (s, t, .call (.dispatch target request args)) ∈ tr) (u : ThreadId) :
    (s.thread u).holdsProvider target.providerId ↔ u = t := by
  obtain ⟨tr₁, -, s₁, -, (hrun₁ : SystemRun cfg g₀ tr₁ s),
    (hstep : (system cfg).lts.step s (t, _) s₁), -⟩ := Run.of_mem hrun hi
  obtain ⟨th', -, hts, -⟩ := system_step hstep
  cases hts with
  | call hk hnext =>
    obtain ⟨rfl, harmed, -⟩ := callNext_dispatch hnext
    have hholds : (s.thread t).holdsProvider target.providerId := by
      simp [Thread.holdsProvider, hk, CallPc.held_of_armed harmed]
    refine ⟨fun h => Machine.lock_excl (providerLock_run h0 hrun₁ _) h hholds, ?_⟩
    rintro rfl
    exact hholds

/-- Thread 1 dispatches its call while thread 2 is inside a trigger. -/
theorem dispatch_is_exclusive_valve : ∃ tr g s target request args,
    SystemRun valveConfig (valveWorld .manual) tr g ∧
      (s, 1, .call (.dispatch target request args)) ∈ tr ∧
      ¬ (s.thread 2).holdsProvider target.providerId := by
  obtain ⟨tr, g, hrun, hp⟩ := Machine.run_of_passes (system valveConfig) (valveWorld .manual)
    (openThenTrigger ++ dispatchOpen) (fun tr _ => ∃ i ∈ tr, ∃ a ∈ barred "sim0" i, a.1 = 1)
    (by decide)
  obtain ⟨⟨s, t, e⟩, hi, a, ha, hat⟩ := hp
  obtain ⟨args, rfl, ht, -⟩ := barred_eq_some ha
  obtain rfl : t = 1 := ht.symm.trans hat
  refine ⟨tr, g, s, _, _, args, hrun, hi, fun h => ?_⟩
  cases (dispatch_is_exclusive (valveWorld_start .manual) hrun hi 2).mp h

end Anolis.Proofs.EstopBarrier
