import Anolis.Proofs.CallHandles

/-!
# The steps of a thread and the provider registries

Every step of a thread keeps what holds of the registries and of the thread, and leaves what the
other threads have (`stepSound`). The steps are those inside a session's mutex
(`stepSound_session`), of a call (`stepSound_call`), of a `set_mode` (`stepSound_mode`) and of an
operation (`stepSound_op`), of which a restart is the one that changes the registries
(`stepSound_restart`).
-/

namespace Anolis.Proofs.CallRouting

open Control Lib Registry Anolis.Runtime

variable {c : Choice} {loc' : Holdings} {n : OpNext} {p : String} {pc : RestartPc}
  {pe : ProviderEffect} {request : CallRequest} {th : Thread} {cfg : SystemConfig} {sh : Shared}
  {P : Providers} {t : ThreadId} {wk : Worker} {op : Op} {phase : SendPhase}

/-! ### A step of a thread -/

/-- The providers after a step of the thread `t`. -/
abbrev after (P : Providers) (t : ThreadId) (e : ProviderEffect) (ends : Bool) : Providers :=
  { P.apply t e with restarting := if ends then none else (P.apply t e).restarting }

/-- What a step of the thread `t` has to keep. -/
structure StepSound (cfg : SystemConfig) (t : ThreadId) (P : Providers)
    (registry' : DeviceRegistry) (P' : Providers) (wk' : Worker) : Prop where
  later : Later P P'
  held : ∀ n, Held P n → Held P' n
  others : ∀ u, u ≠ t → P.restarting = some u → P'.restarting = some u ∧
    P'.registered = P.registered ∧ P'.published = P.published
  table : TableSound registry' P'
  worker : WorkerSound cfg P' t wk'

section
variable {P' : Providers} {e : ProviderEffect} {ends : Bool}

theorem after_later (P : Providers) (t : ThreadId) (e : ProviderEffect) (ends : Bool) :
    Later P (after P t e ends) :=
  have h := apply_later P t e
  ⟨h.fresh, h.owner, h.inventory, h.healthy⟩

/-- A step that leaves the registries keeps what holds of them. The token of the restart is given
back only by its thread, and taken only while it is free. -/
theorem StepSound.of_worker {wk' : Worker} (htable : TableSound sh.registry P)
    (he : touches e = false) (hbegin : e = .beginRestart → P.restarting = none)
    (hends : ends → P.restarting = some t) (hworker : WorkerSound cfg (after P t e ends) t wk') :
    StepSound cfg t P sh.registry (after P t e ends) wk' := by
  have hl := after_later P t e ends
  obtain ⟨hreg, hpub⟩ := apply_registered (P := P) (t := t) he
  refine ⟨hl, fun n => Held.later hl hreg, fun u hu hrest => ⟨?_, hreg, hpub⟩,
    htable.later hl hreg hpub, hworker⟩
  cases ends with
  | true =>
    rw [hends rfl] at hrest
    exact absurd (Option.some.inj hrest).symm hu
  | false =>
    cases e with
    | beginRestart =>
      rw [hbegin rfl] at hrest
      cases hrest
    | _ => exact hrest

/-- A thread without a call keeps what holds of it when its handle and its device stay. -/
theorem WorkerSound.of_idle_call (hw : WorkerSound cfg P t wk) (hcall : wk.th.call = none)
    (hl : Later P P') (hheld : ∀ n, Held P n → Held P' n) {th' : Thread}
    (hhandle : loc'.handle = wk.loc.handle) (hsource : loc'.source = wk.loc.source)
    (hsend : loc'.send = wk.loc.send)
    (hcall' : ∀ request pc, th'.call = some ⟨request, pc⟩ → pc = .idleGate)
    (hstop : StopSound P' th' loc'.stop)
    (hrestart : ∀ p pc, th'.op = .restart p pc → P'.restarting = some t ∧ (P'.registered p).isSome ∧
      RestartSound P' loc'.replacement p pc) : WorkerSound cfg P' t ⟨th', loc'⟩ := by
  have hidle : wk.loc.send.isIdle := by
    by_contra hne
    obtain ⟨request, target, hsome⟩ := hw.sending (Bool.eq_false_of_not_eq_true hne)
    rw [hcall] at hsome
    cases hsome
  constructor
  · intro n hn
    rw [hhandle] at hn
    exact hheld n (hw.handle n hn)
  · intro s hs
    rw [hsource] at hs
    exact Nat.lt_of_lt_of_le (hw.source s hs) hl.fresh
  · intro request pc hsome
    obtain rfl := hcall' request pc hsome
    exact ⟨trivial, by simp [hasHandle], by simp [hasDevice]⟩
  · rw [hsend]
    cases hphase : wk.loc.send with
    | idle => trivial
    | _ => simp [hphase, SendPhase.isIdle] at hidle
  · intro hne
    rw [hsend, hidle] at hne
    cases hne
  · exact hstop
  · exact hrestart

theorem WorkerSound.stop_other (hw : WorkerSound cfg P t wk) (hop : wk.th.op = op)
    (hne : ∀ p, op ≠ .restart p .stop) (P' : Providers) (th' : Thread) :
    StopSound P' th' wk.loc.stop := by
  have hstop := hw.stop
  cases hphase : wk.loc.stop with
  | idle => trivial
  | mark h | stopped h =>
    rw [hphase] at hstop
    obtain ⟨p, hp, -⟩ := hstop
    exact absurd (hop.symm.trans hp) (hne p)

/-- A step of the thread itself that leaves the registries and the restart's token keeps what holds
of it, but for what the step changes. -/
theorem WorkerSound.quiet (htable : TableSound sh.registry P) (hw : WorkerSound cfg P t wk)
    (he : touches e = false) (hbegin : e ≠ .beginRestart) :
    WorkerSound cfg (after P t e false) t wk := by
  have hl := after_later P t e false
  obtain ⟨hreg, hpub⟩ := apply_registered (P := P) (t := t) he
  refine hw.later hl (fun n => Held.later hl hreg)
    (fun p n hn => (htable.registered p n hn).2.1) fun hrest => ⟨?_, hreg, hpub⟩
  cases e with
  | beginRestart => exact absurd rfl hbegin
  | _ => exact hrest

theorem WorkerSound.withSend (hw : WorkerSound cfg P t wk)
    (hsend : SendSound cfg P wk.loc.handle wk.loc.source phase)
    (hcall : ∃ request target, wk.th.call = some ⟨request, .reply target⟩) :
    WorkerSound cfg P t ⟨wk.th, { wk.loc with send := phase }⟩ :=
  ⟨hw.handle, hw.source, hw.call, hsend, fun _ => hcall, hw.stop, hw.restart⟩

theorem WorkerSound.withStop (hw : WorkerSound cfg P t wk) {phase : StopPhase}
    (hstop : StopSound P wk.th phase) :
    WorkerSound cfg P t ⟨wk.th, { wk.loc with stop := phase }⟩ :=
  ⟨hw.handle, hw.source, hw.call, hw.send, hw.sending, hstop, hw.restart⟩

theorem stepSound_lose (htable : TableSound sh.registry P) (hw : WorkerSound cfg P t wk)
    (h : Nat) : StepSound cfg t P sh.registry (after P t (.lost h) false) wk :=
  StepSound.of_worker htable rfl (by simp) (by simp) (hw.quiet htable rfl (by simp))

/-- A step inside a session's mutex. The frame is written after a look at the health of the
session. -/
theorem stepSound_session (htable : TableSound sh.registry P) (hw : WorkerSound cfg P t wk)
    {written : Bool} (hstep : sessionStep P wk.th wk.loc written = some (e, loc')) :
    StepSound cfg t P sh.registry (after P t e false) ⟨wk.th, loc'⟩ := by
  have hsending := hw.sending
  revert hstep
  fun_cases sessionStep P wk.th wk.loc written <;> intro hstep <;> cases hstep
  case case2 frame h hhandle hphase hfree =>
    have hw' := hw.quiet htable (e := .lock h) rfl (by simp)
    refine StepSound.of_worker htable rfl (by simp) (by simp) (hw'.withSend ?_ ?_)
    · have hsend := hw'.send
      rw [hphase] at hsend
      exact hsend
    · exact hsending (by rw [hphase]; rfl)
  case case3 frame h hhandle hphase hup =>
    -- the handle is healthy, so the device is of its process
    have hsend := hw.send
    rw [hphase] at hsend
    refine StepSound.of_worker htable rfl (by simp) (by simp) (hw.withSend ⟨hsend, ?_⟩ ?_)
    · obtain ⟨h', s, hpaired, -, -⟩ := hsend
      have heq : h' = h := Option.some.inj (hpaired.handle_eq.symm.trans hhandle)
      subst heq
      rw [hpaired.source_eq, hpaired.handle_eq, hpaired.same hup]
    · exact hsending (by rw [hphase]; rfl)
  case case4 frame h hhandle hphase _ | case5 frame h hhandle hphase _ |
      case6 frame h hhandle hphase _ =>
    refine StepSound.of_worker htable rfl (by simp) (by simp) (hw.withSend trivial ?_)
    exact hsending (by rw [hphase]; rfl)
  case case7 h hhandle hphase =>
    have hw' := hw.quiet htable (e := .unlock h) rfl (by simp)
    refine StepSound.of_worker htable rfl (by simp) (by simp) (hw'.withSend trivial ?_)
    exact hsending (by rw [hphase]; rfl)
  case case9 _ p hidle hop h hreg hfree =>
    have hw' := hw.quiet htable (e := .lock h) rfl (by simp)
    exact StepSound.of_worker htable rfl (by simp) (by simp) (hw'.withStop ⟨p, hop, hreg⟩)
  case case11 _ p h hmark hop =>
    have hw' := hw.quiet htable (e := .stopped h) rfl (by simp)
    refine StepSound.of_worker htable rfl (by simp) (by simp) (hw'.withStop ?_)
    have hstop := hw.stop
    rw [hmark] at hstop
    obtain ⟨p', hop', hreg⟩ := hstop
    exact ⟨p', hop', hreg, Function.update_self ..⟩

end

/-! ### A step of the runtime's thread -/

theorem eq_idle_of_isIdle (h : phase.isIdle) : phase = .idle := by
  cases phase <;> first | rfl | cases h

/-- Does a step from `op` to `op'` end a restart. -/
abbrev endsRestart (op op' : Op) : Bool := op.isRestart && !op'.isRestart

theorem isRestart_iff : op.isRestart ↔ ∃ p pc, op = .restart p pc := by
  cases op <;> simp [Op.isRestart]

theorem callReturned_restart {result : CallResult} :
    op.callReturned result = .restart p pc ↔ op = .restart p pc := by
  cases op with
  | trigger pc => cases pc <;> simp [Op.callReturned]
  | _ => simp [Op.callReturned]

theorem modeReturned_restart :
    op.modeReturned = .restart p pc ↔ op = .restart p pc ∧ pc ≠ .fault := by
  cases op with
  | trigger pc | hold pc | tick pc => cases pc <;> simp [Op.modeReturned]
  | restart q pc' => cases pc' <;> simp [Op.modeReturned] <;> rintro - rfl <;> simp
  | _ => simp [Op.modeReturned]

theorem WorkerSound.ends (hw : WorkerSound cfg P t wk) {op' : Op}
    (h : endsRestart wk.th.op op') : P.restarting = some t := by
  obtain ⟨p, pc, hop⟩ := isRestart_iff.mp (Bool.and_eq_true_iff.mp h).1
  exact (hw.restart p pc hop).1

theorem WorkerSound.token_others (hw : WorkerSound cfg P t wk) (hop : wk.th.op = .restart p pc)
    {u : ThreadId} (hu : u ≠ t) {A : Prop} (hrest : P.restarting = some u) : A := by
  rw [(hw.restart p pc hop).1] at hrest
  exact absurd (Option.some.inj hrest).symm hu

theorem withCall_restart {n : CallNext} :
    (th.withCall request n).op = .restart p pc ↔ th.op = .restart p pc := by
  cases n with
  | go pc' => exact Iff.rfl
  | ret result =>
    simp only [Thread.withCall]
    split
    · exact Iff.rfl
    · exact callReturned_restart

theorem endsRestart_withCall {n : CallNext} :
    endsRestart th.op (th.withCall request n).op = false := by
  cases hop : th.op.isRestart with
  | false => simp [endsRestart, hop]
  | true =>
    obtain ⟨p, pc, hop⟩ := isRestart_iff.mp hop
    have hop' : (th.withCall request n).op = .restart p pc := withCall_restart.mpr hop
    rw [endsRestart, hop']
    exact Bool.and_false _

theorem stepSound_call (htable : TableSound sh.registry P) (hw : WorkerSound cfg P t wk)
    {pc : CallPc} {e : CallEffect} {n : CallNext} (hcall : wk.th.call = some ⟨request, pc⟩)
    (hbooks : CallBooks sh P wk.loc request pc c loc')
    (hnext : callNext cfg sh t request pc c = some (e, n)) : StepSound cfg t P sh.registry
      (after P t .silent (endsRestart wk.th.op (wk.th.withCall request n).op))
      ⟨wk.th.withCall request n, loc'⟩ := by
  rw [endsRestart_withCall]
  -- a frame is on its way only from the dispatch to the reply
  have hsend : loc'.send = .idle ∨ ∃ target args, pc = .dispatch target args ∧
      loc' = { wk.loc with send := .lock ⟨target, request, args⟩ } := by
    have hidle : (∀ target, pc ≠ .reply target) → wk.loc.send = .idle := by
      intro hpc
      refine eq_idle_of_isIdle (Bool.eq_true_of_not_eq_false fun hne => ?_)
      obtain ⟨request', target, hsome⟩ := hw.sending hne
      rw [hcall] at hsome
      cases hsome
      exact hpc target rfl
    cases hbooks with
    | found hparse | device p d c => exact .inl (hidle (by simp))
    | dispatch target args c => exact .inr ⟨target, args, rfl, rfl⟩
    | same hdevice hdispatch hprovider hreply =>
      by_cases hpc : ∃ target, pc = .reply target
      · obtain ⟨target, hpc⟩ := hpc
        exact .inl (eq_idle_of_isIdle (hreply target hpc))
      · exact .inl (hidle fun target htarget => hpc ⟨target, htarget⟩)
  have hkeeps : loc'.stop = wk.loc.stop ∧ loc'.replacement = wk.loc.replacement := by
    cases hbooks <;> exact ⟨rfl, rfl⟩
  refine StepSound.of_worker htable rfl (by simp) (by simp) ⟨?_, ?_, ?_, ?_, ?_, ?_, ?_⟩
  · intro h hh
    cases hbooks with
    | @found p d hparse =>
      obtain ⟨howner, hlt, -⟩ := htable.registered p h hh
      have hreg : P.registered (P.owner h) = some h := by
        rw [howner]
        exact hh
      exact ⟨hlt, fun _ => hreg⟩
    | _ => exact hw.handle h hh
  · intro s hs
    cases hbooks with
    | found => cases hs
    | device p d c =>
      obtain ⟨device, -, hpub⟩ := Option.bind_eq_some_iff.mp hs
      exact (htable.published _ s hpub).2
    | _ => exact hw.source s hs
  · intro request' pc' hsome
    cases n with
    | go pc₁ =>
      cases hsome
      exact (hw.call request pc hcall).step htable hw.handle hbooks hnext
    | ret result =>
      simp only [Thread.withCall] at hsome
      split at hsome <;> cases hsome
  · rcases hsend with hidle | ⟨target, args, rfl, rfl⟩
    · rw [hidle]
      trivial
    · exact (hw.call request _ hcall).frame
  · intro hne
    rcases hsend with hidle | ⟨target, args, rfl, rfl⟩
    · rw [hidle] at hne
      cases hne
    · simp only [callNext, some_pair] at hnext
      obtain ⟨-, rfl⟩ := hnext
      exact ⟨request, target, rfl⟩
  · rw [hkeeps.1]
    exact hw.stop.of_op fun p => withCall_restart.mpr
  · intro p pc' hop
    rw [hkeeps.2]
    exact hw.restart p pc' (withCall_restart.mp hop)

theorem after_endsRestart (P : Providers) (t : ThreadId) (e : ProviderEffect) (op : Op) (p : String)
    (pc : RestartPc) : after P t e (endsRestart op (.restart p pc)) = P.apply t e := by
  rw [show endsRestart op (.restart p pc) = false from Bool.and_false _]
  rfl

/-- The operation of a thread after a step of it: a call of it starts at the first gate. -/
theorem withOp_call (hcall : th.call = none) {pc : CallPc}
    (h : (th.withOp n).call = some ⟨request, pc⟩) : pc = .idleGate := by
  cases n with
  | call op request' =>
    cases h
    rfl
  | _ =>
    simp only [Thread.withOp, hcall] at h
    cases h

theorem opStep_not_restart {e : ControlEffect} (h : OpStep cfg sh t op e n)
    (hop : op.isRestart = false) (hidle : op ≠ .idle) : n.op.isRestart = false := by
  cases h <;> first | rfl | exact absurd rfl hidle | cases hop

theorem WorkerSound.dead (hw : WorkerSound cfg P t wk) {h : Nat}
    (hop : wk.th.op = .restart p .stop) (hphase : wk.loc.stop = .stopped h) : Dead P p := by
  have hstop := hw.stop
  rw [hphase] at hstop
  obtain ⟨p', hop', hreg, hdown⟩ := hstop
  rw [hop] at hop'
  cases hop'
  intro h' hreg'
  rw [hreg] at hreg'
  cases hreg'
  exact hdown

theorem opStep_not_publish {e : ControlEffect} (h : OpStep cfg sh t op e n)
    (hop : op.isRestart = false) : (sh.apply t (.control e)).registry = sh.registry := by
  refine Shared.registry_apply fun registry heq => ?_
  cases heq
  cases h
  cases hop

theorem startOp_restart {start : Start} (h : startOp cfg t start = some n)
    (hn : n.op.isRestart) : ∃ p, start = .restart p ∧ n = .go (.restart p .stop) := by
  revert h
  fun_cases startOp cfg t start <;> intro h <;> simp only [Option.some.injEq, reduceCtorEq] at h
  all_goals subst h
  all_goals first
    | exact ⟨_, rfl, rfl⟩
    | cases hn

section

variable (htable : TableSound sh.registry P) (hw : WorkerSound cfg P t wk)
  (hcall : wk.th.call = none) {replacement : Option Nat} {stop : StopPhase}
include htable hw hcall

/-- A step of a thread without a call that leaves the registries and what its last call had. -/
theorem stepSound_quiet {e : ProviderEffect} {th' : Thread} (he : touches e = false)
    (hbegin : e = .beginRestart → P.restarting = none)
    (hcall' : ∀ request pc, th'.call = some ⟨request, pc⟩ → pc = .idleGate)
    (hstop : StopSound (P.apply t e) th' stop)
    (hrestart : ∀ p pc, th'.op = .restart p pc → (P.apply t e).restarting = some t ∧
      ((P.apply t e).registered p).isSome ∧ RestartSound (P.apply t e) replacement p pc) :
    StepSound cfg t P sh.registry (after P t e (endsRestart wk.th.op th'.op))
      ⟨th', { wk.loc with stop := stop, replacement := replacement }⟩ := by
  have hl := after_later P t e (endsRestart wk.th.op th'.op)
  have hreg := (apply_registered (P := P) (t := t) he).1
  refine StepSound.of_worker htable he hbegin hw.ends ?_
  refine hw.of_idle_call hcall hl (fun n => Held.later hl hreg) rfl rfl rfl hcall' ?_ ?_
  · -- the `stop` does not look at the token
    cases stop <;> exact hstop
  · intro p pc hop
    rw [hop, after_endsRestart]
    exact hrestart p pc hop

theorem stepSound_mode (new : Automation.RuntimeMode) (n : SetModeNext) :
    StepSound cfg t P sh.registry
      (after P t .silent (endsRestart wk.th.op (wk.th.withMode new n).op))
      ⟨wk.th.withMode new n, wk.loc⟩ := by
  have hop : ∀ p pc, (wk.th.withMode new n).op = .restart p pc → wk.th.op = .restart p pc := by
    intro p pc h
    cases n with
    | ret ok => exact (modeReturned_restart.mp h).1
    | _ => exact h
  have hstopped : ∀ p, wk.th.op = .restart p .stop →
      (wk.th.withMode new n).op = .restart p .stop := by
    intro p h
    cases n with
    | ret ok => exact modeReturned_restart.mpr ⟨h, by simp⟩
    | _ => exact h
  refine stepSound_quiet htable hw hcall rfl (by simp) ?_ ?_
    fun p pc h => hw.restart p pc (hop p pc h)
  · intro request pc hsome
    cases n with
    | call pc' request' =>
      cases hsome
      rfl
    | _ =>
      simp only [Thread.withMode, hcall] at hsome
      cases hsome
  · exact hw.stop.of_op hstopped

/-- A step of a restart that leaves the registries: it ends, or what holds at its next place
holds. -/
theorem stepSound_goes_on (hop : wk.th.op = .restart p pc) {e : ProviderEffect}
    (he : touches e = false)
    (hbegin : e ≠ .beginRestart) (hstop : StopSound (P.apply t e) (wk.th.withOp n) stop)
    (hn : n.op = .idle ∨ ∃ pc', n.op = .restart p pc' ∧ RestartSound (P.apply t e)
      replacement p pc') :
    StepSound cfg t P sh.registry (after P t e (endsRestart wk.th.op (wk.th.withOp n).op))
      ⟨wk.th.withOp n, { wk.loc with stop := stop, replacement := replacement }⟩ := by
  refine stepSound_quiet htable hw hcall he (fun h => absurd h hbegin)
    (fun _ _ => withOp_call hcall) hstop fun q pc' hq => ?_
  rw [Thread.op_withOp] at hq
  rcases hn with hn | ⟨pc₁, hn, hsound⟩
  · rw [hn] at hq
    cases hq
  · rw [hn] at hq
    cases hq
    obtain ⟨htoken, hreg, -⟩ := hw.restart p pc hop
    refine ⟨?_, ?_, hsound⟩
    · cases e with
      | beginRestart => exact absurd rfl hbegin
      | _ => exact htoken
    · rw [(apply_registered he).1]
      exact hreg

/-- The end of the `stop` of a restart: the session's mutex is given back, and the restart goes on
where the process is gone. -/
theorem stepSound_stop (hop : wk.th.op = .restart p .stop) {a : Answer}
    (hbooks : restartBooks P wk.loc p .stop (.answer a) = some (pe, loc'))
    (hn : n.op = .idle ∨ n.op = .restart p .start) :
    StepSound cfg t P sh.registry (after P t pe (endsRestart wk.th.op (wk.th.withOp n).op))
      ⟨wk.th.withOp n, loc'⟩ := by
  simp only [restartBooks] at hbooks
  split at hbooks
  · rename_i h hphase
    cases hbooks
    have hdead : Dead P p := hw.dead hop hphase
    exact stepSound_goes_on htable hw hcall hop rfl (by simp) trivial
      (hn.imp_right fun hn => ⟨.start, hn, hdead⟩)
  · rename_i hphase hnone
    split at hbooks
    · cases hbooks
      have hdead : Dead P p := fun h hreg => by
        rw [hnone] at hreg
        cases hreg
      refine stepSound_goes_on htable hw hcall hop rfl (by simp) ?_
        (hn.imp_right fun hn => ⟨.start, hn, hdead⟩)
      rw [hphase]
      trivial
    · cases hbooks
  · cases hbooks

theorem stepSound_inspect (hop : wk.th.op = .restart p .inspect)
    (devices : List RegisteredDevice) (hids : ∀ d ∈ devices, d.providerId = p) :
    StepSound cfg t P sh.registry (after P t (.discover p devices)
        (endsRestart wk.th.op (wk.th.withOp (.go (.restart p (.validate devices)))).op))
      ⟨wk.th.withOp (.go (.restart p (.validate devices))),
        { wk.loc with replacement := some P.fresh }⟩ := by
  obtain ⟨-, -, hdead⟩ := hw.restart p .inspect hop
  have hstop := hw.stop_other hop (by simp)
  have hdead' : Dead (P.apply t (.discover p devices)) p :=
    Dead.later (apply_later ..) rfl (fun q n hn => (htable.registered q n hn).2.1) hdead
  refine stepSound_goes_on htable hw hcall hop rfl (by simp) (hstop _ _) (.inr ⟨_, rfl, ?_⟩)
  exact ⟨hdead', hids, P.fresh, rfl, Nat.lt_succ_self _, Function.update_self ..,
    Function.update_self ..⟩

theorem stepSound_commit {devices : List RegisteredDevice}
    (hop : wk.th.op = .restart p (.commit devices)) {n : Nat} (hn : wk.loc.replacement = some n) :
    StepSound cfg t P (sh.registry.commitProviderDevices p devices) (P.apply t (.publish p n))
      ⟨wk.th.withOp (.go (.restart p .rebuild)), wk.loc⟩ := by
  obtain ⟨htoken, hreg, hdead, hids, n', hn', hlt, howner, hinv⟩ := hw.restart p _ hop
  rw [hn] at hn'
  cases hn'
  have hl := apply_later P t (.publish p n)
  have hheld : ∀ m, Held P m → Held (P.apply t (.publish p n)) m := fun m => Held.later hl rfl
  have htable' := htable.publish (t := t) hdead howner hlt (htable.slash hreg)
    (by rw [hinv]; exact hids)
  rw [hinv] at htable'
  refine ⟨hl, hheld, fun u hu => hw.token_others hop hu, htable', ?_⟩
  have hstop := hw.stop_other hop (by simp)
  refine hw.of_idle_call hcall hl hheld rfl rfl rfl
    (fun _ _ => withOp_call hcall) (hstop _ _) fun q pc hq => ?_
  cases hq
  exact ⟨htoken, hreg, hdead, n, hn, hlt, howner, Function.update_self ..⟩

theorem stepSound_swap (hop : wk.th.op = .restart p .swap) {n : Nat}
    (hn : wk.loc.replacement = some n) : StepSound cfg t P sh.registry (P.apply t (.register p n))
      ⟨wk.th.withOp (.go (.restart p .preflight)), { wk.loc with replacement := none }⟩ := by
  obtain ⟨htoken, hreg, hdead, n', hn', hlt, howner, hpub⟩ := hw.restart p _ hop
  rw [hn] at hn'
  cases hn'
  have hl := apply_later P t (.register p n)
  have hheld : ∀ m, Held P m → Held (P.apply t (.register p n)) m := fun m => Held.register hdead
  have htable' := htable.register (t := t) howner hlt (htable.slash hreg) hpub
  refine ⟨hl, hheld, fun u hu => hw.token_others hop hu, htable', ?_⟩
  have hstop := hw.stop_other hop (by simp)
  refine hw.of_idle_call hcall hl hheld rfl rfl rfl
    (fun _ _ => withOp_call hcall) (hstop _ _) fun q pc hq => ?_
  cases hq
  refine ⟨htoken, ?_, trivial⟩
  rw [show Providers.registered _ p = some n from Function.update_self ..]
  rfl

theorem stepSound_restart {e : ControlEffect} (hop : wk.th.op = .restart p pc)
    (hbooks : restartBooks P wk.loc p pc c = some (pe, loc'))
    (hnext : restartNext cfg sh p pc c = some (e, n)) :
    StepSound cfg t P (sh.apply t (.control e)).registry
      (after P t pe (endsRestart wk.th.op (wk.th.withOp n).op)) ⟨wk.th.withOp n, loc'⟩ := by
  obtain ⟨-, -, hsound⟩ := hw.restart p pc hop
  have hgoes : ∀ e pc', after P t e (endsRestart wk.th.op
      (wk.th.withOp (.go (.restart p pc'))).op) = P.apply t e :=
    fun e pc' => after_endsRestart P t e wk.th.op p pc'
  revert hbooks hnext
  fun_cases restartNext cfg sh p pc c <;> intro hbooks hnext <;> cases hnext
  case case1 => exact stepSound_stop htable hw hcall hop hbooks (.inr rfl)
  case case5 => exact stepSound_stop htable hw hcall hop hbooks (.inl rfl)
  case case3 devices =>
    cases hbooks
    exact stepSound_inspect htable hw hcall hop _ fun d hd => providerId_of_mem_inspect hd
  case case13 devices =>
    obtain ⟨n, hn, heq⟩ := Option.map_eq_some_iff.mp hbooks
    cases heq
    rw [hgoes]
    exact stepSound_commit htable hw hcall hop hn
  case case15 =>
    obtain ⟨n, hn, heq⟩ := Option.map_eq_some_iff.mp hbooks
    cases heq
    rw [hgoes]
    exact stepSound_swap htable hw hcall hop hn
  -- the other steps do nothing with the providers
  all_goals
    have hstop := hw.stop_other hop (by simp)
    cases hbooks
    refine stepSound_goes_on htable hw hcall hop rfl (by simp) (hstop _ _) ?_
  all_goals first
    | exact .inl rfl
    | exact .inr ⟨_, rfl, hsound⟩

theorem stepSound_begin (hop : wk.th.op = .idle) (hreg : (P.registered p).isSome)
    (hfree : P.restarting = none) : StepSound cfg t P sh.registry (after P t .beginRestart
        (endsRestart wk.th.op (wk.th.withOp (.go (.restart p .stop))).op))
      ⟨wk.th.withOp (.go (.restart p .stop)), wk.loc⟩ := by
  have hstop := hw.stop_other hop (by simp)
  refine stepSound_quiet htable hw hcall rfl (fun _ => hfree)
    (fun _ _ => withOp_call hcall) (hstop _ _) fun q pc hq => ?_
  cases hq
  exact ⟨rfl, hreg, trivial⟩

theorem stepSound_other (hop : wk.th.op.isRestart = false) (hn : n.op.isRestart = false) :
    StepSound cfg t P sh.registry (after P t .silent (endsRestart wk.th.op (wk.th.withOp n).op))
      ⟨wk.th.withOp n, wk.loc⟩ := by
  have hstop := hw.stop_other rfl fun q hq => by rw [hq] at hop; cases hop
  refine stepSound_quiet htable hw hcall rfl (by simp) (fun _ _ => withOp_call hcall)
    (hstop _ _) fun q pc hq => ?_
  rw [← Thread.op_withOp wk.th, hq] at hn
  cases hn

theorem stepSound_op (hop : wk.th.op = op) {e : ControlEffect}
    (hbooks : opBooks P wk.loc op c = some (pe, loc'))
    (hnext : opNext cfg sh t op c = some (e, n)) :
    StepSound cfg t P (sh.apply t (.control e)).registry
      (after P t pe (endsRestart wk.th.op (wk.th.withOp n).op)) ⟨wk.th.withOp n, loc'⟩ := by
  have hstep := opStep_of_next hnext
  revert hbooks
  fun_cases opBooks P wk.loc op c <;> intro hbooks
  case case1 p pc => exact stepSound_restart htable hw hcall hop hbooks hnext
  case case2 p hgate =>
    cases hbooks
    cases hnext
    have hgate := Bool.and_eq_true_iff.mp hgate
    exact stepSound_begin htable hw hcall hop hgate.1 (by simpa using hgate.2)
  case case3 => cases hbooks
  case case4 hrestart hstart =>
    cases hbooks
    have hnot : op.isRestart = false := by
      cases op <;> first | rfl | exact absurd rfl (hrestart _ _)
    rw [opStep_not_publish hstep hnot]
    refine stepSound_other htable hw hcall (by rw [hop]; exact hnot) ?_
    rcases eq_or_ne op .idle with rfl | hidle
    · cases c with
      | start start =>
        obtain ⟨n', hn', heq⟩ := Option.map_eq_some_iff.mp hnext
        cases heq
        refine Bool.eq_false_of_not_eq_true fun hn => ?_
        obtain ⟨p, rfl, -⟩ := startOp_restart hn' hn
        exact hstart p rfl rfl
      | _ => first | (cases hnext; rfl) | cases hnext
    · exact opStep_not_restart hstep hnot hidle

end

/-- A step of a thread keeps what holds of the providers and of the thread. -/
theorem stepSound {w : World} {e : WorldEffect} {wk' : Worker}
    (htable : TableSound w.shared.registry w.providers)
    (hw : WorkerSound cfg w.providers t wk) (hstep : WorkerStep cfg w t wk e wk') :
    StepSound cfg t w.providers (w.apply t e).shared.registry (w.apply t e).providers wk' := by
  cases hstep with
  | @run c pe loc' e th' hbooks hnext =>
    simp only [Thread.next] at hnext
    simp only [books] at hbooks
    split at hnext
    · rename_i request pc hcall
      rw [hcall] at hbooks
      obtain ⟨l, hcallBooks, heq⟩ := Option.map_eq_some_iff.mp hbooks
      cases heq
      obtain ⟨⟨e', n⟩, hcallNext, heq⟩ := Option.map_eq_some_iff.mp hnext
      cases heq
      have hreg : (w.shared.apply t (.call e')).registry = w.shared.registry :=
        Shared.registry_apply (by simp)
      have hsound := stepSound_call htable hw hcall (callBooks_cases hcallBooks) hcallNext
      rw [← hreg] at hsound
      exact hsound
    · rename_i new pc hcall hmode
      rw [hcall, hmode] at hbooks
      cases hbooks
      obtain ⟨⟨e', n⟩, hmodeNext, heq⟩ := Option.map_eq_some_iff.mp hnext
      cases heq
      have hreg : (w.shared.apply t (.mode e')).registry = w.shared.registry :=
        Shared.registry_apply (by simp)
      have hsound := stepSound_mode htable hw hcall new n
      rw [← hreg] at hsound
      exact hsound
    · rename_i hcall hmode
      rw [hcall, hmode] at hbooks
      obtain ⟨⟨e', n⟩, hopNext, heq⟩ := Option.map_eq_some_iff.mp hnext
      cases heq
      exact stepSound_op htable hw hcall rfl hbooks hopNext
  | session h => exact stepSound_session htable hw h
  | lose h => exact stepSound_lose htable hw h

end Anolis.Proofs.CallRouting
