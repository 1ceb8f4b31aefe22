import Anolis.Runtime.System

/-!
# A trigger goes through its rung

A `trigger` that has planned its rung makes the rung's calls one after the other, between the steps
of other threads, and then asks for FAULT. `Pending` says that an entry of the rung is still to be
made, or that its call is under way; a step of the runtime keeps it until the call has done what it
is watched for (`pending_step`). `FaultPending` says the same of the FAULT request.

`rung_run`: when a trigger that planned its rung is about to return, every call of that rung was
issued and, on an automation machine, `set_mode(FAULT)` was called.
-/

namespace Anolis.Proofs.LadderRun

open Anolis.Runtime Control Lib

variable {cfg : SystemConfig} {t : ThreadId} {s s' : SystemState} {l : ThreadId × Effect}

/-! ### One entry of the rung -/

/-- The trigger of `t` has the entry `c` still to make, or is inside its call, at a place that
`InCall` allows. -/
def Pending (InCall : CallPc → Prop) (t : ThreadId) (c : RungCall) (request : CallRequest)
    (s : SystemState) : Prop :=
  (∃ rest result, (s.thread t).op = .trigger (.ladder (.run rest result)) ∧ c ∈ rest) ∨
    ∃ c' rest result k, (s.thread t).op = .trigger (.ladder (.calling c' rest result)) ∧
      (s.thread t).call = some k ∧ (c ∈ rest ∨ (k.request = request ∧ InCall k.pc))

section
variable {sh : Shared} {th th' : Thread} {e : Effect} {result : EstopResult} {rest : List RungCall}

/-- A step of a trigger's ladder with entries left: an entry without a request is passed over, and
the call of one with a request begins. -/
theorem run_step {c : RungCall} (h : ThreadStep cfg sh t th e th') (hshaped : th.Shaped)
    (hop : th.op = .trigger (.ladder (.run (c :: rest) result))) :
    ((∃ message, c.request = .error message) ∧
        ∃ result', th'.op = .trigger (.ladder (.run rest result'))) ∨
      ∃ request, c.request = .ok request ∧ th'.op = .trigger (.ladder (.calling c rest result)) ∧
        th'.call = some { request := request } := by
  obtain ⟨-, e', n, rfl, rfl, hs⟩ := hshaped.op_step h hop rfl rfl
  cases hrequest : c.request with
  | error message =>
    have hnext : ladderNext cfg sh {} (.run (c :: rest) result) =
        some (.go (.run rest { result with actions := result.actions ++
          [⟨c.deviceHandle, c.function, false, message, .config⟩] })) := by
      simp [ladderNext, hrequest, SortedMap.find?, SortedMap.empty]
    refine .inl ⟨⟨message, rfl⟩, ?_⟩
    cases hs with
    | triggerLadder _ pc' hl =>
      rw [hnext] at hl
      cases hl
      exact ⟨_, rfl⟩
    | triggerLadderCall _ _ _ hl | triggerLadderEnd _ _ hl | triggerLadderLast _ _ hl =>
      rw [hnext] at hl
      cases hl
  | ok request =>
    have hnext : ladderNext cfg sh {} (.run (c :: rest) result) =
        some (.call (.calling c rest result) request) := by
      simp [ladderNext, hrequest, SortedMap.find?, SortedMap.empty]
    refine .inr ⟨request, rfl, ?_⟩
    cases hs with
    | triggerLadderCall _ _ _ hl =>
      rw [hnext] at hl
      cases hl
      exact ⟨rfl, rfl⟩
    | triggerLadder _ _ hl | triggerLadderEnd _ _ hl | triggerLadderLast _ _ hl =>
      rw [hnext] at hl
      cases hl

/-- A step of a trigger inside a call of its ladder is a step of that call. -/
theorem calling_step {c : RungCall} {k : CallState}
    (h : ThreadStep cfg sh t th e th') (hshaped : th.Shaped)
    (hop : th.op = .trigger (.ladder (.calling c rest result))) (hcall : th.call = some k) :
    ∃ ch e' n, e = .call e' ∧ callNext cfg sh t k.request k.pc ch = some (e', n) ∧
      th' = th.withCall k.request n ∧
      ((∃ pc', n = .go pc' ∧ th'.op = th.op ∧ th'.call = some ⟨k.request, pc'⟩) ∨
        ∃ res result', n = .ret res ∧ th'.op = .trigger (.ladder (.run rest result'))) := by
  have hmode : th.mode = none := by
    by_contra hne
    have hawaits := hshaped.mode (Option.isSome_iff_ne_none.mpr hne)
    rw [hop] at hawaits
    cases hawaits
  cases h with
  | @call request pc ch e' n hcall' h =>
    obtain rfl := Option.some.inj (hcall.symm.trans hcall')
    refine ⟨ch, e', n, rfl, h, rfl, ?_⟩
    cases n with
    | go pc' => exact .inl ⟨pc', rfl, rfl, rfl⟩
    | ret res =>
      refine .inr ⟨res, { result with actions := result.actions ++ [c.outcome res] }, rfl, ?_⟩
      simp only [Thread.withCall, hmode, hop, Op.callReturned, LadderPc.callReturned]
  | mode hcall' | op hcall' => simp [hcall] at hcall'

end

section
variable {InCall : CallPc → Prop} {c : RungCall} {request : CallRequest}

/-- A step keeps an entry pending, unless it is the one in the entry's call that does what the call
is watched for (`Did`). -/
theorem pending_step {Did : Prop} (hshaped : (s.thread t).Shaped)
    (hstep : (system cfg).lts.step s l s') (hstart : InCall .idleGate)
    (hc : c.request = .ok request)
    (hcall : ∀ pc ch e n, l = (t, .call e) → (s.thread t).call = some ⟨request, pc⟩ →
      InCall pc → callNext cfg s.shared t request pc ch = some (e, n) →
      s'.thread t = (s.thread t).withCall request n → (∃ pc', n = .go pc' ∧ InCall pc') ∨ Did)
    (hp : Pending InCall t c request s) : Pending InCall t c request s' ∨ Did := by
  obtain ⟨u, e⟩ := l
  obtain ⟨th', hth, hts, -, hother⟩ := system_step hstep
  by_cases hu : t = u
  · subst hu
    rcases hp with ⟨rest, result, hop, hmem⟩ | ⟨c', rest, result, k, hop, hk, hwork⟩
    · cases rest with
      | nil => cases hmem
      | cons c₀ rest =>
        rcases run_step hts hshaped hop with ⟨⟨message, herror⟩, result', hop'⟩ |
            ⟨request₀, hok, hop', hk'⟩
        · refine .inl (.inl ⟨rest, result', hth ▸ hop', ?_⟩)
          rcases List.mem_cons.mp hmem with rfl | hmem
          · rw [hc] at herror
            cases herror
          · exact hmem
        · refine .inl (.inr ⟨c₀, rest, result, _, hth ▸ hop', hth ▸ hk', ?_⟩)
          rcases List.mem_cons.mp hmem with rfl | hmem
          · exact .inr ⟨Except.ok.inj (hok.symm.trans hc), hstart⟩
          · exact .inl hmem
    · obtain ⟨ch, e', n, rfl, hnext, heq, hafter⟩ := calling_step hts hshaped hop hk
      rcases hwork with hmem | ⟨rfl, hin⟩
      · rcases hafter with ⟨pc', -, hop', hk'⟩ | ⟨res, result', -, hop'⟩
        · exact .inl (.inr ⟨c', rest, result, _, hth ▸ hop'.trans hop, hth ▸ hk', .inl hmem⟩)
        · exact .inl (.inl ⟨rest, result', hth ▸ hop', hmem⟩)
      · rcases hcall k.pc ch e' n rfl hk hin hnext (hth.trans heq) with ⟨pc', rfl, hin'⟩ | hdid
        · rcases hafter with ⟨pc'', hgo, hop', hk'⟩ | ⟨res, result', hret, -⟩
          · obtain rfl := CallNext.go.inj hgo
            exact .inl (.inr ⟨c', rest, result, ⟨k.request, pc'⟩, hth ▸ hop'.trans hop,
              hth ▸ hk', .inr ⟨rfl, hin'⟩⟩)
          · cases hret
        · exact .inr hdid
  · refine .inl ?_
    unfold Pending
    rw [hother t hu]
    exact hp

end

/-! ### The FAULT request -/

/-- A step in which the thread `t` calls `set_mode(FAULT)`. -/
def RequestsFault (t : ThreadId) (i : SystemState × ThreadId × Effect) : Prop :=
  ∃ shown, i.2 = (t, .mode (.readMode .fault shown))

/-- The trigger of `t` has its FAULT request still to make. -/
def FaultPending (t : ThreadId) (s : SystemState) : Prop :=
  (∃ pc, (s.thread t).op = .trigger (.ladder pc)) ∨
    (∃ kind, (s.thread t).op = .trigger (.admission kind)) ∨
    ∃ kind, (s.thread t).op = .trigger (.fault kind) ∧ (s.thread t).call = none ∧
      (s.thread t).mode = some { new := .fault }

theorem faultPending_step (henabled : cfg.automation.enabled)
    (hshaped : (s.thread t).Shaped) (hstep : (system cfg).lts.step s l s')
    (hp : FaultPending t s) : FaultPending t s' ∨ RequestsFault t (s, l) := by
  obtain ⟨u, e⟩ := l
  obtain ⟨th', hth, hts, -, hother⟩ := system_step hstep
  by_cases hu : t = u
  · subst hu
    unfold FaultPending
    rw [hth]
    rcases hp with ⟨pc, hop⟩ | ⟨kind, hop⟩ | ⟨kind, hop, hcall, hmode⟩
    · refine .inl ?_
      rcases hts.op_cases with ⟨op, e', n, rfl, -, -, hop', h, hn⟩ | ⟨-, hafter⟩
      · obtain rfl := hop.symm.trans hop'
        rw [hn]
        cases h with
        | triggerLadder _ pc' | triggerLadderCall _ pc' => exact .inl ⟨pc', rfl⟩
        | triggerLadderEnd _ result => exact .inr (.inl ⟨result.kind, rfl⟩)
        | triggerLadderLast _ _ _ hdisabled =>
          rw [henabled] at hdisabled
          cases hdisabled
      · rw [hop] at hafter
        rcases hafter with hafter | ⟨res, hafter⟩ | hafter
        · exact .inl ⟨pc, hafter⟩
        · exact .inl ⟨pc.callReturned res, hafter⟩
        · exact .inl ⟨pc, hafter⟩
    · refine .inl (.inr (.inr ⟨kind, ?_⟩))
      obtain ⟨hcall, e', n, rfl, rfl, h⟩ := hshaped.op_step hts hop rfl rfl
      cases h with
      | triggerAdmits | triggerFault => exact ⟨rfl, hcall, rfl⟩
    · -- the first step of `set_mode` is the request
      refine .inr ?_
      cases hts with
      | call hcall' => simp [hcall] at hcall'
      | @mode new pc c e' n _ hmode' h =>
        obtain ⟨rfl, rfl⟩ := SetMode.mk.inj (Option.some.inj (hmode.symm.trans hmode'))
        cases h with
        | enter => exact ⟨_, rfl⟩
      | op _ hmode' => simp [hmode] at hmode'
  · refine .inl ?_
    unfold FaultPending
    rw [hother t hu]
    exact hp

/-! ### The whole rung -/

/-- A step in which the trigger of `t` issues a call of its ladder: the first one of
`execute_call`. -/
def Issues (t : ThreadId) (request : CallRequest) (i : SystemState × ThreadId × Effect) : Prop :=
  ∃ e c rest result, i.2 = (t, .call e) ∧ (i.1.thread t).call = some { request := request } ∧
    (i.1.thread t).op = .trigger (.ladder (.calling c rest result))

/-- What a trigger that planned its rung in the state `s` has done in the steps of `tr`: it has read
the rung's entries and issued the call of each that has one, and on an automation machine it has
requested FAULT. -/
def RungRun (cfg : SystemConfig) (t : ThreadId) (s : SystemState) (tr : SystemTrace) : Prop :=
  (∃ m ∈ tr, m.2.1 = t ∧ (m.1.thread t).op =
      .trigger (.ladder (.rung (plannedSafeStateKind s.shared.registry cfg.safety))) ∧
    ∀ c ∈ rungCalls (plannedSafeStateKind s.shared.registry cfg.safety) m.1.shared.registry
      cfg.safety, ∀ request, c.request = .ok request → ∃ k ∈ tr, Issues t request k) ∧
  (cfg.automation.enabled → ∃ k ∈ tr, RequestsFault t k)

section
variable {g₀ g : SystemState} {tr₁ tr₂ : SystemTrace} {i : SystemState × ThreadId × Effect}

/-- The step from the plan to the rung, and from there to its entries. -/
theorem plan_step {e : Effect} (hshaped : (s.thread t).Shaped)
    (hstep : (system cfg).lts.step s (t, e) s') :
    ((s.thread t).op = .trigger (.ladder .plan) → (s'.thread t).op =
      .trigger (.ladder (.rung (plannedSafeStateKind s.shared.registry cfg.safety)))) ∧
    ∀ kind, (s.thread t).op = .trigger (.ladder (.rung kind)) → ∃ result, (s'.thread t).op =
      .trigger (.ladder (.run (rungCalls kind s.shared.registry cfg.safety) result)) := by
  obtain ⟨th', hth, hts, -, -⟩ := system_step hstep
  -- the ladder's next place, where its step makes no call and is not the last
  have hgo : ∀ pc pc', (s.thread t).op = .trigger (.ladder pc) →
      (Op.trigger (.ladder pc)).awaitsCall = false →
      ladderNext cfg s.shared {} pc = some (.go pc') →
      (s'.thread t).op = .trigger (.ladder pc') := by
    intro pc pc' hop hawaits hnext
    obtain ⟨-, e', n, rfl, rfl, h⟩ := hshaped.op_step hts hop rfl hawaits
    rw [hth]
    cases h with
    | triggerLadder _ _ hl =>
      rw [hnext] at hl
      cases hl
      rfl
    | triggerLadderCall _ _ _ hl | triggerLadderEnd _ _ hl | triggerLadderLast _ _ hl =>
      rw [hnext] at hl
      cases hl
  exact ⟨fun hop => hgo _ _ hop rfl rfl, fun kind hop => ⟨_, hgo _ _ hop rfl rfl⟩⟩

/-- What holds of a trigger behind the step in which it planned its rung. -/
def RungWork (cfg : SystemConfig) (t : ThreadId) (kind : SafeStateKind) (tr : SystemTrace)
    (s : SystemState) : Prop :=
  (s.thread t).op = .trigger (.ladder (.rung kind)) ∨
    ∃ m ∈ tr, m.2.1 = t ∧ (m.1.thread t).op = .trigger (.ladder (.rung kind)) ∧
      ∀ c ∈ rungCalls kind m.1.shared.registry cfg.safety, ∀ request, c.request = .ok request →
        Pending (· = .idleGate) t c request s ∨ ∃ k ∈ tr, Issues t request k

theorem rungWork_step {kind : SafeStateKind} {tr : SystemTrace} (hshaped : (s.thread t).Shaped)
    (hstep : (system cfg).lts.step s l s') (hw : RungWork cfg t kind tr s) :
    RungWork cfg t kind (tr ++ [(s, l)]) s' := by
  rcases hw with hop | ⟨m, hm, hmt, hmop, hcalls⟩
  · by_cases hl : l.1 = t
    · obtain ⟨u, e⟩ := l
      obtain rfl : u = t := hl
      obtain ⟨result, hop'⟩ := (plan_step hshaped hstep).2 kind hop
      refine .inr ⟨(s, u, e), by simp, rfl, hop, fun c hc request hrequest => ?_⟩
      exact .inl (.inl ⟨_, result, hop', hc⟩)
    · obtain ⟨-, -, -, -, hother⟩ := system_step hstep
      exact .inl (by rw [hother t (Ne.symm hl), hop])
  · refine .inr ⟨m, List.mem_append_left _ hm, hmt, hmop, fun c hc request hrequest => ?_⟩
    rcases hcalls c hc request hrequest with hp | ⟨k, hk, hissues⟩
    · -- inside the call, its first step is the one that is looked for
      refine pending_step hshaped hstep rfl hrequest ?_ hp
      intro pc ch e n hl hcall hpc hnext heq
      subst hl hpc
      refine .inr ⟨_, List.mem_concat_self, ?_⟩
      rcases hp with ⟨rest, result, hop, -⟩ | ⟨c', rest, result, k, hop, -, -⟩
      · have hquiet := hshaped.quiet (by rw [hop]; rfl) (by rw [hop]; rfl)
        simp [hquiet.2] at hcall
      · exact ⟨e, c', rest, result, rfl, hcall, hop⟩
    · exact .inr ⟨k, List.mem_append_left _ hk, hissues⟩

/-- A trigger that planned its rung and is about to return has run it. -/
theorem rung_run (h0 : SystemStart g₀) (h : SystemRun cfg g₀ (tr₁ ++ i :: tr₂) g)
    (hi : i.2.1 = t) (hplan : (i.1.thread t).op = .trigger (.ladder .plan))
    (hunlock : (g.thread t).op = .trigger .unlock) : RungRun cfg t i.1 tr₂ := by
  obtain ⟨s, u, e⟩ := i
  obtain rfl : u = t := hi
  obtain ⟨hwork, hfault⟩ : RungWork cfg u (plannedSafeStateKind s.shared.registry
    cfg.safety) tr₂ g ∧
      (cfg.automation.enabled → FaultPending u g ∨ ∃ k ∈ tr₂, RequestsFault u k) := by
    refine Run.after_step (T := (system cfg).lts) (K := fun behind g =>
      RungWork cfg u (plannedSafeStateKind s.shared.registry cfg.safety) behind g ∧
        (cfg.automation.enabled → FaultPending u g ∨ ∃ k ∈ behind, RequestsFault u k))
      ?_ ?_ h
    · intro s' hrun hstep
      have hop' := (plan_step (shaped_run h0 hrun u) hstep).1 hplan
      exact ⟨.inl hop', fun _ => .inl (.inl ⟨_, hop'⟩)⟩
    · intro tr s₁ l s' behind hrun hstep hk
      have hshaped := shaped_run h0 hrun u
      refine ⟨rungWork_step hshaped hstep hk.1, fun henabled => ?_⟩
      rcases hk.2 henabled with hp | ⟨k, hk, hrequests⟩
      · rcases faultPending_step henabled hshaped hstep hp with hp' | hrequests
        · exact .inl hp'
        · exact .inr ⟨_, List.mem_concat_self, hrequests⟩
      · exact .inr ⟨k, List.mem_append_left _ hk, hrequests⟩
  -- at the end nothing is pending
  refine ⟨?_, fun henabled => ?_⟩
  · rcases hwork with hop | ⟨m, hm, hmt, hmop, hcalls⟩
    · rw [hunlock] at hop
      cases hop
    · refine ⟨m, hm, hmt, hmop, fun c hc request hrequest => ?_⟩
      rcases hcalls c hc request hrequest with hp | hissued
      · rcases hp with ⟨_, _, hop, -⟩ | ⟨_, _, _, _, hop, -⟩
        all_goals
          rw [hunlock] at hop
          cases hop
      · exact hissued
  · rcases hfault henabled with hp | hrequested
    · rcases hp with ⟨_, hop⟩ | ⟨_, hop⟩ | ⟨_, hop, -⟩
      all_goals
        rw [hunlock] at hop
        cases hop
    · exact hrequested

end

end Anolis.Proofs.LadderRun
