import Anolis.Proofs.LadderRun
import Anolis.Proofs.Returns

/-!
# The ladder comes to its end

`steady` is the runtime while no inventory is published and one provider answers the calls of one
thread: it is registered and available whenever such a call asks. Its runs are runs of the runtime
(`steady_run`), and from every state in which the thread is inside a trigger's ladder one leads to
the end of the ladder (`ladder_ends`): a safe-state call waits only for its provider's lock, and
that is given back.
-/

namespace Anolis.Proofs.SteadyLadder

open Anolis.Runtime Control LadderRun Lib Returns

variable {cfg : SystemConfig} {t : ThreadId} {p : String} {s s' : SystemState} {e : Effect}
  {tr : SystemTrace} {request : CallRequest}

/-! ### The steady runtime -/

/-- The call asks for the provider `p`: whether it is registered, or whether it is available. -/
def asks (p : String) (k : CallState) : Bool :=
  match k.pc with
  | .provider => (parseDeviceHandle k.request.deviceHandle).toOption.any fun h => h.1 = p
  | .available q _ => q = p
  | _ => false

def answersYes : Choice → Bool
  | .found yes | .available yes => yes
  | _ => true

def publishes : Effect → Bool
  | .control (.publish _) => true
  | _ => false

/-- The runtime while its inventory stays and the provider `p` answers the calls of `t`. -/
def steady (cfg : SystemConfig) (t : ThreadId) (p : String) :
    Machine Shared Thread Effect Choice where
  next sh u th c :=
    if u = t ∧ th.call.any (asks p) ∧ answersYes c = false then none
    else (th.next cfg sh u c).filter fun r => !publishes r.1
  apply := Shared.apply

section
variable {sh : Shared} {u : ThreadId} {c : Choice}

theorem callNext_answered {pc : CallPc} {e : CallEffect} {n : CallNext}
    (hasks : asks p ⟨request, pc⟩) (hyes : answersYes c)
    (h : callNext cfg sh t request pc c = some (e, n)) : ∃ pc', n = .go pc' := by
  unfold asks at hasks
  split at hasks
  · rename_i hpc
    obtain rfl : pc = .provider := hpc
    cases hparse : parseDeviceHandle request.deviceHandle with
    | error message => simp [hparse, Except.toOption] at hasks
    | ok handle =>
      obtain ⟨q, d⟩ := handle
      cases c with
      | found yes =>
        cases yes with
        | true =>
          simp only [callNext, hparse] at h
          cases h
          exact ⟨_, rfl⟩
        | false => cases hyes
      | _ =>
        simp only [callNext, hparse] at h
        cases h
  · rename_i q d hpc
    obtain rfl : pc = .available q d := hpc
    cases c with
    | available yes =>
      cases yes with
      | true =>
        cases h
        exact ⟨_, rfl⟩
      | false => cases hyes
    | _ => cases h
  · cases hasks

/-- A step of the steady runtime is one of the runtime that leaves the inventory, and does not end a
call of `t` that asks for `p`. -/
theorem steady_step (h : (steady cfg t p).lts.step s (u, e) s') :
    (system cfg).lts.step s (u, e) s' ∧ s'.shared.registry = s.shared.registry ∧
      (u = t → ∀ k, (s.thread t).call = some k → asks p k → (s'.thread t).call.isSome) := by
  obtain ⟨c, th', hnext, hsh, hth, hother⟩ := Machine.step_inv h
  simp only [steady] at hnext
  split at hnext
  · cases hnext
  · rename_i hyes
    obtain ⟨hnext, hpublish⟩ := Option.filter_eq_some_iff.mp hnext
    refine ⟨Machine.step_of_next (M := system cfg) hnext hsh hth hother, ?_, ?_⟩
    · rw [hsh]
      refine Shared.registry_apply fun registry heq => ?_
      simp [show e = _ from heq, publishes] at hpublish
    · rintro rfl ⟨request, pc⟩ hk hasks
      have hyes : answersYes c := by
        by_contra hno
        exact hyes ⟨rfl, by simp [hk, hasks], by simpa using hno⟩
      simp only [Thread.next, hk] at hnext
      obtain ⟨⟨e', n⟩, hcall, heq⟩ := Option.map_eq_some_iff.mp hnext
      obtain ⟨pc', rfl⟩ := callNext_answered hasks hyes hcall
      cases heq
      rw [hth]
      rfl

end

theorem steady_run (h : Run (steady cfg t p).lts s tr s') :
    SystemRun cfg s tr s' ∧ s'.shared.registry = s.shared.registry := by
  induction h with
  | refl => exact ⟨Run.refl, rfl⟩
  | snoc _ hstep ih =>
    obtain ⟨hsys, hregistry, -⟩ := steady_step hstep
    exact ⟨ih.1.snoc hsys, hregistry.trans ih.2⟩

/-- A `next` of the runtime is one of the steady runtime, where it publishes nothing and does not
answer a call of `t` with no. -/
theorem steady_next {sh : Shared} {u : ThreadId} {th th' : Thread} {c : Choice} {e : Effect}
    (h : th.next cfg sh u c = some (e, th')) (he : publishes e = false)
    (hyes : u = t → answersYes c) : (steady cfg t p).next sh u th c = some (e, th') := by
  have hnot : ¬ (u = t ∧ th.call.any (asks p) ∧ answersYes c = false) := by
    rintro ⟨hu, -, hno⟩
    rw [hyes hu] at hno
    cases hno
  simp only [steady, if_neg hnot, h]
  simp [he]

theorem steady_of_calls (h : SystemRun cfg s tr s')
    (hcalls : ∀ i ∈ tr, i.2.1 ≠ t ∧ ∃ e, i.2.2 = .call e) : Run (steady cfg t p).lts s tr s' := by
  induction h with
  | refl => exact Run.refl
  | @snoc tr s₁ s₂ l _ hstep ih =>
    obtain ⟨hne, e, he⟩ := hcalls (s₁, l) (by simp)
    refine (ih fun i hi => hcalls i (by simp [hi])).snoc ?_
    obtain ⟨c, th', hnext, hsh, hth, hother⟩ := Machine.step_inv hstep
    have hpublish : publishes l.2 = false := by
      rw [show l.2 = .call e from he]
      rfl
    exact Machine.step_of_next (M := steady cfg t p)
      (steady_next hnext hpublish fun hu => absurd hu hne) hsh hth hother

/-! ### The end of the ladder -/

/-- The last step of the ladder of `t`'s trigger. -/
def EndsLadder (t : ThreadId) (i : SystemState × ThreadId × Effect) : Prop :=
  i.2.1 = t ∧ ∃ result, (i.1.thread t).op = .trigger (.ladder (.run [] result))

/-- The thread is inside the ladder of a trigger. A call of it is a safe-state call. -/
def InLadder (t : ThreadId) (s : SystemState) : Prop :=
  ∃ pc, (s.thread t).op = .trigger (.ladder pc) ∧ ∀ c rest result, pc = .calling c rest result →
    ∃ k, (s.thread t).call = some k ∧ k.request.safeState

/-- How many steps the ladder has left, at most. -/
def ladderRank (cfg : SystemConfig) (sh : Shared) (th : Thread) : Nat :=
  match th.op with
  | .trigger (.ladder .plan) =>
    20 * (rungCalls (plannedSafeStateKind sh.registry cfg.safety) sh.registry cfg.safety).length + 3
  | .trigger (.ladder (.rung kind)) => 20 * (rungCalls kind sh.registry cfg.safety).length + 2
  | .trigger (.ladder (.run rest _)) => 20 * rest.length + 1
  | .trigger (.ladder (.calling _ rest _)) =>
    20 * rest.length + 1 + th.call.elim 0 fun k => callRank k.pc
  | _ => 0

/-- A step of a thread inside the ladder: it stays inside and has fewer steps left, or it is the
last one. -/
theorem inLadder_step (hshaped : (s.thread t).Shaped) (hstep : (system cfg).lts.step s (t, e) s')
    (hregistry : s'.shared.registry = s.shared.registry) (hs : InLadder t s) :
    (InLadder t s' ∧ ladderRank cfg s'.shared (s'.thread t) <
        ladderRank cfg s.shared (s.thread t)) ∨ EndsLadder t (s, t, e) := by
  obtain ⟨pc, hop, hcalling⟩ := hs
  obtain ⟨th', hth, hts, -, -⟩ := system_step hstep
  cases pc with
  | plan =>
    have hop' := (plan_step hshaped hstep).1 hop
    refine .inl ⟨⟨_, hop', fun c rest result h => by cases h⟩, ?_⟩
    simp only [ladderRank, hop, hop', hregistry]
    omega
  | rung kind =>
    obtain ⟨result, hop'⟩ := (plan_step hshaped hstep).2 kind hop
    refine .inl ⟨⟨_, hop', fun c rest result h => by cases h⟩, ?_⟩
    simp only [ladderRank, hop, hop']
    omega
  | run rest result =>
    cases rest with
    | nil => exact .inr ⟨rfl, result, hop⟩
    | cons c rest =>
      refine .inl ?_
      rcases run_step hts hshaped hop with ⟨-, result', hop'⟩ | ⟨request, hok, hop', hk'⟩
      · rw [← hth] at hop'
        refine ⟨⟨_, hop', fun c rest result h => by cases h⟩, ?_⟩
        simp only [ladderRank, hop, hop', List.length_cons]
        omega
      · rw [← hth] at hop' hk'
        refine ⟨⟨_, hop', fun _ _ _ _ => ⟨_, hk', (RungCall.request_safeState hok).1⟩⟩, ?_⟩
        simp only [ladderRank, hop, hop', hk', List.length_cons, Option.elim_some, callRank]
        omega
  | calling c rest result =>
    obtain ⟨k, hk, hsafe⟩ := hcalling c rest result rfl
    refine .inl ?_
    obtain ⟨ch, e', n, -, hnext, -, hafter⟩ := calling_step hts hshaped hop hk
    rcases hafter with ⟨pc', rfl, hop', hk'⟩ | ⟨res, result', rfl, hop'⟩
    · rw [← hth, hop] at hop'
      rw [← hth] at hk'
      have hlt := callNext_rank hnext
      refine ⟨⟨_, hop', fun _ _ _ _ => ⟨_, hk', hsafe⟩⟩, ?_⟩
      simp only [ladderRank, hop, hop', hk, hk', Option.elim_some]
      omega
    · rw [← hth] at hop'
      refine ⟨⟨_, hop', fun c rest result h => by cases h⟩, ?_⟩
      have hpos : 0 < callRank k.pc := by cases k.pc <;> simp [callRank]
      simp only [ladderRank, hop, hop', hk, Option.elim_some]
      omega

/-! ### Nothing but a provider's lock holds the ladder up -/

/-- A safe-state call reads no mode, so it goes on where its provider's lock is free. -/
theorem callNext_safe (cfg : SystemConfig) {sh : Shared} (t : ThreadId)
    {pc : CallPc} (hsafe : request.safeState)
    (hlock : ∀ target args, pc = .lock target args → sh.providerLock target.providerId = none) :
    ∃ e n, callNext cfg sh t request pc (callChoice pc) = some (e, n) := by
  have hsome : (callNext cfg sh t request pc (callChoice pc)).isSome := by
    generalize hc : callChoice pc = c
    fun_cases callNext cfg sh t request pc c <;> simp_all [refuse, callChoice]
    case case12 hother => exact hother _ _ rfl
    case case42 hother => exact hother _ _ hc.symm
  obtain ⟨⟨e, n⟩, h⟩ := Option.isSome_iff_exists.mp hsome
  exact ⟨e, n, h⟩

theorem triggerNext_ladder (cfg : SystemConfig) (sh : Shared) {pc : LadderPc}
    (hpc : ∀ c rest result, pc ≠ .calling c rest result) :
    ∃ n, triggerNext cfg sh (.ladder pc) .go = some (.silent, n) := by
  have hladder : ∃ n, ladderNext cfg sh {} pc = some n := by
    cases pc with
    | calling c rest result => exact absurd rfl (hpc c rest result)
    | run rest result =>
      cases rest with
      | nil => exact ⟨_, rfl⟩
      | cons c rest =>
        cases hrequest : c.request <;>
          exact ⟨_, by simp [ladderNext, hrequest, SortedMap.find?, SortedMap.empty]; rfl⟩
    | _ => exact ⟨_, rfl⟩
  obtain ⟨n, hn⟩ := hladder
  simp only [triggerNext, hn]
  cases n with
  | done result =>
    simp only
    split <;> exact ⟨_, rfl⟩
  | _ => exact ⟨_, rfl⟩

section
variable {g₀ g : SystemState}

/-- Inside the ladder, the thread can take a step, after some steps of other threads' calls. -/
theorem ladder_can_step (h0 : SystemStart g₀) (h : SystemRun cfg g₀ tr g) (hg : InLadder t g) :
    ∃ tr' s s' e, Run (steady cfg t p).lts g tr' s ∧ s.thread t = g.thread t ∧
      (steady cfg t p).lts.step s (t, e) s' := by
  obtain ⟨pc, hop, hcalling⟩ := hg
  have hshaped := shaped_run h0 h t
  by_cases hpc : ∃ c rest result, pc = .calling c rest result
  · obtain ⟨c, rest, result, rfl⟩ := hpc
    obtain ⟨⟨request, kpc⟩, hk, hsafe⟩ := hcalling c rest result rfl
    -- first the provider's lock, where the call waits for it
    obtain ⟨tr', s, hrun, hth, hfree⟩ : ∃ tr' s, Run (steady cfg t p).lts g tr' s ∧
        s.thread t = g.thread t ∧ ∀ target args, kpc = .lock target args →
          s.shared.providerLock target.providerId = none := by
      by_cases hlock : ∃ target args, kpc = .lock target args
      · obtain ⟨target, args, rfl⟩ := hlock
        have hnot : g.shared.providerLock target.providerId ≠ some t := by
          intro howner
          have hinside := (providerLock_run h0 h target.providerId t).mpr howner
          simp [Thread.holdsProvider, hk, CallPc.held] at hinside
        obtain ⟨tr', s, hrun, hcalls, hth, -, hfree⟩ := frees_providerLock h0 h hnot
        refine ⟨tr', s, steady_of_calls hrun hcalls, hth, fun target' args' heq => ?_⟩
        obtain ⟨rfl, -⟩ := CallPc.lock.inj heq
        exact hfree
      · exact ⟨[], g, Run.refl, rfl, fun target args heq => absurd ⟨target, args, heq⟩ hlock⟩
    obtain ⟨e, n, hnext⟩ := callNext_safe cfg t hsafe hfree
    have hthread : (s.thread t).next cfg s.shared t (callChoice kpc) =
        some (.call e, (s.thread t).withCall request n) := by
      simp [Thread.next, hth, hk, hnext]
    have hyes : answersYes (callChoice kpc) := by cases kpc <;> rfl
    obtain ⟨s', hstep, -⟩ := Machine.exists_step
      (steady_next (t := t) (p := p) hthread rfl fun _ => hyes)
    exact ⟨tr', s, s', _, hrun, hth, hstep⟩
  · have hpc' : ∀ c rest result, pc ≠ .calling c rest result :=
      fun c rest result heq => hpc ⟨c, rest, result, heq⟩
    have hquiet : (g.thread t).mode = none ∧ (g.thread t).call = none := by
      refine hshaped.quiet (by rw [hop]; rfl) ?_
      rw [hop]
      cases pc with
      | calling c rest result => exact absurd rfl (hpc' c rest result)
      | _ => rfl
    obtain ⟨n, hnext⟩ := triggerNext_ladder cfg g.shared hpc'
    have hthread : (g.thread t).next cfg g.shared t .go =
        some (.control .silent, (g.thread t).withOp n) := by
      simp [Thread.next, hquiet, hop, opNext, hnext]
    obtain ⟨s', hstep, -⟩ := Machine.exists_step
      (steady_next (t := t) (p := p) hthread rfl fun _ => rfl)
    exact ⟨[], g, s', _, Run.refl, rfl, hstep⟩

theorem ladder_ends (h0 : SystemStart g₀) (h : SystemRun cfg g₀ tr g) (hg : InLadder t g) :
    ∃ tr' g', Run (steady cfg t p).lts g tr' g' ∧ ∃ k ∈ tr', EndsLadder t k := by
  -- the rank falls with each step of the thread, until it is at the last one
  obtain ⟨tr', s, hrun, ⟨⟨tr₀, hrun₀⟩, hs⟩, result, hop⟩ := Run.reaches (T := (steady cfg t p).lts)
    (I := fun s => (∃ tr, SystemRun cfg g₀ tr s) ∧ InLadder t s)
    (G := fun s => ∃ result, (s.thread t).op = .trigger (.ladder (.run [] result)))
    (fun s => ladderRank cfg s.shared (s.thread t))
    (by
      rintro s ⟨⟨tr, hrun⟩, hs⟩ hend
      obtain ⟨tr', s₁, s₂, e, hrun₁, hth, hstep⟩ := ladder_can_step (p := p) h0 hrun hs
      obtain ⟨hsys, hregistry⟩ := steady_run hrun₁
      obtain ⟨hsys₂, hregistry₂, -⟩ := steady_step hstep
      have hrun' := hrun.append hsys
      have hs₁ : InLadder t s₁ := by
        unfold InLadder
        rw [hth]
        exact hs
      have hrank : ladderRank cfg s₁.shared (s₁.thread t) = ladderRank cfg s.shared
        (s.thread t) := by
        simp only [ladderRank, hth, hregistry]
      rcases inLadder_step (shaped_run h0 hrun' t) hsys₂ hregistry₂ hs₁ with
        ⟨hs₂, hlt⟩ | ⟨-, result, hop⟩
      · exact ⟨_, s₂, hrun₁.snoc hstep, ⟨⟨_, hrun'.snoc hsys₂⟩, hs₂⟩, .inr (by omega)⟩
      · rw [hth] at hop
        exact absurd ⟨result, hop⟩ hend)
    ⟨⟨tr, h⟩, hg⟩
  obtain ⟨tr₁, s₁, s₂, e, hrun₁, hth, hstep⟩ := ladder_can_step (p := p) h0 hrun₀ hs
  refine ⟨_, s₂, (hrun.append hrun₁).snoc hstep, (s₁, t, e), by simp, rfl, result, ?_⟩
  show (s₁.thread t).op = _
  rw [hth, hop]

end

end Anolis.Proofs.SteadyLadder
