import Anolis.Provider.ProviderHandle

/-!
# Only an answered failure latches a device

A provider that reports a dead device, and a provider that is dead itself, give a poll the same
status codes. `poll_device` tells them apart by asking whether the session is still available after
the failure, and that is sound because of the order inside `send_request`: every failure without an
answer that has one of those codes marks the session unhealthy before the request returns, and
nothing makes it healthy again.

`only_answered_failures_latch` says both halves. `Sound` is what holds of a thread at each place: of
a poll that may still reach the sink, either the exchange has no such failure and a transport status
was the provider's answer, or the session is unhealthy, so that the look at the session will end it.

One way out of `wait_for_response` gives a deadline and leaves the session healthy: a `read_frame`
that fails without an error text. It is never taken (`frameNext_failed`), because the text is the
client's own and the mutex keeps it for the request that set it.
-/

namespace Anolis.Proofs.AnsweredLoss

open Control Lib Protocol Provider

variable {c : SessionChoice} {edge : ReachabilityEdge} {pc pc' : SessionPc} {cfg : HandleConfig}
  {ex : List SessionEffect} {sh sh' : SessionShared} {e : SessionEffect} {t : ThreadId}
  {unhealthy : Bool} {message : String}

/-- Does the step issue a request of the thread `t`. -/
def issues (t : ThreadId) (i : SessionState × ThreadId × SessionEffect) : Bool :=
  match i.2.2 with
  | .issued _ _ => i.2.1 = t
  | _ => false

/-- What the thread `t` did since it issued its last request. -/
def exchange (t : ThreadId) (tr : SessionTrace) : List SessionEffect :=
  ((sinceLast (issues t) tr).filter fun i => i.2.1 = t).map fun i => i.2.2

/-- The provider answered the `ReadSignals` of the exchange with this status, in a frame that
carries its request id. -/
def Answered (cfg : HandleConfig) (ex : List SessionEffect) (status : StatusCode) : Prop :=
  ∃ id data response, .issued .readSignals id ∈ ex ∧ .answered id data response ∈ ex ∧
    cfg.parse data = some response ∧ response.requestId = id ∧ response.status = status

/-- A failure without an answer whose status is a transport's. -/
def outOfBand : SessionEffect → Bool
  | .failed status _ _ => transportFailure status
  | .gaveUp => true
  | _ => false

/-- The exchange has no failure without an answer whose status is a transport's. -/
def Clean (ex : List SessionEffect) : Prop := ∀ e ∈ ex, outOfBand e = false

/-- A transport status is the provider's answer. -/
def InBand (cfg : HandleConfig) (ex : List SessionEffect) (status : StatusCode) : Prop :=
  Clean ex ∧ (transportFailure status → Answered cfg ex status)

/-- What a poll's request came to: in-band, or without an answer and with the session lost. -/
def Judged (cfg : HandleConfig) (ex : List SessionEffect) (sh : SessionShared)
    (result : SendResult) : Prop :=
  InBand cfg ex result.status ∨ result.answer = none ∧ sh.healthy = false

/-- What holds of the request of a poll at a place of `send_request`. -/
def SendSound (cfg : HandleConfig) (ex : List SessionEffect) (sh : SessionShared) : SendPc → Prop
  | .unlock result => Judged cfg ex sh result
  | _ => Clean ex

/-- What holds of a poll's request. -/
structure PollSound (cfg : HandleConfig) (ex : List SessionEffect) (sh : SessionShared)
    (x : Exchange) (pc : SendPc) : Prop where
  kind : x.kind = .readSignals
  bounded : x.bounded = false
  issued : .issued .readSignals x.id ∈ ex
  sound : SendSound cfg ex sh pc

/-- What holds of a thread at a place. -/
def Sound (cfg : HandleConfig) (ex : List SessionEffect) (sh : SessionShared) : SessionPc → Prop
  | .issue handle kind bounded =>
    (handle.isSome → kind = .readSignals ∧ bounded = false) ∧
      (bounded → kind = .getHealth)
  | .send handle x pc =>
    (pc = .frameFailed → sh.clientError ≠ "") ∧ (handle.isSome → PollSound cfg ex sh x pc) ∧
      (x.bounded → .issued .getHealth x.id ∈ ex)
  | .missing _ result | .shutdown _ result | .available _ result _ => Judged cfg ex sh result
  | .failedSection _ result _ providerLost => providerLost = false → InBand cfg ex result.status
  | .appliedSection _ _ => Clean ex
  | .sink edge => Clean ex ∧ (edge.transportLoss → Answered cfg ex edge.lastStatus)
  | .idle | .stopLock | .stopSession | .stopUnlock => True

/-! ### What an effect adds to an exchange -/

/-- The exchange after one more effect of the thread. -/
def extend (ex : List SessionEffect) (e : SessionEffect) : List SessionEffect :=
  match e with
  | .issued _ _ => [e]
  | _ => ex ++ [e]

/-- An effect that issues no request and is no failure without an answer. -/
def plain : SessionEffect → Bool
  | .issued _ _ | .failed _ _ _ | .gaveUp => false
  | _ => true

section
variable {status : StatusCode} {result : SendResult}

theorem extend_plain (he : plain e) : extend ex e = ex ++ [e] := by
  cases e <;> first | rfl | cases he

theorem Clean.snoc (h : Clean ex) (he : outOfBand e = false) : Clean (ex ++ [e]) := by
  exact forall_snoc h he

theorem Clean.extend (h : Clean ex) (he : plain e) : Clean (extend ex e) := by
  rw [extend_plain he]
  exact h.snoc (by cases e <;> first | rfl | cases he)

theorem Answered.extend (h : Answered cfg ex status) (he : plain e) :
    Answered cfg (extend ex e) status := by
  obtain ⟨id, data, response, hissued, hanswered, hrest⟩ := h
  rw [extend_plain he]
  exact ⟨id, data, response, List.mem_append_left _ hissued, List.mem_append_left _ hanswered,
    hrest⟩

theorem InBand.extend (h : InBand cfg ex status) (he : plain e) : InBand cfg (extend ex e) status :=
  ⟨h.1.extend he, fun ht => (h.2 ht).extend he⟩

theorem Judged.mono (h : Judged cfg ex sh result) (hh : sh'.healthy → sh.healthy) :
    Judged cfg ex sh' result := by
  rcases h with h | ⟨hnone, hlost⟩
  · exact .inl h
  · refine .inr ⟨hnone, Bool.eq_false_of_not_eq_true fun hup => ?_⟩
    rw [hlost] at hh
    exact absurd (hh hup) (by decide)

theorem Judged.extend (h : Judged cfg ex sh result) (he : plain e) :
    Judged cfg (extend ex e) sh result := by
  rcases h with h | h
  · exact .inl (h.extend he)
  · exact .inr h

theorem healthy_of_apply (h : (sh.apply t e).healthy) : sh.healthy := by
  cases e <;> simp_all [SessionShared.apply]

theorem sendSound_pending {pc : SendPc} (hpc : pc.pending) : SendSound cfg ex sh pc ↔ Clean ex := by
  cases pc <;> first | exact Iff.rfl | cases hpc

theorem sound_afterRead {handle : String} (h : Judged cfg ex sh result) :
    Sound cfg ex sh (afterRead handle result) := by
  unfold afterRead
  split
  · rename_i hok
    -- an answer is in-band
    have hband : InBand cfg ex result.status := by
      rcases h with h | ⟨hnone, -⟩
      · exact h
      · simp [SendResult.ok, hnone] at hok
    split
    · split
      · exact hband.1
      · exact .inl ⟨hband.1, by simp [transportFailure]⟩
    · exact h
  · exact h

end

/-! ### One step -/

theorem PollSound.go {x : Exchange} {pc pc' : SendPc} (h : PollSound cfg ex sh x pc)
    (he : extend ex e = ex ++ [e]) (hsound : SendSound cfg (extend ex e) sh' pc') :
    PollSound cfg (extend ex e) sh' x pc' :=
  ⟨h.kind, h.bounded, by rw [he]; exact List.mem_append_left _ h.issued, hsound⟩

/-- A failure without an answer keeps the exchange clean, or leaves the session unhealthy. -/
theorem judged_failed {status : StatusCode}
    (hclean : Clean ex) (hlost : transportFailure status → unhealthy ∨ sh.healthy = false) :
    Judged cfg (extend ex (.failed status message unhealthy))
      (sh.apply t (.failed status message unhealthy)) ⟨status, none⟩ := by
  by_cases ht : transportFailure status
  · refine .inr ⟨rfl, ?_⟩
    rcases hlost ht with hu | hh <;> simp [SessionShared.apply, *]
  · exact .inl ⟨hclean.snoc (Bool.eq_false_of_not_eq_true ht), fun h => absurd h ht⟩

theorem sound_send {handle : Option String} {x : Exchange} {pc : SendPc} {n : SendNext}
    (h : Sound cfg ex sh (.send handle x pc)) (hstep : SendStep cfg sh x.bounded x.id pc e n) :
    Sound cfg (extend ex e) (sh.apply t e) (afterSend handle x n) := by
  obtain ⟨hframe, hpoll, hprobe⟩ := h
  cases hstep with
  | giveUp hb =>
    cases handle with
    | none => trivial
    | some handle =>
      have hbounded := (hpoll rfl).bounded
      rw [hb] at hbounded
      cases hbounded
  | enter _ =>
    exact ⟨by simp, fun hsome => (hpoll hsome).go rfl (Clean.extend (hpoll hsome).sound rfl),
      fun hb => List.mem_append_left _ (hprobe hb)⟩
  | silent hpc hpc' hne =>
    refine ⟨fun heq => absurd heq hne, fun hsome => (hpoll hsome).go rfl ?_,
      fun hb => List.mem_append_left _ (hprobe hb)⟩
    rw [sendSound_pending hpc']
    exact Clean.extend ((sendSound_pending hpc).mp (hpoll hsome).sound) rfl
  | client text hpc hpc' htext =>
    refine ⟨htext, fun hsome => (hpoll hsome).go rfl ?_,
      fun hb => List.mem_append_left _ (hprobe hb)⟩
    rw [sendSound_pending hpc']
    exact Clean.extend ((sendSound_pending hpc).mp (hpoll hsome).sound) rfl
  | fail unhealthy status message hpc hlost =>
    refine ⟨by simp, fun hsome => (hpoll hsome).go rfl ?_,
      fun hb => List.mem_append_left _ (hprobe hb)⟩
    refine judged_failed ((sendSound_pending hpc).mp (hpoll hsome).sound) fun ht => ?_
    rcases hlost ht with hu | hh | ⟨hpc, hempty⟩
    · exact .inl hu
    · exact .inr hh
    · exact absurd hempty (hframe hpc)
  | answer data response hparse hid =>
    refine ⟨by simp, fun hsome => (hpoll hsome).go rfl (.inl
      ⟨Clean.extend (hpoll hsome).sound rfl, fun _ => ⟨x.id, data, response, ?_, ?_, hparse, hid,
        rfl⟩⟩), fun hb => List.mem_append_left _ (hprobe hb)⟩
    · exact List.mem_append_left _ (hpoll hsome).issued
    · exact List.mem_concat_self
  | leave result =>
    cases handle with
    | none => trivial
    | some handle => exact sound_afterRead (Judged.extend (hpoll rfl).sound rfl)

theorem Sound.step (h : Sound cfg ex sh pc) (hnext : sessionNext cfg sh pc c = some (e, pc')) :
    Sound cfg (extend ex e) (sh.apply t e) pc' := by
  revert hnext
  fun_cases sessionNext cfg sh pc c <;> intro hnext
  case case9 handle x pc =>
    obtain ⟨n, hsend, rfl⟩ := sessionNext_send hnext
    exact sound_send h hsend
  all_goals cases hnext
  case case1 => exact ⟨fun _ => ⟨rfl, rfl⟩, by simp⟩
  case case2 | case3 => exact ⟨by simp, by simp⟩
  case case8 handle kind bounded id =>
    refine ⟨by simp, fun hsome => ?_, fun hb => ?_⟩
    · obtain ⟨rfl, hbounded⟩ := h.1 hsome
      refine ⟨rfl, hbounded, List.mem_singleton.mpr rfl, fun e hmem => ?_⟩
      rw [List.mem_singleton.mp hmem]
      rfl
    · rw [h.2 hb]
      exact List.mem_singleton.mpr rfl
  case case11 | case12 => exact Judged.extend h rfl
  case case14 handle result shuttingDown alive =>
    -- the session is there, so the failure was in-band
    intro hlost
    rcases h with h | ⟨-, hdown⟩
    · exact InBand.extend h rfl
    · simp [hdown] at hlost
  case case16 handle result shuttingDown providerLost =>
    cases hedge : sh.cache.lossEdge? result.status shuttingDown providerLost handle with
    | none => trivial
    | some edge =>
      obtain ⟨rfl, -, hlost, -⟩ := State.Cache.of_lossEdge? hedge
      have hband := InBand.extend (h hlost)
        (e := .readFailed result.status shuttingDown providerLost handle) rfl
      refine ⟨hband.1, fun hloss => hband.2 ?_⟩
      simpa [ReachabilityEdge.transportLoss] using hloss
  case case17 handle readings time =>
    cases hedge : (if sh.cache.sinkSet then sh.cache.returnEdge? handle else none) with
    | none => trivial
    | some edge =>
      obtain ⟨-, hreturn⟩ := Option.ite_none_right_eq_some.mp hedge
      obtain ⟨rfl, -⟩ := State.Cache.of_returnEdge? hreturn
      exact ⟨Clean.extend h rfl, fun hloss => by cases hloss⟩
  all_goals trivial

/-- What other threads do leaves what holds of a thread: none makes the session healthy, and
inside the mutex none touches the client's error text. -/
theorem Sound.mono (h : Sound cfg ex sh pc) (hhealthy : sh'.healthy → sh.healthy)
    (herror : pc.holds → sh'.clientError = sh.clientError) : Sound cfg ex sh' pc := by
  cases pc with
  | send handle x pc =>
    obtain ⟨hframe, hpoll, hprobe⟩ := h
    refine ⟨fun hpc => ?_, fun hsome => ?_, hprobe⟩
    · rw [herror (by rw [hpc]; rfl)]
      exact hframe hpc
    · obtain ⟨hkind, hbounded, hissued, hsound⟩ := hpoll hsome
      refine ⟨hkind, hbounded, hissued, ?_⟩
      cases pc with
      | unlock result => exact Judged.mono hsound hhealthy
      | _ => exact hsound
  | missing | shutdown | available => exact Judged.mono h hhealthy
  | _ => exact h

/-! ### Runs -/

theorem exchange_snoc (t u : ThreadId) (tr : SessionTrace) (g : SessionState) (e : SessionEffect) :
    exchange t (tr ++ [(g, u, e)]) = if u = t then extend (exchange t tr) e else exchange t tr := by
  rw [exchange, sinceLast_snoc]
  by_cases hu : u = t
  · subst hu
    cases e <;> simp [issues, extend, exchange]
  · have hno : issues t (g, u, e) = false := by
      cases e <;> simp [issues, hu]
    simp [hno, hu, exchange]

section
variable {g₀ g g' : SessionState} {tr : SessionTrace}

theorem holds_of_clientError (hnext : sessionNext cfg sh pc c = some (e, pc')) :
    (sh.apply t e).clientError = sh.clientError ∨ pc.holds := by
  revert hnext
  fun_cases sessionNext cfg sh pc c <;> intro hnext
  case case9 handle x pc =>
    obtain ⟨n, hsend, rfl⟩ := sessionNext_send hnext
    cases hsend with
    | client text hpc _ _ => exact .inr (SendPc.held_of_pending hpc)
    | _ => exact .inl rfl
  all_goals cases hnext
  all_goals exact .inl rfl

theorem sound_run (h0 : SessionStart g₀) (h : Run (session cfg).lts g₀ tr g) :
    ∀ t, Sound cfg (exchange t tr) g.shared (g.thread t) := by
  refine Run.induct (J := fun tr g => ∀ t, Sound cfg (exchange t tr) g.shared (g.thread t))
    ?_ ?_ h
  · intro t
    rw [h0.2]
    trivial
  · rintro tr g ⟨u, e⟩ g' hrun ih hstep t
    obtain ⟨c, pc', hnext, hsh, hth, hother⟩ := Machine.step_inv hstep
    have hsh : g'.shared = g.shared.apply u e := hsh
    rw [exchange_snoc, hsh]
    rcases eq_or_ne u t with rfl | hu
    · rw [if_pos rfl, hth]
      exact (ih u).step hnext
    · rw [if_neg hu, hother t (Ne.symm hu)]
      refine (ih t).mono healthy_of_apply fun hheld => ?_
      rcases holds_of_clientError hnext with hsame | hin
      · exact hsame
      · exact absurd (Machine.lock_excl (session_lock_run h0 hrun) hin hheld) hu

/-- A failure without an answer that has a transport's status leaves the session unhealthy. -/
theorem unhealthy_of_failed {status : StatusCode}
    (hsound : Sound cfg (exchange t tr) g.shared (g.thread t))
    (hstep : (session cfg).lts.step g (t, .failed status message unhealthy) g')
    (ht : transportFailure status) : g'.shared.healthy = false := by
  obtain ⟨c, pc', hnext, hsh, -, -⟩ := Machine.step_inv hstep
  have hsh : g'.shared = g.shared.apply t (.failed status message unhealthy) := hsh
  have hnext : sessionNext cfg g.shared (g.thread t) c =
      some (.failed status message unhealthy, pc') := hnext
  rw [hsh]
  revert hnext hsound
  fun_cases sessionNext cfg g.shared (g.thread t) c <;> intro hsound hnext
  case case9 handle x pc =>
    obtain ⟨n, hsend, -⟩ := sessionNext_send hnext
    cases hsend with
    | fail _ _ _ hpc hlost =>
      rcases hlost ht with hu | hh | ⟨hpc, hempty⟩
      · simp [SessionShared.apply, hu]
      · simp [SessionShared.apply, hh]
      · exact absurd hempty (hsound.1 hpc)
  all_goals cases hnext

theorem issued_of_gaveUp (hsound : Sound cfg (exchange t tr) g.shared (g.thread t))
    (hstep : (session cfg).lts.step g (t, .gaveUp) g') :
    ∃ id, .issued .getHealth id ∈ exchange t tr := by
  obtain ⟨c, pc', hnext, -, -, -⟩ := Machine.step_inv hstep
  have hnext : sessionNext cfg g.shared (g.thread t) c = some (.gaveUp, pc') := hnext
  revert hnext hsound
  fun_cases sessionNext cfg g.shared (g.thread t) c <;> intro hsound hnext
  case case9 handle x pc =>
    obtain ⟨n, hsend, -⟩ := sessionNext_send hnext
    cases hsend with
    | giveUp hb => exact ⟨x.id, hsound.2.2 hb⟩
  all_goals cases hnext

theorem sessionNext_sink (hnext : sessionNext cfg sh pc c = some (.sink edge, pc')) :
    pc = .sink edge := by
  revert hnext
  fun_cases sessionNext cfg sh pc c <;> intro hnext
  case case9 handle x pc =>
    obtain ⟨n, hsend, -⟩ := sessionNext_send hnext
    cases hsend
  all_goals cases hnext
  rfl

theorem sound_sink (h0 : SessionStart g₀) (hrun : Run (session cfg).lts g₀ tr g)
    (hstep : (session cfg).lts.step g (t, .sink edge) g') : Clean (exchange t tr) ∧
      (edge.transportLoss → Answered cfg (exchange t tr) edge.lastStatus) := by
  obtain ⟨c, pc', hnext, -, -, -⟩ := Machine.step_inv hstep
  have hsound := sound_run h0 hrun t
  rw [sessionNext_sink hnext] at hsound
  exact hsound

end

/-- In every run of polls, other requests and stops on one session, whatever the provider's bytes,
the timing and the process do:

- where a poll's call of the sink latches a device, the provider had answered that poll's
  `ReadSignals`, in a frame that carries its request id, with UNAVAILABLE or DEADLINE_EXCEEDED;
- a failure of an exchange without an answer that has one of these codes leaves the session
  unhealthy for good;
- the exchange of no sink call has such a failure;
- and only a health probe, which has sent nothing, gives up on the mutex. -/
theorem only_answered_failures_latch (cfg : HandleConfig) {g₀ g : SessionState}
    {tr : SessionTrace} (h0 : SessionStart g₀) (hrun : Run (session cfg).lts g₀ tr g) :
    (∀ tr₁ s t edge tr₂, tr = tr₁ ++ (s, t, .sink edge) :: tr₂ →
      s.shared.latch.latched edge.deviceHandle = false →
      (s.shared.latch.applyReachabilityEdge edge).1.latched edge.deviceHandle →
      ∃ id data response, .issued .readSignals id ∈ exchange t tr₁ ∧
        .answered id data response ∈ exchange t tr₁ ∧ cfg.parse data = some response ∧
        response.requestId = id ∧
        (response.status = .unavailable ∨ response.status = .deadlineExceeded)) ∧
    (∀ tr₁ s t status message unhealthy tr₂,
      tr = tr₁ ++ (s, t, .failed status message unhealthy) :: tr₂ →
      status = .unavailable ∨ status = .deadlineExceeded →
      (∀ i ∈ tr₂, i.1.shared.healthy = false) ∧ g.shared.healthy = false) ∧
    (∀ tr₁ s t edge tr₂, tr = tr₁ ++ (s, t, .sink edge) :: tr₂ →
      ∀ e ∈ exchange t tr₁, outOfBand e = false) ∧
    ∀ tr₁ s t tr₂, tr = tr₁ ++ (s, t, .gaveUp) :: tr₂ →
      ∃ id, .issued .getHealth id ∈ exchange t tr₁ := by
  refine ⟨?_, ?_, ?_, ?_⟩
  · rintro tr₁ s t edge tr₂ rfl hbefore hafter
    have hloss : edge.transportLoss := by
      simpa [DeviceLossLatch.applyReachabilityEdge_latched, hbefore] using hafter
    obtain ⟨hrun₁, s₁, hstep, -⟩ := hrun.at_step
    obtain ⟨id, data, response, hissued, hanswered, hparse, hid, hstatus⟩ :=
      (sound_sink h0 hrun₁ hstep).2 hloss
    refine ⟨id, data, response, hissued, hanswered, hparse, hid, ?_⟩
    rw [hstatus]
    simpa [ReachabilityEdge.transportLoss, transportFailure] using (Bool.and_eq_true_iff.mp hloss).2
  · rintro tr₁ s t status message unhealthy tr₂ rfl hstatus
    obtain ⟨hrun₁, s₁, hstep, hrun₂⟩ := hrun.at_step
    have hdown : s₁.shared.healthy = false :=
      unhealthy_of_failed (sound_run h0 hrun₁ t) hstep (by simpa [transportFailure] using hstatus)
    have hkeeps := Run.keeps (P := fun s : SessionState => s.shared.healthy = false)
      (L := fun _ => True) (fun s l s' hs _ hstep' => ?_) hrun₂ (fun _ _ => trivial) hdown
    · exact ⟨hkeeps.2, hkeeps.1⟩
    · obtain ⟨-, -, -, hsh, -⟩ := Machine.step_inv hstep'
      refine Bool.eq_false_of_not_eq_true fun hup => ?_
      rw [hsh] at hup
      rw [healthy_of_apply hup] at hs
      cases hs
  · rintro tr₁ s t edge tr₂ rfl
    obtain ⟨hrun₁, s₁, hstep, -⟩ := hrun.at_step
    exact (sound_sink h0 hrun₁ hstep).1
  · rintro tr₁ s t tr₂ rfl
    obtain ⟨hrun₁, s₁, hstep, -⟩ := hrun.at_step
    exact issued_of_gaveUp (sound_run h0 hrun₁ t) hstep

/-! ### A device that does not answer its provider -/

/-- A session whose provider answers the first request with UNAVAILABLE, in the frame `[7]`. -/
def valveHandle : HandleConfig where
  timeoutMs := 1000
  helloTimeoutMs := 1000
  readyTimeoutMs := 1000
  parse data :=
    if data = [7] then
      some { requestId := 1, status := .unavailable, message := "no reply", body := none,
             values := [] }
    else none

/-- The valve of the provider `sim0`. -/
def valve : Registry.RegisteredDevice where
  providerId := "sim0"
  deviceId := "valve"
  functionsById := { entries := [], distinct := List.nodup_nil }
  signalsById := [⟨"level", true⟩]

/-- The cache polls the valve, and no device is latched. -/
def valveSession : SessionState where
  shared := { cache := State.Cache.commitInitial {} [valve] }
  thread _ := .idle

theorem valveSession_start : SessionStart valveSession := ⟨rfl, fun _ => rfl⟩

/-- A poll of the valve up to its call of the sink. The request is written in two writes, the frame
is read in two reads. -/
def pollFails : List (ThreadId × SessionChoice) :=
  [(0, .poll "sim0/valve"), (0, .go), (0, .go), (0, .go), (0, .running true),
    (0, .serialized (some 3)), (0, .wrote 0 .again), (0, .wrote 0 (.wrote 4)),
    (0, .wrote 0 .again), (0, .wrote 0 (.wrote 3)), (0, .elapsed 0), (0, .polled .readable),
    (0, .elapsed 0), (0, .frame {}), (0, .frame { polled := .readable }),
    (0, .frame { received := .bytes [1, 0, 0, 0] }), (0, .frame {}),
    (0, .frame { polled := .readable }), (0, .frame { received := .bytes [7] }), (0, .go), (0, .go),
    (0, .shutdown false), (0, .running true), (0, .go)]

/-- The edge that a step hands to the sink. -/
def sinkEdge? (i : SessionState × ThreadId × SessionEffect) : Option ReachabilityEdge :=
  match i.2.2 with
  | .sink edge => some edge
  | _ => none

theorem eq_sink_of_sinkEdge? {i : SessionState × ThreadId × SessionEffect}
    (h : sinkEdge? i = some edge) : i = (i.1, i.2.1, .sink edge) := by
  obtain ⟨s, t, e⟩ := i
  cases e <;> simp_all [sinkEdge?]

/-- The poll latches the valve, and the provider had answered its `ReadSignals`. -/
theorem only_answered_failures_latch_valve : ∃ tr s t g, Run (session valveHandle).lts valveSession
        (tr ++ [(s, t, .sink ⟨"sim0/valve", false, .unavailable, 1⟩)]) g ∧
      g.shared.latch.latched "sim0/valve" ∧
      ∃ id data response, .issued .readSignals id ∈ exchange t tr ∧
        .answered id data response ∈ exchange t tr ∧
        (response.status = .unavailable ∨ response.status = .deadlineExceeded) := by
  have hexec := Machine.runs_of_passesThen (session valveHandle) valveSession pollFails [(0, .go)]
    (fun _ _ tr₂ g => tr₂.map sinkEdge? = [some ⟨"sim0/valve", false, .unavailable, 1⟩] ∧
      (∀ i ∈ tr₂, i.1.shared.latch.latched "sim0/valve" = false) ∧
      g.shared.latch.latched "sim0/valve") (by decide)
  obtain ⟨tr, s, tr₂, g, hrun₁, hrun₂, hp⟩ := hexec
  obtain ⟨hmap, hbefore, hafter⟩ := hp
  obtain ⟨i, rfl, hedge⟩ := List.map_eq_singleton_iff.mp hmap
  have hrun := hrun₁.append hrun₂
  rw [eq_sink_of_sinkEdge? hedge] at hrun hbefore
  have hanswer := (only_answered_failures_latch valveHandle valveSession_start hrun).1 _ _ _ _ _ rfl
    (by simpa using hbefore) (by simp [DeviceLossLatch.applyReachabilityEdge_latched,
      ReachabilityEdge.transportLoss, transportFailure])
  obtain ⟨id, data, response, hissued, hanswered, -, -, hstatus⟩ := hanswer
  exact ⟨tr, _, _, g, hrun, hafter, id, data, response, hissued, hanswered, hstatus⟩

end Anolis.Proofs.AnsweredLoss
