import Anolis.Proofs.AnsweredLoss
import Anolis.Provider.Wire

/-!
# An answer belongs to its request

One session carries one request at a time, whatever bytes the provider sends and when
(`session_correlation`): the exchanges do not overlap, an answer that a request returns carries the
request's own id, and ids are not issued twice in fewer than `2 ^ 32` requests.

An exchange that fails at any place after its request began to be written, or that `write_frame`
refuses, poisons the session (`Poisoned`): the session is unhealthy, every other thread is before
the look at its health, and no request gets past that look again. So no later byte is written and no
later request is answered, and a late answer is given to nobody.

A request that gives up on the mutex, and one that cannot be serialised, have sent nothing and leave
the session as it is.
-/

namespace Anolis.Proofs.SessionCorrelation

open AnsweredLoss Lib Protocol Provider

variable {cfg : HandleConfig} {sh : SessionShared}

/-- A step of the wire. -/
abbrev Item := SessionState × ThreadId × WireEffect

/-! ### The places of an exchange -/

/-- The places of a request from the first write on, up to its outcome. -/
def exchanging : SendPc → Bool
  | .write _ | .clock | .poll | .readClock | .frame _ _ | .frameFailed | .parse _ | .alive => true
  | .lock | .health | .running | .serialize | .unlock _ => false

/-- Is the thread between the mutex of a request and its end. -/
def inExchange : SessionPc → Bool
  | .send _ _ pc => pc.held
  | _ => false

/-- A failure at a place of an exchange, or of `write_frame` that refuses the request. -/
def FailsExchange (pc : SendPc) (status : StatusCode) : Prop :=
  exchanging pc ∨ pc = .serialize ∧ status = .unavailable

/-- The step is a failure of an exchange: `write_frame` refuses or fails, the wait, the read or the
time fails, the process dies, the response cannot be parsed or has another id. -/
def ExchangeFailed (i : Item) : Prop :=
  ∃ handle x pc status message unhealthy, i.1.thread i.2.1 = .send handle x pc ∧
    i.2.2.effect = .failed status message unhealthy ∧ FailsExchange pc status

/-- The request that a step answers. -/
def answered? (i : Item) : Option Nat :=
  match i.2.2.effect with
  | .answered id _ _ => some id
  | _ => none

/-- The id that a step issues. -/
def issued? (i : Item) : Option Nat :=
  match i.2.2.effect with
  | .issued _ id => some id
  | _ => none

/-- The ids that a run issues. -/
def issuedIds (tr : WireTrace) : List Nat := tr.filterMap issued?

/-! ### Answers -/

/-- What a request has come to at its end: an answer of its own. -/
def OwnAnswer : SessionPc → Prop
  | .send _ x (.unlock result) =>
    ∀ response, result.answer = some response → response.requestId = x.id
  | _ => True

section
variable {pc pc' : SessionPc} {c : SessionChoice} {e : SessionEffect}

theorem ownAnswer_afterRead (handle : String) (result : SendResult) :
    OwnAnswer (afterRead handle result) := by
  unfold afterRead
  repeat' split
  all_goals trivial

theorem ownAnswer_send {bounded : Bool} {handle : Option String} {x : Exchange} {pc : SendPc}
    {n : SendNext} (h : SendStep cfg sh bounded x.id pc e n) :
    OwnAnswer (afterSend handle x n) := by
  cases h with
  | giveUp =>
    cases handle with
    | none => trivial
    | some handle => exact ownAnswer_afterRead handle ⟨.deadlineExceeded, none⟩
  | leave result =>
    cases handle with
    | none => trivial
    | some handle => exact ownAnswer_afterRead handle result
  | enter => trivial
  | @silent _ pc' _ hpc' _ | @client _ pc' _ _ hpc' _ =>
    cases pc' with
    | unlock => cases hpc'
    | _ => trivial
  | fail =>
    intro response hnone
    cases hnone
  | answer data response _ hid =>
    rintro response' ⟨rfl⟩
    exact hid

theorem ownAnswer_step (h : sessionNext cfg sh pc c = some (e, pc')) : OwnAnswer pc' := by
  revert h
  fun_cases sessionNext cfg sh pc c <;> intro h
  case case9 handle x pc =>
    obtain ⟨n, hsend, rfl⟩ := sessionNext_send h
    exact ownAnswer_send hsend
  all_goals cases h
  case case16 | case17 => unfold afterSection; split <;> trivial
  all_goals trivial

end

/-! ### Poisoned sessions -/

/-- A request is not between the look at the session's health and its outcome. -/
def Outside : SessionPc → Prop
  | .send _ _ pc => pc = .lock ∨ pc = .health ∨ ∃ result, pc = .unlock result
  | _ => True

/-- The session is unhealthy, and no request is past the look at that. -/
structure Poisoned (g : SessionState) : Prop where
  unhealthy : g.shared.healthy = false
  outside : ∀ t, Outside (g.thread t)

theorem outside_of_not_holds {pc : SessionPc} (h : pc.holds = false) : Outside pc := by
  cases pc with
  | send handle x pc => cases pc <;> first | exact .inl rfl | cases h
  | _ => trivial

section
variable {g₀ g g' : SessionState} {tr : WireTrace} {t : ThreadId} {e : WireEffect}
  {ex : List SessionEffect} {kind : RequestKind}

/-- A failure of an exchange marks the session, where a failed read leaves an error text. -/
theorem unhealthy_of_fails {bounded : Bool} {id : Nat} {pc : SendPc}
    {c : SessionChoice} {status : StatusCode} {message : String} {unhealthy : Bool}
    {n : SendNext} (hpc : FailsExchange pc status) (htext : pc = .frameFailed → sh.clientError ≠ "")
    (h : sendNext cfg sh kind bounded id pc c = some (.failed status message unhealthy, n)) :
    unhealthy := by
  -- a failed `write_frame` marks the session
  have hwrite : ∀ w, writeResult w = some (.failed status message unhealthy, n) →
      unhealthy = true := by
    intro w hw
    cases w <;> cases hw
    rfl
  revert h
  fun_cases sendNext cfg sh kind bounded id pc c <;> intro h
  case case10 => exact hwrite _ h
  case case13 =>
    obtain ⟨w, -, hw⟩ := Option.bind_eq_some_iff.mp h
    exact hwrite w hw
  case case24 =>
    obtain ⟨r, -, heq⟩ := Option.map_eq_some_iff.mp h
    cases heq
  case case27 htext' => exact absurd (htext rfl) htext'
  all_goals cases h
  all_goals first | rfl | simp [FailsExchange, exchanging] at hpc

/-- A failure of an exchange leaves the session unhealthy, and its thread at the end of the
mutex' section, in which it was. -/
theorem of_exchangeFailed (hsound : Sound cfg ex g.shared (g.thread t))
    (hstep : (wire cfg).lts.step g (t, e) g') (hfail : ExchangeFailed (g, t, e)) :
    g'.shared.healthy = false ∧ (g.thread t).holds ∧
      ∃ handle x result, g'.thread t = .send handle x (.unlock result) := by
  obtain ⟨c, pc', hnext, -, hshared, hth, -⟩ := wire_step_inv hstep
  obtain ⟨handle, x, pc, status, message, unhealthy, hpc, he, hfails⟩ := hfail
  have hpc : g.thread t = .send handle x pc := hpc
  have he : e.effect = .failed status message unhealthy := he
  rw [hpc, he] at hnext
  rw [hpc] at hsound
  obtain ⟨⟨e', n⟩, hsend, heq⟩ := Option.map_eq_some_iff.mp hnext
  obtain ⟨he', rfl⟩ := Prod.mk.inj heq
  have he' : e' = .failed status message unhealthy := he'
  subst he'
  have hun := unhealthy_of_fails hfails hsound.1 hsend
  refine ⟨?_, ?_, ?_⟩
  · rw [hshared, he]
    simp [SessionShared.apply, hun]
  · rw [hpc]
    rcases hfails with hex | ⟨rfl, -⟩
    · cases pc <;> first | rfl | cases hex
    · rfl
  · rw [hth]
    cases sendStep_of_next hsend with
    | fail => exact ⟨handle, x, _, rfl⟩

/-- A failed exchange poisons the session: the other threads are outside the mutex. -/
theorem poisoned_of_exchangeFailed (hsound : Sound cfg ex g.shared (g.thread t))
    (hlock : Machine.LockInv SessionShared.owner SessionPc.holds g)
    (hstep : (wire cfg).lts.step g (t, e) g') (hfail : ExchangeFailed (g, t, e)) : Poisoned g' := by
  obtain ⟨hun, hholds, handle, x, result, hend⟩ := of_exchangeFailed hsound hstep hfail
  obtain ⟨-, -, -, -, -, -, hother⟩ := wire_step_inv hstep
  refine ⟨hun, fun u => ?_⟩
  by_cases hut : u = t
  · subst hut
    rw [hend]
    exact .inr (.inr ⟨result, rfl⟩)
  · rw [hother u hut]
    -- one thread at a time is inside the mutex
    exact outside_of_not_holds (Bool.eq_false_of_not_eq_true fun hin =>
      hut (Machine.lock_excl hlock hin hholds))

/-- A thread outside an exchange stays outside while the session is unhealthy. -/
theorem outside_next {pc pc' : SessionPc} {c : SessionChoice} {e : SessionEffect}
    (hdown : sh.healthy = false) (hpc : Outside pc) (h : sessionNext cfg sh pc c = some (e, pc')) :
    Outside pc' ∧ bytesWritten pc c = 0 ∧ ∀ id data response, e ≠ .answered id data response := by
  revert h
  fun_cases sessionNext cfg sh pc c <;> intro h
  case case9 handle x pc =>
    obtain ⟨⟨e', n⟩, hsend, heq⟩ := Option.map_eq_some_iff.mp h
    cases heq
    rcases hpc with rfl | rfl | ⟨result, rfl⟩
    · cases sendStep_of_next hsend with
      | giveUp => exact ⟨outside_of_not_holds (afterSend_ret_holds handle x _), rfl, by simp⟩
      | enter => exact ⟨.inr (.inl rfl), rfl, by simp⟩
      | silent hpc | client _ hpc | fail _ _ _ hpc => cases hpc
    · -- the look at the session's health ends the request
      simp only [sendNext, hdown, failWith] at hsend
      cases hsend
      exact ⟨.inr (.inr ⟨_, rfl⟩), rfl, by simp⟩
    · cases hsend
      exact ⟨outside_of_not_holds (afterSend_ret_holds handle x _), rfl, by simp⟩
  all_goals cases h
  case case8 => exact ⟨.inl rfl, rfl, by simp⟩
  case case16 | case17 => exact ⟨outside_of_not_holds (afterSection_holds _), rfl, by simp⟩
  all_goals exact ⟨trivial, rfl, by simp⟩

theorem Poisoned.step (h : Poisoned g) (hstep : (wire cfg).lts.step g (t, e) g') :
    Poisoned g' ∧ e.bytes = 0 ∧ answered? (g, t, e) = none := by
  obtain ⟨c, pc', hnext, hbytes, hshared, hth, hother⟩ := wire_step_inv hstep
  obtain ⟨hpc', hzero, hnot⟩ := outside_next h.unhealthy (h.outside t) hnext
  refine ⟨⟨?_, fun u => ?_⟩, hbytes.trans hzero, ?_⟩
  · -- nothing makes the session healthy
    refine Bool.eq_false_of_not_eq_true fun hup => ?_
    rw [hshared] at hup
    have hdown := h.unhealthy
    rw [healthy_of_apply hup] at hdown
    cases hdown
  · rcases eq_or_ne u t with rfl | hut
    · rw [hth]
      exact hpc'
    · rw [hother u hut]
      exact h.outside u
  · unfold answered?
    split
    · rename_i id data response he
      exact absurd he (hnot id data response)
    · rfl

/-! ### Ids -/

/-- The ids of `n` requests from `start` on. -/
def idsFrom (start : UInt32) (n : Nat) : List Nat :=
  (List.range n).map fun k => (start.toNat + k) % 2 ^ 32

theorem idsFrom_succ (start : UInt32) (n : Nat) :
    idsFrom start (n + 1) = idsFrom start n ++ [(start.toNat + n) % 2 ^ 32] := by
  simp [idsFrom, List.range_succ]

theorem nodup_idsFrom (start : UInt32) {n : Nat} (hn : n ≤ 2 ^ 32) : (idsFrom start n).Nodup := by
  refine List.Nodup.map_on (fun a ha b hb heq => ?_) List.nodup_range
  have ha : a < n := List.mem_range.mp ha
  have hb : b < n := List.mem_range.mp hb
  omega

theorem of_issued {pc pc' : SessionPc} {c : SessionChoice} {id : Nat}
    (h : sessionNext cfg sh pc c = some (.issued kind id, pc')) : id = sh.nextRequestId.toNat := by
  revert h
  fun_cases sessionNext cfg sh pc c <;> intro h
  case case9 handle x pc =>
    obtain ⟨n, hsend, -⟩ := sessionNext_send h
    cases hsend
  case case8 =>
    obtain ⟨he, -⟩ := Prod.mk.inj (Option.some.inj h)
    exact (SessionEffect.issued.inj he).2.symm
  all_goals cases h

theorem issuedIds_eq (h : Run (wire cfg).lts g₀ tr g) :
    issuedIds tr = idsFrom g₀.shared.nextRequestId (issuedIds tr).length ∧
      g.shared.nextRequestId.toNat =
        (g₀.shared.nextRequestId.toNat + (issuedIds tr).length) % 2 ^ 32 := by
  induction h with
  | refl =>
    refine ⟨rfl, ?_⟩
    simp [issuedIds, Nat.mod_eq_of_lt (UInt32.toNat_lt _)]
  | @snoc tr s s' l _ hstep ih =>
    obtain ⟨t, ⟨e, bytes⟩⟩ := l
    obtain ⟨c, pc', hnext, -, hshared, -, -⟩ := wire_step_inv hstep
    obtain ⟨hids, hcounter⟩ := ih
    rw [hshared]
    have hsnoc : issuedIds (tr ++ [(s, t, ⟨e, bytes⟩)]) =
        issuedIds tr ++ (issued? (s, t, ⟨e, bytes⟩)).toList := by
      cases hone : issued? (s, t, ⟨e, bytes⟩) <;> simp [issuedIds, hone]
    rw [hsnoc]
    cases e with
    | issued kind id =>
      obtain rfl := of_issued hnext
      have hlen : (issuedIds tr ++ [s.shared.nextRequestId.toNat]).length =
          (issuedIds tr).length + 1 := by simp
      simp only [issued?, Option.toList_some, hlen, idsFrom_succ, SessionShared.apply]
      refine ⟨by rw [← hids, ← hcounter], ?_⟩
      rw [UInt32.toNat_add, hcounter]
      simp only [UInt32.reduceToNat]
      omega
    | _ =>
      simp only [issued?, Option.toList_none, List.append_nil, SessionShared.apply]
      exact ⟨hids, hcounter⟩

/-! ### The result -/

/-- In every run of requests, polls, probes and stops on one session, whatever the provider's bytes,
the timing and the process do: a request that returns true returns an answer with its own id; no two
requests are in an exchange at once; after a failure of an exchange no step writes a byte, and none
answers a request; and fewer than `2 ^ 32` requests have distinct ids. -/
theorem session_correlation (h0 : SessionStart g₀) (h : Run (wire cfg).lts g₀ tr g) :
    (∀ i ∈ tr, ∀ handle x result, i.1.thread i.2.1 = .send handle x (.unlock result) →
      result.ok →
      ∃ response, result.answer = some response ∧ response.requestId = x.id) ∧
    (∀ t u, inExchange (g.thread t) → inExchange (g.thread u) → t = u) ∧
    (∀ tr₁ i tr₂, tr = tr₁ ++ i :: tr₂ → ExchangeFailed i →
      ∀ k ∈ tr₂, k.2.2.bytes = 0 ∧ answered? k = none) ∧
    ((issuedIds tr).length ≤ 2 ^ 32 → (issuedIds tr).Nodup) := by
  refine ⟨fun i hi handle x result hpc hok => ?_, fun t u ht hu => ?_, ?_, fun hcount => ?_⟩
  · obtain ⟨tr₁, tr₂, s₁, -, hbefore, -, -⟩ := h.of_mem hi
    have hown : ∀ t, OwnAnswer (i.1.thread t) :=
      Machine.thread_inv (C := fun _ _ => True) (P := fun _ => OwnAnswer)
        (fun t => by rw [h0.2]; trivial) (fun _ _ _ _ _ _ hn _ => by
          obtain ⟨r, hr, heq⟩ := Option.map_eq_some_iff.mp hn
          cases heq
          exact ownAnswer_step hr) hbefore (fun _ _ => trivial)
    have hanswer := hown i.2.1
    rw [hpc] at hanswer
    have hsome : result.answer.isSome := by
      simp only [SendResult.ok, Bool.and_eq_true] at hok
      exact hok.1
    obtain ⟨response, hresponse⟩ := Option.isSome_iff_exists.mp hsome
    exact ⟨response, hresponse, hanswer response hresponse⟩
  · have hlock := session_lock_run h0 (session_of_wire h)
    have hholds : ∀ pc, inExchange pc → pc.holds = true := by
      intro pc hpc
      cases pc <;> first | exact hpc | cases hpc
    exact Machine.lock_excl hlock (hholds _ ht) (hholds _ hu)
  · rintro tr₁ ⟨s, t, e⟩ tr₂ rfl hfail k hk
    obtain ⟨hbefore, s₁, hstep, hafter⟩ := h.at_step
    have hsession := session_of_wire hbefore
    have hpoisoned : Poisoned s₁ := poisoned_of_exchangeFailed (sound_run h0 hsession t)
      (session_lock_run h0 hsession) hstep hfail
    have hkeeps := Run.keeps (P := Poisoned) (L := fun _ => True)
      (fun _ _ _ hp _ hs => (Poisoned.step hp hs).1) hafter (fun _ _ => trivial) hpoisoned
    obtain ⟨-, -, s₂, -, -, hkstep, -⟩ := hafter.of_mem hk
    exact ((hkeeps.2 k hk).step hkstep).2
  · rw [(issuedIds_eq h).1]
    exact nodup_idsFrom _ hcount

end

/-! ### A provider that does not answer in time -/

/-- A session whose provider never sends a frame that can be parsed. -/
def muteHandle : HandleConfig where
  timeoutMs := 1000
  helloTimeoutMs := 1000
  readyTimeoutMs := 1000
  parse _ := none

/-- A healthy session with no thread inside an operation. -/
def quietSession : SessionState where
  shared := {}
  thread _ := .idle

theorem quietSession_start : SessionStart quietSession := ⟨rfl, fun _ => rfl⟩

/-- A call of three bytes up to the wait for its answer. -/
def callSent : List (ThreadId × SessionChoice) :=
  [(0, .request .call), (0, .go), (0, .go), (0, .go), (0, .running true),
    (0, .serialized (some 3)), (0, .wrote 0 .again), (0, .wrote 0 (.wrote 4)),
    (0, .wrote 0 .again), (0, .wrote 0 (.wrote 3))]

/-- The call times out, and another thread makes a call. -/
def callTimesOut : List (ThreadId × SessionChoice) :=
  [(0, .elapsed 1000), (0, .go), (1, .request .call), (1, .go), (1, .go), (1, .go), (1, .go)]

/-- Does the step end the wait of a request. -/
def timesOut (i : Item) : Bool :=
  match i.1.thread i.2.1, i.2.2.effect with
  | .send _ _ .clock, .failed _ _ _ => true
  | _, _ => false

theorem of_timesOut {i : Item} (h : timesOut i) : ExchangeFailed i := by
  unfold timesOut at h
  split at h
  · rename_i handle x status message unhealthy hpc he
    exact ⟨handle, x, .clock, status, message, unhealthy, hpc, he, .inl rfl⟩
  · cases h

/-- After a call that was sent and timed out, the next call writes nothing and is not answered. -/
theorem session_correlation_mute :
    ∃ tr₁ i tr₂ g, Run (wire muteHandle).lts quietSession (tr₁ ++ i :: tr₂) g ∧
      (∃ k ∈ tr₁, k.2.2.bytes = 3) ∧ ExchangeFailed i ∧ issuedIds tr₂ = [2] ∧
      ∀ k ∈ tr₂, k.2.2.bytes = 0 ∧ answered? k = none := by
  obtain ⟨tr₁, s, tr₂, g, hrun₁, hrun₂, hcheck⟩ := Machine.runs_of_passesThen (wire muteHandle)
    quietSession callSent callTimesOut
    (fun tr₁ _ tr₂ _ => (∃ k ∈ tr₁, k.2.2.bytes = 3) ∧ (∃ i ∈ tr₂.head?, timesOut i) ∧
      issuedIds tr₂.tail = [2]) (by decide)
  obtain ⟨hbytes, ⟨i, hi, htime⟩, hids⟩ := hcheck
  have htr₂ : tr₂ = i :: tr₂.tail := (List.cons_head?_tail hi).symm
  have hrun := hrun₁.append hrun₂
  rw [htr₂] at hrun
  exact ⟨tr₁, i, tr₂.tail, g, hrun, hbytes, of_timesOut htime, hids,
    (session_correlation quietSession_start hrun).2.2.1 tr₁ i tr₂.tail rfl (of_timesOut htime)⟩

end Anolis.Proofs.SessionCorrelation
