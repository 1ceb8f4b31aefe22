import Anolis.Proofs.EventOrder
import Anolis.State.StateFeed

/-!
# What the subscribers see of the cache

A state update is decided under the cache's mutex and emitted after it is released. Two threads that
have read one device can apply their reads in one order and emit in the other: the subscriber is
then left with the older value, and nothing corrects it, since a later read of the same value is no
change (`late_update_stays`). Where no read of a device is applied while another thread still has
updates of it to emit, every subscriber's last update is what the cache holds
(`subscribers_converge`).

The invariant is `Shown`: for each device there is at most one thread with updates of it to emit,
and what was pushed to the subscriber followed by that thread's updates ends, for each signal, in
the cached value.
-/

namespace Anolis.Proofs.Convergence

open Function Anolis.Runtime Events EventOrder Lib State

variable {status : StopChainStatus} {staleAfterMs : Int}

/-! ### The last update -/

/-- No event is an update of the device. -/
def NoneOf (handle : String) (events : List EventBody) : Prop :=
  ∀ e ∈ events, ∀ signalId, saysOf handle signalId e = none

variable {handle : String} {events : List EventBody}

theorem filterMap_noneOf (h : NoneOf handle events)
    (signalId : String) : events.filterMap (saysOf handle signalId) = [] :=
  List.filterMap_eq_nil_iff.mpr fun e he => h e he signalId

variable {signalId : String}

theorem lastUpdate_append_none {more : List EventBody} (h : NoneOf handle more) :
    lastUpdate handle signalId (events ++ more) = lastUpdate handle signalId events := by
  simp [lastUpdate, filterMap_noneOf h]

theorem lastUpdate_between {more later : List EventBody} (h : NoneOf handle more) :
    lastUpdate handle signalId (events ++ more ++ later) =
      lastUpdate handle signalId (events ++ later) := by
  simp [lastUpdate, filterMap_noneOf h]

/-- What a cached value looks like to a subscriber. -/
def viewOf (c : CachedSignalValue) : TypedValue × Quality :=
  (typedValue c.value, eventQuality c.quality)

variable {config : PollConfig} {body : EventBody}

theorem pendingUpdates_noneOf {now : Int64} (hne : config.handle ≠ handle) :
    ∀ (readings : List SignalReading) (bits : List Bool)
      (signals : String → Option CachedSignalValue),
      NoneOf handle (pendingUpdates config now bits readings signals) := by
  have hone : ∀ r signalId, saysOf handle signalId (updateOf config r) = none := by
    intro r signalId
    simp only [saysOf, updateOf]
    exact if_neg fun h => hne h.1
  intro readings
  induction readings with
  | nil => exact fun _ _ e he => by cases he
  | cons r rest ih =>
    intro bits signals
    unfold pendingUpdates
    simp only
    split
    · intro e he
      rcases List.mem_cons.mp he with rfl | he
      · exact hone r
      · exact ih _ _ e he
    · exact ih _ _

/-- The updates of a read bring a subscriber from the old values to the new ones. -/
theorem lastUpdate_pendingUpdates {now : Int64} :
    ∀ (readings : List SignalReading) (bits : List Bool)
      (signals : String → Option CachedSignalValue) (events : List EventBody),
      (∀ signalId c, signals signalId = some c →
        lastUpdate config.handle signalId events = some (viewOf c)) →
      ∀ signalId c, storeReadings now readings signals signalId = some c →
        lastUpdate config.handle signalId
          (events ++ pendingUpdates config now bits readings signals) = some (viewOf c) := by
  intro readings
  induction readings with
  | nil =>
    intro bits signals events hold signalId c hc
    simpa [pendingUpdates] using hold signalId c hc
  | cons r rest ih =>
    intro bits signals events hold signalId c hc
    have hc : storeReadings now rest
        (update signals r.signalId (some (r.cached now))) signalId = some c := hc
    have hsame : saysOf config.handle r.signalId (updateOf config r) =
        some (viewOf (r.cached now)) := by
      simp [saysOf, updateOf, PollConfig.handle, viewOf, SignalReading.cached]
    have hother : ∀ s, s ≠ r.signalId → saysOf config.handle s (updateOf config r) = none := by
      intro s hs
      simp only [saysOf, updateOf]
      exact if_neg fun h => hs h.2.symm
    unfold pendingUpdates
    simp only
    split
    · -- the reading is emitted
      have hnext := ih bits.tail _ (events ++ [updateOf config r]) ?_ signalId c hc
      · simpa using hnext
      · intro s c' hc'
        rcases eq_or_ne s r.signalId with rfl | hs
        · rw [update_self] at hc'
          cases hc'
          simp [lastUpdate, hsame]
        · rw [update_of_ne hs] at hc'
          have hnone : lastUpdate config.handle s (events ++ [updateOf config r]) =
              lastUpdate config.handle s events := by
            simp [lastUpdate, hother s hs]
          rw [hnone]
          exact hold s c' hc'
    · -- it is as it was, so the last update says it already
      rename_i hunchanged
      refine ih bits.tail _ events ?_ signalId c hc
      intro s c' hc'
      rcases eq_or_ne s r.signalId with rfl | hs
      · rw [update_self] at hc'
        cases hc'
        cases hold' : signals r.signalId with
        | none => simp [readingChanged, hold'] at hunchanged
        | some c₀ =>
          simp only [readingChanged, hold', Bool.or_eq_true, not_or, Bool.not_eq_true,
            qualityChanged, decide_eq_false_iff_not, not_not] at hunchanged
          rw [hold r.signalId c₀ hold']
          simp only [viewOf, SignalReading.cached, typedValue_of_unchanged hunchanged.1,
            hunchanged.2]
      · rw [update_of_ne hs] at hc'
        exact hold s c' hc'

/-! ### The steps by name -/

/-- What a step of a thread does. -/
inductive FeedStep (status : StopChainStatus) (staleAfterMs : Int) (w : FeedWorld) (t : ThreadId)
    (th : FeedThread) : FeedEffect → FeedThread → Prop
  | cache (c : CacheChoice) (bits : List Bool) (e : CacheEffect) (sections : List Section)
      (hplace : th.place = .idle) (hpending : th.pending = [])
      (hnext : (cacheMachine status staleAfterMs).next w.world t th.sections c =
        some (e, sections)) :
      FeedStep status staleAfterMs w t th (.cache e)
        { th with
          sections := sections
          polled := th.polls
          pending := updatesOf w.world th.polled bits e }
  | taken (body : EventBody) (rest : List EventBody) (order : List SubscriptionId)
      (hplace : th.place = .idle) (hpending : th.pending = body :: rest)
      (horder : order.Perm (w.emitter.targets body)) :
      FeedStep status staleAfterMs w t th (.emitter (.taken body order))
        { th with pending := rest, place := .left ⟨w.emitter.nextEventId, body⟩ order }
  | pushed (event : Event) (id : SubscriptionId) (rest : List SubscriptionId)
      (hplace : th.place = .pushing event (id :: rest)) :
      FeedStep status staleAfterMs w t th (.emitter (.pushed id event))
        { th with place := .left event rest }
  -- `subscribe`, `unsubscribe` and `pop`
  | other (e : EmitterEffect) (hplace : th.place = .idle) (hpending : th.pending = [])
      (hquiet : ∀ id event, e ≠ .pushed id event)
      (hpopped : ∀ id event, e = .popped id event →
        ∃ rest, (w.emitter.queues id).queue = event :: rest) :
      FeedStep status staleAfterMs w t th (.emitter e) th

theorem emit_of_taken {em : Emitter} {place place' : EmitPlace} {c : EmitterChoice}
    {order : List SubscriptionId} (h : emitterNext em place c = some (.taken body order, place')) :
    ∃ body' order', c = .emit body' order' := by
  revert h
  fun_cases emitterNext em place c <;> intro h
  case case2 body' order' => exact ⟨body', order', rfl⟩
  all_goals cases h

variable {t : ThreadId} {th : FeedThread} {th' : FeedThread}

theorem feedStep_of_emitter {w : FeedWorld} {c : EmitterChoice}
    {e : EmitterEffect} {place : EmitPlace} (hplace : th.place = .idle) (hpending : th.pending = [])
    (hc : ∀ body order, c ≠ .emit body order)
    (h : emitterNext w.emitter .idle c = some (e, place)) :
    FeedStep status staleAfterMs w t th (.emitter e) { th with place := place } := by
  have hsame : { th with place := EmitPlace.idle } = th := by rw [← hplace]
  generalize hidle : EmitPlace.idle = old at h
  cases emitStep_of_next h with
  | taken body order _ =>
    obtain ⟨body', order', heq⟩ := emit_of_taken h
    exact absurd heq (hc body' order')
  | pushed event id rest => cases hidle
  | popped id event rest hqueue =>
    rw [hsame]
    refine .other _ hplace hpending (fun _ _ h => by cases h) ?_
    intro id' event' heq
    cases heq
    exact ⟨rest, hqueue⟩
  | quiet | subscribed _ _ | unsubscribed _ =>
    rw [hsame]
    exact .other _ hplace hpending (fun _ _ h => by cases h) fun _ _ h => by cases h

theorem feedStep_of_next {w : FeedWorld} {c : FeedChoice}
    {e : FeedEffect} (h : feedNext status staleAfterMs w t th c = some (e, th')) :
    FeedStep status staleAfterMs w t th e th' := by
  cases c with
  | cache c bits =>
    simp only [feedNext] at h
    split at h
    · rename_i hidle
      obtain ⟨⟨e', sections⟩, hnext, heq⟩ := Option.map_eq_some_iff.mp h
      cases heq
      exact .cache c bits e' sections hidle.1 hidle.2 hnext
    · cases h
  | emit order =>
    simp only [feedNext] at h
    split at h
    · rename_i body rest hplace hpending
      obtain ⟨r, hnext, heq⟩ := Option.map_eq_some_iff.mp h
      cases heq
      unfold takeNext at hnext
      split at hnext
      · rename_i horder
        cases hnext
        exact .taken body rest order hplace hpending (List.isPerm_iff.mp horder)
      · cases hnext
    · cases h
  | emitter c =>
    simp only [feedNext] at h
    split at h
    · rename_i event targets hplace
      obtain ⟨⟨e', place'⟩, hnext, heq⟩ := Option.map_eq_some_iff.mp h
      cases heq
      rw [hplace] at hnext
      generalize htargets : EmitPlace.pushing event targets = place at hnext
      cases emitStep_of_next hnext with
      | pushed event' id rest =>
        cases htargets
        exact .pushed event id rest hplace
      | quiet | taken _ _ _ | subscribed _ _ | unsubscribed _ | popped _ _ _ _ => cases htargets
    all_goals try
      split at h
      · rename_i hplace hidle
        obtain ⟨⟨e', place'⟩, hnext, heq⟩ := Option.map_eq_some_iff.mp h
        cases heq
        exact feedStep_of_emitter hplace hidle.1 (fun _ _ h => by cases h) hnext
      · cases h
    cases h

/-! ### The poll that a thread is in -/

/-- Is the section the last one of a read. -/
def isSettle : Section → Bool
  | .settleRead _ _ => true
  | _ => false

/-- Where a thread is about to settle a read, it is in the poll of that device. -/
structure PolledSound (th : FeedThread) : Prop where
  head : ∀ handle outcome rest, th.sections = .settleRead handle outcome :: rest →
    th.polled.handle = handle
  tail : ∀ sec ∈ th.sections.tail, isSettle sec = false

variable {w : CacheWorld} {c : CacheChoice} {e : CacheEffect} {more : List Section}

/-- Only the section that reads is followed by one that settles the read. -/
theorem run_isSettle {sec : Section} (hrun : sec.run status staleAfterMs w c = some (e, more)) :
    (∀ s ∈ more, isSettle s = false) ∨
      ∃ config outcome, sec = .readSignals config ∧ more = [.settleRead config.handle outcome] := by
  revert hrun
  fun_cases Section.run status staleAfterMs w sec c <;> intro hrun <;>
    simp only [some_pair, reduceCtorEq] at hrun
  all_goals obtain ⟨-, rfl⟩ := hrun
  all_goals simp [isSettle]
  all_goals grind

theorem run_readApplied {sec : Section} {readings : List SignalReading}
    (hrun : sec.run status staleAfterMs w c = some (.readApplied handle readings, more)) :
    sec = .settleRead handle (.values readings) := by
  revert hrun
  fun_cases Section.run status staleAfterMs w sec c <;> intro hrun <;>
    simp only [some_pair, reduceCtorEq, false_and] at hrun
  obtain ⟨heq, -⟩ := hrun
  cases heq
  rfl

theorem isSettle_sections (op : CacheOp) : ∀ sec ∈ op.sections, isSettle sec = false := by
  cases op <;> simp [CacheOp.sections, isSettle]

theorem PolledSound.of_none (h : ∀ sec ∈ th.sections, isSettle sec = false) : PolledSound th where
  head handle outcome rest hsections := by
    have hbad := h (.settleRead handle outcome) (hsections ▸ List.mem_cons_self)
    cases hbad
  tail sec hsec := h sec (List.mem_of_mem_tail hsec)

theorem polledSound_step {w : FeedWorld} {e : FeedEffect}
    (h : PolledSound th) (hstep : FeedStep status staleAfterMs w t th e th') : PolledSound th' := by
  cases hstep with
  | taken _ _ _ _ _ _ | pushed _ _ _ _ => exact ⟨h.head, h.tail⟩
  | other _ _ _ _ _ => exact h
  | cache c bits e sections hplace hpending hnext =>
    cases hsections : th.sections with
    | nil =>
      -- the thread starts an operation, or stays idle
      have hnone : ∀ sec ∈ sections, isSettle sec = false := by
        rw [hsections] at hnext
        cases c <;> cases hnext
        · exact isSettle_sections _
        · simp
        · simp
      exact .of_none hnone
    | cons sec rest =>
      rw [hsections] at hnext
      obtain ⟨⟨e', more⟩, hrun, heq⟩ := Option.map_eq_some_iff.mp hnext
      cases heq
      have hrest : ∀ s ∈ rest, isSettle s = false := by
        intro s hs
        exact h.tail s (by rw [hsections]; exact hs)
      rcases run_isSettle hrun with hmore | ⟨config, outcome, rfl, rfl⟩
      · refine .of_none fun s hs => ?_
        rcases List.mem_append.mp hs with hs | hs
        · exact hmore s hs
        · exact hrest s hs
      · refine ⟨?_, hrest⟩
        intro handle outcome' rest' heq
        have hpolls : th.polls = config := by simp [FeedThread.polls, hsections]
        have hhandle : config.handle = handle := by
          have hhead := (List.cons.inj heq).1
          cases hhead
          rfl
        show th.polls.handle = handle
        rw [hpolls, hhandle]

/-! ### One subscriber -/

/-- What a thread has decided to emit and not pushed to the subscriber yet. -/
def outstanding (id : SubscriptionId) (th : FeedThread) : List EventBody :=
  match th.place with
  | .pushing event targets => if id ∈ targets then event.body :: th.pending else th.pending
  | .idle => th.pending

variable {id : SubscriptionId}

theorem outstanding_idle (h : th.place = .idle) : outstanding id th = th.pending := by
  simp [outstanding, h]

theorem outstanding_left {event : Event}
    {targets : List SubscriptionId} (h : th.place = .left event targets) :
    outstanding id th = if id ∈ targets then event.body :: th.pending else th.pending := by
  cases targets with
  | nil => exact (outstanding_idle h).trans (by simp)
  | cons target rest =>
    have hpushing : th.place = .pushing event (target :: rest) := h
    simp [outstanding, hpushing]

theorem outstanding_unsent {b : EventBody} (h : b ∈ outstanding id th) : b ∈ th.unsent := by
  revert h
  unfold outstanding FeedThread.unsent
  cases th.place with
  | idle => exact fun h => h
  | pushing event targets =>
    dsimp only
    split
    · exact fun h => h
    · exact List.mem_cons_of_mem _

/-- The event that a step pushes to a subscriber. -/
def pushOf (id : SubscriptionId) : FeedEffect → Option Event
  | .emitter (.pushed id' event) => if id' = id then some event else none
  | _ => none

/-- What was pushed to a subscriber, in order. -/
def pushedTo (id : SubscriptionId) (tr : FeedTrace) : List Event :=
  tr.filterMap fun i => pushOf id i.2.2

theorem pushedTo_snoc (id : SubscriptionId) (tr : FeedTrace) (g : FeedState)
    (l : ThreadId × FeedEffect) :
    pushedTo id (tr ++ [(g, l)]) = pushedTo id tr ++ (pushOf id l.2).toList := by
  cases h : pushOf id l.2 <;> simp [pushedTo, h]

/-- No other thread has updates of a device to emit when a read of it is applied. -/
def AppliedAlone (g : FeedState) (l : ThreadId × FeedEffect) : Prop :=
  ∀ handle readings, l.2 = .cache (.readApplied handle readings) →
    ∀ u, u ≠ l.1 → NoneOf handle (g.thread u).unsent

/-- What is pushed to a subscriber and what the one thread with updates of the device still has to
push ends in the cached values. -/
def Shown (id : SubscriptionId) (tr : FeedTrace) (g : FeedState) (handle : String) : Prop :=
  ∃ t, (∀ u, u ≠ t → NoneOf handle (outstanding id (g.thread u))) ∧
    ∀ signalId c, g.shared.world.cache.getSignalValue handle signalId = some c →
      lastUpdate handle signalId
        ((pushedTo id tr).map Event.body ++ outstanding id (g.thread t)) = some (viewOf c)

/-- The state of one subscriber to everything. -/
structure Fed (id : SubscriptionId) (tr : FeedTrace) (g : FeedState) : Prop where
  polled : ∀ t, PolledSound (g.thread t)
  registered : Registered g.shared.emitter
  subscribed : (id, EventFilter.all) ∈ g.shared.emitter.subscribers
  once : ∀ t event targets, (g.thread t).place = .pushing event targets → targets.Nodup
  shown : ∀ handle, Shown id tr g handle

variable {tr : FeedTrace} {g g' : FeedState} {bits : List Bool}

/-- A step that pushes nothing to the subscriber leaves what it shows. A thread that had nothing to
push may have got updates of other devices. -/
theorem Shown.frame {tr' : FeedTrace}
    (h : Shown id tr g handle) (hpushed : pushedTo id tr' = pushedTo id tr)
    (hout : ∀ u, outstanding id (g'.thread u) = outstanding id (g.thread u) ∨
      outstanding id (g.thread u) = [] ∧ NoneOf handle (outstanding id (g'.thread u)))
    (hcache : ∀ signalId c, g'.shared.world.cache.getSignalValue handle signalId = some c →
      g.shared.world.cache.getSignalValue handle signalId = some c) : Shown id tr' g' handle := by
  obtain ⟨t, halone, hlast⟩ := h
  refine ⟨t, fun u hu => ?_, fun signalId c hc => ?_⟩
  · rcases hout u with hsame | ⟨-, hnone⟩
    · rw [hsame]
      exact halone u hu
    · exact hnone
  · have hold := hlast signalId c (hcache signalId c hc)
    rw [hpushed]
    rcases hout t with hsame | ⟨hempty, hnone⟩
    · rw [hsame]
      exact hold
    · rw [lastUpdate_append_none hnone]
      rw [hempty, List.append_nil] at hold
      exact hold

/-- Where the other threads have no updates of the device and this one has none at all, what was
pushed ends in the cached values. -/
theorem Shown.pushed_all (h : Shown id tr g handle) (hself : outstanding id (g.thread t) = [])
    (hother : ∀ u, u ≠ t → NoneOf handle (outstanding id (g.thread u))) {c : CachedSignalValue}
    (hc : g.shared.world.cache.getSignalValue handle signalId = some c) :
    lastUpdate handle signalId ((pushedTo id tr).map Event.body) = some (viewOf c) := by
  obtain ⟨t₀, -, hlast⟩ := h
  have hnone : NoneOf handle (outstanding id (g.thread t₀)) := by
    by_cases ht : t₀ = t
    · rw [ht, hself]
      exact fun e he => by cases he
    · exact hother t₀ ht
  rw [← lastUpdate_append_none hnone]
  exact hlast signalId c hc

/-- Values that a section leaves in the cache and did not read were there before. -/
theorem getSignalValue_apply (he : ∀ readings, e ≠ .readApplied handle readings) (signalId : String)
    (c : CachedSignalValue) (hc : (w.apply e).cache.getSignalValue handle signalId = some c) :
    w.cache.getSignalValue handle signalId = some c := by
  obtain ⟨st, hst, hsignal⟩ := Option.bind_eq_some_iff.mp hc
  rcases CacheWorld.deviceState_cases hst with hold | hempty |
    ⟨_, _, _, st₀, -, -, -, hst₀, hsame⟩ | ⟨readings, _, happlied, -⟩
  · exact Option.bind_eq_some_iff.mpr ⟨st, hold, hsignal⟩
  · rw [hempty signalId] at hsignal
    cases hsignal
  · exact Option.bind_eq_some_iff.mpr ⟨st₀, hst₀, hsame ▸ hsignal⟩
  · exact absurd happlied (he readings)

/-- A section of the cache that leaves updates to emit has applied a read. -/
theorem updatesOf_noneOf (he : ∀ readings, e ≠ .readApplied handle readings)
    (hpolled : ∀ handle' readings, e = .readApplied handle' readings → config.handle = handle') :
    NoneOf handle (updatesOf w config bits e) := by
  have hempty : NoneOf handle [] := fun _ h => by cases h
  cases e with
  | readApplied handle' readings =>
    have hne : config.handle ≠ handle := by
      rw [hpolled handle' readings rfl]
      exact fun h => he readings (h ▸ rfl)
    simp only [updatesOf]
    split
    · exact pendingUpdates_noneOf hne readings bits _
    · exact hempty
  | _ => exact hempty

theorem shown_cache {sections : List Section}
    (h : Fed id tr g) (halone : AppliedAlone g (t, .cache e))
    (hplace : (g.thread t).place = .idle) (hpending : (g.thread t).pending = [])
    (hnext : (cacheMachine status staleAfterMs).next g.shared.world t (g.thread t).sections c =
      some (e, sections)) (hworld : g'.shared.world = g.shared.world.apply e)
    (hout : outstanding id (g'.thread t) = updatesOf g.shared.world (g.thread t).polled bits e)
    (hother : ∀ u, u ≠ t → g'.thread u = g.thread u) (handle : String) :
    Shown id (tr ++ [(g, (t, .cache e))]) g' handle := by
  have hpushed : pushedTo id (tr ++ [(g, (t, .cache e))]) = pushedTo id tr := by
    simp [pushedTo_snoc, pushOf]
  have hnothing : outstanding id (g.thread t) = [] := by rw [outstanding_idle hplace, hpending]
  have hpolled : ∀ handle' readings, e = .readApplied handle' readings →
      (g.thread t).polled.handle = handle' := by
    intro handle' readings he
    subst he
    cases hsections : (g.thread t).sections with
    | nil =>
      rw [hsections] at hnext
      cases c <;> cases hnext
    | cons sec rest =>
      rw [hsections] at hnext
      obtain ⟨⟨e', more⟩, hrun, heq⟩ := Option.map_eq_some_iff.mp hnext
      cases heq
      have hsec := run_readApplied hrun
      exact (h.polled t).head handle' _ rest (by rw [hsections, hsec])
  by_cases happlied : ∃ readings, e = .readApplied handle readings
  · -- the thread has the device to itself, and its updates end in what it has just stored
    obtain ⟨readings, rfl⟩ := happlied
    have hnone : ∀ u, u ≠ t → NoneOf handle (outstanding id (g.thread u)) := by
      intro u hu b hb
      exact halone handle readings rfl u hu b (outstanding_unsent hb)
    refine ⟨t, fun u hu => ?_, fun signalId c hc => ?_⟩
    · rw [hother u hu]
      exact hnone u hu
    · rw [hworld] at hc
      obtain ⟨st, hst, hsignal⟩ := Option.bind_eq_some_iff.mp hc
      simp only [CacheWorld.apply, Cache.readApplied, update_self] at hst
      obtain ⟨st₀, hst₀, rfl⟩ := Option.map_eq_some_iff.mp hst
      have hconfig := hpolled handle readings rfl
      rw [hpushed, hout]
      simp only [updatesOf, hst₀]
      rw [← hconfig]
      refine lastUpdate_pendingUpdates readings bits st₀.signals _ ?_ signalId c hsignal
      intro s c₀ hc₀
      rw [hconfig]
      exact (h.shown handle).pushed_all hnothing hnone
        (Option.bind_eq_some_iff.mpr ⟨st₀, hst₀, hc₀⟩)
  · have he : ∀ readings, e ≠ .readApplied handle readings := fun readings heq =>
      happlied ⟨readings, heq⟩
    refine (h.shown handle).frame hpushed (fun u => ?_) fun signalId c hc => ?_
    · rcases eq_or_ne u t with rfl | hu
      · exact .inr ⟨hnothing, hout ▸ updatesOf_noneOf he hpolled⟩
      · exact .inl (by rw [hother u hu])
    · exact getSignalValue_apply he signalId c (hworld ▸ hc)

theorem mem_targets {em : Emitter}
    (h : (id, EventFilter.all) ∈ em.subscribers) : id ∈ em.targets body :=
  List.mem_map.mpr ⟨_, List.mem_filter.mpr ⟨h, EventFilter.matches_all body⟩, rfl⟩

/-- A push to the subscriber: its event moves from the thread to what was pushed. -/
theorem shown_pushed {event : Event} (h : Shown id tr g handle)
    (hold : outstanding id (g.thread t) = event.body :: outstanding id (g'.thread t))
    (hworld : g'.shared.world = g.shared.world) (hother : ∀ u, u ≠ t → g'.thread u = g.thread u) :
    Shown id (tr ++ [(g, (t, .emitter (.pushed id event)))]) g' handle := by
  have hpushed : (pushedTo id (tr ++ [(g, (t, .emitter (.pushed id event)))])).map Event.body =
      (pushedTo id tr).map Event.body ++ [event.body] := by
    simp [pushedTo_snoc, pushOf]
  obtain ⟨t₀, halone, hlast⟩ := h
  refine ⟨t₀, fun u hu => ?_, fun signalId c hc => ?_⟩
  · rcases eq_or_ne u t with rfl | hut
    · have hnone := halone u hu
      rw [hold] at hnone
      exact fun b hb => hnone b (List.mem_cons_of_mem _ hb)
    · rw [hother u hut]
      exact halone u hu
  · rw [hworld] at hc
    have hbefore := hlast signalId c hc
    rw [hpushed]
    rcases eq_or_ne t₀ t with rfl | ht
    · rw [hold] at hbefore
      simpa using hbefore
    · have hnone : NoneOf handle [event.body] := by
        intro b hb
        refine halone t (fun h => ht h.symm) b ?_
        rw [hold, List.mem_singleton.mp hb]
        exact List.mem_cons_self
      rw [lastUpdate_between hnone, hother t₀ ht]
      exact hbefore

/-- What a subscriber needs of a step: it stays subscribed, and reads are applied alone. -/
def Orderly (id : SubscriptionId) (g : FeedState) (l : ThreadId × FeedEffect) : Prop :=
  AppliedAlone g l ∧ l.2 ≠ .emitter (.unsubscribed id)

variable {l : ThreadId × FeedEffect} {g₀ : FeedState}

theorem subscribed_apply {w : FeedWorld} {e : FeedEffect}
    (h : (id, EventFilter.all) ∈ w.emitter.subscribers)
    (hne : e ≠ .emitter (.unsubscribed id)) :
    (id, EventFilter.all) ∈ (w.apply e).emitter.subscribers := by
  cases e with
  | cache e => exact h
  | emitter e =>
    cases e with
    | unsubscribed id' =>
      have hid : id ≠ id' := fun heq => hne (by rw [heq])
      exact List.mem_filter.mpr ⟨h, by simpa using hid⟩
    | subscribed filter size => exact List.mem_append_left _ h
    | _ => exact h

theorem registered_feed {w : FeedWorld} (h : Registered w.emitter) (e : FeedEffect) :
    Registered (w.apply e).emitter := by
  cases e with
  | cache e => exact h
  | emitter e => exact registered_apply h e

/-- The targets of a push are distinct, as the subscribers are. -/
theorem once_step {w : FeedWorld} {e : FeedEffect} (hregistered : Registered w.emitter)
    (h : ∀ event targets, th.place = .pushing event targets → targets.Nodup)
    (hstep : FeedStep status staleAfterMs w t th e th') :
    ∀ event targets, th'.place = .pushing event targets → targets.Nodup := by
  intro event targets hp
  cases hstep with
  | cache | other => exact h event targets hp
  | taken body rest order hplace hpending horder =>
    rw [(pushing_of_left hp).2]
    exact horder.symm.nodup (hregistered.1.sublist (List.filter_sublist.map _))
  | pushed event' id' rest hplace =>
    rw [(pushing_of_left hp).2]
    exact (List.nodup_cons.mp (h event' _ hplace)).2

/-- A step of the emitter that pushes nothing to the subscriber and leaves what its thread has to
push. -/
theorem Shown.emitter {e : EmitterEffect} (h : Shown id tr g handle)
    (hpush : pushOf id (.emitter e) = none) (hshared : g'.shared = g.shared.apply (.emitter e))
    (hself : outstanding id (g'.thread t) = outstanding id (g.thread t))
    (hother : ∀ u, u ≠ t → g'.thread u = g.thread u) :
    Shown id (tr ++ [(g, (t, .emitter e))]) g' handle := by
  refine h.frame (by simp [pushedTo_snoc, hpush]) (fun u => .inl ?_) ?_
  · rcases eq_or_ne u t with rfl | hu
    · exact hself
    · rw [hother u hu]
  · rw [hshared]
    exact fun _ _ hc => hc

theorem shown_step {e : FeedEffect} (h : Fed id tr g) (halone : AppliedAlone g (t, e))
    (hstep : FeedStep status staleAfterMs g.shared t (g.thread t) e (g'.thread t))
    (hshared : g'.shared = g.shared.apply e) (hother : ∀ u, u ≠ t → g'.thread u = g.thread u)
    (handle : String) : Shown id (tr ++ [(g, (t, e))]) g' handle := by
  generalize hself : g'.thread t = th' at hstep
  cases hstep with
  | cache c bits e sections hplace hpending hsection =>
    have hout : outstanding id (g'.thread t) =
        updatesOf g.shared.world (g.thread t).polled bits e := by
      rw [hself]
      exact outstanding_idle hplace
    exact shown_cache h halone hplace hpending hsection (by rw [hshared]; rfl) hout hother handle
  | taken body rest order hplace hpending horder =>
    -- the event is for the subscriber, so the thread still has to push it
    refine (h.shown handle).emitter rfl hshared ?_ hother
    have hid : id ∈ order := horder.symm.subset (mem_targets h.subscribed)
    rw [hself, outstanding_left rfl, if_pos hid, outstanding_idle hplace, hpending]
  | pushed event id' rest hplace =>
    have hnodup := List.nodup_cons.mp (h.once t event _ hplace)
    have hold : outstanding id (g.thread t) =
        if id ∈ id' :: rest then event.body :: (g.thread t).pending else (g.thread t).pending := by
      simp only [outstanding, hplace]
    have hnew : outstanding id (g'.thread t) =
        if id ∈ rest then event.body :: (g.thread t).pending else (g.thread t).pending := by
      rw [hself, outstanding_left rfl]
    rcases eq_or_ne id' id with rfl | hid
    · refine shown_pushed (h.shown handle) ?_ (by rw [hshared]; rfl) hother
      rw [hold, hnew, if_pos List.mem_cons_self, if_neg hnodup.1]
    · refine (h.shown handle).emitter (by simp [pushOf, hid]) hshared ?_ hother
      have hiff : id ∈ id' :: rest ↔ id ∈ rest := by
        rw [List.mem_cons, or_iff_right fun h => hid h.symm]
      rw [hold, hnew]
      simp only [hiff]
  | other e hplace hpending hquiet hpopped =>
    refine (h.shown handle).emitter ?_ hshared (by rw [hself]) hother
    cases e with
    | pushed id' event => exact absurd rfl (hquiet id' event)
    | _ => rfl

theorem fed_step (h : Fed id tr g) (hl : Orderly id g l)
    (hlts : (feedMachine status staleAfterMs).lts.step g l g') : Fed id (tr ++ [(g, l)]) g' := by
  obtain ⟨t, e⟩ := l
  obtain ⟨c, th', hnext, hshared, rfl, hother⟩ := Machine.step_inv hlts
  have hstep : FeedStep status staleAfterMs g.shared t (g.thread t) e (g'.thread t) :=
    feedStep_of_next hnext
  have hshared : g'.shared = g.shared.apply e := hshared
  refine ⟨fun u => ?_, ?_, ?_, fun u => ?_, shown_step h hl.1 hstep hshared hother⟩
  · rcases eq_or_ne u t with rfl | hu
    · exact polledSound_step (h.polled u) hstep
    · rw [hother u hu]
      exact h.polled u
  · rw [hshared]
    exact registered_feed h.registered e
  · rw [hshared]
    exact subscribed_apply h.subscribed hl.2
  · rcases eq_or_ne u t with rfl | hu
    · exact once_step h.registered (h.once u) hstep
    · rw [hother u hu]
      exact h.once u

theorem fed_run (h0 : FeedStart g₀) (hsub : (id, EventFilter.all) ∈ g₀.shared.emitter.subscribers)
    (h : Run (feedMachine status staleAfterMs).lts g₀ tr g)
    (horderly : ∀ i ∈ tr, Orderly id i.1 i.2) : Fed id tr g := by
  refine Run.induct_of (T := (feedMachine status staleAfterMs).lts) (C := Orderly id) (J := Fed id)
    ?_ (fun tr s l s' _ _ ih hl hs => fed_step ih hl hs) h horderly
  refine ⟨fun t => ?_, ⟨h0.distinct, h0.numbered⟩, hsub, fun t event targets ht => ?_,
    fun handle => ⟨0, fun u _ => ?_, fun signalId c hc => ?_⟩⟩
  · rw [h0.idle t]
    exact .of_none fun _ h => by cases h
  · rw [h0.idle t] at ht
    cases ht
  · rw [h0.idle u]
    exact fun _ h => by cases h
  · simp [Cache.getSignalValue, h0.empty handle] at hc

/-! ### Delivery -/

theorem deliveredTo_snoc (id : SubscriptionId) (tr : FeedTrace) (g g' : FeedState)
    (l : ThreadId × FeedEffect) : deliveredTo id (tr ++ [(g, l)]) g' =
      tr.filterMap (fun i => i.2.2.popOf id) ++ (l.2.popOf id).toList ++
        (g'.shared.emitter.queues id).queue := by
  cases h : l.2.popOf id <;> simp [deliveredTo, h]

/-- A queue that has dropped nothing has what was pushed to it. -/
structure Delivered (id : SubscriptionId) (tr : FeedTrace) (g : FeedState) : Prop where
  numbered : id < g.shared.emitter.nextSubscriptionId
  whole : (g.shared.emitter.queues id).droppedCount = 0 → deliveredTo id tr g = pushedTo id tr

theorem push_droppedCount {q : SubscriberQueue} {e : Event} (h : (q.push e).droppedCount = 0) :
    q.droppedCount = 0 ∧ (q.push e).queue = q.queue ++ [e] := by
  unfold SubscriberQueue.push at h ⊢
  split at h
  · cases h
  · rename_i hroom
    rw [if_neg hroom]
    exact ⟨h, rfl⟩

/-- A step that neither pushes to the queue nor pops from it. -/
theorem Delivered.frame (h : Delivered id tr g)
    (hnext : g.shared.emitter.nextSubscriptionId ≤ g'.shared.emitter.nextSubscriptionId)
    (hqueue : g'.shared.emitter.queues id = g.shared.emitter.queues id)
    (hpop : l.2.popOf id = none) (hpush : pushOf id l.2 = none) :
    Delivered id (tr ++ [(g, l)]) g' := by
  refine ⟨lt_of_lt_of_le h.numbered hnext, fun hdropped => ?_⟩
  rw [hqueue] at hdropped
  have hold := h.whole hdropped
  simpa [deliveredTo_snoc, pushedTo_snoc, hpop, hpush, hqueue, deliveredTo] using hold

theorem delivered_step (h : Delivered id tr g)
    (hlts : (feedMachine status staleAfterMs).lts.step g l g') :
    Delivered id (tr ++ [(g, l)]) g' := by
  obtain ⟨t, e⟩ := l
  obtain ⟨c, th', hnext, hshared, -, -⟩ := Machine.step_inv hlts
  have hstep : FeedStep status staleAfterMs g.shared t (g.thread t) e th' := feedStep_of_next hnext
  have hshared : g'.shared = g.shared.apply e := hshared
  cases hstep with
  | cache _ _ e _ _ _ _ =>
    exact h.frame (by rw [hshared]; exact le_rfl) (by rw [hshared]; rfl) rfl rfl
  | taken body _ order _ _ _ =>
    exact h.frame (by rw [hshared]; exact le_rfl) (by rw [hshared]; rfl) rfl rfl
  | pushed event id' rest hplace =>
    have hqueues : g'.shared.emitter.queues =
        update g.shared.emitter.queues id' ((g.shared.emitter.queues id').push event) := by
      rw [hshared]
      rfl
    rcases eq_or_ne id' id with rfl | hid
    · refine ⟨by rw [hshared]; exact h.numbered, fun hdropped => ?_⟩
      rw [hqueues, update_self] at hdropped
      obtain ⟨hnone, hqueue⟩ := push_droppedCount hdropped
      have hold := h.whole hnone
      rw [deliveredTo_snoc, pushedTo_snoc, hqueues, update_self, hqueue, ← hold]
      simp [deliveredTo, FeedEffect.popOf, EmitterEffect.popOf, pushOf]
    · refine h.frame (by rw [hshared]; exact le_rfl) ?_ rfl (by simp [pushOf, hid])
      rw [hqueues, update_of_ne fun h => hid h.symm]
  | other e _ _ hquiet hpopped =>
    cases e with
    | pushed id' event => exact absurd rfl (hquiet id' event)
    | silent | taken _ _ | unsubscribed _ =>
      exact h.frame (by rw [hshared]; exact le_rfl) (by rw [hshared]; rfl) rfl rfl
    | subscribed filter size =>
      -- a new subscriber's queue is another one
      refine h.frame (by rw [hshared]; exact Nat.le_succ _) ?_ rfl rfl
      rw [hshared]
      exact update_of_ne h.numbered.ne _ _
    | popped id' event =>
      obtain ⟨rest, hrest⟩ := hpopped id' event rfl
      have hqueues : g'.shared.emitter.queues = update g.shared.emitter.queues id'
            { g.shared.emitter.queues id' with
              queue := (g.shared.emitter.queues id').queue.drop 1 } := by
        rw [hshared]
        rfl
      rcases eq_or_ne id' id with rfl | hid
      · refine ⟨by rw [hshared]; exact h.numbered, fun hdropped => ?_⟩
        rw [hqueues, update_self] at hdropped
        have hold := h.whole hdropped
        rw [deliveredTo_snoc, pushedTo_snoc, hqueues, update_self, ← hold, deliveredTo, hrest]
        simp [FeedEffect.popOf, EmitterEffect.popOf, pushOf]
      · refine h.frame (by rw [hshared]; exact le_rfl) ?_ ?_ rfl
        · rw [hqueues, update_of_ne fun h => hid h.symm]
        · simp [FeedEffect.popOf, EmitterEffect.popOf, hid]

theorem delivered_run (h0 : FeedStart g₀)
    (hsub : (id, EventFilter.all) ∈ g₀.shared.emitter.subscribers)
    (h : Run (feedMachine status staleAfterMs).lts g₀ tr g) : Delivered id tr g := by
  refine Run.induct (T := (feedMachine status staleAfterMs).lts) (J := Delivered id) ?_
    (fun tr s l s' _ ih hs => delivered_step ih hs) h
  refine ⟨h0.numbered _ hsub, fun _ => ?_⟩
  simp [deliveredTo, pushedTo, h0.unseen id]

/-- Once every update is emitted, a subscriber to everything that has lost no event has been told
last, of every signal, what the cache holds. -/
theorem subscribers_converge {g₀ g : FeedState} {tr : FeedTrace} (h0 : FeedStart g₀)
    (h : Run (feedMachine status staleAfterMs).lts g₀ tr g)
    (halone : ∀ i ∈ tr, AppliedAlone i.1 i.2)
    (hsent : ∀ t, (g.thread t).unsent = []) {id : SubscriptionId}
    (hsub : (id, EventFilter.all) ∈ g₀.shared.emitter.subscribers)
    (hstays : ∀ i ∈ tr, i.2.2 ≠ .emitter (.unsubscribed id))
    (hdropped : (g.shared.emitter.queues id).droppedCount = 0) {handle signalId : String}
    {c : CachedSignalValue} (hc : g.shared.world.cache.getSignalValue handle signalId = some c) :
    lastUpdate handle signalId ((deliveredTo id tr g).map Event.body) =
      some (typedValue c.value, eventQuality c.quality) := by
  have hfed : Fed id tr g := fed_run h0 hsub h fun i hi => ⟨halone i hi, hstays i hi⟩
  have hnothing : ∀ t, outstanding id (g.thread t) = [] := by
    intro t
    refine List.eq_nil_iff_forall_not_mem.mpr fun b hb => ?_
    have hunsent := outstanding_unsent hb
    rw [hsent t] at hunsent
    cases hunsent
  rw [(delivered_run h0 hsub h).whole hdropped]
  refine (hfed.shown handle).pushed_all (hnothing 0) (fun u _ => ?_) hc
  rw [hnothing u]
  exact fun _ h => by cases h

/-- A registry with one device that has one default signal. -/
def probes : Registry.DeviceRegistry :=
    ⟨[⟨"sim0", "a", ⟨[], List.nodup_nil⟩, [⟨"level", true⟩], .empty⟩]⟩

/-- A runtime with one subscriber. -/
def watched : FeedState := ⟨{ emitter := { subscribers := [(1, .all)], nextSubscriptionId := 2 } },
  fun _ => {}⟩

theorem watched_start : FeedStart watched :=
  ⟨fun _ => rfl, fun _ => rfl, List.nodup_singleton 1, by simp [watched], fun _ => rfl⟩

/-- The device is registered and the cache made. -/
def inits : List (ThreadId × FeedChoice) :=
  [(0, .cache (.publish probes) []), (0, .cache (.start .init) []), (0, .cache .go []),
    (0, .cache .go [])]

/-- What a read of the signal answers. -/
def levelIs (n : Int64) : CacheChoice := .read (.values [⟨"level", ⟨.int64, .int64 n⟩, .ok, none⟩])

/-- A poll of the poll loop up to its `emit`. -/
def polls (t : ThreadId) (n : Int64) : List (ThreadId × FeedChoice) :=
  [(t, .cache (.start .pollOnce) []), (t, .cache (.order ["sim0"]) []),
    (t, .cache (.provider .available) []), (t, .cache (levelIs n) []), (t, .cache .go [])]

/-- A poll behind a call up to its `emit`. -/
def pollsNow (t : ThreadId) (n : Int64) : List (ThreadId × FeedChoice) :=
  [(t, .cache (.start (.pollDeviceNow "sim0/a")) []), (t, .cache .go []),
    (t, .cache (.provider .available) []), (t, .cache (levelIs n) []), (t, .cache .go [])]

/-- An update is emitted. -/
def emits (t : ThreadId) : List (ThreadId × FeedChoice) := [(t, .emit [1]), (t, .emitter .go)]

/-- Does the step end a subscription. -/
def unsubscribes : FeedEffect → Bool
  | .emitter (.unsubscribed _) => true
  | _ => false

/-- Is a read applied in the step while one of the threads `ts` has updates to emit. -/
def appliedAmid (ts : List ThreadId) (i : FeedState × (ThreadId × FeedEffect)) : Bool :=
  match i.2.2 with
  | .cache (.readApplied _ _) => ts.any fun t => (i.1.thread t).unsent ≠ []
  | _ => false

/-- A step in which no read is applied, or one while there is nothing to emit. -/
theorem appliedAlone_of_quiet {ts : List ThreadId} {i : FeedState × (ThreadId × FeedEffect)}
    (hamid : appliedAmid ts i = false)
    (hall : (∀ t ∈ ts, (i.1.thread t).unsent = []) → ∀ t, (i.1.thread t).unsent = []) :
    AppliedAlone i.1 i.2 := by
  intro handle readings happlied u _
  have hquiet : ∀ t ∈ ts, (i.1.thread t).unsent = [] := by simpa [appliedAmid, happlied] using hamid
  rw [hall hquiet u]
  exact fun _ h => by cases h

/-- The first signal of the device is at `n`. -/
def cachedAt (n : Int64) : CachedSignalValue := ⟨⟨.int64, .int64 n⟩, 0, .ok⟩

/-- Did the run come to its end: every update is emitted, none was dropped, the subscriber is still
there, and the cache has the signal at `n`. -/
def settledAt (n : Int64) (tr : FeedTrace) (g : FeedState) : Bool :=
  tr.all (fun i => i.2.1 ∈ [0, 1, 2] && !unsubscribes i.2.2) &&
    [0, 1, 2].all (fun t => (g.thread t).unsent = []) &&
    (g.shared.emitter.queues 1).droppedCount = 0 &&
    g.shared.world.cache.getSignalValue "sim0/a" "level" = some (cachedAt n)

theorem settledAt_spec {n : Int64}
    (hrun : Run (feedMachine someStatus 0).lts watched tr g) (h : settledAt n tr g) :
    (∀ i ∈ tr, (∀ t ∈ [0, 1, 2], (i.1.thread t).unsent = []) → ∀ t, (i.1.thread t).unsent = []) ∧
      (∀ t, (g.thread t).unsent = []) ∧ (∀ i ∈ tr, i.2.2 ≠ .emitter (.unsubscribed 1)) ∧
      (g.shared.emitter.queues 1).droppedCount = 0 ∧
      g.shared.world.cache.getSignalValue "sim0/a" "level" = some (cachedAt n) := by
  simp only [settledAt, Bool.and_eq_true, List.all_eq_true, decide_eq_true_eq,
    Bool.not_eq_true'] at h
  obtain ⟨⟨⟨hsteps, hsent⟩, hdropped⟩, hcached⟩ := h
  have hall := Machine.all_threads (P := fun th => th.unsent = []) hrun
    (fun i hi => (hsteps i hi).1) fun _ => rfl
  refine ⟨hall.2, hall.1 hsent, fun i hi heq => ?_, hdropped, hcached⟩
  have hstays := (hsteps i hi).2
  rw [heq] at hstays
  cases hstays

/-- The poll loop and a poll behind a call, one after the other. -/
theorem subscribers_converge_in_turn : ∃ g tr, Run (feedMachine someStatus 0).lts watched tr g ∧
      lastUpdate "sim0/a" "level" ((deliveredTo 1 tr g).map Event.body) = some (.int64 2, .ok) := by
  obtain ⟨tr, g, hrun, hpasses⟩ := (feedMachine someStatus 0).run_of_passes watched
    (inits ++ polls 1 1 ++ emits 1 ++ pollsNow 2 2 ++ emits 2)
    (fun tr g => settledAt 2 tr g ∧ ∀ i ∈ tr, appliedAmid [0, 1, 2] i = false) (by decide)
  obtain ⟨hall, hsent, hstays, hdropped, hcached⟩ := settledAt_spec hrun hpasses.1
  exact ⟨g, tr, hrun, subscribers_converge watched_start hrun
    (fun i hi => appliedAlone_of_quiet (hpasses.2 i hi) (hall i hi)) hsent List.mem_cons_self hstays
    hdropped hcached⟩

/-- The poll loop reads 1 and a poll behind a call reads 2 and emits it before the poll loop emits
its 1. The cache has 2, and the subscriber was told 1 last. -/
theorem late_update_stays :
    ¬ ∀ (status : StopChainStatus) (staleAfterMs : Int) (g₀ g : FeedState) (tr : FeedTrace),
      FeedStart g₀ → Run (feedMachine status staleAfterMs).lts g₀ tr g →
      (∀ t, (g.thread t).unsent = []) →
      ∀ id, (id, EventFilter.all) ∈ g₀.shared.emitter.subscribers →
      (∀ i ∈ tr, i.2.2 ≠ .emitter (.unsubscribed id)) →
      (g.shared.emitter.queues id).droppedCount = 0 → ∀ handle signalId c,
      g.shared.world.cache.getSignalValue handle signalId = some c →
      lastUpdate handle signalId ((deliveredTo id tr g).map Event.body) =
        some (typedValue c.value, eventQuality c.quality) := by
  intro hclaim
  obtain ⟨tr, g, hrun, hpasses⟩ := (feedMachine someStatus 0).run_of_passes watched
    (inits ++ polls 1 1 ++ pollsNow 2 2 ++ emits 2 ++ emits 1)
    (fun tr g => settledAt 2 tr g ∧
      lastUpdate "sim0/a" "level" ((deliveredTo 1 tr g).map Event.body) = some (.int64 1, .ok))
    (by decide)
  obtain ⟨-, hsent, hstays, hdropped, hcached⟩ := settledAt_spec hrun hpasses.1
  have hlast :=
    hclaim someStatus 0 watched g tr watched_start hrun hsent 1 List.mem_cons_self hstays
    hdropped "sim0/a" "level" _ hcached
  rw [hpasses.2] at hlast
  simp [cachedAt, typedValue, Protocol.Value.int64Value] at hlast

end Anolis.Proofs.Convergence
