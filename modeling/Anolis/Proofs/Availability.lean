import Anolis.Proofs.ReachabilityEdges

/-!
# The availability events of a device

The cache emits `available: false` when a poll of a device fails, `available: true` when a read
succeeds again, and `removed` when a rebuild drops the device. Whether a `false` is out is the flag
`unavailable_emitted`. It is set and cleared on the polls' sections, a rebuild carries it from the
old state to the new one, and the record of the dropped devices keeps it where a loss was reported.

`flagOf` says where the flag is at each moment, as `ReachabilityEdges.outstanding` does for the
reported loss. Where it is set the last availability event is `false`; where it is not, the last
event is not `false`. From these two follows what the events of every device are
(`availability_automaton`).
-/

namespace Anolis.Proofs.Availability

open Anolis.Runtime Lib ReachabilityEdges State

variable {events : List AvailabilityEvent} {t : ThreadId} {tr : CacheTrace}

/-! ### Events -/

/-- The event of the device that a step emits. -/
def event? (handle : String) (i : CacheItem) : Option AvailabilityEvent :=
  i.1.shared.availability? handle i.2.2

/-- The events of a device, in the order of emission. -/
def eventsOf (handle : String) (tr : CacheTrace) : List AvailabilityEvent :=
  tr.filterMap (event? handle)

theorem eventsOf_snoc (handle : String) (tr : CacheTrace) (i : CacheItem) :
    eventsOf handle (tr ++ [i]) = eventsOf handle tr ++ (event? handle i).toList := by
  cases h : event? handle i <;> simp [eventsOf, h]

/-- Does the event say whether the device is available. -/
def isAvailability : AvailabilityEvent → Bool
  | .available _ => true
  | .removed => false

/-- The last event that says whether the device is available. -/
def lastAvailability (events : List AvailabilityEvent) : Option AvailabilityEvent :=
  (events.filter isAvailability).getLast?

/-- Before every `true` there is a `false`, and no `true` between them. -/
def ReturnsAfterLoss (events : List AvailabilityEvent) : Prop :=
  ∀ before after, events = before ++ .available true :: after →
    ∃ first between, before = first ++ .available false :: between ∧ .available true ∉ between

/-- Between two `false` there is a `true` or a `removed`. -/
def LossesApart (events : List AvailabilityEvent) : Prop :=
  ∀ before between after,
    events = before ++ .available false :: between ++ .available false :: after →
    .available true ∈ between ∨ .removed ∈ between

theorem snoc_eq_cut {α : Type} {xs before after : List α} {x y : α}
    (h : xs ++ [x] = before ++ y :: after) :
    (xs = before ∧ x = y) ∨ ∃ rest, xs = before ++ y :: rest := by
  rcases List.eq_nil_or_concat after with rfl | ⟨rest, z, rfl⟩
  · obtain ⟨hxs, hx⟩ := List.append_inj' h rfl
    exact .inl ⟨hxs, (List.cons.inj hx).1⟩
  · have hcut : xs ++ [x] = (before ++ y :: rest) ++ [z] := by simpa using h
    exact .inr ⟨rest, (List.append_inj' hcut rfl).1⟩

theorem of_lastAvailability {e : AvailabilityEvent} (h : lastAvailability events = some e) :
    ∃ first between, events = first ++ e :: between ∧ ∀ b ∈ between, isAvailability b = false := by
  induction events using List.reverseRecOn with
  | nil => cases h
  | append_singleton events x ih =>
    cases hx : isAvailability x with
    | true =>
      have heq : x = e := by simpa [lastAvailability, hx] using h
      exact ⟨events, [], by rw [heq], fun _ hb => by cases hb⟩
    | false =>
      obtain ⟨first, between, rfl, hbetween⟩ := ih (by simpa [lastAvailability, hx] using h)
      exact ⟨first, between ++ [x], by simp, forall_snoc hbetween hx⟩

theorem ReturnsAfterLoss.snoc {e : AvailabilityEvent} (h : ReturnsAfterLoss events)
    (he : e = .available true → lastAvailability events = some (.available false)) :
    ReturnsAfterLoss (events ++ [e]) := by
  intro before after hcut
  rcases snoc_eq_cut hcut with ⟨rfl, rfl⟩ | ⟨rest, hrest⟩
  · obtain ⟨first, between, hevents, hbetween⟩ := of_lastAvailability (he rfl)
    refine ⟨first, between, hevents, fun hmem => ?_⟩
    have hnot := hbetween _ hmem
    cases hnot
  · exact h before rest hrest

theorem LossesApart.snoc {e : AvailabilityEvent} (h : LossesApart events)
    (he : e = .available false → events.getLast? ≠ some (.available false)) :
    LossesApart (events ++ [e]) := by
  intro before between after hcut
  rcases snoc_eq_cut hcut with ⟨rfl, rfl⟩ | ⟨rest, hrest⟩
  · -- the event before the new one is not a loss, so it is what stands between
    have hlast := he rfl
    rcases List.eq_nil_or_concat between with rfl | ⟨init, x, rfl⟩
    · simp at hlast
    · have hx : x ≠ .available false := by
        rintro rfl
        simp [List.getLast?_append, List.getLast?_cons] at hlast
      rcases x with ⟨_ | _⟩ | _
      · exact absurd rfl hx
      · exact .inl (by simp)
      · exact .inr (by simp)
  · exact h before between rest hrest

/-! ### The flag -/

/-- The flag of the device: in its state, else in what a rebuild carries, else on record. -/
def flagOf (c : Cache) (carried : Option Carried) (handle : String) : Bool :=
  match c.deviceStates handle with
  | some st => st.unavailableEmitted
  | none =>
    (((carried.bind fun r => r handle).orElse fun _ => c.departed handle).map
      (·.unavailableEmitted)).getD false

/-- Is the device in the cache, or carried by a rebuild. -/
def inside (c : Cache) (carried : Option Carried) (handle : String) : Bool :=
  (c.deviceStates handle).isSome || (carried.bind fun r => r handle).isSome

/-- Does the step put the device into the cache. -/
def enters (handle : String) (i : CacheItem) : Bool :=
  match i.2.2 with
  | .addState _ h => h = handle
  | _ => false

/-- No event of the device since it last entered the cache says whether it is available. -/
def NoneSince (handle : String) (tr : CacheTrace) : Prop :=
  ∀ i ∈ sinceLast (enters handle) tr, ∀ e, event? handle i = some e → isAvailability e = false

/-- Between two steps that remove the device there is one that puts it into the cache. -/
def RemovalsApart (handle : String) (tr : CacheTrace) : Prop :=
  ∀ before i between j after, tr = before ++ i :: between ++ j :: after →
    event? handle i = some .removed → event? handle j = some .removed →
    ∃ k ∈ between, enters handle k

theorem mem_sinceLast {handle : String} {before between : CacheTrace}
    {i : CacheItem} (hi : enters handle i = false)
    (hbetween : ∀ k ∈ between, enters handle k = false) :
    i ∈ sinceLast (enters handle) (before ++ i :: between) := by
  induction between using List.reverseRecOn with
  | nil => simp [sinceLast_snoc, hi]
  | append_singleton between k ih =>
    have hk : enters handle k = false := hbetween k (by simp)
    have hsnoc : before ++ i :: (between ++ [k]) = (before ++ i :: between) ++ [k] := by simp
    rw [hsnoc, sinceLast_snoc, hk]
    exact List.mem_append_left _ (ih fun k hk => hbetween k (by simp [hk]))

theorem enters_of_removed {handle : String} {i : CacheItem}
    (h : event? handle i = some .removed) : enters handle i = false := by
  obtain ⟨g, t, e⟩ := i
  cases e <;> first | rfl | cases h

theorem RemovalsApart.snoc {handle : String} {tr : CacheTrace}
    {i : CacheItem} (h : RemovalsApart handle tr) (hi : event? handle i = some .removed →
      ∀ j ∈ sinceLast (enters handle) tr, event? handle j ≠ some .removed) :
    RemovalsApart handle (tr ++ [i]) := by
  intro before k between j after hcut hk hj
  rcases snoc_eq_cut hcut with ⟨rfl, rfl⟩ | ⟨rest, hrest⟩
  · by_contra hnone
    have hbetween : ∀ m ∈ between, enters handle m = false := fun m hm =>
      Bool.eq_false_of_not_eq_true fun hm' => hnone ⟨m, hm, hm'⟩
    exact hi hj k (mem_sinceLast (enters_of_removed hk) hbetween) hk
  · exact h before k between j rest hrest hk hj

/-- What the cache, and the rebuild under way, know of the events of a device. -/
structure Told (c : Cache) (carried : Option Carried) (handle : String) (tr : CacheTrace) :
    Prop where
  returns : ReturnsAfterLoss (eventsOf handle tr)
  losses : LossesApart (eventsOf handle tr)
  flagged : flagOf c carried handle →
    lastAvailability (eventsOf handle tr) = some (.available false)
  clear : flagOf c carried handle = false → (eventsOf handle tr).getLast? ≠ some (.available false)
  entered : ∀ st, c.deviceStates handle = some st → st.unavailableEmitted = false →
    lastAvailability (eventsOf handle tr) = some (.available true) ∨ NoneSince handle tr
  /-- A device that is there was not removed since it last entered. -/
  kept : inside c carried handle →
    ∀ i ∈ sinceLast (enters handle) tr, event? handle i ≠ some .removed
  removals : RemovalsApart handle tr

section
variable {w : CacheWorld} {e : CacheEffect} {carried carried' : Option Carried} {handle : String}
  {c c' : Cache} {i : CacheItem} {g : CacheState}

/-! ### Steps -/

theorem lossEvent_cases (st : DeviceState) (shuttingDown : Bool) :
    (st.lossEvent? shuttingDown = none ∧
      (st.unavailableEmitted || !shuttingDown) = st.unavailableEmitted) ∨
      (st.lossEvent? shuttingDown = some (.available st.unavailableEmitted) ∧
        (st.unavailableEmitted || !shuttingDown) = !st.unavailableEmitted) := by
  cases hflag : st.unavailableEmitted <;> cases shuttingDown <;>
    simp [DeviceState.lossEvent?, hflag]

/-- What a poll's section does with the flag of a device in the cache: an event says what the flag
was, and turns it around. -/
theorem flag_poll {st : DeviceState} (he : isPoll e) (hst : w.cache.deviceStates handle = some st) :
    ∃ st', (w.apply e).cache.deviceStates handle = some st' ∧
      ((w.availability? handle e = none ∧ st'.unavailableEmitted = st.unavailableEmitted) ∨
        (w.availability? handle e = some (.available st.unavailableEmitted) ∧
          st'.unavailableEmitted = !st.unavailableEmitted)) := by
  cases e <;> try cases he
  case markUnavailable shuttingDown configs =>
    simp only [CacheWorld.apply, Cache.markUnavailable, CacheWorld.availability?, hst,
      Option.map_some, Option.bind_some]
    split
    · exact ⟨_, rfl, lossEvent_cases st shuttingDown⟩
    · exact ⟨st, rfl, .inl ⟨rfl, rfl⟩⟩
  case readFailed status shuttingDown providerLost h =>
    rcases eq_or_ne h handle with rfl | hh
    · simp only [CacheWorld.apply, Cache.readFailed, CacheWorld.availability?, hst,
        Function.update_self, Option.map_some, Option.bind_some, if_true]
      exact ⟨_, rfl, lossEvent_cases st shuttingDown⟩
    · refine ⟨st, ?_, .inl ⟨if_neg hh, rfl⟩⟩
      simpa [CacheWorld.apply, Cache.readFailed, Ne.symm hh] using hst
  case readApplied h readings =>
    rcases eq_or_ne h handle with rfl | hh
    · simp only [CacheWorld.apply, Cache.readApplied, CacheWorld.availability?, hst,
        Function.update_self, Option.map_some, Option.bind_some, if_true]
      refine ⟨_, rfl, ?_⟩
      cases hflag : st.unavailableEmitted <;> simp [DeviceState.returnEvent?, hflag]
    · refine ⟨st, ?_, .inl ⟨if_neg hh, rfl⟩⟩
      simpa [CacheWorld.apply, Cache.readApplied, Ne.symm hh] using hst
  all_goals exact ⟨st, hst, .inl ⟨rfl, rfl⟩⟩

theorem availability_poll_none (he : isPoll e) (hst : w.cache.deviceStates handle = none) :
    w.availability? handle e = none := by
  cases e <;> simp_all [CacheWorld.availability?, isPoll]

/-- A step without an event of the device that leaves the flag. -/
theorem Told.frame (h : Told c carried handle tr) (hevent : event? handle i = none)
    (hflag : flagOf c' carried' handle = flagOf c carried handle)
    (hstate : ∀ st', c'.deviceStates handle = some st' → st'.unavailableEmitted = false →
      enters handle i ∨ ∃ st, c.deviceStates handle = some st ∧ st.unavailableEmitted = false)
    (hinside : inside c' carried' handle →
      enters handle i ∨ inside c carried handle) : Told c' carried' handle (tr ++ [i]) := by
  have hevents : eventsOf handle (tr ++ [i]) = eventsOf handle tr := by
    rw [eventsOf_snoc, hevent]
    exact List.append_nil _
  -- what holds of the events since the last entry holds of them with this step
  have hsince : ∀ {P : CacheItem → Prop}, P i →
      (enters handle i ∨ ∀ j ∈ sinceLast (enters handle) tr, P j) →
      ∀ j ∈ sinceLast (enters handle) (tr ++ [i]), P j := by
    intro P hi hor j hj
    rw [sinceLast_snoc] at hj
    split at hj
    · rw [List.mem_singleton.mp hj]
      exact hi
    · rename_i hnot
      exact forall_snoc (hor.resolve_left hnot) hi j hj
  have hquiet : ∀ e, event? handle i = some e → isAvailability e = false := by
    intro e he
    rw [hevent] at he
    cases he
  refine ⟨hevents ▸ h.returns, hevents ▸ h.losses, ?_, ?_, fun st' hst' hclear => ?_, fun hin => ?_,
    h.removals.snoc fun hremoved => ?_⟩
  · rw [hflag, hevents]
    exact h.flagged
  · rw [hflag, hevents]
    exact h.clear
  · rw [hevents]
    rcases hstate st' hst' hclear with henters | ⟨st, hst, hold⟩
    · exact .inr (hsince hquiet (.inl henters))
    · rcases h.entered st hst hold with hlast | hnone
      · exact .inl hlast
      · exact .inr (hsince hquiet (.inr hnone))
  · have hnot : event? handle i ≠ some .removed := by simp [hevent]
    exact hsince hnot ((hinside hin).imp id h.kept)
  · rw [hevent] at hremoved
    cases hremoved

theorem Told.poll (h : Told g.shared.cache carried handle tr)
    (he : isPoll e) : Told (g.shared.apply e).cache carried handle (tr ++ [(g, t, e)]) := by
  have hnever : enters handle (g, t, e) = false := by cases e <;> first | rfl | cases he
  cases hst : g.shared.cache.deviceStates handle with
  | none =>
    have hst' := (deviceStates_poll he).mpr hst
    refine h.frame (availability_poll_none he hst) ?_ (fun st' h' => ?_) fun hin => .inr ?_
    · simp only [flagOf, hst, hst', (departed_poll he).1]
    · rw [hst'] at h'
      cases h'
    · simpa [inside, hst, hst'] using hin
  | some st =>
    obtain ⟨st', hst', hcases⟩ := flag_poll he hst
    have hflag : flagOf g.shared.cache carried handle = st.unavailableEmitted := by
      simp only [flagOf, hst]
    have hflag' : flagOf (g.shared.apply e).cache carried handle = st'.unavailableEmitted := by
      simp only [flagOf, hst']
    have hin : inside g.shared.cache carried handle := by simp [inside, hst]
    have hsince : sinceLast (enters handle) (tr ++ [(g, t, e)]) =
        sinceLast (enters handle) tr ++ [(g, t, e)] := by
      rw [sinceLast_snoc, hnever]
      rfl
    rcases hcases with ⟨hevent, hsame⟩ | ⟨hevent, hturned⟩
    · refine h.frame hevent (by rw [hflag, hflag', hsame]) (fun st₁ h₁ hclear => .inr ?_) fun _ =>
        .inr hin
      rw [hst'] at h₁
      cases h₁
      exact ⟨st, hst, hsame ▸ hclear⟩
    · have hevent : event? handle (g, t, e) = some (.available st.unavailableEmitted) := hevent
      have hevents : eventsOf handle (tr ++ [(g, t, e)]) =
          eventsOf handle tr ++ [.available st.unavailableEmitted] := by
        rw [eventsOf_snoc, hevent]
        rfl
      have hlast : lastAvailability (eventsOf handle (tr ++ [(g, t, e)])) =
          some (.available st.unavailableEmitted) := by
        simp [hevents, lastAvailability, isAvailability]
      refine ⟨?_, ?_, fun hset => ?_, fun hclear => ?_, fun st₁ h₁ hclear => .inl ?_,
        fun _ i hi => ?_, h.removals.snoc fun _ => h.kept hin⟩
      · rw [hevents]
        exact h.returns.snoc fun heq => h.flagged (hflag.trans
          (AvailabilityEvent.available.inj heq))
      · rw [hevents]
        exact h.losses.snoc fun heq => h.clear (hflag.trans (AvailabilityEvent.available.inj heq))
      · rw [hflag', hturned, Bool.not_eq_true'] at hset
        rw [hlast, hset]
      · rw [hflag', hturned, Bool.not_eq_false'] at hclear
        simp [hevents, hclear]
      · rw [hst'] at h₁
        cases h₁
        rw [hturned, Bool.not_eq_false'] at hclear
        rw [hlast, hclear]
      · rw [hsince] at hi
        rcases List.mem_append.mp hi with hi | hi
        · exact h.kept hin i hi
        · rw [List.mem_singleton.mp hi, hevent]
          exact fun heq => by cases heq

/-! ### The sections of a rebuild -/

theorem flagOf_eraseStates (p : String) :
    flagOf (c.eraseStates p) (some (c.carried p)) handle = flagOf c none handle := by
  simp only [flagOf, Cache.eraseStates, Cache.carried, Option.bind_some, Option.bind_none]
  cases handleOf p handle <;> cases c.deviceStates handle <;> simp

theorem flagOf_addState {r : Carried} {h : String} (hnone : c.deviceStates h = none) :
    flagOf (c.addState r h) (some r) handle = flagOf c (some r) handle := by
  by_cases hh : handle = h
  · subst hh
    simp only [flagOf, Cache.addState, Function.update_self, hnone, Option.bind_some]
    cases r handle <;> cases c.departed handle <;> rfl
  · simp [flagOf, Cache.addState, hh]

/-- A device that is dropped: it is told so, and its flag stays on record where it was reported
lost. -/
theorem Told.removed {r : Carried} {prior : CarriedReachability}
    (h : Told g.shared.cache (some r) handle tr) (hrecord : OnRecord g.shared.cache (some r))
    (hcarried : r handle = some prior) (hst : g.shared.cache.deviceStates handle = none) :
    Told (g.shared.apply (.dropRemoved r)).cache none handle (tr ++ [(g, t, .dropRemoved r)]) := by
  have hevent : event? handle (g, t, .dropRemoved r) = some .removed := by
    simp [event?, CacheWorld.availability?, hcarried, hst]
  have hevents : eventsOf handle (tr ++ [(g, t, .dropRemoved r)]) =
      eventsOf handle tr ++ [.removed] := by
    rw [eventsOf_snoc, hevent]
    rfl
  have hst' : (g.shared.apply (.dropRemoved r)).cache.deviceStates handle = none := hst
  have hdeparted : g.shared.cache.departed handle = none := by
    by_contra hne
    have hnot := (hrecord handle (Option.isSome_iff_ne_none.mpr hne)).2
    simp [hcarried] at hnot
  have hlast : lastAvailability (eventsOf handle (tr ++ [(g, t, .dropRemoved r)])) =
      lastAvailability (eventsOf handle tr) := by
    simp [hevents, lastAvailability, isAvailability]
  refine ⟨?_, ?_, fun hset => ?_, fun _ => ?_, fun st hsome => ?_, fun hin => ?_,
    h.removals.snoc fun _ => h.kept (by simp [inside, hcarried])⟩
  · rw [hevents]
    exact h.returns.snoc fun heq => by cases heq
  · rw [hevents]
    exact h.losses.snoc fun heq => by cases heq
  · rw [hlast]
    refine h.flagged ?_
    -- only what was carried can be on record now
    simp only [flagOf, CacheWorld.apply, Cache.dropRemoved, hcarried, hst, hdeparted,
      Option.isNone_none, Bool.true_and, Option.bind_none] at hset
    cases hloss : prior.lossReported <;> simp_all [flagOf]
  · simp [hevents]
  · rw [hst'] at hsome
    cases hsome
  · simp [inside, hst'] at hin

theorem Told.moved (h : Told g.shared.cache carried handle tr)
    (hrecord : OnRecord g.shared.cache carried) (hmoved : Moved g.shared.cache carried e carried') :
    Told (g.shared.apply e).cache carried' handle (tr ++ [(g, t, e)]) := by
  cases hmoved with
  | poll he => exact h.poll he
  | configs p | pushed r config => exact h.frame rfl rfl (fun st hst hc => .inr ⟨st, hst, hc⟩) .inr
  | erased p =>
    refine h.frame rfl (flagOf_eraseStates p) (fun st hst hc => .inr ?_) fun hin => .inr ?_
    · simp only [CacheWorld.apply, Cache.eraseStates, Option.ite_none_left_eq_some] at hst
      exact ⟨st, hst.2, hc⟩
    · cases hstate : g.shared.cache.deviceStates handle with
      | some st => simp [inside, hstate]
      | none => simp [inside, CacheWorld.apply, Cache.eraseStates, Cache.carried, hstate] at hin
  | added r k hnone =>
    by_cases hk : k = handle
    · have henters : enters handle (g, t, .addState r k) := decide_eq_true hk
      exact h.frame rfl (flagOf_addState hnone) (fun _ _ _ => .inl henters) fun _ => .inl henters
    · have hsame : (g.shared.apply (.addState r k)).cache.deviceStates handle =
          g.shared.cache.deviceStates handle := Function.update_of_ne (Ne.symm hk) _ _
      refine h.frame rfl (flagOf_addState hnone) (fun st hst hc => .inr ⟨st, hsame ▸ hst, hc⟩)
        fun hin => .inr ?_
      simpa [inside, hsame] using hin
  | dropped r =>
    cases hst : g.shared.cache.deviceStates handle with
    | some st =>
      have hst' : (g.shared.apply (.dropRemoved r)).cache.deviceStates handle = some st := hst
      refine h.frame ?_ (by simp only [flagOf, hst, hst'])
        (fun st' h' hc => .inr ⟨st', h', hc⟩) fun _ => .inr ?_
      · simp [event?, CacheWorld.availability?, hst]
      · simp [inside, hst]
    | none =>
      cases hcarried : r handle with
      | some prior => exact h.removed hrecord hcarried hst
      | none =>
        have hst' : (g.shared.apply (.dropRemoved r)).cache.deviceStates handle = none := hst
        refine h.frame ?_ ?_ (fun st' h' hc => .inr ⟨st', h', hc⟩) fun hin => ?_
        · simp [event?, CacheWorld.availability?, hcarried]
        · simp [flagOf, hst, CacheWorld.apply, Cache.dropRemoved, hcarried]
        · simp [inside, hst'] at hin

end

/-! ### Runs -/

section
variable {status : StopChainStatus} {staleAfterMs : Int} {g₀ g g' : CacheState}

/-- The cache after one `initialize` on an inventory, with or without a reachability sink, and no
thread inside an operation. -/
def Started (g : CacheState) : Prop :=
  (∃ sink devices, g.shared.cache = Cache.commitInitial { sinkSet := sink } devices) ∧
    ∀ t, g.thread t = []

/-- The invariant of a run: at most one thread rebuilds, and the events of every device are as the
flags say. -/
def Tracked (tr : CacheTrace) (g : CacheState) : Prop :=
  ∃ t carried, Rebuild g t carried ∧ OnRecord g.shared.cache carried ∧
    ∀ handle, Told g.shared.cache carried handle tr

theorem Started.tracked (h : Started g₀) : Tracked [] g₀ := by
  obtain ⟨⟨sink, devices, hcache⟩, hidle⟩ := h
  refine ⟨0, none, ⟨.outside (by rw [hidle]; rfl), fun u _ => by rw [hidle]; rfl⟩, ?_,
    fun handle => ?_⟩
  · rw [hcache]
    exact fun k hk => by cases hk
  · have hclear : flagOf g₀.shared.cache none handle = false := by
      rw [hcache]
      simp only [flagOf, Cache.commitInitial]
      split <;> rename_i hst
      · split at hst <;> cases hst
        rfl
      · rfl
    refine ⟨fun before after h => ?_, fun before between after h => ?_, fun hset => ?_, fun _ => ?_,
      fun _ _ _ => .inr fun i hi => (by cases hi), fun _ i hi => (by cases hi),
      fun before i between j after h => ?_⟩
    · simp [eventsOf] at h
    · simp [eventsOf] at h
    · rw [hclear] at hset
      cases hset
    · simp [eventsOf]
    · simp at h

/-- A step keeps the invariant, where no two rebuilds overlap after it. -/
theorem Tracked.step {e : CacheEffect} (h : Tracked tr g) (hcond : Condition g (t, e))
    (hstep : (cacheMachine status staleAfterMs).lts.step g (t, e) g') (hexcl : Exclusive g') :
    Tracked (tr ++ [(g, t, e)]) g' := by
  obtain ⟨u, carried, hrebuild, hrecord, htold⟩ := h
  obtain ⟨c, sections, -, hsh, -⟩ := Machine.step_inv hstep
  obtain ⟨u', carried', hrebuild', hmoved⟩ := hrebuild.step hcond hstep hexcl
  have hsh : g'.shared = g.shared.apply e := hsh
  refine ⟨u', carried', hrebuild', ?_, fun handle => ?_⟩
  · rw [hsh]
    exact hrecord.moved hmoved
  · rw [hsh]
    exact (htold handle).moved hrecord hmoved

theorem tracked_run (h0 : Started g₀) (hrun : Run (cacheMachine status staleAfterMs).lts g₀ tr g)
    (hcond : ∀ i ∈ tr, Condition i.1 i.2) (hexcl : Exclusive g) : Tracked tr g := by
  refine Run.induct_of (C := Condition) (J := fun tr g => Exclusive g → Tracked tr g)
    (fun _ => h0.tracked) ?_ hrun hcond hexcl
  intro tr g l g' _ _ ih hc hstep hexcl
  exact (ih hc.exclusive).step hc hstep hexcl

end

/-- After one `initialize`, in every run of polls, rebuilds and shutdown requests in which no two
rebuilds overlap and the inventories have distinct handles, the events of every device:

- before each `available: true` there is an `available: false`, with no `available: true` between;
- between two `available: false` there is an `available: true` or a `removed`;
- between two `removed` the device was put into the cache again;
- while the device is in the cache, the last availability event is `false` where the flag is set,
  and where it is clear the last one is `true`, or there was none since the device last entered. -/
theorem availability_automaton (status : StopChainStatus) (staleAfterMs : Int) {g₀ g : CacheState}
    {tr : CacheTrace} (h0 : Started g₀) (hrun : Run (cacheMachine status staleAfterMs).lts g₀ tr g)
    (hcond : ∀ i ∈ tr, Condition i.1 i.2) (hexcl : Exclusive g) (handle : String) :
    ReturnsAfterLoss (eventsOf handle tr) ∧ LossesApart (eventsOf handle tr) ∧
      RemovalsApart handle tr ∧
      ∀ st, g.shared.cache.deviceStates handle = some st → (st.unavailableEmitted →
          lastAvailability (eventsOf handle tr) = some (.available false)) ∧
        (st.unavailableEmitted = false →
          lastAvailability (eventsOf handle tr) = some (.available true) ∨
            NoneSince handle tr) := by
  obtain ⟨-, carried, -, -, htold⟩ := tracked_run h0 hrun hcond hexcl
  have h := htold handle
  refine ⟨h.returns, h.losses, h.removals, fun st hst =>
    ⟨fun hset => h.flagged ?_, h.entered st hst⟩⟩
  simp only [flagOf, hst, hset]

/-- A tank is lost, dropped by one restart, registered again by the next one and read. -/
theorem availability_automaton_dropped :
    ∃ g tr, Run (cacheMachine someStatus 1000).lts tankReady tr g ∧
      eventsOf "sim0/tank" tr = [.available false, .removed, .available true] ∧
      RemovalsApart "sim0/tank" tr ∧ ReturnsAfterLoss (eventsOf "sim0/tank" tr) := by
  obtain ⟨tr, g, hrun, hp⟩ := Machine.run_of_passes (cacheMachine someStatus 1000) tankReady
    (tankFails ++ republish [] 4 ++ republish [tank] 6 ++ tankAnswers)
    (fun tr _ => eventsOf "sim0/tank" tr = [.available false, .removed, .available true] ∧
      ∀ i ∈ tr, inOneThread i) (by decide)
  obtain ⟨hcond, hexcl⟩ := conditions_of_one_thread hrun (fun _ => rfl) hp.2
  obtain ⟨hreturns, -, hremovals, -⟩ := availability_automaton someStatus 1000
    ⟨⟨true, [tank], rfl⟩, fun _ => rfl⟩ hrun hcond hexcl "sim0/tank"
  exact ⟨g, tr, hrun, hp.1, hremovals, hreturns⟩

end Anolis.Proofs.Availability
