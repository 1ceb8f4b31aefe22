import Anolis.State.CacheMachine

/-!
# The edges of a device alternate

The cache reports a device's loss once, and its return once, with numbers from one counter. Whether
a loss is outstanding is a flag of the device's state, and a rebuild erases the states of a
provider's devices and makes new ones, section by section, while polls of the old plan go on.

`outstanding` says where the flag is at each moment: in the device's state; else in what a rebuild
under way carries; else in the record of the devices that were dropped while lost. A rebuild moves
it from one place to another and no section of it changes it. So it is the parity of the edges that
the device has had (`Balanced`), and the edges alternate (`edges_alternate`).

A provider id may contain a slash here: a rebuild then erases another provider's states too, and
leaves them on record.
-/

namespace Anolis.Proofs.ReachabilityEdges

open Anolis.Runtime Control Lib Registry State

variable {w : CacheWorld} {e : CacheEffect} {tr : CacheTrace} {status : StopChainStatus}
  {staleAfterMs : Int} {g g' g₀ : CacheState} {t u : ThreadId} {sections : List Section}
  {states : String → Option DeviceState}

/-- What a rebuild carries. -/
abbrev Carried := String → Option CarriedReachability

/-! ### Edges -/

/-- The edge that a step hands out. -/
def edge? (i : CacheItem) : Option ReachabilityEdge :=
  i.1.shared.edge? i.2.2

/-- The edges of a run, in the order in which they were handed out. -/
def edges (tr : CacheTrace) : List ReachabilityEdge := tr.filterMap edge?

/-- The edges of one device. -/
def edgesOf (handle : String) (tr : CacheTrace) : List ReachabilityEdge :=
  (edges tr).filter fun e => e.deviceHandle = handle

/-- The edge of the device `handle` that an effect hands out. -/
def edgeOf? (handle : String) (w : CacheWorld) (e : CacheEffect) : Option ReachabilityEdge :=
  (w.edge? e).filter fun edge => edge.deviceHandle = handle

theorem edges_snoc (tr : CacheTrace) (g : CacheState) (t : ThreadId) (e : CacheEffect) :
    edges (tr ++ [(g, t, e)]) = edges tr ++ (g.shared.edge? e).toList := by
  cases h : g.shared.edge? e <;> simp [edges, edge?, h]

theorem edgesOf_snoc (handle : String) (tr : CacheTrace) (g : CacheState) (t : ThreadId)
    (e : CacheEffect) : edgesOf handle (tr ++ [(g, t, e)]) =
      edgesOf handle tr ++ (edgeOf? handle g.shared e).toList := by
  cases h : g.shared.edge? e with
  | none => simp [edgesOf, edges_snoc, edgeOf?, h]
  | some edge =>
    by_cases hh : edge.deviceHandle = handle <;>
      simp [edgesOf, edges_snoc, edgeOf?, h, hh, Option.filter_some]

/-! ### The outstanding loss -/

/-- Is a loss of the device outstanding, where a rebuild carries `carried`. -/
def outstanding (c : Cache) (carried : Option Carried) (handle : String) : Bool :=
  match c.deviceStates handle with
  | some st => st.lossReported
  | none =>
    (((carried.bind fun r => r handle).orElse fun _ => c.departed handle).map
      (·.lossReported)).getD false

/-- The effects of the operations other than `initialize` and a rebuild. -/
def isPoll : CacheEffect → Bool
  | .silent | .publish _ | .advance _ _ | .markUnavailable _ _ | .readFailed _ _ _ _
  | .readApplied _ _ | .classified _ => true
  | _ => false

section
variable {carried : Option Carried} {handle : String}

theorem deviceStates_poll (he : isPoll e) :
    (w.apply e).cache.deviceStates handle = none ↔ w.cache.deviceStates handle = none := by
  cases e <;> try cases he
  case markUnavailable =>
    simp only [CacheWorld.apply, Cache.markUnavailable]
    split <;> simp
  case readFailed status shuttingDown providerLost h =>
    simp only [CacheWorld.apply, Cache.readFailed]
    rcases eq_or_ne handle h with rfl | hh
    · simp
    · simp [hh]
  case readApplied h readings =>
    simp only [CacheWorld.apply, Cache.readApplied]
    rcases eq_or_ne handle h with rfl | hh
    · simp
    · simp [hh]
  all_goals rfl

theorem departed_poll (he : isPoll e) : (w.apply e).cache.departed = w.cache.departed ∧
      (w.apply e).cache.sinkSet = w.cache.sinkSet := by
  cases e <;> first | exact ⟨rfl, rfl⟩ | cases he

/-- An edge has the next number, and is of a device with a state: a loss of one that was not
reported lost, a return of one that was. -/
theorem of_edge? {edge : ReachabilityEdge} (h : w.edge? e = some edge) :
    (edge.seq = w.cache.edgeSeq + 1 ∧ (w.apply e).cache.edgeSeq = edge.seq) ∧
      ∃ st, w.cache.deviceStates edge.deviceHandle = some st ∧
        edge.reachable = st.lossReported := by
  cases e <;> simp only [CacheWorld.edge?, reduceCtorEq] at h
  case readFailed status shuttingDown providerLost handle =>
    have hseq : (w.apply (.readFailed status shuttingDown providerLost handle)).cache.edgeSeq =
        edge.seq := by
      simp [CacheWorld.apply, Cache.readFailed, h]
    obtain ⟨rfl, -, -, st, hst, hloss⟩ := Cache.of_lossEdge? h
    exact ⟨⟨rfl, hseq⟩, st, hst, hloss.symm⟩
  case readApplied handle readings =>
    split at h
    · have hseq : (w.apply (.readApplied handle readings)).cache.edgeSeq = edge.seq := by
        simp [CacheWorld.apply, Cache.readApplied, h]
      obtain ⟨rfl, st, hst, hloss⟩ := Cache.of_returnEdge? h
      exact ⟨⟨rfl, hseq⟩, st, hst, hloss.symm⟩
    · cases h

/-- What a poll's section does with the flag of the device it reads. -/
theorem lossReported_poll {st : DeviceState} (he : isPoll e)
    (hsink : w.cache.sinkSet) (hst : w.cache.deviceStates handle = some st) :
    ∃ st', (w.apply e).cache.deviceStates handle = some st' ∧
      st'.lossReported = ((edgeOf? handle w e).isSome ^^ st.lossReported) := by
  cases e <;> try cases he
  case markUnavailable shuttingDown configs =>
    simp only [CacheWorld.apply, Cache.markUnavailable, hst]
    split
    · exact ⟨_, rfl, by simp [edgeOf?, CacheWorld.edge?, DeviceState.marked]⟩
    · exact ⟨_, rfl, by simp [edgeOf?, CacheWorld.edge?]⟩
  case readFailed status shuttingDown providerLost h =>
    simp only [CacheWorld.apply, Cache.readFailed, edgeOf?, CacheWorld.edge?, Cache.lossEdge?]
    rcases eq_or_ne h handle with rfl | hh
    · refine ⟨st.failed true shuttingDown providerLost, by simp [hst, hsink], ?_⟩
      cases shuttingDown <;> cases providerLost <;> cases hloss : st.lossReported <;>
        simp [hst, hsink, hloss, DeviceState.failed, Option.filter_some]
    · refine ⟨st, by simp [Ne.symm hh, hst], ?_⟩
      split
      · split <;> simp [hh, Option.filter_some]
      · simp
  case readApplied h readings =>
    simp only [CacheWorld.apply, Cache.readApplied, edgeOf?, CacheWorld.edge?, hsink, if_true,
      Cache.returnEdge?]
    rcases eq_or_ne h handle with rfl | hh
    · refine ⟨_, by rw [Function.update_self, hst]; rfl, ?_⟩
      cases hloss : st.lossReported <;> simp [hst, hloss, Option.filter_some]
    · refine ⟨st, by simp [Ne.symm hh, hst], ?_⟩
      split
      · split <;> simp [hh, Option.filter_some]
      · simp
  all_goals exact ⟨st, hst, by simp [edgeOf?, CacheWorld.edge?]⟩

theorem edgeOf?_none (hst : w.cache.deviceStates handle = none) : edgeOf? handle w e = none := by
  refine Option.filter_eq_none_iff.mpr fun edge hedge hh => ?_
  obtain ⟨-, st, hst', -⟩ := of_edge? hedge
  rw [of_decide_eq_true hh, hst] at hst'
  cases hst'

/-- An edge of the device turns the outstanding loss of the device around, and nothing else in a
poll touches it. -/
theorem outstanding_poll (he : isPoll e) (hsink : w.cache.sinkSet) :
    outstanding (w.apply e).cache carried handle =
      ((edgeOf? handle w e).isSome ^^ outstanding w.cache carried handle) := by
  cases hst : w.cache.deviceStates handle with
  | none =>
    have hst' := (deviceStates_poll he).mpr hst
    simp [outstanding, hst, hst', (departed_poll he).1, edgeOf?_none hst]
  | some st =>
    obtain ⟨st', hst', hloss⟩ := lossReported_poll he hsink hst
    simp [outstanding, hst, hst', hloss]

theorem edgeSeq_apply (h : w.edge? e = none) (hsink : w.cache.sinkSet) :
    (w.apply e).cache.edgeSeq = w.cache.edgeSeq := by
  cases e <;> try rfl
  case readFailed => simp_all [CacheWorld.edge?, CacheWorld.apply, Cache.readFailed]
  case readApplied => simp_all [CacheWorld.edge?, CacheWorld.apply, Cache.readApplied]

end

/-! ### Rebuilds -/

/-- Is the section one of a rebuild. -/
def ofRebuild : Section → Bool
  | .eraseConfigs _ | .eraseStates _ | .copyDevicesOf _ _ | .pushConfig _ | .addState _ _
  | .dropRemoved _ => true
  | _ => false

/-- Does a thread with these sections have a rebuild under way. -/
def rebuilding (sections : List Section) : Bool := sections.any ofRebuild

/-- What a rebuild still has to do for the devices `configs`. -/
def addSections (carried : Carried) (configs : List PollConfig) : List Section :=
  (configs.flatMap fun c => [.pushConfig c, .addState carried c.handle]) ++ [.dropRemoved carried]

/-- The devices of `configs` are different, and have no state yet. -/
def Fresh (states : String → Option DeviceState) (configs : List PollConfig) : Prop :=
  (configs.map PollConfig.handle).Nodup ∧ ∀ c ∈ configs, states c.handle = none

/-- Where the thread of a rebuild is, and what it carries. -/
inductive Place (states : String → Option DeviceState) : List Section → Option Carried → Prop
  | outside {sections : List Section} (h : rebuilding sections = false) :
      Place states sections none
  | configs (p : String) : Place states [.eraseConfigs p, .eraseStates p] none
  | states (p : String) : Place states [.eraseStates p] none
  | devices (p : String) (carried : Carried) (h : ∀ h, handleOf p h → states h = none) :
      Place states [.copyDevicesOf p carried] (some carried)
  | push (carried : Carried) (configs : List PollConfig) (h : Fresh states configs) :
      Place states (addSections carried configs) (some carried)
  | add (carried : Carried) (c : PollConfig) (configs : List PollConfig)
      (h : Fresh states (c :: configs)) :
      Place states (.addState carried c.handle :: addSections carried configs) (some carried)

theorem Place.congr {states' : String → Option DeviceState} {carried : Option Carried}
    (h : Place states sections carried) (hnone : ∀ h, states h = none → states' h = none) :
    Place states' sections carried := by
  have hfresh : ∀ configs, Fresh states configs → Fresh states' configs :=
    fun configs hf => ⟨hf.1, fun c hc => hnone _ (hf.2 c hc)⟩
  cases h with
  | outside h => exact .outside h
  | configs p => exact .configs p
  | states p => exact .states p
  | devices p carried h => exact .devices p carried fun k hk => hnone k (h k hk)
  | push carried configs h => exact .push carried configs (hfresh _ h)
  | add carried c configs h => exact .add carried c configs (hfresh _ h)

/-- What the cache, and the rebuild under way, know of the edges of a run. -/
structure Balanced (c : Cache) (carried : Option Carried) (tr : CacheTrace) : Prop where
  /-- A loss is outstanding after an odd number of edges. -/
  parity : ∀ h, outstanding c carried h = decide ((edgesOf h tr).length % 2 = 1)
  /-- A device on record has no state, and no rebuild carries it. -/
  departed : ∀ h, (c.departed h).isSome →
    c.deviceStates h = none ∧ (carried.bind fun r => r h) = none
  /-- The counter is not behind the edges. -/
  seq : ∀ edge ∈ edges tr, edge.seq ≤ c.edgeSeq
  sink : c.sinkSet

/-- The cache's part of the invariant: at most the thread `t` rebuilds. -/
structure Rebuild (g : CacheState) (t : ThreadId) (carried : Option Carried) : Prop where
  place : Place g.shared.cache.deviceStates (g.thread t) carried
  others : ∀ u, u ≠ t → rebuilding (g.thread u) = false

section
variable {carried : Option Carried}

/-- A poll keeps the balance: an edge turns both sides around. -/
theorem Balanced.poll (h : Balanced g.shared.cache carried tr) (he : isPoll e) :
    Balanced (g.shared.apply e).cache carried (tr ++ [(g, t, e)]) where
  parity k := by
    rw [outstanding_poll he h.sink, h.parity k, edgesOf_snoc]
    cases edgeOf? k g.shared e with
    | none => simp
    | some edge =>
      simp only [Option.isSome_some, Option.toList_some, List.length_append, List.length_singleton,
        Bool.true_xor]
      by_cases hodd : (edgesOf k tr).length % 2 = 1 <;> simp [hodd] <;> omega
  departed k hk := by
    rw [(departed_poll he).1] at hk
    exact ⟨(deviceStates_poll he).mpr (h.departed k hk).1, (h.departed k hk).2⟩
  seq edge hedge := by
    rw [edges_snoc] at hedge
    rcases List.mem_append.mp hedge with hold | hnew
    · have hle := h.seq edge hold
      cases hone : g.shared.edge? e with
      | none => rw [edgeSeq_apply hone h.sink]; exact hle
      | some edge' =>
        obtain ⟨⟨hnext, hseq⟩, -⟩ := of_edge? hone
        omega
    · obtain ⟨⟨-, hseq⟩, -⟩ := of_edge? (Option.mem_toList.mp hnew)
      exact Nat.le_of_eq hseq.symm
  sink := by rw [(departed_poll he).2]; exact h.sink

/-- A section of a rebuild hands out no edge. What it must keep is which losses are
outstanding. -/
theorem Balanced.move {carried' : Option Carried} (h : Balanced g.shared.cache carried tr)
    (hedge : g.shared.edge? e = none)
    (hsame : ∀ k, outstanding (g.shared.apply e).cache carried' k = outstanding g.shared.cache
      carried k)
    (hdeparted : ∀ k, ((g.shared.apply e).cache.departed k).isSome →
      (g.shared.apply e).cache.deviceStates k = none ∧ (carried'.bind fun r => r k) = none)
    (hsink : (g.shared.apply e).cache.sinkSet = g.shared.cache.sinkSet) :
    Balanced (g.shared.apply e).cache carried' (tr ++ [(g, t, e)]) where
  parity k := by
    rw [hsame, h.parity k, edgesOf_snoc]
    simp [edgeOf?, hedge]
  departed := hdeparted
  seq edge hmem := by
    rw [edges_snoc, hedge] at hmem
    rw [edgeSeq_apply hedge h.sink]
    exact h.seq edge (by simpa using hmem)
  sink := hsink.trans h.sink

end

section
variable {carried : Option Carried}

/-- Outside a rebuild, a step is one of a poll, and may start a rebuild. -/
theorem next_outside {c : CacheChoice} {sections' : List Section}
    (h : (cacheMachine status staleAfterMs).next w u sections c = some (e, sections'))
    (hout : rebuilding sections = false) (hinit : ∀ devices, e ≠ .commitInitial devices) :
    isPoll e ∧
      (rebuilding sections' = false ∨ ∃ p, sections' = [.eraseConfigs p, .eraseStates p]) := by
  cases sections with
  | nil =>
    cases c <;> simp only [cacheMachine, some_pair, reduceCtorEq] at h
    case start op =>
      obtain ⟨rfl, rfl⟩ := h
      cases op <;> simp [CacheOp.sections, rebuilding, ofRebuild, isPoll]
    all_goals
      obtain ⟨rfl, rfl⟩ := h
      exact ⟨rfl, .inl rfl⟩
  | cons sec rest =>
    simp only [rebuilding, List.any_cons, Bool.or_eq_false_iff] at hout
    obtain ⟨⟨e', more⟩, hsec, heq⟩ := Option.map_eq_some_iff.mp h
    cases heq
    suffices hmore : isPoll e' ∧ rebuilding more = false by
      refine ⟨hmore.1, .inl ?_⟩
      rw [rebuilding, List.any_append, hout.2]
      simpa [rebuilding] using hmore.2
    revert hsec
    fun_cases Section.run status staleAfterMs w sec c <;> intro hsec <;>
      simp only [some_pair, reduceCtorEq] at hsec
    all_goals obtain ⟨rfl, rfl⟩ := hsec
    all_goals simp_all [isPoll, rebuilding, ofRebuild]

end

/-! ### The sections of a rebuild -/

theorem handle_of_pollConfig? {d : RegisteredDevice} {c : PollConfig}
    (h : pollConfig? d = some c) : c.providerId = d.providerId ∧ c.handle = d.getHandle := by
  simp only [pollConfig?, Option.ite_none_left_eq_some, Option.some.injEq] at h
  obtain ⟨-, rfl⟩ := h
  exact ⟨rfl, rfl⟩

theorem handles_sublist (devices : List RegisteredDevice) :
    ((devices.filterMap pollConfig?).map PollConfig.handle).Sublist
      (devices.map RegisteredDevice.getHandle) := by
  induction devices with
  | nil => exact List.Sublist.slnil
  | cons d devices ih =>
    cases hc : pollConfig? d with
    | none => simpa [hc] using ih.cons d.getHandle
    | some c => simpa [hc, (handle_of_pollConfig? hc).2] using ih

theorem handleOf_handle (c : PollConfig) : handleOf c.providerId c.handle := by
  simp only [handleOf, PollConfig.handle, String.toList_append, List.isPrefixOf_iff_prefix]
  exact List.prefix_append _ _

/-- The devices that a rebuild finds in an inventory of distinct handles have no state after the
erasure. -/
theorem fresh_devices {registry : DeviceRegistry} {p : String}
    (hnone : ∀ h, handleOf p h → states h = none)
    (hdistinct : (registry.devices.map RegisteredDevice.getHandle).Nodup) :
    Fresh states ((registry.devices.filter fun d => d.providerId = p).filterMap pollConfig?) := by
  refine ⟨?_, fun c hc => ?_⟩
  · exact hdistinct.sublist ((handles_sublist _).trans (List.filter_sublist.map _))
  · obtain ⟨d, hd, hdc⟩ := List.mem_filterMap.mp hc
    have hp : d.providerId = p := by simpa using (List.mem_filter.mp hd).2
    refine hnone _ ?_
    rw [← hp, ← (handle_of_pollConfig? hdc).1]
    exact handleOf_handle c

section
variable {c : Cache} {k : String}

theorem outstanding_eraseStates (p : String) :
    outstanding (c.eraseStates p) (some (c.carried p)) k = outstanding c none k := by
  simp only [outstanding, Cache.eraseStates, Cache.carried, Option.bind_some, Option.bind_none]
  cases handleOf p k <;> cases c.deviceStates k <;> simp

/-- A device without a state gets the flag that is carried or on record for it. -/
theorem outstanding_addState {carried : Carried} {handle : String}
    (hnone : c.deviceStates handle = none) :
    outstanding (c.addState carried handle) (some carried) k = outstanding c (some carried) k := by
  by_cases hk : k = handle
  · subst hk
    simp only [outstanding, Cache.addState, Function.update_self, hnone, Option.bind_some]
    cases carried k <;> cases c.departed k <;> rfl
  · simp [outstanding, Cache.addState, hk]

/-- What was carried for a device without a state goes on record, where it is a loss. -/
theorem outstanding_dropRemoved {carried : Carried}
    (hdeparted : ∀ h, (c.departed h).isSome → carried h = none) :
    outstanding (c.dropRemoved carried) none k = outstanding c (some carried) k := by
  simp only [outstanding, Cache.dropRemoved, Option.bind_none, Option.bind_some]
  cases hst : c.deviceStates k with
  | some st => rfl
  | none =>
    cases hc : carried k with
    | none => simp
    | some prior =>
      -- a device that is carried was not on record
      have hnot : c.departed k = none := by
        by_contra hne
        rw [hdeparted k (Option.isSome_iff_ne_none.mpr hne)] at hc
        cases hc
      cases hloss : prior.lossReported <;> simp [hnot, hloss]

end

section
variable {carried : Option Carried} {carried' : Option Carried}

/-- What the sections of a rebuild read is in the cache and in the registry. -/
theorem next_rebuild {c : CacheChoice} {sec : Section} {rest : List Section} (hsec : ofRebuild sec)
    (h : (cacheMachine status staleAfterMs).next w t (sec :: rest) c = some (e, sections)) :
    (sec.run status staleAfterMs w .go).map (fun r => (r.1, r.2 ++ rest)) = some (e, sections) := by
  cases sec <;> try cases hsec
  all_goals cases c <;> first | exact h | cases h

/-- A device that waits for its state gets it, and the others still wait. -/
theorem fresh_addState {c : Cache} {carried : Carried} {config : PollConfig}
    {configs : List PollConfig} (h : Fresh c.deviceStates (config :: configs)) :
    Fresh (c.addState carried config.handle).deviceStates configs := by
  obtain ⟨hnot, hnodup⟩ := List.nodup_cons.mp h.1
  refine ⟨hnodup, fun k hk => ?_⟩
  have hne : k.handle ≠ config.handle := fun heq => hnot (heq ▸ List.mem_map_of_mem hk)
  simpa [Cache.addState, hne] using h.2 k (List.mem_cons_of_mem _ hk)

/-- What a step does to the cache, and to what the rebuild under way carries. -/
inductive Moved (c : Cache) : Option Carried → CacheEffect → Option Carried → Prop
  | poll {carried : Option Carried} {e : CacheEffect} (he : isPoll e) : Moved c carried e carried
  | configs (p : String) : Moved c none (.eraseConfigs p) none
  | erased (p : String) : Moved c none (.eraseStates p) (some (c.carried p))
  | pushed (carried : Carried) (config : PollConfig) :
      Moved c (some carried) (.pushConfig config) (some carried)
  | added (carried : Carried) (handle : String) (hnone : c.deviceStates handle = none) :
      Moved c (some carried) (.addState carried handle) (some carried)
  | dropped (carried : Carried) : Moved c (some carried) (.dropRemoved carried) none

theorem Place.step {c : CacheChoice} {before : List Section}
    (hplace : Place w.cache.deviceStates before carried)
    (hdistinct : (w.registry.devices.map RegisteredDevice.getHandle).Nodup)
    (hinit : ∀ devices, e ≠ .commitInitial devices)
    (hnext : (cacheMachine status staleAfterMs).next w t before c = some (e, sections)) :
    ∃ carried', Place (w.apply e).cache.deviceStates sections carried' ∧
      Moved w.cache carried e carried' := by
  cases hplace with
  | outside hout =>
    obtain ⟨he, hafter⟩ := next_outside hnext hout hinit
    refine ⟨none, ?_, .poll he⟩
    rcases hafter with hout' | ⟨p, rfl⟩
    · exact .outside hout'
    · exact .configs p
  | configs p =>
    cases next_rebuild rfl hnext
    exact ⟨none, .states p, .configs p⟩
  | states p =>
    cases next_rebuild rfl hnext
    refine ⟨_, .devices p _ fun k hk => ?_, .erased p⟩
    simp [CacheWorld.apply, Cache.eraseStates, hk]
  | devices p carried h =>
    cases next_rebuild rfl hnext
    rw [List.append_nil]
    exact ⟨_, .push carried _ (fresh_devices h hdistinct), .poll rfl⟩
  | push carried configs h =>
    cases configs with
    | nil =>
      cases next_rebuild rfl hnext
      exact ⟨none, .outside rfl, .dropped carried⟩
    | cons config configs =>
      cases next_rebuild rfl hnext
      exact ⟨_, .add carried config configs h, .pushed carried config⟩
  | add carried config configs h =>
    cases next_rebuild rfl hnext
    exact ⟨_, .push carried configs (fresh_addState h),
      .added carried config.handle (h.2 config List.mem_cons_self)⟩

/-- A device on record has no state, and no rebuild carries it. -/
def OnRecord (c : Cache) (carried : Option Carried) : Prop :=
  ∀ h, (c.departed h).isSome → c.deviceStates h = none ∧ (carried.bind fun r => r h) = none

/-- Every step keeps it: what goes on record has no state, and what gets one leaves the record. -/
theorem OnRecord.moved (h : OnRecord w.cache carried)
    (hmoved : Moved w.cache carried e carried') : OnRecord (w.apply e).cache carried' := by
  intro k hk
  cases hmoved with
  | poll he =>
    rw [(departed_poll he).1] at hk
    exact ⟨(deviceStates_poll he).mpr (h k hk).1, (h k hk).2⟩
  | configs p | pushed carried config => exact h k hk
  | erased p =>
    have hnone := (h k hk).1
    simp [CacheWorld.apply, Cache.eraseStates, Cache.carried, hnone]
  | added carried handle hnone =>
    have hne : k ≠ handle := by
      rintro rfl
      simp [CacheWorld.apply, Cache.addState] at hk
    have hk' : (w.cache.departed k).isSome := by
      simpa [CacheWorld.apply, Cache.addState, hne] using hk
    simpa [CacheWorld.apply, Cache.addState, hne] using h k hk'
  | dropped carried =>
    refine ⟨?_, rfl⟩
    by_contra hstate
    have hstate : w.cache.deviceStates k ≠ none := hstate
    have hnot : (w.cache.deviceStates k).isNone = false := by
      simpa [Option.isSome_iff_ne_none] using hstate
    refine hstate (h k ?_).1
    simp only [CacheWorld.apply, Cache.dropRemoved, hnot, Bool.false_and] at hk
    split at hk <;> simpa using hk

theorem Balanced.moved (h : Balanced g.shared.cache carried tr)
    (hmoved : Moved g.shared.cache carried e carried') :
    Balanced (g.shared.apply e).cache carried' (tr ++ [(g, t, e)]) := by
  have hrecord := OnRecord.moved h.departed hmoved
  cases hmoved with
  | poll he => exact h.poll he
  | configs p | pushed carried config => exact h.move rfl (fun _ => rfl) hrecord rfl
  | erased p => exact h.move rfl (fun _ => outstanding_eraseStates p) hrecord rfl
  | added carried handle hnone => exact h.move rfl (fun _ => outstanding_addState hnone) hrecord rfl
  | dropped carried =>
    exact h.move rfl (fun _ => outstanding_dropRemoved fun k hk => (h.departed k hk).2) hrecord rfl

end

/-! ### Runs -/

/-- At most one thread rebuilds. -/
def Exclusive (g : CacheState) : Prop :=
  ∀ t u, rebuilding (g.thread t) → rebuilding (g.thread u) → t = u

/-- The condition on a step: `initialize` is over, the inventory has distinct handles, and no two
rebuilds overlap. -/
structure Condition (g : CacheState) (l : ThreadId × CacheEffect) : Prop where
  noInit : ∀ devices, l.2 ≠ .commitInitial devices
  distinct : (g.shared.registry.devices.map RegisteredDevice.getHandle).Nodup
  exclusive : Exclusive g

/-- The cache after one `initialize` on an inventory, with the sink set, and no thread inside an
operation. -/
def Initialized (g : CacheState) : Prop :=
  (∃ devices, g.shared.cache = Cache.commitInitial {} devices) ∧ ∀ t, g.thread t = []

/-- The invariant of a run. -/
def Tracked (tr : CacheTrace) (g : CacheState) : Prop :=
  ∃ t carried, Rebuild g t carried ∧ Balanced g.shared.cache carried tr

theorem Place.carried_eq_none {carried : Option Carried} (h : Place states sections carried)
    (hout : rebuilding sections = false) : carried = none := by
  cases h with
  | outside _ => rfl
  | configs p => rfl
  | states p => rfl
  | devices p carried h => cases hout
  | push carried configs h => simp [rebuilding, addSections, ofRebuild] at hout
  | add carried c configs h => cases hout

theorem Initialized.tracked (h : Initialized g₀) : Tracked [] g₀ := by
  obtain ⟨⟨devices, hcache⟩, hidle⟩ := h
  refine ⟨0, none, ⟨.outside (by rw [hidle]; rfl), fun u _ => by rw [hidle]; rfl⟩, ?_⟩
  rw [hcache]
  refine ⟨fun k => ?_, fun k hk => (by cases hk), by simp [edges], rfl⟩
  simp only [outstanding, Cache.commitInitial, edgesOf, edges]
  split <;> rename_i hst
  · split at hst <;> cases hst
    rfl
  · rfl

/-- A step of any thread, where no two rebuilds overlap after it. -/
theorem Rebuild.step {carried : Option Carried} (h : Rebuild g u carried)
    (hcond : Condition g (t, e)) (hstep : (cacheMachine status staleAfterMs).lts.step g (t, e) g')
    (hexcl : Exclusive g') :
    ∃ u' carried', Rebuild g' u' carried' ∧ Moved g.shared.cache carried e carried' := by
  obtain ⟨hplace, hothers⟩ := h
  obtain ⟨c, sections, hnext, hsh, hth, hother⟩ := Machine.step_inv hstep
  have hsh : g'.shared = g.shared.apply e := hsh
  by_cases htu : t = u
  · subst htu
    obtain ⟨carried', hplace', hmoved⟩ := hplace.step hcond.distinct hcond.noInit hnext
    refine ⟨t, carried', ⟨by rw [hsh, hth]; exact hplace', fun v hv => ?_⟩, hmoved⟩
    rw [hother v hv]
    exact hothers v hv
  · obtain ⟨he, hafter⟩ := next_outside hnext (hothers t htu) hcond.noInit
    have hu : g'.thread u = g.thread u := hother u (Ne.symm htu)
    rcases hafter with hout | ⟨p, rfl⟩
    · refine ⟨u, carried, ⟨?_, fun v hv => ?_⟩, .poll he⟩
      · rw [hsh, hu]
        exact hplace.congr fun k => (deviceStates_poll he).mpr
      · rcases eq_or_ne v t with rfl | hvt
        · rw [hth]
          exact hout
        · rw [hother v hvt]
          exact hothers v hv
    · -- the thread `t` begins a rebuild, so the thread `u` has none under way
      have hstarted : rebuilding (g'.thread t) := by
        rw [hth]
        rfl
      have hout : rebuilding (g.thread u) = false := by
        rw [← hu]
        exact Bool.eq_false_of_not_eq_true fun hru => htu (hexcl t u hstarted hru)
      obtain rfl := hplace.carried_eq_none hout
      refine ⟨t, none, ⟨by rw [hth]; exact .configs p, fun v hv => ?_⟩, .poll he⟩
      rw [hother v hv]
      by_cases hvu : v = u
      · rw [hvu]
        exact hout
      · exact hothers v hvu

theorem Tracked.step (h : Tracked tr g) (hcond : Condition g (t, e))
    (hstep : (cacheMachine status staleAfterMs).lts.step g (t, e) g') (hexcl : Exclusive g') :
    Tracked (tr ++ [(g, t, e)]) g' := by
  obtain ⟨u, carried, hrebuild, hbal⟩ := h
  obtain ⟨c, sections, -, hsh, -⟩ := Machine.step_inv hstep
  obtain ⟨u', carried', hrebuild', hmoved⟩ := hrebuild.step hcond hstep hexcl
  refine ⟨u', carried', hrebuild', ?_⟩
  rw [show g'.shared = g.shared.apply e from hsh]
  exact hbal.moved hmoved

/-- In every state of a run in which no two rebuilds overlap, the flags are the parities of the
edges. -/
theorem tracked_run (h0 : Initialized g₀)
    (hrun : Run (cacheMachine status staleAfterMs).lts g₀ tr g)
    (hcond : ∀ i ∈ tr, Condition i.1 i.2) (hexcl : Exclusive g) : Tracked tr g := by
  refine Run.induct_of (C := Condition) (J := fun tr g => Exclusive g → Tracked tr g)
    (fun _ => h0.tracked) ?_ hrun hcond hexcl
  intro tr g l g' _ _ ih hc hstep hexcl
  exact (ih hc.exclusive).step hc hstep hexcl

/-- The edge of a step goes on with the device's alternation, and with the numbers. -/
theorem Tracked.edge {edge : ReachabilityEdge} (h : Tracked tr g)
    (hedge : g.shared.edge? e = some edge) :
    edge.reachable = decide ((edgesOf edge.deviceHandle tr).length % 2 = 1) ∧
      ∀ old ∈ edges tr, old.seq < edge.seq := by
  obtain ⟨-, carried, -, hbal⟩ := h
  obtain ⟨⟨hseq, -⟩, st, hst, hreach⟩ := of_edge? hedge
  constructor
  · rw [hreach, ← hbal.parity]
    simp [outstanding, hst]
  · intro old hold
    have hle := hbal.seq old hold
    omega

variable {handle : String}

/-- A read of a device with a state hands out the device's return, where a loss is outstanding. -/
theorem Tracked.read {readings : List SignalReading} (h : Tracked tr g)
    (hst : (g.shared.cache.deviceStates handle).isSome)
    (hodd : (edgesOf handle tr).length % 2 = 1) :
    (edgeOf? handle g.shared (.readApplied handle readings)).isSome := by
  obtain ⟨-, carried, -, hbal⟩ := h
  obtain ⟨st, hst⟩ := Option.isSome_iff_exists.mp hst
  have hloss : st.lossReported := by simpa [outstanding, hst, hodd] using hbal.parity handle
  simp [edgeOf?, CacheWorld.edge?, hbal.sink, Cache.returnEdge?, hst, hloss, Option.filter_some]

/-- The numbers of the edges increase. -/
def Increasing (tr : CacheTrace) : Prop := (edges tr).Pairwise fun a b => a.seq < b.seq

/-- The edges of the device are a loss, a return, a loss, and so on. -/
def Alternating (handle : String) (tr : CacheTrace) : Prop :=
  ∀ k edge, (edgesOf handle tr)[k]? = some edge → edge.reachable = decide (k % 2 = 1)

/-- The last edge of the device is a loss. -/
def Lost (handle : String) (tr : CacheTrace) : Prop :=
  ∃ edge, (edgesOf handle tr).getLast? = some edge ∧ edge.reachable = false

/-- Does the step apply a successful read to the state of the device. -/
def readsDevice (handle : String) (i : CacheItem) : Bool :=
  match i.2.2 with
  | .readApplied h _ => h = handle && (i.1.shared.cache.deviceStates h).isSome
  | _ => false

theorem readsDevice_eq_true {i : CacheItem} (h : readsDevice handle i) :
    ∃ readings, i.2.2 = .readApplied handle readings ∧
      (i.1.shared.cache.deviceStates handle).isSome := by
  unfold readsDevice at h
  split at h
  · rename_i k readings he
    simp only [Bool.and_eq_true, decide_eq_true_eq] at h
    obtain ⟨rfl, hst⟩ := h
    exact ⟨readings, he, hst⟩
  · cases h

theorem readsDevice_of_return {i : CacheItem} {edge : ReachabilityEdge}
    (h : edge? i = some edge) (hreturn : edge.reachable) : readsDevice edge.deviceHandle i := by
  obtain ⟨g, t, e⟩ := i
  cases e <;> simp only [edge?, CacheWorld.edge?, reduceCtorEq] at h
  case readFailed status shuttingDown providerLost handle =>
    obtain ⟨rfl, -⟩ := Cache.of_lossEdge? h
    cases hreturn
  case readApplied handle readings =>
    split at h
    · obtain ⟨rfl, st, hst, -⟩ := Cache.of_returnEdge? h
      simp [readsDevice, hst]
    · cases h

theorem edgesOf_append (handle : String) (tr₁ tr₂ : CacheTrace) :
    edgesOf handle (tr₁ ++ tr₂) = edgesOf handle tr₁ ++ edgesOf handle tr₂ := by
  simp [edgesOf, edges]

theorem mem_edgesOf {edge : ReachabilityEdge} :
    edge ∈ edgesOf handle tr ↔ ∃ i ∈ tr, edge? i = some edge ∧ edge.deviceHandle = handle := by
  simp only [edgesOf, edges, List.mem_filter, List.mem_filterMap, decide_eq_true_eq]
  constructor
  · rintro ⟨⟨i, hi, hedge⟩, hh⟩
    exact ⟨i, hi, hedge, hh⟩
  · rintro ⟨i, hi, hedge, hh⟩
    exact ⟨⟨i, hi, hedge⟩, hh⟩

theorem Alternating.left {tr₁ tr₂ : CacheTrace}
    (h : Alternating handle (tr₁ ++ tr₂)) : Alternating handle tr₁ := by
  intro k edge hk
  refine h k edge ?_
  rw [edgesOf_append, List.getElem?_append_left (List.getElem?_eq_some_iff.mp hk).1]
  exact hk

theorem Alternating.odd_of_lost (h : Alternating handle tr)
    (hlost : Lost handle tr) : (edgesOf handle tr).length % 2 = 1 := by
  obtain ⟨edge, hlast, hloss⟩ := hlost
  rw [List.getLast?_eq_getElem?] at hlast
  have hlt := (List.getElem?_eq_some_iff.mp hlast).1
  have heven : ¬ ((edgesOf handle tr).length - 1) % 2 = 1 := by simpa [hloss] using h _ edge hlast
  omega

theorem increasing_alternating (h0 : Initialized g₀)
    (hrun : Run (cacheMachine status staleAfterMs).lts g₀ tr g)
    (hcond : ∀ i ∈ tr, Condition i.1 i.2) : Increasing tr ∧ ∀ handle, Alternating handle tr := by
  refine Run.induct_of (C := Condition)
    (J := fun tr _ => Increasing tr ∧ ∀ handle, Alternating handle tr) ?_ ?_ hrun hcond
  · exact ⟨List.Pairwise.nil, fun handle k edge h => by simp [edgesOf, edges] at h⟩
  · rintro tr g ⟨t, e⟩ g' hrun hbefore ⟨hinc, halt⟩ hc -
    have htracked := tracked_run h0 hrun hbefore hc.exclusive
    constructor
    · rw [Increasing, edges_snoc]
      refine List.pairwise_append.mpr ⟨hinc, ?_, fun old hold edge hedge => ?_⟩
      · cases g.shared.edge? e <;> simp
      · exact (htracked.edge (Option.mem_toList.mp hedge)).2 old hold
    · intro handle k edge hk
      rw [edgesOf_snoc] at hk
      rcases Nat.lt_or_ge k (edgesOf handle tr).length with hlt | hge
      · rw [List.getElem?_append_left hlt] at hk
        exact halt handle k edge hk
      · -- the new edge
        rw [List.getElem?_append_right hge] at hk
        have hmem : edge ∈ edgeOf? handle g.shared e :=
          Option.mem_toList.mp (List.mem_of_getElem? hk)
        obtain ⟨hedge, hh⟩ := Option.filter_eq_some_iff.mp hmem
        have hlen : k = (edgesOf handle tr).length := by
          have hlt := (List.getElem?_eq_some_iff.mp hk).1
          rw [Option.mem_def.mp hmem, Option.toList_some, List.length_singleton] at hlt
          omega
        obtain rfl : edge.deviceHandle = handle := of_decide_eq_true hh
        rw [hlen]
        exact (htracked.edge hedge).1

/-- After one `initialize` with the sink set, in every run of polls and rebuilds in which no two
rebuilds overlap and the inventories have distinct handles:

- the numbers of the edges increase, over the whole cache and all rebuilds;
- the edges of each device alternate, and the first is a loss;
- from a loss of a device on, whether it is dropped and registered again or not, the first
  successful read of the device hands out one return, and nothing hands out an edge of it before. -/
theorem edges_alternate (status : StopChainStatus) (staleAfterMs : Int) {g₀ g : CacheState}
    {tr : CacheTrace} (h0 : Initialized g₀)
    (hrun : Run (cacheMachine status staleAfterMs).lts g₀ tr g)
    (hcond : ∀ i ∈ tr, Condition i.1 i.2) : Increasing tr ∧ ∀ handle, Alternating handle tr ∧
      ∀ tr₁ tr₂ i tr₃, tr = tr₁ ++ tr₂ ++ i :: tr₃ → Lost handle tr₁ →
        (∀ j ∈ tr₂, readsDevice handle j = false) → readsDevice handle i →
        ∃ edge, edgesOf handle (tr₂ ++ [i]) = [edge] ∧ edge.reachable = true := by
  obtain ⟨hinc, halt⟩ := increasing_alternating h0 hrun hcond
  refine ⟨hinc, fun handle => ⟨halt handle, ?_⟩⟩
  rintro tr₁ tr₂ i tr₃ rfl ⟨loss, hlast, hloss⟩ hnoread hread
  -- the loss is the last of an odd number of edges
  have halt₁ : Alternating handle tr₁ := (halt handle).left.left
  have hodd : (edgesOf handle tr₁).length % 2 = 1 := halt₁.odd_of_lost ⟨loss, hlast, hloss⟩
  -- the next edge is a return, so a read hands it out
  have hnone : edgesOf handle tr₂ = [] := by
    by_contra hne
    obtain ⟨edge, rest, hedges⟩ := List.exists_cons_of_ne_nil hne
    have hreturn : edge.reachable := by
      have hk := (halt handle).left (edgesOf handle tr₁).length edge
      simpa [edgesOf_append, hedges, hodd] using hk
    obtain ⟨j, hj, hedge, hh⟩ := mem_edgesOf.mp (hedges ▸ List.mem_cons_self : edge ∈ _)
    have hreads := readsDevice_of_return hedge hreturn
    rw [hh, hnoread j hj] at hreads
    cases hreads
  obtain ⟨hrun₁, -⟩ := hrun.at_step
  obtain ⟨hcond₁, -⟩ := List.forall_mem_append.mp hcond
  have htracked := tracked_run h0 hrun₁ hcond₁ (hcond i (by simp)).exclusive
  obtain ⟨s, t, e⟩ := i
  obtain ⟨readings, rfl, hst⟩ := readsDevice_eq_true hread
  have hodd' : (edgesOf handle (tr₁ ++ tr₂)).length % 2 = 1 := by
    rw [edgesOf_append, hnone, List.append_nil]
    exact hodd
  obtain ⟨edge, hedge⟩ := Option.isSome_iff_exists.mp (htracked.read hst hodd')
  refine ⟨edge, by rw [edgesOf_snoc, hnone, hedge]; rfl, ?_⟩
  obtain ⟨hout, hh⟩ := Option.filter_eq_some_iff.mp hedge
  obtain rfl : edge.deviceHandle = handle := of_decide_eq_true hh
  rw [(htracked.edge hout).1]
  exact decide_eq_true hodd'

/-! ### A device that is dropped while lost -/

/-- The inventory of `sim0`: one device, whose signal `level` is polled. -/
def tank : RegisteredDevice where
  providerId := "sim0"
  deviceId := "tank"
  functionsById := { entries := [], distinct := List.nodup_nil }
  signalsById := [⟨"level", true⟩]

/-- The cache after `initialize`. -/
def tankReady : CacheState where
  shared := { cache := Cache.commitInitial {} [tank], registry := ⟨[tank]⟩ }
  thread _ := []

theorem tankReady_initialized : Initialized tankReady := ⟨⟨[tank], rfl⟩, fun _ => rfl⟩

/-- The device fails in-band. -/
def tankFails : List (ThreadId × CacheChoice) :=
  [(0, .start .pollOnce), (0, .order ["sim0"]), (0, .provider .available),
    (0, .read (.failed .unavailable false false)), (0, .go)]

/-- A restart publishes an inventory and rebuilds the poll plan. -/
def republish (devices : List RegisteredDevice) (steps : Nat) : List (ThreadId × CacheChoice) :=
  [(0, .publish ⟨devices⟩), (0, .start (.rebuildPollConfigs "sim0"))] ++
    List.replicate steps (0, .go)

/-- A successful poll. -/
def tankAnswers : List (ThreadId × CacheChoice) :=
  [(0, .start .pollOnce), (0, .order ["sim0"]), (0, .provider .available),
    (0, .read (.values [{ signalId := "level", value := ⟨.bool, .bool true⟩, quality := .ok }])),
    (0, .go)]

/-- Does the step commit an `initialize`. -/
def isInit : CacheEffect → Bool
  | .commitInitial _ => true
  | _ => false

/-- Is the step one of the thread 0 behind `initialize`, with distinct handles in the inventory. -/
def inOneThread (i : CacheItem) : Bool :=
  !isInit i.2.2 && i.2.1 = 0 &&
    decide (i.1.shared.registry.devices.map RegisteredDevice.getHandle).Nodup

theorem conditions_of_one_thread (hrun : Run (cacheMachine status staleAfterMs).lts g₀ tr g)
    (hidle : ∀ t, g₀.thread t = []) (hall : ∀ i ∈ tr, inOneThread i) :
    (∀ i ∈ tr, Condition i.1 i.2) ∧ Exclusive g := by
  simp only [inOneThread, Bool.and_eq_true, decide_eq_true_eq, Bool.not_eq_true'] at hall
  have hothers : ∀ v, v ≠ 0 → g.thread v = [] ∧ ∀ i ∈ tr, i.1.thread v = [] := by
    intro v hv
    have huntouched := Machine.untouched hrun (t := v) fun j hj h0 =>
      hv (h0.symm.trans (hall j hj).1.2)
    simpa [hidle] using huntouched
  have hzero : ∀ sections : ThreadId → List Section, (∀ v, v ≠ 0 → sections v = []) →
      ∀ v, rebuilding (sections v) → v = 0 := by
    intro sections hnil v hv
    by_contra hne
    rw [hnil v hne] at hv
    cases hv
  constructor
  · intro i hi
    obtain ⟨⟨hinit, -⟩, hdistinct⟩ := hall i hi
    refine ⟨fun devices he => ?_, hdistinct, fun t u ht hu => ?_⟩
    · rw [he] at hinit
      cases hinit
    · have hv := hzero _ fun v hv => (hothers v hv).2 i hi
      rw [hv t ht, hv u hu]
  · intro t u ht hu
    have hv := hzero _ fun v hv => (hothers v hv).1
    rw [hv t ht, hv u hu]

/-- The tank is lost, dropped by one restart and registered again by the next one. Its first
successful read hands out its return, and it is the only edge since the loss. -/
theorem edges_alternate_dropped :
    ∃ tr₁ tr₂ g, Run (cacheMachine someStatus 1000).lts tankReady (tr₁ ++ tr₂) g ∧
      Lost "sim0/tank" tr₁ ∧ (∃ i ∈ tr₂, i.1.shared.cache.deviceStates "sim0/tank" = none) ∧
      ∃ edge, edgesOf "sim0/tank" tr₂ = [edge] ∧ edge.reachable = true := by
  obtain ⟨tr₁, s, tr₂, g, hrun₁, hrun₂, hp⟩ := Machine.runs_of_passesThen
    (cacheMachine someStatus 1000) tankReady tankFails
    (republish [] 4 ++ republish [tank] 6 ++ tankAnswers)
    (fun tr₁ _ tr₂ _ => (∃ e ∈ (edgesOf "sim0/tank" tr₁).getLast?, e.reachable = false) ∧
      (∃ i ∈ tr₂, (i.1.shared.cache.deviceStates "sim0/tank").isNone) ∧
      (∀ i ∈ tr₂.dropLast, readsDevice "sim0/tank" i = false) ∧
      (∃ i ∈ tr₂.getLast?, readsDevice "sim0/tank" i) ∧ ∀ i ∈ tr₁ ++ tr₂, inOneThread i)
    (by decide)
  simp only [Option.isNone_iff_eq_none] at hp
  obtain ⟨hlost, hgone, hnoread, ⟨i, hlast, hread⟩, hall⟩ := hp
  have hrun := hrun₁.append hrun₂
  have hcond := (conditions_of_one_thread hrun (fun _ => rfl) hall).1
  have htr₂ : tr₂ = tr₂.dropLast ++ [i] := (List.dropLast_append_getLast? i hlast).symm
  refine ⟨tr₁, tr₂, g, hrun, hlost, hgone, ?_⟩
  rw [htr₂]
  exact ((edges_alternate someStatus 1000 tankReady_initialized hrun hcond).2 "sim0/tank").2
    tr₁ tr₂.dropLast i [] (by rw [List.append_assoc, ← htr₂]) hlost hnoread hread

end Anolis.Proofs.ReachabilityEdges
