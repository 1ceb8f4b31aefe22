import Anolis.Proofs.ProviderTable

/-!
# What a thread has of the providers

What holds of a thread of the runtime with its provider registry (`WorkerSound`): the handle of its
call is the registered one while it is healthy, and its device is then of that process; a restart
has the registered handle stopped from its `stop` to its swap. What the other threads do leaves this
(`WorkerSound.later`). A call keeps its part from its lookups to its frame (`CallSound.step`,
`CallSound.frame`).
-/

namespace Anolis.Proofs.CallRouting

open Control Lib Registry Anolis.Runtime

variable {cfg : SystemConfig} {P : Providers} {t : ThreadId}

/-! ### What holds of a thread -/

/-- The places of a call that has its handle. -/
def hasHandle : CallPc → Bool
  | .idleGate | .autoGate | .provider => false
  | _ => true

/-- The places of a call that has its device. -/
def hasDevice : CallPc → Bool
  | .idleGate | .autoGate | .provider | .available _ _ | .device _ _ => false
  | _ => true

/-- The handle and the device of a call: while the handle is healthy, the device is of its
process. -/
structure Paired (P : Providers) (handle source : Option Nat) (h s : Nat) : Prop where
  handle_eq : handle = some h
  source_eq : source = some s
  same : P.healthy h → s = h

/-- What holds of a call. -/
structure CallSound (cfg : SystemConfig) (P : Providers) (handle source : Option Nat)
    (request : CallRequest) (pc : CallPc) : Prop where
  tracks : pc.Tracks cfg.showDouble (inventoryOf P source) request
  found : hasHandle pc → ∃ h, handle = some h ∧
    ∀ p d, parseDeviceHandle request.deviceHandle = .ok (p, d) → P.owner h = p
  device : hasDevice pc → ∃ h s, Paired P handle source h s

/-- What holds of a frame on its way. -/
def FrameSound (cfg : SystemConfig) (P : Providers) (handle source : Option Nat)
    (frame : CallFrame) : Prop :=
  ∃ h s, Paired P handle source h s ∧ P.owner h = frame.target.providerId ∧
    validateCall cfg.showDouble ⟨P.inventory s⟩ frame.request =
      .ok (frame.target.resolved frame.args)

def SendSound (cfg : SystemConfig) (P : Providers) (handle source : Option Nat) :
    SendPhase → Prop
  | .idle | .unlock => True
  | .lock frame | .health frame => FrameSound cfg P handle source frame
  | .write frame => FrameSound cfg P handle source frame ∧ source = handle

/-- What holds of a restart. From its `stop` to its swap the registered handle is stopped. -/
def RestartSound (P : Providers) (replacement : Option Nat) (p : String) : RestartPc → Prop
  | .start | .inspect => Dead P p
  | .validate devices | .commit devices =>
    Dead P p ∧ (∀ d ∈ devices, d.providerId = p) ∧ ∃ n, replacement = some n ∧ n < P.fresh ∧
      P.owner n = p ∧ P.inventory n = devices
  | .rebuild | .swap =>
    Dead P p ∧ ∃ n, replacement = some n ∧ n < P.fresh ∧ P.owner n = p ∧ P.published p = some n
  | _ => True

/-- What holds of the `stop` of a restart. -/
def StopSound (P : Providers) (th : Thread) : StopPhase → Prop
  | .idle => True
  | .mark h => ∃ p, th.op = .restart p .stop ∧ P.registered p = some h
  | .stopped h => ∃ p, th.op = .restart p .stop ∧ P.registered p = some h ∧ P.healthy h = false

/-- What holds of the thread `t`. -/
structure WorkerSound (cfg : SystemConfig) (P : Providers) (t : ThreadId) (wk : Worker) :
    Prop where
  handle : ∀ h, wk.loc.handle = some h → Held P h
  source : ∀ s, wk.loc.source = some s → s < P.fresh
  call : ∀ request pc, wk.th.call = some ⟨request, pc⟩ →
    CallSound cfg P wk.loc.handle wk.loc.source request pc
  send : SendSound cfg P wk.loc.handle wk.loc.source wk.loc.send
  sending : wk.loc.send.isIdle = false →
    ∃ request target, wk.th.call = some ⟨request, .reply target⟩
  stop : StopSound P wk.th wk.loc.stop
  restart : ∀ p pc, wk.th.op = .restart p pc → P.restarting = some t ∧
    (P.registered p).isSome ∧ RestartSound P wk.loc.replacement p pc

section
variable {P' : Providers} {handle source : Option Nat} {wk : Worker} {phase : StopPhase}

section

variable (h : Later P P')
include h

theorem inventoryOf_later
    (hs : ∀ s, source = some s → s < P.fresh) : inventoryOf P' source = inventoryOf P source := by
  cases source with
  | none => rfl
  | some s => exact congrArg DeviceRegistry.mk (h.inventory s (hs s rfl))

theorem Paired.later (hh : ∀ h, handle = some h → Held P h) {n s : Nat}
    (hp : Paired P handle source n s) : Paired P' handle source n s :=
  ⟨hp.handle_eq, hp.source_eq, fun hup => hp.same (h.healthy n (hh n hp.handle_eq).1 hup)⟩

theorem CallSound.later (hh : ∀ h, handle = some h → Held P h)
    (hs : ∀ s, source = some s → s < P.fresh) {request : CallRequest} {pc : CallPc}
    (hc : CallSound cfg P handle source request pc) :
    CallSound cfg P' handle source request pc := by
  constructor
  · rw [inventoryOf_later h hs]
    exact hc.tracks
  · intro hpc
    obtain ⟨n, hn, howner⟩ := hc.found hpc
    exact ⟨n, hn, fun p d hparse => (h.owner n (hh n hn).1).trans (howner p d hparse)⟩
  · intro hpc
    obtain ⟨n, s, hpaired⟩ := hc.device hpc
    exact ⟨n, s, hpaired.later h hh⟩

theorem FrameSound.later (hh : ∀ h, handle = some h → Held P h)
    (hs : ∀ s, source = some s → s < P.fresh) {frame : CallFrame}
    (hf : FrameSound cfg P handle source frame) : FrameSound cfg P' handle source frame := by
  obtain ⟨n, s, hpaired, howner, hvalid⟩ := hf
  refine ⟨n, s, hpaired.later h hh, ?_, ?_⟩
  · exact (h.owner n (hh n hpaired.handle_eq).1).trans howner
  · rw [h.inventory s (hs s hpaired.source_eq)]
    exact hvalid

theorem SendSound.later (hh : ∀ h, handle = some h → Held P h)
    (hs : ∀ s, source = some s → s < P.fresh) {phase : SendPhase}
    (hp : SendSound cfg P handle source phase) : SendSound cfg P' handle source phase := by
  cases phase with
  | idle | unlock => trivial
  | lock frame | health frame => exact FrameSound.later h hh hs hp
  | write frame => exact ⟨FrameSound.later h hh hs hp.1, hp.2⟩

theorem RestartSound.later (hreg : P'.registered = P.registered)
    (hpub : P'.published = P.published) (hlt : ∀ p h, P.registered p = some h → h < P.fresh)
    {replacement : Option Nat} {p : String} {pc : RestartPc}
    (hr : RestartSound P replacement p pc) : RestartSound P' replacement p pc := by
  cases pc with
  | start | inspect => exact Dead.later h hreg hlt hr
  | validate devices | commit devices =>
    obtain ⟨hdead, hids, n, hn, hfresh, howner, hinv⟩ := hr
    exact ⟨hdead.later h hreg hlt, hids, n, hn, Nat.lt_of_lt_of_le hfresh h.fresh,
      (h.owner n hfresh).trans howner, (h.inventory n hfresh).trans hinv⟩
  | rebuild | swap =>
    obtain ⟨hdead, n, hn, hfresh, howner, hp⟩ := hr
    exact ⟨hdead.later h hreg hlt, n, hn, Nat.lt_of_lt_of_le hfresh h.fresh,
      (h.owner n hfresh).trans howner, by rw [hpub]; exact hp⟩
  | _ => trivial

/-- The `stop` of a restart goes on while its operation stays and the registered handle does. -/
theorem StopSound.later (hlt : ∀ p h, P.registered p = some h → h < P.fresh)
    {th : Thread} (hreg : ∀ p, th.op = .restart p .stop → P'.registered = P.registered)
    (hs : StopSound P th phase) : StopSound P' th phase := by
  cases phase with
  | idle => trivial
  | mark n =>
    obtain ⟨p, hop, hn⟩ := hs
    rw [← hreg p hop] at hn
    exact ⟨p, hop, hn⟩
  | stopped n =>
    obtain ⟨p, hop, hn, hdown⟩ := hs
    have hdown' := h.unhealthy (hlt p n hn) hdown
    rw [← hreg p hop] at hn
    exact ⟨p, hop, hn, hdown'⟩

end

theorem StopSound.of_op {th th' : Thread}
    (hop : ∀ p, th.op = .restart p .stop → th'.op = .restart p .stop)
    (hs : StopSound P th phase) : StopSound P th' phase := by
  cases phase with
  | idle => trivial
  | mark h | stopped h => exact hs.imp fun p hp => ⟨hop p hp.1, hp.2⟩

/-- What others do leaves what holds of a thread. Only the thread of the running restart minds the
registries, and no other thread touches them meanwhile. -/
theorem WorkerSound.later (h : Later P P') (hheld : ∀ n, Held P n → Held P' n)
    (hlt : ∀ p h, P.registered p = some h → h < P.fresh)
    (hrest : P.restarting = some t → P'.restarting = some t ∧ P'.registered = P.registered ∧
      P'.published = P.published) (hw : WorkerSound cfg P t wk) : WorkerSound cfg P' t wk := by
  constructor
  · exact fun n hn => hheld n (hw.handle n hn)
  · exact fun s hs => Nat.lt_of_lt_of_le (hw.source s hs) h.fresh
  · exact fun request pc hcall => (hw.call request pc hcall).later h hw.handle hw.source
  · exact hw.send.later h hw.handle hw.source
  · exact hw.sending
  · exact hw.stop.later h hlt fun p hop => (hrest (hw.restart p _ hop).1).2.1
  · intro p pc hop
    obtain ⟨hown, hsome, hr⟩ := hw.restart p pc hop
    obtain ⟨hown', hreg, hpub⟩ := hrest hown
    exact ⟨hown', by rw [hreg]; exact hsome, hr.later h hreg hpub hlt⟩

end

/-! ### A step of a call -/

/-- What the step of a call does with the providers, by its place. -/
inductive CallBooks (sh : Shared) (P : Providers) (loc : Holdings) (request : CallRequest) :
    CallPc → Choice → Holdings → Prop
  | found {p d : String} (hparse : parseDeviceHandle request.deviceHandle = .ok (p, d)) :
      CallBooks sh P loc request .provider (.found (P.registered p).isSome)
        { loc with handle := P.registered p, source := none }
  | device (p d : String) (c : Choice) :
      CallBooks sh P loc request (.device p d) c { loc with
        source := (sh.registry.getDeviceCopy p d).bind fun device => P.published device.providerId }
  | dispatch (target : Target) (args : Protocol.ArgMap) (c : Choice) :
      CallBooks sh P loc request (.dispatch target args) c
        { loc with send := .lock ⟨target, request, args⟩ }
  | same {pc : CallPc} {c : Choice} (hdevice : ∀ p d, pc ≠ .device p d)
      (hdispatch : ∀ target args, pc ≠ .dispatch target args)
      (hprovider : pc = .provider → ∀ p d yes, c = .found yes →
        parseDeviceHandle request.deviceHandle ≠ .ok (p, d))
      (hreply : ∀ target, pc = .reply target → loc.send.isIdle) :
      CallBooks sh P loc request pc c loc

section
variable {sh : Shared} {loc loc' : Holdings} {request : CallRequest} {pc pc' : CallPc} {c : Choice}
  {e : CallEffect}

theorem callBooks_cases (h : callBooks sh P loc request pc c = some loc') :
    CallBooks sh P loc request pc c loc' := by
  revert h
  fun_cases callBooks sh P loc request pc c <;> intro h <;> cases h
  all_goals first
    | exact .found (by assumption)
    | exact .device ..
    | exact .dispatch ..
    | (refine .same ?_ ?_ ?_ ?_ <;> simp_all)

theorem callNext_provider_go (h : callNext cfg sh t request .provider c = some (e, .go pc')) :
    ∃ p d, parseDeviceHandle request.deviceHandle = .ok (p, d) ∧ c = .found true ∧
      pc' = .available p d := by
  simp only [callNext] at h
  split at h
  · cases h
  · rename_i p d hparse
    simp only [some_pair, CallNext.go.injEq] at h
    exact ⟨p, d, hparse, rfl, h.2.symm⟩
  · cases h
  · cases h

theorem callNext_device_go {p d : String}
    (h : callNext cfg sh t request (.device p d) c = some (e, .go pc')) :
    ∃ device, sh.registry.getDeviceCopy p d = some device := by
  simp only [callNext] at h
  split at h
  · cases h
  · rename_i device hdevice
    exact ⟨device, hdevice⟩

theorem callNext_has (h : callNext cfg sh t request pc c = some (e, .go pc')) :
    (hasHandle pc' → hasHandle pc ∨ pc = .provider) ∧
      (hasDevice pc' → hasDevice pc ∨ ∃ p d, pc = .device p d) := by
  revert h
  fun_cases callNext cfg sh t request pc c <;> intro h <;>
    simp only [refuse, some_pair, reduceCtorEq, and_false, CallNext.go.injEq] at h
  all_goals obtain ⟨-, rfl⟩ := h
  all_goals simp [hasHandle, hasDevice]

/-- The device that a call finds is of the process that the registry has the provider's inventory
from. -/
theorem source_of_device (htable : TableSound sh.registry P) {p d : String}
    {device : RegisteredDevice} (hp : '/' ∉ p.toList)
    (hdevice : sh.registry.getDeviceCopy p d = some device) :
    ∃ s, P.published p = some s ∧ device.providerId = p ∧
      sh.registry.getDeviceCopy p d = DeviceRegistry.getDeviceCopy ⟨P.inventory s⟩ p d := by
  have hids : ∀ d ∈ sh.registry.devices, '/' ∉ d.providerId.toList :=
    fun d hd => (htable.devices d hd).1
  obtain ⟨hmem, hid⟩ := providerId_of_getDeviceCopy hp hids hdevice
  obtain ⟨s, hs⟩ := Option.isSome_iff_exists.mp (htable.devices device hmem).2
  rw [hid] at hs
  refine ⟨s, hs, hid, ?_⟩
  rw [getDeviceCopy_filter hp hids, htable.inventory p s hs]

theorem CallSound.step (htable : TableSound sh.registry P)
    (hh : ∀ h, loc.handle = some h → Held P h)
    (hc : CallSound cfg P loc.handle loc.source request pc)
    (hbooks : CallBooks sh P loc request pc c loc')
    (hnext : callNext cfg sh t request pc c = some (e, .go pc')) :
    CallSound cfg P loc'.handle loc'.source request pc' := by
  obtain ⟨hhas, hdev⟩ := callNext_has hnext
  cases hbooks with
  | @found p d hparse =>
    obtain ⟨p', d', hparse', hfound, rfl⟩ := callNext_provider_go hnext
    rw [hparse'] at hparse
    cases hparse
    obtain ⟨h, hh'⟩ := Option.isSome_iff_exists.mp (Choice.found.inj hfound)
    refine ⟨hparse', fun _ => ⟨h, hh', fun q e hq => ?_⟩, fun hpc => by cases hpc⟩
    rw [hparse'] at hq
    cases hq
    exact (htable.registered _ h hh').1
  | device p d c =>
    obtain ⟨device, hdevice⟩ := callNext_device_go hnext
    have hparse : parseDeviceHandle request.deviceHandle = .ok (p, d) := hc.tracks
    have hp := parseDeviceHandle_provider hparse
    obtain ⟨s, hs, hid, hlookup⟩ := source_of_device htable hp hdevice
    have hsource : ((sh.registry.getDeviceCopy p d).bind
        fun device => P.published device.providerId) = some s := by
      rw [hdevice, Option.bind_some, hid, hs]
    obtain ⟨h, hhandle, howner⟩ := hc.found rfl
    refine ⟨?_, fun _ => ⟨h, hhandle, howner⟩, fun _ => ⟨h, s, hhandle, hsource, fun hup => ?_⟩⟩
    · refine callNext_tracks hnext hparse fun p' d' hpc => ?_
      cases hpc
      simp only [hsource]
      exact hlookup
    · -- a healthy handle is registered, so the inventory is that of its process
      have hreg := (hh h hhandle).2 hup
      rw [howner p d hparse] at hreg
      have hlive := htable.live p h hreg hup
      rw [hs] at hlive
      exact Option.some.inj hlive
  | dispatch target args c =>
    have htracks := callNext_tracks hnext hc.tracks (fun p d hpc => by cases hpc)
    obtain ⟨h, s, hhandle, hsource, hsame⟩ := hc.device rfl
    exact ⟨htracks, fun _ => hc.found rfl, fun _ => ⟨h, s, hhandle, hsource, hsame⟩⟩
  | same hdevice hdispatch hprovider hreply =>
    have htracks := callNext_tracks hnext hc.tracks fun p d hpc => absurd hpc (hdevice p d)
    refine ⟨htracks, fun hpc => ?_, fun hpc => ?_⟩
    · rcases hhas hpc with hpc | rfl
      · exact hc.found hpc
      · obtain ⟨p, d, hparse, hfound, -⟩ := callNext_provider_go hnext
        exact absurd hparse (hprovider rfl p d true hfound)
    · rcases hdev hpc with hpc | ⟨p, d, rfl⟩
      · exact hc.device hpc
      · exact absurd rfl (hdevice p d)

theorem CallSound.frame {target : Target} {args : Protocol.ArgMap}
    (hc : CallSound cfg P loc.handle loc.source request (.dispatch target args)) :
    FrameSound cfg P loc.handle loc.source ⟨target, request, args⟩ := by
  obtain ⟨h, s, hpaired⟩ := hc.device rfl
  have hvalid : validateCall cfg.showDouble (inventoryOf P loc.source) request =
      .ok (target.resolved args) := hc.tracks
  obtain ⟨h', hh', howner⟩ := hc.found rfl
  rw [hpaired.handle_eq] at hh'
  cases hh'
  refine ⟨h, s, hpaired, ?_, ?_⟩
  · exact howner _ _ (validateCall_eq_ok.mp hvalid).1
  · rw [hpaired.source_eq] at hvalid
    exact hvalid

end

end Anolis.Proofs.CallRouting
