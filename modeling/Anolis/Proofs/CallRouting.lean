import Anolis.Proofs.RoutingSteps

/-!
# A call reaches the process that its inventory is from

`execute_call` gets the handle and the device at different times, without a common lock, while a
restart may stop the old session, commit the new inventory and swap the handle. Where no provider id
has a slash, every frame that is written goes to the process whose inventory the call was resolved
and validated against (`frames_reach_their_process`): a handle is healthy only while the registry
holds the inventory of its process, from the swap that registers it to the `stop` that precedes the
next commit. A call that read another inventory has a handle that is unhealthy by then, and
`send_request` writes nothing on it.

The condition is needed (`slash_misroutes`). A provider id may have a slash: nothing but an empty or
a repeated id is refused. The handle of a device of `a/b` then parses as one of `a`, while its
lookup in the registry, by the whole handle, finds the device of `a/b`.
-/

namespace Anolis.Proofs.CallRouting

open Control Lib Registry Anolis.Runtime

variable {frame : CallFrame} {h : Nat} {source : Option Nat}
  {i : WorldState × ThreadId × WorldEffect}

/-! ### Runs -/

/-- A state to start in: nothing runs, and the device registry has for each provider the inventory
of its registered process. Whether that is still healthy is open. -/
structure WorldStart (g : WorldState) : Prop where
  idle : ∀ t, g.thread t = {}
  registered : ∀ p h, g.shared.providers.registered p = some h →
    g.shared.providers.owner h = p ∧ h < g.shared.providers.fresh
  published : g.shared.providers.published = g.shared.providers.registered
  inventory : ∀ p h, g.shared.providers.registered p = some h →
    g.shared.shared.registry.devices.filter (fun d => d.providerId = p) =
      g.shared.providers.inventory h
  devices : ∀ d ∈ g.shared.shared.registry.devices,
    (g.shared.providers.registered d.providerId).isSome

/-- No id of a registered provider has a slash. -/
def PlainIds (g : WorldState) : Prop :=
  ∀ p h, g.shared.providers.registered p = some h → '/' ∉ p.toList

section
variable {cfg : SystemConfig} {g₀ g : WorldState} {tr : WorldTrace} {loc loc' : Holdings}

theorem WorldStart.sound (h0 : WorldStart g₀) (hids : PlainIds g₀) :
    TableSound g₀.shared.shared.registry g₀.shared.providers ∧
      ∀ t, WorkerSound cfg g₀.shared.providers t (g₀.thread t) := by
  refine ⟨⟨fun p h hp => ?_, fun p h hp => ?_, fun p h hp _ => ?_, fun p h hp => ?_,
    fun d hd => ?_⟩, fun t => ?_⟩
  · exact ⟨(h0.registered p h hp).1, (h0.registered p h hp).2, hids p h hp⟩
  · rw [h0.published] at hp
    exact h0.registered p h hp
  · rw [h0.published]
    exact hp
  · rw [h0.published] at hp
    exact h0.inventory p h hp
  · obtain ⟨h, hh⟩ := Option.isSome_iff_exists.mp (h0.devices d hd)
    rw [h0.published, hh]
    exact ⟨hids _ h hh, rfl⟩
  · rw [h0.idle]
    exact ⟨by simp, by simp, by simp, trivial, by simp [SendPhase.isIdle], trivial, by simp⟩

/-- In every state of a run, what holds of the registries and of every thread. -/
theorem sound_run (h0 : WorldStart g₀) (hids : PlainIds g₀) (h : Run (world cfg).lts g₀ tr g) :
    TableSound g.shared.shared.registry g.shared.providers ∧
      ∀ t, WorkerSound cfg g.shared.providers t (g.thread t) := by
  refine Run.induct (J := fun _ g => TableSound g.shared.shared.registry g.shared.providers ∧
    ∀ t, WorkerSound cfg g.shared.providers t (g.thread t)) (h0.sound hids) ?_ h
  rintro tr g ⟨t, e⟩ g' - ⟨htable, hworkers⟩ hstep
  obtain ⟨hwk, hsh, hother⟩ := world_step hstep
  have hsound := stepSound htable (hworkers t) hwk
  rw [hsh]
  refine ⟨hsound.table, fun u => ?_⟩
  by_cases hu : u = t
  · subst hu
    exact hsound.worker
  · rw [hother u hu]
    exact (hworkers u).later hsound.later hsound.held
      (fun p n hn => (htable.registered p n hn).2.1) (hsound.others u hu)

theorem restartBooks_ne_wrote {P : Providers} {p : String} {pc : RestartPc}
    {c : Choice} : restartBooks P loc p pc c ≠ some (.wrote h source frame, loc') := by
  fun_cases restartBooks P loc p pc c <;> simp

theorem books_ne_wrote {sh : Shared} {P : Providers} {th : Thread}
    {c : Choice} : books sh P th loc c ≠ some (.wrote h source frame, loc') := by
  unfold books
  split
  · simp
  · simp
  · fun_cases opBooks P loc th.op c <;> simp [restartBooks_ne_wrote]

theorem send_of_wrote {w : World} {t : ThreadId} {wk wk' : Worker} {e : WorldEffect}
    (hstep : WorkerStep cfg w t wk e wk') (he : e.provider = .wrote h source frame) :
    wk.loc.send = .write frame ∧ wk.loc.handle = some h ∧ source = wk.loc.source := by
  cases hstep with
  | @run c pe loc' e' th' hbooks hnext =>
    rw [show pe = .wrote h source frame from he] at hbooks
    exact absurd hbooks books_ne_wrote
  | @session written pe loc' hstep =>
    rw [show pe = .wrote h source frame from he] at hstep
    revert hstep
    fun_cases sessionStep w.providers wk.th wk.loc written <;> intro hstep <;> cases hstep
    rename_i _ hhandle hphase
    exact ⟨hphase, hhandle, rfl⟩
  | lose h => cases he

/-- A frame that is written goes to the process that its call's device is from. -/
theorem wrote_sound (h0 : WorldStart g₀) (hids : PlainIds g₀) (hrun : Run (world cfg).lts g₀ tr g)
    (hi : i ∈ tr) (he : i.2.2.provider = .wrote h source frame) :
    source = some h ∧ i.1.shared.providers.owner h = frame.target.providerId ∧
      validateCall cfg.showDouble ⟨i.1.shared.providers.inventory h⟩ frame.request =
        .ok (frame.target.resolved frame.args) := by
  obtain ⟨tr₁, -, s₁, -, hrun₁, hstep, -⟩ := hrun.of_mem hi
  obtain ⟨-, hworkers⟩ := sound_run h0 hids hrun₁
  obtain ⟨hphase, hhandle, rfl⟩ := send_of_wrote (world_step hstep).1 he
  have hsend := (hworkers i.2.1).send
  rw [hphase] at hsend
  obtain ⟨⟨h', s', hpaired, howner, hvalid⟩, hsame⟩ := hsend
  rw [hhandle] at hsame
  have hh : h' = h := Option.some.inj (hpaired.handle_eq.symm.trans hhandle)
  have hs : s' = h := Option.some.inj (hpaired.source_eq.symm.trans hsame)
  subst hh hs
  exact ⟨hsame, howner, hvalid⟩

/-- In every run of calls, restarts and the runtime's other operations, on any number of threads:
where no provider id has a slash, every `Call` frame that is written goes to the process that the
call's device is from, and its call is what `validate_call` makes of the request over the inventory
discovered from that process. -/
theorem frames_reach_their_process (h0 : WorldStart g₀) (hids : PlainIds g₀)
    (hrun : Run (world cfg).lts g₀ tr g) :
    ∀ i ∈ tr, ∀ h source frame, i.2.2.provider = .wrote h source frame →
      source = some h ∧ i.1.shared.providers.owner h = frame.target.providerId ∧
        validateCall cfg.showDouble ⟨i.1.shared.providers.inventory h⟩ frame.request =
          .ok (frame.target.resolved frame.args) :=
  fun _ hi _ _ _ he => wrote_sound h0 hids hrun hi he

end

/-! ### Runs of two providers and of a restart -/

/-- The frame that a step writes: the handle, the process its device is from, and the call. -/
def frame? (i : WorldState × ThreadId × WorldEffect) : Option (Nat × Option Nat × CallFrame) :=
  match i.2.2.provider with
  | .wrote h source frame => some (h, source, frame)
  | _ => none

theorem wrote_of_frame?
    (hi : frame? i = some (h, source, frame)) : i.2.2.provider = .wrote h source frame := by
  unfold frame? at hi
  split at hi
  · rename_i heq
    cases hi
    exact heq
  · cases hi

/-- A runtime without automation. -/
def plainConfig : SystemConfig := { automation := { enabled := false } }

/-- A device that can be opened. -/
def valve (providerId deviceId : String) : RegisteredDevice where
  providerId := providerId
  deviceId := deviceId
  functionsById :=
    { entries := [("open", { functionId := 1, functionName := "open", category := .actuate })]
      distinct := List.pairwise_singleton _ _ }

/-- A call gets its handle, and comes to the lookup of its device. -/
def toDevice (t : ThreadId) (handle : String) : List (ThreadId × WorldChoice) :=
  [(t, .run (.start (.call handle 0 "open" SortedMap.empty))), (t, .run .go), (t, .run .go),
    (t, .run (.found true)), (t, .run (.available true))]

/-- From there it goes on to its dispatch, and into the session. -/
def toSession (t : ThreadId) : List (ThreadId × WorldChoice) :=
  List.replicate 10 (t, .run .go) ++ List.replicate 3 (t, .session true)

/-- The providers `a` and `a/b`. The valve `c` is one of `a/b`. -/
def slashWorld : WorldState where
  shared :=
    { shared := { mode := .manual, registry := ⟨[valve "a/b" "c"]⟩ }
      providers :=
        { registered := fun p => if p = "a" then some 0 else if p = "a/b" then some 1 else none
          owner := fun h => if h = 0 then "a" else "a/b"
          healthy := fun _ => true
          session := fun _ => none
          inventory := fun h => if h = 1 then [valve "a/b" "c"] else []
          published := fun p => if p = "a" then some 0 else if p = "a/b" then some 1 else none
          fresh := 2
          restarting := none } }
  thread _ := {}

theorem slashWorld_start : WorldStart slashWorld := by
  refine ⟨fun _ => rfl, fun p h hp => ?_, rfl, fun p h hp => ?_, fun d hd => ?_⟩
  all_goals simp only [slashWorld] at *
  · split at hp
    · rename_i ha
      cases hp
      exact ⟨by simp [ha], by decide⟩
    · split at hp
      · rename_i hb
        cases hp
        exact ⟨by simp [hb], by decide⟩
      · cases hp
  · split at hp
    · rename_i ha
      cases hp
      simp [valve, ha]
    · split at hp
      · rename_i hb
        cases hp
        simp [valve, hb]
      · cases hp
  · rw [List.mem_singleton.mp hd]
    rfl

/-- The call to the valve of `a/b` is written to the process of `a`, whose inventory has no such
device. -/
theorem slash_misroutes : ∃ g₀ tr g, WorldStart g₀ ∧ Run (world plainConfig).lts g₀ tr g ∧
      ∃ i ∈ tr, ∃ frame, i.2.2.provider = .wrote 0 (some 1) frame ∧
        ∀ r, validateCall plainConfig.showDouble ⟨i.1.shared.providers.inventory 0⟩
          frame.request ≠ .ok r := by
  have hexec := Machine.run_of_passes (world plainConfig) slashWorld
    (toDevice 0 "a/b/c" ++ toSession 0)
    (fun tr _ => ∃ i ∈ tr, ∃ f ∈ frame? i, f.1 = 0 ∧ f.2.1 = some 1 ∧
      (validateCall plainConfig.showDouble ⟨i.1.shared.providers.inventory 0⟩
        f.2.2.request).toOption.isNone) (by decide)
  obtain ⟨tr, g, hrun, i, hi, ⟨h, source, frame⟩, hf, rfl, rfl, hrefused⟩ := hexec
  refine ⟨slashWorld, tr, g, slashWorld_start, hrun, i, hi, frame, wrote_of_frame? hf, ?_⟩
  intro r hr
  rw [hr] at hrefused
  cases hrefused

/-- The provider `sim0`, whose process has a valve. -/
def simWorld : WorldState where
  shared :=
    { shared := { mode := .manual, registry := ⟨[valve "sim0" "valve"]⟩ }
      providers :=
        { registered := fun p => if p = "sim0" then some 0 else none
          owner := fun _ => "sim0"
          healthy := fun _ => true
          session := fun _ => none
          inventory := fun _ => [valve "sim0" "valve"]
          published := fun p => if p = "sim0" then some 0 else none
          fresh := 1
          restarting := none } }
  thread _ := {}

theorem simWorld_start : WorldStart simWorld := by
  refine ⟨fun _ => rfl, fun p h hp => ?_, rfl, fun p h hp => ?_, fun d hd => ?_⟩
  all_goals simp only [simWorld] at *
  · obtain ⟨rfl, hh⟩ := Option.ite_none_right_eq_some.mp hp
    cases hh
    exact ⟨rfl, by decide⟩
  · obtain ⟨rfl, -⟩ := Option.ite_none_right_eq_some.mp hp
    simp [valve]
  · rw [List.mem_singleton.mp hd]
    rfl

theorem simWorld_plain : PlainIds simWorld := by
  intro p h hp
  obtain ⟨rfl, -⟩ := Option.ite_none_right_eq_some.mp hp
  decide

/-- A restart of `sim0` that succeeds. -/
def restartSim : List (ThreadId × WorldChoice) :=
  [(1, .run (.start (.restart "sim0"))), (1, .session true), (1, .session true),
    (1, .run (.answer .accept)), (1, .run (.answer .accept)),
    (1, .run (.inventory [valve "sim0" "valve"])), (1, .run (.answer .accept)), (1, .run .go),
    (1, .run .go), (1, .run .go), (1, .run .go)]

/-- A call has the handle of the old process when the restart comes; it reads the new inventory and
finds its session stopped. -/
def overtaken : List (ThreadId × WorldChoice) :=
  toDevice 0 "sim0/valve" ++ restartSim ++ toSession 0 ++
    [(0, .run (.reply (.failed .unavailable "Provider session not healthy"))), (0, .run .go),
      (0, .run .go)]

/-- The call that the restart overtakes writes nothing, and the next one reaches the new process. -/
theorem frames_reach_their_process_restarted : ∃ tr g, Run (world plainConfig).lts simWorld tr g ∧
      ∃ frame, tr.filterMap frame? = [(1, some 1, frame)] ∧ ∃ i ∈ tr,
        i.2.2.provider = .wrote 1 (some 1) frame ∧
        validateCall plainConfig.showDouble ⟨i.1.shared.providers.inventory 1⟩ frame.request =
          .ok (frame.target.resolved frame.args) := by
  have hexec := Machine.run_of_passes (world plainConfig) simWorld
    (overtaken ++ toDevice 2 "sim0/valve" ++ toSession 2)
    (fun tr _ => (tr.filterMap frame?).map (fun f => (f.1, f.2.1)) = [(1, some 1)])
    (by decide)
  obtain ⟨tr, g, hrun, hp⟩ := hexec
  obtain ⟨⟨h, source, frame⟩, hframes, heq⟩ := List.map_eq_singleton_iff.mp hp
  cases heq
  have hmem : (1, some 1, frame) ∈ tr.filterMap frame? := hframes ▸ List.mem_singleton.mpr rfl
  obtain ⟨i, hi, hf⟩ := List.mem_filterMap.mp hmem
  have hwrote := wrote_of_frame? hf
  have hreaches := frames_reach_their_process simWorld_start simWorld_plain hrun i hi 1 (some 1)
    frame hwrote
  exact ⟨tr, g, hrun, frame, hframes, i, hi, hwrote, hreaches.2.2⟩

end Anolis.Proofs.CallRouting
