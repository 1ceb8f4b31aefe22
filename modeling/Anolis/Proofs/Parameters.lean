import Anolis.Automation.ParameterManager
import Mathlib

/-!
# What the parameter manager keeps

What fails without the conditions of the results: an integer above `2 ^ 53` is compared as the
double next to it (`rounded_above_max`), a default may be out of bounds (`accepted_not_defined`),
and two threads may tell their changes in the other order (`told_out_of_order`).
-/

namespace Anolis.Proofs.Parameters

open Automation Lib Protocol

variable {showDouble : Double → String} {ps : Parameters} {d : ParameterDef} {v : ParameterValue}

/-! ### Bounds -/

/-- The number that a value denotes. A NaN and the infinities denote none. -/
def asRat? : ParameterValue → Option Rat
  | .double (.finite q) => some q
  | .int64 i => some i.toInt
  | _ => none

/-- The value has its declared type and meets the declared constraints. -/
structure InBounds (d : ParameterDef) : Prop where
  type : d.value.type = d.type
  min : ∀ x m, asRat? d.value = some x → d.min = some (.finite m) → m ≤ x
  max : ∀ x m, asRat? d.value = some x → d.max = some (.finite m) → x ≤ m
  allowed : ∀ s allowed, d.value = .string s → d.allowedValues = some allowed → s ∈ allowed

/-- A call of the manager. -/
inductive Call
  | define (d : ParameterDef)
  | set (name : String) (value : ParameterValue)

/-- What a call returns, and the parameters afterwards. -/
def perform (showDouble : Double → String) (ps : Parameters) : Call → Bool × Parameters
  | .define d => ps.define showDouble d
  | .set name value =>
    match ps.set showDouble name value with
    | .ok change => (true, change.elim ps ps.store)
    | .error _ => (false, ps)

/-- The parameters after some calls. -/
def after (showDouble : Double → String) (calls : List Call) : Parameters :=
  calls.foldl (fun ps call => (perform showDouble ps call).2) fun _ => none

/-- The value is no integer, or one that is exact as a double. -/
def Exact (v : ParameterValue) : Prop := ∀ i, v = .int64 i → i.toInt.natAbs ≤ 2 ^ 53

def ExactCall : Call → Prop
  | .define d => Exact d.value
  | .set _ value => Exact value

theorem doubleOfInt64_exact {i : Int64} (h : i.toInt.natAbs ≤ 2 ^ 53) :
    doubleOfInt64 i = .finite i.toInt := by
  have hround : roundHalfEven i.toInt.natAbs (i.toInt.natAbs.log2 - 52) *
      2 ^ (i.toInt.natAbs.log2 - 52) = i.toInt.natAbs := by
    generalize i.toInt.natAbs = n at h ⊢
    rcases Nat.lt_or_eq_of_le h with hlt | rfl
    · have hlog : n.log2 - 52 = 0 := by
        rcases Nat.eq_zero_or_pos n with rfl | hpos
        · rfl
        · have := (Nat.log2_lt hpos.ne').mpr hlt
          omega
      simp [hlog, roundHalfEven, Nat.mod_one]
    · decide
  have hsign := Int.sign_mul_natAbs i.toInt
  simp only [doubleOfInt64, hround]
  exact congrArg Double.finite (by rw [← Rat.intCast_natCast, ← Rat.intCast_mul, hsign])

theorem numeric_exact (h : Exact v) {x : Rat} (hx : asRat? v = some x) :
    v.numeric? = some (.finite x) := by
  cases v with
  | double d =>
    cases d with
    | finite q => exact congrArg (some ∘ Double.finite) (Option.some.inj hx)
    | nan | inf _ => cases hx
  | int64 i =>
    rw [← Option.some.inj hx]
    exact congrArg some (doubleOfInt64_exact (h i rfl))
  | bool _ | string _ => cases hx

/-- The value meets the constraints, as `validate` compares them. -/
def Meets (d : ParameterDef) (v : ParameterValue) : Prop :=
  (∀ x, v.numeric? = some x →
    (∀ m, d.min = some m → x.lt m = false) ∧ ∀ m, d.max = some m → m.lt x = false) ∧
  ∀ s allowed, v = .string s → d.allowedValues = some allowed → s ∈ allowed

/-- `validate` accepts exactly the values of the declared type that meet the constraints. -/
theorem validate_iff : d.validate showDouble v = .ok () ↔ v.type = d.type ∧ Meets d v := by
  unfold ParameterDef.validate Meets
  by_cases htype : v.type = d.type
  · rw [if_neg (not_not.mpr htype)]
    cases hx : v.numeric? with
    | some x =>
      have hs : ∀ s, v ≠ .string s := by
        rintro s rfl
        cases hx
      cases hmin : d.min with
      | none =>
        cases hmax : d.max with
        | none => simp [htype, hs]
        | some hi => cases hhi : hi.lt x <;> simp [htype, hs, hhi, Option.filter_some]
      | some lo =>
        cases hlo : x.lt lo with
        | true => simp [htype, hlo, Option.filter_some]
        | false =>
          cases hmax : d.max with
          | none => simp [htype, hs, hlo, Option.filter_some]
          | some hi => cases hhi : hi.lt x <;> simp [htype, hs, hlo, hhi, Option.filter_some]
    | none =>
      cases v with
      | double _ | int64 _ => cases hx
      | bool _ => simp [htype]
      | string s =>
        cases hallowed : d.allowedValues with
        | none => simpa using htype
        | some allowed => by_cases hs : s ∈ allowed <;> simp [htype, Option.filter_some, hs]
  · simp [htype]

theorem inBounds_of_validate (h : d.validate showDouble v = .ok ()) (hv : Exact v) :
    InBounds { d with value := v } := by
  obtain ⟨htype, hrange, hallowed⟩ := validate_iff.mp h
  refine ⟨htype, fun x m hx hm => ?_, fun x m hx hm => ?_, hallowed⟩
  · simpa [Double.lt, Rat.not_lt] using (hrange _ (numeric_exact hv hx)).1 _ hm
  · simpa [Double.lt, Rat.not_lt] using (hrange _ (numeric_exact hv hx)).2 _ hm

/-- A `set` that succeeds has validated the value, and reports the one that it replaced. -/
theorem set_ok {name : String} {change : Option Change}
    (h : ps.set showDouble name v = .ok change) :
    ∃ d, ps name = some d ∧ d.validate showDouble v = .ok () ∧
      ∀ c, change = some c → c = ⟨name, d.value, v⟩ := by
  unfold Parameters.set at h
  split at h
  · cases h
  · rename_i d hd
    split at h
    · cases h
    · rename_i hvalid
      cases h
      refine ⟨d, hd, hvalid, fun c hc => ?_⟩
      split at hc
      · cases hc
      · exact (Option.some.inj hc).symm

/-- What a call keeps of the parameters. -/
def Sound (ps : Parameters) : Prop := ∀ name d, ps name = some d → InBounds d

theorem Sound.step {call : Call} (h : Sound ps) (hcall : ExactCall call) :
    Sound (perform showDouble ps call).2 := by
  have hupdate : ∀ name new, (∀ d, new = some d → InBounds d) →
    Sound (Function.update ps name new) := by
    intro name new hnew other d hd
    rw [Function.update_apply] at hd
    split at hd
    · exact hnew d hd
    · exact h other d hd
  cases call with
  | define d =>
    simp only [perform, Parameters.define]
    split
    · rename_i hvalid
      refine hupdate _ _ fun d' hd' => ?_
      cases hd'
      exact inBounds_of_validate hvalid hcall
    · exact h
  | set name value =>
    simp only [perform]
    split
    · rename_i change hset
      obtain ⟨d, hd, hvalid, hchange⟩ := set_ok hset
      cases change with
      | none => exact h
      | some c =>
        obtain rfl := hchange c rfl
        refine hupdate _ _ fun d' hd' => ?_
        obtain ⟨htype, hmin, hmax, hallowed⟩ := inBounds_of_validate hvalid hcall
        rw [hd] at hd'
        cases hd'
        exact ⟨htype, hmin, hmax, hallowed⟩
    · exact h

/-- In every sequence of calls with exact numbers, the stored values have their types and meet their
constraints. A call that returns `false` changes nothing, whatever its numbers. -/
theorem values_stay_in_bounds (showDouble : Double → String) :
    (∀ calls : List Call, (∀ call ∈ calls, ExactCall call) →
      ∀ name d, after showDouble calls name = some d → InBounds d) ∧
    ∀ ps call, (perform showDouble ps call).1 = false → (perform showDouble ps call).2 = ps := by
  refine ⟨fun calls hcalls name d hd => ?_, fun ps call h => ?_⟩
  · have hsound : ∀ (calls : List Call) ps, Sound ps → (∀ call ∈ calls, ExactCall call) →
        Sound (calls.foldl (fun ps call => (perform showDouble ps call).2) ps) := by
      intro calls
      induction calls with
      | nil => exact fun ps h _ => h
      | cons call calls ih =>
        exact fun ps h hcalls => ih _ (h.step (hcalls call List.mem_cons_self))
          fun c hc => hcalls c (List.mem_cons_of_mem _ hc)
    exact hsound calls _ (fun _ _ h => by cases h) hcalls name d hd
  · cases call with
    | define d =>
      simp only [perform, Parameters.define] at h ⊢
      split at h
      · cases h
      · rfl
    | set name value =>
      simp only [perform] at h ⊢
      split at h
      · cases h
      · rfl

def underNine : List Call :=
  [.define { name := "n", type := .int64, value := .int64 0, max := some (.finite 9) },
    .set "n" (.int64 5)]

theorem values_stay_in_bounds_five : ∃ d, after (fun _ => "") underNine "n" = some d ∧
    d.value = .int64 5 ∧ d.max = some (.finite 9) ∧ InBounds d := by
  have hexact : ∀ call ∈ underNine, ExactCall call := by
    simp [underNine, ExactCall, Exact]
  have hafter : after (fun _ => "") underNine "n" =
      some ⟨"n", .int64, .int64 5, none, some (.finite 9), none, true⟩ := by decide +kernel
  exact ⟨_, hafter, rfl, rfl, (values_stay_in_bounds _).1 underNine hexact "n" _ hafter⟩

/-- An integer of a maximum of `2 ^ 53` that is one above it. -/
theorem rounded_above_max : ∃ d, after (fun _ => "") [
      .define { name := "n", type := .int64, value := .int64 0, max := some (.finite (2 ^ 53)) },
      .set "n" (.int64 (2 ^ 53 + 1))] "n" = some d ∧
    d.value = .int64 (2 ^ 53 + 1) ∧ d.max = some (.finite (2 ^ 53)) ∧ ¬ InBounds d := by
  refine ⟨⟨"n", .int64, .int64 (2 ^ 53 + 1), none, some (.finite (2 ^ 53)), none, true⟩,
    by decide +kernel, rfl, rfl, fun h => ?_⟩
  exact absurd (h.max _ _ rfl rfl) (by decide)

/-! ### Configured parameters -/

theorem type_of_validate {p : ParameterConfig} (h : p.validate = .ok ()) :
    p.defaultValue.type = p.type := by
  unfold ParameterConfig.validate at h
  split at h
  · cases h
  split at h
  · cases h
  · exact not_not.mp (by assumption)

theorem isOk_iff {ε : Type} {x : Except ε Unit} : x.isOk ↔ x = .ok () := by
  cases x <;> simp [Except.isOk, Except.toBool]

theorem toDef_injective : Function.Injective ParameterConfig.toDef := by
  rintro ⟨name, type, value, min, max, allowed⟩ ⟨name', type', value', min', max', allowed'⟩ h
  simp only [ParameterConfig.toDef, ParameterDef.mk.injEq, and_true] at h ⊢
  obtain ⟨rfl, rfl, rfl, rfl, rfl, h⟩ := h
  by_cases hnil : allowed = [] <;> by_cases hnil' : allowed' = [] <;> simp_all

/-- Does the manager accept the declaration of a parameter that is not defined yet. -/
def accepts (showDouble : Double → String) (p : ParameterConfig) : Bool :=
  (p.toDef.validate showDouble p.defaultValue).isOk

/-- What the loop makes of a name: the first declaration of it that the manager accepts, unless the
name is defined before. -/
theorem foldl_define (name : String) : ∀ (configs : List ParameterConfig) (ps : Parameters),
    configs.foldl (fun ps p => (Parameters.define showDouble ps p.toDef).2) ps name =
      (ps name).or ((configs.find? fun p => p.name = name && accepts showDouble p).map (·.toDef))
  | [], ps => by simp
  | p :: configs, ps => by
    rw [List.foldl_cons, foldl_define name configs, List.find?_cons]
    have hname : p.toDef.name = p.name := rfl
    have hvalue : p.toDef.value = p.defaultValue := rfl
    cases hok : p.toDef.validate showDouble p.defaultValue with
    | error e =>
      have hno : accepts showDouble p = false := by simp [accepts, hok, Except.isOk, Except.toBool]
      simp [Parameters.define, hvalue, hok, hno]
    | ok u =>
      have hyes : accepts showDouble p = true := by simp [accepts, hok, Except.isOk, Except.toBool]
      rcases eq_or_ne p.name name with rfl | hne
      · cases hps : ps p.name <;> simp [Parameters.define, hname, hvalue, hok, hps, hyes]
      · cases hps : ps p.name <;>
          simp [Parameters.define, hname, hvalue, hok, hps, hne, Function.update_of_ne hne.symm]

/-- Of the parameters that `validate_config` accepts, each is defined as it is declared exactly
where each default meets its constraints and no name is declared in two ways. -/
theorem configured_parameters_exist (showDouble : Double → String) (configs : List ParameterConfig)
    (haccepted : ∀ p ∈ configs, p.validate = .ok ()) :
    (∀ p ∈ configs, initParameters showDouble configs p.name = some p.toDef) ↔
    (∀ p ∈ configs, Meets p.toDef p.defaultValue) ∧
      ∀ p ∈ configs, ∀ q ∈ configs, p.name = q.name → p = q := by
  have hmeets : ∀ p ∈ configs, accepts showDouble p ↔ Meets p.toDef p.defaultValue := by
    intro p hp
    rw [accepts, isOk_iff, validate_iff]
    exact and_iff_right (type_of_validate (haccepted p hp))
  have hinit : ∀ name, initParameters showDouble configs name =
      (configs.find? fun p => p.name = name && accepts showDouble p).map (·.toDef) := by
    intro name
    rw [initParameters, foldl_define, Option.none_or]
  constructor
  · intro hdefined
    -- what is defined under a name is a declaration that was accepted
    have hfound : ∀ p ∈ configs, configs.find? (fun q => q.name = p.name && accepts showDouble q) =
        some p := by
      intro p hp
      obtain ⟨q, hq, heq⟩ := Option.map_eq_some_iff.mp ((hinit p.name).symm.trans (hdefined p hp))
      rw [hq, toDef_injective heq]
    refine ⟨fun p hp => (hmeets p hp).mp ?_, fun p hp q hq hname => ?_⟩
    · have := List.find?_some (hfound p hp)
      simpa using this
    · have hboth := hfound p hp
      rw [hname, hfound q hq] at hboth
      exact (Option.some.inj hboth).symm
  · rintro ⟨hdefaults, hsame⟩ p hp
    rw [hinit]
    cases hfind : configs.find? fun q => q.name = p.name && accepts showDouble q with
    | none =>
      have hno := List.find?_eq_none.mp hfind p hp
      simp [(hmeets p hp).mpr (hdefaults p hp)] at hno
    | some q =>
      have hq := List.find?_some hfind
      simp only [Bool.and_eq_true, decide_eq_true_eq] at hq
      rw [hsame q (List.mem_of_find?_eq_some hfind) p hp hq.1]
      rfl

theorem configured_parameters_exist_gain :
    initParameters (fun _ => "") [{ name := "gain" }] "gain" =
      some (ParameterConfig.toDef { name := "gain" }) :=
  (configured_parameters_exist (fun _ => "") [{ name := "gain" }]
    (by simp [ParameterConfig.validate, ParameterValue.type])).mpr
    ⟨by simp [Meets, ParameterConfig.toDef], by simp⟩ _ (List.mem_singleton_self _)

/-- A parameter whose omitted default is below its minimum is accepted and not defined. -/
theorem accepted_not_defined :
    ParameterConfig.validate { name := "gain", min := some (.finite 1) } = .ok () ∧
    initParameters (fun _ => "") [{ name := "gain", min := some (.finite 1) }] "gain" = none := by
  decide

/-! ### Listeners -/

/-- The steps of threads that set parameters. -/
abbrev SetTrace := Trace (Global Parameters (List (Nat × Change))) (ThreadId × SetEffect)

def changeOf : SetEffect → Option Change
  | .changed change => some change
  | _ => none

/-- The change that an effect tells the listener. -/
def tells (listener : Nat) : SetEffect → Option Change
  | .called l change => if l = listener then some change else none
  | _ => none

/-- The changes of the parameter, in the order in which the lock was held. -/
def changes (name : String) (tr : SetTrace) : List Change :=
  (tr.filterMap (changeOf ·.2.2)).filter (·.name = name)

def byThread (t : ThreadId) (f : SetEffect → Option Change) (tr : SetTrace) : List Change :=
  (tr.filter (·.2.1 = t)).filterMap (f ·.2.2)

/-- The changes that a thread still has to tell the listener. -/
def owed (listener : Nat) (calls : List (Nat × Change)) : List Change :=
  (calls.filter (·.1 = listener)).map (·.2)

/-- From `v` to `w`, each change begins where the one before it ended. -/
def Chain : ParameterValue → List Change → ParameterValue → Prop
  | v, [], w => v = w
  | v, c :: cs, w => c.old = v ∧ Chain c.new cs w

theorem Chain.snoc {c : Change} : ∀ {v : ParameterValue} {cs : List Change},
    Chain v cs c.old → Chain v (cs ++ [c]) c.new
  | _, [], h => ⟨h.symm, rfl⟩
  | _, _ :: _, h => ⟨h.1, h.2.snoc⟩

theorem owed_all (listener : Nat) (c : Change) : ∀ listeners, owed listener
    ((List.range listeners).map (·, c)) = if listener < listeners then [c] else []
  | 0 => rfl
  | n + 1 => by
    have ih := owed_all listener c n
    simp only [owed, List.range_succ, List.map_append, List.filter_append] at ih ⊢
    rw [ih]
    rcases Nat.lt_trichotomy listener n with hlt | rfl | hgt
    · simp [hlt, Nat.lt_succ_of_lt hlt, (Nat.ne_of_lt hlt).symm]
    · simp
    · simp [Nat.not_lt_of_gt hgt, Nat.not_lt_of_ge (Nat.succ_le_of_lt hgt), Nat.ne_of_lt hgt]

/-- A step of a thread: a `set` that keeps the value, one that changes it, or a call of a
listener. -/
theorem setters_next {listeners : Nat} {t : ThreadId} {calls calls' : List (Nat × Change)}
    {choice : Option (String × ParameterValue)} {e : SetEffect}
    (h : (setters showDouble listeners).next ps t calls choice = some (e, calls')) :
    e = .kept ∧ calls = [] ∧ calls' = [] ∨
    (∃ c d, e = .changed c ∧ calls = [] ∧ calls' = (List.range listeners).map (·, c) ∧
      ps c.name = some d ∧ c.old = d.value) ∨
    ∃ listener c, e = .called listener c ∧ calls = (listener, c) :: calls' := by
  simp only [setters] at h
  split at h
  · split at h
    · rename_i c hset
      cases h
      obtain ⟨d, hd, -, hchange⟩ := set_ok hset
      obtain rfl := hchange c rfl
      exact .inr (.inl ⟨_, d, rfl, rfl, rfl, hd, rfl⟩)
    · cases h
      exact .inl ⟨rfl, rfl, rfl⟩
  · cases h
    exact .inr (.inr ⟨_, _, rfl, rfl⟩)
  · cases h

/-- The changes of a parameter, in the order in which they were made, lead from its first value to
the stored one. Each thread tells each listener each of its changes once, in their order. -/
theorem changes_form_a_chain (showDouble : Double → String) (listeners : Nat) (ps₀ : Parameters)
    {tr : SetTrace} {g : Global Parameters (List (Nat × Change))}
    (h : Run (setters showDouble listeners).lts ⟨ps₀, fun _ => []⟩ tr g) :
    (∀ name d₀, ps₀ name = some d₀ →
      ∃ d, g.shared name = some d ∧ Chain d₀.value (changes name tr) d.value) ∧
    ∀ t, ∀ listener < listeners, byThread t (tells listener) tr ++ owed listener (g.thread t) =
      byThread t changeOf tr := by
  induction h with
  | refl => exact ⟨fun _ d₀ hd => ⟨d₀, hd, rfl⟩, fun _ _ _ => rfl⟩
  | @snoc tr g g' l hr hstep ih =>
  obtain ⟨t, e⟩ := l
  obtain ⟨hchain, htold⟩ := ih
  obtain ⟨choice, calls', hnext, hshared, hself, hother⟩ := Machine.step_inv hstep
  dsimp only at hnext hshared hself hother
  have hcase := setters_next hnext
  refine ⟨fun name d₀ hd₀ => ?_, fun u listener hl => ?_⟩
  · obtain ⟨d, hd, hc⟩ := hchain name d₀ hd₀
    rw [hshared]
    rcases hcase with ⟨rfl, -⟩ | ⟨c, dc, rfl, -, -, hdc, hold⟩ | ⟨_, _, rfl, -⟩
    · exact ⟨d, hd, by simpa [changes, changeOf] using hc⟩
    · rcases eq_or_ne c.name name with rfl | hname
      · obtain rfl : d = dc := Option.some.inj (hd.symm.trans hdc)
        refine ⟨_, by simp only [setters, Parameters.store, Function.update_self, hd]; rfl, ?_⟩
        rw [← hold] at hc
        simpa [changes, changeOf] using hc.snoc
      · refine ⟨d, (Function.update_of_ne (Ne.symm hname) ..).trans hd, ?_⟩
        simpa [changes, changeOf, hname] using hc
    · exact ⟨d, hd, by simpa [changes, changeOf] using hc⟩
  · have ht := htold u listener hl
    rcases eq_or_ne u t with rfl | hu
    · rw [hself]
      rcases hcase with ⟨rfl, hcalls, rfl⟩ | ⟨c, -, rfl, hcalls, rfl, -⟩ | ⟨l, c, rfl, hcalls⟩
      · simpa [byThread, changeOf, tells, hcalls, owed] using ht
      · rw [owed_all, if_pos hl]
        simpa [byThread, changeOf, tells, hcalls, owed] using ht
      · by_cases hlisten : l = listener <;>
          simpa [byThread, changeOf, tells, hcalls, owed, hlisten] using ht
    · rw [hother u hu]
      simpa [byThread, Ne.symm hu] using ht

/-- One parameter of value 0. -/
def counter : Parameters := fun name =>
  if name = "n" then some ⟨"n", .int64, .int64 0, none, none, none, false⟩ else none

/-- Two threads change the parameter, and the second one is the first to tell of it. -/
theorem two_threads : ∃ tr g, Run (setters (fun _ => "") 1).lts ⟨counter, fun _ => []⟩ tr g ∧
    tr.filterMap (tells 0 ·.2.2) = [⟨"n", .int64 1, .int64 2⟩, ⟨"n", .int64 0, .int64 1⟩] := by
  obtain ⟨tr, g, hrun, hp⟩ := Machine.run_of_passes (setters (fun _ => "") 1) ⟨counter, fun _ => []⟩
    [(0, some ("n", .int64 1)), (1, some ("n", .int64 2)), (1, none), (0, none)]
    (fun tr _ => tr.filterMap (tells 0 ·.2.2) =
      [⟨"n", .int64 1, .int64 2⟩, ⟨"n", .int64 0, .int64 1⟩]) (by decide)
  exact ⟨tr, g, hrun, hp⟩

theorem changes_form_a_chain_counter : ∃ tr g,
    Run (setters (fun _ => "") 1).lts ⟨counter, fun _ => []⟩ tr g ∧ tr ≠ [] ∧
    ∃ d, g.shared "n" = some d ∧ Chain (.int64 0) (changes "n" tr) d.value := by
  obtain ⟨tr, g, hrun, htold⟩ := two_threads
  refine ⟨tr, g, hrun, ?_, (changes_form_a_chain (fun _ => "") 1 counter hrun).1 "n" _ rfl⟩
  rintro rfl
  cases htold

/-- A listener is told of the change from 1 to 2 and then of the one from 0 to 1: no chain. -/
theorem told_out_of_order : ∃ tr g, Run (setters (fun _ => "") 1).lts ⟨counter, fun _ => []⟩ tr g ∧
    ∀ v w, ¬ Chain v (tr.filterMap (tells 0 ·.2.2)) w := by
  obtain ⟨tr, g, hrun, htold⟩ := two_threads
  refine ⟨tr, g, hrun, fun v w h => ?_⟩
  rw [htold] at h
  exact absurd h.2.1 (by decide)

end Anolis.Proofs.Parameters
