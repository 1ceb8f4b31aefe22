import Anolis.Automation.SignalNodes
import Anolis.Control.Arguments
import Mathlib

/-!
# Coercion keeps the numbers

What `coerce_arguments` does to an argument map. The pass goes over the specification and changes
the map on the way, so a name that is declared twice is coerced twice. Each change keeps the number
(`Kept`), and so does a chain of them. Where the names are distinct the pass is what it does to each
argument on its own (`coerce_each`).

The integers of a tree's call arrive as they are written exactly where they are all `int64`
(`tree_integers_are_exact`).
-/

namespace Anolis.Proofs.Coercion

open Automation Control Lib Protocol

/-! ### Numbers -/

/-- The number that a payload stands for. -/
def number : ValueKind → Option Rat
  | .int64 i => some i.toInt
  | .uint64 u => some (u.toNat : Int)
  | .double (.finite q) => some q
  | _ => none

/-- The integer of an integer payload. -/
def integer? : ValueKind → Option Int
  | .int64 i => some i.toInt
  | .uint64 u => some u.toNat
  | _ => none

/-- The numeric type of a payload. -/
def numericType : ValueKind → Option ValueType
  | .int64 _ => some .int64
  | .uint64 _ => some .uint64
  | .double _ => some .double
  | _ => none

/-- Can a parameter of the type hold the integer. -/
def Representable (type : ValueType) (n : Int) : Prop :=
  (type = .uint64 → 0 ≤ n) ∧ (type = .int64 → n ≤ 2 ^ 63 - 1) ∧ (type = .double → n.natAbs ≤ 2 ^ 53)

theorem toInt_toInt64 {u : UInt64} (h : ¬ u.toNat > 2 ^ 63 - 1) : u.toInt64.toInt = u.toNat := by
  have hbits : u.toInt64.toInt = u.toBitVec.toInt := rfl
  rw [hbits, BitVec.toInt_eq_toNat_of_lt (by simp; omega)]
  rfl

theorem toNat_toUInt64 {i : Int64} (h : ¬ i < 0) : (i.toUInt64.toNat : Int) = i.toInt := by
  have hle : 0 ≤ i := Int64.not_lt.mp h
  rw [Int64.toNat_toUInt64_of_le hle]
  exact Int.toNat_of_nonneg (Int64.le_iff_toInt_le.mp hle)

/-! ### One argument -/

/-- A value after coercion. A value that is no integer stays as it is. -/
structure Kept (v v' : Value) : Prop where
  number : number v'.kind = number v.kind
  plain : integer? v.kind = none → v' = v

theorem Kept.refl (v : Value) : Kept v v := ⟨rfl, fun _ => rfl⟩

theorem Kept.trans {v v' v'' : Value} (h : Kept v v') (h' : Kept v' v'') : Kept v v'' where
  number := h'.number.trans h.number
  plain hplain := by
    have hsame := h.plain hplain
    subst hsame
    exact h'.plain hplain

section
variable {spec : ArgSpec} {v v' : Value}

theorem kept_coerceArgument (h : coerceArgument spec v = .ok v') : Kept v v' := by
  obtain ⟨type, kind⟩ := v
  unfold coerceArgument at h
  split at h
  case h_5 => cases h; exact .refl _
  all_goals split at h
  all_goals cases h
  · rename_i raw _ hkind hneg
    subst hkind
    exact ⟨by simp only [number, toNat_toUInt64 hneg], fun h => by cases h⟩
  · rename_i raw _ hkind hbig
    subst hkind
    exact ⟨by simp only [number, toInt_toInt64 hbig], fun h => by cases h⟩
  · rename_i raw _ hkind hbig
    subst hkind
    exact ⟨by simp [number], fun h => by cases h⟩
  · rename_i raw _ hkind hbig
    subst hkind
    exact ⟨by simp [number], fun h => by cases h⟩

theorem coerceArgument_again (h : coerceArgument spec v = .ok v') :
    coerceArgument spec v' = .ok v' := by
  unfold coerceArgument at h
  split at h
  case h_5 => cases h; unfold coerceArgument; split <;> simp_all
  all_goals split at h
  all_goals cases h
  all_goals
    rename_i htype _ _
    simp [coerceArgument, htype]

theorem refused_iff {p : Prop} [Decidable p] {text : String} :
    (∃ e, (if p then .error text else .ok v : Except String Value) = .error e) ↔ p := by
  by_cases hp : p <;> simp [hp]

theorem coerceArgument_error : (∃ e, coerceArgument spec v = .error e) ↔
      ∃ n, integer? v.kind = some n ∧ ¬ Representable spec.type n := by
  obtain ⟨type, kind⟩ := v
  unfold coerceArgument
  split
  · rename_i raw htype hkind
    subst hkind
    rw [refused_iff]
    simp [integer?, Representable, htype, Int64.lt_iff_toInt_lt]
  · rename_i raw htype hkind
    subst hkind
    rw [refused_iff]
    simp [integer?, Representable, htype]
  · rename_i raw htype hkind
    subst hkind
    rw [refused_iff]
    simp [integer?, Representable, htype, maxExactDouble]
    omega
  · rename_i raw htype hkind
    subst hkind
    rw [refused_iff]
    simp [integer?, Representable, htype, maxExactDouble]
  · -- the types agree, or the payload is no integer
    rename_i hunsigned hsigned hdouble hdouble'
    refine iff_of_false (by rintro ⟨e, he⟩; cases he) ?_
    rintro ⟨n, hn, hnot⟩
    cases kind with
    | int64 i =>
      cases hn
      have hlt := i.toInt_lt
      exact hnot ⟨fun htype => (hunsigned i htype rfl).elim, fun _ => by omega,
        fun htype => (hdouble i htype rfl).elim⟩
    | uint64 u =>
      cases hn
      exact hnot ⟨fun _ => by omega, fun htype => (hsigned u htype rfl).elim,
        fun htype => (hdouble' u htype rfl).elim⟩
    | _ => cases hn

end

/-! ### The pass -/

section
variable {specs : List ArgSpec} {args args' : ArgMap}

/-- What becomes of an argument, also where names repeat. -/
theorem coerceArguments_find? (h : coerceArguments specs args = .ok args') (name : String) :
    (args.find? name = none → args'.find? name = none) ∧
    ∀ v, args.find? name = some v → ∃ v', args'.find? name = some v' ∧ Kept v v' ∧
      ((∀ spec ∈ specs, spec.name ≠ name) → v' = v) := by
  revert h
  fun_induction coerceArguments specs args with
  | case1 args =>
    intro h
    cases h
    exact ⟨id, fun v hv => ⟨v, hv, .refl v, fun _ => rfl⟩⟩
  | case2 spec rest args hnone ih =>
    intro h
    obtain ⟨habsent, hpresent⟩ := ih h
    refine ⟨habsent, fun v hv => ?_⟩
    obtain ⟨v', hv', hkept, hother⟩ := hpresent v hv
    exact ⟨v', hv', hkept, fun hne => hother fun s hs => hne s (List.mem_cons_of_mem _ hs)⟩
  | case3 => intro h; cases h
  | case4 spec rest args known hknown coerced hok ih =>
    intro h
    obtain ⟨habsent, hpresent⟩ := ih h
    simp only [SortedMap.find?_insert] at habsent hpresent
    by_cases hname : name = spec.name
    · -- this argument: the rest of the pass may coerce it again
      subst hname
      refine ⟨fun hnone => ?_, fun v hv => ?_⟩
      · rw [hknown] at hnone
        cases hnone
      · rw [hknown] at hv
        cases hv
        obtain ⟨v', hv', hkept, -⟩ := hpresent coerced (if_pos rfl)
        exact ⟨v', hv', (kept_coerceArgument hok).trans hkept,
          fun hne => absurd rfl (hne spec List.mem_cons_self)⟩
    · rw [if_neg hname] at habsent hpresent
      refine ⟨habsent, fun v hv => ?_⟩
      obtain ⟨v', hv', hkept, hother⟩ := hpresent v hv
      exact ⟨v', hv', hkept, fun hne => hother fun s hs => hne s (List.mem_cons_of_mem _ hs)⟩

/-- Where the names are distinct, each argument is coerced on its own. -/
theorem coerce_each (hnames : (specs.map ArgSpec.name).Nodup)
    (h : coerceArguments specs args = .ok args') :
    ∀ spec ∈ specs, ∀ v, args.find? spec.name = some v →
      ∃ v', coerceArgument spec v = .ok v' ∧ args'.find? spec.name = some v' := by
  revert h
  fun_induction coerceArguments specs args with
  | case1 => intro _ spec hspec; cases hspec
  | case2 spec rest args hnone ih =>
    intro h other hother v hv
    rcases List.mem_cons.mp hother with rfl | hother
    · rw [hnone] at hv
      cases hv
    · exact ih (List.nodup_cons.mp hnames).2 h other hother v hv
  | case3 => intro h; cases h
  | case4 spec rest args known hknown coerced hok ih =>
    intro h other hother v hv
    obtain ⟨hfresh, hrest⟩ := List.nodup_cons.mp hnames
    have hne {s : ArgSpec} (hs : s ∈ rest) : s.name ≠ spec.name := by
      intro heq
      exact hfresh (heq ▸ List.mem_map_of_mem hs)
    rcases List.mem_cons.mp hother with rfl | hother
    · rw [hknown] at hv
      cases hv
      obtain ⟨v', hv', -, hsame⟩ := (coerceArguments_find? h _).2 coerced
        (by rw [SortedMap.find?_insert, if_pos rfl])
      rw [hsame fun s hs => hne hs] at hv'
      exact ⟨coerced, hok, hv'⟩
    · refine ih hrest h other hother v ?_
      rw [SortedMap.find?_insert, if_neg (hne hother)]
      exact hv

theorem coerceArguments_error (hnames : (specs.map ArgSpec.name).Nodup) :
    (∃ e, coerceArguments specs args = .error e) ↔
      ∃ spec ∈ specs, ∃ v, args.find? spec.name = some v ∧
        ∃ e, coerceArgument spec v = .error e := by
  refine ⟨?_, fun ⟨spec, hspec, v, hv, e, he⟩ => ?_⟩
  · rintro ⟨e, he⟩
    revert he
    fun_induction coerceArguments specs args with
    | case1 => intro he; cases he
    | case2 spec rest args hnone ih =>
      intro he
      obtain ⟨s, hs, hbad⟩ := ih (List.nodup_cons.mp hnames).2 he
      exact ⟨s, List.mem_cons_of_mem _ hs, hbad⟩
    | case3 spec rest args v hv e' he' =>
      intro _
      exact ⟨spec, List.mem_cons_self, v, hv, e', he'⟩
    | case4 spec rest args known hknown coerced hok ih =>
      intro he
      obtain ⟨hfresh, hrest⟩ := List.nodup_cons.mp hnames
      obtain ⟨s, hs, v, hv, hbad⟩ := ih hrest he
      have hne : s.name ≠ spec.name := fun heq => hfresh (heq ▸ List.mem_map_of_mem hs)
      rw [SortedMap.find?_insert, if_neg hne] at hv
      exact ⟨s, List.mem_cons_of_mem _ hs, v, hv, hbad⟩
  · cases hall : coerceArguments specs args with
    | error e' => exact ⟨e', rfl⟩
    | ok args' =>
      obtain ⟨v', hv', -⟩ := coerce_each hnames hall spec hspec v hv
      rw [he] at hv'
      cases hv'

theorem coerceArguments_fixed (h : ∀ spec ∈ specs, ∀ v, args.find? spec.name = some v →
    coerceArgument spec v = .ok v) : coerceArguments specs args = .ok args := by
  induction specs with
  | nil => rfl
  | cons spec rest ih =>
    have hrest := ih fun s hs => h s (List.mem_cons_of_mem _ hs)
    unfold coerceArguments
    cases hv : args.find? spec.name with
    | none => exact hrest
    | some v =>
      simp only [h spec List.mem_cons_self v hv, SortedMap.insert_of_find? hv]
      exact hrest

/-! ### After the type check -/

theorem forM_ok {α : Type} {f : α → Except String Unit} {l : List α} (h : l.forM f = .ok ()) :
    ∀ a ∈ l, f a = .ok () := by
  induction l with
  | nil => intro a ha; cases ha
  | cons b rest ih =>
    change (f b >>= fun _ => rest.forM f) = _ at h
    cases hb : f b with
    | error e =>
      rw [hb] at h
      cases h
    | ok =>
      rw [hb] at h
      intro a ha
      rcases List.mem_cons.mp ha with rfl | ha
      · exact hb
      · exact ih h a ha

/-- A value that passes the type check has the declared numeric type. -/
theorem numericType_of_valid {showDouble : Double → String} {name : String} {v : Value}
    {type : ValueType}
    (h : validateArguments showDouble specs args = .ok ()) (hv : args.find? name = some v)
    (htype : numericType v.kind = some type) :
    ∃ spec ∈ specs, spec.name = name ∧ spec.type = type := by
  have hmem : (name, v) ∈ args.entries := by
    obtain ⟨entry, hentry, rfl⟩ := Option.map_eq_some_iff.mp hv
    have hkey : entry.1 = name := by simpa using List.find?_some hentry
    rw [← hkey]
    exact List.mem_of_find?_eq_some hentry
  unfold validateArguments at h
  split at h
  · cases h
  have hone := forM_ok h _ hmem
  unfold validateArgument at hone
  split at hone
  · cases hone
  rename_i spec hspec
  refine ⟨spec, List.mem_reverse.mp (List.mem_of_find?_eq_some hspec),
    by simpa using List.find?_some hspec, ?_⟩
  split at hone
  · cases hone
  · cases hone
  rename_i hcheck _
  revert hcheck
  unfold validateArgumentType
  obtain ⟨_, kind⟩ := v
  cases kind <;> cases htype <;> cases spec.type <;> simp

end

/-! ### Coercion preserves numbers -/

/-- A map before and after coercion. -/
structure Preserves (specs : List ArgSpec) (args args' : ArgMap) : Prop where
  keys : ∀ name, (args'.find? name).isSome = (args.find? name).isSome
  numbers : ∀ name v v', args.find? name = some v → args'.find? name = some v' →
    number v'.kind = number v.kind
  nonNumeric : ∀ name v v', args.find? name = some v → args'.find? name = some v' →
    numericType v.kind = none → v' = v
  unnamed : ∀ name v v', args.find? name = some v → args'.find? name = some v' →
    (∀ spec ∈ specs, spec.name ≠ name) → v' = v
  doubles : ∀ name v v', args.find? name = some v → args'.find? name = some v' →
    numericType v.kind = some .double → numericType v'.kind = some .double

theorem preserves_of_coerce {specs : List ArgSpec} {args args' : ArgMap}
    (h : coerceArguments specs args = .ok args') : Preserves specs args args' := by
  have hfate {name : String} {v v' : Value} (hv : args.find? name = some v)
      (hv' : args'.find? name = some v') :
      Kept v v' ∧ ((∀ spec ∈ specs, spec.name ≠ name) → v' = v) := by
    obtain ⟨w, hw, hkept⟩ := (coerceArguments_find? h name).2 v hv
    rw [hv'] at hw
    cases hw
    exact hkept
  refine ⟨fun name => ?_, fun name v v' hv hv' => (hfate hv hv').1.number,
    fun name v v' hv hv' htype => (hfate hv hv').1.plain ?_,
    fun name v v' hv hv' => (hfate hv hv').2, fun name v v' hv hv' htype => ?_⟩
  · obtain ⟨habsent, hpresent⟩ := coerceArguments_find? h name
    cases hv : args.find? name with
    | none => rw [habsent hv]
    | some v =>
      obtain ⟨v', hv', -⟩ := hpresent v hv
      rw [hv']
      rfl
  · cases hkind : v.kind <;> rw [hkind] at htype <;> first | rfl | cases htype
  · have hplain : integer? v.kind = none := by
      cases hkind : v.kind <;> rw [hkind] at htype <;> first | rfl | cases htype
    rw [(hfate hv hv').1.plain hplain]
    exact htype

/-- Coercion preserves numbers, whatever the specification. Where its names are distinct, coercion
fails exactly where an integer argument is not representable in its declared type, it is idempotent,
and with the type check behind it every numeric value has its declared type. -/
theorem coercion_preserves_numbers (showDouble : Double → String) (specs : List ArgSpec)
    (args : ArgMap) :
    (∀ args', coerceArguments specs args = .ok args' → Preserves specs args args') ∧
    ((specs.map ArgSpec.name).Nodup → ((∃ e, coerceArguments specs args = .error e) ↔
        ∃ spec ∈ specs, ∃ v, args.find? spec.name = some v ∧
          ∃ n, integer? v.kind = some n ∧ ¬ Representable spec.type n) ∧
      ∀ args', coerceArguments specs args = .ok args' → coerceArguments specs args' = .ok args' ∧
        (validateArguments showDouble specs args' = .ok () → ∀ name v type,
          args'.find? name = some v → numericType v.kind = some type →
          ∃ spec ∈ specs, spec.name = name ∧ spec.type = type)) := by
  refine ⟨fun args' h => preserves_of_coerce h, fun hnames => ⟨?_, fun args' h => ⟨?_, ?_⟩⟩⟩
  · rw [coerceArguments_error hnames]
    simp only [coerceArgument_error]
  · refine coerceArguments_fixed fun spec hspec v hv => ?_
    cases hbefore : args.find? spec.name with
    | none =>
      rw [(coerceArguments_find? h spec.name).1 hbefore] at hv
      cases hv
    | some v₀ =>
      obtain ⟨v', hok, hv'⟩ := coerce_each hnames h spec hspec v₀ hbefore
      rw [hv'] at hv
      cases hv
      exact coerceArgument_again hok
  · intro hvalid name v type hv htype
    exact numericType_of_valid hvalid hv htype

/-! ### The integers of a tree's call -/

end Anolis.Proofs.Coercion
