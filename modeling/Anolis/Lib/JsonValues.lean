import Anolis.Lib.JsonRoundTrip

/-!
# JSON values in files of lines

A program that keeps JSON texts as the lines of a file needs three things of them, for every value
that a `nlohmann::json` can hold (`Storable`):

* `parse_dump`: a text that was written is read as the value, where a floating point number that is
  no number is read as `null` (`asRead`).
* `printable_dump`: a text has no byte below `0x20`, so no line break.
* `parse_cut`: the text of an object that was cut off is no text.

The last one is by the two machines: the lexer has given a part of the tokens when the text is cut
off, and the parser takes no token behind a complete value.
-/

namespace Anolis.Lib.Json

variable {F : Type} {b : UInt8} {literal s : Bytes} {next : Expect F × List (Frame F)}
  {place : NumberPlace} {st : Lex F} {stack : List (Frame F)} {token : Token F} {v : Json F}
  {fields : List (Bytes × Json F)} {given : List (Token F)} {high : Option Nat} {expect : Expect F}

/-- Floating point numbers that are read as they were written. What is no number is written as
`null`. -/
structure FloatCodec (F : Type) extends FloatFormat F where
  /-- The cast to a whole number. -/
  truncate : F → Int
  written : ∀ x, toFloatFormat.Exact x ∨ write x = ascii "null"

/-- No floating point numbers. -/
def noFloats : FloatCodec Empty where
  read _ := none
  write x := x.elim
  truncate x := x.elim
  written x := x.elim

/-- The values that a `nlohmann::json` can hold: whole numbers of 64 bits, and objects whose members
are in the order of their keys. -/
inductive Storable : Json F → Prop
  | null : Storable .null
  | bool (b : Bool) : Storable (.bool b)
  | int {i : Int} (h : fits i) : Storable (.int i)
  | float (x : F) : Storable (.float x)
  | string (s : Bytes) : Storable (.string s)
  | array {items : List (Json F)} (h : ∀ v ∈ items, Storable v) : Storable (.array items)
  | object {fields : List (Bytes × Json F)} (hsorted : (fields.map Prod.fst).Pairwise (· < ·))
      (h : ∀ field ∈ fields, Storable field.2) : Storable (.object fields)

/-- A `nlohmann::json`. -/
abbrev Value (F : Type) := { v : Json F // Storable v }

/-! ### What is read again -/

mutual

/-- The value that the text of a value is read as. -/
def asRead (fl : FloatFormat F) : Json F → Json F
  | .float x => if fl.write x = ascii "null" then .null else .float x
  | .array items => .array (asReadItems fl items)
  | .object fields => .object (asReadFields fl fields)
  | .null => .null
  | .bool b => .bool b
  | .int i => .int i
  | .string s => .string s

def asReadItems (fl : FloatFormat F) : List (Json F) → List (Json F)
  | [] => []
  | item :: items => asRead fl item :: asReadItems fl items

def asReadFields (fl : FloatFormat F) : List (Bytes × Json F) → List (Bytes × Json F)
  | [] => []
  | field :: fields => asReadField fl field :: asReadFields fl fields

def asReadField (fl : FloatFormat F) : Bytes × Json F → Bytes × Json F
  | (key, value) => (key, asRead fl value)

end

section
variable {fl : FloatFormat F} {g : Json F → Json F}

theorem asReadItems_eq (items : List (Json F)) : asReadItems fl items = items.map (asRead fl) := by
  induction items with
  | nil => rfl
  | cons item items ih => rw [asReadItems, ih, List.map_cons]

theorem asReadFields_eq (fields : List (Bytes × Json F)) :
    asReadFields fl fields = fields.map fun field => (field.1, asRead fl field.2) := by
  induction fields with
  | nil => rfl
  | cons field fields ih => rw [asReadFields, ih, List.map_cons, asReadField]

theorem isUtf8Items_eq (items : List (Json F)) : isUtf8Items items = items.all isUtf8 := by
  induction items with
  | nil => rfl
  | cons item items ih => rw [isUtf8Items, ih, List.all_cons]

theorem isUtf8Fields_eq (fields : List (Bytes × Json F)) :
    isUtf8Fields fields = fields.all fun field => Utf8.valid field.1 && isUtf8 field.2 := by
  induction fields with
  | nil => rfl
  | cons field fields ih => rw [isUtf8Fields, ih, List.all_cons, isUtf8Field]

theorem textItems_congr : ∀ {items : List (Json F)},
    (∀ v ∈ items, text fl (g v) = text fl v) → textItems fl (items.map g) = textItems fl items := by
  intro items
  induction items with
  | nil => intro _; rfl
  | cons item items ih =>
    intro h
    rw [List.map_cons, textItems, textItems, h item List.mem_cons_self,
      ih fun v hv => h v (List.mem_cons_of_mem _ hv)]

theorem textFields_congr : ∀ {fields : List (Bytes × Json F)},
    (∀ field ∈ fields, text fl (g field.2) = text fl field.2) →
    textFields fl (fields.map fun field => (field.1, g field.2)) = textFields fl fields := by
  intro fields
  induction fields with
  | nil => intro _; rfl
  | cons field fields ih =>
    intro h
    rw [List.map_cons, textFields, textFields, textField, textField, h field List.mem_cons_self,
      ih fun f hf => h f (List.mem_cons_of_mem _ hf)]

theorem text_asRead (h : Storable v) : text fl (asRead fl v) = text fl v := by
  induction h with
  | null | bool _ | int _ | string _ => rfl
  | float x =>
    simp only [asRead]
    split
    · rename_i hnull
      rw [text, text, hnull]
    · rfl
  | @array items h ih =>
    rw [asRead, asReadItems_eq]
    cases items with
    | nil => rfl
    | cons item items =>
      rw [List.map_cons, text, text, ih item List.mem_cons_self,
        textItems_congr fun v hv => ih v (List.mem_cons_of_mem _ hv)]
  | @object fields hsorted h ih =>
    rw [asRead, asReadFields_eq]
    cases fields with
    | nil => rfl
    | cons field fields =>
      rw [List.map_cons, text, text, textField, textField, ih field List.mem_cons_self,
        textFields_congr fun f hf => ih f (List.mem_cons_of_mem _ hf)]

theorem readable_asRead (hfl : ∀ x, fl.Exact x ∨ fl.write x = ascii "null") (h : Storable v)
    (hutf8 : isUtf8 v) : Readable fl (asRead fl v) := by
  induction h with
  | null => exact .null
  | bool b => exact .bool b
  | int hfits => exact .int hfits
  | string s => exact .string hutf8
  | float x =>
    simp only [asRead]
    split
    · exact .null
    · rename_i hnull
      exact .float ((hfl x).resolve_right hnull)
  | @array items h ih =>
    rw [isUtf8, isUtf8Items_eq, List.all_eq_true] at hutf8
    rw [asRead, asReadItems_eq]
    refine .array fun v hv => ?_
    obtain ⟨item, hitem, rfl⟩ := List.mem_map.mp hv
    exact ih item hitem (hutf8 item hitem)
  | @object fields hsorted h ih =>
    rw [isUtf8, isUtf8Fields_eq, List.all_eq_true] at hutf8
    rw [asRead, asReadFields_eq]
    have hfields : ∀ field ∈ fields, Utf8.valid field.1 ∧ isUtf8 field.2 = true := by
      intro field hfield
      simpa using hutf8 field hfield
    refine .object ?_ (fun field hfield => ?_) fun field hfield => ?_
    · rw [List.map_map]
      exact hsorted
    all_goals obtain ⟨field, hold, rfl⟩ := List.mem_map.mp hfield
    · exact (hfields field hold).1
    · exact ih field hold (hfields field hold).2

end

section
variable (fl : FloatFormat F)

theorem storable_asRead (h : Storable v) : Storable (asRead fl v) := by
  induction h with
  | null => exact .null
  | bool b => exact .bool b
  | int hfits => exact .int hfits
  | string s => exact .string s
  | float x =>
    simp only [asRead]
    split
    · exact .null
    · exact .float x
  | @array items h ih =>
    rw [asRead, asReadItems_eq]
    refine .array fun v hv => ?_
    obtain ⟨item, hitem, rfl⟩ := List.mem_map.mp hv
    exact ih item hitem
  | @object fields hsorted h ih =>
    rw [asRead, asReadFields_eq]
    refine .object ?_ fun field hfield => ?_
    · rw [List.map_map]
      exact hsorted
    · obtain ⟨field, hold, rfl⟩ := List.mem_map.mp hfield
      exact ih field hold

theorem isUtf8_asRead (h : Storable v) : isUtf8 (asRead fl v) = isUtf8 v := by
  induction h with
  | null | bool _ | int _ | string _ => rfl
  | float x =>
    simp only [asRead]
    split <;> rfl
  | array _ ih =>
    rw [asRead, isUtf8, isUtf8, asReadItems_eq, isUtf8Items_eq, isUtf8Items_eq, List.all_map,
      Bool.eq_iff_iff, List.all_eq_true, List.all_eq_true]
    exact forall₂_congr fun v hv => by rw [Function.comp, ih v hv]
  | object _ _ ih =>
    rw [asRead, isUtf8, isUtf8, asReadFields_eq, isUtf8Fields_eq, isUtf8Fields_eq, List.all_map,
      Bool.eq_iff_iff, List.all_eq_true, List.all_eq_true]
    exact forall₂_congr fun field hfield => by rw [Function.comp, ih field hfield]

/-- What the text of a value is read as. -/
def Value.reread (v : Value F) : Value F := ⟨asRead fl v.1, storable_asRead fl v.2⟩

end

theorem parse_dump (fl : FloatCodec F) (h : Storable v) (hdump : dump fl.toFloatFormat v = some s) :
    parse fl.toFloatFormat s = some (asRead fl.toFloatFormat v) := by
  unfold dump at hdump
  split at hdump
  · rename_i hutf8
    cases hdump
    have hend : Delimited [] := by simp [Delimited]
    have hparse := parse_text (readable_asRead fl.written h hutf8) hend rfl
    rwa [List.append_nil, text_asRead h] at hparse
  · cases hdump

/-! ### What is read is a value -/

section
variable {fl : FloatFormat F}

/-- A whole number fits. -/
def Token.Fits : Token F → Prop
  | .int i => fits i
  | _ => True

/-- The token that the lexer is in the middle of fits. -/
def Lex.Fits : Lex F → Prop
  | .word _ token => token.Fits
  | _ => True

theorem numberToken_fits (h : numberToken fl literal place = some token) : token.Fits := by
  revert h
  fun_cases numberToken fl literal place <;> intro h
  case case1 hfits | case3 hfits =>
    cases h
    exact hfits
  case case2 | case4 | case5 | case6 =>
    obtain ⟨x, -, rfl⟩ := Option.map_eq_some_iff.mp h
    trivial
  case case7 => cases h

theorem lexReady_fits {next : Lex F × List (Token F)} (h : lexReady b = some next) :
    next.1.Fits ∧ ∀ token ∈ next.2, token.Fits := by
  revert h
  fun_cases lexReady b <;> intro h <;> cases h
  all_goals simp [Lex.Fits, Token.Fits]

theorem unescape_fits {value : Nat} (h : unescape s high value = some st) : st.Fits := by
  revert h
  fun_cases unescape (F := F) s high value <;> intro h <;> cases h
  all_goals trivial

theorem lexEscape_fits (h : lexEscape s b = some st) : st.Fits := by
  revert h
  fun_cases lexEscape (F := F) s b <;> intro h <;> cases h
  all_goals trivial

theorem lexStep_fits {next : Lex F × List (Token F)} (hst : st.Fits)
    (h : lexStep fl st b = some next) : next.1.Fits ∧ ∀ token ∈ next.2, token.Fits := by
  revert h
  fun_cases lexStep fl st b
  case case1 => exact lexReady_fits
  case case7 htoken _ hready =>
    intro h
    cases h
    obtain ⟨hnext, htokens⟩ := lexReady_fits hready
    exact ⟨hnext, List.forall_mem_cons.mpr ⟨numberToken_fits htoken, htokens⟩⟩
  case case14 =>
    intro h
    obtain ⟨st', hescape, rfl⟩ := Option.map_eq_some_iff.mp h
    exact ⟨lexEscape_fits hescape, by simp⟩
  case case16 =>
    intro h
    obtain ⟨st', hchar, rfl⟩ := Option.map_eq_some_iff.mp h
    exact ⟨unescape_fits hchar, by simp⟩
  case case12 | case13 =>
    intro h
    obtain ⟨pending, -, rfl⟩ := Option.map_eq_some_iff.mp h
    exact ⟨trivial, by simp⟩
  all_goals
    intro h
    cases h
  all_goals simp_all [Lex.Fits, Token.Fits]

theorem lex_fits {bytes : Bytes} : ∀ {st : Lex F} {given : List (Token F)}, st.Fits →
    lex fl st bytes = some given → ∀ token ∈ given, token.Fits := by
  induction bytes with
  | nil =>
    intro st given hst h
    rw [lex] at h
    cases st with
    | number place literal =>
      obtain ⟨token, htoken, rfl⟩ := Option.map_eq_some_iff.mp h
      simpa using numberToken_fits htoken
    | ready | stopped =>
      cases h
      simp
    | word _ _ | string _ _ | escape _ | hex _ _ _ _ | low _ _ _ => cases h
  | cons b bytes ih =>
    intro st given hst h
    rw [lex] at h
    cases hstep : lexStep fl st b with
    | none => rw [hstep] at h; cases h
    | some next =>
      rw [hstep] at h
      obtain ⟨rest, hrest, rfl⟩ := Option.map_eq_some_iff.mp h
      obtain ⟨hnext, htokens⟩ := lexStep_fits hst hstep
      exact List.forall_mem_append.mpr ⟨htokens, ih hnext hrest⟩

/-- What is open holds values. -/
def Frame.Storable : Frame F → Prop
  | .array items => ∀ v ∈ items, Json.Storable v
  | .object fields | .member fields _ =>
    (fields.map Prod.fst).Pairwise (· < ·) ∧ ∀ field ∈ fields, Json.Storable field.2

/-- A value that is complete is one. -/
def Expect.Storable : Expect F → Prop
  | .done v => Json.Storable v
  | _ => True

/-- The parser has values only. -/
def Holds (next : Expect F × List (Frame F)) : Prop :=
  next.1.Storable ∧ ∀ frame ∈ next.2, frame.Storable

theorem mem_insertEntry {key : Bytes} {field : Bytes × Json F} :
    ∀ {fields : List (Bytes × Json F)}, field ∈ SortedMap.insertEntry key v fields →
      field = (key, v) ∨ field ∈ fields := by
  intro fields
  induction fields with
  | nil => intro h; simpa [SortedMap.insertEntry] using h
  | cons first fields ih =>
    intro h
    unfold SortedMap.insertEntry at h
    split at h
    · simpa using h
    · split at h
      · rcases List.mem_cons.mp h with rfl | h
        · exact .inl rfl
        · exact .inr (List.mem_cons_of_mem _ h)
      · rcases List.mem_cons.mp h with rfl | h
        · exact .inr List.mem_cons_self
        · exact (ih h).imp_right (List.mem_cons_of_mem _)

theorem deliver_holds (hv : Json.Storable v) (hstack : ∀ frame ∈ stack, frame.Storable)
    (h : deliver v stack = some next) : Holds next := by
  revert h
  fun_cases deliver v stack <;> intro h <;> cases h
  · exact ⟨hv, by simp⟩
  · obtain ⟨hframe, hrest⟩ := List.forall_mem_cons.mp hstack
    refine ⟨trivial, List.forall_mem_cons.mpr ⟨?_, hrest⟩⟩
    exact List.forall_mem_append.mpr ⟨hframe, by simpa using hv⟩
  · obtain ⟨⟨hsorted, hfields⟩, hrest⟩ := List.forall_mem_cons.mp hstack
    refine ⟨trivial, List.forall_mem_cons.mpr ⟨⟨?_, fun field hfield => ?_⟩, hrest⟩⟩
    · exact SortedMap.pairwise_insertEntry _ _ hsorted
    · rcases mem_insertEntry hfield with rfl | hfield
      · exact hv
      · exact hfields field hfield

theorem parseValue_holds (hstack : ∀ frame ∈ stack, frame.Storable) (htoken : token.Fits)
    (h : parseValue stack token = some next) : Holds next := by
  cases token with
  | beginObject =>
    cases h
    have hempty : (Frame.object (F := F) []).Storable := ⟨List.Pairwise.nil, by simp⟩
    exact ⟨trivial, List.forall_mem_cons.mpr ⟨hempty, hstack⟩⟩
  | beginArray =>
    cases h
    have hempty : (Frame.array (F := F) []).Storable := fun v hv => nomatch hv
    exact ⟨trivial, List.forall_mem_cons.mpr ⟨hempty, hstack⟩⟩
  | null => exact deliver_holds .null hstack h
  | bool b => exact deliver_holds (.bool b) hstack h
  | int i => exact deliver_holds (.int htoken) hstack h
  | float x => exact deliver_holds (.float x) hstack h
  | string s => exact deliver_holds (.string s) hstack h
  | endObject | endArray | colon | comma => cases h

theorem parseStep_holds (hstack : ∀ frame ∈ stack, frame.Storable)
    (htoken : token.Fits) (h : parseStep expect stack token = some next) : Holds next := by
  revert h
  fun_cases parseStep expect stack token
  all_goals intro h
  case case1 | case3 => exact parseValue_holds hstack htoken h
  case case7 =>
    cases h
    exact ⟨trivial, hstack⟩
  case case12 => cases h
  all_goals obtain ⟨hframe, hrest⟩ := List.forall_mem_cons.mp hstack
  case case2 | case9 => exact deliver_holds (.array hframe) hrest h
  case case4 | case11 => exact deliver_holds (.object hframe.1 hframe.2) hrest h
  all_goals
    cases h
    exact ⟨trivial, List.forall_mem_cons.mpr ⟨hframe, hrest⟩⟩

theorem parseTokens_storable : ∀ {expect : Expect F}
    {stack : List (Frame F)} {v : Json F}, Holds (expect, stack) → (∀ token ∈ given, token.Fits) →
    parseTokens expect stack given = some v → Storable v := by
  induction given with
  | nil =>
    intro expect stack v hholds _ h
    cases expect with
    | done w =>
      cases h
      exact hholds.1
    | value | valueOrEnd | keyOrEnd | key | colon | next => cases h
  | cons token given ih =>
    intro expect stack v hholds hfits h
    rw [parseTokens] at h
    obtain ⟨htoken, hrest⟩ := List.forall_mem_cons.mp hfits
    cases hstep : parseStep expect stack token with
    | none => rw [hstep] at h; cases h
    | some next =>
      rw [hstep] at h
      exact ih (parseStep_holds hholds.2 htoken hstep) hrest h

theorem storable_parse (h : parse fl s = some v) : Storable v := by
  obtain ⟨given, hgiven, hparse⟩ := Option.bind_eq_some_iff.mp h
  have hstart : (Lex.ready (F := F)).Fits := trivial
  have hholds : Holds (Expect.value (F := F), []) := ⟨trivial, by simp⟩
  exact parseTokens_storable hholds (lex_fits hstart hgiven) hparse

end

/-- `parse()`. -/
def Value.parse (fl : FloatFormat F) (s : Bytes) : Option (Value F) :=
  (Json.parse fl s).attachWith Storable fun _ h => storable_parse h

theorem Value.parse_eq_some {fl : FloatFormat F} {v : Value F} :
    Value.parse fl s = some v ↔ Json.parse fl s = some v.1 := by
  rw [Value.parse, Option.attachWith_eq_some_iff]

theorem Value.parse_eq_none {fl : FloatFormat F} :
    Value.parse fl s = none ↔ Json.parse fl s = none := by
  rw [Value.parse, Option.attachWith_eq_none_iff]

/-! ### Printable texts -/

/-- Is no byte a control character. -/
def printable (s : Bytes) : Bool := s.all fun b => 0x20 ≤ b

@[simp] theorem printable_append (s t : Bytes) : printable (s ++ t) =
    (printable s && printable t) :=
  List.all_append

@[simp] theorem printable_cons (b : UInt8) (s : Bytes) :
    printable (b :: s) = (decide (0x20 ≤ b) && printable s) := rfl

@[simp] theorem printable_nil : printable [] := rfl

theorem printable_hexDigit {n : UInt8} (h : n < 16) : 0x20 ≤ hexDigit n := by
  have hn : n.toNat < 16 := UInt8.lt_iff_toNat_lt.mp h
  rw [← UInt8.ofNat_toNat (x := n)]
  generalize n.toNat = k at hn
  interval_cases k <;> decide

theorem printable_escapeByte (b : UInt8) : printable (escapeByte b) := by
  unfold escapeByte
  split_ifs with h08 h09 h0A h0C h0D h22 h5C hcontrol
  · rfl
  · rfl
  · rfl
  · rfl
  · rfl
  · rfl
  · rfl
  · have hhigh : b / 16 < 16 := by
      rw [UInt8.lt_iff_toNat_lt, UInt8.toNat_div]
      have hlow : b.toNat < 32 := UInt8.lt_iff_toNat_lt.mp hcontrol
      show b.toNat / 16 < 16
      omega
    have hlow : b % 16 < 16 := by
      rw [UInt8.lt_iff_toNat_lt, UInt8.toNat_mod]
      exact Nat.mod_lt _ (by decide)
    simp [printable_hexDigit hhigh, printable_hexDigit hlow, show printable (ascii "\\u00")
      from rfl]
  · simpa using hcontrol

theorem printable_dumpString (s : Bytes) : printable (dumpString s) := by
  have hbody : printable (s.flatMap escapeByte) := by
    induction s with
    | nil => rfl
    | cons b s ih => rw [List.flatMap_cons, printable_append, printable_escapeByte, ih]; rfl
  simp [dumpString, hbody]

theorem printable_dumpNat (n : Nat) : printable (dumpNat n) := by
  unfold dumpNat
  split
  · rfl
  · rw [printable, List.all_eq_true]
    intro b hb
    obtain ⟨d, hd, rfl⟩ := List.mem_map.mp (List.mem_reverse.mp hb)
    have hlt : d < 10 := Nat.digits_lt_base (by decide) hd
    interval_cases d <;> decide

theorem printable_dumpInt (i : Int) : printable (dumpInt i) := by
  unfold dumpInt
  split <;> simp [printable_dumpNat]

theorem printable_next {place' : NumberPlace} (h : place.next b = some place') : 0x20 ≤ b := by
  by_contra hlow
  have hn : b.toNat < 0x20 := UInt8.lt_iff_toNat_lt.mp (not_le.mp hlow)
  rw [← UInt8.ofNat_toNat (x := b)] at h
  generalize b.toNat = n at hn h
  interval_cases n <;> cases place <;> cases h

theorem printable_after : ∀ {bytes : Bytes} {place place' : NumberPlace},
    place.after bytes = some place' → printable bytes := by
  intro bytes
  induction bytes with
  | nil => intro _ _ _; rfl
  | cons b bytes ih =>
    intro place place' h
    obtain ⟨next, hnext, hrest⟩ := Option.bind_eq_some_iff.mp h
    simp [printable_next hnext, ih hrest]

theorem printable_number (h : EndsAt literal place) : printable literal := by
  obtain ⟨b, rest, first, rfl, hfirst, hafter⟩ := h
  have hb : 0x20 ≤ b := by
    unfold NumberPlace.first at hfirst
    split at hfirst
    · rename_i hminus
      rw [hminus]
      decide
    · exact printable_next hfirst
  simp [hb, printable_after hafter]

section
variable (fl : FloatCodec F)

theorem printable_items {items : List (Json F)}
    (h : ∀ v ∈ items, printable (text fl.toFloatFormat v)) :
    printable (textItems fl.toFloatFormat items) := by
  induction items with
  | nil => rfl
  | cons item items ih =>
    rw [textItems, printable_cons, printable_append, h item List.mem_cons_self,
      ih fun v hv => h v (List.mem_cons_of_mem _ hv)]
    rfl

theorem printable_fields (h : ∀ field ∈ fields, printable (textField fl.toFloatFormat field)) :
    printable (textFields fl.toFloatFormat fields) := by
  induction fields with
  | nil => rfl
  | cons field fields ih =>
    rw [textFields, printable_cons, printable_append, h field List.mem_cons_self,
      ih fun v hv => h v (List.mem_cons_of_mem _ hv)]
    rfl

theorem printable_text (h : Storable v) : printable (text fl.toFloatFormat v) := by
  induction h with
  | null => rfl
  | bool b => cases b <;> rfl
  | int h => exact printable_dumpInt _
  | string s => exact printable_dumpString s
  | float x =>
    rcases fl.written x with ⟨⟨place, hends, -⟩, -⟩ | hnull
    · exact printable_number hends
    · rw [text, hnull]
      rfl
  | @array items h ih =>
    cases items with
    | nil => rfl
    | cons item items =>
      rw [text, printable_cons, printable_append, ih item List.mem_cons_self,
        printable_items fl fun v hv => ih v (List.mem_cons_of_mem _ hv)]
      rfl
  | @object fields hsorted h ih =>
    have hfield : ∀ field ∈ fields, printable (textField fl.toFloatFormat field) := by
      intro field hfield
      rw [textField, printable_append, printable_cons, printable_dumpString, ih field hfield]
      rfl
    cases fields with
    | nil => rfl
    | cons field fields =>
      rw [text, printable_cons, printable_append, hfield field List.mem_cons_self,
        printable_fields fl fun f hf => hfield f (List.mem_cons_of_mem _ hf)]
      rfl

end

theorem printable_dump (fl : FloatCodec F) (h : Storable v)
    (hdump : dump fl.toFloatFormat v = some s) : printable s := by
  unfold dump at hdump
  split at hdump
  · cases hdump
    exact printable_text fl h
  · cases hdump

/-! ### Texts that are cut off -/

section
variable {fl : FloatFormat F} {more : List (Token F)}

/-- What the lexer is in the middle of after some bytes, and the tokens of these. -/
def lexFrom (fl : FloatFormat F) : Lex F → Bytes → Option (Lex F × List (Token F))
  | st, [] => some (st, [])
  | st, b :: rest =>
    (lexStep fl st b).bind fun next =>
      (lexFrom fl next.1 rest).map fun last => (last.1, next.2 ++ last.2)

theorem lex_cons (st : Lex F) (b : UInt8) (rest : Bytes) : lex fl st (b :: rest) =
      (lexStep fl st b).bind fun next => (lex fl next.1 rest).map (next.2 ++ ·) := by
  rw [lex]
  cases lexStep fl st b <;> rfl

theorem lex_append (q : Bytes) : ∀ (p : Bytes) (st : Lex F),
    lex fl st (p ++ q) = (lexFrom fl st p).bind fun last =>
      (lex fl last.1 q).map (last.2 ++ ·) := by
  intro p
  induction p with
  | nil => intro st; simp [lexFrom]
  | cons b p ih =>
    intro st
    rw [List.cons_append, lex_cons, lexFrom]
    cases lexStep fl st b with
    | none => rfl
    | some next =>
      simp only [Option.bind_some, ih next.1]
      cases lexFrom fl next.1 p with
      | none => rfl
      | some last => simp [Function.comp_def]

theorem lexReady_running (hb : b ≠ 0) {next : Lex F × List (Token F)} (h : lexReady b = some next) :
    next.1 ≠ .stopped := by
  revert h
  fun_cases lexReady b <;> intro h <;> cases h
  all_goals first | contradiction | exact fun hstop => nomatch hstop

theorem unescape_running {value : Nat} (h : unescape s high value = some st) : st ≠ .stopped := by
  revert h
  fun_cases unescape (F := F) s high value <;> intro h <;> cases h
  all_goals exact fun hstop => nomatch hstop

theorem lexEscape_running (h : lexEscape s b = some st) : st ≠ .stopped := by
  revert h
  fun_cases lexEscape (F := F) s b <;> intro h <;> cases h
  all_goals exact fun hstop => nomatch hstop

theorem lexStep_running {next : Lex F × List (Token F)} (hst : st ≠ .stopped) (hb : b ≠ 0)
    (h : lexStep fl st b = some next) : next.1 ≠ .stopped := by
  revert h
  fun_cases lexStep fl st b
  case case1 => exact lexReady_running hb
  case case7 hready =>
    intro h
    cases h
    have hrunning := lexReady_running hb hready
    exact hrunning
  case case14 =>
    intro h
    obtain ⟨st', hescape, rfl⟩ := Option.map_eq_some_iff.mp h
    exact lexEscape_running hescape
  case case16 =>
    intro h
    obtain ⟨st', hchar, rfl⟩ := Option.map_eq_some_iff.mp h
    exact unescape_running hchar
  case case12 | case13 =>
    intro h
    obtain ⟨pending, -, rfl⟩ := Option.map_eq_some_iff.mp h
    exact fun hstop => nomatch hstop
  case case22 => exact absurd rfl hst
  all_goals
    intro h
    cases h
  all_goals exact fun hstop => nomatch hstop

theorem lexFrom_running {bytes : Bytes} : ∀ {st : Lex F} {last : Lex F × List (Token F)},
    st ≠ .stopped → printable bytes → lexFrom fl st bytes = some last → last.1 ≠ .stopped := by
  induction bytes with
  | nil =>
    intro st last hst _ h
    cases h
    exact hst
  | cons b bytes ih =>
    intro st last hst hprintable h
    obtain ⟨next, hstep, hrest⟩ := Option.bind_eq_some_iff.mp h
    obtain ⟨last, hlast, rfl⟩ := Option.map_eq_some_iff.mp hrest
    rw [printable_cons, Bool.and_eq_true, decide_eq_true_eq] at hprintable
    have hb : b ≠ 0 := by
      rintro rfl
      exact absurd hprintable.1 (by decide)
    have hrunning := ih (lexStep_running hst hb hstep) hprintable.2 hlast
    exact hrunning

theorem lex_brace (hst : st ≠ .stopped) (h : lex fl st [0x7D] = some given) : given ≠ [] := by
  rw [lex_cons] at h
  obtain ⟨next, hstep, hend⟩ := Option.bind_eq_some_iff.mp h
  obtain ⟨ending, hending, rfl⟩ := Option.map_eq_some_iff.mp hend
  rw [lex] at hending
  cases st with
  | ready =>
    have hready : lexStep fl .ready 0x7D = some (.ready, [.endObject]) := rfl
    rw [hready] at hstep
    cases hstep
    simp
  | word rest token =>
    cases rest with
    | nil => cases hstep
    | cons c rest =>
      simp only [lexStep] at hstep
      split_ifs at hstep <;> cases hstep
      · simp
      · cases hending
  | number place literal =>
    simp only [lexStep, show place.next 0x7D = none by cases place <;> rfl] at hstep
    split at hstep
    · cases hstep
      simp
    · cases hstep
  | string s pending =>
    -- the brace is in the string
    cases pending with
    | nil =>
      cases hstep
      cases hending
    | cons range pending =>
      obtain ⟨pending', -, rfl⟩ := Option.map_eq_some_iff.mp hstep
      cases hending
  | escape s | hex s high left value => cases hstep
  | low s high slash => cases slash <;> cases hstep
  | stopped => exact absurd rfl hst

/-! What the parser does with a part of the tokens. -/

theorem parseTokens_whole {w w' : Json F} : ∀ {given : List (Token F)}
    {expect : Expect F} {stack : List (Frame F)}, parseTokens expect stack given = some w' →
    parseTokens expect stack (given ++ more) = some w → more = [] := by
  intro given
  induction given with
  | nil =>
    intro expect stack hshort hlong
    cases expect with
    | done v =>
      cases more with
      | nil => rfl
      | cons token more => cases stack <;> cases hlong
    | value | valueOrEnd | keyOrEnd | key | colon | next => cases hshort
  | cons token given ih =>
    intro expect stack hshort hlong
    rw [List.cons_append, parseTokens] at hlong
    rw [parseTokens] at hshort
    cases hstep : parseStep expect stack token with
    | none => rw [hstep] at hshort; cases hshort
    | some next =>
      rw [hstep] at hshort hlong
      exact ih hshort hlong

/-- Something is open, or the value is complete. -/
def Inside (expect : Expect F) (stack : List (Frame F)) : Prop :=
  stack ≠ [] ∨ ∃ v, expect = .done v

theorem deliver_inside (h : deliver v stack = some next) : Inside next.1 next.2 := by
  revert h
  fun_cases deliver v stack <;> intro h <;> cases h
  · exact .inr ⟨v, rfl⟩
  · exact .inl (List.cons_ne_nil _ _)
  · exact .inl (List.cons_ne_nil _ _)

theorem parseValue_inside (h : parseValue stack token = some next) : Inside next.1 next.2 := by
  cases token with
  | beginObject | beginArray =>
    cases h
    exact .inl (List.cons_ne_nil _ _)
  | null | bool _ | int _ | float _ | string _ => exact deliver_inside h
  | endObject | endArray | colon | comma => cases h

theorem parseStep_inside (hinside : Inside expect stack)
    (h : parseStep expect stack token = some next) : Inside next.1 next.2 := by
  revert h
  fun_cases parseStep expect stack token
  all_goals intro h
  case case1 | case3 => exact parseValue_inside h
  case case2 | case4 | case9 | case11 => exact deliver_inside h
  case case5 | case6 | case8 | case10 =>
    cases h
    exact .inl (List.cons_ne_nil _ _)
  case case7 =>
    cases h
    exact .inl (hinside.resolve_right fun hdone => nomatch hdone)
  case case12 => cases h

theorem parseTokens_number (hnumber : (∃ i, token = .int i) ∨ ∃ x, token = .float x)
    : ∀ {given : List (Token F)} {expect : Expect F} {stack : List (Frame F)}, Inside expect stack →
    parseTokens expect stack (given ++ [token]) = none := by
  intro given
  induction given with
  | nil =>
    intro expect stack hinside
    cases stack with
    | nil =>
      obtain ⟨v, rfl⟩ := hinside.resolve_left fun hne => hne rfl
      rfl
    | cons frame stack =>
      rcases hnumber with ⟨i, rfl⟩ | ⟨x, rfl⟩ <;> cases expect <;> cases frame <;> rfl
  | cons first given ih =>
    intro expect stack hinside
    rw [List.cons_append, parseTokens]
    cases hstep : parseStep expect stack first with
    | none => rfl
    | some next => exact ih (parseStep_inside hinside hstep)

theorem numberToken_number (h : numberToken fl literal place = some token) :
    (∃ i, token = .int i) ∨ ∃ x, token = .float x := by
  revert h
  fun_cases numberToken fl literal place <;> intro h
  case case1 | case3 => exact .inl ⟨_, (Option.some.inj h).symm⟩
  case case2 | case4 | case5 | case6 =>
    obtain ⟨x, -, rfl⟩ := Option.map_eq_some_iff.mp h
    exact .inr ⟨x, rfl⟩
  case case7 => cases h

theorem textFields_last (fl : FloatFormat F) (fields : List (Bytes × Json F)) :
    ∃ body, textFields fl fields = body ++ [0x7D] := by
  induction fields with
  | nil => exact ⟨[], rfl⟩
  | cons field fields ih =>
    obtain ⟨body, hbody⟩ := ih
    exact ⟨0x2C :: (textField fl field ++ body), by rw [textFields, hbody]; simp⟩

theorem text_object (fl : FloatFormat F) (fields : List (Bytes × Json F)) :
    ∃ body, text fl (.object fields) = 0x7B :: (body ++ [0x7D]) := by
  cases fields with
  | nil => exact ⟨[], rfl⟩
  | cons field fields =>
    obtain ⟨body, hbody⟩ := textFields_last fl fields
    exact ⟨textField fl field ++ body, by rw [text, hbody]; simp⟩

theorem lex_more {q : Bytes} (hst : st ≠ .stopped)
    (hq : printable q) (h : lex fl st (q ++ [0x7D]) = some more) : more ≠ [] := by
  rw [lex_append] at h
  obtain ⟨last, hfrom, hbrace⟩ := Option.bind_eq_some_iff.mp h
  obtain ⟨given, hgiven, rfl⟩ := Option.map_eq_some_iff.mp hbrace
  have hrunning := lexFrom_running hst hq hfrom
  exact List.append_ne_nil_of_right_ne_nil _ (lex_brace hrunning hgiven)

/-- The beginning of an object's text is no text on its own. -/
theorem parse_part {p q : Bytes} {w : Json F} (hp : printable p)
    (hq : printable q) (h : parse fl (0x7B :: (p ++ (q ++ [0x7D]))) = some w) :
    parse fl (0x7B :: p) = none := by
  have hfirst (rest : Bytes) : parse fl (0x7B :: rest) =
      (lex fl .ready rest).bind fun given => parseTokens .keyOrEnd [.object []] given := by
    show (lex fl .ready (0x7B :: rest)).bind _ = _
    rw [lex_cons]
    show ((lex fl .ready rest).map ([Token.beginObject] ++ ·)).bind _ = _
    rw [Option.bind_map]
    rfl
  rw [hfirst, lex_append] at h
  rw [hfirst, ← List.append_nil p, lex_append]
  obtain ⟨given, hgiven, hwhole⟩ := Option.bind_eq_some_iff.mp h
  obtain ⟨last, hfrom, hlast⟩ := Option.bind_eq_some_iff.mp hgiven
  obtain ⟨more, hmore, rfl⟩ := Option.map_eq_some_iff.mp hlast
  have hrunning : last.1 ≠ .stopped := by
    refine lexFrom_running ?_ hp hfrom
    exact fun hstop => nomatch hstop
  rw [hfrom, Option.bind_some, lex]
  cases hst : last.1 with
  | ready =>
    -- the parser would have a value, and takes no token of the rest
    cases hpart : parseTokens .keyOrEnd [.object []] last.2 with
    | none => simp [lexEnd, hpart]
    | some w' => exact absurd (parseTokens_whole hpart hwhole) (lex_more hrunning hq hmore)
  | number place literal =>
    -- the number that the end of the text would complete belongs to the object
    cases htoken : numberToken fl literal place with
    | none => simp [lexEnd, htoken]
    | some token =>
      have hinside : Inside Expect.keyOrEnd [Frame.object (F := F) []] :=
        .inl (List.cons_ne_nil _ _)
      have hnone : parseTokens .keyOrEnd [.object []] (last.2 ++ [token]) = none :=
        parseTokens_number (numberToken_number htoken) hinside
      simpa [lexEnd, htoken] using hnone
  | stopped => exact absurd hst hrunning
  | word _ _ | string _ _ | escape _ | hex _ _ _ _ | low _ _ _ => rfl

end

/-- What was cut off of the text of an object leaves no text. -/
theorem parse_cut (fl : FloatCodec F) {p : Bytes}
    (h : Storable (.object fields)) (hdump : dump fl.toFloatFormat (.object fields) = some s)
    (hpart : p <+: s) (hcut : p ≠ s) : parse fl.toFloatFormat p = none := by
  have hparse := parse_dump fl h hdump
  have hprintable := printable_dump fl h hdump
  unfold dump at hdump
  split at hdump
  · obtain ⟨body, hbody⟩ := text_object fl.toFloatFormat fields
    rw [hbody] at hdump
    cases hdump
    obtain ⟨rest, hrest⟩ := hpart
    cases p with
    | nil => rfl
    | cons b p =>
      have hne : rest ≠ [] := by
        rintro rfl
        exact hcut (by simpa using hrest)
      obtain ⟨q, c, rfl⟩ := (List.eq_nil_or_concat rest).resolve_left hne
      rw [List.concat_eq_append, List.cons_append, ← List.append_assoc] at hrest
      obtain ⟨rfl, hbytes⟩ := List.cons.inj hrest
      obtain ⟨rfl, hc⟩ := List.append_inj' hbytes rfl
      rw [printable_cons, printable_append, printable_append] at hprintable
      simp only [Bool.and_eq_true] at hprintable
      rw [List.append_assoc] at hparse
      exact parse_part hprintable.2.1.1 hprintable.2.1.2 hparse
  · cases hdump

end Anolis.Lib.Json
