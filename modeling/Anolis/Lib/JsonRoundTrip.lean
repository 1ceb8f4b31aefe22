import Anolis.Lib.Json
import Mathlib.Data.Nat.Digits.Lemmas

/-!
# What `dump` writes, `parse` reads back

`parse_text`: a value whose strings are UTF-8, whose members are in the order of their keys and
whose numbers fit is what `parse` reads from its text. Blanks may follow the text.

The lexer and the parser are taken separately. `lex_text` says that the lexer reads from a text the
tokens of its value (`tokens`), and `parseTokens_tokens` that the parser reads the value from them.
A number ends only with the byte behind it, so `lex_text` is for texts that go on with a byte that
is not a number's (`Delimited`), as the texts inside arrays and objects do.
-/

namespace Anolis.Lib.Json

variable {F : Type} {fl : FloatFormat F}

/-! ### The values that can be read back -/

/-- The place after further bytes of a number. -/
def NumberPlace.after : NumberPlace → Bytes → Option NumberPlace
  | place, [] => some place
  | place, b :: rest => (place.next b).bind fun place' => place'.after rest

/-- The literal ends at a place. -/
def EndsAt (literal : Bytes) (place : NumberPlace) : Prop :=
  ∃ b rest first, literal = b :: rest ∧ NumberPlace.first b = some first ∧
    first.after rest = some place

/-- The number is written as a literal that is no whole number, and is read as itself. -/
def FloatFormat.Exact (fl : FloatFormat F) (x : F) : Prop :=
  (∃ place, EndsAt (fl.write x) place ∧ (place = .fraction ∨ place = .power)) ∧
    fl.read (fl.write x) = some x

/-- The values that `dump` writes and `parse` reads back. -/
inductive Readable (fl : FloatFormat F) : Json F → Prop
  | null : Readable fl .null
  | bool (b : Bool) : Readable fl (.bool b)
  | int {i : Int} (h : fits i) : Readable fl (.int i)
  | float {x : F} (h : fl.Exact x) : Readable fl (.float x)
  | string {s : Bytes} (h : Utf8.valid s) : Readable fl (.string s)
  | array {items : List (Json F)} (h : ∀ v ∈ items, Readable fl v) : Readable fl (.array items)
  | object {fields : List (Bytes × Json F)} (hsorted : (fields.map Prod.fst).Pairwise (· < ·))
      (hkeys : ∀ field ∈ fields, Utf8.valid field.1)
      (h : ∀ field ∈ fields, Readable fl field.2) : Readable fl (.object fields)

mutual

/-- The tokens of a value. -/
def tokens : Json F → List (Token F)
  | .null => [.null]
  | .bool b => [.bool b]
  | .int i => [.int i]
  | .float x => [.float x]
  | .string s => [.string s]
  | .array [] => [.beginArray, .endArray]
  | .array (item :: items) => .beginArray :: (tokens item ++ tokensItems items)
  | .object [] => [.beginObject, .endObject]
  | .object (field :: fields) => .beginObject :: (tokensField field ++ tokensFields fields)

def tokensItems : List (Json F) → List (Token F)
  | [] => [.endArray]
  | item :: items => .comma :: (tokens item ++ tokensItems items)

def tokensFields : List (Bytes × Json F) → List (Token F)
  | [] => [.endObject]
  | field :: fields => .comma :: (tokensField field ++ tokensFields fields)

def tokensField : Bytes × Json F → List (Token F)
  | (key, value) => .string key :: .colon :: tokens value

end

/-! ### Reading numbers -/

/-- The text goes on with a byte that is not a number's, or ends. -/
def Delimited (rest : Bytes) : Prop :=
  ∀ b ∈ rest.head?, ∀ place : NumberPlace, place.next b = none

variable {b : UInt8}

theorem delimited_cons (h : b = 0x2C ∨ b = 0x5D ∨ b = 0x7D ∨ b = 0x0A) (rest : Bytes) :
    Delimited (b :: rest) := by
  intro c hc place
  obtain rfl : b = c := by simpa using hc
  rcases h with rfl | rfl | rfl | rfl <;> cases place <;> decide

variable {token : Token F} {rest : Bytes} {fields : List (Bytes × Json F)} {field : Bytes × Json F}
  {items : List (Json F)}

theorem lex_number_from (hrest : Delimited rest) :
    ∀ (bytes : Bytes) (place place' : NumberPlace) (literal : Bytes),
      place.after bytes = some place' →
      numberToken fl (literal ++ bytes) place' = some token →
      lex fl (.number place literal) (bytes ++ rest) = (lex fl .ready rest).map (token :: ·) := by
  intro bytes
  induction bytes with
  | nil =>
    intro place place' literal hplace htoken
    obtain rfl : place = place' := Option.some.inj hplace
    rw [List.append_nil] at htoken
    cases rest with
    | nil => simp [lex, lexEnd, htoken]
    | cons b rest =>
      have hnext : place.next b = none := hrest b rfl place
      simp only [List.nil_append, lex, lexStep, hnext, htoken]
      cases lexReady (F := F) b with
      | none => rfl
      | some r => simp [Option.map_map, Function.comp_def]
  | cons b bytes ih =>
    intro place place' literal hplace htoken
    obtain ⟨next, hnext, hafter⟩ := Option.bind_eq_some_iff.mp hplace
    have hrest := ih next place' (literal ++ [b]) hafter (by simpa using htoken)
    simp only [List.cons_append, lex, lexStep, hnext, hrest, List.nil_append, Option.map_id']

theorem lex_number {literal : Bytes} {place : NumberPlace}
    (hends : EndsAt literal place) (htoken : numberToken fl literal place = some token)
    (hrest : Delimited rest) :
    lex fl .ready (literal ++ rest) = (lex fl .ready rest).map (token :: ·) := by
  obtain ⟨b, bytes, first, rfl, hfirst, hafter⟩ := hends
  have hnumber : lex fl (.number first [b]) (bytes ++ rest) = _ :=
    lex_number_from hrest bytes first place [b] hafter htoken
  simp only [List.cons_append, lex, lexStep, lexReady, hfirst, hnumber, List.nil_append,
    Option.map_id']

theorem after_digits : ∀ {bytes : Bytes}, (∀ b ∈ bytes, isDigit b) →
    NumberPlace.digits.after bytes = some .digits := by
  intro bytes
  induction bytes with
  | nil => intro _; rfl
  | cons b bytes ih =>
    intro h
    have hb : NumberPlace.digits.next b = some .digits := by simp [NumberPlace.next, h b]
    simp only [NumberPlace.after, hb, Option.bind_some]
    exact ih fun c hc => h c (List.mem_cons_of_mem _ hc)

theorem digit_byte {d : Nat} (h : d < 10) :
    isDigit (0x30 + UInt8.ofNat d) ∧ (0x30 + UInt8.ofNat d).toNat - 0x30 = d ∧
      (d ≠ 0 → 0x30 + UInt8.ofNat d ≠ 0x30) := by
  interval_cases d <;> decide

/-- Where the digits of a number end, whatever is before them. -/
theorem after_dumpNat (n : Nat) :
    ∃ b rest place, dumpNat n = b :: rest ∧ NumberPlace.minus.next b = some place ∧
      (place.after rest = some .zero ∨ place.after rest = some .digits) ∧ b ≠ 0x2D := by
  unfold dumpNat
  split
  · exact ⟨0x30, [], .zero, rfl, rfl, .inl rfl, by decide⟩
  · rename_i hn
    -- the digits come with the lowest first, so the last one is the first byte
    have hlast := Nat.getLast_digit_ne_zero 10 hn
    have hne : Nat.digits 10 n ≠ [] := Nat.digits_ne_nil_iff_ne_zero.mpr hn
    generalize hlow : (Nat.digits 10 n).getLast hne = high at hlast
    have hsplit : Nat.digits 10 n = (Nat.digits 10 n).dropLast ++ [high] := by
      rw [← hlow, List.dropLast_append_getLast]
    have hsmall : ∀ d ∈ Nat.digits 10 n, d < 10 := fun d hd => Nat.digits_lt_base (by decide) hd
    rw [hsplit] at hsmall ⊢
    have hhigh : high < 10 := hsmall high (by simp)
    obtain ⟨hdigit, -, hzero⟩ := digit_byte hhigh
    refine ⟨0x30 + UInt8.ofNat high, _, .digits, by rw [List.map_append, List.reverse_append]; rfl,
      ?_, .inr (after_digits fun b hb => ?_), ?_⟩
    · simp only [NumberPlace.next, if_neg (hzero hlast), hdigit, if_true]
    · obtain ⟨d, hd, rfl⟩ := List.mem_map.mp (List.mem_reverse.mp hb)
      exact (digit_byte (hsmall d (List.mem_append_left _ hd))).1
    · intro heq
      rw [heq] at hdigit
      cases hdigit

theorem natOf_dumpNat (n : Nat) : natOf (dumpNat n) = n := by
  unfold dumpNat
  split
  · rename_i hn
    rw [hn]
    rfl
  · have hvalue : ∀ digits : List Nat, (∀ d ∈ digits, d < 10) →
        natOf ((digits.map fun d => 0x30 + UInt8.ofNat d).reverse) = Nat.ofDigits 10 digits := by
      intro digits
      induction digits with
      | nil => intro _; rfl
      | cons d digits ih =>
        intro h
        have hd := (digit_byte (h d (by simp))).2.1
        have hrest := ih fun e he => h e (List.mem_cons_of_mem _ he)
        unfold natOf at hrest ⊢
        rw [List.map_cons, List.reverse_cons, List.foldl_append, hrest, Nat.ofDigits_cons]
        simp only [List.foldl_cons, List.foldl_nil, hd]
        omega
    rw [hvalue _ fun d hd => Nat.digits_lt_base (by decide) hd, Nat.ofDigits_digits]

theorem intOf_dumpInt (i : Int) : intOf (dumpInt i) = i := by
  unfold dumpInt
  split
  · simp only [intOf, if_true, natOf_dumpNat]
    omega
  · obtain ⟨b, rest, place, hb, -, -, hminus⟩ := after_dumpNat i.natAbs
    rw [hb, intOf, if_neg hminus, ← hb, natOf_dumpNat]
    omega

theorem lex_int {i : Int} (h : fits i) (hrest : Delimited rest) :
    lex fl .ready (dumpInt i ++ rest) = (lex fl .ready rest).map (.int i :: ·) := by
  obtain ⟨b, bytes, place, hb, hplace, hafter, hminus⟩ := after_dumpNat i.natAbs
  have hends : EndsAt (dumpInt i) .zero ∨ EndsAt (dumpInt i) .digits := by
    unfold dumpInt
    rw [hb]
    split
    · refine hafter.imp (fun hafter => ?_) fun hafter => ?_
      all_goals
        exact ⟨0x2D, b :: bytes, .minus, rfl, rfl, by simp [NumberPlace.after, hplace, hafter]⟩
    · have hfirst : NumberPlace.first b = some place := by
        rw [NumberPlace.first, if_neg hminus, hplace]
      exact hafter.imp (fun hafter => ⟨b, bytes, place, rfl, hfirst, hafter⟩)
        fun hafter => ⟨b, bytes, place, rfl, hfirst, hafter⟩
  rcases hends with hends | hends
  all_goals
    refine lex_number hends ?_ hrest
    simp only [numberToken, intOf_dumpInt, h, if_true]

theorem lex_float {x : F} (h : fl.Exact x) (hrest : Delimited rest) :
    lex fl .ready (fl.write x ++ rest) = (lex fl .ready rest).map (.float x :: ·) := by
  obtain ⟨⟨place, hends, rfl | rfl⟩, hread⟩ := h
  all_goals
    refine lex_number hends ?_ hrest
    simp [numberToken, hread]

/-! ### Reading strings -/

/-- The digits of a control character are read as its value. -/
theorem hexValue_control (h : b < 0x20) : hexValue (hexDigit (b / 16)) = some (b.toNat / 16) ∧
      hexValue (hexDigit (b % 16)) = some (b.toNat % 16) ∧ b.toNat < 0x20 := by
  have hn : b.toNat < 0x20 := UInt8.lt_iff_toNat_lt.mp h
  rw [← UInt8.ofNat_toNat (x := b)]
  generalize b.toNat = n at hn
  interval_cases n <;> decide

theorem lex_step {st : Lex F} (st' : Lex F) (h : lexStep fl st b = some (st', []))
    (rest : Bytes) : lex fl st (b :: rest) = lex fl st' rest := by
  simp only [lex, h, List.nil_append, Option.map_id']

theorem lex_token {st : Lex F} (token : Token F)
    (h : lexStep fl st b = some (.ready, [token])) (rest : Bytes) :
    lex fl st (b :: rest) = (lex fl .ready rest).map (token :: ·) := by
  simp only [lex, h, List.singleton_append]

theorem lex_short {s : Bytes} {c : UInt8}
    (h : lexEscape (F := F) s c = some (.string (s ++ [b]) [])) (rest : Bytes) :
    lex fl (.string s []) (0x5C :: c :: rest) = lex fl (.string (s ++ [b]) []) rest := by
  rw [lex_step (.escape s) rfl]
  exact lex_step _ (by simp only [lexStep, h, Option.map_some]) rest

theorem lex_control (h : b < 0x20) (s rest : Bytes) :
    lex fl (.string s []) (ascii "\\u00" ++ [hexDigit (b / 16), hexDigit (b % 16)] ++ rest) =
      lex fl (.string (s ++ [b]) []) rest := by
  obtain ⟨hhigh, hlow, hn⟩ := hexValue_control h
  have hvalue : unescape (F := F) s none (16 * (b.toNat / 16) + b.toNat % 16) =
      some (.string (s ++ [b]) []) := by
    rw [Nat.div_add_mod]
    unfold unescape encodeUtf8
    simp only [show ¬ (0xD800 ≤ b.toNat ∧ b.toNat ≤ 0xDBFF) by omega,
      show ¬ (0xDC00 ≤ b.toNat ∧ b.toNat ≤ 0xDFFF) by omega, show b.toNat < 0x80 by omega,
      if_false, if_true, UInt8.ofNat_toNat]
  show lex fl (.string s []) (0x5C :: 0x75 :: 0x30 :: 0x30 :: hexDigit (b / 16) ::
    hexDigit (b % 16) :: rest) = _
  rw [lex_step (.escape s) rfl, lex_step (.hex s none 4 0) rfl, lex_step (.hex s none 3 0) rfl,
    lex_step (.hex s none 2 0) rfl,
    lex_step (.hex s none 1 (b.toNat / 16)) (by simp [lexStep, hhigh])]
  exact lex_step _ (by simp [lexStep, hlow, hvalue]) rest

/-- A byte that starts a character is read as itself, escaped or not. -/
theorem lex_escapeByte {pending : List Utf8.Range} (h : Utf8.follow b = some pending)
    (s rest : Bytes) :
    lex fl (.string s []) (escapeByte b ++ rest) = lex fl (.string (s ++ [b]) pending) rest := by
  have hascii : b < 0x80 → pending = [] := fun hb => by
    rw [Utf8.follow_ascii hb] at h
    exact (Option.some.inj h).symm
  unfold escapeByte
  split_ifs with h08 h09 h0A h0C h0D h22 h5C hcontrol
  any_goals
    subst b
    rw [hascii (by decide)]
    exact lex_short rfl rest
  · rw [hascii (lt_trans hcontrol (by decide))]
    exact lex_control hcontrol s rest
  · -- a byte that is written as it is
    exact lex_step _ (by simp [lexStep, h22, h5C, hcontrol, h]) rest

theorem lex_continues {range : Utf8.Range} {pending pending' : List Utf8.Range}
    (hp : Utf8.Continues (range :: pending)) (h : Utf8.step (range :: pending) b = some pending')
    (s rest : Bytes) : lex fl (.string s (range :: pending)) (escapeByte b ++ rest) =
      lex fl (.string (s ++ [b]) pending') rest := by
  have hb : 0x80 ≤ b := by
    simp only [Utf8.step] at h
    split at h
    · rename_i hin
      exact le_trans (hp range (by simp)).1 hin.1
    · cases h
  have hne : ∀ c : UInt8, c < 0x80 → b ≠ c := fun c hc heq =>
    absurd (lt_of_le_of_lt (heq ▸ hb) hc) (lt_irrefl _)
  have hlt : ¬ b < 0x20 := not_lt.mpr (le_trans (by decide) hb)
  have hplain : escapeByte b = [b] := by
    unfold escapeByte
    simp only [hne _ (by decide : (0x08 : UInt8) < 0x80), hne _ (by decide : (0x09 : UInt8) < 0x80),
      hne _ (by decide : (0x0A : UInt8) < 0x80), hne _ (by decide : (0x0C : UInt8) < 0x80),
      hne _ (by decide : (0x0D : UInt8) < 0x80), hne _ (by decide : (0x22 : UInt8) < 0x80),
      hne _ (by decide : (0x5C : UInt8) < 0x80), hlt, if_false]
  rw [hplain]
  exact lex_step _ (by simp [lexStep, h]) rest

theorem lex_stringBody (rest : Bytes) :
    ∀ (bytes s : Bytes) (pending pending' : List Utf8.Range), Utf8.Continues pending →
      Utf8.run pending bytes = some pending' →
      lex fl (.string s pending) (bytes.flatMap escapeByte ++ rest) =
        lex fl (.string (s ++ bytes) pending') rest := by
  intro bytes
  induction bytes with
  | nil =>
    intro s pending pending' _ hrun
    obtain rfl : pending = pending' := Option.some.inj hrun
    simp
  | cons b bytes ih =>
    intro s pending pending' hp hrun
    obtain ⟨next, hstep, hrest⟩ := Option.bind_eq_some_iff.mp hrun
    have htail := ih (s ++ [b]) next pending' (Utf8.continues_step hp hstep) hrest
    rw [List.flatMap_cons, List.append_assoc]
    have hhead : lex fl (.string s pending) (escapeByte b ++ (bytes.flatMap escapeByte ++ rest)) =
        lex fl (.string (s ++ [b]) next) (bytes.flatMap escapeByte ++ rest) := by
      cases pending with
      | nil => exact lex_escapeByte hstep s _
      | cons range pending => exact lex_continues hp hstep s _
    rw [hhead, htail, List.append_assoc, List.singleton_append]

theorem lex_string {s : Bytes} (h : Utf8.valid s) (rest : Bytes) :
    lex fl .ready (dumpString s ++ rest) = (lex fl .ready rest).map (.string s :: ·) := by
  have hrun : Utf8.run [] s = some [] := by simpa [Utf8.valid] using h
  have hbody : lex fl (.string [] []) (s.flatMap escapeByte ++ 0x22 :: rest) =
      lex fl (.string ([] ++ s) []) (0x22 :: rest) :=
    lex_stringBody (0x22 :: rest) s [] [] [] (by simp [Utf8.Continues]) hrun
  have hopen : dumpString s ++ rest = 0x22 :: (s.flatMap escapeByte ++ 0x22 :: rest) := by
    simp [dumpString]
  rw [hopen, lex_step (.string [] []) rfl, hbody]
  exact lex_token _ rfl rest

/-! ### Reading values -/

/-- The lexer reads the value's tokens from its text. -/
def Lexes (fl : FloatFormat F) (v : Json F) : Prop :=
  ∀ rest, Delimited rest →
    lex fl .ready (text fl v ++ rest) = (lex fl .ready rest).map (tokens v ++ ·)

theorem lex_field (hkey : Utf8.valid field.1) (hvalue : Lexes fl field.2) (hrest : Delimited rest) :
    lex fl .ready (textField fl field ++ rest) =
      (lex fl .ready rest).map (tokensField field ++ ·) := by
  obtain ⟨key, value⟩ := field
  have hopen : textField fl (key, value) ++ rest =
      dumpString key ++ 0x3A :: (text fl value ++ rest) := by
    simp [textField]
  rw [hopen, lex_string hkey, lex_token .colon rfl, hvalue rest hrest]
  simp [tokensField, Option.map_map, Function.comp_def]

theorem delimited_items (items : List (Json F)) (rest : Bytes) :
    Delimited (textItems fl items ++ rest) := by
  cases items with
  | nil | cons item items => exact delimited_cons (by simp) _

theorem delimited_fields (fields : List (Bytes × Json F)) (rest : Bytes) :
    Delimited (textFields fl fields ++ rest) := by
  cases fields with
  | nil | cons field fields => exact delimited_cons (by simp) _

theorem lex_items (rest : Bytes) : ∀ items : List (Json F), (∀ v ∈ items, Lexes fl v) →
    lex fl .ready (textItems fl items ++ rest) =
      (lex fl .ready rest).map (tokensItems items ++ ·) := by
  intro items
  induction items with
  | nil => intro _; exact lex_token _ rfl rest
  | cons item items ih =>
    intro h
    have hitem : lex fl .ready (text fl item ++ (textItems fl items ++ rest)) = _ :=
      h item (by simp) _ (delimited_items items rest)
    have hitems := ih fun v hv => h v (List.mem_cons_of_mem _ hv)
    have hopen : textItems fl (item :: items) ++ rest =
        0x2C :: (text fl item ++ (textItems fl items ++ rest)) := by
      simp [textItems]
    rw [hopen, lex_token .comma rfl, hitem, hitems]
    simp [tokensItems, Option.map_map, Function.comp_def]

theorem lex_fields (rest : Bytes) : ∀ fields : List (Bytes × Json F),
    (∀ field ∈ fields, Utf8.valid field.1) → (∀ field ∈ fields, Lexes fl field.2) →
    lex fl .ready (textFields fl fields ++ rest) =
      (lex fl .ready rest).map (tokensFields fields ++ ·) := by
  intro fields
  induction fields with
  | nil => intro _ _; exact lex_token _ rfl rest
  | cons field fields ih =>
    intro hkeys h
    have hfield : lex fl .ready (textField fl field ++ (textFields fl fields ++ rest)) = _ :=
      lex_field (hkeys field (by simp)) (h field (by simp)) (delimited_fields fields rest)
    have hfields := ih (fun f hf => hkeys f (List.mem_cons_of_mem _ hf))
      fun f hf => h f (List.mem_cons_of_mem _ hf)
    have hopen : textFields fl (field :: fields) ++ rest =
        0x2C :: (textField fl field ++ (textFields fl fields ++ rest)) := by
      simp [textFields]
    rw [hopen, lex_token .comma rfl, hfield, hfields]
    simp [tokensFields, Option.map_map, Function.comp_def]

theorem lex_null (rest : Bytes) :
    lex fl .ready (ascii "null" ++ rest) = (lex fl .ready rest).map (.null :: ·) := by
  show lex fl .ready (0x6E :: 0x75 :: 0x6C :: 0x6C :: rest) = _
  rw [lex_step (.word [0x75, 0x6C, 0x6C] .null) rfl, lex_step (.word [0x6C, 0x6C] .null) rfl,
    lex_step (.word [0x6C] .null) rfl]
  exact lex_token _ rfl rest

theorem lex_true (rest : Bytes) :
    lex fl .ready (ascii "true" ++ rest) = (lex fl .ready rest).map (.bool true :: ·) := by
  show lex fl .ready (0x74 :: 0x72 :: 0x75 :: 0x65 :: rest) = _
  rw [lex_step (.word [0x72, 0x75, 0x65] (.bool true)) rfl,
    lex_step (.word [0x75, 0x65] (.bool true)) rfl, lex_step (.word [0x65] (.bool true)) rfl]
  exact lex_token _ rfl rest

theorem lex_false (rest : Bytes) :
    lex fl .ready (ascii "false" ++ rest) = (lex fl .ready rest).map (.bool false :: ·) := by
  show lex fl .ready (0x66 :: 0x61 :: 0x6C :: 0x73 :: 0x65 :: rest) = _
  rw [lex_step (.word [0x61, 0x6C, 0x73, 0x65] (.bool false)) rfl,
    lex_step (.word [0x6C, 0x73, 0x65] (.bool false)) rfl,
    lex_step (.word [0x73, 0x65] (.bool false)) rfl, lex_step (.word [0x65] (.bool false)) rfl]
  exact lex_token _ rfl rest

theorem lex_array (h : ∀ v ∈ items, Lexes fl v) : Lexes fl (.array items) := by
  intro rest _
  cases items with
  | nil =>
    show lex fl .ready (0x5B :: 0x5D :: rest) = _
    rw [lex_token .beginArray rfl, lex_token .endArray rfl, Option.map_map]
    rfl
  | cons item items =>
    have hitem : lex fl .ready (text fl item ++ (textItems fl items ++ rest)) = _ :=
      h item (by simp) _ (delimited_items items rest)
    have hopen : text fl (.array (item :: items)) ++ rest =
        0x5B :: (text fl item ++ (textItems fl items ++ rest)) := by
      simp [text]
    rw [hopen, lex_token .beginArray rfl, hitem,
      lex_items rest items fun v hv => h v (List.mem_cons_of_mem _ hv)]
    simp [tokens, Option.map_map, Function.comp_def]

theorem lex_object (hkeys : ∀ field ∈ fields, Utf8.valid field.1)
    (h : ∀ field ∈ fields, Lexes fl field.2) : Lexes fl (.object fields) := by
  intro rest _
  cases fields with
  | nil =>
    show lex fl .ready (0x7B :: 0x7D :: rest) = _
    rw [lex_token .beginObject rfl, lex_token .endObject rfl, Option.map_map]
    rfl
  | cons field fields =>
    have hfield : lex fl .ready (textField fl field ++ (textFields fl fields ++ rest)) = _ :=
      lex_field (hkeys field (by simp)) (h field (by simp)) (delimited_fields fields rest)
    have hopen : text fl (.object (field :: fields)) ++ rest =
        0x7B :: (textField fl field ++ (textFields fl fields ++ rest)) := by
      simp [text]
    rw [hopen, lex_token .beginObject rfl, hfield,
      lex_fields rest fields (fun f hf => hkeys f (List.mem_cons_of_mem _ hf))
        fun f hf => h f (List.mem_cons_of_mem _ hf)]
    simp [tokens, Option.map_map, Function.comp_def]

variable {v : Json F}

theorem lex_text (h : Readable fl v) : Lexes fl v := by
  induction h with
  | null => exact fun rest _ => lex_null rest
  | bool b =>
    intro rest _
    cases b with
    | true => exact lex_true rest
    | false => exact lex_false rest
  | int h => exact fun rest hrest => lex_int h hrest
  | float h => exact fun rest hrest => lex_float h hrest
  | string h => exact fun rest _ => lex_string h rest
  | array _ ih => exact lex_array ih
  | object _ hkeys _ ih => exact lex_object hkeys ih

/-! ### Reading tokens -/

/-- The parser reads the value from its tokens, whatever is open. -/
def Parses (v : Json F) : Prop :=
  ∀ stack rest, parseTokens .value stack (tokens v ++ rest) =
    (deliver v stack).bind fun next => parseTokens next.1 next.2 rest

variable {stack : List (Frame F)} {expect : Expect F}

theorem parse_deliver {stack' : List (Frame F)}
    (h : parseStep expect stack token = deliver v stack') (rest : List (Token F)) :
    parseTokens expect stack (token :: rest) =
      (deliver v stack').bind fun next => parseTokens next.1 next.2 rest := by
  rw [parseTokens, h]
  cases deliver v stack' <;> rfl

theorem insertEntry_last {key : Bytes} : ∀ {fields : List (Bytes × Json F)},
    (∀ field ∈ fields, field.1 < key) →
    SortedMap.insertEntry key v fields = fields ++ [(key, v)] := by
  intro fields
  induction fields with
  | nil => intro _; rfl
  | cons field fields ih =>
    intro h
    have hlt : field.1 < key := h field (by simp)
    rw [SortedMap.insertEntry, if_neg (not_lt_of_gt hlt), if_neg (ne_of_gt hlt),
      ih fun f hf => h f (List.mem_cons_of_mem _ hf)]
    rfl

theorem tokens_head (v : Json F) : ∃ token rest, tokens v = token :: rest ∧ token ≠ .endArray := by
  cases v with
  | array items => cases items <;> exact ⟨_, _, rfl, by simp⟩
  | object fields => cases fields <;> exact ⟨_, _, rfl, by simp⟩
  | _ => exact ⟨_, _, rfl, by simp⟩

theorem parse_first (h : Parses v) (stack : List (Frame F)) (rest : List (Token F)) :
    parseTokens .valueOrEnd stack (tokens v ++ rest) =
      (deliver v stack).bind fun next => parseTokens next.1 next.2 rest := by
  obtain ⟨token, more, htokens, hne⟩ := tokens_head v
  have hstep : parseStep .valueOrEnd stack token = parseStep .value stack token := by
    unfold parseStep
    cases stack with
    | nil => rfl
    | cons frame stack => cases frame <;> cases token <;> first | rfl | exact absurd rfl hne
  rw [← h stack rest, htokens, List.cons_append, parseTokens, parseTokens, hstep]

theorem parse_items {rest : List (Token F)} :
    ∀ (items done : List (Json F)), (∀ v ∈ items, Parses v) →
      parseTokens .next (.array done :: stack) (tokensItems items ++ rest) =
        (deliver (.array (done ++ items)) stack).bind fun next =>
          parseTokens next.1 next.2 rest := by
  intro items
  induction items with
  | nil =>
    intro done _
    rw [List.append_nil]
    exact parse_deliver rfl rest
  | cons item items ih =>
    intro done h
    have hitem := h item (by simp) (.array done :: stack) (tokensItems items ++ rest)
    have hitems := ih (done ++ [item]) fun v hv => h v (List.mem_cons_of_mem _ hv)
    have hopen : parseTokens .next (.array done :: stack) (tokensItems (item :: items) ++ rest) =
        parseTokens .value (.array done :: stack) (tokens item ++ (tokensItems items ++ rest)) := by
      rw [tokensItems, List.cons_append, List.append_assoc]
      rfl
    rw [hopen, hitem]
    show parseTokens .next (.array (done ++ [item]) :: stack) (tokensItems items ++ rest) = _
    rw [hitems, List.append_assoc, List.singleton_append]

theorem parse_field (h : Parses field.2) {done : List (Bytes × Json F)} {rest : List (Token F)}
    (hexpect : expect = .keyOrEnd ∨ expect = .key) (hlast : ∀ f ∈ done, f.1 < field.1) :
    parseTokens expect (.object done :: stack) (tokensField field ++ rest) =
      parseTokens .next (.object (done ++ [field]) :: stack) rest := by
  obtain ⟨key, value⟩ := field
  have hvalue := h (.member done key :: stack) rest
  have hopen : parseTokens expect (.object done :: stack) (tokensField (key, value) ++ rest) =
      parseTokens .value (.member done key :: stack) (tokens value ++ rest) := by
    rcases hexpect with rfl | rfl <;> rfl
  rw [hopen, hvalue]
  show parseTokens .next (.object (SortedMap.insertEntry key value done) :: stack) rest = _
  rw [insertEntry_last hlast]

theorem parse_fields {rest : List (Token F)} :
    ∀ (fields done : List (Bytes × Json F)), (∀ field ∈ fields, Parses field.2) →
      ((done ++ fields).map Prod.fst).Pairwise (· < ·) →
      parseTokens .next (.object done :: stack) (tokensFields fields ++ rest) =
        (deliver (.object (done ++ fields)) stack).bind fun next =>
          parseTokens next.1 next.2 rest := by
  intro fields
  induction fields with
  | nil =>
    intro done _ _
    rw [List.append_nil]
    exact parse_deliver rfl rest
  | cons field fields ih =>
    intro done h hsorted
    have hlast : ∀ f ∈ done, f.1 < field.1 := by
      intro f hf
      rw [List.map_append] at hsorted
      exact (List.pairwise_append.mp hsorted).2.2 f.1 (List.mem_map_of_mem hf) field.1 (by simp)
    have hfields := ih (done ++ [field]) (fun f hf => h f (List.mem_cons_of_mem _ hf))
      (by simpa using hsorted)
    have hopen :
        parseTokens .next (.object done :: stack) (tokensFields (field :: fields) ++ rest) =
        parseTokens .key (.object done :: stack)
          (tokensField field ++ (tokensFields fields ++ rest)) := by
      rw [tokensFields, List.cons_append, List.append_assoc]
      rfl
    rw [hopen, parse_field (h field (by simp)) (.inr rfl) hlast, hfields, List.append_assoc,
      List.singleton_append]

theorem parse_array (h : ∀ v ∈ items, Parses v) : Parses (.array items) := by
  intro stack rest
  cases items with
  | nil => exact parse_deliver rfl rest
  | cons item items =>
    have hitem := parse_first (h item (by simp)) (.array [] :: stack) (tokensItems items ++ rest)
    have hopen : parseTokens .value stack (tokens (.array (item :: items)) ++ rest) =
        parseTokens .valueOrEnd (.array [] :: stack)
          (tokens item ++ (tokensItems items ++ rest)) := by
      rw [tokens, List.cons_append, List.append_assoc]
      rfl
    rw [hopen, hitem]
    exact parse_items items [item] fun v hv => h v (List.mem_cons_of_mem _ hv)

theorem parse_object
    (hsorted : (fields.map Prod.fst).Pairwise (· < ·)) (h : ∀ field ∈ fields, Parses field.2) :
    Parses (.object fields) := by
  intro stack rest
  cases fields with
  | nil => exact parse_deliver rfl rest
  | cons field fields =>
    have hopen : parseTokens .value stack (tokens (.object (field :: fields)) ++ rest) =
        parseTokens .keyOrEnd (.object [] :: stack)
          (tokensField field ++ (tokensFields fields ++ rest)) := by
      rw [tokens, List.cons_append, List.append_assoc]
      rfl
    rw [hopen, parse_field (h field (by simp)) (.inl rfl) (by simp)]
    exact parse_fields fields [field] (fun f hf => h f (List.mem_cons_of_mem _ hf)) hsorted

theorem parseTokens_tokens (h : Readable fl v) : Parses v := by
  induction h with
  | array _ ih => exact parse_array ih
  | object hsorted _ _ ih => exact parse_object hsorted ih
  | null | bool _ | int _ | float _ | string _ => exact fun stack rest => parse_deliver rfl rest

/-! ### The round trip -/

theorem text_head (h : Readable fl v) : ∃ b rest, text fl v = b :: rest ∧ b ≠ 0xEF := by
  have hfirst : ∀ b place, NumberPlace.first b = some place → b ≠ 0xEF := by
    rintro b place h rfl
    exact absurd h (by simp [show NumberPlace.first 0xEF = none from rfl])
  cases h with
  | null | string h => exact ⟨_, _, rfl, by decide⟩
  | bool b => cases b <;> exact ⟨_, _, rfl, by decide⟩
  | @int i h =>
    obtain ⟨b, rest, place, hb, hplace, -, hminus⟩ := after_dumpNat i.natAbs
    show ∃ b rest, dumpInt i = b :: rest ∧ b ≠ 0xEF
    unfold dumpInt
    split
    · exact ⟨_, _, rfl, by decide⟩
    · exact ⟨b, rest, hb, hfirst b place (by rw [NumberPlace.first, if_neg hminus, hplace])⟩
  | float h =>
    obtain ⟨⟨-, ⟨b, rest, first, hb, hplace, -⟩, -⟩, -⟩ := h
    exact ⟨b, rest, hb, hfirst b first hplace⟩
  | @array items h => cases items <;> exact ⟨_, _, rfl, by decide⟩
  | @object fields hsorted hkeys h => cases fields <;> exact ⟨_, _, rfl, by decide⟩

/-- A value is read back from its text. Blanks may follow it. -/
theorem parse_text (h : Readable fl v) {tail : Bytes} (htail : Delimited tail)
    (hblank : lex fl .ready tail = some []) : parse fl (text fl v ++ tail) = some v := by
  obtain ⟨b, rest, hb, hmark⟩ := text_head h
  have hsame : withoutMark (text fl v ++ tail) = text fl v ++ tail := by
    rw [hb, List.cons_append]
    unfold withoutMark
    split
    · rename_i heq
      exact absurd (List.cons.inj heq).1 hmark
    · rfl
  have hparse := parseTokens_tokens h [] []
  rw [parse, hsame, lex_text h tail htail, hblank]
  simpa [deliver, parseTokens] using hparse

end Anolis.Lib.Json
