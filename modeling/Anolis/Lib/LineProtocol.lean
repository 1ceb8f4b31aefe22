import Anolis.Lib.Utf8
import Mathlib.Data.List.Basic

/-!
# A tokenizer for rows of line protocol

A row is a measurement, tags, fields and a timestamp:
`measurement,tag=value,tag=value field=value,field=value timestamp`. The tokenizer reads it byte by
byte. In the measurement, in tags and in the keys of fields a backslash takes the next byte as it
is, and an unescaped comma, equals sign or space is a delimiter. A field's value is a quoted string,
which ends at the first quote that no backslash escapes, or a text up to the next comma or space.

Reading is a fold, so it goes through the parts of a row one after the other. `Encodes` says what a
part is read as. A row is read by the rules of `ReadsTags`, `ReadsFields` and `Reads`: each adds one
part to a text whose parts so far are known.
-/

namespace Anolis.Lib.LineProtocol

/-! ### The tokenizer -/

def comma : UInt8 := 0x2C
def equals : UInt8 := 0x3D
def space : UInt8 := 0x20
def quote : UInt8 := 0x22
def backslash : UInt8 := 0x5C

/-- The value of a field. -/
inductive FieldValue
  | string (s : Bytes)
  | other (text : Bytes)
deriving DecidableEq

/-- A row that was read. -/
structure RowData where
  measurement : Bytes := []
  tags : List (Bytes × Bytes) := []
  fields : List (Bytes × FieldValue) := []
  timestamp : Bytes := []
deriving DecidableEq

/-- Where the reader is. `closed` is behind the quote that ends a string. -/
inductive Place
  | measurement
  | tagKey
  | tagValue (key : Bytes)
  | fieldKey
  | fieldStart (key : Bytes)
  | bare (key : Bytes)
  | quoted (key : Bytes)
  | closed (key : Bytes)
  | timestamp
  | error
deriving DecidableEq

/-- The reader: the part of the token that was read, whether a backslash is before the next byte,
and the row so far. -/
structure Scan where
  place : Place := .measurement
  token : Bytes := []
  escaped : Bool := false
  row : RowData := {}
deriving DecidableEq

/-- A byte is added to the token. -/
def Scan.push (s : Scan) (bytes : Bytes) : Scan := { s with token := s.token ++ bytes }

/-- The token is over. -/
def Scan.enter (s : Scan) (place : Place) (row : RowData) : Scan :=
  { s with place := place, token := [], row := row }

/-- A tag was read. -/
def RowData.tag (row : RowData) (key value : Bytes) : RowData :=
    { row with tags := row.tags ++ [(key, value)] }

/-- A field was read. -/
def RowData.field (row : RowData) (key : Bytes) (value : FieldValue) : RowData :=
  { row with fields := row.fields ++ [(key, value)] }

/-- Is a byte a delimiter outside the values of fields. -/
def isDelimiter (b : UInt8) : Bool := b = comma || b = equals || b = space

/-- An unescaped delimiter outside the values of fields. -/
def Scan.delimit (s : Scan) (b : UInt8) : Scan :=
  match s.place with
  | .measurement =>
    if b = comma then s.enter .tagKey { s.row with measurement := s.token }
    else if b = space then s.enter .fieldKey { s.row with measurement := s.token }
    else s.enter .error s.row
  | .tagKey => if b = equals then s.enter (.tagValue s.token) s.row else s.enter .error s.row
  | .tagValue key =>
    if b = comma then s.enter .tagKey (s.row.tag key s.token)
    else if b = space then s.enter .fieldKey (s.row.tag key s.token)
    else s.enter .error s.row
  | .fieldKey => if b = equals then s.enter (.fieldStart s.token) s.row else s.enter .error s.row
  | _ => s.enter .error s.row

/-- The end of a field: what is behind its value. -/
def Scan.endField (s : Scan) (key : Bytes) (value : FieldValue) (b : UInt8) : Scan :=
  if b = comma then s.enter .fieldKey (s.row.field key value)
  else if b = space then s.enter .timestamp (s.row.field key value)
  else s.enter .error s.row

/-- One byte. -/
def step (s : Scan) (b : UInt8) : Scan :=
  match s.place with
  | .measurement | .tagKey | .tagValue _ | .fieldKey =>
    if s.escaped then { s.push [b] with escaped := false }
    else if b = backslash then { s with escaped := true }
    else if isDelimiter b then s.delimit b
    else s.push [b]
  | .fieldStart key =>
    if b = quote then { s with place := .quoted key }
    else if b = comma ∨ b = space then s.enter .error s.row
    else { s.push [b] with place := .bare key }
  | .bare key =>
    if b = comma ∨ b = space then s.endField key (.other s.token) b else s.push [b]
  | .quoted key =>
    -- a backslash before another byte stands for itself
    if s.escaped then
      { s.push (if b = quote ∨ b = backslash then [b] else [backslash, b]) with escaped := false }
    else if b = backslash then { s with escaped := true }
    else if b = quote then { s with place := .closed key }
    else s.push [b]
  | .closed key => s.endField key (.string s.token) b
  | .timestamp => if b = space then s.enter .error s.row else s.push [b]
  | .error => s

/-- The row that a text is read as. -/
def tokenize (text : Bytes) : Option RowData :=
  let s := text.foldl step {}
  match s.place with
  | .timestamp => if s.token = [] then none else some { s.row with timestamp := s.token }
  | _ => none

/-! ### Parts -/

/-- The places in which a backslash takes the next byte as it is. -/
def Place.unquoted : Place → Bool
  | .measurement | .tagKey | .tagValue _ | .fieldKey => true
  | _ => false

def Place.inQuotes : Place → Bool
  | .quoted _ => true
  | _ => false

def Place.inBare : Place → Bool
  | .bare _ => true
  | _ => false

def Place.inTimestamp : Place → Bool
  | .timestamp => true
  | _ => false

/-- In the places of `P` the text is read as the value, and nothing of it ends the token. -/
def Encodes (P : Place → Bool) (text value : Bytes) : Prop :=
  ∀ s : Scan, P s.place → s.escaped = false → text.foldl step s = s.push value

variable {P : Place → Bool}

theorem push_push (s : Scan) (a b : Bytes) : (s.push a).push b = s.push (a ++ b) := by
  simp [Scan.push]

theorem Encodes.nil : Encodes P [] [] := by
  intro s _ _
  simp [Scan.push]

theorem Encodes.append {t₁ t₂ v₁ v₂ : Bytes} (h₁ : Encodes P t₁ v₁) (h₂ : Encodes P t₂ v₂) :
    Encodes P (t₁ ++ t₂) (v₁ ++ v₂) := by
  intro s hplace hesc
  rw [List.foldl_append, h₁ s hplace hesc, h₂ (s.push v₁) hplace hesc, push_push]

theorem Encodes.flatMap {f g : UInt8 → Bytes} (h : ∀ b, Encodes P (f b) (g b)) (s : Bytes) :
    Encodes P (s.flatMap f) (s.flatMap g) := by
  induction s with
  | nil => exact .nil
  | cons b s ih => exact (h b).append ih

variable {text : Bytes}

theorem Encodes.of_bytes (h : ∀ b ∈ text, Encodes P [b] [b]) : Encodes P text text := by
  induction text with
  | nil => exact .nil
  | cons b text ih =>
    have hhead : Encodes P [b] [b] := h b (by simp)
    have htail : Encodes P text text := ih fun b' hb' => h b' (by simp [hb'])
    exact hhead.append htail

variable {b : UInt8} {delimiter : UInt8}

theorem encodes_plain (hslash : b ≠ backslash) (hdelim : isDelimiter b = false) :
    Encodes Place.unquoted [b] [b] := by
  intro s hplace hesc
  simp only [List.foldl_cons, List.foldl_nil, step]
  cases h : s.place <;> simp_all [Place.unquoted]

theorem encodes_escaped (b : UInt8) : Encodes Place.unquoted [backslash, b] [b] := by
  intro s hplace hesc
  simp only [List.foldl_cons, List.foldl_nil, step]
  cases h : s.place <;> simp_all [Place.unquoted, Scan.push]

theorem encodes_inString (hslash : b ≠ backslash) (hquote : b ≠ quote) :
    Encodes Place.inQuotes [b] [b] := by
  intro s hplace hesc
  simp only [List.foldl_cons, List.foldl_nil, step]
  cases h : s.place <;> simp_all [Place.inQuotes]

theorem encodes_escapedInString (b : UInt8) : Encodes Place.inQuotes [backslash, b]
      (if b = quote ∨ b = backslash then [b] else [backslash, b]) := by
  intro s hplace hesc
  simp only [List.foldl_cons, List.foldl_nil, step]
  cases h : s.place <;> simp_all [Place.inQuotes, Scan.push]

theorem encodes_inBare (hcomma : b ≠ comma) (hspace : b ≠ space) :
    Encodes Place.inBare [b] [b] := by
  intro s hplace hesc
  simp only [List.foldl_cons, List.foldl_nil, step]
  cases h : s.place <;> simp_all [Place.inBare]

theorem encodes_inTimestamp (hspace : b ≠ space) : Encodes Place.inTimestamp [b] [b] := by
  intro s hplace hesc
  simp only [List.foldl_cons, List.foldl_nil, step]
  cases h : s.place <;> simp_all [Place.inTimestamp]

/-! ### Parts that carry what they are read as -/

/-- Has a text no control byte. -/
def clean (text : Bytes) : Bool := text.all fun b => 0x20 ≤ b && b != 0x7F

@[simp] theorem clean_nil : clean [] := rfl

@[simp] theorem clean_cons (b : UInt8) (text : Bytes) :
    clean (b :: text) = ((0x20 ≤ b && b != 0x7F) && clean text) := rfl

@[simp] theorem clean_append (a b : Bytes) : clean (a ++ b) = (clean a && clean b) := by
  simp [clean]

/-- A text with what it is read as in the places of `P`. -/
structure Part (P : Place → Bool) where
  text : Bytes
  value : Bytes
  encodes : Encodes P text value
  isClean : clean text

/-- A key. It stands for itself. -/
structure Key where
  text : Bytes
  encodes : Encodes Place.unquoted text text
  isClean : clean text

/-- Is a byte one that stands for itself in a key. -/
def keyByte (b : UInt8) : Bool := b != backslash && !isDelimiter b && clean [b]

/-- A text of such bytes. -/
def Key.of (text : Bytes) (h : text.all keyByte) : Key where
  text := text
  encodes := .of_bytes fun b hb => by
    have hbyte := List.all_eq_true.mp h b hb
    simp only [keyByte, Bool.and_eq_true, bne_iff_ne, Bool.not_eq_true'] at hbyte
    exact encodes_plain hbyte.1.1 hbyte.1.2
  isClean := by
    rw [clean, List.all_eq_true]
    intro b hb
    have hbyte := List.all_eq_true.mp h b hb
    simp only [keyByte, clean, List.all_cons, List.all_nil, Bool.and_true] at hbyte
    exact (Bool.and_eq_true _ _ ▸ hbyte).2

/-- The places at which one token of the row is over and another may begin. -/
def Place.atTag : Place → Bool
  | .measurement | .tagValue _ => true
  | _ => false

/-- The row when the token that is being read is over. -/
def Scan.commit (s : Scan) : RowData :=
  match s.place with
  | .measurement => { s.row with measurement := s.token }
  | .tagValue key => s.row.tag key s.token
  | _ => s.row

theorem step_delimiter {s : Scan} (hplace : s.place.atTag) (hesc : s.escaped = false) :
    step s comma = ⟨.tagKey, [], false, s.commit⟩ ∧
    step s space = ⟨.fieldKey, [], false, s.commit⟩ := by
  obtain ⟨place, token, escaped, row⟩ := s
  simp only at hesc
  subst hesc
  cases place <;> first | exact ⟨rfl, rfl⟩ | cases hplace

/-- The text of a field's value, with what it is read as up to the byte behind it. -/
structure FieldText where
  text : Bytes
  value : FieldValue
  reads : ∀ (row : RowData) (key : Bytes) (b : UInt8), b = comma ∨ b = space →
    step (text.foldl step ⟨.fieldStart key, [], false, row⟩) b =
      (⟨.fieldStart key, [], false, row⟩ : Scan).endField key value b
  isClean : clean text

/-- A string. -/
def FieldText.string (p : Part Place.inQuotes) : FieldText where
  text := quote :: (p.text ++ [quote])
  value := .string p.value
  reads row key b _ := by
    have hopen : step ⟨.fieldStart key, [], false, row⟩ quote = ⟨.quoted key, [], false, row⟩ := rfl
    rw [List.foldl_cons, hopen, List.foldl_append, p.encodes _ rfl rfl]
    rfl
  isClean := by simp [p.isClean, quote]

/-- Is a byte one of a value that is no string. -/
def bareByte (b : UInt8) : Bool := b != comma && b != space && b != quote && clean [b]

/-- Any other value. -/
def FieldText.other (text : Bytes) (hne : text ≠ []) (hbytes : ∀ b ∈ text, bareByte b) :
    FieldText where
  text := text
  value := .other text
  reads row key c hc := by
    cases text with
    | nil => exact absurd rfl hne
    | cons b text =>
      simp only [bareByte, Bool.and_eq_true, bne_iff_ne] at hbytes
      obtain ⟨⟨⟨hcomma, hspace⟩, hquote⟩, -⟩ := hbytes b (by simp)
      have hopen : step ⟨.fieldStart key, [], false, row⟩ b = ⟨.bare key, [b], false, row⟩ := by
        simp [step, hquote, hcomma, hspace, Scan.push]
      have hrest : Encodes Place.inBare text text := .of_bytes fun c hin =>
        encodes_inBare (hbytes c (by simp [hin])).1.1.1 (hbytes c (by simp [hin])).1.1.2
      rw [List.foldl_cons, hopen, hrest _ rfl rfl]
      simp [Scan.push, step, hc, Scan.endField, Scan.enter]
  isClean := by
    rw [clean, List.all_eq_true]
    intro b hb
    have hbyte := hbytes b hb
    simp only [bareByte, clean, List.all_cons, List.all_nil, Bool.and_true] at hbyte
    exact (Bool.and_eq_true _ _ ▸ hbyte).2

/-! ### Reading a row part by part -/

/-- A text that is read up to the end of its measurement or of one of its tags. -/
structure ReadsTags (text : Bytes) (row : RowData) : Prop where
  isClean : clean text
  place : (text.foldl step {}).place.atTag
  unescaped : (text.foldl step {}).escaped = false
  commit : (text.foldl step {}).commit = row

/-- A text that is read up to the end of one of its fields. -/
structure ReadsFields (text : Bytes) (row : RowData) : Prop where
  isClean : clean text
  next : step (text.foldl step {}) comma = ⟨.fieldKey, [], false, row⟩
  last : step (text.foldl step {}) space = ⟨.timestamp, [], false, row⟩

/-- A text without control bytes that is read as a row. -/
structure Reads (text : Bytes) (row : RowData) : Prop where
  isClean : clean text
  tokens : tokenize text = some row

/-- What stands before a value: a delimiter, the key and an equals sign. -/
def Key.after (k : Key) (delimiter : UInt8) : Bytes := delimiter :: (k.text ++ [equals])

theorem Key.clean_after (k : Key) (h : clean [delimiter]) : clean (k.after delimiter) := by
  have hrest : clean (k.text ++ [equals]) := by simp [k.isClean, equals]
  simpa [Key.after, hrest] using h

theorem ReadsTags.measurement (k : Key) : ReadsTags k.text { measurement := k.text } := by
  have hread : k.text.foldl step {} = ⟨.measurement, k.text, false, {}⟩ := k.encodes _ rfl rfl
  exact ⟨k.isClean, by rw [hread]; rfl, by rw [hread], by rw [hread]; rfl⟩

variable {lead : Bytes} {row : RowData}

theorem ReadsTags.tag (h : ReadsTags text row) (k : Key)
    (hlead : lead = k.after comma) (p : Part Place.unquoted) :
    ReadsTags (text ++ lead ++ p.text) (row.tag k.text p.value) := by
  subst hlead
  have hread : (text ++ k.after comma ++ p.text).foldl step {} =
      ⟨.tagValue k.text, p.value, false, row⟩ := by
    rw [List.foldl_append, List.foldl_append, Key.after, List.foldl_cons,
      (step_delimiter h.place h.unescaped).1, h.commit, List.foldl_append, k.encodes _ rfl rfl]
    show p.text.foldl step ⟨.tagValue ([] ++ k.text), [], false, row⟩ = _
    rw [p.encodes _ rfl rfl]
    simp [Scan.push]
  refine ⟨?_, by rw [hread]; rfl, by rw [hread], by rw [hread]; rfl⟩
  simp [h.isClean, k.clean_after (show clean [comma] from rfl), p.isClean]

theorem read_field {s : Scan}
    (hs : step s delimiter = ⟨.fieldKey, [], false, row⟩) (k : Key) (v : FieldText) :
    step ((k.after delimiter ++ v.text).foldl step s) comma =
      ⟨.fieldKey, [], false, row.field k.text v.value⟩ ∧
    step ((k.after delimiter ++ v.text).foldl step s) space =
      ⟨.timestamp, [], false, row.field k.text v.value⟩ := by
  have hread : ∀ b, b = comma ∨ b = space → step ((k.after delimiter ++ v.text).foldl step s) b =
      (⟨.fieldStart k.text, [], false, row⟩ : Scan).endField k.text v.value b := by
    intro b hb
    rw [List.foldl_append, Key.after, List.foldl_cons, hs, List.foldl_append, k.encodes _ rfl rfl]
    exact v.reads row k.text b hb
  rw [hread comma (.inl rfl), hread space (.inr rfl)]
  exact ⟨rfl, rfl⟩

theorem ReadsTags.field (h : ReadsTags text row) (k : Key)
    (hlead : lead = k.after space) (v : FieldText) :
    ReadsFields (text ++ lead ++ v.text) (row.field k.text v.value) := by
  subst hlead
  have hspace : step (text.foldl step {}) space = ⟨.fieldKey, [], false, row⟩ := by
    rw [(step_delimiter h.place h.unescaped).2, h.commit]
  obtain ⟨hnext, hlast⟩ := read_field hspace k v
  refine ⟨?_, ?_, ?_⟩
  · simp [h.isClean, k.clean_after (show clean [space] from rfl), v.isClean]
  · rw [List.append_assoc, List.foldl_append, hnext]
  · rw [List.append_assoc, List.foldl_append, hlast]

theorem ReadsFields.field (h : ReadsFields text row) (k : Key)
    (hlead : lead = k.after comma) (v : FieldText) :
    ReadsFields (text ++ lead ++ v.text) (row.field k.text v.value) := by
  subst hlead
  obtain ⟨hnext, hlast⟩ := read_field h.next k v
  refine ⟨?_, ?_, ?_⟩
  · simp [h.isClean, k.clean_after (show clean [comma] from rfl), v.isClean]
  · rw [List.append_assoc, List.foldl_append, hnext]
  · rw [List.append_assoc, List.foldl_append, hlast]

/-- More fields of a row. -/
def RowData.more (row : RowData) (fields : List (Bytes × FieldValue)) : RowData :=
  { row with fields := row.fields ++ fields }

/-- A text that adds fields to any row, behind its first field. -/
def Adds (text : Bytes) (fields : List (Bytes × FieldValue)) : Prop :=
  ∀ before row, ReadsFields before row → ReadsFields (before ++ text) (row.more fields)

theorem Adds.nil : Adds [] [] := by
  intro before row h
  simpa [RowData.more] using h

theorem Adds.append {t₁ t₂ : Bytes} {fs₁ fs₂ : List (Bytes × FieldValue)} (h₁ : Adds t₁ fs₁)
    (h₂ : Adds t₂ fs₂) : Adds (t₁ ++ t₂) (fs₁ ++ fs₂) := by
  intro before row h
  have hboth := h₂ _ _ (h₁ before row h)
  simpa [RowData.more, List.append_assoc] using hboth

theorem Adds.field (k : Key) (hlead : lead = k.after comma) (v : FieldText) :
    Adds (lead ++ v.text) [(k.text, v.value)] := by
  intro before row h
  have hfield := h.field k hlead v
  rwa [List.append_assoc] at hfield

/-- Fields that are there under a condition. -/
theorem Adds.when (p : Prop) [Decidable p] {text : Bytes} {fields : List (Bytes × FieldValue)}
    (h : Adds text fields) : Adds (if p then text else []) (if p then fields else []) := by
  split
  · exact h
  · exact .nil

theorem Adds.flatMap {keys : List Bytes} {text : Bytes → Bytes}
    {field : Bytes → Option (Bytes × FieldValue)}
    (h : ∀ key ∈ keys, Adds (text key) (field key).toList) :
    Adds (keys.flatMap text) (keys.filterMap field) := by
  induction keys with
  | nil => exact .nil
  | cons key keys ih =>
    have hhead := h key (by simp)
    have htail := ih fun key' hkey' => h key' (by simp [hkey'])
    have hboth := hhead.append htail
    rw [List.flatMap_cons, List.filterMap_cons]
    cases hfield : field key with
    | none | some f => simpa [hfield] using hboth

/-- Is a text one of a timestamp. -/
def isTimestamp (text : Bytes) : Bool := text != [] && text.all fun b => b != space && clean [b]

theorem ReadsFields.timestamp {text : Bytes} {row : RowData} (h : ReadsFields text row)
    {stamp : Bytes} (hstamp : isTimestamp stamp) :
    Reads (text ++ [space] ++ stamp) { row with timestamp := stamp } := by
  simp only [isTimestamp, Bool.and_eq_true, bne_iff_ne, ne_eq, List.all_eq_true] at hstamp
  obtain ⟨hne, hbytes⟩ := hstamp
  have hencodes : Encodes Place.inTimestamp stamp stamp :=
    .of_bytes fun b hb => encodes_inTimestamp (hbytes b hb).1
  have hclean : clean stamp := by
    rw [clean, List.all_eq_true]
    intro b hb
    have hbyte := (hbytes b hb).2
    simpa only [clean, List.all_cons, List.all_nil, Bool.and_true] using hbyte
  have hread : (text ++ [space] ++ stamp).foldl step {} = ⟨.timestamp, stamp, false, row⟩ := by
    rw [List.foldl_append, List.foldl_append, List.foldl_cons, List.foldl_nil, h.last,
      hencodes _ rfl rfl]
    rfl
  refine ⟨by simp [h.isClean, hclean, space], ?_⟩
  simp only [tokenize, hread, if_neg hne]

end Anolis.Lib.LineProtocol
