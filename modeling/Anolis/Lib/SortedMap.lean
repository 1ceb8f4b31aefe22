import Mathlib.Order.Lattice

/-!
# A map as its entries in key order

What an ordered map iterates over: the entries, one a key, in increasing key order. The order
is a field, so a map whose entries repeat a key or come out of order cannot be built.
-/

namespace Anolis.Lib

/-- A finite map over an ordered key type, given by its entries in key order. -/
structure SortedMap (κ υ : Type) [LinearOrder κ] where
  entries : List (κ × υ)
  sorted : (entries.map Prod.fst).Pairwise (· < ·) := by decide

namespace SortedMap

variable {κ υ ω : Type} [LinearOrder κ]

instance [DecidableEq υ] : DecidableEq (SortedMap κ υ) := fun m n =>
  decidable_of_iff (m.entries = n.entries) <| by
    cases m; cases n; simp

/-- The map without entries. -/
def empty : SortedMap κ υ := { entries := [], sorted := List.Pairwise.nil }

/-- Has the map no entry. -/
def isEmpty (m : SortedMap κ υ) : Bool := m.entries.isEmpty

/-- The value at a key. -/
def find? (m : SortedMap κ υ) (k : κ) : Option υ :=
  (m.entries.find? fun e => e.1 = k).map Prod.snd

/-- The entries with `k` set to `v`: replaced where `k` is there, else put in its place. -/
def insertEntry (k : κ) (v : υ) : List (κ × υ) → List (κ × υ)
  | [] => [(k, v)]
  | e :: rest =>
    if k < e.1 then (k, v) :: e :: rest
    else if k = e.1 then (k, v) :: rest
    else e :: insertEntry k v rest

/-- Every key of the new entries is the inserted one or an old one. -/
private theorem mem_keys_insertEntry {k : κ} {v : υ} {a : κ} :
    ∀ {l : List (κ × υ)}, a ∈ (insertEntry k v l).map Prod.fst → a = k ∨ a ∈ l.map Prod.fst
  | [], h => by simpa [insertEntry] using h
  | e :: rest, h => by
    unfold insertEntry at h
    split at h
    · simpa using h
    · split at h
      · simp only [List.map_cons, List.mem_cons] at h ⊢
        exact h.imp_right Or.inr
      · simp only [List.map_cons, List.mem_cons] at h ⊢
        rcases h with h | h
        · exact Or.inr (Or.inl h)
        · rcases mem_keys_insertEntry h with h | h
          · exact Or.inl h
          · exact Or.inr (Or.inr h)

theorem pairwise_insertEntry (k : κ) (v : υ) :
    ∀ {l : List (κ × υ)}, (l.map Prod.fst).Pairwise (· < ·) →
      ((insertEntry k v l).map Prod.fst).Pairwise (· < ·)
  | [], _ => by simp [insertEntry]
  | e :: rest, h => by
    have hrest := List.pairwise_cons.mp h
    unfold insertEntry
    split
    · rename_i hlt
      refine List.pairwise_cons.mpr ⟨fun a ha => ?_, h⟩
      rcases List.mem_cons.mp ha with rfl | ha
      · exact hlt
      · exact lt_trans hlt (hrest.1 a ha)
    · split
      · rename_i heq
        subst heq
        exact h
      · rename_i hnlt hne
        refine List.pairwise_cons.mpr ⟨fun a ha => ?_, pairwise_insertEntry k v hrest.2⟩
        rcases mem_keys_insertEntry ha with rfl | ha
        · exact lt_of_le_of_ne (not_lt.mp hnlt) (Ne.symm hne)
        · exact hrest.1 a ha

/-- The map with `k` set to `v`. -/
def insert (m : SortedMap κ υ) (k : κ) (v : υ) : SortedMap κ υ where
  entries := insertEntry k v m.entries
  sorted := pairwise_insertEntry k v m.sorted

theorem find?_insert (m : SortedMap κ υ) (k a : κ) (v : υ) :
    (m.insert k v).find? a = if a = k then some v else m.find? a := by
  simp only [find?, insert]
  induction m.entries with
  | nil => by_cases h : a = k <;> simp [insertEntry, h, eq_comm]
  | cons e rest ih =>
    rcases eq_or_ne a k with rfl | ha
    · unfold insertEntry
      split
      · simp
      split
      · simp
      · rename_i hne
        simpa [Ne.symm hne] using ih
    · unfold insertEntry
      split
      · simp [Ne.symm ha]
      split
      · rename_i heq
        simp [← heq, Ne.symm ha]
      · by_cases he : e.1 = a
        · simp [he]
        · simpa [he, ha] using ih

theorem insert_of_find? {m : SortedMap κ υ} {k : κ} {v : υ} (h : m.find? k = some v) :
    m.insert k v = m := by
  obtain ⟨entries, sorted⟩ := m
  simp only [find?, insert] at h ⊢
  congr 1
  induction entries with
  | nil => cases h
  | cons e rest ih =>
    obtain ⟨hfirst, hrest⟩ := List.pairwise_cons.mp sorted
    rcases eq_or_ne e.1 k with rfl | he
    · obtain rfl : e.2 = v := by simpa using h
      simp [insertEntry]
    · have htail : (rest.find? fun e => e.1 = k).map Prod.snd = some v := by simpa [he] using h
      -- the key is further behind, so it is above the first one
      obtain ⟨found, hfound, -⟩ := Option.map_eq_some_iff.mp htail
      have hkey : found.1 = k := by simpa using List.find?_some hfound
      have habove : e.1 < k := by
        rw [← hkey]
        exact hfirst _ (List.mem_map_of_mem (List.mem_of_find?_eq_some hfound))
      simp [insertEntry, not_lt_of_gt habove, Ne.symm he, ih hrest htail]

/-- The map with every value changed by `f`. -/
def mapVal (f : υ → ω) (m : SortedMap κ υ) : SortedMap κ ω where
  entries := m.entries.map fun e => (e.1, f e.2)
  sorted := by
    have h : (Prod.fst ∘ fun e : κ × υ => (e.1, f e.2)) = Prod.fst := rfl
    rw [List.map_map, h]
    exact m.sorted

end SortedMap

end Anolis.Lib
