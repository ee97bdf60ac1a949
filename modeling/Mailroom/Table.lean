/-!
# Ordered tables

A table assigns values to keys and keeps its keys in increasing order, so the same
assignment has one form only, however it came about.

Main definitions:

- `Table.insert` assigns a value to a key, in place of any earlier one.
- `Table.find?` looks a key up.
- `Table.Ordered` says that the keys increase.

Main results:

- Theorems `Table.find?_insert_self` and `Table.find?_insert_of_ne`: an assignment changes
  the value of its own key only.
- Theorem `Table.insert_ordered`: an assignment keeps the keys in order.
- Theorem `Table.find?_eq_some_iff`: a table in order lists what is found in it.
- Theorems `Table.size_insert_of_find?_eq_none` and `Table.size_insert_of_find?_eq_some`:
  only an assignment to a new key adds to the size.
-/

namespace Mailroom

/-- Assignments in increasing order of their keys. -/
structure Table (κ α : Type) where
  entries : List (κ × α)
  deriving DecidableEq, Repr

namespace Table

variable {κ α : Type}

/-- The table without assignments. -/
def empty : Table κ α :=
  ⟨[]⟩

/-- The number of keys. -/
def size (t : Table κ α) : Nat :=
  t.entries.length

/-- The keys in increasing order. -/
def keys (t : Table κ α) : List κ :=
  t.entries.map (·.1)

variable [Ord κ]

/-- Put an assignment into its place among ordered ones. -/
def insertEntry (key : κ) (value : α) : List (κ × α) → List (κ × α)
  | [] => [(key, value)]
  | entry :: rest =>
    match compare key entry.1 with
    | .lt => (key, value) :: entry :: rest
    | .eq => (key, value) :: rest
    | .gt => entry :: insertEntry key value rest

/-- Assign a value to a key. -/
def insert (t : Table κ α) (key : κ) (value : α) : Table κ α :=
  ⟨insertEntry key value t.entries⟩

/-- The value that a key has in a list of assignments. -/
def findEntry? (key : κ) : List (κ × α) → Option α
  | [] => none
  | entry :: rest =>
    match compare key entry.1 with
    | .eq => some entry.2
    | _ => findEntry? key rest

/-- The value of a key. -/
def find? (t : Table κ α) (key : κ) : Option α :=
  findEntry? key t.entries

/-- The table with the given assignments, of which later ones win. -/
def ofList (assignments : List (κ × α)) : Table κ α :=
  assignments.foldl (fun t a => t.insert a.1 a.2) empty

/-! ## Looking keys up -/

/-- The empty table has no keys. -/
@[simp] theorem find?_empty (key : κ) : (empty : Table κ α).find? key = none :=
  rfl

/-- The assigned key has the assigned value. -/
@[simp] theorem findEntry?_insertEntry_self [Std.ReflOrd κ] (key : κ) (value : α)
    (entries : List (κ × α)) :
    findEntry? key (insertEntry key value entries) = some value := by
  induction entries with
  | nil => simp [insertEntry, findEntry?]
  | cons entry rest ih =>
    cases h : compare key entry.1 with
    | lt => simp [insertEntry, findEntry?, h]
    | eq => simp [insertEntry, findEntry?, h]
    | gt => simp [insertEntry, findEntry?, h, ih]

/-- The other keys keep their values in a list of assignments. -/
theorem findEntry?_insertEntry_of_ne [Std.LawfulEqOrd κ] {key other : κ} (value : α)
    (entries : List (κ × α)) (h : other ≠ key) :
    findEntry? other (insertEntry key value entries) = findEntry? other entries := by
  have hkey : compare other key ≠ .eq := fun he => h (Std.LawfulEqOrd.eq_of_compare he)
  induction entries with
  | nil => cases hc : compare other key <;> simp_all [insertEntry, findEntry?]
  | cons entry rest ih =>
    cases hentry : compare key entry.1 with
    | lt => cases hc : compare other key <;> simp_all [insertEntry, findEntry?]
    | eq =>
      have hsame : key = entry.1 := Std.LawfulEqOrd.eq_of_compare hentry
      subst hsame
      cases hc : compare other entry.1 <;> simp_all [insertEntry, findEntry?]
    | gt => simp only [insertEntry, hentry, findEntry?, ih]

/-- After an assignment its key has the assigned value. -/
@[simp] theorem find?_insert_self [Std.ReflOrd κ] (t : Table κ α) (key : κ) (value : α) :
    (t.insert key value).find? key = some value :=
  findEntry?_insertEntry_self key value t.entries

/-- After an assignment every other key has the value it had. -/
theorem find?_insert_of_ne [Std.LawfulEqOrd κ] (t : Table κ α) {key other : κ} (value : α)
    (h : other ≠ key) : (t.insert key value).find? other = t.find? other :=
  findEntry?_insertEntry_of_ne value t.entries h

/-! ## Order -/

/-- The keys increase. -/
def Ordered (t : Table κ α) : Prop :=
  t.entries.Pairwise fun a b => compare a.1 b.1 = .lt

/-- The empty table is in order. -/
theorem empty_ordered : (empty : Table κ α).Ordered :=
  List.Pairwise.nil

/-- An entry after an assignment is the new one or an old one. -/
theorem mem_insertEntry {key : κ} {value : α} {entry : κ × α} {entries : List (κ × α)}
    (h : entry ∈ insertEntry key value entries) :
    entry = (key, value) ∨ entry ∈ entries := by
  induction entries with
  | nil => simpa [insertEntry] using h
  | cons first rest ih =>
    cases hc : compare key first.1 <;> simp only [insertEntry, hc, List.mem_cons] at h ⊢
    · exact h
    · rcases h with h | h
      · exact Or.inl h
      · exact Or.inr (Or.inr h)
    · rcases h with h | h
      · exact Or.inr (Or.inl h)
      · rcases ih h with h | h
        · exact Or.inl h
        · exact Or.inr (Or.inr h)

/-- Putting an entry into its place keeps a list of assignments in order. -/
theorem insertEntry_pairwise [Std.TransOrd κ] [Std.LawfulEqOrd κ] (key : κ) (value : α)
    {entries : List (κ × α)}
    (h : entries.Pairwise fun a b => compare a.1 b.1 = .lt) :
    (insertEntry key value entries).Pairwise fun a b => compare a.1 b.1 = .lt := by
  induction entries with
  | nil => simp [insertEntry]
  | cons entry rest ih =>
    obtain ⟨hentry, hrest⟩ := List.pairwise_cons.mp h
    cases hc : compare key entry.1 with
    | lt =>
      simp only [insertEntry, hc]
      refine List.pairwise_cons.mpr ⟨fun e he => ?_, h⟩
      rcases List.mem_cons.mp he with rfl | he
      · exact hc
      · exact Std.TransCmp.lt_trans hc (hentry e he)
    | eq =>
      have hsame : key = entry.1 := Std.LawfulEqOrd.eq_of_compare hc
      simp only [insertEntry, hc]
      refine List.pairwise_cons.mpr ⟨fun e he => ?_, hrest⟩
      rw [hsame]
      exact hentry e he
    | gt =>
      simp only [insertEntry, hc]
      refine List.pairwise_cons.mpr ⟨fun e he => ?_, ih hrest⟩
      rcases mem_insertEntry he with rfl | he
      · exact Std.OrientedCmp.lt_of_gt hc
      · exact hentry e he

/-- An assignment keeps a table in order. -/
theorem insert_ordered [Std.TransOrd κ] [Std.LawfulEqOrd κ] {t : Table κ α} (h : t.Ordered)
    (key : κ) (value : α) : (t.insert key value).Ordered :=
  insertEntry_pairwise key value h

/-- In ordered entries a key has the value that it is listed with. -/
theorem findEntry?_eq_some_iff [Std.TransOrd κ] [Std.LawfulEqOrd κ] {key : κ} {value : α}
    {entries : List (κ × α)}
    (h : entries.Pairwise fun a b => compare a.1 b.1 = .lt) :
    findEntry? key entries = some value ↔ (key, value) ∈ entries := by
  induction entries with
  | nil =>
    rw [List.mem_nil_iff]
    exact ⟨nofun, nofun⟩
  | cons entry rest ih =>
    obtain ⟨hentry, hrest⟩ := List.pairwise_cons.mp h
    rw [List.mem_cons, ← ih hrest]
    cases hc : compare key entry.1 with
    | eq =>
      have hsame : key = entry.1 := Std.LawfulEqOrd.eq_of_compare hc
      -- the key is not listed a second time
      have hnone : findEntry? key rest ≠ some value := by
        intro hfound
        have hlt := hentry _ ((ih hrest).mp hfound)
        rw [hsame] at hlt
        simp at hlt
      simp only [hc, findEntry?, hnone, or_false, Option.some.injEq]
      rw [hsame, Prod.ext_iff]
      simp [eq_comm]
    | lt =>
      have hne : (key, value) ≠ entry := by
        rintro rfl
        simp at hc
      simp [hc, findEntry?, hne]
    | gt =>
      have hne : (key, value) ≠ entry := by
        rintro rfl
        simp at hc
      simp [hc, findEntry?, hne]

/-- A table in order lists exactly the keys that are found, with their values. -/
theorem find?_eq_some_iff [Std.TransOrd κ] [Std.LawfulEqOrd κ] {t : Table κ α}
    (h : t.Ordered) {key : κ} {value : α} :
    t.find? key = some value ↔ (key, value) ∈ t.entries :=
  findEntry?_eq_some_iff h

/-! ## Size -/

/-- A new key adds one entry. -/
theorem length_insertEntry_of_none {key : κ} {entries : List (κ × α)}
    (h : findEntry? key entries = none) (value : α) :
    (insertEntry key value entries).length = entries.length + 1 := by
  induction entries with
  | nil => rfl
  | cons entry rest ih =>
    cases hc : compare key entry.1 <;> simp only [hc, findEntry?] at h
    · simp only [insertEntry, hc, List.length_cons]
    · contradiction
    · simp only [insertEntry, hc, List.length_cons, ih h]

/-- A key that ordered entries have adds none. -/
theorem length_insertEntry_of_some [Std.TransOrd κ] [Std.LawfulEqOrd κ] {key : κ}
    {earlier : α} {entries : List (κ × α)}
    (hordered : entries.Pairwise fun a b => compare a.1 b.1 = .lt)
    (h : findEntry? key entries = some earlier) (value : α) :
    (insertEntry key value entries).length = entries.length := by
  induction entries with
  | nil => contradiction
  | cons entry rest ih =>
    obtain ⟨hentry, hrest⟩ := List.pairwise_cons.mp hordered
    cases hc : compare key entry.1 <;> simp only [hc, findEntry?] at h
    · -- a key below the first one is not listed behind it
      have hlt := hentry _ ((findEntry?_eq_some_iff hrest).mp h)
      rw [Std.OrientedCmp.gt_of_lt hc] at hlt
      contradiction
    · simp only [insertEntry, hc, List.length_cons]
    · simp only [insertEntry, hc, List.length_cons, ih hrest h]

/-- An assignment to a new key is one more. -/
theorem size_insert_of_find?_eq_none {t : Table κ α} {key : κ} (h : t.find? key = none)
    (value : α) : (t.insert key value).size = t.size + 1 :=
  length_insertEntry_of_none h value

/-- An assignment to a key of an ordered table replaces the one before. -/
theorem size_insert_of_find?_eq_some [Std.TransOrd κ] [Std.LawfulEqOrd κ] {t : Table κ α}
    (ht : t.Ordered) {key : κ} {earlier : α} (h : t.find? key = some earlier) (value : α) :
    (t.insert key value).size = t.size :=
  length_insertEntry_of_some ht h value

end Table

end Mailroom
