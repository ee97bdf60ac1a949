import Mailroom.Proofs.Images
import Mailroom.Proofs.Loading

/-!
# Loading a program in one go

A program is loaded as a whole or not at all.  All its numbers are checked before the first
one is copied, and then the mailboxes hold what single writes would have put into them.  The
copy exchanges a part of the row in which the mailboxes lie.  Nothing keeps such a row at its
length but that as many numbers are put in as are taken out.

Main definitions:

- `Memory.writeFrom` writes numbers into one mailbox after the other.
- `Memory.RefusesLoad` lists the reasons for which a program is refused.
- `Shelf` is the row of numbers in which the mailboxes lie, and `Shelf.load` loads a program
  into it.

Main results:

- Theorem `Memory.writeFrom_words`: single writes of words put the words over the mailboxes.
- Theorem `Memory.load_eq_error_iff`: the fault with which a program is refused.
- Theorem `Shelf.load_eq`: the row holds what the mailboxes hold, whether the program is
  loaded or refused.
- Theorem `Memory.load_whole_or_nothing` joins them.
-/

namespace Mailroom

/-! ## Slices -/

/-- A position within a list names itself. -/
theorem slicePosition_of_le {length n : Nat} (h : n ≤ length) : slicePosition length n = n := by
  have hn : ¬ (n : Int) < 0 := by omega
  rw [slicePosition, if_neg hn, Int.toNat_natCast, Nat.min_eq_left h]

/-- The middle of three parts is the slice between their borders. -/
theorem slice_append {α : Type} (before part after : List α) :
    slice (before ++ part ++ after) before.length (before.length + part.length) = part := by
  have hfirst : before.length ≤ (before ++ part ++ after).length := by
    simp only [List.length_append]
    omega
  have hlast : (before ++ part).length ≤ (before ++ part ++ after).length := by
    simp only [List.length_append]
    omega
  rw [← Int.natCast_add, ← List.length_append, slice, slicePosition_of_le hfirst,
    slicePosition_of_le hlast, List.take_left, List.drop_left]

namespace Memory

/-! ## The mailboxes in a row -/

/-- Memories are equal when their mailboxes hold the same. -/
theorem ext_get {m left : Memory} (h : ∀ a, m.get a = left.get a) : m = left := by
  obtain ⟨boxes⟩ := m
  obtain ⟨boxes'⟩ := left
  congr 1
  apply Vector.ext
  intro i hi
  exact h ⟨i, hi⟩

/-- There are one hundred numbers in a memory. -/
@[simp] theorem length_values (m : Memory) : m.values.length = 100 := by
  simp [values]

/-- The first `n` of them are `n` numbers. -/
theorem length_take_values (m : Memory) {n : Nat} (h : n ≤ 100) :
    (m.values.take n).length = n := by
  rw [List.length_take, length_values, Nat.min_eq_left h]

/-- The numbers of a memory are those in its mailboxes. -/
theorem getElem?_values (m : Memory) (a : Address) :
    m.values[a.val]? = some (m.get a).val := by
  simp [values, get]

/-- Words that are put over the mailboxes take the place of as many numbers. -/
theorem values_overlay (m : Memory) {offset : Nat} {words : List Word}
    (h : offset + words.length ≤ 100) :
    (m.overlay offset words).values =
      m.values.take offset ++ words.map (·.val) ++ m.values.drop (offset + words.length) := by
  have hbefore := m.length_take_values (n := offset) (by omega)
  apply List.ext_getElem?
  intro i
  by_cases hi : i < 100
  · have hleft : (m.overlay offset words).values[i]? = _ := getElem?_values _ ⟨i, hi⟩
    have hright : m.values[i]? = _ := getElem?_values _ ⟨i, hi⟩
    rw [hleft, get_overlay, List.append_assoc]
    by_cases hbelow : i < offset
    · rw [if_pos hbelow, List.getElem?_append_left (by omega), List.getElem?_take_of_lt hbelow,
        hright]
    · rw [if_neg hbelow, List.getElem?_append_right (by omega), hbefore]
      by_cases hwithin : i - offset < words.length
      · rw [List.getElem?_append_left (by rwa [List.length_map]), List.getElem?_map,
          List.getElem?_eq_getElem hwithin]
        rfl
      · have hbehind : words[i - offset]? = none := List.getElem?_eq_none (by omega)
        have hindex : offset + words.length + (i - offset - words.length) = i := by omega
        rw [List.getElem?_append_right (by rw [List.length_map]; omega), List.length_map,
          List.getElem?_drop, hindex, hright, hbehind]
        rfl
  · rw [List.getElem?_eq_none, List.getElem?_eq_none]
    · simp only [List.length_append, hbefore, List.length_map, List.length_drop, length_values]
      omega
    · rw [length_values]
      omega

/-! ## Single writes -/

/-- Write numbers into one mailbox after the other, from number `address` on.  The first
write that fails is the last. -/
def writeFrom (m : Memory) (address : Int) : List Int → Except Fault Memory
  | [] => .ok m
  | value :: rest =>
    match m.write address value with
    | .ok left => left.writeFrom (address + 1) rest
    | .error f => .error f

/-- A word is written into every mailbox. -/
theorem write_word (m : Memory) (a : Address) (w : Word) :
    m.write a.val w.val = .ok (m.set a w) := by
  rw [write, Address.ofInt?_val]
  simp only [put, Word.ofInt?_val]

/-- The first of some words can be put into its mailbox before the others. -/
theorem overlay_cons (m : Memory) (a : Address) (w : Word) (rest : List Word) :
    m.overlay a.val (w :: rest) = (m.set a w).overlay (a.val + 1) rest := by
  apply ext_get
  intro b
  rw [get_overlay, get_overlay]
  rcases Nat.lt_trichotomy b.val a.val with hbelow | hsame | habove
  · have hne : a ≠ b := fun hab => absurd (congrArg Fin.val hab) (by omega)
    rw [if_pos hbelow, if_pos (by omega), get_set_of_ne m w hne]
  · obtain rfl := Fin.ext hsame
    rw [if_neg (Nat.lt_irrefl _), if_pos (Nat.lt_succ_self _), Nat.sub_self, get_set_self]
    rfl
  · have hne : a ≠ b := fun hab => absurd (congrArg Fin.val hab) (by omega)
    have hindex : b.val - a.val = b.val - (a.val + 1) + 1 := by omega
    rw [if_neg (by omega), if_neg (by omega), hindex, List.getElem?_cons_succ,
      get_set_of_ne m w hne]

/-- Words are put over the mailboxes by single writes, of which none fails. -/
theorem writeFrom_words (m : Memory) {offset : Nat} {words : List Word}
    (h : offset + words.length ≤ 100) :
    m.writeFrom offset (words.map (·.val)) = .ok (m.overlay offset words) := by
  induction words generalizing m offset with
  | nil =>
    have hsame : m.overlay offset [] = m := by
      apply ext_get
      intro a
      rw [get_overlay]
      split <;> rfl
    rw [hsame]
    rfl
  | cons w rest ih =>
    rw [List.length_cons] at h
    have hwrite := m.write_word ⟨offset, by omega⟩ w
    have hbehind : offset + 1 + rest.length ≤ 100 := by omega
    rw [List.map_cons, writeFrom, hwrite, m.overlay_cons ⟨offset, by omega⟩]
    exact ih (m.set ⟨offset, by omega⟩ w) hbehind

/-! ## Refused programs -/

/-- The faults with which the load of a program is refused: the program does not end before
the last mailbox, or else its first number that is no word is named, with the mailbox that
it was meant for. -/
inductive RefusesLoad (program : List Int) (offset : Int) : Fault → Prop
  | doesNotFit (h : offset < 0 ∨ 99 < offset + program.length) :
      RefusesLoad program offset (.doesNotFit program.length offset)
  | tooWide {before after : List Int} {v : Int}
      (hoffset : 0 ≤ offset) (hlength : offset + program.length ≤ 99)
      (hprogram : program = before ++ v :: after) (hbefore : ∀ u ∈ before, Fits u)
      (hv : ¬ Fits v) : RefusesLoad program offset (.wordTooWide (offset + before.length) v)

/-- A number that does not fit, behind numbers that do, is refused with its mailbox. -/
theorem wordsOf_of_not_fits {address : Int} {before : List Int} {v : Int}
    (hbefore : ∀ u ∈ before, Fits u) (hv : ¬ Fits v) (after : List Int) :
    wordsOf address (before ++ v :: after) =
      .error (.wordTooWide (address + before.length) v) := by
  induction before generalizing address with
  | nil =>
    rw [List.nil_append, wordsOf, Word.ofInt?_of_not_fits hv]
    simp
  | cons u before ih =>
    obtain ⟨w, rfl⟩ := Word.exists_of_fits (hbefore u List.mem_cons_self)
    have hrest := @ih (address + 1) fun x hx => hbefore x (List.mem_cons_of_mem _ hx)
    have haddress : address + 1 + before.length = address + (before.length + 1 : Nat) := by
      omega
    rw [List.cons_append, wordsOf, Word.ofInt?_val]
    simp only [hrest, haddress, List.length_cons, Except.map]

/-- A program is refused with each of its faults. -/
theorem RefusesLoad.load_eq {program : List Int} {offset : Int} {f : Fault}
    (h : RefusesLoad program offset f) (m : Memory) : m.load program offset = .error f := by
  cases h with
  | doesNotFit h => rw [load, if_pos h]
  | tooWide hoffset hlength hprogram hbefore hv =>
    subst hprogram
    rw [load, if_neg (by omega), wordsOf_of_not_fits hbefore hv]
    rfl

/-- Words are read from their numbers. -/
theorem wordsOf_map_val (address : Int) (words : List Word) :
    wordsOf address (words.map (·.val)) = .ok words := by
  induction words generalizing address with
  | nil => rfl
  | cons w rest ih =>
    rw [List.map_cons, wordsOf, Word.ofInt?_val]
    simp only [ih, Except.map]

/-- Words that end before the last mailbox are put over the mailboxes. -/
theorem load_words (m : Memory) {words : List Word} {offset : Nat}
    (h : offset + words.length ≤ 99) :
    m.load (words.map (·.val)) offset = .ok (m.overlay offset words) := by
  have hfits : ¬ ((offset : Int) < 0 ∨
      99 < (offset : Int) + ((words.map (·.val)).length : Int)) := by
    rw [List.length_map]
    omega
  rw [load, if_neg hfits, wordsOf_map_val, Int.toNat_natCast]
  rfl

/-- A program is refused, or else it consists of words that end before the last mailbox. -/
theorem refusesLoad_or_words (program : List Int) (offset : Int) :
    (∃ f, RefusesLoad program offset f) ∨
      ∃ (start : Nat) (words : List Word), offset = start ∧ program = words.map (·.val) ∧
        start + words.length ≤ 99 := by
  by_cases hplace : offset < 0 ∨ 99 < offset + program.length
  · exact .inl ⟨_, .doesNotFit hplace⟩
  · rcases Image.fits_or_first program with hall | ⟨before, v, after, hprogram, hbefore, hv⟩
    · obtain ⟨words, rfl⟩ := Image.exists_words_of_fits hall
      obtain ⟨start, rfl⟩ := Int.eq_ofNat_of_zero_le (a := offset) (by omega)
      rw [List.length_map] at hplace
      exact .inr ⟨start, words, rfl, rfl, by omega⟩
    · exact .inl ⟨_, .tooWide (by omega) (by omega) hprogram hbefore hv⟩

/-- A program is refused with its faults, and with no other ones. -/
theorem load_eq_error_iff {m : Memory} {program : List Int} {offset : Int} {f : Fault} :
    m.load program offset = .error f ↔ RefusesLoad program offset f := by
  constructor
  · intro hrefused
    rcases refusesLoad_or_words program offset with ⟨f', hf'⟩ | ⟨start, words, rfl, rfl, h⟩
    · rw [hf'.load_eq m] at hrefused
      cases hrefused
      exact hf'
    · rw [m.load_words h] at hrefused
      contradiction
  · intro hrefuses
    exact hrefuses.load_eq m

/-- A program that is loaded consists of words, which are put over the mailboxes. -/
theorem exists_words_of_load {m left : Memory} {program : List Int} {offset : Int}
    (h : m.load program offset = .ok left) :
    ∃ (start : Nat) (words : List Word), offset = start ∧ program = words.map (·.val) ∧
      start + words.length ≤ 99 ∧ left = m.overlay start words := by
  rcases refusesLoad_or_words program offset with ⟨f, hf⟩ | ⟨start, words, rfl, rfl, hfits⟩
  · rw [hf.load_eq m] at h
    contradiction
  · rw [m.load_words hfits] at h
    exact ⟨start, words, rfl, rfl, hfits, (Except.ok.inj h).symm⟩

/-- Exactly the programs of words that end before the last mailbox are loaded. -/
theorem exists_load_iff {m : Memory} {program : List Int} {offset : Int} :
    (∃ left, m.load program offset = .ok left) ↔
      0 ≤ offset ∧ offset + program.length ≤ 99 ∧ ∀ v ∈ program, Fits v := by
  constructor
  · rintro ⟨left, hload⟩
    obtain ⟨start, words, rfl, rfl, hfits, -⟩ := exists_words_of_load hload
    refine ⟨Int.natCast_nonneg start, ?_, ?_⟩
    · rw [List.length_map]
      omega
    · intro v hv
      obtain ⟨w, -, rfl⟩ := List.mem_map.mp hv
      exact w.fits_val
  · rintro ⟨hoffset, hlength, hfits⟩
    obtain ⟨start, rfl⟩ := Int.eq_ofNat_of_zero_le hoffset
    have hplace : start + program.length ≤ 99 := by omega
    obtain ⟨left, hload, -⟩ := m.exists_load hfits hplace
    exact ⟨left, hload⟩

/-- The part of the mailboxes that was loaded shows the program. -/
theorem dump_overlay (m : Memory) {offset : Nat} {words : List Word}
    (h : offset + words.length ≤ 99) :
    (m.overlay offset words).dump offset (words.map (·.val)).length =
      words.map (·.val) := by
  have hbefore := m.length_take_values (n := offset) (by omega)
  have hpart := slice_append (m.values.take offset) (words.map (·.val))
    (m.values.drop (offset + words.length))
  rwa [hbefore, ← m.values_overlay (by omega)] at hpart

end Memory

/-- The mailboxes of a new emulator hold its program, and 0 around it. -/
theorem Emulator.mailboxes_of_new {c : Configuration} {e : Emulator}
    (h : (new c).outcome = .ok e) (a : Address) :
    (e.machine.memory.get a).val =
      if (a.val : Int) < c.offset then 0 else c.program.getD (a.val - c.offset).toNat 0 := by
  obtain ⟨memory, rfl, ⟨hnil, rfl⟩ | hload⟩ := exists_loaded h
  · rw [hnil, List.getD_nil, ite_self]
    exact Memory.get_empty a
  · obtain ⟨start, words, hstart, hwords, -, rfl⟩ := Memory.exists_words_of_load hload
    have hplace : ((a.val : Int) - start).toNat = a.val - start := by omega
    have hget : (started c (Memory.empty.overlay start words)).memory.get a = _ :=
      Memory.get_overlay .empty start words a
    simp only [hstart, hwords, Int.ofNat_lt, hplace, hget, List.getD_eq_getElem?_getD,
      List.getElem?_map, apply_ite Word.val, Memory.get_empty]
    cases words[a.val - start]? <;> simp

/-! ## The row of numbers -/

/-- The numbers of the mailboxes, in a row. -/
structure Shelf where
  numbers : List Int
  deriving DecidableEq, Repr

namespace Shelf

/-- Exchange the part between two positions for other numbers, of whatever count. -/
def exchange (s : Shelf) (start stop : Int) (part : List Int) : Shelf :=
  let first := slicePosition s.numbers.length start
  let last := slicePosition s.numbers.length stop
  ⟨s.numbers.take first ++ part ++ s.numbers.drop (max first last)⟩

/-- The fault of the first number that is no word, if there is one. -/
def firstTooWide? (address : Int) : List Int → Option Fault
  | [] => none
  | value :: rest =>
    if Fits value then firstTooWide? (address + 1) rest
    else some (.wordTooWide address value)

/-- Load a program into the row.  The result is the fault with which it is refused, if it
is, and the row that is left. -/
def load (s : Shelf) (program : List Int) (offset : Int) : Option Fault × Shelf :=
  if offset < 0 ∨ 99 < offset + program.length then
    (some (.doesNotFit program.length offset), s)
  else
    match firstTooWide? offset program with
    | some f => (some f, s)
    | none => (none, s.exchange offset (offset + program.length) program)

/-- Among words there is none that is too wide. -/
theorem firstTooWide?_words (address : Int) (words : List Word) :
    firstTooWide? address (words.map (·.val)) = none := by
  induction words generalizing address with
  | nil => rfl
  | cons w rest ih => rw [List.map_cons, firstTooWide?, if_pos w.fits_val, ih]

/-- A number that does not fit is the first too wide one, if those before it fit. -/
theorem firstTooWide?_of_not_fits {address : Int} {before : List Int} {v : Int}
    (hbefore : ∀ u ∈ before, Fits u) (hv : ¬ Fits v) (after : List Int) :
    firstTooWide? address (before ++ v :: after) =
      some (.wordTooWide (address + before.length) v) := by
  induction before generalizing address with
  | nil =>
    rw [List.nil_append, firstTooWide?, if_neg hv]
    simp
  | cons u before ih =>
    have hrest := @ih (address + 1) fun x hx => hbefore x (List.mem_cons_of_mem _ hx)
    have haddress : address + 1 + before.length = address + (before.length + 1 : Nat) := by
      omega
    rw [List.cons_append, firstTooWide?, if_pos (hbefore u List.mem_cons_self), hrest,
      haddress, List.length_cons]

/-- As many numbers are taken out of the row as words are put over the mailboxes. -/
theorem exchange_values (m : Memory) {offset : Nat} {words : List Word}
    (h : offset + words.length ≤ 100) :
    (⟨m.values⟩ : Shelf).exchange offset (offset + (words.map (·.val)).length)
      (words.map (·.val)) = ⟨(m.overlay offset words).values⟩ := by
  have hstart : offset ≤ m.values.length := by
    rw [Memory.length_values]
    omega
  have hstop : offset + words.length ≤ m.values.length := by
    rwa [Memory.length_values]
  rw [exchange, List.length_map, ← Int.natCast_add, slicePosition_of_le hstart,
    slicePosition_of_le hstop, Nat.max_eq_right (Nat.le_add_right _ _), m.values_overlay h]

/-- A program that is loaded into the row of a memory leaves the row of the memory that it
is loaded into, and one that is refused leaves the row as it is. -/
theorem load_eq (m : Memory) (program : List Int) (offset : Int) :
    (⟨m.values⟩ : Shelf).load program offset =
      match m.load program offset with
      | .ok left => (none, ⟨left.values⟩)
      | .error f => (some f, ⟨m.values⟩) := by
  rcases Memory.refusesLoad_or_words program offset with
    ⟨f, hf⟩ | ⟨start, words, rfl, rfl, hfits⟩
  · rw [hf.load_eq m]
    cases hf with
    | doesNotFit h => rw [load, if_pos h]
    | tooWide hoffset hlength hprogram hbefore hv =>
      subst hprogram
      rw [load, if_neg (by omega), firstTooWide?_of_not_fits hbefore hv]
  · have hplace : ¬ ((start : Int) < 0 ∨
        99 < (start : Int) + ((words.map (·.val)).length : Int)) := by
      rw [List.length_map]
      omega
    rw [m.load_words hfits, load, if_neg hplace, firstTooWide?_words]
    exact congrArg (Prod.mk none) (exchange_values m (by omega))

end Shelf

/-! ## Loading -/

/-- Every program is refused with a fault of its own or loaded as a whole.  It is refused if
it does not end before the last mailbox, or else for its first number that is no word.
Loading it does what single writes do, of which none fails; it can be read back, and all
other mailboxes hold what they held, the last one among them.  In the row of the mailboxes
the same happens, where a refused program leaves every number as it was, and a loaded one
leaves one hundred of them. -/
theorem Memory.load_whole_or_nothing (m : Memory) (program : List Int) (offset : Int) :
    (∀ f, m.load program offset = .error f ↔ RefusesLoad program offset f) ∧
    ((∃ left, m.load program offset = .ok left) ↔
      0 ≤ offset ∧ offset + program.length ≤ 99 ∧ ∀ v ∈ program, Fits v) ∧
    (∀ left, m.load program offset = .ok left →
      m.writeFrom offset program = .ok left ∧
      left.dump offset program.length = program ∧
      left.get 99 = m.get 99 ∧
      ∀ a : Address, (a.val : Int) < offset ∨ offset + program.length ≤ a.val →
        left.get a = m.get a) ∧
    (⟨m.values⟩ : Shelf).load program offset =
      (match m.load program offset with
      | .ok left => (none, ⟨left.values⟩)
      | .error f => (some f, ⟨m.values⟩)) ∧
    ((⟨m.values⟩ : Shelf).load program offset).2.numbers.length = 100 := by
  refine ⟨fun f => load_eq_error_iff, exists_load_iff, ?_, Shelf.load_eq m program offset, ?_⟩
  · intro left hload
    obtain ⟨start, words, rfl, rfl, hfits, rfl⟩ := exists_words_of_load hload
    have houtside : ∀ a : Address, (a.val : Int) < start ∨
        (start : Int) + (words.map (·.val)).length ≤ a.val →
        (m.overlay start words).get a = m.get a := by
      intro a ha
      rw [List.length_map] at ha
      rw [get_overlay]
      split
      · rfl
      · rw [List.getElem?_eq_none (by omega)]
        rfl
    refine ⟨m.writeFrom_words (by omega), m.dump_overlay hfits, houtside 99 (.inr ?_),
      houtside⟩
    rw [List.length_map]
    exact_mod_cast hfits
  · rw [Shelf.load_eq]
    cases m.load program offset with
    | ok left => exact left.length_values
    | error f => exact m.length_values

/-- A program that reaches up to the last mailbox, an empty one behind the mailboxes that can
be loaded, and one whose second number is no word. -/
theorem Memory.load_whole_or_nothing_at_the_edge :
    let m := (Memory.empty.set 95 ⟨7, by decide, by decide⟩).set 99 ⟨-8, by decide, by decide⟩
    (∃ left, m.load [901, -32768, 32767] 96 = .ok left ∧
      m.writeFrom 96 [901, -32768, 32767] = .ok left ∧
      left.dump 96 3 = [901, -32768, 32767] ∧ left.get 99 = m.get 99 ∧
      left.get 95 = m.get 95) ∧
    m.load [] 100 = .error (.doesNotFit 0 100) ∧
    m.load [901, 32768, -40000] 96 = .error (.wordTooWide 97 32768) := by
  intro m
  obtain ⟨-, hloads, hleft, -⟩ := m.load_whole_or_nothing [901, -32768, 32767] 96
  obtain ⟨left, hload⟩ := hloads.mpr (by decide)
  obtain ⟨hwrites, hdump, hlast, houtside⟩ := hleft left hload
  refine ⟨⟨left, hload, hwrites, hdump, hlast, houtside 95 (.inl (by decide))⟩, ?_, ?_⟩
  · exact ((m.load_whole_or_nothing [] 100).1 _).mpr (.doesNotFit (.inr (by decide)))
  · have hprogram : ([901, 32768, -40000] : List Int) = [901] ++ 32768 :: [-40000] := rfl
    exact ((m.load_whole_or_nothing [901, 32768, -40000] 96).1 _).mpr
      (.tooWide (by decide) (by decide) hprogram (by decide) (by decide))

end Mailroom
