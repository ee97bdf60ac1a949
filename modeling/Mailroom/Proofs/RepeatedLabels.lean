import Mailroom.Proofs.Strictness

/-!
# Warnings about repeated labels

Without strict labels an assembler warns of every label whose name stands on an earlier
instruction.  The warning says where the name was `first defined`, and gives the place of the
label that is bound at that moment, which is the last of the earlier ones.  So the first
definition is named in the warning about the second, and not in those about later ones.

Main definitions:

- `Repeats` says that a label repeats one on an earlier instruction; `RepeatsFirst` and
  `RepeatsLatest` single out the first and the last of these.
- `WarnsOf` lists the warnings of a program in which every repeated label has one.

Main results:

- Theorem `warnings_bindLabels_permissive`: binding labels warns of those that are bound.
- Theorem `warnsOf_latest`: the warnings name the last of the earlier labels.
- Theorem `warnsOf_first_iff`: when they name the first of them as well.
- Theorem `Assembler.warnings_name_latest` joins them.
-/

namespace Mailroom

open Slot

/-! ## Repeated labels -/

/-- The label on instruction `n` has the name of the label on the earlier instruction `m`. -/
structure Repeats (tokens : List Token) (earlier : Located String) (m : Nat)
    (label : Located String) (n : Nat) : Prop where
  heads_earlier : Heads tokens earlier m
  heads : Heads tokens label n
  lt : m < n
  name : earlier.value = label.value

/-- Of the earlier labels with the same name this is the first. -/
def RepeatsFirst (tokens : List Token) (earlier : Located String) (m : Nat)
    (label : Located String) (n : Nat) : Prop :=
  Repeats tokens earlier m label n ∧ ∀ other k, Repeats tokens other k label n → m ≤ k

/-- Of the earlier labels with the same name this is the last. -/
def RepeatsLatest (tokens : List Token) (earlier : Located String) (m : Nat)
    (label : Located String) (n : Nat) : Prop :=
  Repeats tokens earlier m label n ∧ ∀ other k, Repeats tokens other k label n → k ≤ m

/-- One warning for every repeated label, in the order of the instructions.  Which of the
earlier labels a warning names is told by `chosen`. -/
def WarnsOf (tokens : List Token)
    (chosen : Located String → Nat → Located String → Nat → Prop) (ws : List Notice) :
    Prop :=
  ∃ warningAt : Nat → Option Notice,
    (∀ n w, warningAt n = some w ↔ ∃ earlier m label, chosen earlier m label n ∧
      w = .labelRedefined label.location label.value earlier.location) ∧
    ws = (List.range (instructionsOf tokens).length).filterMap warningAt

variable {tokens : List Token} {earlier other label : Located String} {k m n : Nat}

/-- A repeated label repeats a first one and a last one. -/
theorem Repeats.exists_ends (h : Repeats tokens earlier m label n) :
    (∃ first k, RepeatsFirst tokens first k label n) ∧
      ∃ last k, RepeatsLatest tokens last k label n := by
  classical
  have hexists : ∃ k other, Repeats tokens other k label n := ⟨m, earlier, h⟩
  constructor
  · obtain ⟨first, hfirst⟩ := Nat.find_spec hexists
    exact ⟨first, _, hfirst, fun other k hk => Nat.find_min' hexists ⟨other, hk⟩⟩
  · have hbound : ∀ k, (∃ other, Repeats tokens other k label n) → k ≤ n :=
      fun k ⟨_, hk⟩ => hk.lt.le
    obtain ⟨last, hlast⟩ := Nat.findGreatest_spec (P := fun k => ∃ other,
      Repeats tokens other k label n) h.lt.le ⟨earlier, h⟩
    exact ⟨last, _, hlast, fun other k hk =>
      Nat.le_findGreatest (hbound k ⟨other, hk⟩) ⟨other, hk⟩⟩

/-! ## Binding labels -/

/-- The warning about the label on slot `n`, where the labels of `symbols` are bound before the
first slot. -/
def redefinitionAt (index : Nat) (symbols : SymbolTable) (slots : List Slot) (n : Nat) :
    Option Notice :=
  (labelAt slots n).bind fun label =>
    ((lastBinding index label.value (slots.take n)).or (symbols.find? label.value)).map
      (redefinition label)

section Slots

variable {index : Nat} {symbols : SymbolTable} {slot : Slot} {rest : List Slot}

/-- A slot without a label does not matter to the warnings about the slots after it. -/
theorem redefinitionAt_succ_of_none (h : slot.label = none) (n : Nat) :
    redefinitionAt index symbols (slot :: rest) (n + 1) =
      redefinitionAt (index + 1) symbols rest n := by
  simp only [redefinitionAt, labelAt_cons_succ, List.take_succ_cons, lastBinding, h,
    Option.bind_none, Option.or_none]

/-- The label of a slot is bound for the slots after it. -/
theorem redefinitionAt_succ_of_some (h : slot.label = some label) (n : Nat) :
    redefinitionAt index symbols (slot :: rest) (n + 1) =
      redefinitionAt (index + 1) (symbols.bind label index) rest n := by
  simp only [redefinitionAt, labelAt_cons_succ, List.take_succ_cons, lastBinding, h,
    Option.bind_some, find?_insert_eq, Option.or_assoc]

/-- The first slot gives a warning if its label is bound before. -/
theorem redefinitionAt_zero :
    redefinitionAt index symbols (slot :: rest) 0 =
      slot.label.bind fun label => (symbols.find? label.value).map (redefinition label) := by
  simp only [redefinitionAt, labelAt_cons_zero, List.take_zero, lastBinding, Option.none_or]

/-- Binding labels that are not strict gives the warnings of the slots in order. -/
theorem warnings_bindLabels_permissive (index : Nat) (symbols : SymbolTable)
    (slots : List Slot) :
    warnings (bindLabels false index symbols slots).notices =
      (List.range slots.length).filterMap (redefinitionAt index symbols slots) := by
  induction slots generalizing index symbols with
  | nil => rfl
  | cons slot rest ih =>
    rw [List.length_cons, List.range_succ_eq_map, List.filterMap_cons, List.filterMap_map,
      redefinitionAt_zero]
    cases hlabel : slot.label with
    | none =>
      rw [bindLabels_cons_of_none hlabel, ih]
      simp only [Option.bind_none, Function.comp_def, Nat.succ_eq_add_one,
        redefinitionAt_succ_of_none hlabel]
    | some label =>
      have hlater := ih (index + 1) (symbols.bind label index)
      simp only [Option.bind_some, Function.comp_def, Nat.succ_eq_add_one,
        redefinitionAt_succ_of_some hlabel]
      cases hfound : symbols.find? label.value with
      | none =>
        rw [bindLabels_cons_of_new hlabel hfound, warnings_labelBound_cons, hlater]
        rfl
      | some earlier =>
        rw [bindLabels_permissive_cons_of_bound hlabel hfound, warnings_redefinition_cons,
          warnings_labelBound_cons, hlater]
        rfl

end Slots

/-! ## The label that a warning names -/

/-- Among the first slots a name is bound to the last instruction with the label. -/
theorem lastBinding_take_eq_some_iff {x : String} {b : Binding} :
    lastBinding 0 x ((ofTokens tokens).take n) = some b ↔
      ∃ m earlier, m < n ∧ Heads tokens earlier m ∧ earlier.value = x ∧
        b = ⟨m, earlier.location⟩ ∧
        ∀ k other, k < n → Heads tokens other k → other.value = x → k ≤ m := by
  have htake : ∀ {k other}, labelAt ((ofTokens tokens).take n) k = some other ↔
      k < n ∧ Heads tokens other k := by
    intro k other
    rw [← labelAt_ofTokens_iff]
    exact ⟨labelAt_of_take, fun ⟨hk, hother⟩ => by rw [labelAt_take hk, hother]⟩
  simp only [lastBinding_eq_some_iff, htake, Nat.zero_add, and_assoc, and_imp]

/-- A slot gives a warning when its label is repeated, and the warning names the last of the
earlier labels. -/
theorem redefinitionAt_ofTokens_iff {w : Notice} :
    redefinitionAt 0 .empty (ofTokens tokens) n = some w ↔
      ∃ earlier m label, RepeatsLatest tokens earlier m label n ∧
        w = .labelRedefined label.location label.value earlier.location := by
  simp only [redefinitionAt, Table.find?_empty, Option.or_none, Option.bind_eq_some_iff,
    Option.map_eq_some_iff, labelAt_ofTokens_iff, lastBinding_take_eq_some_iff]
  constructor
  · rintro ⟨label, hlabel, b, ⟨m, earlier, hlt, hearlier, hname, rfl, hlast⟩, rfl⟩
    exact ⟨earlier, m, label, ⟨⟨hearlier, hlabel, hlt, hname⟩,
      fun other k hk => hlast k other hk.lt hk.heads_earlier hk.name⟩, rfl⟩
  · rintro ⟨earlier, m, label, ⟨⟨hearlier, hlabel, hlt, hname⟩, hlast⟩, rfl⟩
    exact ⟨label, hlabel, _, ⟨m, earlier, hlt, hearlier, hname, rfl,
      fun k other hk hother hx => hlast other k ⟨hother, hlabel, hk, hx⟩⟩, rfl⟩

/-- The warnings about a program name the last of the earlier labels. -/
theorem warnsOf_latest (tokens : List Token) :
    WarnsOf tokens (RepeatsLatest tokens)
      (warnings (symbolsOf false (ofTokens tokens)).notices) := by
  refine ⟨_, fun n w => redefinitionAt_ofTokens_iff, ?_⟩
  rw [symbolsOf, warnings_bindLabels_permissive, length_ofTokens]

/-! ## The first of the earlier labels -/

/-- Two ways to choose from the same elements that give the same list choose alike. -/
theorem eq_of_filterMap_eq {α β : Type} {f g : α → Option β} {xs : List α}
    (hsame : ∀ x ∈ xs, (f x).isSome = (g x).isSome)
    (h : xs.filterMap f = xs.filterMap g) : ∀ x ∈ xs, f x = g x := by
  induction xs with
  | nil => exact fun x hx => absurd hx List.not_mem_nil
  | cons a rest ih =>
    have hrest := fun x hx => hsame x (List.mem_cons_of_mem _ hx)
    have ha := hsame a List.mem_cons_self
    rw [List.forall_mem_cons]
    cases hf : f a with
    | none =>
      have hg : g a = none := by simpa [hf] using ha.symm
      rw [List.filterMap_cons_none hf, List.filterMap_cons_none hg] at h
      exact ⟨hg.symm, ih hrest h⟩
    | some b =>
      obtain ⟨c, hg⟩ := Option.isSome_iff_exists.mp (ha.symm.trans (by rw [hf]; rfl))
      rw [List.filterMap_cons_some hf, List.filterMap_cons_some hg] at h
      obtain ⟨rfl, hlists⟩ := List.cons.inj h
      exact ⟨hg.symm, ih hrest hlists⟩

/-- Where a repeated label has its warning, the first and the last earlier label stand at one
place. -/
def FirstIsLatest (tokens : List Token) : Prop :=
  ∀ first k last m label n, RepeatsFirst tokens first k label n →
    RepeatsLatest tokens last m label n → first.location = last.location

/-- The warnings about a program name the first of the earlier labels exactly when it stands
where the last one does. -/
theorem warnsOf_first_iff (tokens : List Token) :
    WarnsOf tokens (RepeatsFirst tokens)
        (warnings (symbolsOf false (ofTokens tokens)).notices) ↔ FirstIsLatest tokens := by
  obtain ⟨warningAt, hlatest, hws⟩ := warnsOf_latest tokens
  constructor
  · rintro ⟨claimedAt, hclaimed, hsame⟩ first k last m label n hfirst hlast
    have hsome : ∀ n, (warningAt n).isSome = (claimedAt n).isSome := by
      intro n
      rw [Bool.eq_iff_iff, Option.isSome_iff_exists, Option.isSome_iff_exists]
      simp only [hlatest, hclaimed]
      constructor
      · rintro ⟨w, earlier, m, label, h, -⟩
        obtain ⟨first, k, hk⟩ := h.1.exists_ends.1
        exact ⟨_, first, k, label, hk, rfl⟩
      · rintro ⟨w, earlier, m, label, h, -⟩
        obtain ⟨last, k, hk⟩ := h.1.exists_ends.2
        exact ⟨_, last, k, label, hk, rfl⟩
    have hn : n ∈ List.range (instructionsOf tokens).length :=
      List.mem_range.mpr hfirst.1.heads.lt_length
    have heq := eq_of_filterMap_eq (fun n _ => hsome n) (hws.symm.trans hsame) n hn
    rw [(hlatest n _).mpr ⟨last, m, label, hlast, rfl⟩,
      (hclaimed n _).mpr ⟨first, k, label, hfirst, rfl⟩] at heq
    simp only [Option.some.injEq, Notice.labelRedefined.injEq] at heq
    exact heq.2.2.symm
  · intro hsame
    refine ⟨warningAt, fun n w => ?_, hws⟩
    rw [hlatest]
    constructor
    · rintro ⟨last, m, label, hlast, rfl⟩
      obtain ⟨first, k, hfirst⟩ := hlast.1.exists_ends.1
      exact ⟨first, k, label, hfirst, by rw [hsame _ _ _ _ _ _ hfirst hlast]⟩
    · rintro ⟨first, k, label, hfirst, rfl⟩
      obtain ⟨last, m, hlast⟩ := hfirst.1.exists_ends.2
      exact ⟨last, m, label, hlast, by rw [hsame _ _ _ _ _ _ hfirst hlast]⟩

namespace Assembler

/-- Without strict labels there is one warning for every label whose name stands on an earlier
instruction, in the order of the program.  It gives the place of the label itself and, as the
place of the first definition, that of the last earlier label with the name.  This is the place
of the first earlier label for all warnings exactly when these two never differ. -/
theorem warnings_name_latest (tokens : List Token) :
    let ws := warnings ((new false).generate tokens).2.notices
    WarnsOf tokens (RepeatsLatest tokens) ws ∧
      (WarnsOf tokens (RepeatsFirst tokens) ws ↔ FirstIsLatest tokens) ∧
      ∀ (place first : SourceLocation) (name : String),
        (Notice.labelRedefined place name first).text = place.text ++ ": label " ++
          inQuotes name ++ " redefined, first defined at " ++ first.text := by
  intro ws
  have hws : ws = warnings (symbolsOf false (ofTokens tokens)).notices :=
    warnings_generate (new false) tokens
  rw [hws]
  exact ⟨warnsOf_latest tokens, warnsOf_first_iff tokens, fun _ _ _ => rfl⟩

/-- A program with a label on three instructions. -/
def threefoldTokens : List Token :=
  [.label ⟨"a", ⟨"<input>", 1, 1⟩, ".a"⟩,
    .instruction ⟨.plain .read none, ⟨"<input>", 2, 1⟩, "read"⟩,
    .label ⟨"a", ⟨"<input>", 3, 1⟩, ".a"⟩,
    .instruction ⟨.plain .read none, ⟨"<input>", 4, 1⟩, "read"⟩,
    .label ⟨"a", ⟨"<input>", 5, 1⟩, ".a"⟩,
    .instruction ⟨.plain .stop none, ⟨"<input>", 6, 1⟩, "stop"⟩]

/-- The warning about the third label does not name the first one. -/
theorem warnings_of_third_label :
    ¬ WarnsOf threefoldTokens (RepeatsFirst threefoldTokens)
      (warnings ((new false).generate threefoldTokens).2.notices) := by
  rw [warnings_generate, new, warnsOf_first_iff]
  intro hsame
  have hheads : ∀ {label n}, labelAt (ofTokens threefoldTokens) n = some label →
      Heads threefoldTokens label n := labelAt_ofTokens_iff.mp
  have hthird : Heads threefoldTokens ⟨"a", ⟨"<input>", 5, 1⟩, ".a"⟩ 2 := hheads rfl
  have hfirst : RepeatsFirst threefoldTokens ⟨"a", ⟨"<input>", 1, 1⟩, ".a"⟩ 0 _ 2 :=
    ⟨⟨hheads rfl, hthird, by decide, rfl⟩, fun _ k _ => Nat.zero_le k⟩
  have hlast : RepeatsLatest threefoldTokens ⟨"a", ⟨"<input>", 3, 1⟩, ".a"⟩ 1 _ 2 :=
    ⟨⟨hheads rfl, hthird, by decide, rfl⟩, fun _ k hk => Nat.le_of_lt_succ hk.lt⟩
  exact absurd (hsame _ _ _ _ _ _ hfirst hlast) (by decide)

end Assembler

end Mailroom
