import Mailroom.Proofs.PrintedForms
import Mailroom.Proofs.Reassembly

/-!
# Disassembling bare images

Without symbols a disassembly names the targets of branches by their numbers.  Label lines
are read in lower case and branch targets as they are written, so the made names, which
begin with a capital letter, are defined under other names than those that branches use.

Main definitions:

- `BranchesTo` says that a word is a branch to a mailbox.

Main results:

- Theorem `branchesTo_iff`: the branches are the words from 600 to 899.
- Theorem `Assembler.assemble_bare`: the source form of a bare image of instructions gives
  the image back when there are no branches in it, and otherwise it is refused at the first
  branch.
- Theorem `Assembler.assemble_bare_loop`: a branch to itself is refused.
-/

namespace Mailroom

open Text

/-! ## Made names -/

/-- A made name is read in lower case. -/
theorem foldedName_made (a : Int) : foldedName ("L" ++ twoDigits a) = "l" ++ twoDigits a := by
  have hnumeric : ∀ c ∈ (twoDigits a).toList, c.toNat < 0x80 ∧ c.toLower = c := by
    intro c hc
    exact forall_numeric (P := fun c => c.toNat < 0x80 ∧ c.toLower = c) (by decide +kernel)
      (mem_twoDigits hc)
  have hsame : (twoDigits a).toList.map Char.toLower = (twoDigits a).toList :=
    (List.map_congr_left fun c hc => (hnumeric c hc).2).trans (List.map_id' _)
  apply String.toList_inj.mp
  rw [foldedName, String.toList_ofList, lowerFrom_of_ascii]
  · simp [hsame]
  · intro c hc
    rw [String.toList_append] at hc
    rcases List.mem_append.mp hc with hc | hc
    · have hletter : c = 'L' := by simpa using hc
      subst hletter
      decide
    · exact (hnumeric c hc).1

/-- Different numbers make different names. -/
theorem made_injective {letter : String} {a b : Int}
    (h : letter ++ twoDigits a = letter ++ twoDigits b) : a = b := by
  have hdigits : (twoDigits a).toList = (twoDigits b).toList := by
    simpa using congrArg String.toList h
  exact twoDigits_injective (String.toList_inj.mp hdigits)

/-- A name in lower case is not a made name. -/
theorem lower_ne_made (a b : Int) : "l" ++ twoDigits a ≠ "L" ++ twoDigits b := by
  intro h
  have hlist := congrArg String.toList h
  simp at hlist

/-! ## Bare images -/

/-- The word is a branch to the mailbox with the number `n`. -/
def BranchesTo (word : Int) (n : Nat) : Prop :=
  ∃ op target, Order.ofWord? word = some (.branch op target) ∧ n = target.val

/-- The branches are the words from 600 to 899, and their last two digits name the mailbox. -/
theorem branchesTo_iff {word : Int} {n : Nat} :
    BranchesTo word n ↔ 600 ≤ word ∧ word ≤ 899 ∧ (n : Int) = word % 100 := by
  constructor
  · rintro ⟨op, target, hread, rfl⟩
    have hword := Order.word_of_ofWord? hread
    rw [Order.word_branch] at hword
    cases op <;> simp only [BranchOp.base] at hword <;> omega
  · rintro ⟨least, greatest, hn⟩
    have hlt : n < 100 := by omega
    have hoperation : ∃ op : BranchOp, (op.base : Int) + n = word := by
      rcases (by omega : word / 100 = 6 ∨ word / 100 = 7 ∨ word / 100 = 8) with h | h | h
      · exact ⟨.always, by simp only [BranchOp.base]; omega⟩
      · exact ⟨.ifZero, by simp only [BranchOp.base]; omega⟩
      · exact ⟨.ifPositive, by simp only [BranchOp.base]; omega⟩
    obtain ⟨op, hword⟩ := hoperation
    exact ⟨op, ⟨n, hlt⟩, Order.ofWord?_eq_some_iff.mpr hword, rfl⟩

variable {words : List Int} {tokens : List Token}

/-- Every order of a bare image is read as an instruction. -/
theorem exists_restates_bare {word : Int} (h : (Order.ofWord? word).isSome = true) :
    ∃ i, Restates (.ofWord .empty word) i := by
  obtain ⟨order, horder⟩ := Option.isSome_iff_exists.mp h
  rw [Content.ofWord, horder]
  cases order with
  | plain op => exact ⟨_, .plain op⟩
  | access op a => exact ⟨_, .access op a⟩
  | branch op target =>
    have hcomma : ',' ∉ ("L" ++ twoDigits target.val).toList := by
      rw [String.toList_append]
      intro hmem
      rcases List.mem_append.mp hmem with hmem | hmem
      · simp at hmem
      · exact (numeric_field (mem_twoDigits hmem)).2.2.2 rfl
    exact ⟨_, .branch op target (isName_made target.val) hcomma⟩

/-- A word that is no branch is encoded as it stands. -/
theorem Restates.encodes_of_not_branch {i : Located Instruction} {word : Int}
    (h : Restates (.ofWord .empty word) i.value) (hnone : ∀ n, ¬ BranchesTo word n) :
    Encodes tokens i word :=
  h.encodes fun op target hread => absurd ⟨op, target, hread, rfl⟩ (hnone target.val)

/-- A branch word is restated as a branch to the made name of its target. -/
theorem Restates.value_of_branchesTo {i : Instruction} {word : Int} {n : Nat}
    (h : Restates (.ofWord .empty word) i) (hbranch : BranchesTo word n) :
    ∃ op, i = .branch op ("L" ++ twoDigits n) := by
  obtain ⟨op, target, hread, rfl⟩ := hbranch
  rw [Content.ofWord, hread] at h
  cases h
  exact ⟨op, rfl⟩

section Restated

variable (hslots : List.Forall₂
  (Restated .empty (branchTargets (disassembleFrom .empty 0 words)))
  (disassembleFrom .empty 0 words) (Slot.ofTokens tokens))

include hslots

/-- The labels of a restated image are the made names of branch targets in lower case. -/
theorem standsOn_bare_iff {x : String} {n : Nat} :
    StandsOn tokens x n ↔
      n < words.length ∧ (∃ word ∈ words, BranchesTo word n) ∧ x = "l" ++ twoDigits n := by
  have htarget : isLabelled .empty (branchTargets (disassembleFrom .empty 0 words)) n = true ↔
      ∃ word ∈ words, BranchesTo word n := by
    simp only [isLabelled, Table.find?_empty, Option.isSome_none, Bool.or_false,
      List.contains_iff_mem, mem_branchTargets_iff, BranchesTo, Int.natCast_inj]
  have hname : foldedName (Names.labelFor .empty n) = "l" ++ twoDigits n := foldedName_made n
  rw [standsOn_iff_of_restated hslots, htarget, hname, eq_comm (a := x)]

/-- No label of a restated image stands on two instructions. -/
theorem distinctLabels_bare : DistinctLabels tokens := by
  intro x m n hm hn
  rw [standsOn_bare_iff hslots] at hm hn
  exact Int.ofNat_inj.mp (made_injective (hm.2.2.symm.trans hn.2.2))

/-- The name that a branch of a restated image uses stands nowhere. -/
theorem not_standsOn_made (a : Int) (n : Nat) : ¬ StandsOn tokens ("L" ++ twoDigits a) n := by
  rw [standsOn_bare_iff hslots]
  rintro ⟨-, -, hx⟩
  exact lower_ne_made n a hx.symm

/-- A restated image has a symbol list, whether it has words or not. -/
theorem exists_symbols_bare (a : Assembler) :
    ∃ symbols, IsSymbolList tokens symbols ∧
      (a.generate tokens).1.build.symbols.indices = symbols := by
  have hallowed : a.strict = true → DistinctLabels tokens := fun _ =>
    distinctLabels_bare hslots
  obtain ⟨table, houtcome, htable⟩ := Assembler.symbolsOf_of_distinct hallowed
  refine ⟨table.indices, htable.isSymbolList, ?_⟩
  rw [(Assembler.generate_of_symbols houtcome).1]

/-- The symbols of a restated image are the made names of the branch targets in it. -/
theorem mem_symbols_bare_iff (a : Assembler) {x : String} {n : Nat} :
    (x, n) ∈ (a.generate tokens).1.build.symbols.indices ↔
      n < words.length ∧ (∃ word ∈ words, BranchesTo word n) ∧ x = "l" ++ twoDigits n := by
  obtain ⟨symbols, hsymbols, hindices⟩ := exists_symbols_bare hslots a
  rw [hindices, hsymbols.2, (distinctLabels_bare hslots).binds_iff, standsOn_bare_iff hslots]

/-- A restated image without branches has its words again. -/
theorem generate_bare_of_no_branch (a : Assembler)
    (hnone : ∀ word ∈ words, ∀ n, ¬ BranchesTo word n) :
    (a.generate tokens).2.outcome = .ok words := by
  obtain ⟨symbols, hsymbols, -⟩ := exists_symbols_bare hslots a
  have hencodes : List.Forall₂ (Encodes tokens) (instructionsOf tokens) words := by
    have hboth := (List.forall₂_and_left _ _).mpr
      ⟨hnone, (restates_instructionsOf hslots).flip⟩
    exact hboth.flip.imp fun i word h => h.2.encodes_of_not_branch h.1
  exact (Assembler.generate_of_generates
    (.words (fun _ => distinctLabels_bare hslots) hsymbols hencodes)).1

/-- A restated image is refused at its first branch. -/
theorem generate_bare_of_branch (a : Assembler) {before after : List Int} {word : Int}
    {n : Nat} (hwords : words = before ++ word :: after)
    (hbefore : ∀ w ∈ before, ∀ m, ¬ BranchesTo w m) (hbranch : BranchesTo word n) :
    ∃ (i : Located Instruction) (op : BranchOp) (similar : List String),
      i.value = .branch op ("L" ++ twoDigits n) ∧ (a.generate tokens).2.outcome =
        .error (i.complain (.undefinedLabel ("L" ++ twoDigits n) similar)) := by
  obtain ⟨symbols, hsymbols, -⟩ := exists_symbols_bare hslots a
  have hrestates := restates_instructionsOf hslots
  rw [hwords] at hrestates
  have hfirst := List.forall₂_take_append _ _ _ hrestates
  obtain ⟨i, later, hi, -, hrest⟩ :=
    List.forall₂_cons_right_iff.mp (List.forall₂_drop_append _ _ _ hrestates)
  have hsplit : instructionsOf tokens =
      (instructionsOf tokens).take before.length ++ i :: later := by
    rw [← hrest, List.take_append_drop]
  -- the instructions before the branch have words, and its own name is bound nowhere
  have hencodes : ∀ j ∈ (instructionsOf tokens).take before.length,
      ∃ w, Encodes tokens j w := by
    intro j hj
    obtain ⟨w, hw, hrestate⟩ := exists_mem_of_forall₂ hfirst.flip hj
    exact ⟨w, hrestate.encodes_of_not_branch (hbefore w hw)⟩
  obtain ⟨op, hvalue⟩ := hi.value_of_branchesTo hbranch
  have hrefuses : Refuses tokens (symbols.map (·.1)) i _ :=
    .undefined hvalue (not_standsOn_made hslots n)
  exact ⟨i, op, _, hvalue, (Assembler.generate_of_generates
    (.refused (fun _ => distinctLabels_bare hslots) hsymbols hsplit hencodes hrefuses)).1⟩

end Restated

namespace Assembler

/-- The source form of a bare image of orders has the made names of the branch targets in
lower case as its labels.  Without branches it is assembled to the image again.  Otherwise
it is refused at the first branch, whose target is undefined. -/
theorem assemble_bare {words : List Int}
    (hwords : ∀ word ∈ words, (Order.ofWord? word).isSome = true) (strict : Bool)
    (file : String) :
    let result := (Assembler.new strict).assemble file
      (sourceForm (disassemblyText .empty words 0 none))
    (∀ x n, (x, n) ∈ result.1.build.symbols.indices ↔
      n < words.length ∧ (∃ word ∈ words, BranchesTo word n) ∧ x = "l" ++ twoDigits n) ∧
    warnings result.2.notices = [] ∧
    ((∀ word ∈ words, ∀ n, ¬ BranchesTo word n) → result.2.outcome = .ok words) ∧
    ∀ before word after n, words = before ++ word :: after →
      (∀ w ∈ before, ∀ m, ¬ BranchesTo w m) → BranchesTo word n →
      ∃ (i : Located Instruction) (op : BranchOp) (similar : List String),
        i.value = .branch op ("L" ++ twoDigits n) ∧ result.2.outcome =
          .error (i.complain (.undefinedLabel ("L" ++ twoDigits n) similar)) := by
  intro result
  have hproper : Names.Proper .empty := fun a x hx => absurd hx (by simp)
  obtain ⟨tokens, hread, hslots⟩ := exists_tokens_restated hproper
    (fun word hword => exists_restates_bare (hwords word hword)) 0 file 1
  have hresult : result = _ := assemble_of_reading (new strict) hread
  rw [hresult]
  refine ⟨?_, ?_, ?_, ?_⟩
  · exact fun x n => mem_symbols_bare_iff hslots (new strict)
  · exact warnings_generate_of_distinct (new strict) (distinctLabels_bare hslots)
  · exact generate_bare_of_no_branch hslots (new strict)
  · intro before word after n
    exact generate_bare_of_branch hslots (new strict)

/-- The source form of an image with two branches is refused at the first of them, though
the mailbox that it leads to has a label. -/
theorem assemble_bare_branches :
    (∀ word ∈ [901, 704, 902, 600, 0], (Order.ofWord? word).isSome = true) ∧
      let result := (new true).assemble "image"
        (sourceForm (disassemblyText .empty [901, 704, 902, 600, 0] 0 none))
      ("l04", 4) ∈ result.1.build.symbols.indices ∧
        ∃ (i : Located Instruction) (op : BranchOp) (similar : List String),
          i.value = .branch op "L04" ∧
            result.2.outcome = .error (i.complain (.undefinedLabel "L04" similar)) := by
  have hwords : ∀ word ∈ [901, 704, 902, 600, 0], (Order.ofWord? word).isSome = true := by
    decide
  have hbranch : BranchesTo 704 4 := ⟨.ifZero, 4, by decide, rfl⟩
  have hread : ∀ w ∈ [(901 : Int)], ∀ m, ¬ BranchesTo w m := by
    rintro w hw m ⟨op, target, horder, -⟩
    obtain rfl := List.mem_singleton.mp hw
    have hplain : Order.ofWord? 901 = some (.plain .read) := rfl
    simp [hplain] at horder
  obtain ⟨hsymbols, -, -, hrefused⟩ := assemble_bare hwords true "image"
  refine ⟨hwords, ?_, ?_⟩
  · exact (hsymbols "l04" 4).mpr ⟨by decide, ⟨704, by decide, hbranch⟩, by decide⟩
  · exact hrefused [901] 704 [902, 600, 0] 4 rfl hread hbranch

/-- A branch to itself leads to a mailbox of the image, and the source form of its
disassembly is refused. -/
theorem assemble_bare_loop :
    Order.ofWord? 600 = some (.branch .always 0) ∧
      sourceForm (disassemblyText .empty [600] 0 none) = ".L00\nb L00" ∧
      ∃ similar, ((new false).assemble "<input>"
          (sourceForm (disassemblyText .empty [600] 0 none))).2.outcome =
        .error (.report
          ⟨.undefinedLabel "L00" similar, some ⟨"<input>", 2, 1⟩, some "b L00", none⟩) := by
  have hsource : sourceForm (disassemblyText .empty [600] 0 none) = ".L00\nb L00" := by
    decide +kernel
  have hread : Reading.ofSource "<input>" 1 ".L00\nb L00" =
      ⟨[.label ⟨"l00", ⟨"<input>", 1, 1⟩, ".L00"⟩,
        .instruction ⟨.branch .always "L00", ⟨"<input>", 2, 1⟩, "b L00"⟩], none⟩ := by
    decide +kernel
  refine ⟨by decide, hsource, closeMatches "L00".toList ["l00"], ?_⟩
  rw [hsource, assemble_of_reading (new false) hread]
  rfl

end Assembler

end Mailroom
