import Mailroom.Text.Similarity
import Mathlib.Data.Multiset.UnionInter
import Mathlib.Tactic.Positivity

/-!
# Matching blocks

A matching block marks the same characters in two texts, and the blocks of a comparison
come one after the other in both.  So the matched characters can be left over from either
word by crossing others out, and two bounds on the similarity follow that are found
without any blocks.

Main definitions:

- `Block.Marks` says that a block marks the same characters in two texts.
- `countBound` and `lengthBound` are the bounds on the similarity.

Main results:

- Theorem `marks_longestRun`: a longest run marks the same characters in both texts.
- Theorem `exists_sublist_of_matchedChars`: the matched characters stand in this order in
  both words.
- Theorems `similarity_le_countBound` and `similarity_le_lengthBound`: two words are no more
  similar than their bounds say.
-/

namespace Mailroom.Text

/-! ## Characters in their places -/

/-- The characters of `run` stand in a text from the given place on. -/
structure RunAt (run text : List Char) (start : Nat) : Prop where
  start_le : start ≤ text.length
  run_prefix : run <+: text.drop start

/-- A character before a run makes it longer. -/
theorem RunAt.cons {run text : List Char} {c : Char} {start : Nat}
    (hc : text[start]? = some c) (h : RunAt run text (start + 1)) :
    RunAt (c :: run) text start := by
  obtain ⟨hlt, rfl⟩ := List.getElem?_eq_some_iff.mp hc
  refine ⟨hlt.le, ?_⟩
  rw [List.drop_eq_getElem_cons hlt, List.prefix_cons_inj]
  exact h.run_prefix

/-- A run divides a text into the characters before it, itself, and those after it. -/
theorem RunAt.eq_append {run text : List Char} {start : Nat} (h : RunAt run text start) :
    text = text.take start ++ (run ++ text.drop (start + run.length)) := by
  obtain ⟨after, hafter⟩ := h.run_prefix
  have hdrop : text.drop (start + run.length) = after := by
    rw [← List.drop_drop, ← hafter, List.drop_left]
  rw [hdrop, hafter, List.take_append_drop]

/-- A run together with characters directly before it and directly after it is a run. -/
theorem RunAt.grow {run text left right : List Char} {start : Nat} (h : RunAt run text start)
    (hleft : left <+: (text.take start).reverse)
    (hright : right <+: text.drop (start + run.length)) :
    RunAt (left.reverse ++ (run ++ right)) text (start - left.length) := by
  obtain ⟨rest, hrest⟩ := hleft
  have htake : text.take start = rest.reverse ++ left.reverse := by
    rw [← List.reverse_append, hrest, List.reverse_reverse]
  have hstart : rest.length + left.length = start := by
    have hlength := congrArg List.length htake
    rw [List.length_take_of_le h.start_le, List.length_append, List.length_reverse,
      List.length_reverse] at hlength
    exact hlength.symm
  have hdrop : text.drop (start - left.length) =
      left.reverse ++ (run ++ text.drop (start + run.length)) := by
    have hrestLength : start - left.length = rest.reverse.length := by
      rw [List.length_reverse]
      omega
    conv_lhs => rw [h.eq_append, htake, List.append_assoc]
    rw [hrestLength, List.drop_left]
  refine ⟨(Nat.sub_le _ _).trans h.start_le, ?_⟩
  rw [hdrop, List.prefix_append_right_inj, List.prefix_append_right_inj]
  exact hright

/-! ## Blocks -/

/-- A block marks the same characters in two texts. -/
def Block.Marks (m : Block) (a b : List Char) : Prop :=
  ∃ run : List Char, run.length = m.size ∧ RunAt run a m.start ∧ RunAt run b m.other

/-- The empty block at the beginning marks no characters. -/
theorem marks_empty (a b : List Char) : Block.Marks ⟨0, 0, 0⟩ a b :=
  ⟨[], rfl, ⟨Nat.zero_le _, List.nil_prefix⟩, ⟨Nat.zero_le _, List.nil_prefix⟩⟩

/-- The common characters at the beginning of two texts. -/
theorem exists_prefix_of_commonLength (a b : List Char) :
    ∃ common : List Char, common.length = commonLength a b ∧ common <+: a ∧ common <+: b := by
  induction a generalizing b with
  | nil => exact ⟨[], rfl, List.nil_prefix, List.nil_prefix⟩
  | cons x a ih =>
    cases b with
    | nil => exact ⟨[], rfl, List.nil_prefix, List.nil_prefix⟩
    | cons y b =>
      by_cases hxy : x = y
      · obtain ⟨common, hlength, ha, hb⟩ := ih b
        subst hxy
        refine ⟨x :: common, ?_, (List.prefix_cons_inj x).mpr ha, (List.prefix_cons_inj x).mpr hb⟩
        simpa [commonLength] using hlength
      · refine ⟨[], ?_, List.nil_prefix, List.nil_prefix⟩
        simp [commonLength, hxy]

/-- A block that is made longer marks the same characters in both texts. -/
theorem Block.Marks.grow {m : Block} {a b : List Char} (h : m.Marks a b) :
    (m.grow a b).Marks a b := by
  obtain ⟨run, hsize, ha, hb⟩ := h
  obtain ⟨left, hleft, haLeft, hbLeft⟩ :=
    exists_prefix_of_commonLength (a.take m.start).reverse (b.take m.other).reverse
  obtain ⟨right, hright, haRight, hbRight⟩ :=
    exists_prefix_of_commonLength (a.drop (m.start + m.size)) (b.drop (m.other + m.size))
  rw [← hsize] at haRight hbRight
  refine ⟨left.reverse ++ (run ++ right), ?_, ?_, ?_⟩
  · simp only [List.length_append, List.length_reverse, hleft, hright, hsize, Block.grow,
      Nat.add_assoc]
  · simpa only [Block.grow, hleft] using ha.grow haLeft haRight
  · simpa only [Block.grow, hleft] using hb.grow hbLeft hbRight

/-! ## Longest runs -/

/-- The places of a character in a word; none if it is popular. -/
theorem getD_placesOf (popular word : List Char) (c : Char) :
    (placesOf popular word).getD c [] =
      if c ∈ popular then [] else (word.zipIdx.filter (·.1 == c)).map (·.2) := by
  simp only [placesOf, List.contains_iff_mem]
  induction word.zipIdx with
  | nil => simp
  | cons entry entries ih =>
    rw [List.foldr_cons]
    by_cases hpopular : entry.1 ∈ popular
    · rw [if_pos hpopular, ih]
      split
      next => rfl
      next hc =>
        have hne : entry.1 ≠ c := fun heq => hc (heq ▸ hpopular)
        simp [hne]
    · rw [if_neg hpopular, Std.HashMap.getD_insert]
      by_cases heq : entry.1 = c
      · subst heq
        rw [if_neg hpopular] at ih ⊢
        simp [ih]
      · simp [heq, ih]

/-- A place of a character holds it. -/
theorem getElem?_of_mem_placesOf {popular word : List Char} {c : Char} {place : Nat}
    (h : place ∈ (placesOf popular word).getD c []) : word[place]? = some c := by
  rw [getD_placesOf] at h
  split at h
  next => contradiction
  next =>
    obtain ⟨⟨d, index⟩, hentry, rfl⟩ := List.mem_map.mp h
    obtain ⟨hmem, hd⟩ := List.mem_filter.mp hentry
    obtain rfl : d = c := beq_iff_eq.mp hd
    exact List.mem_zipIdx_iff_getElem?.mp hmem

/-- A run that starts at a character stands at one of its places, alone or before a run
that starts at the next place. -/
theorem exists_of_mem_runsFrom {places : List Nat} {next : List (Nat × Nat)} {place length : Nat}
    (h : (place, length) ∈ runsFrom places next) :
    place ∈ places ∧ ∃ behind, length = behind + 1 ∧
      (behind = 0 ∨ (place + 1, behind) ∈ next) := by
  induction places generalizing next with
  | nil => contradiction
  | cons first places ih =>
    have hkept : ∀ run ∈ next.dropWhile (·.1 ≤ first), run ∈ next :=
      (List.dropWhile_sublist _).subset
    rw [runsFrom] at h
    rcases List.mem_cons.mp h with heq | hmem
    · obtain ⟨rfl, hlength⟩ := Prod.mk.inj heq
      refine ⟨List.mem_cons_self, _, hlength, ?_⟩
      split
      next after size rest hnext =>
        split
        next hafter =>
          subst hafter
          exact .inr (hkept _ (hnext ▸ List.mem_cons_self))
        next => exact .inl rfl
      next => exact .inl rfl
    · obtain ⟨hplace, behind, hlength, hbehind⟩ := ih hmem
      exact ⟨List.mem_cons_of_mem _ hplace, behind, hlength, hbehind.imp_right (hkept _)⟩

/-- Look at the runs that start at the character with the given number: keep the best
block so far, and the runs for the character before. -/
def runStep (places : CharTable (List Nat)) (p : Char × Nat)
    (found : Block × List (Nat × Nat)) : Block × List (Nat × Nat) :=
  let runs := runsFrom (places.getD p.1 []) found.2
  (runs.foldr
    (fun run best => if best.size ≤ run.2 then ⟨p.2, run.1, run.2⟩ else best) found.1, runs)

/-- The longest run is found character by character, from the last one to the first. -/
theorem longestRun_eq (popular a b : List Char) :
    longestRun popular a b =
      (a.zipIdx.foldr (runStep (placesOf popular b)) (⟨0, 0, 0⟩, [])).1 :=
  rfl

/-- What is found for the characters from some number on: the best block marks the same
characters in both texts, and so does every run of the first of these characters. -/
structure Found (a b : List Char) (start : Nat) (found : Block × List (Nat × Nat)) : Prop where
  best : found.1.Marks a b
  runs : ∀ run ∈ found.2, Block.Marks ⟨start, run.1, run.2⟩ a b

/-- A choice among blocks that mark the same characters is such a block. -/
theorem marks_foldr {a b : List Char} {start : Nat} {best : Block} {runs : List (Nat × Nat)}
    (hbest : best.Marks a b) (hruns : ∀ run ∈ runs, Block.Marks ⟨start, run.1, run.2⟩ a b) :
    (runs.foldr (fun run best => if best.size ≤ run.2 then ⟨start, run.1, run.2⟩ else best)
      best).Marks a b := by
  induction runs with
  | nil => exact hbest
  | cons run runs ih =>
    rw [List.foldr_cons]
    split
    next => exact hruns run List.mem_cons_self
    next => exact ih fun r hr => hruns r (List.mem_cons_of_mem _ hr)

/-- A run that starts at a character marks the same characters in both texts. -/
theorem Found.marks_of_mem {popular a b : List Char} {c : Char} {start : Nat}
    {found : Block × List (Nat × Nat)} (h : Found a b (start + 1) found)
    (hc : a[start]? = some c) {run : Nat × Nat}
    (hrun : run ∈ runsFrom ((placesOf popular b).getD c []) found.2) :
    Block.Marks ⟨start, run.1, run.2⟩ a b := by
  obtain ⟨place, length⟩ := run
  obtain ⟨hplace, behind, rfl, hbehind⟩ := exists_of_mem_runsFrom hrun
  have hb : b[place]? = some c := getElem?_of_mem_placesOf hplace
  obtain ⟨rest, hsize, haRest, hbRest⟩ :
      ∃ rest : List Char, rest.length = behind ∧ RunAt rest a (start + 1) ∧
        RunAt rest b (place + 1) := by
    rcases hbehind with rfl | hmem
    · obtain ⟨hlt, -⟩ := List.getElem?_eq_some_iff.mp hc
      obtain ⟨hltb, -⟩ := List.getElem?_eq_some_iff.mp hb
      exact ⟨[], rfl, ⟨hlt, List.nil_prefix⟩, ⟨hltb, List.nil_prefix⟩⟩
    · exact h.runs _ hmem
  exact ⟨c :: rest, congrArg (· + 1) hsize, haRest.cons hc, hbRest.cons hb⟩

/-- One more character keeps what is found sound. -/
theorem Found.step {popular a b : List Char} {c : Char} {start : Nat}
    {found : Block × List (Nat × Nat)} (h : Found a b (start + 1) found)
    (hc : a[start]? = some c) :
    Found a b start (runStep (placesOf popular b) (c, start) found) where
  best := marks_foldr h.best fun _ => h.marks_of_mem hc
  runs := fun _ => h.marks_of_mem hc

/-- What is found for the last characters of a text is sound. -/
theorem found_foldr (popular a b : List Char) {start : Nat} {rest : List Char}
    (hrest : a.drop start = rest) :
    Found a b start
      ((rest.zipIdx start).foldr (runStep (placesOf popular b)) (⟨0, 0, 0⟩, [])) := by
  induction rest generalizing start with
  | nil => exact ⟨marks_empty a b, nofun⟩
  | cons c rest ih =>
    have hc : a[start]? = some c := by
      rw [← List.head?_drop, hrest, List.head?_cons]
    have hlater : a.drop (start + 1) = rest := by
      rw [← List.tail_drop, hrest, List.tail_cons]
    rw [List.zipIdx_cons, List.foldr_cons]
    exact (ih hlater).step hc

/-- A longest run marks the same characters in both texts. -/
theorem marks_longestRun (popular a b : List Char) : (longestRun popular a b).Marks a b := by
  rw [longestRun_eq]
  exact (found_foldr popular a b List.drop_zero).best

/-! ## Matched characters -/

/-- A matching block marks the same characters in both texts. -/
theorem marks_of_matchingBlock? {popular a b : List Char} {m : Block}
    (h : matchingBlock? popular a b = some m) : m.Marks a b := by
  unfold matchingBlock? at h
  simp only [Option.ite_none_right_eq_some, Option.some.injEq] at h
  obtain ⟨-, rfl⟩ := h
  exact (marks_longestRun popular a b).grow

/-- The matched characters are those of a matching block and of the texts beside it. -/
theorem matchedWithin_of_some {popular a b : List Char} {m : Block}
    (h : matchingBlock? popular a b = some m) :
    matchedWithin popular a b =
      m.size + matchedWithin popular (a.take m.start) (b.take m.other) +
        matchedWithin popular (a.drop (m.start + m.size)) (b.drop (m.other + m.size)) := by
  rw [matchedWithin]
  split
  next hnone => rw [h] at hnone; contradiction
  next m' hm =>
    obtain rfl : m = m' := Option.some.inj (h.symm.trans hm)
    rfl

/-- The matched characters of two texts stand in this order in both. -/
theorem exists_sublist_of_matchedWithin (popular a b : List Char) :
    ∃ common : List Char, common.Sublist a ∧ common.Sublist b ∧
      common.length = matchedWithin popular a b := by
  fun_induction matchedWithin popular a b with
  | case1 a b hnone => exact ⟨[], List.nil_sublist a, List.nil_sublist b, rfl⟩
  | case2 a b m hm _ ihBefore ihAfter =>
    obtain ⟨run, hsize, ha, hb⟩ := marks_of_matchingBlock? hm
    obtain ⟨before, haBefore, hbBefore, hbefore⟩ := ihBefore
    obtain ⟨after, haAfter, hbAfter, hafter⟩ := ihAfter
    rw [← hsize] at haAfter hbAfter
    refine ⟨before ++ (run ++ after), ?_, ?_, ?_⟩
    · rw [ha.eq_append]
      exact haBefore.append ((List.Sublist.refl run).append haAfter)
    · rw [hb.eq_append]
      exact hbBefore.append ((List.Sublist.refl run).append hbAfter)
    · simp only [List.length_append, hbefore, hafter, hsize]
      omega

/-- The matched characters of two words stand in this order in both. -/
theorem exists_sublist_of_matchedChars (candidate word : List Char) :
    ∃ common : List Char, common.Sublist candidate ∧ common.Sublist word ∧
      common.length = matchedChars candidate word :=
  exists_sublist_of_matchedWithin (popularChars word) candidate word

/-- Nothing is matched in an empty text. -/
@[simp] theorem matchedWithin_nil_left (popular b : List Char) :
    matchedWithin popular [] b = 0 := by
  obtain ⟨common, hcommon, -, hlength⟩ := exists_sublist_of_matchedWithin popular [] b
  rw [← hlength, List.sublist_nil.mp hcommon, List.length_nil]

/-- Nothing is matched with an empty text. -/
@[simp] theorem matchedWithin_nil_right (popular a : List Char) :
    matchedWithin popular a [] = 0 := by
  obtain ⟨common, -, hcommon, hlength⟩ := exists_sublist_of_matchedWithin popular a []
  rw [← hlength, List.sublist_nil.mp hcommon, List.length_nil]

/-! ## Bounds -/

/-- Twice some matched characters over all characters, and 1 if there are none. -/
def ratio (matched total : Nat) : Rat :=
  if total = 0 then 1 else (2 * matched : Nat) / (total : Nat)

/-- The similarity is the ratio of the matched characters. -/
theorem similarity_eq_ratio (candidate word : List Char) :
    similarity candidate word =
      ratio (matchedChars candidate word) (candidate.length + word.length) :=
  rfl

/-- More matched characters have a greater ratio. -/
theorem ratio_le_ratio {matched more : Nat} (h : matched ≤ more) (total : Nat) :
    ratio matched total ≤ ratio more total := by
  unfold ratio
  split
  next => exact le_refl 1
  next => gcongr

/-- The ratio of the characters that two words share, each as often as it stands in both. -/
def countBound (candidate word : List Char) : Rat :=
  ratio (candidate.bagInter word).length (candidate.length + word.length)

/-- The ratio of all characters of the shorter word. -/
def lengthBound (candidate word : List Char) : Rat :=
  ratio (min candidate.length word.length) (candidate.length + word.length)

/-- Matched characters are shared. -/
theorem similarity_le_countBound (candidate word : List Char) :
    similarity candidate word ≤ countBound candidate word := by
  obtain ⟨common, hcandidate, hword, hlength⟩ := exists_sublist_of_matchedChars candidate word
  have hle : (common : Multiset Char) ≤ (candidate : Multiset Char) ∩ (word : Multiset Char) :=
    Multiset.le_inter (Multiset.coe_le.mpr hcandidate.subperm)
      (Multiset.coe_le.mpr hword.subperm)
  rw [Multiset.coe_inter] at hle
  rw [similarity_eq_ratio, ← hlength]
  exact ratio_le_ratio (Multiset.coe_le.mp hle).length_le _

/-- No more characters are matched than the shorter word has. -/
theorem similarity_le_lengthBound (candidate word : List Char) :
    similarity candidate word ≤ lengthBound candidate word := by
  obtain ⟨common, hcandidate, hword, hlength⟩ := exists_sublist_of_matchedChars candidate word
  rw [similarity_eq_ratio, ← hlength]
  exact ratio_le_ratio (le_min hcandidate.length_le hword.length_le) _

end Mailroom.Text
