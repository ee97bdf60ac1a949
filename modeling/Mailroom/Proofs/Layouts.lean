import Mailroom.Proofs.SameStatements
import Mathlib.Logic.Relation

/-!
# The layout of a text

Some changes of a text do not change what it says: lines without a statement, blanks around a
line, comments, the ASCII case of the first field, and the carriage return in a line end.  None of
them reaches a statement or comes between a label and its instruction, so they can be made in any
order and number.

Main definitions:

- `LayoutEdit` lists the changes.
- `Relaid` makes one of them in a text.

Main results:

- Theorem `LayoutEdit.said`: a change of the layout leaves what the lines say.
- Theorem `Relaid.said`: so it does with the lines of a text.
- Theorem `Assembler.assemble_under`: a text is assembled alike under every name.
- Theorem `Assembler.assemble_relaid`: texts that differ in their layout are assembled alike.
-/

namespace Mailroom

open Text

/-! ## Changes -/

/-- The changes of layout, made in the lines of a text with their carriage returns.  A line that
says nothing is put between others; blanks are put around a line; a comment is put at its end; the
first field is written in letters of another ASCII case; or a line feed gets a carriage return
before it. -/
inductive LayoutEdit : List (List Char) → List (List Char) → Prop
  | silence (before after : List (List Char)) {raw : List Char} (hraw : Derives raw .silence) :
      LayoutEdit (before ++ after) (before ++ raw :: after)
  | period (before after : List (List Char)) {raw : List Char} (hraw : Derives raw (.label [])) :
      LayoutEdit (before ++ after) (before ++ raw :: after)
  | pad (before after : List (List Char)) (raw : List Char) {left right : List Char}
      (hleft : Blanks left) (hright : Blanks right) :
      LayoutEdit (before ++ raw :: after) (before ++ (left ++ raw ++ right) :: after)
  | comment (before after : List (List Char)) (raw text : List Char) :
      LayoutEdit (before ++ raw :: after) (before ++ (raw ++ ';' :: text) :: after)
  | recase (before after : List (List Char)) {indent field field' rest : List Char}
      (hindent : Blanks indent) (hfield : ∀ c ∈ field, isBlank c = false ∧ c ≠ ';')
      (hrest : ∀ c ∈ rest.head?, isBlank c = true ∨ c = ';')
      (hcase : field'.map Char.toLower = field.map Char.toLower) :
      LayoutEdit (before ++ (indent ++ field ++ rest) :: after)
        (before ++ (indent ++ field' ++ rest) :: after)
  | feed (before : List (List Char)) (raw next : List Char) (after : List (List Char)) :
      LayoutEdit (before ++ raw :: next :: after) (before ++ (raw ++ ['\r']) :: next :: after)

/-- A change of the layout of a text. -/
def Relaid (source edited : String) : Prop :=
  ∃ raws raws', Divides raws source.toList ∧ Divides raws' edited.toList ∧ LayoutEdit raws raws'

/-! ## Single lines -/

/-- What a line with some characters says, wherever it stands. -/
def saidOn (cs : List Char) : Except Refusal (Option Statement) :=
  (⟨"", 0, cs⟩ : SourceLine).said

/-- What a line says is told by its characters. -/
theorem SourceLine.said_eq_saidOn (l : SourceLine) : l.said = saidOn l.chars :=
  Resembles.said ⟨rfl, rfl⟩

/-- Lines with the same statement say the same. -/
theorem saidOn_congr {cs cs' : List Char}
    (h : trim (cs'.takeWhile (· ≠ ';')) = trim (cs.takeWhile (· ≠ ';'))) :
    saidOn cs' = saidOn cs := by
  refine SourceLine.Resembles.said ⟨?_, ?_⟩
  · exact congrArg Fields.ofStatement h
  · exact congrArg (List.map Char.toLower) h

/-- A line that derives silence, or a label without a name, says nothing. -/
theorem saidOn_of_silent {cs : List Char} (h : Derives cs .silence ∨ Derives cs (.label [])) :
    saidOn cs = .ok none := by
  rw [saidOn, SourceLine.said_eq_silence_iff]
  rcases h with h | h
  · exact SourceLine.token?_of_means h .silence
  · exact SourceLine.token?_of_means h .unnamed

/-- A line without a comment is code. -/
theorem takeWhile_code_of_not_mem {cs : List Char} (h : ';' ∉ cs) :
    cs.takeWhile (· ≠ ';') = cs :=
  List.takeWhile_eq_self_iff.mpr fun _ hc => decide_eq_true fun heq => h (heq ▸ hc)

/-- The code of a line with more text behind it goes on only if the line has no comment. -/
theorem takeWhile_code_append (cs more : List Char) :
    (cs ++ more).takeWhile (· ≠ ';') =
      if ';' ∈ cs then cs.takeWhile (· ≠ ';') else cs ++ more.takeWhile (· ≠ ';') := by
  by_cases hmem : ';' ∈ cs
  · obtain ⟨code, comment, rfl, hcode⟩ := List.eq_append_cons_of_mem hmem
    have hcomment : ∀ rest, Comment (';' :: rest) := fun _ c hc => (Option.some.inj hc).symm
    rw [if_pos hmem, List.append_assoc, List.cons_append, takeWhile_code hcode (hcomment _),
      takeWhile_code hcode (hcomment _)]
  · rw [if_neg hmem, List.takeWhile_append_of_pos]
    exact List.takeWhile_eq_self_iff.mp (takeWhile_code_of_not_mem hmem)

/-- Blanks around a line do not change what it says. -/
theorem saidOn_pad {left right : List Char} (hleft : Blanks left) (hright : Blanks right)
    (cs : List Char) : saidOn (left ++ cs ++ right) = saidOn cs := by
  have hcode : ∀ {blanks : List Char}, Blanks blanks → ';' ∉ blanks :=
    fun hblanks hmem => (ne_of_isBlank (hblanks _ hmem)).2 rfl
  apply saidOn_congr
  rw [List.append_assoc, takeWhile_code_append, if_neg (hcode hleft), takeWhile_code_append]
  by_cases hmem : ';' ∈ cs
  · rw [if_pos hmem, ← List.append_nil (left ++ _)]
    exact trim_pad hleft (List.forall_mem_nil _) _
  · rw [if_neg hmem, takeWhile_code_of_not_mem (hcode hright), takeWhile_code_of_not_mem hmem,
      ← List.append_assoc, trim_pad hleft hright]

/-- A comment at the end of a line does not change what it says. -/
theorem saidOn_comment (cs text : List Char) : saidOn (cs ++ ';' :: text) = saidOn cs := by
  apply saidOn_congr
  rw [takeWhile_code_append, List.takeWhile_cons_of_neg (by simp), List.append_nil]
  by_cases hmem : ';' ∈ cs
  · rw [if_pos hmem]
  · rw [if_neg hmem, takeWhile_code_of_not_mem hmem]

/-- Carriage returns at the end of a line do not change what it says. -/
theorem saidOn_dropTrailing (cs : List Char) : saidOn (dropTrailing (· = '\r') cs) = saidOn cs := by
  obtain ⟨⟨returns, hreturns, hcs⟩, -⟩ := exists_dropTrailing (· = '\r') cs
  have hblanks : Blanks returns := by
    intro c hc
    obtain rfl := of_decide_eq_true (hreturns c hc)
    decide
  have hpad := saidOn_pad (List.forall_mem_nil _) hblanks (dropTrailing (· = '\r') cs)
  rw [List.nil_append, ← hcs] at hpad
  exact hpad.symm

/-- In another ASCII case a field has no other characters that could end it. -/
theorem field_of_map_toLower {field field' : List Char}
    (hfield : ∀ c ∈ field, isBlank c = false ∧ c ≠ ';')
    (hcase : field'.map Char.toLower = field.map Char.toLower) :
    ∀ c ∈ field', isBlank c = false ∧ c ≠ ';' := by
  have hblank : ∀ c : Char, isBlank c.toLower = isBlank c := apply_toLower (by decide)
  have hcode : ∀ c : Char, decide (c.toLower ≠ ';') = decide (c ≠ ';') :=
    apply_toLower (g := fun c => decide (c ≠ ';')) (by decide)
  intro c hc
  have hmem : c.toLower ∈ field.map Char.toLower := by
    rw [← hcase]
    exact List.mem_map_of_mem hc
  obtain ⟨d, hd, hlower⟩ := List.mem_map.mp hmem
  obtain ⟨hdblank, hdcode⟩ := hfield d hd
  constructor
  · rw [← hblank, ← hlower, hblank, hdblank]
  · rwa [← decide_eq_true_iff (p := c ≠ ';'), ← hcode, ← hlower, hcode, decide_eq_true_iff]

/-- The ASCII case of the first field does not change what a line says. -/
theorem saidOn_recase {indent field field' rest : List Char} (hindent : Blanks indent)
    (hfield : ∀ c ∈ field, isBlank c = false ∧ c ≠ ';')
    (hrest : ∀ c ∈ rest.head?, isBlank c = true ∨ c = ';')
    (hcase : field'.map Char.toLower = field.map Char.toLower) :
    saidOn (indent ++ field' ++ rest) = saidOn (indent ++ field ++ rest) := by
  by_cases hnone : field = []
  · subst hnone
    rw [List.map_eq_nil_iff.mp hcase]
  obtain ⟨code, comment, rfl, hcode, hcomment⟩ := exists_span (· ≠ ';') rest
  have hlayout : ∀ head, head ≠ [] → (∀ c ∈ head, isBlank c = false ∧ c ≠ ';') →
      Layout (indent ++ head ++ (code ++ comment)) indent head code comment := by
    intro head hne hhead
    refine ⟨by simp only [List.append_assoc], hindent, hne, hhead, ?_, ?_, ?_⟩
    · intro c hc
      have hstart : c ∈ (code ++ comment).head? := by
        rw [List.head?_append, Option.mem_def.mp hc]
        rfl
      have hne : c ≠ ';' := of_decide_eq_true (hcode c (List.mem_of_mem_head? hc))
      exact (hrest c hstart).resolve_right hne
    · exact fun hmem => absurd rfl (of_decide_eq_true (hcode ';' hmem))
    · exact fun c hc => by simpa using hcomment c hc
  have hnone' : field' ≠ [] := by
    rintro rfl
    exact hnone (List.map_eq_nil_iff.mp hcase.symm)
  let plain : SourceLine := ⟨"", 0, indent ++ field ++ (code ++ comment)⟩
  let other : SourceLine := ⟨"", 0, indent ++ field' ++ (code ++ comment)⟩
  have hplain : Layout plain.chars indent field code comment := hlayout field hnone hfield
  have hother : Layout other.chars indent field' code comment :=
    hlayout field' hnone' (field_of_map_toLower hfield hcase)
  have hresembles : plain.Resembles other := by
    constructor
    · rw [hother.fields, hplain.fields, lower_congr hcase]
    · rw [hother.statement, hplain.statement, List.map_append, List.map_append, hcase]
  exact hresembles.said

/-! ## Texts -/

/-- What the lines of a text say is told by its parts between line feeds. -/
theorem map_said_linesFrom (file : String) (number : Int) (raws : List (List Char)) :
    (linesFrom file number raws).map SourceLine.said = raws.map saidOn := by
  induction raws generalizing number with
  | nil => rfl
  | cons raw rest ih =>
    rw [linesFrom, List.map_cons, List.map_cons, ih, SourceLine.said_eq_saidOn,
      saidOn_dropTrailing]

/-- What the statement lines of a text say is told by its parts between line feeds. -/
theorem map_said_statementLines {raws : List (List Char)} {source : String}
    (h : Divides raws source.toList) (file : String) :
    (statementLines file source).map SourceLine.said =
      (raws.map saidOn).filter (· ≠ .ok none) := by
  rw [statementLines, linesOf_eq_linesFrom, divides_iff.mp h, ← map_said_linesFrom file 1,
    List.filter_map]
  rfl

/-- A change of the layout leaves what the lines say, up to those that say nothing. -/
theorem LayoutEdit.said {raws raws' : List (List Char)} (h : LayoutEdit raws raws') :
    (raws'.map saidOn).filter (· ≠ .ok none) = (raws.map saidOn).filter (· ≠ .ok none) := by
  have hinsert : ∀ (before after : List (List Char)) {raw : List Char}, saidOn raw = .ok none →
      ((before ++ raw :: after).map saidOn).filter (· ≠ .ok none) =
        ((before ++ after).map saidOn).filter (· ≠ .ok none) := by
    intro before after raw hraw
    simp only [List.map_append, List.map_cons, List.filter_append]
    rw [List.filter_cons_of_neg (by simpa using hraw)]
  have hreplace : ∀ (before after : List (List Char)) {raw raw' : List Char},
      saidOn raw' = saidOn raw →
        ((before ++ raw' :: after).map saidOn).filter (· ≠ .ok none) =
          ((before ++ raw :: after).map saidOn).filter (· ≠ .ok none) := by
    intro before after raw raw' hraw
    simp only [List.map_append, List.map_cons, hraw]
  cases h with
  | silence before after hraw => exact hinsert before after (saidOn_of_silent (.inl hraw))
  | period before after hraw => exact hinsert before after (saidOn_of_silent (.inr hraw))
  | pad before after raw hleft hright =>
    exact hreplace before after (saidOn_pad hleft hright raw)
  | comment before after raw text => exact hreplace before after (saidOn_comment raw text)
  | recase before after hindent hfield hrest hcase =>
    exact hreplace before after (saidOn_recase hindent hfield hrest hcase)
  | feed before raw next after =>
    have hreturn : Blanks ['\r'] := by simp [Blanks, isBlank]
    exact hreplace before (next :: after) (saidOn_pad (List.forall_mem_nil _) hreturn raw)

/-- A change of the layout leaves what the statement lines of a text say. -/
theorem Relaid.said {source edited : String} (h : Relaid source edited) (file : String) :
    (statementLines file edited).map SourceLine.said =
      (statementLines file source).map SourceLine.said := by
  obtain ⟨raws, raws', hsource, hedited, hedit⟩ := h
  rw [map_said_statementLines hedited, map_said_statementLines hsource, hedit.said]

/-- The name of a text does not matter.  Under every name it has the same words and the same
symbols, or it is refused for the same reason. -/
theorem Assembler.assemble_under (a : Assembler) (file other source : String) :
    (∀ words, (a.assemble other source).2.outcome = .ok words ↔
        (a.assemble file source).2.outcome = .ok words) ∧
      (a.assemble other source).1.build.symbols.indices =
        (a.assemble file source).1.build.symbols.indices ∧
      ∀ e, (a.assemble file source).2.outcome = .error e →
        ∃ e', (a.assemble other source).2.outcome = .error e' ∧
          e'.layoutless = e.layoutless := by
  have hdivides : Divides (source.toList.splitOn '\n') source.toList := divides_iff.mpr rfl
  have hsaid : (statementLines other source).map SourceLine.said =
      (statementLines file source).map SourceLine.said := by
    rw [map_said_statementLines hdivides, map_said_statementLines hdivides]
  obtain ⟨hwords, hsymbols, hcause⟩ := a.assemble_of_statementLines hsaid
  refine ⟨hwords, hsymbols, fun e h => ?_⟩
  obtain ⟨e', h', hsame⟩ := hcause e h
  exact ⟨e', h', hsame.1⟩

/-- Layout does not matter.  After any number of changes of the layout a text has the same words and
the same symbols, or it is refused for the same reason, and this is about the same statement. -/
theorem Assembler.assemble_relaid (a : Assembler) (file : String) {source edited : String}
    (h : Relation.ReflTransGen Relaid source edited) :
    (∀ words, (a.assemble file edited).2.outcome = .ok words ↔
        (a.assemble file source).2.outcome = .ok words) ∧
      (a.assemble file edited).1.build.symbols.indices =
        (a.assemble file source).1.build.symbols.indices ∧
      ∀ e, (a.assemble file source).2.outcome = .error e →
        ∃ e', (a.assemble file edited).2.outcome = .error e' ∧
          SameCause (statementLines file source) (statementLines file edited) e e' := by
  apply assemble_of_statementLines
  induction h with
  | refl => rfl
  | tail _ hedit ih => rw [hedit.said, ih]

/-- A program in three lines. -/
def plainText : String :=
  ".a\nread\nb a"

/-- The program with a comment between the label and its instruction, a period on the last line, a
line with blanks around it and a comment, an operation in other letters, and a carriage return. -/
def relaidText : String :=
  ".a\r\n\t; note\nReaD\n  b a ;x\n ."

/-- The second text comes from the first by changes of the layout, one of each kind. -/
theorem plainText_relaid : Relation.ReflTransGen Relaid plainText relaidText := by
  have hstep : ∀ {source edited : String} {raws raws' : List (List Char)},
      LayoutEdit raws raws' → source.toList.splitOn '\n' = raws →
        edited.toList.splitOn '\n' = raws' → Relation.ReflTransGen Relaid source edited :=
    fun hedit hsource hedited =>
      .single ⟨_, _, divides_iff.mpr hsource, divides_iff.mpr hedited, hedit⟩
  have hblanks : ∀ cs : List Char, (∀ c ∈ cs, c = ' ' ∨ c = '\t') → Blanks cs := by
    intro cs hcs c hc
    rcases hcs c hc with rfl | rfl <;> decide
  have hnote : Derives "\t; note".toList .silence :=
    .silence (hblanks ['\t'] (by simp)) (by simp [Comment] : Comment "; note".toList) rfl
  have hgap : Gap [] := ⟨List.forall_mem_nil _, by simp⟩
  have hperiod : Derives " .".toList (.label []) :=
    .label (hblanks [' '] (by simp)) (List.forall_mem_nil _) hgap
      (by simp [Comment] : Comment []) rfl
  have hfield : ∀ c ∈ ['r', 'e', 'a', 'd'], isBlank c = false ∧ c ≠ ';' := by
    simp [isBlank]
  have hcase : ['R', 'e', 'a', 'D'].map Char.toLower = ['r', 'e', 'a', 'd'].map Char.toLower := by
    decide
  have hend : ∀ c ∈ ([] : List Char).head?, isBlank c = true ∨ c = ';' := by simp
  calc
    Relation.ReflTransGen Relaid plainText ".a\n\t; note\nread\nb a" :=
      hstep (.silence [".a".toList] ["read".toList, "b a".toList] hnote)
        (by decide +kernel) (by decide +kernel)
    Relation.ReflTransGen Relaid _ ".a\n\t; note\nread\nb a\n ." :=
      hstep (.period [".a".toList, "\t; note".toList, "read".toList, "b a".toList] [] hperiod)
        (by decide +kernel) (by decide +kernel)
    Relation.ReflTransGen Relaid _ ".a\n\t; note\nread\n  b a \n ." :=
      hstep (.pad [".a".toList, "\t; note".toList, "read".toList] [" .".toList] "b a".toList
        (hblanks [' ', ' '] (by simp)) (hblanks [' '] (by simp)))
        (by decide +kernel) (by decide +kernel)
    Relation.ReflTransGen Relaid _ ".a\n\t; note\nread\n  b a ;x\n ." :=
      hstep (.comment [".a".toList, "\t; note".toList, "read".toList] [" .".toList]
        "  b a ".toList "x".toList) (by decide +kernel) (by decide +kernel)
    Relation.ReflTransGen Relaid _ ".a\n\t; note\nReaD\n  b a ;x\n ." :=
      hstep (.recase [".a".toList, "\t; note".toList] ["  b a ;x".toList, " .".toList]
        (List.forall_mem_nil _) hfield hend hcase)
        (by decide +kernel) (by decide +kernel)
    Relation.ReflTransGen Relaid _ relaidText :=
      hstep (.feed [] ".a".toList "\t; note".toList
        ["ReaD".toList, "  b a ;x".toList, " .".toList]) (by decide +kernel) (by decide +kernel)

/-- The program is assembled to the same words in its other layout. -/
theorem Assembler.assemble_relaid_plainText :
    Relation.ReflTransGen Relaid plainText relaidText ∧
      ((new true).assemble "plain" relaidText).2.outcome = .ok [901, 600] := by
  refine ⟨plainText_relaid, ?_⟩
  exact ((assemble_relaid (new true) "plain" plainText_relaid).1 _).mpr (by decide +kernel)

end Mailroom
