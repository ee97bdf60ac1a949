import Mailroom.Opcode
import Mailroom.Text.Lowercase
import Mathlib.Tactic.ByContra

/-!
# Lower-casing and the fields of a source line

What lower-casing can make of the first field of a line.  ASCII letters are folded one by
one; outside ASCII only the Kelvin sign and the capital I with a dot fold into ASCII
letters at all, and neither of them into a mnemonic or a period.

Main definitions:

- `FoldsTo` lists the forms of characters outside ASCII.

Main results:

- Theorem `lower_eq_iff`: a word of ASCII characters other than `k` is the lower-case form
  of its own ASCII case variants and of nothing else.
- Theorem `Opcode.ofMnemonic?_lower_eq_some_iff`: so are the mnemonics.
- Theorem `lower_congr`: all ASCII case variants of a text have the same lower-case form.
- Theorem `exists_of_lower_eq_period_cons`: only a text that begins with a period has a
  lower-case form that does.
-/

namespace Mailroom.Text

/-! ## Single characters -/

/-- The forms of characters outside ASCII. -/
inductive FoldsTo : Char → List Char → Prop
  | dottedI : FoldsTo '\u0130' ['i', '\u0307']
  | kelvin : FoldsTo '\u212A' ['k']
  | outside {c d : Char} (h : 0x80 ≤ d.toNat) : FoldsTo c [d]

/-- Apart from the ASCII letters and the Kelvin sign, the case table leads from one
character outside ASCII to another. -/
theorem lowercaseSpans_outside :
    ∀ s ∈ lowercaseSpans,
      s = ⟨0x41, 0x5A, 1, 0x61⟩ ∨ s = ⟨0x212A, 0x212A, 1, 0x6B⟩ ∨
        0x80 ≤ s.first ∧ 0x80 ≤ s.target ∧
          (s.target + (s.last - s.first) < 0xD800 ∨
            0xDFFF < s.target ∧ s.target + (s.last - s.first) < 0x110000) := by
  decide +kernel

/-- What holds of every ASCII code point holds of every ASCII character. -/
theorem forall_ascii {P : Char → Prop} (h : ∀ n < 0x80, P (Char.ofNat n)) (c : Char)
    (hc : c.toNat < 0x80) : P c := by
  have hcode : P (Char.ofNat c.toNat) := h c.toNat hc
  rwa [Char.ofNat_toNat] at hcode

/-- An ASCII character is lower-cased as such. -/
theorem lowerChar_of_ascii {c : Char} (h : c.toNat < 0x80) : lowerChar c = [c.toLower] :=
  forall_ascii (P := fun c => lowerChar c = [c.toLower]) (by decide +kernel) c h

/-- A character outside ASCII has one of the listed forms. -/
theorem foldsTo_lowerChar {c : Char} (h : 0x80 ≤ c.toNat) : FoldsTo c (lowerChar c) := by
  unfold lowerChar
  by_cases hdotted : c = '\u0130'
  · rw [if_pos hdotted, hdotted]
    exact .dottedI
  · rw [if_neg hdotted]
    cases hfound : lowercaseSpans.findSome? (·.lower? c.toNat) with
    | none => exact .outside h
    | some code =>
      rcases List.exists_of_findSome?_eq_some hfound with ⟨s, hs, hlower⟩
      simp only [CaseSpan.lower?, Option.ite_none_right_eq_some, Option.some.injEq] at hlower
      rcases lowercaseSpans_outside s hs with rfl | rfl | ⟨hfirst, htarget, hvalid⟩
      · simp only at hlower
        omega
      · have hcode : c.toNat = 0x212A := by
          simp only at hlower
          omega
        have hkelvin : c = '\u212A' := Char.toNat_inj.mp hcode
        have hk : code = 0x6B := by
          simp only at hlower
          omega
        rw [hkelvin, hk]
        exact .kelvin
      · apply FoldsTo.outside
        have hcode : code.isValidChar := by
          unfold Nat.isValidChar
          omega
        have htoNat : (Char.ofNat code).toNat = code := by
          rw [Char.ofNat, dif_pos hcode]
          rfl
        omega

/-! ## Texts -/

/-- An ASCII character at the front of a text is folded regardless of its neighbours. -/
theorem lowerFrom_cons_of_ascii {c : Char} (h : c.toNat < 0x80) (before after : List Char) :
    lowerFrom before (c :: after) = c.toLower :: lowerFrom (c :: before) after := by
  have hsigma : c ≠ '\u03A3' := by
    intro hc
    rw [hc] at h
    exact absurd h (by decide)
  rw [lowerFrom, if_neg hsigma, lowerChar_of_ascii h]
  rfl

/-- A character outside ASCII at the front of a text is replaced by one of its forms. -/
theorem exists_lowerFrom_cons {c : Char} (h : 0x80 ≤ c.toNat) (before after : List Char) :
    ∃ form, FoldsTo c form ∧
      lowerFrom before (c :: after) = form ++ lowerFrom (c :: before) after := by
  rw [lowerFrom]
  by_cases hsigma : c = '\u03A3'
  · rw [if_pos hsigma]
    cases sigmaEndsWord before after with
    | true => exact ⟨['\u03C2'], .outside (by decide), rfl⟩
    | false => exact ⟨['\u03C3'], .outside (by decide), rfl⟩
  · rw [if_neg hsigma]
    exact ⟨lowerChar c, foldsTo_lowerChar h, rfl⟩

/-- Only the empty text has an empty lower-case form. -/
@[simp] theorem lowerFrom_eq_nil_iff {before cs : List Char} :
    lowerFrom before cs = [] ↔ cs = [] := by
  cases cs with
  | nil => simp [lowerFrom]
  | cons c after =>
    have hne : lowerFrom before (c :: after) ≠ [] := by
      by_cases hc : c.toNat < 0x80
      · rw [lowerFrom_cons_of_ascii hc]
        exact List.cons_ne_nil _ _
      · rcases exists_lowerFrom_cons (Nat.le_of_not_lt hc) before after with
          ⟨form, hform, heq⟩
        rw [heq]
        cases hform <;> exact List.cons_ne_nil _ _
    simp [hne]

/-- ASCII lower-casing leaves a character that is no ASCII capital. -/
theorem toLower_of_not_capital {c : Char} (h : c.toNat < 0x41 ∨ 0x5A < c.toNat) :
    c.toLower = c := by
  unfold Char.toLower
  rw [dif_neg]
  rintro ⟨hge, hle⟩
  have hge : 0x41 ≤ c.toNat := UInt32.le_iff_toNat_le.mp hge
  have hle : c.toNat ≤ 0x5A := UInt32.le_iff_toNat_le.mp hle
  omega

/-- ASCII lower-casing leaves a character outside ASCII. -/
theorem toLower_of_outside {c : Char} (h : ¬ c.toNat < 0x80) : c.toLower = c :=
  toLower_of_not_capital (.inr (by omega))

/-- ASCII lower-casing leaves a character on its side of ASCII. -/
theorem toNat_toLower_lt_iff (c : Char) : c.toLower.toNat < 0x80 ↔ c.toNat < 0x80 := by
  by_cases hc : c.toNat < 0x80
  · have hlower : c.toLower.toNat < 0x80 :=
      forall_ascii (P := fun c => c.toLower.toNat < 0x80) (by decide +kernel) c hc
    exact iff_of_true hlower hc
  · rw [toLower_of_outside hc]

/-- A text of ASCII characters is folded character by character. -/
theorem lowerFrom_of_ascii {cs : List Char} (h : ∀ c ∈ cs, c.toNat < 0x80)
    (before : List Char) : lowerFrom before cs = cs.map Char.toLower := by
  induction cs generalizing before with
  | nil => rfl
  | cons c after ih =>
    have hc : c.toNat < 0x80 := h c List.mem_cons_self
    have hafter : ∀ d ∈ after, d.toNat < 0x80 := fun d hd => h d (List.mem_cons_of_mem c hd)
    rw [lowerFrom_cons_of_ascii hc, ih hafter, List.map_cons]

/-- A text whose lower-case form is a word of ASCII characters other than `k` is in ASCII:
every form of another character holds a `k` or leaves ASCII. -/
theorem ascii_of_lowerFrom_eq {before cs word : List Char}
    (hword : ∀ c ∈ word, c.toNat < 0x80 ∧ c ≠ 'k') (h : lowerFrom before cs = word) :
    ∀ c ∈ cs, c.toNat < 0x80 := by
  induction cs generalizing before word with
  | nil =>
    intro c hc
    exact absurd hc (List.not_mem_nil)
  | cons c after ih =>
    have hc : c.toNat < 0x80 := by
      by_contra hout
      rcases exists_lowerFrom_cons (Nat.le_of_not_lt hout) before after with
        ⟨form, hform, heq⟩
      have hmem : ∀ d ∈ form, d ∈ word := by
        intro d hd
        rw [← h, heq]
        exact List.mem_append_left _ hd
      cases hform with
      | dottedI =>
        have hdot := (hword '\u0307' (hmem _ (by simp))).1
        exact absurd hdot (by decide)
      | kelvin => exact (hword 'k' (hmem _ (by simp))).2 rfl
      | @outside c d hd =>
        have hlt := (hword d (hmem d (by simp))).1
        omega
    rw [lowerFrom_cons_of_ascii hc] at h
    have hword' : ∀ d ∈ lowerFrom (c :: before) after, d.toNat < 0x80 ∧ d ≠ 'k' := by
      intro d hd
      apply hword
      rw [← h]
      exact List.mem_cons_of_mem _ hd
    have hafter : ∀ d ∈ after, d.toNat < 0x80 := ih hword' rfl
    intro d hd
    rcases List.mem_cons.mp hd with rfl | hd
    · exact hc
    · exact hafter d hd

/-- A word of ASCII characters other than `k` is the lower-case form of its ASCII case
variants only. -/
theorem lower_eq_iff {cs word : List Char}
    (hword : ∀ c ∈ word, c.toNat < 0x80 ∧ c ≠ 'k') :
    lower cs = word ↔ cs.map Char.toLower = word := by
  constructor
  · intro h
    have hascii : ∀ c ∈ cs, c.toNat < 0x80 := ascii_of_lowerFrom_eq hword h
    rw [← h, lower, lowerFrom_of_ascii hascii]
  · intro h
    have hascii : ∀ c ∈ cs, c.toNat < 0x80 := by
      intro c hc
      have hmem : c.toLower ∈ word := by
        rw [← h]
        exact List.mem_map_of_mem hc
      exact (toNat_toLower_lt_iff c).mp (hword _ hmem).1
    rw [lower, lowerFrom_of_ascii hascii, h]

/-! ## ASCII case -/

/-- What is the same for each ASCII capital and its small letter does not depend on ASCII case. -/
theorem apply_toLower {α : Type} {g : Char → α}
    (h : ∀ n < 26, g (Char.ofNat (0x41 + n)).toLower = g (Char.ofNat (0x41 + n))) (c : Char) :
    g c.toLower = g c := by
  by_cases hc : c.toNat < 0x41 ∨ 0x5A < c.toNat
  · rw [toLower_of_not_capital hc]
  · have hcapital := h (c.toNat - 0x41) (by omega)
    rwa [Nat.add_sub_cancel' (by omega), Char.ofNat_toNat] at hcapital

/-- ASCII case does not matter for finding the next letter. -/
theorem letterAhead_map_toLower (cs : List Char) :
    letterAhead (cs.map Char.toLower) = letterAhead cs := by
  have hcased : ∀ c : Char,
      inRanges casedRanges c.toLower.toNat = inRanges casedRanges c.toNat :=
    apply_toLower (g := fun c => inRanges casedRanges c.toNat) (by decide +kernel)
  have hpassed : ∀ c : Char,
      inRanges caseIgnorableRanges c.toLower.toNat = inRanges caseIgnorableRanges c.toNat :=
    apply_toLower (g := fun c => inRanges caseIgnorableRanges c.toNat) (by decide +kernel)
  induction cs with
  | nil => rfl
  | cons c rest ih =>
    unfold letterAhead at ih ⊢
    rw [List.map_cons, List.dropWhile_cons, List.dropWhile_cons, hpassed]
    by_cases hc : inRanges caseIgnorableRanges c.toNat = true
    · rw [if_pos hc, if_pos hc, ih]
    · rw [if_neg hc, if_neg hc]
      exact hcased c

/-- The end of a word does not depend on the ASCII case of its letters. -/
theorem sigmaEndsWord_congr {before before' after after' : List Char}
    (hbefore : before'.map Char.toLower = before.map Char.toLower)
    (hafter : after'.map Char.toLower = after.map Char.toLower) :
    sigmaEndsWord before' after' = sigmaEndsWord before after := by
  rw [sigmaEndsWord, ← letterAhead_map_toLower before', ← letterAhead_map_toLower after', hbefore,
    hafter, letterAhead_map_toLower, letterAhead_map_toLower, sigmaEndsWord]

/-- The ASCII case of letters does not matter for the lower-case form of a text, whatever text of
either case is before it. -/
theorem lowerFrom_congr {before before' cs cs' : List Char}
    (hbefore : before'.map Char.toLower = before.map Char.toLower)
    (h : cs'.map Char.toLower = cs.map Char.toLower) :
    lowerFrom before' cs' = lowerFrom before cs := by
  induction cs generalizing before before' cs' with
  | nil => rw [List.map_eq_nil_iff.mp h]; rfl
  | cons c after ih =>
    rw [List.map_cons] at h
    obtain ⟨c', after', rfl, hc, hafter⟩ := List.map_eq_cons_iff.mp h
    have hnext : (c' :: before').map Char.toLower = (c :: before).map Char.toLower := by
      rw [List.map_cons, List.map_cons, hc, hbefore]
    by_cases hascii : c.toNat < 0x80
    · have hascii' : c'.toNat < 0x80 := by
        rwa [← toNat_toLower_lt_iff, hc, toNat_toLower_lt_iff]
      rw [lowerFrom_cons_of_ascii hascii, lowerFrom_cons_of_ascii hascii', hc, ih hnext hafter]
    · -- outside ASCII the characters are the same
      have hascii' : ¬ c'.toNat < 0x80 := by
        rwa [← toNat_toLower_lt_iff, hc, toNat_toLower_lt_iff]
      rw [toLower_of_outside hascii, toLower_of_outside hascii'] at hc
      subst hc
      rw [lowerFrom, lowerFrom, sigmaEndsWord_congr hbefore hafter, ih hnext hafter]

/-- The ASCII case of letters does not matter for the lower-case form of a text. -/
theorem lower_congr {cs cs' : List Char} (h : cs'.map Char.toLower = cs.map Char.toLower) :
    lower cs' = lower cs :=
  lowerFrom_congr rfl h

/-! ## Periods -/

/-- A period is folded into itself. -/
theorem lower_period_cons (cs : List Char) :
    lower ('.' :: cs) = '.' :: lowerFrom ['.'] cs :=
  lowerFrom_cons_of_ascii (by decide) [] cs

/-- Only a text that begins with a period has a lower-case form that does. -/
theorem exists_of_lower_eq_period_cons {cs name : List Char} (h : lower cs = '.' :: name) :
    ∃ rest, cs = '.' :: rest ∧ name = lowerFrom ['.'] rest := by
  cases cs with
  | nil => exact absurd h (by simp [lower, lowerFrom])
  | cons c after =>
    by_cases hc : c.toNat < 0x80
    · rw [lower, lowerFrom_cons_of_ascii hc] at h
      have hdot : c = '.' :=
        forall_ascii (P := fun c => c.toLower = '.' → c = '.') (by decide +kernel) c hc
          (List.cons.inj h).1
      subst hdot
      exact ⟨after, rfl, (List.cons.inj h).2.symm⟩
    · rcases exists_lowerFrom_cons (Nat.le_of_not_lt hc) [] after with ⟨form, hform, heq⟩
      rw [lower, heq] at h
      cases hform with
      | dottedI => exact absurd (List.cons.inj h).1 (by decide)
      | kelvin => exact absurd (List.cons.inj h).1 (by decide)
      | @outside c d hd =>
        rw [(List.cons.inj h).1] at hd
        exact absurd hd (by decide)

end Mailroom.Text

namespace Mailroom.Opcode

open Text

/-! ## Mnemonics -/

/-- A mnemonic has letters. -/
theorem mnemonic_ne_nil (op : Opcode) : op.mnemonic.toList ≠ [] := by
  rcases op with op | op | op <;> cases op <;> decide

/-- Mnemonics are words of lower-case ASCII letters. -/
theorem mnemonic_isLower (op : Opcode) : ∀ c ∈ op.mnemonic.toList, c.isLower = true := by
  have hall : op.mnemonic.toList.all Char.isLower = true := by
    rcases op with op | op | op <;> cases op <;> decide
  exact List.all_eq_true.mp hall

/-- Mnemonics are in ASCII, and no mnemonic holds a `k`. -/
theorem mnemonic_ascii (op : Opcode) :
    ∀ c ∈ op.mnemonic.toList, c.toNat < 0x80 ∧ c ≠ 'k' := by
  have hall : op.mnemonic.toList.all (fun c => decide (c.toNat < 0x80 ∧ c ≠ 'k')) = true := by
    rcases op with op | op | op <;> cases op <;> decide
  intro c hc
  exact of_decide_eq_true (List.all_eq_true.mp hall c hc)

/-- A mnemonic stands for one operation only. -/
theorem mnemonic_injective {first second : Opcode} (h : first.mnemonic = second.mnemonic) :
    first = second := by
  have hall : ∀ a ∈ all, ∀ b ∈ all, a.mnemonic = b.mnemonic → a = b := by decide
  exact hall first (mem_all first) second (mem_all second) h

/-- An operation is found by its mnemonic. -/
theorem ofMnemonic?_eq_some_iff {text : String} {op : Opcode} :
    ofMnemonic? text = some op ↔ text = op.mnemonic := by
  constructor
  · intro h
    have hmatch := List.find?_some h
    exact (eq_of_beq hmatch).symm
  · rintro rfl
    cases hfound : ofMnemonic? op.mnemonic with
    | none =>
      have hnone := List.find?_eq_none.mp hfound op (mem_all op)
      exact absurd (beq_self_eq_true op.mnemonic) hnone
    | some found =>
      have hmatch : found.mnemonic == op.mnemonic :=
        List.find?_some (p := fun o : Opcode => o.mnemonic == op.mnemonic) hfound
      rw [mnemonic_injective (eq_of_beq hmatch)]

/-- A field is folded into a mnemonic when it spells it in ASCII letters of either case. -/
theorem ofMnemonic?_lower_eq_some_iff {field : List Char} {op : Opcode} :
    ofMnemonic? (String.ofList (lower field)) = some op ↔
      field.map Char.toLower = op.mnemonic.toList := by
  rw [ofMnemonic?_eq_some_iff, ← lower_eq_iff op.mnemonic_ascii]
  constructor
  · intro h
    rw [← h, String.toList_ofList]
  · intro h
    rw [h, String.ofList_toList]

end Mailroom.Opcode
