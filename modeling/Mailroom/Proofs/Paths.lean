import Mailroom.Command.Invocation
import Mailroom.Proofs.TextGrammar

/-!
# The shown form of a path

A path is shown with the names that are left in it, behind the slashes that it keeps.  Both can be
read back from the shown form, so showing a path once more changes nothing.

Main definitions:

- `IsShownName` says what a name in a shown form is like.

Main results:

- Theorem `names_of_shown`: the names in a shown form are those that it is made of.
- Theorem `rootOf_of_shown`: so are the slashes at its beginning.
- Theorem `shownPath_shownPath`: the shown form of a path is its own shown form.
- Theorem `Tool.shownPath_of_assembleRequest`: a request to assemble has its paths in their shown
  form, so reports name its files as the request does.
-/

namespace Mailroom

/-- A name that a path can be shown with: it holds no slash, and it is neither empty nor a
period. -/
def IsShownName (name : String) : Prop :=
  '/' ∉ name.toList ∧ name ≠ "" ∧ name ≠ "."

/-- The names in a path that are not periods are its parts without periods and empty parts. -/
theorem filter_pathNames (path : String) :
    (pathNames path).filter (· ≠ ".") =
      ((path.toList.splitOn '/').map String.ofList).filter fun name => name ≠ "" ∧ name ≠ "." := by
  unfold pathNames
  simp only
  split <;> simp [List.filter_filter, Bool.and_comm]

/-- The names in a path that are not periods are fit to be shown. -/
theorem isShownName_of_mem {path name : String} (h : name ∈ (pathNames path).filter (· ≠ ".")) :
    IsShownName name := by
  rw [filter_pathNames, List.mem_filter, decide_eq_true_iff] at h
  obtain ⟨hpart, hne⟩ := h
  obtain ⟨part, hmem, rfl⟩ := List.mem_map.mp hpart
  exact ⟨by simpa using not_mem_of_mem_splitOn hmem, hne⟩

section Shown

variable {names : List String}

/-- A shown form has no more slashes at its beginning than stand before its first name. -/
theorem takeWhile_slash_intercalate (h : ∀ name ∈ names, IsShownName name) :
    ("/".intercalate names).toList.takeWhile (· = '/') = [] := by
  cases names with
  | nil => rfl
  | cons name rest =>
    obtain ⟨hslash, hne, -⟩ := h name List.mem_cons_self
    have hchars : name.toList ≠ [] := fun hnil => hne (String.toList_eq_nil_iff.mp hnil)
    obtain ⟨c, cs, hname⟩ := List.exists_cons_of_ne_nil hchars
    have hc : c ≠ '/' := by
      rintro rfl
      exact hslash (hname ▸ List.mem_cons_self)
    cases rest with
    | nil => simp [hname, hc]
    | cons next more => simp [String.intercalate_cons_cons, hname, hc]

/-- The names in a shown form are those that it is made of. -/
theorem names_of_shown (h : ∀ name ∈ names, IsShownName name) (slashes : Nat) :
    (pathNames (String.ofList (List.replicate slashes '/') ++ "/".intercalate names)).filter
      (· ≠ ".") = names := by
  rw [filter_pathNames, String.toList_append, String.toList_ofList]
  induction slashes with
  | zero =>
    rw [List.replicate_zero, List.nil_append]
    by_cases hnone : names = []
    · subst hnone
      rfl
    · have hparts : ("/".intercalate names).toList.splitOn '/' = names.map String.toList :=
        splitOn_intercalate_texts rfl hnone fun name hname => (h name hname).1
      rw [hparts, List.map_map]
      simpa [Function.comp_def] using fun name hname => (h name hname).2
  | succ slashes ih =>
    -- a slash at the beginning divides an empty part off
    rw [List.replicate_succ, List.cons_append, ← List.nil_append ('/' :: _),
      List.splitOn_append_cons_self]
    simpa using ih

/-- The slashes that a path keeps are not more than two. -/
theorem exists_slashes (path : String) :
    ∃ slashes ≤ 2, rootOf path = String.ofList (List.replicate slashes '/') := by
  unfold rootOf
  split
  · exact ⟨0, by decide, rfl⟩
  · exact ⟨2, by decide, rfl⟩
  · exact ⟨1, by decide, rfl⟩

/-- The slashes at the beginning of a shown form are those that it is made of. -/
theorem rootOf_of_shown (h : ∀ name ∈ names, IsShownName name) {slashes : Nat}
    (hslashes : slashes ≤ 2) :
    rootOf (String.ofList (List.replicate slashes '/') ++ "/".intercalate names) =
      String.ofList (List.replicate slashes '/') := by
  rw [rootOf, String.toList_append, String.toList_ofList, List.takeWhile_append_of_pos (by simp),
    takeWhile_slash_intercalate h, List.append_nil, List.length_replicate]
  match slashes with
  | 0 | 1 | 2 => rfl

end Shown

/-- The shown form of a path is its own shown form. -/
theorem shownPath_shownPath (path : String) : shownPath (shownPath path) = shownPath path := by
  obtain ⟨slashes, hslashes, hroot⟩ := exists_slashes path
  have hnames : ∀ name ∈ (pathNames path).filter (· ≠ "."), IsShownName name :=
    fun name => isShownName_of_mem
  by_cases hempty : rootOf path ++ "/".intercalate ((pathNames path).filter (· ≠ ".")) = ""
  · have hperiod : shownPath path = "." := if_pos hempty
    rw [hperiod]
    decide
  · have hshown : shownPath path =
        rootOf path ++ "/".intercalate ((pathNames path).filter (· ≠ ".")) := if_neg hempty
    rw [hshown, shownPath, hroot, rootOf_of_shown hnames hslashes, names_of_shown hnames, ← hroot]
    exact if_neg hempty

/-- The slash at the end, the periods and the third slash are not shown. -/
example : shownPath "///src/./loop/" = "/src/loop" := by decide +kernel

/-! ## Paths in requests -/

section Requests

variable {s : Scanned} {ws : Workspace}

/-- A file to read has its path in the shown form. -/
theorem Scanned.shownPath_of_inputFile {path : String} {content : Bytes}
    (h : s.inputFile ws = .ok (path, content)) : shownPath path = path := by
  unfold inputFile at h
  split at h
  next => contradiction
  next given _ =>
    split at h <;> cases h
    exact shownPath_shownPath given
  next => contradiction

/-- A file to write has its path in the shown form. -/
theorem Scanned.shownPath_of_outputPath? {option path : String}
    (h : s.outputPath? option ws = .ok (some path)) : shownPath path = path := by
  unfold outputPath? at h
  split at h
  next => cases h
  next given _ =>
    split at h <;> cases h
    exact shownPath_shownPath given

/-- What two steps yield is what the second makes of what the first yields. -/
theorem exists_of_bind_eq_ok {ε α β : Type} {first : Except ε α} {second : α → Except ε β} {b : β}
    (h : (first >>= second) = .ok b) : ∃ a, first = .ok a ∧ second a = .ok b := by
  cases first with
  | error e => contradiction
  | ok a => exact ⟨a, rfl, h⟩

/-- All paths of a request to assemble are in their shown form. -/
theorem Tool.shownPath_of_assembleRequest {r : AssembleRequest}
    (h : assembleRequest s ws = .ok r) :
    shownPath r.input = r.input ∧ shownPath r.output = r.output ∧
      (∀ path ∈ r.listing, shownPath path = path) ∧
      ∀ path ∈ r.symbols, shownPath path = path := by
  obtain ⟨⟨input, source⟩, hinput, h⟩ := exists_of_bind_eq_ok h
  obtain ⟨output, houtput, h⟩ := exists_of_bind_eq_ok h
  obtain ⟨listing, hlisting, h⟩ := exists_of_bind_eq_ok h
  obtain ⟨symbols, hsymbols, h⟩ := exists_of_bind_eq_ok h
  have hpath : ∀ {option : String} {found : Option String}, s.outputPath? option ws = .ok found →
      ∀ path ∈ found, shownPath path = path := by
    rintro option found hfound path rfl
    exact Scanned.shownPath_of_outputPath? hfound
  split at h
  · contradiction
  · cases h
    have houtput : shownPath (output.getD defaultImage) = output.getD defaultImage := by
      cases output with
      | none => decide
      | some path => exact hpath houtput path rfl
    exact ⟨Scanned.shownPath_of_inputFile hinput, houtput, hpath hlisting, hpath hsymbols⟩

end Requests

end Mailroom
