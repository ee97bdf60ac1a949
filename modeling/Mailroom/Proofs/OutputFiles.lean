import Mailroom.Command.Assemble
import Mailroom.Proofs.Images
import Mailroom.Proofs.Jobs
import Mailroom.Proofs.Layouts
import Mailroom.Proofs.PrintedForms
import Mailroom.Proofs.Reassembly
import Mailroom.Proofs.Refusals
import Mailroom.Proofs.Workspaces

/-!
# The files of the assembling command

A source file that is assembled gives an image, and a listing and a symbol file on request,
which agree with one another.  A source file that is refused leaves all files as they are.

Main definitions:

- `AssembleRequest.outputs` are the paths of a request, and `AssembleRequest.Writable` says that
  they lead to different files.
- `AssembleRequest.Agrees` says that the files hold the same words and symbols.

Main results:

- Theorem `Assembler.printable_of_assemble`: what is assembled keeps to the lines and columns of
  its listing.
- Theorems `AssembleRequest.report_of_error` and `AssembleRequest.report_of_ok`: what a request
  leaves behind.
- Theorem `AssembleRequest.report_agrees` joins them.
-/

namespace Mailroom

open Text

/-! ## Builds of source texts -/

namespace Assembler

variable {a : Assembler} {file source : String} {words : List Int}

/-- What is assembled keeps to the lines and columns of its listing. -/
theorem printable_of_assemble (h : (a.assemble file source).2.outcome = .ok words) :
    (a.assemble file source).1.build.Printable := by
  obtain ⟨tokens, hread, hreadable⟩ := exists_reading_of_assemble h
  have hassemble := assemble_of_reading a hread
  rw [hassemble] at h ⊢
  have hrow : ∀ row ∈ (a.generate tokens).1.build.rows, ∃ i value,
      value ∈ words ∧ row.Shows tokens i value := by
    intro row hmem
    obtain ⟨i, hi⟩ := List.mem_iff_getElem?.mp hmem
    obtain ⟨value, hvalue, hshows⟩ := shows_of_rows_generate hi
    rw [words_of_ok h] at hvalue
    exact ⟨i, value, List.mem_of_getElem? hvalue, hshows⟩
  have hgenerates := generates_generate a tokens
  rw [h] at hgenerates
  constructor
  · intro row hmem
    obtain ⟨i, value, hvalue, hshows⟩ := hrow row hmem
    rw [hshows.word]
    exact (bounds_of_readsBack (readsBack_of_generate h) value hvalue).1
  · intro row hmem
    obtain ⟨i, value, -, hshows⟩ := hrow row hmem
    obtain ⟨instruction, hinstruction, -, -, hsource⟩ := hshows.encodes
    have htoken : Token.instruction instruction ∈ (Reading.ofSource file 1 source).tokens := by
      rw [hread]
      exact mem_instructionsOf_iff.mp (List.mem_of_getElem? hinstruction)
    rw [hsource]
    exact (Reading.sayable_ofSource htoken).feed_not_mem_text
  · intro row hmem x hx
    obtain ⟨i, value, -, hshows⟩ := hrow row hmem
    obtain ⟨label, ⟨before, instruction, after, rfl, -⟩, rfl⟩ := (hshows.label x).mp hx
    exact hreadable.isName label (by simp)
  · cases hgenerates with
    | words _ hsymbols _ => exact fun s hs => (hsymbols.isName hreadable hs).1

/-- The rows of a program that is assembled show its words in order. -/
theorem rows_of_assemble (h : (a.assemble file source).2.outcome = .ok words) :
    (a.assemble file source).1.build.rows.map (fun row => (row.address, row.word)) =
      words.zipIdx.map Prod.swap := by
  obtain ⟨tokens, hread, -⟩ := exists_reading_of_assemble h
  rw [assemble_of_reading a hread] at h ⊢
  have hlength := length_rows_generate a tokens
  rw [words_of_ok h] at hlength
  apply List.ext_getElem?
  intro i
  rw [List.getElem?_map, List.getElem?_map, List.getElem?_zipIdx]
  cases hrow : (a.generate tokens).1.build.rows[i]? with
  | none =>
    rw [List.getElem?_eq_none_iff, hlength, ← List.getElem?_eq_none_iff] at hrow
    rw [hrow]
    rfl
  | some row =>
    obtain ⟨value, hvalue, hshows⟩ := shows_of_rows_generate hrow
    rw [words_of_ok h] at hvalue
    simp [hvalue, hshows.address, hshows.word]

/-- The symbols of a program that is assembled have different names in code point order. -/
theorem symbols_of_assemble (h : (a.assemble file source).2.outcome = .ok words) :
    (a.assemble file source).1.build.symbols.indices.Pairwise fun s t => s.1 < t.1 := by
  obtain ⟨tokens, hread, -⟩ := exists_reading_of_assemble h
  rw [assemble_of_reading a hread] at h ⊢
  have hgenerates := generates_generate a tokens
  rw [h] at hgenerates
  cases hgenerates with
  | words _ hsymbols _ => exact hsymbols.1

/-- Words that are assembled lie between 0 and 902. -/
theorem bounds_of_assemble (h : (a.assemble file source).2.outcome = .ok words) :
    ∀ v ∈ words, 0 ≤ v ∧ v ≤ 902 :=
  bounds_of_readsBack (readsBack_of_generate (generate_of_assemble h))

end Assembler

/-- A refused source file is reported, unless reading it comes to an overlong line. -/
theorem Assembler.exit_of_refused {a : Assembler} {file source : String} {e : Refusal}
    (h : (a.assemble file source).2.outcome = .error e) :
    (e.stop.exit = .failure ∧ ¬ MeetsOverlong file 1 source) ∨
      (e.stop.exit = .internalError ∧ MeetsOverlong file 1 source) := by
  rw [← exists_longNumeral_iff (a := a), h]
  rcases (assemble_eq_error_iff.mp h).pointsAt with ⟨d, -, -, rfl, -⟩ | ⟨cause, rfl⟩
  · refine .inl ⟨rfl, ?_⟩
    rintro ⟨cause, hcause⟩
    exact Refusal.noConfusion (Except.error.inj hcause)
  · exact .inr ⟨rfl, cause, rfl⟩

/-- The layout of a text has no part in the exit status of its refusal. -/
theorem Refusal.exit_layoutless (e : Refusal) : e.layoutless.stop.exit = e.stop.exit := by
  cases e <;> rfl

/-! ## Carrying a request out -/

/-- A file is written under a path that leads to one. -/
theorem Task.does_store {ws : Workspace} {path : String} (h : ws.target? path ≠ none)
    (content : Bytes) :
    Task.Does (writeFile path content) ws (.ok ()) (ws.store path content) [] := by
  obtain ⟨key, hkey⟩ := Option.ne_none_iff_exists'.mp h
  exact does_writeFile (Workspace.write_eq_ok hkey content)

namespace AssembleRequest

variable {r : AssembleRequest} {ws : Workspace} {source : String} {words : List Int}
  {image : Bytes}

/-- The paths that a request writes to. -/
def outputs (r : AssembleRequest) : List String :=
  r.output :: (r.listing.toList ++ r.symbols.toList)

/-- The paths that a request writes to lead to different files. -/
structure Writable (r : AssembleRequest) (ws : Workspace) : Prop where
  target : ∀ path ∈ r.outputs, ws.target? path ≠ none
  apart : r.outputs.Pairwise fun p q => ws.target? p ≠ ws.target? q

/-- The files of a request, from an image and a build. -/
def written (r : AssembleRequest) (image : Bytes) (b : Build) : List (String × Bytes) :=
  (r.output, image) :: (r.listing.toList.map (·, Utf8.encode b.listing) ++
    r.symbols.toList.map (·, Utf8.encode b.symbolFile))

/-- The files of a request are written under its paths. -/
theorem map_fst_written (r : AssembleRequest) (image : Bytes) (b : Build) :
    (r.written image b).map (·.1) = r.outputs := by
  simp [written, outputs, Function.comp_def]

/-- Verbose lines do nothing. -/
theorem does_chat (r : AssembleRequest) (line : String) (ws : Workspace) :
    Task.Does (r.chat line) ws (.ok ()) ws [] := by
  unfold chat
  split
  next => exact Task.does_say [line] ws
  next => exact Task.does_pure () ws

/-- A source file with a text is assembled under the shown form of its path. -/
theorem does_assembled (hsource : readTextFile r.source = .ok source) (ws : Workspace) :
    let assembly := (Assembler.new r.strict).assemble (shownPath r.input) source
    ∃ given, Task.Does r.assembled ws
      ((assembly.2.outcome.map (assembly.1, ·)).mapError Refusal.stop) ws given := by
  rw [assembled, Assembler.assembleFile_of_text hsource]
  generalize (Assembler.new r.strict).assemble (shownPath r.input) source = assembly
  obtain ⟨left, notices, outcome⟩ := assembly
  have hjournal := Task.does_ofJournal FileRefusal.stop
    ⟨.assembling (shownPath r.input) :: notices, outcome.mapError FileRefusal.refused⟩ ws
  cases outcome with
  | error e => exact ⟨_, hjournal.bind_of_error _⟩
  | ok words => exact ⟨_, hjournal.bind (Task.does_pure _ ws)⟩

/-- The image is written. -/
theorem does_writeImage (hencode : Image.encode words = .ok image)
    (h : ws.target? r.output ≠ none) :
    Task.Does (r.writeImage words) ws (.ok image.length) (ws.store r.output image) [] := by
  rw [writeImage, hencode]
  exact (Task.does_store h image).bind ((Task.does_notify _ _).bind (Task.does_pure _ _))

/-- The listing is written if it is asked for. -/
theorem does_writeListing (b : Build) (h : ∀ path ∈ r.listing, ws.target? path ≠ none) :
    Task.Does (r.writeListing b) ws (.ok ())
      (ws.storeAll (r.listing.toList.map (·, Utf8.encode b.listing))) [] := by
  rw [writeListing]
  cases hpath : r.listing with
  | none => exact Task.does_pure () ws
  | some path =>
    exact (Task.does_store (h path hpath) _).bind
      ((Task.does_notify _ _).bind (r.does_chat _ _))

/-- The symbol file is written if it is asked for. -/
theorem does_writeSymbols (b : Build) (h : ∀ path ∈ r.symbols, ws.target? path ≠ none) :
    Task.Does (r.writeSymbols b) ws (.ok ())
      (ws.storeAll (r.symbols.toList.map (·, Utf8.encode b.symbolFile))) [] := by
  rw [writeSymbols]
  cases hpath : r.symbols with
  | none => exact Task.does_pure () ws
  | some path =>
    exact (Task.does_store (h path hpath) _).bind
      ((Task.does_notify _ _).bind (r.does_chat _ _))

/-- A refused source file changes no files. -/
theorem report_of_error {e : Refusal} (hsource : readTextFile r.source = .ok source)
    (h : ((Assembler.new r.strict).assemble r.input source).2.outcome = .error e)
    (ws : Workspace) :
    (r.task.report ws).workspace = ws ∧ (r.task.report ws).exit = e.stop.exit := by
  obtain ⟨e', h', hsame⟩ :=
    ((Assembler.new r.strict).assemble_under r.input (shownPath r.input) source).2.2 e h
  obtain ⟨given, hrefused⟩ := does_assembled hsource ws
  rw [h'] at hrefused
  have htask : Task.Does r.task ws (.error e'.stop) ws ([] ++ given) := by
    unfold task
    exact (r.does_chat _ ws).bind (hrefused.bind_of_error _)
  obtain ⟨hworkspace, hexit⟩ := htask.report
  refine ⟨hworkspace, ?_⟩
  calc
    (r.task.report ws).exit = e'.stop.exit := hexit
    _ = e.stop.exit := by rw [← e'.exit_layoutless, hsame, e.exit_layoutless]

/-- The files of a request that is carried out. -/
theorem report_of_ok (hsource : readTextFile r.source = .ok source)
    (h : ((Assembler.new r.strict).assemble (shownPath r.input) source).2.outcome = .ok words)
    (hencode : Image.encode words = .ok image) (hwritable : r.Writable ws) :
    (r.task.report ws).workspace = ws.storeAll
        (r.written image ((Assembler.new r.strict).assemble (shownPath r.input) source).1.build) ∧
      (r.task.report ws).exit = .success := by
  obtain ⟨given, hassembled⟩ := does_assembled hsource ws
  rw [h] at hassembled
  generalize ((Assembler.new r.strict).assemble (shownPath r.input) source).1 = a at hassembled ⊢
  have hlater : ∀ written path, path ∈ r.outputs → (ws.storeAll written).target? path ≠ none := by
    intro written path hpath
    rw [Workspace.target?_storeAll]
    exact hwritable.target path hpath
  have hlisting : Task.Does (r.writeListing a.build) (ws.storeAll [(r.output, image)]) _ _ _ :=
    r.does_writeListing a.build fun path hpath =>
      hlater _ path (by simp [outputs, Option.mem_def.mp hpath])
  have hsymbols : Task.Does (r.writeSymbols a.build) (ws.storeAll ((r.output, image) ::
      r.listing.toList.map (·, Utf8.encode a.build.listing))) _ _ _ :=
    r.does_writeSymbols a.build fun path hpath =>
      hlater _ path (by simp [outputs, Option.mem_def.mp hpath])
  have htask : Task.Does r.task ws (.ok .success) (ws.storeAll (r.written image a.build))
      (given ++ []) := by
    rw [written, ← List.cons_append, Workspace.storeAll_append]
    unfold task
    refine (r.does_chat _ ws).bind (hassembled.bind ?_)
    refine (does_writeImage hencode (hwritable.target r.output List.mem_cons_self)).bind ?_
    refine (r.does_chat _ _).bind (hlisting.bind (hsymbols.bind ?_))
    exact (r.does_chat _ _).bind (Task.does_pure _ _)
  exact htask.report

/-! ## Agreement -/

/-- The files of a request hold the same words and symbols, and the other files are as they
were. -/
structure Agrees (r : AssembleRequest) (before after : Workspace) (words : List Int)
    (symbols : List (String × Nat)) : Prop where
  image : ∃ image, after.content? r.output = some image ∧
    (Image.decode image).map (·.val) = words
  listing : ∀ path ∈ r.listing, ∃ listing, after.content? path = some (Utf8.encode listing) ∧
    readRows? listing = some (words.zipIdx.map Prod.swap) ∧
    readListedSymbols? listing = some symbols
  symbolFile : ∀ path ∈ r.symbols, ∃ file, after.content? path = some (Utf8.encode file) ∧
    readSymbolFile? file = some symbols
  sorted : symbols.Pairwise fun s t => s.1 < t.1
  others : after.current = before.current ∧ after.directories = before.directories ∧
    ∀ key, (∀ path ∈ r.outputs, before.target? path ≠ some key) →
      after.files.find? key = before.files.find? key

/-- The files of a build agree. -/
theorem agrees_storeAll {a : Assembler} {file : String}
    (h : (a.assemble file source).2.outcome = .ok words)
    (hdecode : (Image.decode image).map (·.val) = words) (hwritable : r.Writable ws) :
    r.Agrees ws (ws.storeAll (r.written image (a.assemble file source).1.build)) words
      (a.assemble file source).1.build.symbols.indices := by
  have hprintable := Assembler.printable_of_assemble h
  have hrows := Assembler.rows_of_assemble h
  have hsorted := Assembler.symbols_of_assemble h
  generalize (a.assemble file source).1.build = b at hprintable hrows hsorted ⊢
  have hcontent : ∀ w ∈ r.written image b,
      (ws.storeAll (r.written image b)).content? w.1 = some w.2 := by
    intro w hw
    refine Workspace.content?_storeAll ?_ ?_ hw
    · intro v hv
      exact hwritable.target v.1 (r.map_fst_written image b ▸ List.mem_map_of_mem hv)
    · have hapart := hwritable.apart
      rwa [← r.map_fst_written image b, List.pairwise_map] at hapart
  refine ⟨⟨image, ?_, hdecode⟩, ?_, ?_, hsorted, ?_⟩
  · exact hcontent (r.output, image) List.mem_cons_self
  · intro path hpath
    refine ⟨b.listing, ?_, ?_, Build.readListedSymbols?_listing hprintable⟩
    · exact hcontent (path, Utf8.encode b.listing)
        (by simp [written, Option.mem_def.mp hpath])
    · rw [Build.readRows?_listing hprintable, hrows]
  · intro path hpath
    refine ⟨b.symbolFile, ?_, Build.readSymbolFile?_symbolFile hprintable⟩
    exact hcontent (path, Utf8.encode b.symbolFile)
      (by simp [written, Option.mem_def.mp hpath])
  · obtain ⟨hcurrent, hdirectories⟩ := ws.directories_storeAll (r.written image b)
    refine ⟨hcurrent, hdirectories, fun key hkey => Workspace.find?_storeAll fun w hw => ?_⟩
    exact hkey w.1 (r.map_fst_written image b ▸ List.mem_map_of_mem hw)

/-- The text of a source file is read with line feeds as its only line ends. -/
theorem readTextFile_encode (text : String) :
    readTextFile (Utf8.encode text) = .ok (String.ofList (unifyLineEnds text.toList)) := by
  rw [readTextFile, Utf8.decode_encode]
  rfl

/-- A refused request changes no files, and ends with exit status 1 or 3. -/
theorem report_of_refused {e : Refusal} (hread : readTextFile r.source = .ok source)
    (h : ((Assembler.new r.strict).assemble r.input source).2.outcome = .error e)
    (ws : Workspace) :
    (r.task.report ws).workspace = ws ∧
      (((r.task.report ws).exit.code = 1 ∧ ¬ MeetsOverlong r.input 1 source) ∨
        ((r.task.report ws).exit.code = 3 ∧ MeetsOverlong r.input 1 source)) := by
  obtain ⟨hworkspace, hexit⟩ := report_of_error hread h ws
  refine ⟨hworkspace, ?_⟩
  rw [hexit]
  rcases Assembler.exit_of_refused h with ⟨hexit, hshort⟩ | ⟨hexit, hlong⟩
  · exact .inl ⟨by rw [hexit]; rfl, hshort⟩
  · exact .inr ⟨by rw [hexit]; rfl, hlong⟩

/-- A request that is carried out ends with exit status 0, and its files agree. -/
theorem report_of_assembled (hread : readTextFile r.source = .ok source)
    (h : ((Assembler.new r.strict).assemble r.input source).2.outcome = .ok words)
    (hwritable : r.Writable ws) :
    (r.task.report ws).exit.code = 0 ∧ (∀ v ∈ words, 0 ≤ v ∧ v ≤ 902) ∧
      r.Agrees ws (r.task.report ws).workspace words
        ((Assembler.new r.strict).assemble r.input source).1.build.symbols.indices := by
  have hbounds := Assembler.bounds_of_assemble h
  have hfits : ∀ v ∈ words, Fits v := by
    intro v hv
    obtain ⟨hleast, hgreatest⟩ := hbounds v hv
    exact ⟨by omega, by omega⟩
  obtain ⟨image, hencode, -, hdecode⟩ := Image.encode_of_fits hfits
  -- the name in the reports is the shown form, which the files do not depend on
  obtain ⟨hwords, hsymbols, -⟩ :=
    (Assembler.new r.strict).assemble_under r.input (shownPath r.input) source
  have hshown := (hwords words).mpr h
  obtain ⟨hworkspace, hexit⟩ := report_of_ok hread hshown hencode hwritable
  refine ⟨by rw [hexit]; rfl, hbounds, ?_⟩
  rw [hworkspace, ← hsymbols]
  exact agrees_storeAll hshown hdecode hwritable

/-- Without carriage returns the line ends are unified already. -/
theorem unifyLineEnds_of_not_mem {cs : List Char} (h : '\r' ∉ cs) : unifyLineEnds cs = cs := by
  fun_induction unifyLineEnds cs with
  | case1 | case2 => exact absurd List.mem_cons_self h
  | case3 c rest _ _ ih => rw [ih fun hmem => h (List.mem_cons_of_mem _ hmem)]
  | case4 => rfl

/-- A request whose source is refused changes no files.  It ends with exit status 1, but with 3
when reading comes to an overlong line.  Any other request ends with exit status 0, its words
lie between 0 and 902, and its files agree on the words and the symbols. -/
theorem report_agrees {text : String} (hsource : r.source = Utf8.encode text)
    (hwritable : r.Writable ws) :
    let source := String.ofList (unifyLineEnds text.toList)
    let assembly := (Assembler.new r.strict).assemble r.input source
    let report := r.task.report ws
    (∀ e, assembly.2.outcome = .error e → report.workspace = ws ∧
      ((report.exit.code = 1 ∧ ¬ MeetsOverlong r.input 1 source) ∨
        (report.exit.code = 3 ∧ MeetsOverlong r.input 1 source))) ∧
    ∀ words, assembly.2.outcome = .ok words → report.exit.code = 0 ∧
      (∀ v ∈ words, 0 ≤ v ∧ v ≤ 902) ∧
      r.Agrees ws report.workspace words assembly.1.build.symbols.indices := by
  have hread := readTextFile_encode text
  rw [← hsource] at hread
  exact ⟨fun e he => report_of_refused hread he ws,
    fun words hwords => report_of_assembled hread hwords hwritable⟩

/-- A program with two labels, on lines that end in different ways. -/
def countdownText : String :=
  ".loop\r\nREAD\r bz done ; leave\nprint\nb loop\n\n.done\nstop\n.Again\nb done"

/-- The request for the three files of the program. -/
def countdown : AssembleRequest :=
  ⟨"count.lmc", Utf8.encode countdownText, "count.bin", some "count.lst", some "out/../count.sym",
    true, false⟩

/-- The three files of the program agree. -/
theorem report_agrees_countdown :
    let ws := Workspace.ofFiles [("count.lmc", countdown.source), ("out/old.bin", [])]
    countdown.source = Utf8.encode countdownText ∧ countdown.Writable ws ∧
      (countdown.task.report ws).exit.code = 0 ∧
      countdown.Agrees ws (countdown.task.report ws).workspace [901, 704, 902, 600, 0, 604]
        [("again", 5), ("done", 4), ("loop", 0)] := by
  intro ws
  have hwritable : countdown.Writable ws := ⟨by decide +kernel, by decide +kernel⟩
  have hassembled :
      let assembly := (Assembler.new countdown.strict).assemble countdown.input
        (String.ofList (unifyLineEnds countdownText.toList))
      (assembly.2.outcome, assembly.1.build.symbols.indices) =
        (.ok [901, 704, 902, 600, 0, 604], [("again", 5), ("done", 4), ("loop", 0)]) := by
    decide +kernel
  obtain ⟨houtcome, hsymbols⟩ := Prod.mk.inj hassembled
  obtain ⟨hexit, -, hagrees⟩ := (report_agrees rfl hwritable).2 _ houtcome
  rw [hsymbols] at hagrees
  exact ⟨rfl, hwritable, hexit, hagrees⟩

/-- The request for the image of a mailbox number of 4301 zeros. -/
def zeros : AssembleRequest :=
  ⟨"zeros.lmc", Utf8.encode (String.ofList (zerosLine 4300)), "zeros.bin", none, none, false, false⟩

/-- The source is refused, and yet the request does not end with exit status 1. -/
theorem report_overlong_zeros :
    let ws := Workspace.ofFiles [("zeros.lmc", zeros.source)]
    zeros.Writable ws ∧
      (∃ e, ((Assembler.new zeros.strict).assemble zeros.input
        (String.ofList (unifyLineEnds (zerosLine 4300)))).2.outcome = .error e) ∧
      (zeros.task.report ws).exit.code = 3 := by
  intro ws
  have htext : String.ofList (unifyLineEnds (zerosLine 4300)) = String.ofList (zerosLine 4300) := by
    rw [unifyLineEnds_of_not_mem (not_mem_zerosLine (by decide) 4300)]
  have hread : readTextFile zeros.source = .ok (String.ofList (zerosLine 4300)) := by
    rw [zeros, readTextFile_encode, String.toList_ofList, htext]
  have hrefused := Assembler.assemble_of_refused_line (Assembler.new zeros.strict)
    (Reading.ofSource_zerosLine zeros.input)
  have houtcome := congrArg (fun result => result.2.outcome) hrefused
  refine ⟨⟨by decide +kernel, by decide +kernel⟩, ⟨.longNumeral ⟨4301⟩, ?_⟩, ?_⟩
  · rw [htext]
    exact houtcome
  · rw [(report_of_error hread houtcome ws).2]
    rfl

end AssembleRequest

end Mailroom
