import Mailroom.Assembly.Listing
import Mailroom.Proofs.Generation
import Mathlib.Data.List.Induction

/-!
# One assembler for many jobs

An assembler can be used again.  It sets its symbols, its slots and its orders one after the
other, and a program may be refused in between, so parts of two programs could come together
in it.  They do not: an assembler is always left with the build of one job alone, which is
the last one that could be read, and a text that cannot be read changes nothing.

Main definitions:

- `Job` is what an assembler is given, and `lastRead?` finds the last job that can be read.
- `Assembler.afterAll` is an assembler after some jobs.
- `Build.replace` sets the parts of a build one after the other.
- `ListingRow.Shows` says that a row shows a word and the instruction that it encodes.

Main results:

- Theorem `Assembler.afterAll_eq_elim`: all jobs but the last one that can be read are
  forgotten.
- Theorem `Build.replace_eq`: what a build held before it is replaced does not matter.
- Theorem `Assembler.shows_of_rows_generate`: each row shows its word.
- Theorem `Assembler.afterAll_keeps_last` joins them.
-/

namespace Mailroom

/-! ## Jobs -/

/-- What an assembler is given: a named text, or tokens.  The tokens are a finished list, so
handing them over cannot fail halfway. -/
inductive Job
  | assemble (file source : String)
  | generate (tokens : List Token)
  deriving DecidableEq, Repr

/-- The tokens of a job, or why its text cannot be read. -/
def Job.read : Job → Except Refusal (List Token)
  | .assemble file source => (Reading.ofSource file 1 source).toExcept
  | .generate tokens => .ok tokens

/-- Whether a job can be read. -/
def Job.isRead (job : Job) : Bool :=
  match job.read with
  | .ok _ => true
  | .error _ => false

/-- The last of some jobs that can be read. -/
def lastRead? (jobs : List Job) : Option Job :=
  (jobs.filter Job.isRead).getLast?

/-- A later job is the last one, if it can be read. -/
theorem lastRead?_concat_of_ok {job : Job} {tokens : List Token} (h : job.read = .ok tokens)
    (jobs : List Job) : lastRead? (jobs ++ [job]) = some job := by
  simp [lastRead?, List.filter_append, Job.isRead, h]

/-- A later job that cannot be read does not count. -/
theorem lastRead?_concat_of_error {job : Job} {e : Refusal} (h : job.read = .error e)
    (jobs : List Job) : lastRead? (jobs ++ [job]) = lastRead? jobs := by
  simp [lastRead?, List.filter_append, Job.isRead, h]

/-- A last job that can be read has tokens. -/
theorem exists_read_of_lastRead? {jobs : List Job} {job : Job} (h : lastRead? jobs = some job) :
    ∃ tokens, job.read = .ok tokens := by
  have hread : job.isRead = true := (List.mem_filter.mp (List.mem_of_getLast? h)).2
  unfold Job.isRead at hread
  split at hread
  next tokens htokens => exact ⟨tokens, htokens⟩
  next => contradiction

namespace Assembler

/-- Do a job. -/
def serve (a : Assembler) : Job → Assembler × Journal Refusal (List Int)
  | .assemble file source => a.assemble file source
  | .generate tokens => a.generate tokens

/-- The assembler after some jobs, of which any may be refused. -/
def afterAll (a : Assembler) (jobs : List Job) : Assembler :=
  jobs.foldl (fun a job => (a.serve job).1) a

/-- The last job is done after the others. -/
theorem afterAll_concat (a : Assembler) (jobs : List Job) (job : Job) :
    a.afterAll (jobs ++ [job]) = ((a.afterAll jobs).serve job).1 := by
  simp [afterAll]

/-- A text that cannot be read leaves the assembler as it is. -/
theorem serve_of_error {job : Job} {e : Refusal} (h : job.read = .error e) (a : Assembler) :
    a.serve job = (a, ⟨[], .error e⟩) := by
  cases job with
  | assemble file source =>
    rw [Job.read] at h
    simp only [serve, Assembler.assemble, h]
  | generate tokens => contradiction

/-- A job that can be read is built from its tokens. -/
theorem serve_of_ok {job : Job} {tokens : List Token} (h : job.read = .ok tokens)
    (a : Assembler) :
    (a.serve job).1 = (a.generate tokens).1 ∧
      (a.serve job).2.outcome = (a.generate tokens).2.outcome := by
  cases job with
  | assemble file source =>
    rw [Job.read] at h
    simp only [serve, Assembler.assemble, h, and_self]
  | generate given =>
    obtain rfl := Except.ok.inj h
    exact ⟨rfl, rfl⟩

/-- A build does not depend on the one before it. -/
theorem generate_eq_new (a : Assembler) (tokens : List Token) :
    a.generate tokens = (new a.strict).generate tokens :=
  rfl

/-- A job leaves the strictness alone. -/
theorem serve_strict (a : Assembler) (job : Job) : (a.serve job).1.strict = a.strict := by
  cases hread : job.read with
  | error e => rw [serve_of_error hread]
  | ok tokens => rw [(serve_of_ok hread a).1, generate]

/-- Jobs leave the strictness alone. -/
theorem afterAll_strict (a : Assembler) (jobs : List Job) :
    (a.afterAll jobs).strict = a.strict := by
  induction jobs using List.reverseRecOn with
  | nil => rfl
  | append_singleton jobs job ih => rw [afterAll_concat, serve_strict, ih]

/-- After some jobs an assembler is left with what the last one that can be read makes of a
new assembler.  If none can be read, it is left as it was. -/
theorem afterAll_eq_elim (a : Assembler) (jobs : List Job) :
    a.afterAll jobs = (lastRead? jobs).elim a fun job => ((new a.strict).serve job).1 := by
  induction jobs using List.reverseRecOn with
  | nil => rfl
  | append_singleton jobs job ih =>
    rw [afterAll_concat]
    cases hread : job.read with
    | error e => rw [serve_of_error hread, lastRead?_concat_of_error hread, ih]
    | ok tokens =>
      rw [lastRead?_concat_of_ok hread, Option.elim_some, (serve_of_ok hread _).1,
        (serve_of_ok hread _).1, generate_eq_new, afterAll_strict]

end Assembler

/-! ## Builds in place -/

/-- Replace a build part by part.  First the symbols and the orders are dropped; then the
slots are set, the symbols, and the orders.  A refusal leaves what has been set up to it. -/
def Build.replace (b : Build) (strict : Bool) (tokens : List Token) :
    Build × Except Refusal Unit :=
  let b := { b with symbols := .empty }
  let b := { b with orders := [] }
  let b := { b with slots := Slot.ofTokens tokens }
  match (symbolsOf strict b.slots).outcome with
  | .error d => (b, .error (.report d))
  | .ok symbols =>
    let b := { b with symbols := symbols }
    match ordersOf b.symbols b.slots with
    | .error e => (b, .error e)
    | .ok orders => ({ b with orders := orders }, .ok ())

/-- A build that is replaced part by part is the build from the tokens, whatever was built
before. -/
theorem Build.replace_eq (b : Build) (strict : Bool) (tokens : List Token) :
    b.replace strict tokens = ((ofTokens strict tokens).1, (ofTokens strict tokens).2.outcome) := by
  unfold replace ofTokens
  cases hsymbols : (symbolsOf strict (Slot.ofTokens tokens)).outcome with
  | error d => simp only [hsymbols]
  | ok symbols =>
    simp only [hsymbols]
    cases ordersOf symbols (Slot.ofTokens tokens) <;> rfl

/-- Do a job on the build that is there.  A job is read before anything is changed. -/
def Assembler.serveInPlace (a : Assembler) (job : Job) :
    Assembler × Except Refusal (List Int) :=
  match job.read with
  | .error e => (a, .error e)
  | .ok tokens =>
    let (build, result) := a.build.replace a.strict tokens
    ({ a with build := build }, result.map fun _ => build.words)

/-- Jobs can be done in place. -/
theorem Assembler.serveInPlace_eq (a : Assembler) (job : Job) :
    a.serveInPlace job = ((a.serve job).1, (a.serve job).2.outcome) := by
  unfold serveInPlace
  cases hread : job.read with
  | error e => rw [serve_of_error hread]
  | ok tokens =>
    obtain ⟨hleft, hanswer⟩ := serve_of_ok hread a
    rw [hleft, hanswer]
    simp only [Build.replace_eq, generate]

/-! ## Rows and remains -/

/-- A row shows the word with number `i`: the mailbox of the word, the word, and the line,
the text and the label of the instruction that the word encodes. -/
structure ListingRow.Shows (row : ListingRow) (tokens : List Token) (i : Nat) (value : Int) :
    Prop where
  address : row.address = i
  word : row.word = value
  encodes : ∃ instruction, (instructionsOf tokens)[i]? = some instruction ∧
    ReadsBack tokens instruction value ∧ row.line = instruction.location.line ∧
    row.source = instruction.value.text
  label : ∀ x, row.label = some x ↔ StandsOn tokens x i

/-- What is left of a program that was refused: neither words nor rows.  A duplicate label
leaves no symbols, and an instruction that cannot be encoded leaves all symbols of its
program. -/
structure Build.LeftAfter (b : Build) (strict : Bool) (tokens : List Token) (e : Refusal) :
    Prop where
  words : b.words = []
  rows : b.rows = []
  symbols :
    (strict = true ∧ b.symbols.indices = [] ∧
      ∃ earlier m label n, FirstDuplicate tokens earlier m label n ∧
        e = .report (duplicate label ⟨m, earlier.location⟩)) ∨
    ((strict = true → DistinctLabels tokens) ∧ IsSymbolList tokens b.symbols.indices ∧
      ∃ i ∈ instructionsOf tokens, Refuses tokens (b.symbols.indices.map (·.1)) i e)

namespace Build

/-- There are as many rows as there are slots with orders. -/
theorem length_rowsFrom (index : Nat) (slots : List Slot) (orders : List Order) :
    (rowsFrom index slots orders).length = min slots.length orders.length := by
  induction slots generalizing index orders with
  | nil => simp [rowsFrom]
  | cons slot slots ih =>
    cases orders with
    | nil => simp [rowsFrom]
    | cons order orders => simp [rowsFrom, ih, Nat.succ_min_succ]

/-- A row belongs to the slot and the order with its number. -/
theorem getElem?_rowsFrom_eq_some {index i : Nat} {slots : List Slot} {orders : List Order}
    {r : ListingRow} (h : (rowsFrom index slots orders)[i]? = some r) :
    ∃ slot order, slots[i]? = some slot ∧ orders[i]? = some order ∧
      r = row (index + i) slot order := by
  induction slots generalizing index i orders with
  | nil => simp [rowsFrom] at h
  | cons slot slots ih =>
    cases orders with
    | nil => simp [rowsFrom] at h
    | cons order orders =>
      cases i with
      | zero =>
        obtain rfl : row index slot order = r := by simpa [rowsFrom] using h
        exact ⟨slot, order, rfl, rfl, rfl⟩
      | succ i =>
        rw [rowsFrom, List.getElem?_cons_succ] at h
        obtain ⟨s, o, hs, ho, rfl⟩ := ih h
        refine ⟨s, o, hs, ho, ?_⟩
        rw [Nat.add_right_comm, Nat.add_assoc]

/-- Without words there are no rows. -/
theorem rows_eq_nil {b : Build} (h : b.words = []) : b.rows = [] := by
  have horders : b.orders = [] := List.map_eq_nil_iff.mp h
  rw [← List.length_eq_zero_iff, rows, length_rowsFrom, horders, List.length_nil, Nat.min_zero]

end Build

namespace Assembler

variable {tokens : List Token}

/-- A build has the slots of its program, whatever comes of it.  It has the words that are
the answer, and none after a refusal. -/
theorem build_generate (a : Assembler) (tokens : List Token) :
    (a.generate tokens).1.build.slots = Slot.ofTokens tokens ∧
      (a.generate tokens).1.build.words = (a.generate tokens).2.outcome.toOption.getD [] := by
  simp only [generate, Build.ofTokens]
  split
  next => exact ⟨rfl, rfl⟩
  next symbols _ => cases ordersOf symbols (Slot.ofTokens tokens) <;> exact ⟨rfl, rfl⟩

/-- A refused program has no words. -/
theorem words_of_refused {a : Assembler} {e : Refusal}
    (h : (a.generate tokens).2.outcome = .error e) :
    (a.generate tokens).1.build.words = [] := by
  rw [(build_generate a tokens).2, h]
  rfl

/-- A program that is not refused has the words that are the answer. -/
theorem words_of_ok {a : Assembler} {words : List Int}
    (h : (a.generate tokens).2.outcome = .ok words) :
    (a.generate tokens).1.build.words = words := by
  rw [(build_generate a tokens).2, h]
  rfl

/-- There are as many rows as words. -/
theorem length_rows_generate (a : Assembler) (tokens : List Token) :
    (a.generate tokens).1.build.rows.length = (a.generate tokens).1.build.words.length := by
  have hrows : (a.generate tokens).1.build.rows.length =
      min (instructionsOf tokens).length (a.generate tokens).1.build.words.length := by
    rw [Build.rows, Build.length_rowsFrom, (build_generate a tokens).1,
      ← Slot.map_instruction_ofTokens, List.length_map, Build.words, List.length_map]
  rw [hrows]
  cases houtcome : (a.generate tokens).2.outcome with
  | error e => rw [words_of_refused houtcome, List.length_nil, Nat.min_zero]
  | ok words =>
    rw [words_of_ok houtcome, (readsBack_of_generate houtcome).length_eq, Nat.min_self]

/-- Words are read back as the instructions with their numbers. -/
theorem readsBack_of_words_generate {a : Assembler} {i : Nat} {word : Int}
    {instruction : Located Instruction}
    (hword : (a.generate tokens).1.build.words[i]? = some word)
    (hinstruction : (instructionsOf tokens)[i]? = some instruction) :
    ReadsBack tokens instruction word := by
  cases houtcome : (a.generate tokens).2.outcome with
  | error e => simp [words_of_refused houtcome] at hword
  | ok words =>
    rw [words_of_ok houtcome] at hword
    obtain ⟨hi, rfl⟩ := List.getElem?_eq_some_iff.mp hinstruction
    obtain ⟨hlength, rfl⟩ := List.getElem?_eq_some_iff.mp hword
    exact (readsBack_of_generate houtcome).get hi hlength

/-- Each row of a build shows the word with its number. -/
theorem shows_of_rows_generate {a : Assembler} {i : Nat} {r : ListingRow}
    (h : (a.generate tokens).1.build.rows[i]? = some r) :
    ∃ word, (a.generate tokens).1.build.words[i]? = some word ∧ r.Shows tokens i word := by
  obtain ⟨slot, order, hslot, horder, rfl⟩ := Build.getElem?_rowsFrom_eq_some h
  rw [(build_generate a tokens).1] at hslot
  have hword : (a.generate tokens).1.build.words[i]? = some order.word := by
    rw [Build.words, List.getElem?_map, horder, Option.map_some]
  have hinstruction : (instructionsOf tokens)[i]? = some slot.instruction := by
    rw [← Slot.map_instruction_ofTokens, List.getElem?_map, hslot, Option.map_some]
  have hlabel : ∀ label, slot.label = some label ↔ Heads tokens label i := by
    intro label
    rw [← Slot.labelAt_ofTokens_iff, Slot.labelAt, hslot, Option.bind_some]
  have hread := readsBack_of_words_generate hword hinstruction
  refine ⟨order.word, hword, Nat.zero_add i, rfl,
    ⟨slot.instruction, hinstruction, hread, rfl, rfl⟩, fun x => ?_⟩
  simp only [Build.row, Option.map_eq_some_iff, hlabel, StandsOn]

/-- A refused program leaves its symbols, unless a label is duplicate, and nothing else. -/
theorem leftAfter_of_refused {a : Assembler} {e : Refusal}
    (h : (a.generate tokens).2.outcome = .error e) :
    (a.generate tokens).1.build.LeftAfter a.strict tokens e := by
  have hwords := words_of_refused h
  refine ⟨hwords, Build.rows_eq_nil hwords, ?_⟩
  have hgenerates := generates_generate a tokens
  generalize (a.generate tokens).1.build.symbols.indices = symbols at hgenerates
  rw [h] at hgenerates
  cases hgenerates with
  | refused hstrict hsymbols hsplit _ hrefuses =>
    exact .inr ⟨hstrict, hsymbols, _, by simp [hsplit], hrefuses⟩
  | duplicate hstrict hfirst => exact .inl ⟨hstrict, rfl, _, _, _, _, hfirst, rfl⟩

/-- After some jobs an assembler is as it was, or it is left with the build of the last one
that can be read. -/
theorem afterAll_cases (a : Assembler) (jobs : List Job) :
    a.afterAll jobs = a ∨ ∃ job tokens, lastRead? jobs = some job ∧ job.read = .ok tokens ∧
      a.afterAll jobs = (a.generate tokens).1 := by
  rw [afterAll_eq_elim]
  cases hlast : lastRead? jobs with
  | none => exact .inl rfl
  | some job =>
    obtain ⟨tokens, hread⟩ := exists_read_of_lastRead? hlast
    exact .inr ⟨job, tokens, rfl, hread, (serve_of_ok hread _).1⟩

/-- After any jobs a new assembler is left with what the last one that can be read makes of a
new assembler; if none can be read, it is still new.  A job that cannot be read changes
nothing, and a refused one leaves neither words nor rows.  There is one row for each word, and
it shows the word and the instruction of the last job that the word encodes.  The parts of the
build can be set one after the other, whatever was built before. -/
theorem afterAll_keeps_last (strict : Bool) (jobs : List Job) :
    ((new strict).afterAll jobs =
      (lastRead? jobs).elim (new strict) fun job => ((new strict).serve job).1) ∧
    (∀ (a : Assembler) (job : Job) (e : Refusal), job.read = .error e →
      a.serve job = (a, ⟨[], .error e⟩)) ∧
    (∀ (a : Assembler) (job : Job) (tokens : List Token) (e : Refusal),
      job.read = .ok tokens → (a.serve job).2.outcome = .error e →
      (a.serve job).1.build.LeftAfter a.strict tokens e) ∧
    ((new strict).afterAll jobs).build.rows.length =
      ((new strict).afterAll jobs).build.words.length ∧
    (∀ (i : Nat) (row : ListingRow), ((new strict).afterAll jobs).build.rows[i]? = some row →
      ∃ job tokens word, lastRead? jobs = some job ∧ job.read = .ok tokens ∧
        ((new strict).afterAll jobs).build.words[i]? = some word ∧ row.Shows tokens i word) ∧
    ∀ (a : Assembler) (job : Job),
      a.serveInPlace job = ((a.serve job).1, (a.serve job).2.outcome) := by
  refine ⟨afterAll_eq_elim _ jobs, fun a job e h => serve_of_error h a, ?_, ?_, ?_,
    serveInPlace_eq⟩
  · intro a job tokens e hread hrefused
    obtain ⟨hleft, hanswer⟩ := serve_of_ok hread a
    rw [hleft]
    exact leftAfter_of_refused (hanswer.symm.trans hrefused)
  · rcases afterAll_cases (new strict) jobs with hnew | ⟨job, tokens, -, -, hbuilt⟩
    · rw [hnew]
      rfl
    · rw [hbuilt]
      exact length_rows_generate _ tokens
  · intro i row hrow
    rcases afterAll_cases (new strict) jobs with hnew | ⟨job, tokens, hlast, hread, hbuilt⟩
    · rw [hnew, show (new strict).build.rows = [] from rfl] at hrow
      contradiction
    · rw [hbuilt] at hrow ⊢
      obtain ⟨word, hword, hshows⟩ := shows_of_rows_generate hrow
      exact ⟨job, tokens, word, hlast, hread, hword, hshows⟩

/-- A program with a label on two instructions. -/
def repeatedTokens : List Token :=
  [.label ⟨"a", ⟨"repeated", 1, 1⟩, ".a"⟩,
    .instruction ⟨.plain .read none, ⟨"repeated", 2, 1⟩, "read"⟩,
    .label ⟨"a", ⟨"repeated", 3, 1⟩, ".a"⟩,
    .instruction ⟨.plain .stop none, ⟨"repeated", 4, 1⟩, "stop"⟩]

/-- A program that is refused for its labels, one that is not refused, and a text that cannot
be read. -/
def mixedJobs : List Job :=
  [.generate repeatedTokens, .assemble "loop" ".a\nread\nb a", .assemble "unread" "add x"]

/-- The program that was not refused is the one that is kept, and nothing is kept of the one
that was refused before. -/
theorem afterAll_keeps_last_mixed :
    (new true).afterAll mixedJobs = ((new true).assemble "loop" ".a\nread\nb a").1 ∧
    ((new true).afterAll mixedJobs).build.rows =
      [⟨0, 901, 2, "read", some "a"⟩, ⟨1, 600, 3, "b a", none⟩] ∧
    (∃ tokens, (Job.assemble "loop" ".a\nread\nb a").read = .ok tokens ∧
      (⟨1, 600, 3, "b a", none⟩ : ListingRow).Shows tokens 1 600) ∧
    ∃ e, ((new true).generate repeatedTokens).2.outcome = .error e ∧
      ((new true).generate repeatedTokens).1.build.LeftAfter true repeatedTokens e := by
  have hlast : lastRead? mixedJobs = some (.assemble "loop" ".a\nread\nb a") := by
    decide +kernel
  have hrows : ((new true).afterAll mixedJobs).build.rows =
      [⟨0, 901, 2, "read", some "a"⟩, ⟨1, 600, 3, "b a", none⟩] := by
    decide +kernel
  have hwords : ((new true).afterAll mixedJobs).build.words = [901, 600] := by
    decide +kernel
  obtain ⟨hkeeps, -, hleft, -, hshows, -⟩ := afterAll_keeps_last true mixedJobs
  rw [hlast] at hkeeps hshows
  refine ⟨hkeeps, hrows, ?_, _, rfl, hleft (new true) (.generate repeatedTokens) _ _ rfl rfl⟩
  obtain ⟨job, tokens, word, hjob, hread, hword, hrow⟩ := hshows 1 _ (by rw [hrows]; rfl)
  obtain rfl := Option.some.inj hjob
  rw [hwords] at hword
  obtain rfl := Option.some.inj hword
  exact ⟨tokens, hread, hrow⟩

end Assembler

end Mailroom
