import Mailroom.Command.Execute
import Mailroom.Proofs.BulkWrites
import Mailroom.Proofs.OutBasket
import Mailroom.Proofs.SourceForm
import Mailroom.Proofs.Tasks

/-!
# Reports of the executing command

The executing command shows what its machine printed, whatever the end of the run, and its exit
code says how the run ended.

Main definitions:

- `ExecuteRequest.machine` is the machine that a request asks for.
- `ExecuteRequest.Concludes` is what the steps of this machine call for: the values that are
  printed and an exit code.

Main results:

- Theorems `ExecuteRequest.report_of_error` and `ExecuteRequest.report_of_run`: the report of a
  request whose image is refused, and of one that is run.
- Theorem `ExecuteRequest.report_concludes`: reports tell what the steps call for.
-/

namespace Mailroom

open Text

/-- The exit code for the end of a run. -/
def Emulator.Ending.exitCode : Emulator.Ending → Nat
  | halted => 0
  | fault _ => 1
  | limitReached => 4

/-- Reading a load image says nothing. -/
theorem says_imageWords (path : String) (bytes : Bytes) :
    Task.Says (imageWords path bytes) (.ok (Image.decode bytes)) [] := by
  have hread : Task.Says (do
      Task.notify [.imageRead (Image.decode bytes).length path]
      return Image.decode bytes) (.ok (Image.decode bytes)) [] :=
    (Task.says_tell _).bind (Task.says_pure _)
  unfold imageWords
  exact .after_tell_if hread _

namespace ExecuteRequest

variable {r : ExecuteRequest} {e : Emulator} {f : Fault} {result : Emulator.RunResult}
  {patience : Nat}

/-- The machine that a request asks for, or the fault of loading it. -/
def machine (r : ExecuteRequest) : Except Fault Emulator :=
  (Emulator.new (r.configuration (Image.decode r.content))).outcome

/-- One line for each of some values. -/
def outputText (values : List Int) : String :=
  String.join (values.map fun value => "OUTPUT: " ++ decimal value ++ "\n")

/-- What a request comes to: the values that its machine prints, and an exit code.  A run makes
steps up to the first that stops or fails, and up to the limit. -/
inductive Concludes (r : ExecuteRequest) : List Int → Nat → Prop
  | notLoaded {f : Fault} (hmachine : r.machine = .error f) : Concludes r [] 1
  | ran {e : Emulator} {tried : Nat} {result : Emulator.RunResult} (hmachine : r.machine = .ok e)
      (hends : e.Ends (r.maxSteps.map Int.toNat) tried result) :
      Concludes r ((e.path tried).filterMap Emulator.prints?) result.ending.exitCode

/-! ## The machine of a request -/

/-- The machine of a request has its counter at the entry, no more than the given values and one
0 in its in-basket, and it has neither made steps nor printed anything. -/
theorem machine_started (h : r.machine = .ok e) :
    e.machine.counter = r.entry ∧
      e.machine.pending = (if r.inputs = [] then [] else r.inputs ++ [0]) ∧
      e.maxSteps = r.maxSteps ∧ e.steps = 0 ∧ e.outputs = #[] := by
  obtain ⟨memory, rfl⟩ := Emulator.exists_started h
  refine ⟨rfl, ?_, rfl, rfl, rfl⟩
  by_cases hinputs : r.inputs = [] <;> simp [Emulator.started, configuration, hinputs]

/-- The machine of a request has the words of the image in its mailboxes from the offset on, and 0
around them. -/
theorem mailboxes_started (h : r.machine = .ok e) (a : Address) :
    (e.machine.memory.get a).val =
      if (a.val : Int) < r.offset then 0
      else ((Image.decode r.content).map (·.val)).getD (a.val - r.offset).toNat 0 :=
  Emulator.mailboxes_of_new h a

/-! ## Parts of the command -/

/-- A refused image stops the command. -/
theorem says_loaded_of_error (h : r.machine = .error f) : r.loaded.Says (.error f.stop) [] := by
  have hnew := Task.says_ofJournal Fault.stop
    (Emulator.new (r.configuration (Image.decode r.content)))
  rw [show (Emulator.new _).outcome = .error f from h] at hnew
  unfold loaded
  exact (says_imageWords r.image r.content).bind (hnew.bind_of_error _)

/-- An image is loaded in silence. -/
theorem says_loaded_of_ok (h : r.machine = .ok e) : r.loaded.Says (.ok e) [] := by
  have hnew := Task.says_ofJournal Fault.stop
    (Emulator.new (r.configuration (Image.decode r.content)))
  rw [show (Emulator.new _).outcome = .ok e from h] at hnew
  unfold loaded
  exact (says_imageWords r.image r.content).bind (hnew.bind (.after_tell_if (Task.says_pure e) _))

/-- At the end of a run the printed values are said, and the exit code tells the end. -/
theorem says_finish (r : ExecuteRequest) (e : Emulator) (result : Emulator.RunResult) :
    ∃ exit, (r.finish e result).Says exit (result.emulator.outputs.toList.map outputLine) ∧
      (Task.exitOf exit).code = result.ending.exitCode := by
  unfold finish
  cases hending : result.ending with
  | fault f =>
    have hstop : Task.Says (throw f.stop : Task ExitStatus) _ _ := Task.says_throw f.stop
    exact ⟨_, .after_say (.after_tell_if hstop _) _, rfl⟩
  | limitReached =>
    let stop : Stop := ⟨.stepLimit, "Error: no stop after " ++ decimal result.steps ++ " steps"⟩
    have hstop : Task.Says (throw stop : Task ExitStatus) _ _ := Task.says_throw stop
    exact ⟨_, .after_say (.after_tell_if hstop _) _, rfl⟩
  | halted =>
    have hpure := Task.says_pure ExitStatus.success
    exact ⟨_, .after_say (.after_tell_if (.after_tell_if hpure _) _) _, rfl⟩

/-- There is no escape character in the line for a value. -/
theorem withoutSequences_outputLine (value : Int) :
    withoutSequences (outputLine value) = outputLine value := by
  apply withoutSequences_of_no_escape
  intro c hc
  rw [outputLine, String.toList_append] at hc
  rcases List.mem_append.mp hc with hc | hc
  · have htag : "OUTPUT: ".toList.all (· ≠ escapeCharacter) = true := by decide
    exact of_decide_eq_true (List.all_eq_true.mp htag c hc)
  · exact forall_numeric (P := fun c => c ≠ escapeCharacter) (by decide +kernel) (mem_decimal hc)

/-- The lines for values are shown as they are. -/
theorem stdout_of_out {report : Report} {values : List Int}
    (h : report.out = values.map outputLine) : report.stdout = outputText values := by
  rw [Report.stdout, h, List.map_map, outputText]
  simp only [Function.comp_def, withoutSequences_outputLine]
  rfl

/-! ## Reports -/

/-- The report of a request tells some values and an exit code, and the files are as they were. -/
structure Tells (report : Report) (values : List Int) (code : Nat) (ws : Workspace) : Prop where
  stdout : report.stdout = outputText values
  code : report.exit.code = code
  workspace : report.workspace = ws

/-- There is one report on a request whose image is refused. -/
theorem report_of_error (h : r.machine = .error f) (patience : Nat) (ws : Workspace) :
    ∃ report, r.report? patience ws = some report ∧ Tells report [] 1 ws := by
  obtain ⟨t, hrun, hout, hworkspace⟩ := says_loaded_of_error h ⟨[], [], ws⟩
  refine ⟨Task.conclude (.error f.stop, t), ?_, stdout_of_out hout, rfl, hworkspace⟩
  rw [report?, hrun]

/-- There is a report on a request whose machine is loaded when the run has ended. -/
theorem report?_of_ok (h : r.machine = .ok e) (ws : Workspace) :
    ∃ t : Traces, t.out = [] ∧ t.workspace = ws ∧ ∀ patience, r.report? patience ws =
      (e.run patience none).map fun result => Task.conclude ((r.finish e result).run t) := by
  obtain ⟨t, hloaded, hout, hworkspace⟩ := says_loaded_of_ok h ⟨[], [], ws⟩
  exact ⟨t, hout, hworkspace, fun patience => by rw [report?, hloaded]⟩

/-- The report on a run tells what was printed and how the run ended. -/
theorem report_of_run (h : r.machine = .ok e) (hrun : e.run patience none = some result)
    (ws : Workspace) :
    ∃ report, r.report? patience ws = some report ∧
      Tells report result.emulator.outputs.toList result.ending.exitCode ws := by
  obtain ⟨t, hout, hworkspace, hreport⟩ := report?_of_ok h ws
  obtain ⟨exit, hfinish, hcode⟩ := says_finish r e result
  obtain ⟨hexit, hsaid, hleft⟩ := hfinish.conclude t
  refine ⟨_, by rw [hreport, hrun, Option.map_some], stdout_of_out ?_, ?_, ?_⟩
  · rw [hsaid, hout, List.nil_append]
  · rw [hexit, hcode]
  · rw [hleft, hworkspace]

/-- A run has printed what its steps print. -/
theorem outputs_of_ends (h : r.machine = .ok e) {limit : Option Nat} {tried : Nat}
    (hends : e.Ends limit tried result) :
    result.emulator.outputs.toList = (e.path tried).filterMap Emulator.prints? := by
  obtain ⟨-, -, -, -, hempty⟩ := machine_started h
  rw [hends.emulator_eq, (e.prints_after tried).outputs, hempty]
  rfl

/-- A report tells what the steps of the machine call for. -/
theorem concludes_of_report {ws : Workspace} {report : Report}
    (h : r.report? patience ws = some report) :
    ∃ values code, r.Concludes values code ∧ Tells report values code ws := by
  cases hmachine : r.machine with
  | error f =>
    obtain ⟨report', hreport, htells⟩ := report_of_error hmachine patience ws
    obtain rfl := Option.some.inj (h.symm.trans hreport)
    exact ⟨_, _, .notLoaded hmachine, htells⟩
  | ok e =>
    cases hrun : e.run patience none with
    | none =>
      obtain ⟨t, -, -, hreport⟩ := report?_of_ok hmachine ws
      rw [hreport, hrun] at h
      contradiction
    | some result =>
      obtain ⟨report', hreport, htells⟩ := report_of_run hmachine hrun ws
      obtain rfl := Option.some.inj (h.symm.trans hreport)
      obtain ⟨tried, hends⟩ := Emulator.run_eq_some_iff_ends.mp ⟨patience, hrun⟩
      rw [Option.none_or, (machine_started hmachine).2.2.1] at hends
      rw [outputs_of_ends hmachine hends] at htells
      exact ⟨_, _, .ran hmachine hends, htells⟩

/-- What the steps of the machine call for is told by a report. -/
theorem Concludes.exists_report {values : List Int} {code : Nat} (h : r.Concludes values code)
    (ws : Workspace) :
    ∃ patience report, r.report? patience ws = some report ∧ Tells report values code ws := by
  cases h with
  | notLoaded hmachine => exact ⟨0, report_of_error hmachine 0 ws⟩
  | @ran e tried result hmachine hends =>
    rw [← outputs_of_ends hmachine hends]
    rw [← (machine_started hmachine).2.2.1, ← Option.none_or (o := e.maxSteps)] at hends
    obtain ⟨patience, hrun⟩ := Emulator.run_eq_some_iff_ends.mpr ⟨tried, hends⟩
    exact ⟨patience, report_of_run hmachine hrun ws⟩

/-- The steps of a machine call for one conclusion. -/
theorem Concludes.unique {values values' : List Int} {code code' : Nat}
    (h : r.Concludes values code) (h' : r.Concludes values' code') :
    values = values' ∧ code = code' := by
  cases h with
  | notLoaded hmachine =>
    cases h' with
    | notLoaded _ => exact ⟨rfl, rfl⟩
    | ran hmachine' _ => exact absurd (hmachine.symm.trans hmachine') (by simp)
  | ran hmachine hends =>
    cases h' with
    | notLoaded hmachine' => exact absurd (hmachine.symm.trans hmachine') (by simp)
    | ran hmachine' hends' =>
      obtain rfl := Except.ok.inj (hmachine.symm.trans hmachine')
      obtain ⟨rfl, rfl⟩ := hends.unique hends'
      exact ⟨rfl, rfl⟩

/-- An exit code is that of the end of a run. -/
theorem Concludes.code_eq {values : List Int} {code : Nat} (h : r.Concludes values code) :
    code = 0 ∨ code = 1 ∨ code = 4 := by
  cases h with
  | notLoaded _ => exact .inr (.inl rfl)
  | @ran _ _ result _ _ => cases result.ending <;> simp [Emulator.Ending.exitCode]

/-- With a limit there is always a report. -/
theorem exists_report_of_limit {limit : Int} (h : r.maxSteps = some limit) (patience : Nat)
    (ws : Workspace) : ∃ report, r.report? patience ws = some report := by
  cases hmachine : r.machine with
  | error f =>
    obtain ⟨report, hreport, -⟩ := report_of_error hmachine patience ws
    exact ⟨report, hreport⟩
  | ok e =>
    have hlimit : (none : Option Int).or e.maxSteps = some limit := by
      rw [Option.none_or, (machine_started hmachine).2.2.1, h]
    obtain ⟨report, hreport, -⟩ :=
      report_of_run hmachine (Emulator.run_of_limit hlimit patience) ws
    exact ⟨report, hreport⟩

/-- The executing command reports what its machine does.  The machine has the words of the image in
its mailboxes from the offset on and 0 around them, its counter at the entry, and in its in-basket
the given values and one 0, or nothing if there are no values.  Its steps call for one conclusion at
most, and there is a report exactly when they call for one: it has a line for every value that was
printed, also before a failure, and the exit code is 0 after a stop, 1 after a fault and 4 at the
limit, and never 2 or 3.  With a limit there is always a report. -/
theorem report_concludes (r : ExecuteRequest) (ws : Workspace) :
    (∀ e, r.machine = .ok e →
      (∀ a : Address, (e.machine.memory.get a).val =
        if (a.val : Int) < r.offset then 0
        else ((Image.decode r.content).map (·.val)).getD (a.val - r.offset).toNat 0) ∧
      e.machine.counter = r.entry ∧
      e.machine.pending = (if r.inputs = [] then [] else r.inputs ++ [0]) ∧
      e.maxSteps = r.maxSteps ∧ e.steps = 0 ∧ e.outputs = #[]) ∧
    (∀ patience report, r.report? patience ws = some report →
      ∃ values code, r.Concludes values code ∧ Tells report values code ws) ∧
    (∀ values code, r.Concludes values code →
      (∃ patience report, r.report? patience ws = some report ∧ Tells report values code ws) ∧
      code ≠ 2 ∧ code ≠ 3 ∧
      ∀ values' code', r.Concludes values' code' → values = values' ∧ code = code') ∧
    ∀ limit, r.maxSteps = some limit → ∀ patience, ∃ report,
      r.report? patience ws = some report := by
  refine ⟨fun e h => ⟨mailboxes_started h, machine_started h⟩,
    fun patience report => concludes_of_report, ?_,
    fun limit h patience => exists_report_of_limit h patience ws⟩
  intro values code h
  have hcode := h.code_eq
  exact ⟨h.exists_report ws, by omega, by omega, fun values' code' => h.unique⟩

/-- A request to read a value and print it, from mailbox 2 on.  The last word of the image stands
for no order, and one byte is left over. -/
def failing : ExecuteRequest :=
  ⟨"a.bin", [0x85, 0x03, 0x86, 0x03, 0xE7, 0x03, 0x00], [-7], 2, 2, some 10, false⟩

/-- What was printed before the failure is reported. -/
theorem report_concludes_failing :
    let ws : Workspace := ⟨[], [], .empty⟩
    ∃ e values report, failing.machine = .ok e ∧ (e.machine.memory.get 3).val = 902 ∧
      e.machine.pending = [-7, 0] ∧ failing.maxSteps = some 10 ∧
      failing.report? 0 ws = some report ∧ Tells report values 1 ws ∧
      report.stdout = "OUTPUT: -7\n" ∧ failing.Concludes values 1 ∧
      ∀ values' code', failing.Concludes values' code' → values = values' ∧ 1 = code' := by
  intro ws
  obtain ⟨hstarted, htells, hconcludes, hlimit⟩ := report_concludes failing ws
  have hloaded : failing.machine.toOption.isSome = true := by decide +kernel
  obtain ⟨e, hmachine⟩ : ∃ e, failing.machine = .ok e := by
    cases hmachine : failing.machine with
    | ok e => exact ⟨e, rfl⟩
    | error f => rw [hmachine] at hloaded; contradiction
  obtain ⟨hmailboxes, -, hpending, -⟩ := hstarted e hmachine
  obtain ⟨report, hreport⟩ := hlimit 10 rfl 0
  have hseen : (failing.report? 0 ws).map (fun report => (report.stdout, report.exit.code)) =
      some ("OUTPUT: -7\n", 1) := by
    decide +kernel
  rw [hreport, Option.map_some, Option.some.injEq, Prod.mk.injEq] at hseen
  obtain ⟨values, code, hcode, htold⟩ := htells 0 report hreport
  obtain rfl : code = 1 := htold.code.symm.trans hseen.2
  refine ⟨e, values, report, hmachine, ?_, hpending, rfl, hreport, htold, hseen.1, hcode, ?_⟩
  · rw [hmailboxes 3]
    decide +kernel
  · exact (hconcludes values 1 hcode).2.2.2

end ExecuteRequest

end Mailroom
