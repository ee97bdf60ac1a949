import Mailroom.Command.Report

/-!
# What tasks do

The lines that a task shows do not matter to what it does: its result, the files that it leaves
and the warnings that it gives.  What the parts of a task do adds up to what the whole does, and
so does what they show on the output channel.

Main definitions:

- `Task.Does` says what a task does in a workspace.
- `Task.Says` says what a task writes to the output channel.

Main results:

- Theorems `Task.Does.bind` and `Task.Says.bind`: one task after another.
- Theorem `Task.does_writeFile`: writing a file changes the workspace as a write does.
- Theorem `Task.Does.report`: the report of a task tells what it does.
-/

namespace Mailroom

/-- The notice in an entry. -/
def ErrorEntry.notice? : ErrorEntry → Option Notice
  | notice n => some n
  | line _ => none

/-- The warnings that have been given. -/
def Traces.warnings (t : Traces) : List Notice :=
  Mailroom.warnings (t.errors.filterMap ErrorEntry.notice?)

/-- Entries that have been added give their warnings. -/
theorem Traces.warnings_append (t : Traces) (entries : List ErrorEntry) :
    ({ t with errors := t.errors ++ entries } : Traces).warnings =
      t.warnings ++ Mailroom.warnings (entries.filterMap ErrorEntry.notice?) := by
  simp only [warnings, Mailroom.warnings, List.filterMap_append, List.filter_append]

/-- Only the warnings among notices are given as warnings. -/
theorem Traces.warnings_notify (t : Traces) (notices : List Notice) :
    ({ t with errors := t.errors ++ notices.map .notice } : Traces).warnings =
      t.warnings ++ Mailroom.warnings notices := by
  have hnotices : (notices.map ErrorEntry.notice).filterMap ErrorEntry.notice? = notices := by
    rw [List.filterMap_map]
    exact List.filterMap_some
  rw [warnings_append, hnotices]

namespace Task

variable {α β : Type} {before between after : Workspace} {given later : List Notice}

/-- In the workspace `before` a task has a result, leaves the workspace `after` and gives some
warnings. -/
def Does (task : Task α) (before : Workspace) (result : Except Stop α) (after : Workspace)
    (given : List Notice) : Prop :=
  ∀ t : Traces, t.workspace = before →
    ∃ t', task.run t = (result, t') ∧ t'.workspace = after ∧ t'.warnings = t.warnings ++ given

/-! ## Single tasks -/

/-- A value alone does nothing. -/
theorem does_pure (a : α) (ws : Workspace) : Does (pure a : Task α) ws (.ok a) ws [] :=
  fun t ht => ⟨t, rfl, ht, (List.append_nil _).symm⟩

/-- Stopping does nothing else. -/
theorem does_throw (stop : Stop) (ws : Workspace) :
    Does (throw stop : Task α) ws (.error stop) ws [] :=
  fun t ht => ⟨t, rfl, ht, (List.append_nil _).symm⟩

/-- Lines on the output channel change no files. -/
theorem does_say (lines : List String) (ws : Workspace) : Does (say lines) ws (.ok ()) ws [] :=
  fun t ht => ⟨{ t with out := t.out ++ lines }, rfl, ht, (List.append_nil _).symm⟩

/-- Notices give their warnings. -/
theorem does_notify (notices : List Notice) (ws : Workspace) :
    Does (notify notices) ws (.ok ()) ws (warnings notices) :=
  fun t ht => ⟨_, rfl, ht, t.warnings_notify notices⟩

/-! ## One task after another -/

/-- After a result the work goes on with it. -/
theorem run_bind_of_ok {first : Task α} {a : α} {t t' : Traces} (h : first.run t = (.ok a, t'))
    (second : α → Task β) : (first >>= second).run t = (second a).run t' := by
  have hbind : (first >>= second).run t =
      StateT.bind first.run (ExceptT.bindCont second) t := rfl
  rw [hbind, StateT.bind, h]
  rfl

/-- After a stop there is no further work. -/
theorem run_bind_of_error {first : Task α} {stop : Stop} {t t' : Traces}
    (h : first.run t = (.error stop, t')) (second : α → Task β) :
    (first >>= second).run t = (.error stop, t') := by
  have hbind : (first >>= second).run t =
      StateT.bind first.run (ExceptT.bindCont second) t := rfl
  rw [hbind, StateT.bind, h]
  rfl

/-- What two tasks do, one after the other. -/
theorem Does.bind {first : Task α} {second : α → Task β} {a : α} {result : Except Stop β}
    (hfirst : first.Does before (.ok a) between given)
    (hsecond : (second a).Does between result after later) :
    (first >>= second).Does before result after (given ++ later) := by
  intro t ht
  obtain ⟨t', hrun, hworkspace, hgiven⟩ := hfirst t ht
  obtain ⟨t'', hrun', hworkspace', hlater⟩ := hsecond t' hworkspace
  refine ⟨t'', (run_bind_of_ok hrun second).trans hrun', hworkspace', ?_⟩
  rw [hlater, hgiven, List.append_assoc]

/-- What a task does that stops. -/
theorem Does.bind_of_error {first : Task α} {stop : Stop}
    (hfirst : first.Does before (.error stop) after given) (second : α → Task β) :
    (first >>= second).Does before (.error stop) after given := by
  intro t ht
  obtain ⟨t', hrun, hworkspace, hgiven⟩ := hfirst t ht
  exact ⟨t', run_bind_of_error hrun second, hworkspace, hgiven⟩

/-! ## Journals and files -/

/-- A journal gives its warnings, and a refusal stops the task. -/
theorem does_ofJournal {ε : Type} (describe : ε → Stop) (j : Journal ε α) (ws : Workspace) :
    Does (ofJournal describe j) ws (j.outcome.mapError describe) ws (warnings j.notices) := by
  rw [← List.append_nil (warnings j.notices)]
  refine (does_notify j.notices ws).bind ?_
  cases j.outcome with
  | ok a => exact does_pure a ws
  | error e => exact does_throw (describe e) ws

/-- A task that looks at the traces so far goes on with these. -/
theorem run_get_bind (next : Traces → Task α) (t : Traces) :
    (get >>= next : Task α).run t = (next t).run t :=
  rfl

/-- Writing a file changes the workspace as a write does. -/
theorem does_writeFile {path : String} {content : Bytes}
    (h : before.write path content = .ok after) :
    Does (writeFile path content) before (.ok ()) after [] := by
  intro t ht
  rw [writeFile, run_get_bind, ht, h]
  exact ⟨_, rfl, rfl, (List.append_nil _).symm⟩

/-! ## Lines on the output channel -/

/-- A task has a result, writes some lines to the output channel and leaves the files alone. -/
def Says (task : Task α) (result : Except Stop α) (lines : List String) : Prop :=
  ∀ t : Traces, ∃ t', task.run t = (result, t') ∧ t'.out = t.out ++ lines ∧
    t'.workspace = t.workspace

section Says

variable {lines more : List String}

/-- A value alone says nothing. -/
theorem says_pure (a : α) : Says (pure a : Task α) (.ok a) [] :=
  fun t => ⟨t, rfl, (List.append_nil _).symm, rfl⟩

/-- Stopping says nothing. -/
theorem says_throw (stop : Stop) : Says (throw stop : Task α) (.error stop) [] :=
  fun t => ⟨t, rfl, (List.append_nil _).symm, rfl⟩

/-- The given lines are said. -/
theorem says_say (lines : List String) : Says (say lines) (.ok ()) lines :=
  fun _ => ⟨_, rfl, rfl, rfl⟩

/-- Entries on the error channel are not on the output channel. -/
theorem says_tell (entries : List ErrorEntry) : Says (tell entries) (.ok ()) [] :=
  fun _ => ⟨_, rfl, (List.append_nil _).symm, rfl⟩

/-- What two tasks say, one after the other. -/
theorem Says.bind {first : Task α} {second : α → Task β} {a : α} {result : Except Stop β}
    (hfirst : first.Says (.ok a) lines) (hsecond : (second a).Says result more) :
    (first >>= second).Says result (lines ++ more) := by
  intro t
  obtain ⟨t', hrun, hout, hworkspace⟩ := hfirst t
  obtain ⟨t'', hrun', hout', hworkspace'⟩ := hsecond t'
  refine ⟨t'', (run_bind_of_ok hrun second).trans hrun', ?_, hworkspace'.trans hworkspace⟩
  rw [hout', hout, List.append_assoc]

/-- Lines are said before a task that says nothing. -/
theorem Says.after_say {second : Unit → Task β} {result : Except Stop β}
    (h : (second ()).Says result []) (lines : List String) :
    (say lines >>= second).Says result lines := by
  have hboth := (says_say lines).bind h
  rwa [List.append_nil] at hboth

/-- Entries on the error channel before a task do not matter to what it says. -/
theorem Says.after_tell_if {c : Prop} [Decidable c] {second : Unit → Task β}
    {result : Except Stop β} (h : (second ()).Says result lines) (entries : List ErrorEntry) :
    Says (if c then tell entries >>= second else second ()) result lines := by
  split
  · exact (says_tell entries).bind h
  · exact h

/-- What a task says that stops. -/
theorem Says.bind_of_error {first : Task α} {stop : Stop}
    (hfirst : first.Says (.error stop) lines) (second : α → Task β) :
    (first >>= second).Says (.error stop) lines := by
  intro t
  obtain ⟨t', hrun, hout⟩ := hfirst t
  exact ⟨t', run_bind_of_error hrun second, hout⟩

/-- A journal says nothing. -/
theorem says_ofJournal {ε : Type} (describe : ε → Stop) (j : Journal ε α) :
    Says (ofJournal describe j) (j.outcome.mapError describe) [] := by
  refine (says_tell _).bind ?_
  cases j.outcome with
  | ok a => exact says_pure a
  | error e => exact says_throw (describe e)

end Says

/-! ## Reports -/

/-- The exit status of a command that has come to its end. -/
def exitOf : Except Stop ExitStatus → ExitStatus
  | .ok exit => exit
  | .error stop => stop.exit

/-- The report of a task has its exit status, what was said before and in it, and the files as
they are. -/
theorem Says.conclude {task : Task ExitStatus} {result : Except Stop ExitStatus}
    {lines : List String} (h : task.Says result lines) (t : Traces) :
    (Task.conclude (task.run t)).exit = exitOf result ∧
      (Task.conclude (task.run t)).out = t.out ++ lines ∧
      (Task.conclude (task.run t)).workspace = t.workspace := by
  obtain ⟨t', hrun, hout, hworkspace⟩ := h t
  rw [hrun]
  cases result <;> exact ⟨rfl, hout, hworkspace⟩

/-- The report of a task has its exit status and the workspace that it leaves. -/
theorem Does.report {task : Task ExitStatus} {result : Except Stop ExitStatus}
    (h : task.Does before result after given) :
    (task.report before).workspace = after ∧ (task.report before).exit = exitOf result := by
  obtain ⟨t', hrun, hworkspace, -⟩ := h ⟨[], [], before⟩ rfl
  rw [Task.report, hrun]
  cases result <;> exact ⟨hworkspace, rfl⟩

end Task

end Mailroom
