import Mailroom.Command.Invocation

/-!
# The command line

The program: its first word names one of the three commands, and the others are the
command line of that command.  The files that the command line names are read into a
workspace first, and the files that the command has changed are written at the end.

Main definitions:

- `main` is the entry point.
-/

namespace Mailroom

/-- The number of steps after which a run without a limit is given up. -/
def lastPatience : Nat :=
  Nat.pow 2 62

/-- The paths that a command line may name. -/
def namedPaths (tool : Tool) (words : List String) : List String :=
  match scanWords tool.options words with
  | .error _ => []
  | .ok s => Tool.defaultImage :: s.arguments ++ s.options.filterMap (·.2)

/-- Enter what is found along the given names into a workspace. -/
def survey (ws : Workspace) (here : List String) : List String → IO Workspace
  | [] => return ws
  | name :: rest => do
    if name = "." then
      survey ws here rest
    else if name = ".." then
      survey ws here.tail rest
    else
      let names := name :: here
      let path := (← IO.currentDir) / ("/" ++ fileKey names)
      if ← path.isDir then
        survey { ws with directories := names :: ws.directories } names rest
      else if ← path.pathExists then
        let content ← IO.FS.readBinFile path
        return { ws with files := ws.files.insert (fileKey names) content.data.toList }
      else
        return ws

/-- The workspace that a command line is about. -/
def workspaceFor (tool : Tool) (words : List String) : IO Workspace := do
  let current := (pathNames (← IO.currentDir).toString).reverse
  let mut ws : Workspace := ⟨current, [], .empty⟩
  ws ← survey ws [] current.reverse
  for path in namedPaths tool words do
    ws ← survey ws (if isAbsolute path then [] else current) (pathNames path)
  return ws

/-- Write the files in which two workspaces differ. -/
def writeChanges (before after : Workspace) : IO Unit := do
  for (key, content) in after.files.entries do
    if before.files.find? key ≠ some content then
      IO.FS.writeBinFile ((← IO.currentDir) / ("/" ++ key)) ⟨content.toArray⟩

/-- Carry one command out. -/
def perform (tool : Tool) (words : List String) : IO UInt32 := do
  let ws ← workspaceFor tool words
  match tool.request words ws with
  | .error e =>
    IO.eprintln tool.synopsis
    IO.eprintln ("Error: " ++ e.message)
    return 2
  | .ok request =>
    match request.report? lastPatience ws with
    | none =>
      IO.eprintln "The program does not stop."
      return 3
    | some r =>
      writeChanges ws r.workspace
      IO.print r.stdout
      IO.eprint (r.stderr request.verbose)
      return UInt32.ofNat r.exit.code

end Mailroom

/-- Carry out the command that the first word names. -/
def main (args : List String) : IO UInt32 := do
  match args with
  | [] =>
    IO.eprintln "A command is missing: lmasm, lmvm or lmdisasm."
    return 2
  | name :: words =>
    match Mailroom.Tool.ofName? name with
    | some tool => Mailroom.perform tool words
    | none =>
      IO.eprintln ("There is no command " ++ name ++ ".")
      return 2
