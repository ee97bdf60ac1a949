/-!
# Paths

A path is text: names with slashes between them.  Different texts may be the same path, and
the tools show only one of them.

Main definitions:

- `pathNames` are the names in a path, and `rootOf` the slashes at its beginning.
- `shownPath` is the form in which a path is shown, in reports as well as in notices.
- `baseName` is the last name.
-/

namespace Mailroom

/-- The names in a path.  A slash at the end asks for a directory, as a period does. -/
def pathNames (path : String) : List String :=
  let names := ((path.toList.splitOn '/').map String.ofList).filter (· ≠ "")
  if path.toList.getLast? = some '/' then names ++ ["."] else names

/-- A path that starts at the root. -/
def isAbsolute (path : String) : Bool :=
  path.toList.head? == some '/'

/-- The slashes that a path keeps at its beginning: two if it has exactly two, and else one
at most. -/
def rootOf (path : String) : String :=
  match (path.toList.takeWhile (· = '/')).length with
  | 0 => ""
  | 2 => "//"
  | _ => "/"

/-- A path as it is shown and opened: periods and repeated slashes are left out, and the
empty path is the current directory. -/
def shownPath (path : String) : String :=
  let shown := rootOf path ++ "/".intercalate ((pathNames path).filter (· ≠ "."))
  if shown = "" then "." else shown

/-- The last name of a path. -/
def baseName (path : String) : String :=
  ((pathNames path).filter (· ≠ ".")).getLastD ""

end Mailroom
