/-!
# Remote paths

Remote paths have slashes on every host.  A name that comes from outside is reduced to its last
component before it becomes part of a path, so that it cannot lead out of its directory.

## Main definitions

* `join` — a path below a directory.
* `baseName` — the last component of a name, or nothing if it would lead elsewhere.
-/

namespace AchCourier.Remote

/-- The path of `component` below `base`.  Without a base it is below the working directory. -/
def join (base component : String) : String :=
  if base = "" ∨ base = "." then component
  else if base.toList.getLast? = some '/' then base ++ component
  else base ++ "/" ++ component

/-- The character separates the components of a name on some host. -/
def isSeparator (c : Char) : Bool :=
  c == '/' || c == '\\'

/-- The last component of a name without separators at its end, and nothing for a name that ends
in no component or in one that points to a directory. -/
def baseName (name : String) : String :=
  let body := name.toList.reverse.dropWhile isSeparator
  let base := String.ofList (body.takeWhile (!isSeparator ·)).reverse
  if base = "." ∨ base = ".." then "" else base

end AchCourier.Remote
