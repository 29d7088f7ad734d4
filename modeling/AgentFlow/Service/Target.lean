import AgentFlow.Text.Hex

/-!
# Targets of requests

A request names its target by a path that may have a query and a fragment behind it.  The path is
resolved from the root: segments of dots are followed, and percent escapes stand for the characters
they escape.

## Main definitions

* `Target.path`: the path that a target names.
-/

namespace AgentFlow

namespace Target

/-- A target without its query and fragment. -/
def withoutQuery (target : List Char) : List Char :=
  target.takeWhile fun c => c ≠ '?' && c ≠ '#'

/-- The segments that remain, in reverse, when those made of dots are followed.  Two dots at the root
lead nowhere else: the empty segment in front of the first slash remains. -/
def follow (done : List (List Char)) : List (List Char) → List (List Char)
  | [] => done
  | segment :: rest =>
    if segment = ['.'] then follow done rest
    else if segment = ['.', '.'] then follow (if done = [[]] then done else done.drop 1) rest
    else follow (segment :: done) rest

/-- The path without segments made of dots. -/
def withoutDots (path : List Char) : List Char :=
  List.intercalate ['/'] (follow [] (path.splitOn '/')).reverse

/-- The path with percent escapes of ASCII characters undone.  Other escapes are left alone: no path
of the service has characters outside ASCII. -/
def unescape : List Char → List Char
  | '%' :: a :: b :: cs =>
    match hexValue? a, hexValue? b with
    | some high, some low =>
      if high < 8 then Char.ofNat (16 * high + low) :: unescape cs
      else '%' :: unescape (a :: b :: cs)
    | _, _ => '%' :: unescape (a :: b :: cs)
  | c :: cs => c :: unescape cs
  | [] => []

/-- The path seen from the root. -/
def fromRoot (path : List Char) : List Char :=
  if path.head? = some '/' then path else '/' :: path

/-- The path that a target names. -/
def path (target : String) : String :=
  String.ofList (unescape (withoutDots (fromRoot (withoutQuery target.toList))))

end Target

end AgentFlow
