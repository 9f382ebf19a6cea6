import SentenceForge.Text.Blank

/-!
# Paths

A path is a text in which slashes separate names; one that begins with a
slash is absolute. Nothing here looks at files: joining and splitting are
rules on text, and a path with doubled slashes or dots in it keeps them.
-/

namespace SentenceForge.Path

/-- Whether a path is absolute. -/
def isAbsolute (path : Text) : Bool := path.head? == some '/'

/-- **A path inside a directory.** An absolute path stays what it is, and
a directory that is empty or ends in a slash needs no slash after it. -/
def join (directory path : Text) : Text :=
  if isAbsolute path then path
  else if directory.isEmpty || directory.getLast? == some '/' then
    directory ++ path
  else directory ++ '/' :: path

/-- The path without the slashes at its end, unless it is all slashes. -/
def withoutEndSlashes (path : Text) : Text :=
  if path.all (· == '/') then path
  else (path.reverse.dropWhile (· == '/')).reverse

/-- The directory of a path: what precedes the last slash. -/
def directory (path : Text) : Text :=
  withoutEndSlashes (path.reverse.dropWhile (· != '/')).reverse

end SentenceForge.Path
