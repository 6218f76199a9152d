import PathGuard.Text.Blank
/-!
# Dotted paths

A path is written as its segments with points between them. Points alone separate segments: a
segment may be empty or hold blanks. A path descends from those that its segments begin with.
-/

namespace PathGuard

/-- The segments of a path: the texts before, between and behind its points. -/
def dottedSegments : List Char → List (List Char)
  | [] => [[]]
  | c :: rest =>
    if c = '.' then [] :: dottedSegments rest
    else
      match dottedSegments rest with
      | [] => [[c]]
      | segment :: more => (c :: segment) :: more

def hasBlankSegment (path : List Char) : Bool := (dottedSegments path).any isAllBlank

/-- Whether a path is `ancestor` or goes on behind it with a point. -/
def descendsFrom (path ancestor : String) : Bool :=
  path == ancestor || (ancestor.toList ++ ['.']).isPrefixOf path.toList

end PathGuard
