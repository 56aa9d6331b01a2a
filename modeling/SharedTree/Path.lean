/-!
# Paths

A path is absolute: `/` alone is the root, and every other path is a `/` in front of each of its
segments. A segment is not empty, holds no `/` and takes at most 255 bytes.
-/

namespace SharedTree

namespace Path

/-- The longest segment, in bytes. -/
def maxSegmentSize : Nat := 255

/-- The parts of a text between separators; there is one more part than there are separators. -/
def pieces (separator : Char) (text : List Char) : List (List Char) :=
  text.foldr
    (fun char parts =>
      if char = separator then [] :: parts else (char :: parts.headD []) :: parts.tail)
    [[]]

/-- Whether a text may be a segment, given that it holds no separator. -/
def isSegment (segment : String) : Bool :=
  segment ≠ "" && segment.utf8ByteSize ≤ maxSegmentSize

/-- The segments of a path, outermost first, or nothing if the text is not a path. -/
def segments? (path : String) : Option (List String) :=
  match path.toList with
  | [] => none
  | first :: rest =>
    if first ≠ '/' then none
    else if rest.isEmpty then some []
    else
      let found := (pieces '/' rest).map String.ofList
      if found.all isSegment then some found else none

/-- The path with the given segments. -/
def ofSegments : List String → String
  | [] => "/"
  | segments => String.join (segments.map ("/" ++ ·))

end Path

end SharedTree
