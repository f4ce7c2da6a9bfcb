/-
# Segments behind a URL

A URL with more segments in its path.  Each segment is given as a whole, so whatever would
separate segments is escaped in it, and so is the percent sign.  Two things are not: a segment
that is a dot or two dots is left out, and tabs and line ends vanish from a segment.  A segment
that only becomes a dot or two dots that way is resolved as one.

* `appendSegment` puts one segment behind a path;
* `Url.append?` puts segments behind the path of a URL, which a plain path refuses.
-/
import MeshNode.Url.Parse

namespace MeshNode.Url

/-- A segment as it is written behind a path. -/
def encodeSegment (special : Bool) (s : List Char) : String :=
  String.ofList (Percent.encode (if special then Percent.webSegment else Percent.segment) s)

/-- A segment without tabs and line ends. -/
def dropLineEnds (s : List Char) : List Char := s.filter fun c => c != '\t' && c != '\n' && c != '\r'

/-- The path to put a segment behind: the root has no segment of its own. -/
def openPath (path : List String) : List String := if path = [""] then [] else path

/-- The path with one segment behind it. -/
def appendSegment (scheme : String) (path : List String) (segment : String) : List String :=
  let file := scheme == "file"
  let s := segment.toList
  if s = ['.'] ∨ s = ['.', '.'] then path
  else
    let path := openPath path
    let s := dropLineEnds s
    trimFile file <|
      if s = ['.', '.'] then shorten file path ++ [""]
      else if s = ['.'] then path ++ [""]
      else path ++ [encodeSegment (isSpecial scheme) s]

/-- A path without the empty segment at its end; the root stays. -/
def dropOpenEnd (path : List String) : List String :=
  if 1 < path.length ∧ path.getLast? = some "" then path.dropLast else path

/-- The URL with segments behind its path; query and fragment stay. -/
def append? (u : Url) (segments : List String) : Option Url :=
  match u.path with
  | .plain _ => none
  | .segments path =>
    some { u with
      path := .segments (segments.foldl (appendSegment u.scheme) (dropOpenEnd path)) }

end MeshNode.Url
