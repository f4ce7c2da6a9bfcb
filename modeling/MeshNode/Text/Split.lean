/-
# Pieces of a text

A text cut at every occurrence of a separator, and pieces put together again.

* `splitOn` gives one piece more than the text has separators, so it never gives none;
* `joinWith` is its inverse on pieces without the separator.
-/

namespace MeshNode.Text

/-- The pieces of a text between separators; a text without a separator is one piece. -/
def splitOn (separator : Char) : List Char → List (List Char)
  | [] => [[]]
  | c :: rest =>
    match splitOn separator rest with
    | [] => [[c]]
    | piece :: pieces => if c = separator then [] :: piece :: pieces else (c :: piece) :: pieces

/-- Pieces with a separator between each two. -/
def joinWith (separator : List Char) : List (List Char) → List Char
  | [] => []
  | [piece] => piece
  | piece :: rest => piece ++ separator ++ joinWith separator rest

end MeshNode.Text
