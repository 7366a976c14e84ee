namespace FormulaLine
namespace Text

/-!
Replacement of every occurrence of a pattern, scanning from the left, where
occurrences do not overlap.
-/

/-- Scans the text with `skip` characters still to be dropped because they
belong to the occurrence found last. -/
def replaceScan (pattern replacement : List Char) : Nat → List Char → List Char
  | _, [] => []
  | skip + 1, _ :: rest => replaceScan pattern replacement skip rest
  | 0, c :: rest =>
    if pattern.isPrefixOf (c :: rest) then
      replacement ++ replaceScan pattern replacement (pattern.length - 1) rest
    else
      c :: replaceScan pattern replacement 0 rest

/-- Writes `replacement` for each occurrence of the nonempty `pattern`. -/
def replaceAll (pattern replacement text : List Char) : List Char :=
  replaceScan pattern replacement 0 text

/-- Cuts the text at each occurrence of the separator character. -/
def cutAt (separator : Char) : List Char → List (List Char)
  | [] => [[]]
  | c :: rest =>
    if c = separator then [] :: cutAt separator rest
    else
      match cutAt separator rest with
      | [] => [[c]]
      | piece :: pieces => (c :: piece) :: pieces

end Text
end FormulaLine
