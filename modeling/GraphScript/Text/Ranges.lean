namespace GraphScript.Text

/-!
# Sets of code points

A set is given by the first and last members of its runs, in ascending order.
-/

/-- Whether a code point lies in one of the runs, which ascend. -/
def inRanges
    (code : Nat) :
    List (Nat × Nat) →
    Bool
  | [] =>
      false
  | (first, last) :: later =>
      first ≤ code && (code ≤ last || inRanges code later)

end GraphScript.Text
