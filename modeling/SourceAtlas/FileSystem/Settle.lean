/-
# SourceAtlas.FileSystem.Settle — the place that a path means.

Links are followed as far as there are any, and what does not exist is taken as it is written.  So
every path has a place, whether something is there or not, unless its links lead round in a circle.
-/
import SourceAtlas.FileSystem.Lookup

namespace SourceAtlas.FileSystem

/-- Follow segments from a place, which is given with the last name first. -/
def settleFrom (top : Entry) (links : Nat) (place segments : List String) :
    Except LookupFault (List String) :=
  match segments with
  | [] => .ok place.reverse
  | segment :: rest =>
    if segment = ".." then settleFrom top links place.tail rest
    else
      match top.at? (segment :: place).reverse with
      | some (.link _ _ target) =>
        match links with
        | 0 => .error .tooManyLinks
        | links + 1 =>
          let start := if Path.isAbsolute target.toList then [] else place
          settleFrom top links start (segmentsOf target ++ rest)
      -- present or not, and folder or not, the segment counts as written
      | _ => settleFrom top links (segment :: place) rest
termination_by (links, segments.length)

/-- The place that a path means, seen from the current folder. -/
def settle (fs : FileSystem) (path : String) : Except LookupFault (List String) :=
  let start := if Path.isAbsolute path.toList then [] else fs.current.reverse
  settleFrom fs.top linkLimit start (segmentsOf path)

end SourceAtlas.FileSystem
