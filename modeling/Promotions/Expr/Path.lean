/-!
# Variable paths

A path such as `order.total` names a variable. Its text is its identity, and the dots in the text
divide it into segments.
-/

namespace Promotions

structure Path where
  text : String
deriving DecidableEq

namespace Path

/-- The segments with a dot between neighbours. -/
def ofSegments (segments : List String) : Path := ⟨String.intercalate "." segments⟩

/-- The text cut at every dot. Segments may be empty. -/
def segments (p : Path) : List String := (p.text.toList.splitOn '.').map String.ofList

end Path

end Promotions
