/-!
# Searching a text
-/

namespace Promotions.Text

def occursIn (part : List Char) : List Char → Bool
  | [] => part.isEmpty
  | c :: cs => part.isPrefixOf (c :: cs) || occursIn part cs

end Promotions.Text
