/-! Finding one text in another. -/
namespace XPath.Text
set_option autoImplicit false

/-- The parts of a text before and after the first occurrence of another. -/
def splitAtFirst? (needle : List Char) : List Char → Option (List Char × List Char)
  | [] => if needle = [] then some ([], []) else none
  | c :: rest =>
    if needle.isPrefixOf (c :: rest) then some ([], (c :: rest).drop needle.length)
    else (splitAtFirst? needle rest).map fun (before, after) => (c :: before, after)

end XPath.Text
