set_option autoImplicit false

/-!
Texts cut at every occurrence of a separator. Joined by the separator the pieces are the text
again, and none of them holds it; so there is one piece more than there are separators.
-/

namespace Cairn.Text

/-- The piece in front of the first separator, and the pieces after it. -/
def pieces (separator : Char) : List Char → List Char × List (List Char)
  | [] => ([], [])
  | c :: rest =>
    let (first, others) := pieces separator rest
    if c = separator then ([], first :: others) else (c :: first, others)

def split (separator : Char) (s : String) : List String :=
  let (first, others) := pieces separator s.toList
  (first :: others).map String.ofList

end Cairn.Text
