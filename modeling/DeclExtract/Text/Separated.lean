/-!
# Separated texts

A mark such as a comma or a slash separates a text into parts. There is one part more than there are
marks, so even the empty text has a part, the empty one.
-/

namespace DeclExtract.Text

/-- The parts of a text between marks; without a mark, the whole text. -/
def parts (mark : Char) (text : String) : List String :=
  (text.toList.splitOn mark).map String.ofList

end DeclExtract.Text
