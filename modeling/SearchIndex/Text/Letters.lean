/-!
# Words in either case

Some notations have words of ASCII letters that may be written in either case,
also in a mixture of both. `afterWord?` finds the text after such a word.
-/

namespace SearchIndex.Text

/-- Whether a text is `word`, which is in lower case, with its letters in either
case. -/
def sameLetters (word text : List Char) : Bool :=
  text.map Char.toLower == word

/-- The text after `word` in letters of either case, if it begins with that. -/
def afterWord? (word text : List Char) : Option (List Char) :=
  if sameLetters word (text.take word.length) then some (text.drop word.length) else none

end SearchIndex.Text
