import TemplateFrontend.Kind

/-!
Contract: the reserved words.

A word is reserved only as a whole and in its exact case; every other word is
a plain name.
-/

namespace TemplateFrontend.Kind

/-- Reserved words with their kinds, the word-shaped literals included. -/
def reservedWords : List (List Char × Kind) :=
  [("if".toList, .ifKeyword),
   ("else".toList, .elseKeyword),
   ("for".toList, .forKeyword),
   ("foreach".toList, .foreachKeyword),
   ("while".toList, .whileKeyword),
   ("do".toList, .doKeyword),
   ("until".toList, .untilKeyword),
   ("return".toList, .returnKeyword),
   ("new".toList, .newKeyword),
   ("function".toList, .functionKeyword),
   ("def".toList, .defKeyword),
   ("isdef".toList, .isdefKeyword),
   ("with".toList, .withKeyword),
   ("assert".toList, .assertKeyword),
   ("true".toList, .boolean),
   ("false".toList, .boolean),
   ("null".toList, .null),
   ("nil".toList, .null),
   ("empty".toList, .empty)]

def ofReservedWord? (word : List Char) : Option Kind :=
  reservedWords.lookup word

end TemplateFrontend.Kind
