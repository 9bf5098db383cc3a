import TemplateFrontend.Kind

/-!
Contract: the spellings that open a markup region.

Every spelling is ASCII and ends with the brace that opens the region. The
anonymous opener, an at sign followed directly by a brace, has no entry here.
-/

namespace TemplateFrontend.Kind

/-- Named markup openers with their kinds. -/
def markupOpeners : List (List Char × Kind) :=
  [("@comment\x7b".toList, .markupComment),
   ("@code\x7b".toList, .markupCode),
   ("@include\x7b".toList, .markupInclude),
   ("@includeNamed\x7b".toList, .markupIncludeNamed),
   ("@foreach\x7b".toList, .markupForeach),
   ("@if\x7b".toList, .markupIf),
   ("@else\x7b".toList, .markupElse),
   ("@end\x7b".toList, .markupEnd),
   ("@declare\x7b".toList, .markupDeclare)]

/-- Of two table entries the one with the longer spelling, the later one on a
tie. -/
def longerOpener (best : Option (List Char × Kind)) (entry : List Char × Kind) :
    Option (List Char × Kind) :=
  match best with
  | some kept => if entry.1.length < kept.1.length then some kept else some entry
  | none => some entry

/-- The longest named opener that `text` starts with. -/
def longestOpener? (text : List Char) : Option (List Char × Kind) :=
  (markupOpeners.filter fun entry => entry.1.isPrefixOf text).foldl longerOpener none

end TemplateFrontend.Kind
