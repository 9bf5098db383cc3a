import TemplateFrontend.Text.Slice

/-!
Contract: white space of any script (White_Space).
-/

namespace TemplateFrontend.Text

/-- White space of any script. -/
def isWhiteSpace (char : Char) : Bool :=
  let code := char.toNat
  (0x9 ≤ code && code ≤ 0xd) || code == 0x20 || code == 0x85 || code == 0xa0 ||
    code == 0x1680 || (0x2000 ≤ code && code ≤ 0x200a) || code == 0x2028 || code == 0x2029 ||
    code == 0x202f || code == 0x205f || code == 0x3000

def allWhiteSpace (text : Text) : Bool := text.all isWhiteSpace

end TemplateFrontend.Text
