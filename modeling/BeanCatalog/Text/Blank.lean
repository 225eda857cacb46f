import BeanCatalog.Text.Ranges

namespace BeanCatalog.Text

/-- The bidirectional types WS, B and S and the category Zs. -/
def blanks : Ranges :=
  [(0x9, 0xD), (0x1C, 0x20), (0x85, 0x85), (0xA0, 0xA0), (0x1680, 0x1680), (0x2000, 0x200A),
   (0x2028, 0x2029), (0x202F, 0x202F), (0x205F, 0x205F), (0x3000, 0x3000)]

def isBlank (c : Char) : Bool := blanks.has c

def stripChars (cs : List Char) : List Char :=
  ((cs.dropWhile isBlank).reverse.dropWhile isBlank).reverse

def strip (s : String) : String := String.ofList (stripChars s.toList)

def allBlank (s : String) : Bool := s.toList.all isBlank

end BeanCatalog.Text
