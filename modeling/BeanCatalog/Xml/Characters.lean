import BeanCatalog.Text.Ranges

namespace BeanCatalog.Xml

def isSpace (c : Char) : Bool := c == ' ' || c == '\t' || c == '\n' || c == '\r'

def isChar (c : Char) : Bool :=
  isSpace c || (0x20 ≤ c.toNat && c.toNat ≤ 0xFFFD) || 0x10000 ≤ c.toNat

def nameStart : Text.Ranges :=
  [(0x41, 0x5A), (0x5F, 0x5F), (0x61, 0x7A), (0xC0, 0xD6), (0xD8, 0xF6), (0xF8, 0x2FF),
   (0x370, 0x37D), (0x37F, 0x1FFF), (0x200C, 0x200D), (0x2070, 0x218F), (0x2C00, 0x2FEF),
   (0x3001, 0xD7FF), (0xF900, 0xFDCF), (0xFDF0, 0xFFFD), (0x10000, 0xEFFFF)]

def nameOther : Text.Ranges :=
  [(0x2D, 0x2E), (0x30, 0x39), (0xB7, 0xB7), (0x300, 0x36F), (0x203F, 0x2040)]

def isNameStart (c : Char) : Bool := c == ':' || nameStart.has c

def isNameChar (c : Char) : Bool := isNameStart c || nameOther.has c

def isPublic (c : Char) : Bool :=
  c.isAlphanum || c ∈ " \r\n-'()+,./:=?;!*#@$_%".toList

/-- A character as a document means it: line ends of all kinds are line feeds. -/
def meant (c : Char) : Char := if c = '\r' then '\n' else c

end BeanCatalog.Xml
