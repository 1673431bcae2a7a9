import XPath.Document.Build
import XPath.Markup.Content
/-! Documents from XML text. -/
namespace XPath.Document
set_option autoImplicit false

/-- The document that an XML text describes, if it is well-formed. -/
def parse? (text : String) : Option Document := readWith? Markup.parse text

end XPath.Document
