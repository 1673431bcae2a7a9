import XPath.Document.Edit
/-! A small document with a node of every kind, for trying expressions on. -/
namespace XPath.Document
set_option autoImplicit false

/-- The nodes of the sample, each with its parent:
a `para` with the attributes `id` and `xml:lang` and a text, a comment, an empty `div`, a processing
instruction, and another `para` with a text. -/
def sampleNodes : List (NodeId × NodeKind) :=
  [(⟨0⟩, .element (.plain "para") none),
    (⟨1⟩, .attribute (.plain "id") none "p1"),
    (⟨1⟩, .attribute ⟨some "xml", "lang"⟩ none "en"),
    (⟨1⟩, .text "Hello"),
    (⟨0⟩, .comment " comment node "),
    (⟨0⟩, .element (.plain "div") none),
    (⟨0⟩, .instruction "pi-target" "pi-value"),
    (⟨0⟩, .element (.plain "para") none),
    (⟨8⟩, .text "World")]

def sample : Document :=
  sampleNodes.foldl
    (fun d (parent, kind) =>
      if kind.isAttribute then (d.createAttribute parent kind).1 else (d.createChild parent kind).1)
    .empty

end XPath.Document
