import Tabulation.Xml.Escape

/-!
# Writing markup

Output is built as a tree and written in one way: attributes in the order given, everything that
is text escaped, and no white space added. An element without content is written as one tag only
where the tree says so.
-/

namespace Tabulation.Xml

abbrev Attributes := List (String × String)

inductive Node where
  | element (name : String) (attributes : Attributes) (children : List Node)
  /-- An element written as one tag. -/
  | empty (name : String) (attributes : Attributes)
  | text (content : String)
  /-- Markup that is written as it is. -/
  | raw (markup : String)

/-- The name and the attributes of a tag. -/
def tagText (name : String) (attributes : Attributes) : String :=
  name ++ String.join (attributes.map fun (key, value) =>
    " " ++ key ++ "=\"" ++ escape value ++ "\"")

mutual

def Node.render : Node → String
  | .element name attributes children =>
      "<" ++ tagText name attributes ++ ">" ++ renderNodes children ++ "</" ++ name ++ ">"
  | .empty name attributes => "<" ++ tagText name attributes ++ "/>"
  | .text content => escape content
  | .raw markup => markup

def renderNodes : List Node → String
  | [] => ""
  | n :: ns => n.render ++ renderNodes ns

end

end Tabulation.Xml
