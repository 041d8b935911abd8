/-!
# `Html` — elements and their text

Converted nodes are elements of three forms: an element with text, an image, and a block with child
elements. Text is escaped where it is written and nowhere else.

## Contents

* `escape`: text between tags or quotes;
* `Element`: the tree;
* `DepthError`, `checkDepth`: the depths at which lines can be written;
* `Element.render`: its lines, indented by depth.
-/

namespace DesignMarkup.Html

/-! ## Escaping -/

/-- A character between tags or quotes. -/
def escapeChar (c : Char) : List Char :=
  match c with
  | '&' => ['&', 'a', 'm', 'p', ';']
  | '<' => ['&', 'l', 't', ';']
  | '>' => ['&', 'g', 't', ';']
  | '"' => ['&', 'q', 'u', 'o', 't', ';']
  | '\'' => ['&', '#', '0', '3', '9', ';']
  | c => [c]

/-- Text between tags or quotes: the five special characters as entities. -/
def escape (s : String) : String :=
  String.ofList (s.toList.flatMap escapeChar)

/-! ## Elements -/

/-- An element of a converted design. -/
inductive Element where
  /-- An element with text. -/
  | text (tag : String) (classes : List String) (content : String)
  /-- An image with its description. -/
  | image (classes : List String) (alt : String)
  /-- An element with child elements. -/
  | block (tag : String) (classes : List String) (children : List Element)

/-! ## Depth -/

/-- Why no line can be written at a depth on any machine of 64 bits. -/
inductive DepthError where
  /-- The depth, or the count of its blanks, is no signed number of 64 bits. -/
  | uncountable
  /-- The blanks can be counted, but not the bytes of a text that holds them. -/
  | tooLarge
  deriving DecidableEq, Repr

/-- The least depth that can be counted. -/
def minDepth : Int :=
  -9223372036854775808

/-- The least depth whose blanks cannot be counted. -/
def uncountableDepth : Int :=
  4611686018427387904

/-- The least depth whose blanks take too many bytes to be counted, together with the 48 that stand before the
characters of a text. The memory a machine really has is not considered: it may be used up far earlier. -/
def hugeDepth : Int :=
  4611686018427387880

/-- **Lines can be written at a depth** if the blanks and their bytes can be counted. Only the first line of a
page is tried. The levels below it could differ just under the limit, where the first line alone would take more
than half of all addresses. -/
def checkDepth (depth : Int) : Except DepthError Unit :=
  if depth < minDepth ∨ uncountableDepth ≤ depth then .error .uncountable
  else if hugeDepth ≤ depth then .error .tooLarge
  else .ok ()

/-- The blanks before a line: two for each level, none for a negative depth. -/
def indent (depth : Int) : String :=
  String.ofList (List.replicate (2 * depth.toNat) ' ')

/-- The class attribute. -/
def classAttribute (classes : List String) : String :=
  " class=\"" ++ " ".intercalate classes ++ "\""

namespace Element

mutual

/-- **The lines of an element**: one for text and images; a block has its tags on lines of their own
around its children, which stand one level deeper. -/
def render (depth : Int) : Element → String
  | .text tag classes content =>
    indent depth ++ "<" ++ tag ++ classAttribute classes ++ ">" ++ escape content ++
      "</" ++ tag ++ ">\n"
  | .image classes alt =>
    indent depth ++ "<img" ++ classAttribute classes ++ " alt=\"" ++ escape alt ++ "\" />\n"
  | .block tag classes children =>
    indent depth ++ "<" ++ tag ++ classAttribute classes ++ ">\n" ++
      renderAll (depth + 1) children ++ indent depth ++ "</" ++ tag ++ ">\n"

/-- The lines of several elements. -/
def renderAll (depth : Int) : List Element → String
  | [] => ""
  | e :: rest => render depth e ++ renderAll depth rest

end

end Element

end DesignMarkup.Html
