import Stencil.Text.Html.Entity

/-!
# Data in script elements

JSON text inside a script element: the characters that could end the element are written by their
code, which leaves the data as they are.
-/

namespace Stencil.Text

/-- A character of JSON text inside a script element. -/
def scriptChar (c : Char) : List Char :=
  match c with
  | '<' => "\\u003C".toList
  | '>' => "\\u003E".toList
  | '&' => "\\u0026".toList
  | c => [c]

/-- The attribute that names an element; the empty name gives no attribute. -/
def idAttribute (name : List Char) : List Char :=
  if name.isEmpty then [] else " id=\"".toList ++ escape name ++ ['"']

/-- A script element that holds JSON text. Reference: `json_script`. -/
def scriptElement (name json : List Char) : List Char :=
  "<script".toList ++ idAttribute name ++ " type=\"application/json\">".toList ++
    json.flatMap scriptChar ++ "</script>".toList

end Stencil.Text
