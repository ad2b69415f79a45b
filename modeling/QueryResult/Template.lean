/-!
# Message templates

A message template is text with places for arguments. Each place is an empty
pair of curly brackets and takes the next argument; a doubled bracket stands
for the bracket itself. Arguments left over are ignored, and a place without an
argument is left as it is.
-/

set_option autoImplicit false

namespace QueryResult.Template

def opening : Char := '\x7b'

def closing : Char := '\x7d'

/-- The characters of a template with its places filled in order. -/
def fillChars : List Char → List String → List Char
  | first :: second :: rest, arguments =>
      if first = opening ∧ second = opening then opening :: fillChars rest arguments
      else if first = closing ∧ second = closing then closing :: fillChars rest arguments
      else if first = opening ∧ second = closing then
        match arguments with
        | [] => opening :: closing :: fillChars rest []
        | argument :: others => argument.toList ++ fillChars rest others
      else first :: fillChars (second :: rest) arguments
  | template, _ => template

def fill (template : String) (arguments : List String) : String :=
  String.ofList (fillChars template.toList arguments)

end QueryResult.Template
