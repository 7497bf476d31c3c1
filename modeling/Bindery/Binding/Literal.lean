/-!
# String literals in Java sources

`Binding.quote` writes a text between double quotes. Quotes, backslashes, line feeds and tabs are
written as escapes, and every other character as it is.
-/

namespace Bindery.Binding

/-- A character as it is written inside a string literal. -/
def escapeChar : Char → List Char
  | '"' => ['\\', '"']
  | '\\' => ['\\', '\\']
  | '\n' => ['\\', 'n']
  | '\t' => ['\\', 't']
  | c => [c]

/-- The characters of the string literal for a text. -/
def quoteChars (cs : List Char) : List Char := '"' :: (cs.flatMap escapeChar ++ ['"'])

/-- The string literal for a text. -/
def quote (s : String) : String := String.ofList (quoteChars s.toList)

end Bindery.Binding
