import WideColumn.Text.Quoted

/-!
Names in statement text: plain lower-case names stand as they are, all others in double quotes.
-/
namespace WideColumn.Identifier

def isPlainStart (c : Char) : Bool := c.isLower || c == '_'

def isPlainRest (c : Char) : Bool := isPlainStart c || c.isDigit

def isPlain : List Char → Bool
  | [] => false
  | c :: cs => isPlainStart c && cs.all isPlainRest

def quoteChars (name : List Char) : List Char :=
  if isPlain name then name else Quoted.enclose '"' name

def quote (name : String) : List Char := quoteChars name.toList

end WideColumn.Identifier
