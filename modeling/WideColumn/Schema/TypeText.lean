import WideColumn.Schema.ColumnType
import WideColumn.Text.Blank

/-!
Reading a column type from its text. `frozen<..>` is transparent, words are read without regard to
case, blanks around any part are skipped, and a word that names no scalar is a user-defined type.
-/
namespace WideColumn.ColumnType

/-- `outer<inner>`: the text before the first `<`, and what stands between it and a final `>`. -/
def generic? (cs : List Char) : Option (List Char × List Char) :=
  match cs.dropWhile (· ≠ '<') with
  | [] => none
  | _ :: rest =>
    if rest.getLast? = some '>' then
      some (Text.trim (cs.takeWhile (· ≠ '<')), Text.trim rest.dropLast)
    else none

/-- Splits at the first comma outside of angle brackets; none if a `>` comes too early. -/
def splitComma : Nat → List Char → Option (List Char × List Char)
  | _, [] => none
  | depth, c :: cs =>
    let next (d : Nat) := (splitComma d cs).map fun (k, v) => (c :: k, v)
    if c = '<' then next (depth + 1)
    else if c = '>' then if depth = 0 then none else next (depth - 1)
    else if c = ',' ∧ depth = 0 then some ([], cs)
    else next depth

/-- What stands between a first and a last double quote. -/
def unquote? : List Char → Option (List Char)
  | '"' :: rest => if rest.getLast? = some '"' then some rest.dropLast else none
  | _ => none

def isWordChar (c : Char) : Bool := c.isAlphanum || c == '_'

/-- A scalar by name, or any other word as a user-defined type. -/
def ofWord? (cs : List Char) : Option ColumnType :=
  let word := String.ofList (cs.map Char.toLower)
  if word = "varchar" then some text
  else match scalars.lookup word with
    | some t => some t
    | none => if cs ≠ [] ∧ cs.all isWordChar then some (udt word) else none

/-- Reads a type nested no deeper than `depth`; on failure tells the part that is no type. -/
def parseWithin : (depth : Nat) → List Char → Except String ColumnType
  | 0, cs => .error (String.ofList cs)
  | depth + 1, cs =>
    let refused := Except.error (String.ofList cs)
    let trimmed := Text.trim cs
    match generic? trimmed with
    | some (outer, inner) =>
      match String.ofList (outer.map Char.toLower) with
      | "frozen" => parseWithin depth inner
      | "list" => (parseWithin depth inner).map list
      | "set" => (parseWithin depth inner).map set
      | "map" =>
        match splitComma 0 inner with
        | none => refused
        | some (k, v) => do
          let k ← parseWithin depth (Text.trim k)
          let v ← parseWithin depth (Text.trim v)
          return map k v
      | _ => refused
    | none =>
      match unquote? trimmed with
      | some name => .ok (udt (String.ofList (Quoted.undouble '"' name)))
      | none => (ofWord? trimmed).elim refused .ok

/-- Every nested part is shorter than the whole, so its length bounds the depth. -/
def parse (s : String) : Except String ColumnType :=
  parseWithin (s.toList.length + 1) s.toList

def refusal (part : String) : String := s!"invalid column type '{part}'"

end WideColumn.ColumnType
