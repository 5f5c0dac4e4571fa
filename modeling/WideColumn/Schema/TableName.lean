import WideColumn.Error

/-!
Reading a table's name: `keyspace.table`, or a bare name in the default keyspace.
-/
namespace WideColumn.TableId

def parse (name : String) (defaultKeyspace : Option String) : Except Error TableId :=
  let invalid := Except.error (.validation (.tableName name))
  let keyspace := name.toList.takeWhile (· ≠ '.')
  match name.toList.dropWhile (· ≠ '.') with
  | _ :: table =>
    if keyspace = [] ∨ table = [] ∨ '.' ∈ table then invalid
    else .ok ⟨String.ofList keyspace, String.ofList table⟩
  | [] =>
    if name = "" then invalid
    else match defaultKeyspace with
      | some keyspace => .ok ⟨keyspace, name⟩
      | none => .error (.validation (.noKeyspace name))

end WideColumn.TableId
