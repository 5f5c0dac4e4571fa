/-!
Structured text with named fields, in which settings, schemas and values are written down, and the
parts that readers of it are made of.
-/
namespace WideColumn

inductive Document
  | null
  | boolean (b : Bool)
  /-- `digits` with the last `places` of them behind the point. -/
  | number (digits : Int) (places : Nat)
  | text (s : String)
  | list (items : List Document)
  | fields (entries : List (String × Document))
  deriving Inhabited

namespace Document

variable {α β : Type}

def ofInt (n : Int) : Document := number n 0

def ofNat (n : Nat) : Document := number n 0

def chars (cs : List Char) : Document := text (String.ofList cs)

def ofList (f : α → Document) (xs : List α) : Document := list (xs.map f)

def ofPair (f : α → Document) (g : β → Document) (p : α × β) : Document := list [f p.1, g p.2]

/-- What is not there is written as null. -/
def ofOption (f : α → Document) : Option α → Document
  | some a => f a
  | none => null

def tagged (name : String) (d : Document) : Document := fields [(name, d)]

def bool? : Document → Option Bool
  | boolean b => some b
  | _ => none

/-- A number is whole only if it is written without a point. -/
def int? : Document → Option Int
  | number n 0 => some n
  | _ => none

/-- A whole number from zero up to the bound, which is excluded. -/
def below? (bound : Nat) (d : Document) : Option Nat := do
  let n ← d.int?
  if 0 ≤ n ∧ n < bound then some n.toNat else none

def nat? (d : Document) : Option Nat := do
  let n ← d.int?
  if 0 ≤ n then some n.toNat else none

def text? : Document → Option String
  | text s => some s
  | _ => none

def items? : Document → Option (List Document)
  | list ds => some ds
  | _ => none

def entries? : Document → Option (List (String × Document))
  | fields es => some es
  | _ => none

def list? (f : Document → Option α) (d : Document) : Option (List α) := do (← d.items?).mapM f

def pair? (f : Document → Option α) (g : Document → Option β) : Document → Option (α × β)
  | list [d, e] => do return (← f d, ← g e)
  | _ => none

/-- Null stands for nothing. -/
def option? (f : Document → Option α) : Document → Option (Option α)
  | null => some none
  | d => (f d).map some

def single? : Document → Option (String × Document)
  | fields [entry] => some entry
  | _ => none

def get? (name : String) (d : Document) : Option Document := do (← d.entries?).lookup name

def field? (name : String) (f : Document → Option α) (d : Document) : Option α := do
  f (← d.get? name)

/-- A field that may be left out or null. -/
def optional? (name : String) (f : Document → Option α) (d : Document) : Option (Option α) :=
  match d.get? name with
  | some e => option? f e
  | none => some none

def fieldOr? (name : String) (f : Document → Option α) (missing : α) (d : Document) : Option α :=
  (d.optional? name f).map (·.getD missing)

/-- The fields of a structure, given by name, or all in a row; those left out are none. -/
def members? (names : List String) : Document → Option (List (Option Document))
  | fields es => some (names.map fun name => es.lookup name)
  | list ds =>
    if ds.length ≤ names.length then
      some (ds.map some ++ List.replicate (names.length - ds.length) none)
    else none
  | _ => none

/-- A case without contents: its name, alone or as the name of null. -/
def case? : Document → Option String
  | text name => some name
  | fields [(name, null)] => some name
  | _ => none

def caseOf? (cases : List (String × α)) (d : Document) : Option α := do cases.lookup (← d.case?)

def ofCase [DecidableEq α] (cases : List (String × α)) (a : α) : Document :=
  ofOption (fun c => text c.1) (cases.find? (·.2 = a))

end Document
end WideColumn
