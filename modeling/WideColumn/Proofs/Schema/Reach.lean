import WideColumn.Schema.Table

/-!
Which user-defined types a list of types depends on: those that are named in it, those that are named in
the fields of these, and so on. The definitions may be nested, shared or mutually recursive.
-/
namespace WideColumn

/-- The type is of that name, or a collection of such. -/
def ColumnType.Mentions (name : String) : ColumnType → Prop
  | list element => element.Mentions name
  | set element => element.Mentions name
  | map key value => key.Mentions name ∨ value.Mentions name
  | udt other => other = name
  | _ => False

theorem ColumnType.mem_addNames {t : ColumnType} {names : List String} {name : String} :
    name ∈ t.addNames names ↔ name ∈ names ∨ t.Mentions name := by
  induction t generalizing names with
  | list e ih => exact ih
  | set e ih => exact ih
  | map k v ihk ihv =>
    rw [addNames, ihv, ihk, or_assoc]
    rfl
  | udt other =>
    rw [addNames]
    split <;> simp [Mentions] <;> grind
  | _ => simp [addNames, Mentions]

/-- The types of a list, one after the other. -/
theorem ColumnType.mem_foldl_addNames {types : List ColumnType} {names : List String} {name : String} :
    name ∈ types.foldl (fun names t => t.addNames names) names ↔
      name ∈ names ∨ ∃ t ∈ types, t.Mentions name := by
  induction types generalizing names with
  | nil => simp
  | cons t types ih => simp [ih, mem_addNames, or_assoc]

/-- A field of the type mentions that name. -/
def UserType.Mentions (d : UserType) (name : String) : Prop := ∃ f ∈ d.fields, f.2.Mentions name

/-- The type of that name is needed for one of these types, or for a field of a type that is needed. -/
inductive Reaches (definition : String → Option UserType) (types : List ColumnType) : String → Prop
  | column {t : ColumnType} {name : String} : t ∈ types → t.Mentions name →
      Reaches definition types name
  | field {outer name : String} {d : UserType} : Reaches definition types outer →
      definition outer = some d → d.Mentions name → Reaches definition types name

end WideColumn
