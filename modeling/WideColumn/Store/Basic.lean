import WideColumn.Error

/-!
The store behind an engine, as far as the engine asks it.
-/
namespace WideColumn

/-- A store whose state is of type `σ`: each request is answered and may change the state. -/
class Store (σ : Type) where
  execute : Request → Options → σ → Except Fault Page × σ
  prepare : String → σ → Except Fault Prepared × σ
  /-- Answers none when the table does not exist. -/
  describeTable : TableId → σ → Except Fault (Option Table) × σ
  /-- Answers none when the type does not exist. -/
  describeType : TypeName → σ → Except Fault (Option UserType) × σ
  /-- How many more pages at most will say that further ones follow. -/
  pagesToCome : σ → Nat
  /-- How many user-defined types the store knows. -/
  typeCount : σ → Nat

/-- The two bounds of a store hold. -/
class LawfulStore (σ : Type) [Store σ] : Prop where
  pagesToCome_lt {request : Request} {options : Options} {s t : σ} {page : Page} :
    Store.execute request options s = (.ok page, t) → page.pagingState.isSome →
      Store.pagesToCome t < Store.pagesToCome s
  types_bounded (s : σ) : ∃ known : List TypeName, known.length ≤ Store.typeCount s ∧
    ∀ name type t, Store.describeType name s = (.ok (some type), t) → name ∈ known

/-- What happened between an engine and its store, and to the engine's caches. -/
inductive Event
  | execute (request : Request) (options : Options) (answer : Except Fault Page)
  | prepare (text : String) (answer : Except Fault Prepared)
  | describeTable (id : TableId) (answer : Except Fault (Option Table))
  | describeType (name : TypeName) (answer : Except Fault (Option UserType))
  | metadataDropped
  | statementsDropped

end WideColumn
