import WideColumn.Record.Rows
import WideColumn.Spec.Mutation

/-!
Interceptors: changes to requests before they are compiled and to the rows of a read afterwards, and
cascades, which add mutations to the one that triggers them.
-/
namespace WideColumn

/-- An outcome that takes some milliseconds to come. -/
structure Timed (α : Type) where
  delay : Nat
  outcome : Except Error α

namespace Timed

/-- The failure that comes first, of several at one time the first of the list. -/
def firstFailure : List (Timed α) → Option (Nat × Error)
  | [] => none
  | t :: ts =>
    match t.outcome, firstFailure ts with
    | .ok _, later => later
    | .error e, some (delay, later) => if delay < t.delay then some (delay, later) else some (t.delay, e)
    | .error e, none => some (t.delay, e)

/-- Waited for one after the other: the failure of the first of the list that fails, or all results. -/
def inOrder : List (Timed α) → Timed (List α)
  | [] => ⟨0, .ok []⟩
  | t :: ts =>
    match t.outcome with
    | .error e => ⟨t.delay, .error e⟩
    | .ok a => ⟨max t.delay (inOrder ts).delay, (inOrder ts).outcome.map (a :: ·)⟩

/-- All at once: all results when the slowest has come, or a failure. In a list that is watched as a
whole it is the failure that comes first, in a longer one the first of the list. -/
def all (ts : List (Timed α)) : Timed (List α) :=
  match if ts.length ≤ Op.watched then firstFailure ts else none with
  | some (delay, e) => ⟨delay, .error e⟩
  | none => inOrder ts

end Timed

/-- A mutation with the owner of the interceptors that apply to it, if there are any. -/
structure Member (ρ : Type) where
  mutation : Mutation
  owner : Option ρ
  deriving DecidableEq

/-- Interceptors by what they act on, each kind in order of registration. Those of type `ρ` own
interceptors, so that a cascade can produce mutations which cascade again. Interceptors of requests and cascades go by
what they are given; those that use the engine themselves are `Hooks`. -/
structure Registry (σ ρ : Type) where
  onWrite : List (Write → Except Error Write) := []
  onDelete : List (Deletion → Except Error Deletion) := []
  onRead : List (Read → Except Error Read) := []
  onRows : List (Read → Rows → Op σ Rows) := []
  cascadesOnWrite : List (Write → Timed (List (Member ρ))) := []
  cascadesOnDelete : List (Deletion → Timed (List (Member ρ))) := []

namespace Registry

variable {σ ρ : Type}

def isEmpty (r : Registry σ ρ) : Bool :=
  r.onWrite.isEmpty && r.onDelete.isEmpty && r.onRead.isEmpty && r.onRows.isEmpty &&
    r.cascadesOnWrite.isEmpty && r.cascadesOnDelete.isEmpty

def append (r s : Registry σ ρ) : Registry σ ρ where
  onWrite := r.onWrite ++ s.onWrite
  onDelete := r.onDelete ++ s.onDelete
  onRead := r.onRead ++ s.onRead
  onRows := r.onRows ++ s.onRows
  cascadesOnWrite := r.cascadesOnWrite ++ s.cascadesOnWrite
  cascadesOnDelete := r.cascadesOnDelete ++ s.cascadesOnDelete

/-- Each interceptor receives what the one before it made. -/
def applyWrite (r : Registry σ ρ) (w : Write) : Except Error Write :=
  r.onWrite.foldlM (fun w f => f w) w

def applyDelete (r : Registry σ ρ) (d : Deletion) : Except Error Deletion :=
  r.onDelete.foldlM (fun d f => f d) d

def applyRead (r : Registry σ ρ) (q : Read) : Except Error Read :=
  r.onRead.foldlM (fun q f => f q) q

def applyRows (r : Registry σ ρ) (q : Read) (rows : Rows) : Op σ Rows :=
  r.onRows.foldlM (fun rows f => f q rows) rows

/-- The mutations of all cascades, in order of registration. -/
def gather (cascades : List (Timed (List (Member ρ)))) : Timed (List (Member ρ)) :=
  let t := Timed.all cascades
  ⟨t.delay, t.outcome.map List.flatten⟩

def cascadeWrite (r : Registry σ ρ) (w : Write) : Timed (List (Member ρ)) :=
  gather (r.cascadesOnWrite.map fun f => f w)

def cascadeDelete (r : Registry σ ρ) (d : Deletion) : Timed (List (Member ρ)) :=
  gather (r.cascadesOnDelete.map fun f => f d)

/-- How many interceptors there are of each kind. -/
def describe (r : Registry σ ρ) : String :=
  let field (name : String) (n : Nat) := name ++ ": " ++ toString n
  "InterceptorRegistry \x7b " ++ ", ".intercalate
    [field "write_requests" r.onWrite.length, field "delete_requests" r.onDelete.length,
      field "read_requests" r.onRead.length, field "read_responses" r.onRows.length,
      field "cascades_on_write" r.cascadesOnWrite.length,
      field "cascades_on_delete" r.cascadesOnDelete.length] ++ " \x7d"

end Registry
end WideColumn
