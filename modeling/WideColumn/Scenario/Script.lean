import WideColumn.Store.Basic

/-!
A store that answers as it has been told to: statements from a queue of pages and faults, questions
about the schema from the tables and types it was given.
-/
namespace WideColumn

structure Script where
  /-- Answers to the next statements; after them every answer is an empty page. -/
  answers : List (Except Fault Page) := []
  /-- What the next preparations fail with. -/
  prepareFaults : List Fault := []
  /-- What every question about the schema fails with. -/
  describeFault : Option Fault := none
  tables : List Table := []
  types : List UserType := []
  /-- How many statements have been prepared. -/
  prepared : Nat := 0

namespace Script

def putTable (s : Script) (t : Table) : Script :=
  { s with tables := t :: s.tables.filter (·.id ≠ t.id) }

def dropTable (s : Script) (id : TableId) : Script :=
  { s with tables := s.tables.filter (·.id ≠ id) }

def putType (s : Script) (t : UserType) : Script :=
  { s with types := t :: s.types.filter (·.name ≠ t.name) }

def dropType (s : Script) (name : TypeName) : Script :=
  { s with types := s.types.filter (·.name ≠ name) }

def respond (s : Script) (answers : List (Except Fault Page)) : Script :=
  { s with answers := s.answers ++ answers }

def failPrepare (s : Script) (fault : Fault) : Script :=
  { s with prepareFaults := s.prepareFaults ++ [fault] }

def failDescribe (s : Script) (fault : Option Fault) : Script := { s with describeFault := fault }

def answer (s : Script) : Except Fault Page × Script :=
  match s.answers with
  | [] => (.ok {}, s)
  | a :: rest => (a, { s with answers := rest })

/-- Identifiers count the statements prepared so far. -/
def prepare (s : Script) (text : String) : Except Fault Prepared × Script :=
  match s.prepareFaults with
  | fault :: rest => (.error fault, { s with prepareFaults := rest })
  | [] => (.ok ⟨s!"stmt-{s.prepared}", text⟩, { s with prepared := s.prepared + 1 })

def describe (s : Script) (known : Option α) : Except Fault (Option α) × Script :=
  match s.describeFault with
  | some fault => (.error fault, s)
  | none => (.ok known, s)

instance : Store Script where
  execute _ _ s := s.answer
  prepare text s := s.prepare text
  describeTable id s := s.describe (s.tables.find? (·.id = id))
  describeType name s := s.describe (s.types.find? (·.name = name))
  pagesToCome s := s.answers.length
  typeCount s := s.types.length

instance : LawfulStore Script where
  pagesToCome_lt {request options s t page} h more := by
    have h : s.answer = (.ok page, t) := h
    unfold answer at h
    split at h
    · obtain ⟨h, rfl⟩ := Prod.mk.inj h
      cases h
      simp at more
    · rename_i queued
      obtain ⟨-, rfl⟩ := Prod.mk.inj h
      simp [Store.pagesToCome, queued]
  types_bounded s := by
    refine ⟨s.types.map (·.name), by simp [Store.typeCount], fun name type t h => ?_⟩
    have h : s.describe (s.types.find? (·.name = name)) = (.ok (some type), t) := h
    unfold describe at h
    split at h
    · cases h
    · have found := Except.ok.inj (Prod.mk.inj h).1
      have same := List.find?_some found
      exact List.mem_map.2 ⟨type, List.mem_of_find?_eq_some found, by simpa using same⟩

end Script
end WideColumn
