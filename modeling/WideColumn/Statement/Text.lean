import WideColumn.Datum.Literal
import WideColumn.Statement.Basic

/-!
Statement text as a row of pieces. The same pieces give both forms of a statement: with markers and
the values beside them, or with the values written into the text.
-/
namespace WideColumn

/-- How values reach the statement text. -/
inductive Binding
  | markers | literals
  deriving DecidableEq, Inhabited

inductive Piece
  | chars (cs : List Char)
  | slot (value : Datum)
  /-- A signed amount to be added to what stands before it. -/
  | amount (delta : Int64)
  deriving DecidableEq

namespace Piece

def word (s : String) : Piece := .chars s.toList

/-- A name, quoted where needed. -/
def name (s : String) : Piece := .chars (Identifier.quote s)

def value? : Piece → Option Datum
  | chars _ => none
  | slot v => some v
  | amount d => some (.bigint d)

def render : Binding → Piece → List Char
  | _, chars cs => cs
  | .markers, slot _ => ['?']
  | .literals, slot v => v.literal
  | .markers, amount _ => ['+', ' ', '?']
  | .literals, amount d =>
    (if d.toInt < 0 then ['-', ' '] else ['+', ' ']) ++ Nat.toDigits 10 d.toInt.natAbs

end Piece

open Piece (word name)

/-- The parts with a separator between them. -/
def separated (separator : String) (parts : List (List Piece)) : List Piece :=
  [.chars separator.toList].intercalate parts

/-- A clause that is left out when it has no parts. -/
def optional (keyword separator : String) (parts : List (List Piece)) : List Piece :=
  if parts.isEmpty then [] else .chars keyword.toList :: separated separator parts

def Relation.pieces : Relation → List Piece
  | compare c op v => [name c, word " ", word op.symbol, word " ", .slot v]
  | isIn c vs => [name c, word " IN ("] ++ separated ", " (vs.map fun v => [.slot v]) ++ [word ")"]

def Assignment.pieces (a : Assignment) : List Piece :=
  let c := name a.column
  match a.change with
  | .set => [c, word " = ", .slot a.value]
  | .add => [c, word " = ", c, word " + ", .slot a.value]
  | .discard => [c, word " = ", c, word " - ", .slot a.value]
  | .prepend => [c, word " = ", .slot a.value, word " + ", c]

def ttlPieces : Option Int32 → List Piece
  | none => []
  | some seconds => [word " USING TTL ", .slot (.int seconds)]

def Insertion.pieces (s : Insertion) : List Piece :=
  [word "INSERT INTO ", .chars s.table.cql, word " ("] ++
    separated ", " (s.cells.map fun c => [name c.1]) ++ [word ") VALUES ("] ++
    separated ", " (s.cells.map fun c => [.slot c.2]) ++ [word ")"] ++
    (if s.ifNotExists then [word " IF NOT EXISTS"] else []) ++ ttlPieces s.ttl

def RowUpdate.pieces (s : RowUpdate) : List Piece :=
  [word "UPDATE ", .chars s.table.cql] ++ ttlPieces s.ttl ++ [word " SET "] ++
    separated ", " (s.assignments.map Assignment.pieces) ++ [word " WHERE "] ++
    separated " AND " (s.relations.map Relation.pieces) ++
    optional " IF " " AND " (s.onlyIf.map Relation.pieces)

def CounterMove.pieces (s : CounterMove) : List Piece :=
  [word "UPDATE ", .chars s.table.cql, word " SET ", name s.column, word " = ", name s.column,
    word " ", .amount s.delta, word " WHERE "] ++
    separated " AND " (s.relations.map Relation.pieces)

def RowDelete.pieces (s : RowDelete) : List Piece :=
  [word "DELETE FROM ", .chars s.table.cql, word " WHERE "] ++
    separated " AND " (s.relations.map Relation.pieces) ++
    (if s.ifExists then [word " IF EXISTS"]
      else optional " IF " " AND " (s.onlyIf.map Relation.pieces))

def projected (column : String × Bool) : List (List Piece) :=
  let c := name column.1
  [c] :: if column.2 then [[word "WRITETIME(", c, word ")"], [word "TTL(", c, word ")"]] else []

def Selection.pieces (s : Selection) : List Piece :=
  word "SELECT " :: (if s.distinct then [word "DISTINCT "] else []) ++
    (match s.projection with
      | none => [word "*"]
      | some columns => separated ", " (columns.flatMap projected)) ++
    [word " FROM ", .chars s.table.cql] ++
    optional " WHERE " " AND " (s.relations.map Relation.pieces) ++
    (match s.limit with
      | none => []
      | some n => [word " LIMIT ", .slot (.int n)]) ++
    (if s.allowFiltering then [word " ALLOW FILTERING"] else [])

namespace Statement

def pieces : Statement → List Piece
  | insert s => s.pieces
  | update s => s.pieces
  | counter s => s.pieces
  | delete s => s.pieces
  | select s => s.pieces

def render (b : Binding) (s : Statement) : List Char := s.pieces.flatMap (Piece.render b)

def text (b : Binding) (s : Statement) : String := String.ofList (s.render b)

/-- The values that are sent beside the text. -/
def values : Binding → Statement → List Datum
  | .markers, s => s.pieces.filterMap Piece.value?
  | .literals, _ => []

end Statement
end WideColumn
