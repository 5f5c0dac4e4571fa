import WideColumn.Codec.Basic
import WideColumn.Proofs.Collection.SortedMap
import WideColumn.Proofs.Plan.Binder

/-!
What callers write reads back as it was. Their types, the ways in which these are written and read, and
the types of the columns for them are all built from a few scalars by lists, sets and maps.
-/
namespace WideColumn

open Outcome

section Order

variable {α : Type u} {β : Type v} [Ord β]

theorem transCmp_on [Std.TransOrd β] (f : α → β) : Std.TransCmp fun x y => compare (f x) (f y) where
  eq_swap {x y} := @Std.OrientedCmp.eq_swap β compare _ (f x) (f y)
  isLE_trans {x y z} := @Std.TransCmp.isLE_trans β compare _ (f x) (f y) (f z)

theorem lawfulEqCmp_on [Std.LawfulEqOrd β] (f : α → β) (inj : ∀ {x y}, f x = f y → x = y) :
    Std.LawfulEqCmp fun x y => compare (f x) (f y) where
  compare_self {x} := @Std.ReflCmp.compare_self β compare _ (f x)
  eq_of_compare {x y} h := inj (@Std.LawfulEqCmp.eq_of_compare β compare _ (f x) (f y) h)

instance : Ord Uuid := ⟨fun u v => compare u.value v.value⟩

instance : Std.TransOrd Uuid := transCmp_on Uuid.value

instance : Std.LawfulEqOrd Uuid :=
  lawfulEqCmp_on Uuid.value fun same => Uuid.toNat_inj (congrArg BitVec.toNat same)

instance [Ord α] : Ord (SortedSet α) := ⟨fun s t => compare s.toList t.toList⟩

instance [Ord α] [Std.TransOrd α] : Std.TransOrd (SortedSet α) := transCmp_on SortedSet.toList

instance [Ord α] [Std.LawfulEqOrd α] : Std.LawfulEqOrd (SortedSet α) :=
  lawfulEqCmp_on SortedSet.toList SortedSet.ext

/-- An entry before another by its key, and if that is the same by its value. -/
local instance entryOrd [Ord α] : Ord (α × β) := lexOrd

instance [Ord α] : Ord (SortedMap α β) := ⟨fun m n => compare m.toList n.toList⟩

instance [Ord α] [Std.TransOrd α] [Std.TransOrd β] : Std.TransOrd (SortedMap α β) :=
  have : Std.TransOrd (α × β) := inferInstanceAs (@Std.TransOrd _ lexOrd)
  transCmp_on SortedMap.toList

instance [Ord α] [Std.LawfulEqOrd α] [Std.LawfulEqOrd β] : Std.LawfulEqOrd (SortedMap α β) :=
  have : Std.LawfulEqOrd (α × β) := inferInstanceAs (@Std.LawfulEqOrd _ lexOrd)
  lawfulEqCmp_on SortedMap.toList SortedMap.ext

end Order

/-- A type of callers: the order of its values, how they are written and read, the type of the columns
that they go into, and whether they are free of empty collections. -/
structure Host where
  Carrier : Type
  [ord : Ord Carrier]
  [trans : Std.TransOrd Carrier]
  [lawful : Std.LawfulEqOrd Carrier]
  codec : Codec Carrier
  column : ColumnType
  isFull : Carrier → Bool

attribute [instance] Host.ord Host.trans Host.lawful

namespace Host

def scalar {α : Type} [Ord α] [Std.TransOrd α] [Std.LawfulEqOrd α] (codec : Codec α)
    (column : ColumnType) : Host where
  Carrier := α
  codec := codec
  column := column
  isFull _ := true

def list (element : Host) : Host where
  Carrier := List element.Carrier
  codec := Codec.list element.codec
  column := .list element.column
  isFull xs := !xs.isEmpty && xs.all element.isFull

def set (element : Host) : Host where
  Carrier := SortedSet element.Carrier
  codec := Codec.set element.codec
  column := .set element.column
  isFull s := !s.toList.isEmpty && s.toList.all element.isFull

def map (key value : Host) : Host where
  Carrier := SortedMap key.Carrier value.Carrier
  codec := Codec.map key.codec value.codec
  column := .map key.column value.column
  isFull m := !m.isEmpty && m.toList.all fun e => key.isFull e.1 && value.isFull e.2

end Host

inductive HostType
  | bool | int32 | int64 | text | bytes | uuid
  | list (element : HostType)
  | set (element : HostType)
  | map (key value : HostType)

def HostType.host : HostType → Host
  | bool => .scalar Codec.bool .boolean
  | int32 => .scalar Codec.int32 .int
  | int64 => .scalar Codec.int64 .bigint
  | text => .scalar Codec.text .text
  | bytes => .scalar Codec.bytes .blob
  | uuid => .scalar Codec.uuid .uuid
  | list element => element.host.list
  | set element => element.host.set
  | map key value => key.host.map value.host

namespace Codec

/-- In a column of the type the value takes a form that is read back as the value. -/
def Keeps {α : Type} (c : Codec α) (b : Binder) (type : ColumnType) (x : α) : Prop :=
  ∀ column, ∃ d, b.convert (c.encode x) column type = .ok d ∧ ∀ name, c.decode name d = .ok x

variable {α κ : Type} {c : Codec α} {k : Codec κ} {b : Binder} {type key : ColumnType}

theorem keeps_list {xs : List α} (some : xs ≠ []) (each : ∀ x ∈ xs, c.Keeps b type x) :
    (list c).Keeps b (.list type) xs := by
  intro column
  obtain ⟨ds, stored, back⟩ := exists_mapM_inverse fun x hx => each x hx column
  refine ⟨.list ds, ?_, back⟩
  have items : b.convertItems (xs.map c.encode) column type = .ok ds := by
    rw [Binder.convertItems_eq_mapM, List.mapM_map]
    exact stored
  show b.convert (.list (xs.map c.encode)) column (.list type) = _
  rw [Binder.convert, if_neg (by simpa using some), items]
  rfl

/-- The store has the members in an order of its own, and reading puts them back into that of the
caller. -/
theorem keeps_set [Ord α] [Std.TransOrd α] [Std.LawfulEqOrd α] {s : SortedSet α} (some : s.toList ≠ [])
    (each : ∀ x ∈ s.toList, c.Keeps b type x) : (set c).Keeps b (.set type) s := by
  intro column
  obtain ⟨ds, stored, back⟩ := exists_mapM_inverse fun x hx => each x hx column
  refine ⟨Binder.asSet ds, ?_, fun name => ?_⟩
  · have items : b.convertItems (s.toList.map c.encode) column type = .ok ds := by
      rw [Binder.convertItems_eq_mapM, List.mapM_map]
      exact stored
    show b.convert (.set (s.toList.map c.encode)) column (.set type) = _
    rw [Binder.convert, if_neg (by simpa using some), items]
    rfl
  · obtain ⟨xs, sorted, same⟩ := mapM_rearranged (back name) fun d => SortedSet.mem_ofList
    show (do return SortedSet.ofList (← (SortedSet.ofList ds).toList.mapM (c.decode name))) = _
    rw [sorted]
    exact congrArg Except.ok (SortedSet.ofList_eq same)

theorem keeps_map [Ord κ] [Std.TransOrd κ] [Std.LawfulEqOrd κ] {m : SortedMap κ α}
    (some : m.toList ≠ []) (each : ∀ e ∈ m.toList, k.Keeps b key e.1 ∧ c.Keeps b type e.2) :
    (map k c).Keeps b (.map key type) m := by
  intro column
  have entry : ∀ e ∈ m.toList, ∃ d : Datum × Datum,
      (return (← b.convert (k.encode e.1) column key, ← b.convert (c.encode e.2) column type) :
        Except Error (Datum × Datum)) = .ok d ∧
      ∀ name, (return (← k.decode name d.1, ← c.decode name d.2) : Except DecodeFailure (κ × α)) =
        .ok e := by
    intro e he
    obtain ⟨x, keyed, unkeyed⟩ := (each e he).1 column
    obtain ⟨y, valued, unvalued⟩ := (each e he).2 column
    refine ⟨(x, y), ?_, fun name => ?_⟩
    · rw [keyed, valued]
      rfl
    · rw [unkeyed, unvalued]
      rfl
  obtain ⟨es, stored, back⟩ := exists_mapM_inverse entry
  refine ⟨.map es, ?_, fun name => ?_⟩
  · have entries : b.convertEntries (m.toList.map fun e => (k.encode e.1, c.encode e.2)) column key type =
        .ok es := by
      rw [Binder.convertEntries_eq_mapM, List.mapM_map]
      exact stored
    show b.convert (.map (m.toList.map fun e => (k.encode e.1, c.encode e.2))) column (.map key type) = _
    rw [Binder.convert, if_neg (by simpa using some), entries]
    rfl
  · show (do
      let es ← es.mapM fun e : Datum × Datum => return (← k.decode name e.1, ← c.decode name e.2)
      return SortedMap.ofList es) = _
    rw [back name]
    exact congrArg Except.ok m.ofList_toList

end Codec

/-- A column of the type for it keeps any value that has no empty collection. -/
theorem HostType.keeps (t : HostType) {b : Binder} {x : t.host.Carrier} (full : t.host.isFull x = true) :
    t.host.codec.Keeps b t.host.column x := by
  induction t with
  | bool | int32 | int64 | text | bytes | uuid => exact fun _ => ⟨_, rfl, fun _ => rfl⟩
  | list element ih =>
    obtain ⟨some, each⟩ := Bool.and_eq_true_iff.mp full
    have some : x ≠ [] := fun none => by simp [none] at some
    exact Codec.keeps_list some fun y hy => ih (List.all_eq_true.mp each y hy)
  | set element ih =>
    obtain ⟨some, each⟩ := Bool.and_eq_true_iff.mp full
    have some : x.toList ≠ [] := fun none => by simp [none] at some
    exact Codec.keeps_set some fun y hy => ih (List.all_eq_true.mp each y hy)
  | map key value keys values =>
    obtain ⟨some, each⟩ := Bool.and_eq_true_iff.mp full
    have some : x.toList ≠ [] := fun none => by simp [SortedMap.isEmpty, none] at some
    refine Codec.keeps_map some fun e he => ?_
    obtain ⟨keyed, valued⟩ := Bool.and_eq_true_iff.mp (List.all_eq_true.mp each e he)
    exact ⟨keys keyed, values valued⟩

/-- Bound to a column of the type for it, a value without empty collections is taken, and what the column
is given reads back as the value. -/
theorem HostType.written_reads_back (t : HostType) {b : Binder} {name : String} {c : Column}
    (declared : b.column name = .ok c) (suits : c.type = t.host.column) {x : t.host.Carrier}
    (full : t.host.isFull x = true) :
    ∃ d, b.bind name (t.host.codec.encode x) = .ok d ∧ ∀ label, t.host.codec.decode label d = .ok x := by
  obtain ⟨d, stored, back⟩ := t.keeps full name
  refine ⟨d, bind_eq_ok.mpr ⟨c, declared, ?_⟩, back⟩
  rw [suits]
  exact stored

/-- Sets of lists under texts, given in no order. -/
theorem HostType.nested_sets_read_back :
    let t : HostType := .map .text (.set (.list .int32))
    let b : Binder := ⟨⟨⟨⟨"k", "a"⟩, [⟨"id", .int, .partitionKey⟩,
      ⟨"marks", .map .text (.set (.list .int)), .regular⟩]⟩, 0⟩, []⟩
    let entries : List (String × SortedSet (List Int32)) :=
      [("it's", .ofList [[2, 1], [-1], [2]]), ("", .ofList [[3]])]
    let x : t.host.Carrier := SortedMap.ofList entries
    ∃ d, b.bind "marks" (t.host.codec.encode x) = .ok d ∧
      d = .map [(.text "", .set [.list [.int 3]]),
        (.text "it's", .set [.list [.int (-1)], .list [.int 2], .list [.int 2, .int 1]])] ∧
      ∀ label, t.host.codec.decode label d = .ok x := by
  intro t b entries x
  have declared : b.column "marks" = .ok ⟨"marks", .map .text (.set (.list .int)), .regular⟩ := rfl
  have full : t.host.isFull x = true := by decide +kernel
  obtain ⟨d, bound, back⟩ := t.written_reads_back declared rfl full
  have cell : d = .map [(.text "", .set [.list [.int 3]]),
      (.text "it's", .set [.list [.int (-1)], .list [.int 2], .list [.int 2, .int 1]])] :=
    Except.ok.inj (bound.symm.trans rfl)
  exact ⟨d, bound, cell, back⟩

end WideColumn
