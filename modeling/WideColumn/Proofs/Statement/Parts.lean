import WideColumn.Proofs.Schema.Identifier
import WideColumn.Proofs.Statement.Clauses
import WideColumn.Proofs.Statement.Shape

/-!
The parts of a statement can be read off its text with markers, whatever names they have and whatever
follows them there.
-/
namespace WideColumn

/-- The text of a row of pieces with markers for the values. -/
def marked (ps : List Piece) : List Char := ps.flatMap (Piece.render .markers)

section Marked

@[simp] theorem marked_nil : marked [] = [] := rfl

@[simp] theorem marked_append (ps qs : List Piece) : marked (ps ++ qs) = marked ps ++ marked qs :=
  List.flatMap_append

@[simp] theorem marked_chars (cs : List Char) (ps : List Piece) :
    marked (.chars cs :: ps) = cs ++ marked ps := rfl

@[simp] theorem marked_word (w : String) (ps : List Piece) :
    marked (.word w :: ps) = w.toList ++ marked ps := rfl

@[simp] theorem marked_name (n : String) (ps : List Piece) :
    marked (.name n :: ps) = Identifier.quote n ++ marked ps := rfl

@[simp] theorem marked_slot (v : Datum) (ps : List Piece) :
    marked (.slot v :: ps) = '?' :: marked ps := rfl

@[simp] theorem marked_amount (d : Int64) (ps : List Piece) :
    marked (.amount d :: ps) = "+ ?".toList ++ marked ps := rfl

theorem marked_separated (sep : String) (parts : List (List Piece)) :
    marked (separated sep parts) = sep.toList.intercalate (parts.map marked) :=
  rendered_separated sep parts

end Marked

section Parts

variable {s t : List Char}

/-- Where the markers of a list end, their number can be told. -/
theorem slots_append_inj {vs us : List Datum}
    (h : marked (separated ", " (vs.map fun v => [.slot v])) ++ (")".toList ++ s) =
      marked (separated ", " (us.map fun v => [.slot v])) ++ (")".toList ++ t)) :
    vs.map (fun _ => Datum.null) = us.map (fun _ => Datum.null) ∧ s = t := by
  have closes (r : List Char) (xs : List Datum) : Closes (fun _ : Datum => ['?']) (fun _ => True)
      ", ".toList (")".toList ++ r) xs :=
    ⟨trivial, not_isPrefix_append (by decide) r,
      fun _ _ => append_ne_append (by decide) _⟩
  have inj : ∀ p ∈ vs.zip us, ∀ s t : List Char, True → True → ['?'] ++ s = ['?'] ++ t →
      Datum.null = Datum.null ∧ s = t := by simp
  rw [marked_separated, marked_separated, List.map_map, List.map_map] at h
  obtain ⟨hv, hst⟩ : vs.map (fun _ => Datum.null) = us.map (fun _ => Datum.null) ∧
      ")".toList ++ s = ")".toList ++ t :=
    intercalate_append_inj inj (fun _ => trivial) (closes s us) (closes t vs) h
  exact ⟨hv, List.append_cancel_left hst⟩

namespace Relation

variable {r q : Relation}

/-- What stands after the column. -/
def test : Relation → List Char
  | compare _ op _ => " ".toList ++ (op.symbol.toList ++ " ?".toList)
  | isIn _ vs => " IN (".toList ++
      (marked (separated ", " (vs.map fun v => [.slot v])) ++ ")".toList)

theorem marked_pieces (r : Relation) :
    marked r.pieces = Identifier.quote r.column ++ r.test := by
  cases r with
  | compare c op v => rfl
  | isIn c vs =>
    simp only [pieces, test, column, marked_append, marked_name, marked_word, marked_nil,
      List.append_assoc, List.append_nil]

theorem test_ends (r : Relation) (s : List Char) : Stops Identifier.goesOn (r.test ++ s) := by
  cases r <;> exact .cons (by decide)

theorem symbol_append_inj {op op' : Comparison}
    (h : op.symbol.toList ++ (" ?".toList ++ s) = op'.symbol.toList ++ (" ?".toList ++ t)) :
    op = op' ∧ s = t := by
  cases op <;> cases op' <;> cases h <;> exact ⟨rfl, rfl⟩

/-- No comparison is written like the membership in a list. -/
theorem symbol_ne_membership (op : Comparison) :
    " ".toList ++ (op.symbol.toList ++ s) ≠ " IN (".toList ++ t := by
  cases op <;> nofun

theorem test_append_inj (hc : r.column = q.column) (h : r.test ++ s = q.test ++ t) :
    r.shape = q.shape ∧ s = t := by
  cases r <;> cases q <;> simp only [test, column, List.append_assoc] at h hc
  case compare.compare c op v d op' u =>
    obtain ⟨hop, hst⟩ := symbol_append_inj (List.append_cancel_left h)
    exact ⟨by rw [shape, shape, hc, hop], hst⟩
  case isIn.isIn c vs d us =>
    obtain ⟨hv, hst⟩ := slots_append_inj (List.append_cancel_left h)
    exact ⟨by rw [shape, shape, hc, hv], hst⟩
  case compare.isIn => exact (symbol_ne_membership _ h).elim
  case isIn.compare => exact (symbol_ne_membership _ h.symm).elim

theorem marked_append_inj (h : marked r.pieces ++ s = marked q.pieces ++ t) :
    r.shape = q.shape ∧ s = t := by
  rw [marked_pieces, marked_pieces, List.append_assoc, List.append_assoc] at h
  obtain ⟨hc, h⟩ := Identifier.quote_append_inj (r.test_ends s) (q.test_ends t) h
  exact test_append_inj hc h

end Relation

/-- What may follow a list of relations. -/
def EndsRelations (s : List Char) : Prop := Stops Identifier.goesOn s ∧ ¬ " AND ".toList <+: s

theorem EndsRelations.append {w : List Char}
    (hw : (w.head?.any fun c => !Identifier.goesOn c) = true)
    (ha : ¬ " AND ".toList <+: w ∧ ¬ w <+: " AND ".toList) (s : List Char) :
    EndsRelations (w ++ s) :=
  ⟨.append hw s, not_isPrefix_append ha s⟩

/-- Relations end where no further one is joined to them. -/
theorem relations_append_inj {rs qs : List Relation} (hs : EndsRelations s) (ht : EndsRelations t)
    (h : marked (separated " AND " (rs.map Relation.pieces)) ++ s =
      marked (separated " AND " (qs.map Relation.pieces)) ++ t) :
    rs.map Relation.shape = qs.map Relation.shape ∧ s = t := by
  have closes {r : List Char} (hr : EndsRelations r) (xs : List Relation) :
      Closes (marked ∘ Relation.pieces) (fun _ => True) " AND ".toList r xs := by
    refine ⟨trivial, hr.2, fun x _ u => ?_⟩
    rw [Function.comp_apply, x.marked_pieces, List.append_assoc]
    exact Identifier.ne_quote_append hr.1 _ _
  rw [marked_separated, marked_separated, List.map_map, List.map_map] at h
  exact intercalate_append_inj (fun _ _ _ _ _ _ h => Relation.marked_append_inj h)
    (fun _ => trivial) (closes hs qs) (closes ht rs) h

theorem marked_optional_cons (keyword : String) (r : Relation) (rs : List Relation) :
    ∃ u, marked (optional keyword " AND " ((r :: rs).map Relation.pieces)) =
      keyword.toList ++ (Identifier.quote r.column ++ u) := by
  rw [optional, List.map_cons, List.isEmpty_cons, if_neg (by decide), marked_chars,
    marked_separated, List.map_cons, intercalate_cons, r.marked_pieces, List.append_assoc]
  exact ⟨_, rfl⟩

/-- A clause of relations is left out if there are none, and nothing else begins as it does. -/
theorem optional_append_inj {keyword : String} {rs qs : List Relation} (hs : EndsRelations s)
    (ht : EndsRelations t) (ks : ¬ keyword.toList <+: s) (kt : ¬ keyword.toList <+: t)
    (h : marked (optional keyword " AND " (rs.map Relation.pieces)) ++ s =
      marked (optional keyword " AND " (qs.map Relation.pieces)) ++ t) :
    rs.map Relation.shape = qs.map Relation.shape ∧ s = t := by
  cases rs with
  | nil =>
    cases qs with
    | nil => exact ⟨rfl, h⟩
    | cons q qs => exact (ks ⟨_, (by simpa [optional] using h.symm)⟩).elim
  | cons r rs =>
    cases qs with
    | nil => exact (kt ⟨_, (by simpa [optional] using h)⟩).elim
    | cons q qs =>
      refine relations_append_inj hs ht ?_
      simpa only [optional, List.map_cons, List.isEmpty_cons, Bool.false_eq_true, ↓reduceIte,
        marked_chars, List.append_assoc, List.append_cancel_left_eq] using h

/-- What stands to the right of the sign of equality. -/
def Assignment.operand (a : Assignment) : List Char :=
  match a.change with
  | .set => ['?']
  | .add => Identifier.quote a.column ++ " + ?".toList
  | .discard => Identifier.quote a.column ++ " - ?".toList
  | .prepend => '?' :: " + ".toList ++ Identifier.quote a.column

theorem Assignment.marked_pieces (a : Assignment) :
    marked a.pieces = Identifier.quote a.column ++ (" = ".toList ++ a.operand) := by
  obtain ⟨c, op, v⟩ := a
  cases op <;> simp [pieces, operand]

/-- What may follow a list of assignments. -/
def EndsAssignment (s : List Char) : Prop := Stops Identifier.goesOn s ∧ ¬ " + ".toList <+: s

/-- A column that is read again is added to or taken from; a marker is assigned or, with the column
after it, put before what the column holds. -/
private theorem operand_append_inj {c : String} {op op' : Change} {v u : Datum}
    (hs : EndsAssignment s) (ht : EndsAssignment t)
    (h : Assignment.operand ⟨c, op, v⟩ ++ s = Assignment.operand ⟨c, op', u⟩ ++ t) :
    op = op' ∧ s = t := by
  have no_name (r w : List Char) : '?' :: r ≠ Identifier.quote c ++ w :=
    Identifier.ne_quote_append (.cons (by decide)) c w
  cases op <;> cases op' <;>
    simp only [Assignment.operand, List.append_assoc, List.cons_append, List.nil_append] at h
  case set.set => exact ⟨rfl, (List.cons.inj h).2⟩
  case set.prepend => exact (hs.2 ⟨_, (List.cons.inj h).2.symm⟩).elim
  case prepend.set => exact (ht.2 ⟨_, (List.cons.inj h).2⟩).elim
  case prepend.prepend =>
    have h := List.append_cancel_left (List.cons.inj h).2
    exact ⟨rfl, List.append_cancel_left h⟩
  case set.add | set.discard | prepend.add | prepend.discard => exact (no_name _ _ h).elim
  case add.set | add.prepend | discard.set | discard.prepend => exact (no_name _ _ h.symm).elim
  case add.discard | discard.add => cases List.append_cancel_left h
  case add.add | discard.discard =>
    cases List.append_cancel_left h
    exact ⟨rfl, rfl⟩

theorem Assignment.marked_append_inj {a b : Assignment} (hs : EndsAssignment s)
    (ht : EndsAssignment t) (h : marked a.pieces ++ s = marked b.pieces ++ t) :
    a.shape = b.shape ∧ s = t := by
  obtain ⟨c, op, v⟩ := a
  obtain ⟨d, op', u⟩ := b
  rw [marked_pieces, marked_pieces, List.append_assoc, List.append_assoc, List.append_assoc,
    List.append_assoc] at h
  obtain ⟨rfl, hc⟩ := Identifier.quote_append_inj (.append (by decide) _) (.append (by decide) _) h
  obtain ⟨hop, hst⟩ := operand_append_inj hs ht (List.append_cancel_left hc)
  exact ⟨by rw [shape, shape, hop], hst⟩

theorem assignments_append_inj {as bs : List Assignment}
    (h : marked (separated ", " (as.map Assignment.pieces)) ++ (" WHERE ".toList ++ s) =
      marked (separated ", " (bs.map Assignment.pieces)) ++ (" WHERE ".toList ++ t)) :
    as.map Assignment.shape = bs.map Assignment.shape ∧ s = t := by
  have where_ends (r : List Char) : EndsAssignment (" WHERE ".toList ++ r) :=
    ⟨.append (by decide) r, not_isPrefix_append (by decide) r⟩
  have closes (r : List Char) (xs : List Assignment) :
      Closes (marked ∘ Assignment.pieces) EndsAssignment ", ".toList (" WHERE ".toList ++ r) xs := by
    refine ⟨where_ends r, not_isPrefix_append (by decide) r, fun x _ u => ?_⟩
    rw [Function.comp_apply, Assignment.marked_pieces, List.append_assoc]
    exact Identifier.ne_quote_append (where_ends r).1 _ _
  have comma_ends (r : List Char) : EndsAssignment (", ".toList ++ r) :=
    ⟨.append (by decide) r, not_isPrefix_append (by decide) r⟩
  rw [marked_separated, marked_separated, List.map_map, List.map_map] at h
  obtain ⟨ha, hst⟩ := intercalate_append_inj
    (fun _ _ _ _ hs ht h => Assignment.marked_append_inj hs ht h) comma_ends (closes s bs)
    (closes t as) h
  exact ⟨ha, List.append_cancel_left hst⟩

theorem names_append_inj {cs ds : List (String × Datum)}
    (h : marked (separated ", " (cs.map fun c => [.name c.1])) ++ (") VALUES (".toList ++ s) =
      marked (separated ", " (ds.map fun d => [.name d.1])) ++ (") VALUES (".toList ++ t)) :
    cs.map Prod.fst = ds.map Prod.fst ∧ s = t := by
  have ends (r : List Char) : Stops Identifier.goesOn (") VALUES (".toList ++ r) :=
    .append (by decide) r
  have closes (r : List Char) (xs : List (String × Datum)) :
      Closes (fun x => Identifier.quote x.1) (Stops Identifier.goesOn) ", ".toList
        (") VALUES (".toList ++ r) xs :=
    ⟨ends r, not_isPrefix_append (by decide) r,
      fun x _ => Identifier.ne_quote_append (ends r) x.1⟩
  rw [marked_separated, marked_separated, List.map_map, List.map_map] at h
  simp only [Function.comp_def, marked_name, marked_nil, List.append_nil] at h
  obtain ⟨hn, hst⟩ : cs.map Prod.fst = ds.map Prod.fst ∧
      ") VALUES (".toList ++ s = ") VALUES (".toList ++ t :=
    intercalate_append_inj (fun _ _ _ _ hs ht h => Identifier.quote_append_inj hs ht h)
      (fun r => .append (by decide) r) (closes s ds) (closes t cs) h
  exact ⟨hn, List.append_cancel_left hst⟩

/-- What is asked about a column beside its value. -/
inductive Stamp
  | writeTime | timeToLive

def Stamp.word : Stamp → List Char
  | writeTime => "WRITETIME(".toList
  | timeToLive => "TTL(".toList

/-- A field of a row that a read asks for. -/
inductive Field
  | all
  | value (column : String)
  | stamp (of : Stamp) (column : String)

def Field.text : Field → List Char
  | all => ['*']
  | value c => Identifier.quote c
  | stamp f c => f.word ++ (Identifier.quote c ++ [')'])

def columnFields (c : String × Bool) : List Field :=
  .value c.1 :: if c.2 then [.stamp .writeTime c.1, .stamp .timeToLive c.1] else []

def fields : Option (List (String × Bool)) → List Field
  | none => [.all]
  | some cs => cs.flatMap columnFields

theorem Stamp.word_inj {f g : Stamp} (h : f.word ++ s = g.word ++ t) : f = g ∧ s = t := by
  cases f <;> cases g
  case writeTime.writeTime | timeToLive.timeToLive => exact ⟨rfl, List.append_cancel_left h⟩
  all_goals exact (append_ne_append (by decide) _ _ h).elim

theorem Field.text_append_inj {f g : Field} (hs : Stops Identifier.goesOn s)
    (ht : Stops Identifier.goesOn t) (h : f.text ++ s = g.text ++ t) : f = g ∧ s = t := by
  have star_ends (r : List Char) : Stops Identifier.goesOn (['*'] ++ r) := .append (by decide) r
  have word_ends (f : Stamp) (r : List Char) : Stops Identifier.goesOn (f.word ++ r) :=
    .append (by cases f <;> decide) r
  cases f <;> cases g <;> simp only [text, List.append_assoc] at h
  case all.all => exact ⟨rfl, List.append_cancel_left h⟩
  case value.value c d =>
    obtain ⟨hc, hst⟩ := Identifier.quote_append_inj hs ht h
    exact ⟨by rw [hc], hst⟩
  case stamp.stamp f c g d =>
    obtain ⟨hf, h⟩ := Stamp.word_inj h
    obtain ⟨hc, h⟩ := Identifier.quote_append_inj (.append (by decide) _) (.append (by decide) _) h
    exact ⟨by rw [hf, hc], List.append_cancel_left h⟩
  case all.value => exact (Identifier.ne_quote_append (star_ends _) _ _ h).elim
  case value.all => exact (Identifier.ne_quote_append (star_ends _) _ _ h.symm).elim
  case stamp.value => exact (Identifier.ne_quote_append (word_ends _ _) _ _ h).elim
  case value.stamp => exact (Identifier.ne_quote_append (word_ends _ _) _ _ h.symm).elim
  case all.stamp f _ => exact (append_ne_append (by cases f <;> decide) _ _ h).elim
  case stamp.all f _ => exact (append_ne_append (by cases f <;> decide) _ _ h).elim

private theorem ne_text_append {w : List Char}
    (hw : (w.head?.any fun c => !Identifier.goesOn c && !(['*', 'W', 'T'].contains c)) = true)
    (r : List Char) (f : Field) (u : List Char) : w ++ r ≠ f.text ++ u := by
  cases w with
  | nil => simp at hw
  | cons c w =>
    simp only [List.head?_cons, Option.any_some, Bool.and_eq_true, Bool.not_eq_true'] at hw
    cases f with
    | all =>
      rintro ⟨⟩
      exact absurd hw.2 (by decide)
    | value d => exact Identifier.ne_quote_append (.cons hw.1) _ _
    | stamp f d =>
      intro h
      cases f <;> cases (List.cons.inj h).1 <;> exact absurd hw.2 (by decide)

private theorem columnFields_inj {cs ds : List (String × Bool)}
    (h : cs.flatMap columnFields = ds.flatMap columnFields) : cs = ds := by
  -- A stamp belongs to the value before it, and every column begins with its value.
  have no_stamp (es : List (String × Bool)) (f : Stamp) (c : String) (r : List Field) :
      es.flatMap columnFields ≠ .stamp f c :: r := by
    cases es <;> simp [columnFields]
  induction cs generalizing ds with
  | nil =>
    cases ds with
    | nil => rfl
    | cons d ds => simp [columnFields] at h
  | cons c cs ih =>
    cases ds with
    | nil => simp [columnFields] at h
    | cons d ds =>
      obtain ⟨c, stamped⟩ := c
      obtain ⟨d, stamped'⟩ := d
      simp only [List.flatMap_cons, columnFields, List.cons_append, List.cons.injEq,
        Field.value.injEq] at h
      obtain ⟨rfl, h⟩ := h
      cases stamped <;> cases stamped'
      case false.false => rw [ih (by simpa using h)]
      case true.true => rw [ih (by simpa using h)]
      case false.true => exact (no_stamp _ _ _ _ (by simpa using h)).elim
      case true.false => exact (no_stamp _ _ _ _ (by simpa using h.symm)).elim

private theorem fields_inj {p q : Option (List (String × Bool))} (h : fields p = fields q) :
    p = q := by
  have star (cs : List (String × Bool)) : cs.flatMap columnFields ≠ [.all] := by
    cases cs <;> simp [columnFields]
  cases p <;> cases q
  case none.none => rfl
  case some.some => rw [columnFields_inj h]
  case none.some => exact (star _ h.symm).elim
  case some.none => exact (star _ h).elim

/-- The text of the fields that a read asks for. -/
def projectionText (p : Option (List (String × Bool))) : List Char :=
  ", ".toList.intercalate ((fields p).map Field.text)

theorem marked_projected (cs : List (String × Bool)) :
    marked (separated ", " (cs.flatMap projected)) = projectionText (some cs) := by
  have column (c : String × Bool) : (projected c).map marked = (columnFields c).map Field.text := by
    obtain ⟨c, stamped⟩ := c
    cases stamped <;>
      simp only [projected, columnFields, ↓reduceIte, Bool.false_eq_true, List.map_cons,
        List.map_nil, marked_name, marked_word, marked_nil, List.append_nil] <;>
      rfl
  rw [marked_separated, projectionText, fields, List.map_flatMap, List.map_flatMap]
  simp only [column]

theorem projection_append_inj {p q : Option (List (String × Bool))}
    (h : projectionText p ++ (" FROM ".toList ++ s) = projectionText q ++ (" FROM ".toList ++ t)) :
    p = q ∧ s = t := by
  have closes (r : List Char) (fs : List Field) :
      Closes Field.text (Stops Identifier.goesOn) ", ".toList (" FROM ".toList ++ r) fs :=
    ⟨.append (by decide) r, not_isPrefix_append (by decide) r,
      fun f _ => ne_text_append (by decide) r f⟩
  rw [projectionText, projectionText] at h
  obtain ⟨hf, hst⟩ : (fields p).map id = (fields q).map id ∧
      " FROM ".toList ++ s = " FROM ".toList ++ t :=
    intercalate_append_inj (fun _ _ _ _ hs ht h => Field.text_append_inj hs ht h)
      (fun r => .append (by decide) r) (closes s _) (closes t _) h
  exact ⟨fields_inj (by simpa using hf), List.append_cancel_left hst⟩

theorem distinct_ne_projection (p : Option (List (String × Bool))) :
    "DISTINCT ".toList ++ s ≠ projectionText p ++ (" FROM ".toList ++ t) := by
  rw [projectionText]
  cases fields p with
  | nil =>
    change "DISTINCT ".toList ++ s ≠ " FROM ".toList ++ t
    exact append_ne_append (by decide) _ _
  | cons f fs =>
    rw [List.map_cons, intercalate_cons, List.append_assoc]
    exact ne_text_append (by decide) _ _ _

end Parts

end WideColumn
