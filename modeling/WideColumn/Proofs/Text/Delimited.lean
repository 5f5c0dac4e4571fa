import WideColumn.Text.Quoted

/-!
Texts that tell where they end. From two equal wholes, each a text and what follows it, the texts
are the same and so is what follows.
-/
namespace WideColumn

/-- The text does not begin with a character of the class. -/
def Stops (p : Char → Bool) (s : List Char) : Prop := ∀ c ∈ s.head?, p c = false

namespace Stops

variable {p q : Char → Bool} {a b s t : List Char} {c : Char}

theorem nil : Stops p [] := by simp [Stops]

theorem cons (h : p c = false) : Stops p (c :: s) := by simpa [Stops] using h

theorem of_head (h : (s.head?.all fun c => !p c) = true) : Stops p s := by
  cases s with
  | nil => exact nil
  | cons c s => exact cons (by simpa using h)

theorem append (h : (a.head?.any fun c => !p c) = true) (s : List Char) : Stops p (a ++ s) := by
  cases a with
  | nil => simp at h
  | cons c a => exact cons (by simpa using h)

theorem not_cons (h : Stops p (c :: s)) (hc : p c = true) : False := by
  have := h c rfl
  simp [hc] at this

theorem mono (h : Stops p s) (hq : ∀ c, q c = true → p c = true) : Stops q s := by
  intro c hc
  have hp := h c hc
  cases hqc : q c with
  | false => rfl
  | true => simp [hq c hqc] at hp

/-- A run of characters of one class ends where the class does. -/
theorem append_inj (ha : ∀ c ∈ a, p c = true) (hb : ∀ c ∈ b, p c = true) (hs : Stops p s)
    (ht : Stops p t) (h : a ++ s = b ++ t) : a = b ∧ s = t := by
  induction a generalizing b with
  | nil =>
    cases b with
    | nil => exact ⟨rfl, h⟩
    | cons d b =>
      rw [List.nil_append] at h
      subst h
      exact (hs.not_cons (hb d (by simp))).elim
  | cons c a ih =>
    cases b with
    | nil =>
      rw [List.nil_append] at h
      subst h
      exact (ht.not_cons (ha c (by simp))).elim
    | cons d b =>
      obtain ⟨hcd, h⟩ := List.cons.inj h
      obtain ⟨hab, hst⟩ := ih (fun x hx => ha x (by simp [hx])) (fun x hx => hb x (by simp [hx])) h
      exact ⟨by rw [hcd, hab], hst⟩

end Stops

/-- Two texts neither of which begins the other stay apart whatever follows them. -/
theorem append_ne_append {a b : List Char} (h : ¬ a <+: b ∧ ¬ b <+: a) (s t : List Char) :
    a ++ s ≠ b ++ t := by
  intro heq
  rcases List.prefix_or_prefix_of_prefix (List.prefix_append a s)
    (heq ▸ List.prefix_append b t) with hab | hba
  · exact h.1 hab
  · exact h.2 hba

theorem not_isPrefix_append {a b : List Char} (h : ¬ a <+: b ∧ ¬ b <+: a) (s : List Char) :
    ¬ a <+: b ++ s := by
  rintro ⟨t, ht⟩
  exact append_ne_append h t s ht

section Separated

variable {α β : Type} {code : α → List Char} {key : α → β} {ends : List Char → Prop}
  {sep s t : List Char} {xs ys : List α}

theorem intercalate_cons (a : List Char) (l : List (List Char)) :
    sep.intercalate (a :: l) = a ++ if l = [] then [] else sep ++ sep.intercalate l := by
  cases l <;> simp

/-- What may follow a list whose members are written with a separator between them: it ends a
member, and neither separates it from another one nor begins one. -/
structure Closes (code : α → List Char) (ends : List Char → Prop) (sep s : List Char) (xs : List α) :
    Prop where
  ends : ends s
  not_sep : ¬ sep <+: s
  not_member : ∀ x ∈ xs, ∀ r, s ≠ code x ++ r

/-- If each member tells where it ends, so does a list of them. Only members at the same position are
compared. -/
theorem intercalate_append_inj
    (inj : ∀ p ∈ xs.zip ys, ∀ s t, ends s → ends t → code p.1 ++ s = code p.2 ++ t →
      key p.1 = key p.2 ∧ s = t)
    (hsep : ∀ r, ends (sep ++ r)) (hs : Closes code ends sep s ys) (ht : Closes code ends sep t xs)
    (h : sep.intercalate (xs.map code) ++ s = sep.intercalate (ys.map code) ++ t) :
    xs.map key = ys.map key ∧ s = t := by
  induction xs generalizing ys with
  | nil =>
    cases ys with
    | nil => exact ⟨rfl, by simpa using h⟩
    | cons y ys =>
      rw [List.map_cons, intercalate_cons, List.append_assoc] at h
      exact (hs.not_member y (by simp) _ (by simpa using h)).elim
  | cons x xs ih =>
    cases ys with
    | nil =>
      rw [List.map_cons, intercalate_cons, List.append_assoc] at h
      exact (ht.not_member x (by simp) _ (by simpa using h.symm)).elim
    | cons y ys =>
      rw [List.map_cons, List.map_cons, intercalate_cons, intercalate_cons, List.append_assoc,
        List.append_assoc] at h
      have ending (zs : List α) (r : List Char) (hr : ends r) :
          ends ((if zs.map code = [] then [] else sep ++ sep.intercalate (zs.map code)) ++ r) := by
        split
        · simpa using hr
        · rw [List.append_assoc]
          exact hsep _
      obtain ⟨hxy, h⟩ := inj (x, y) (by simp) _ _ (ending xs s hs.ends) (ending ys t ht.ends) h
      cases xs with
      | nil =>
        cases ys with
        | nil => exact ⟨by simp [hxy], by simpa using h⟩
        | cons z ys =>
          refine (hs.not_sep ?_).elim
          exact ⟨sep.intercalate ((z :: ys).map code) ++ t, by simpa using h.symm⟩
      | cons w xs =>
        cases ys with
        | nil =>
          refine (ht.not_sep ?_).elim
          exact ⟨sep.intercalate ((w :: xs).map code) ++ s, by simpa using h⟩
        | cons z ys =>
          obtain ⟨hl, hst⟩ := ih
            (fun p hp => inj p (List.mem_cons_of_mem _ hp))
            ⟨hs.ends, hs.not_sep, fun y hy => hs.not_member y (List.mem_cons_of_mem _ hy)⟩
            ⟨ht.ends, ht.not_sep, fun x hx => ht.not_member x (List.mem_cons_of_mem _ hx)⟩
            (by simpa using h)
          exact ⟨by rw [List.map_cons, hl, List.map_cons (a := y), hxy], hst⟩

end Separated

namespace Quoted

variable {q : Char} {a b s t : List Char}

private theorem double_append_inj (hs : Stops (· == q) s) (ht : Stops (· == q) t)
    (h : double q a ++ q :: s = double q b ++ q :: t) : a = b ∧ s = t := by
  -- After a doubled quote the text goes on; after a lone one it has ended.
  have ended (b s t : List Char) (c : Char) (hs : Stops (· == q) s) :
      q :: s ≠ double q (c :: b) ++ q :: t := by
    intro h
    by_cases hc : c = q
    · simp only [double, hc, ↓reduceIte, List.cons_append, List.cons.injEq, true_and] at h
      subst h
      exact hs.not_cons (by simp)
    · simp only [double, hc, ↓reduceIte, List.cons_append, List.cons.injEq] at h
      exact hc h.1.symm
  induction a generalizing b with
  | nil =>
    cases b with
    | nil => simpa using h
    | cons c b => exact (ended b s t c hs (by simpa using h)).elim
  | cons c a ih =>
    cases b with
    | nil => exact (ended a t s c ht (by simpa using h.symm)).elim
    | cons d b =>
      have hcd : c = d := by
        by_cases hc : c = q <;> by_cases hd : d = q <;> simp_all [double]
      subst hcd
      rw [double_cons, double_cons, List.append_assoc, List.append_assoc,
        List.append_cancel_left_eq] at h
      obtain ⟨hab, hst⟩ := ih h
      exact ⟨by rw [hab], hst⟩

/-- A quoted text ends at the first quote that no other quote follows. -/
theorem enclose_append_inj (hs : Stops (· == q) s) (ht : Stops (· == q) t)
    (h : enclose q a ++ s = enclose q b ++ t) : a = b ∧ s = t := by
  simp only [enclose, List.cons_append, List.append_assoc, List.nil_append, List.cons.injEq,
    true_and] at h
  exact double_append_inj hs ht h

end Quoted

end WideColumn
