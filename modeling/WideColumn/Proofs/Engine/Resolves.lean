import Mathlib.Data.List.Induction
import Mathlib.Data.List.Perm.Subperm
import WideColumn.Proofs.Collection.SortedMap
import WideColumn.Proofs.Engine.Develops
import WideColumn.Proofs.Engine.Quiet
import WideColumn.Proofs.Schema.Reach

/-!
The loop in which user-defined types are resolved, turn by turn and without a bound. It comes to an end
because no type is looked up twice, and what each of its turns keeps holds at its end.
-/
namespace WideColumn

variable {σ : Type}

namespace Op

variable [Store σ]

/-- Why a type has not been found: the store does not know it, or has failed. -/
inductive Missing (name : TypeName) (w v : World σ) : Error → Prop
  | unknown : (Store.describeType name w.store).1 = .ok none →
      Missing name w v (.typeNotFound name.keyspace name.name)
  | fault {fault : Fault} : v.events = w.events ++ [.describeType name (.error fault)] →
      Missing name w v (.transport fault)

theorem getType_error {name : TypeName} {w v : World σ} {e : Error}
    (ran : (getType name).run w = (.error e, v)) : Missing name w v e := by
  have got := got Shelf.types name (do
    knownType name (← ask (Store.describeType name) (.describeType name))) w
  rw [getType] at ran
  rw [ran] at got
  generalize hr : (Except.error e, v) = r at got
  cases got with
  | found => cases hr
  | loaded => cases hr
  | failed _ ran =>
    obtain ⟨⟨⟩, rfl⟩ := Prod.mk.inj hr
    rw [typeLoad_run] at ran
    change (knownType name (Store.describeType name w.store).1).run _ = _ at ran
    rcases answer : (Store.describeType name w.store).1 with fault | _ | type <;> rw [answer] at ran
    · obtain ⟨⟨⟩, rfl⟩ := Prod.mk.inj ran
      refine .fault ?_
      rw [← answer]
      exact World.answered_events _ _ _
    · obtain ⟨⟨⟩, rfl⟩ := Prod.mk.inj ran
      exact .unknown answer
    · cases ran

/-- The loop of a resolution as it goes on, for as long as it does. Names are taken from the end; one that
is resolved already is skipped, and any other is looked up. What has been found by the end is `found`. -/
inductive Resolves (keyspace : String) : List String → TypeDefs → World σ → TypeDefs →
    Except Error TypeDefs × World σ → Prop
  | done {resolved : TypeDefs} {w : World σ} : Resolves keyspace [] resolved w resolved (.ok resolved, w)
  | skip {pending : List String} {name : String} {resolved found : TypeDefs} {w : World σ}
      {r : Except Error TypeDefs × World σ} : (resolved.lookup name).isSome →
      Resolves keyspace pending resolved w found r →
      Resolves keyspace (pending ++ [name]) resolved w found r
  | fail {pending : List String} {name : String} {resolved : TypeDefs} {w v : World σ} {e : Error} :
      resolved.lookup name = none → (getType ⟨keyspace, name⟩).run w = (.error e, v) →
      Resolves keyspace (pending ++ [name]) resolved w resolved (.error e, v)
  | add {pending : List String} {name : String} {type : UserType} {resolved found : TypeDefs}
      {w v : World σ} {r : Except Error TypeDefs × World σ} :
      resolved.lookup name = none → (getType ⟨keyspace, name⟩).run w = (.ok type, v) →
      Resolves keyspace (addFieldNames type pending) ((name, type) :: resolved) v found r →
      Resolves keyspace (pending ++ [name]) resolved w found r

variable {keyspace : String} {pending : List String} {resolved found : TypeDefs} {w v : World σ}
  {r : Except Error TypeDefs × World σ}

theorem popUnresolved_concat (name : String) : popUnresolved resolved (pending ++ [name]) =
    if (resolved.lookup name).isSome then popUnresolved resolved pending else some (name, pending) := by
  rw [popUnresolved, List.reverse_append]
  by_cases there : (resolved.lookup name).isSome <;> simp [there, popUnresolved]

/-- With all names resolved the loop is at its end. -/
theorem Resolves.of_pop_none (none : popUnresolved resolved pending = none) (w : World σ) :
    Resolves keyspace pending resolved w resolved (.ok resolved, w) := by
  induction pending using List.reverseRecOn with
  | nil => exact .done
  | append_singleton pending name ih =>
    rw [popUnresolved_concat] at none
    split at none
    · rename_i there
      exact .skip there (ih none)
    · cases none

/-- A name is taken because it is not resolved. -/
theorem lookup_of_pop {name : String} {rest : List String}
    (popped : popUnresolved resolved pending = some (name, rest)) : resolved.lookup name = none := by
  induction pending using List.reverseRecOn with
  | nil => cases popped
  | append_singleton pending other ih =>
    rw [popUnresolved_concat] at popped
    split at popped
    · exact ih popped
    · rename_i missing
      obtain ⟨rfl, -⟩ := Prod.mk.inj (Option.some.inj popped)
      exact Option.not_isSome_iff_eq_none.mp missing

/-- Names that are skipped before another do not matter. -/
theorem Resolves.of_pop {name : String} {rest : List String}
    (popped : popUnresolved resolved pending = some (name, rest))
    (h : Resolves keyspace (rest ++ [name]) resolved w found r) :
    Resolves keyspace pending resolved w found r := by
  induction pending using List.reverseRecOn with
  | nil => cases popped
  | append_singleton pending other ih =>
    rw [popUnresolved_concat] at popped
    split at popped
    · rename_i there
      exact .skip there (ih popped)
    · obtain ⟨rfl, rfl⟩ := Prod.mk.inj (Option.some.inj popped)
      exact h

/-- No more types of one keyspace are told apart by their names than there are. -/
theorem length_le_known {known : List TypeName} (apart : (resolved.map Prod.fst).Nodup)
    (among : ∀ d ∈ resolved, ⟨keyspace, d.1⟩ ∈ known) : resolved.length ≤ known.length := by
  have names : (resolved.map fun d => TypeName.mk keyspace d.1).Nodup :=
    List.pairwise_map.mpr ((List.pairwise_map.mp apart).imp fun ne same => ne (TypeName.mk.inj same).2)
  have few := (names.subperm (List.forall_mem_map.mpr among)).length_le
  rwa [List.length_map] at few

/-- As many names as can be found are enough for the loop to end by itself. -/
theorem resolveFrom_resolves {o : Outlook σ} (ho : o.Holds) (known : List TypeName)
    (within : ∀ name type, o.type name type → name ∈ known) {bound : Nat} (fits : w.Fits o)
    (apart : (resolved.map Prod.fst).Nodup) (among : ∀ d ∈ resolved, ⟨keyspace, d.1⟩ ∈ known)
    (enough : known.length < bound + resolved.length) : ∃ found,
      Resolves keyspace pending resolved w found ((resolveFrom keyspace bound pending resolved).run w) := by
  induction bound generalizing pending resolved w with
  | zero =>
    -- more types would have been found than there are
    have few := length_le_known apart among
    omega
  | succ bound ih =>
    rw [resolveFrom]
    cases popped : popUnresolved resolved pending with
    | none => exact ⟨_, .of_pop_none popped w⟩
    | some next =>
      obtain ⟨name, rest⟩ := next
      have new := lookup_of_pop popped
      dsimp only
      have after := fits.getType ho ⟨keyspace, name⟩
      rcases ran : (getType ⟨keyspace, name⟩).run w with ⟨e | type, v⟩ <;> rw [ran] at after
      · rw [run_bind_error ran]
        exact ⟨_, .of_pop popped (.fail new ran)⟩
      · rw [run_bind_ok ran]
        have told := within _ _ (getType_ok ho fits ran)
        obtain ⟨found, rest⟩ := @ih (addFieldNames type rest) ((name, type) :: resolved) v after
          (List.nodup_cons.mpr ⟨lookup_eq_none.mp new, apart⟩)
          (List.forall_mem_cons.mpr ⟨told, among⟩) (by simpa only [List.length_cons] using by omega)
        exact ⟨found, .of_pop popped (.add new ran rest)⟩

theorem mem_addFieldNames {type : UserType} {name : String} :
    name ∈ addFieldNames type pending ↔ name ∈ pending ∨ type.Mentions name := by
  rw [addFieldNames, UserType.Mentions]
  induction type.fields generalizing pending with
  | nil => simp
  | cons f fields ih => simp [ih, ColumnType.mem_addNames, or_assoc]

/-- With all of them resolved there is none to take. -/
theorem popUnresolved_eq_none (all : ∀ name ∈ pending, (resolved.lookup name).isSome) :
    popUnresolved resolved pending = none := by
  induction pending using List.reverseRecOn with
  | nil => rfl
  | append_singleton pending name ih =>
    obtain ⟨all, last⟩ := List.forall_mem_append.mp all
    rw [popUnresolved_concat, if_pos (List.forall_mem_singleton.mp last)]
    exact ih all

theorem mem_of_pop {name : String} {rest : List String}
    (popped : popUnresolved resolved pending = some (name, rest)) : ∀ n ∈ rest, n ∈ pending := by
  induction pending using List.reverseRecOn with
  | nil => cases popped
  | append_singleton pending other ih =>
    rw [popUnresolved_concat] at popped
    split at popped
    · exact fun n hn => List.mem_append_left _ (ih popped n hn)
    · obtain ⟨-, rfl⟩ := Prod.mk.inj (Option.some.inj popped)
      exact fun n hn => List.mem_append_left _ hn

theorem resolveFrom_suffix {bound : Nat} {types : TypeDefs}
    (ran : (resolveFrom keyspace bound pending resolved).run w = (.ok types, v)) : resolved <:+ types := by
  induction bound generalizing pending resolved w with
  | zero =>
    cases ran
    exact List.suffix_rfl
  | succ bound ih =>
    rw [resolveFrom] at ran
    split at ran
    · cases ran
      exact List.suffix_rfl
    · obtain ⟨type, u, -, ran⟩ := run_bind_eq_ok.mp ran
      exact (List.suffix_cons _ _).trans (ih ran)

/-- A resolution that leaves no name without a definition has not been cut short. -/
theorem resolveFrom_complete {bound : Nat} {types : TypeDefs}
    (ran : (resolveFrom keyspace bound pending resolved).run w = (.ok types, v))
    (all : ∀ name ∈ pending, (types.lookup name).isSome)
    (closed : ∀ d ∈ types, ∀ name, d.2.Mentions name → (types.lookup name).isSome) :
    Resolves keyspace pending resolved w types (.ok types, v) := by
  induction bound generalizing pending resolved w with
  | zero =>
    cases ran
    exact .of_pop_none (popUnresolved_eq_none all) _
  | succ bound ih =>
    rw [resolveFrom] at ran
    cases popped : popUnresolved resolved pending with
    | none =>
      rw [popped] at ran
      cases ran
      exact .of_pop_none popped _
    | some next =>
      obtain ⟨name, rest⟩ := next
      rw [popped] at ran
      obtain ⟨type, u, got, ran⟩ := run_bind_eq_ok.mp ran
      have there := (resolveFrom_suffix ran).mem List.mem_cons_self
      refine .of_pop popped (.add (lookup_of_pop popped) got (ih ran fun n hn => ?_))
      obtain hn | hn := mem_addFieldNames.mp hn
      · exact all n (mem_of_pop popped n hn)
      · exact closed _ there n hn

/-- While the loop goes on, what it has resolved is as it may be, and all that it has to do with is of
this sort. -/
structure Goes (o : Outlook σ) (keyspace : String) (R : String → Prop) (pending : List String)
    (resolved : TypeDefs) (w : World σ) : Prop where
  fits : w.Fits o
  apart : (resolved.map Prod.fst).Nodup
  told : ∀ d ∈ resolved, o.type ⟨keyspace, d.1⟩ d.2
  resolved : ∀ d ∈ resolved, R d.1
  pending : ∀ name ∈ pending, R name

/-- So it is at its end, and if it fails, then for a type of this sort. -/
structure Ends (o : Outlook σ) (keyspace : String) (R : String → Prop) (w : World σ) (found : TypeDefs)
    (r : Except Error TypeDefs × World σ) : Prop where
  apart : (found.map Prod.fst).Nodup
  told : ∀ d ∈ found, o.type ⟨keyspace, d.1⟩ d.2
  reached : ∀ d ∈ found, R d.1
  missing : ∀ e, r.1 = .error e → ∃ name u es, R name ∧ found.lookup name = none ∧
    Missing ⟨keyspace, name⟩ u r.2 e ∧ u.Fits o ∧ u.events = w.events ++ es

namespace Resolves

variable {o : Outlook σ} {R : String → Prop}

/-- Nothing is lost again. -/
theorem suffix (h : Resolves keyspace pending resolved w found r) : resolved <:+ found := by
  induction h with
  | done => exact List.suffix_rfl
  | skip _ _ ih => exact ih
  | fail => exact List.suffix_rfl
  | add _ _ _ ih => exact (List.suffix_cons _ _).trans ih

/-- Each turn of the loop keeps that, if the sort is that of all the fields of its types too. -/
theorem ends (h : Resolves keyspace pending resolved w found r) (ho : o.Holds)
    (hR : ∀ d ∈ found, R d.1 → ∀ name, d.2.Mentions name → R name)
    (goes : Goes o keyspace R pending resolved w) : Ends o keyspace R w found r := by
  induction h with
  | done => exact ⟨goes.apart, goes.told, goes.resolved, fun _ failed => by cases failed⟩
  | skip _ _ ih =>
    exact ih hR { goes with pending := (List.forall_mem_append.mp goes.pending).1 }
  | @fail pending name resolved w v e new ran =>
    refine ⟨goes.apart, goes.told, goes.resolved, fun e' same => ?_⟩
    obtain rfl := Except.error.inj same
    exact ⟨name, w, [], goes.pending name (by simp), new, getType_error ran, goes.fits, by simp⟩
  | @add pending name type resolved found w v r new ran rest ih =>
    have reached : R name := goes.pending name (by simp)
    have after := goes.fits.getType ho ⟨keyspace, name⟩
    obtain ⟨es, grown, -⟩ := (logs_getType compiles_questions ⟨keyspace, name⟩ w).events
    rw [ran] at after grown
    have ends := ih hR {
      fits := after
      apart := List.nodup_cons.mpr ⟨lookup_eq_none.mp new, goes.apart⟩
      told := List.forall_mem_cons.mpr ⟨getType_ok ho goes.fits ran, goes.told⟩
      resolved := List.forall_mem_cons.mpr ⟨reached, goes.resolved⟩
      pending := fun n hn => (mem_addFieldNames.mp hn).elim
        (fun there => goes.pending n (List.mem_append_left _ there))
        (hR _ (rest.suffix.mem List.mem_cons_self) reached n) }
    refine { ends with missing := fun e failed => ?_ }
    obtain ⟨n, u, es', reached, absent, missing, fits, events⟩ := ends.missing e failed
    exact ⟨n, u, es ++ es', reached, absent, missing, fits, by rw [events, grown, List.append_assoc]⟩

private theorem lookup_of_suffix {name : String} (h : resolved <:+ found)
    (there : (resolved.lookup name).isSome) : (found.lookup name).isSome := by
  obtain ⟨more, rfl⟩ := h
  rw [List.lookup_append, Option.isSome_or, there, Bool.or_true]

/-- When the loop succeeds, all that was pending has been found, and all that the fields of new types
mention. -/
theorem closes (h : Resolves keyspace pending resolved w found r) {types : TypeDefs}
    (ok : r.1 = .ok types) : types = found ∧ (∀ name ∈ pending, (found.lookup name).isSome) ∧
      ∀ d ∈ found, d ∈ resolved ∨ ∀ name, d.2.Mentions name → (found.lookup name).isSome := by
  induction h with
  | done => exact ⟨(Except.ok.inj ok).symm, List.forall_mem_nil _, fun d hd => .inl hd⟩
  | skip there rest ih =>
    obtain ⟨same, names, closed⟩ := ih ok
    refine ⟨same, List.forall_mem_append.mpr ⟨names, ?_⟩, closed⟩
    exact List.forall_mem_singleton.mpr (lookup_of_suffix rest.suffix there)
  | fail => cases ok
  | @add pending name type resolved found w v r new ran rest ih =>
    obtain ⟨same, names, closed⟩ := ih ok
    refine ⟨same, List.forall_mem_append.mpr ⟨fun n hn => ?_, ?_⟩, fun d hd => ?_⟩
    · exact names n (mem_addFieldNames.mpr (.inl hn))
    · exact List.forall_mem_singleton.mpr (lookup_of_suffix rest.suffix (by simp))
    · obtain hd | closed := closed d hd
      · obtain rfl | hd := List.mem_cons.mp hd
        · exact .inr fun n hn => names n (mem_addFieldNames.mpr (.inr hn))
        · exact .inl hd
      · exact .inr closed

end Resolves
end Op
end WideColumn
