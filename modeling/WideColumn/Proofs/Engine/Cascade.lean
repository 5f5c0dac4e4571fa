import WideColumn.Proofs.Engine.Sent
import WideColumn.Proofs.Interceptor.Gather

/-!
Mutations with their cascades as a list of work that grows while it is worked off: what a member
cascades into goes to the end. All of it is compiled before anything is sent, and it is sent once.
-/
namespace WideColumn

variable {σ ρ : Type}

section Members

variable (owners : ρ → Registry σ ρ)

/-- The mutation of a member as its request interceptors leave it. -/
def Member.intercepted (m : Member ρ) : Except Error Mutation :=
  match m.mutation with
  | .write w => .write <$> (Op.registryOf owners m).applyWrite w
  | .delete d => .delete <$> (Op.registryOf owners m).applyDelete d
  | .counter u => .ok (.counter u)

/-- The cascades a mutation of the member triggers, in order of registration. -/
def Member.cascades (m : Member ρ) : Mutation → List (Timed (List (Member ρ)))
  | .write w => (Op.registryOf owners m).cascadesOnWrite.map fun f => f w
  | .delete d => (Op.registryOf owners m).cascadesOnDelete.map fun f => f d
  | .counter _ => []

/-- What the member cascades into, however long each of its cascades takes. -/
def Member.offspring (m : Member ρ) : List (Member ρ) :=
  match m.intercepted owners with
  | .ok f => Registry.produced (m.cascades owners f)
  | .error _ => []

/-- The members and, after them, all that they cascade into on the next levels, level by level. -/
def breadthFirst : (levels : Nat) → List (Member ρ) → List (Member ρ)
  | 0, members => members
  | levels + 1, members => members ++ breadthFirst levels (members.flatMap (·.offspring owners))

end Members

theorem breadthFirst_nil (owners : ρ → Registry σ ρ) (levels : Nat) :
    breadthFirst owners levels [] = [] := by
  induction levels with
  | zero => rfl
  | succ levels ih => simpa [breadthFirst] using ih

/-- Members that cascade into nothing are all there is. -/
theorem breadthFirst_of_barren {owners : ρ → Registry σ ρ} {ms : List (Member ρ)}
    (h : ms.flatMap (·.offspring owners) = []) (levels : Nat) :
    breadthFirst owners levels ms = ms := by
  cases levels with
  | zero => rfl
  | succ levels => rw [breadthFirst, h, breadthFirst_nil, List.append_nil]

namespace Op

variable [Store σ] (owners : ρ → Registry σ ρ) (ctx : Context)

/-- One member of the work, at its depth: its statement, and what it cascades into. -/
def visit (m : Member ρ) (depth : Nat) : Op σ (Compiled × List (Member ρ)) := do
  let f ← ofExcept (m.intercepted owners)
  let statement ← compileMutation f ctx
  let cascaded ← await (Registry.gather (m.cascades owners f))
  if cascadeLevels ≤ depth ∧ cascaded ≠ [] then
    throw (.validation (.cascadeTooDeep statement.table))
  return (statement, cascaded)

/-- Working off members that stand in a queue with their depths, until it is empty or one fails. -/
inductive Worked : World σ → List (Member ρ × Nat) →
    Except Error (List (Member ρ × Compiled)) → World σ → Prop
  | done (w : World σ) : Worked w [] (.ok []) w
  | stopped {w v : World σ} {m : Member ρ} {depth : Nat} {queue : List (Member ρ × Nat)}
      {e : Error} :
      (visit owners ctx m depth).run w = (.error e, v) →
      Worked w ((m, depth) :: queue) (.error e) v
  | next {w v u : World σ} {m : Member ρ} {depth : Nat} {queue : List (Member ρ × Nat)}
      {statement : Compiled} {cascaded : List (Member ρ)}
      {work : Except Error (List (Member ρ × Compiled))} :
      (visit owners ctx m depth).run w = (.ok (statement, cascaded), v) →
      Worked v (queue ++ cascaded.map (·, depth + 1)) work u →
      Worked w ((m, depth) :: queue) (((m, statement) :: ·) <$> work) u

/-- The statement is compiled from what the request interceptors have made of the member's mutation,
and none of its cascades has failed. -/
def Yields (m : Member ρ) (statement : Compiled) : Prop :=
  ∃ f, m.intercepted owners = .ok f ∧ (∀ t ∈ m.cascades owners f, ∃ kids, t.outcome = .ok kids) ∧
    ∃ w v : World σ, (compileMutation f ctx).run w = (.ok statement, v)

variable {owners ctx} {w v : World σ}

omit [Store σ] in
private theorem ofExcept_map {α β γ : Type} (g : α → β) (x : Except Error α) (k : β → Op σ γ) :
    ofExcept (g <$> x) >>= k = ofExcept x >>= fun a => k (g a) := by
  cases x <;> rfl

theorem prepareMember_eq (m : Member ρ) : prepareMember owners ctx m = do
    let f ← ofExcept (m.intercepted owners)
    let statement ← compileMutation f ctx
    return (statement, ← await (Registry.gather (m.cascades owners f))) := by
  obtain ⟨mutation, owner⟩ := m
  cases mutation with
  | write w =>
    simp only [prepareMember, Member.intercepted, ofExcept_map]
    rfl
  | delete d =>
    simp only [prepareMember, Member.intercepted, ofExcept_map]
    rfl
  | counter u => rfl

/-- On the last level members are visited that may not cascade, on those above it others. -/
theorem prepareLevel_cons {last : Bool} {depth : Nat} (hl : last = decide (cascadeLevels ≤ depth))
    (m : Member ρ) (ms : List (Member ρ)) : prepareLevel (prepareMember owners ctx) last (m :: ms) = do
      let (statement, cascaded) ← visit owners ctx m depth
      let (statements, others) ← prepareLevel (prepareMember owners ctx) last ms
      return (statement :: statements, cascaded ++ others) := by
  rw [prepareLevel, prepareMember_eq, visit]
  simp only [bind_assoc, pure_bind]
  refine bind_congr fun f => bind_congr fun statement => bind_congr fun cascaded => ?_
  subst hl
  cases cascaded with
  | nil => simp
  | cons k ks =>
    by_cases hd : cascadeLevels ≤ depth
    · simp only [hd]
      rfl
    · simp [hd]

theorem quiet_visit (owners : ρ → Registry σ ρ) (ctx : Context) (m : Member ρ) (depth : Nat) :
    Quiet (visit owners ctx m depth) := by
  refine .bind (.ofExcept _) fun f => .bind (quiet_compile (.mutation f) ctx) fun statement =>
    .bind (quiet_await _) fun cascaded => ?_
  split
  · exact .bind (.throw _) fun _ => .pure _
  · exact .pure _

theorem await_ok {α : Type} {t : Timed α} {a : α} (h : (await t : Op σ α).run w = (.ok a, v)) :
    t.outcome = .ok a := by
  rw [await] at h
  split at h
  · obtain ⟨_, _, -, h⟩ := run_bind_eq_ok.mp h
    obtain ⟨_, _, -, h⟩ := run_bind_eq_ok.mp h
    rw [run_ofExcept] at h
    exact (Prod.mk.inj h).1
  · rw [run_ofExcept] at h
    exact (Prod.mk.inj h).1

theorem visit_ok {m : Member ρ} {depth : Nat} {statement : Compiled} {cascaded : List (Member ρ)}
    (h : (visit owners ctx m depth).run w = (.ok (statement, cascaded), v)) :
    Yields owners ctx m statement ∧ cascaded = m.offspring owners ∧
      (cascadeLevels ≤ depth → cascaded = []) := by
  obtain ⟨f, u, intercepted, h⟩ := run_bind_eq_ok.mp h
  obtain ⟨c, u', compiled, h⟩ := run_bind_eq_ok.mp h
  obtain ⟨kids, _, gathered, h⟩ := run_bind_eq_ok.mp h
  rw [run_ofExcept] at intercepted
  have hf := (Prod.mk.inj intercepted).1
  obtain ⟨succeeded, hk⟩ := Registry.gather_eq_ok.mp (await_ok gathered)
  split at h
  · cases h
  · rename_i allowed
    cases h
    refine ⟨⟨f, hf, succeeded, u, u', compiled⟩, by rw [hk, Member.offspring, hf], fun hd => ?_⟩
    exact Decidable.byContradiction fun hne => allowed ⟨hd, hne⟩

namespace Worked

variable {queue : List (Member ρ × Nat)} {work work' : Except Error (List (Member ρ × Compiled))}

/-- While work is done the store is asked questions, and nothing is sent. -/
theorem quiet (h : Worked owners ctx w queue work v) : w.Quiet v := by
  induction h with
  | done => exact .refl _
  | @stopped w v m depth queue e hv =>
    have asked := quiet_visit owners ctx m depth w
    rwa [hv] at asked
  | @next w v u m depth queue statement cascaded work hv _ ih =>
    have asked := quiet_visit owners ctx m depth w
    rw [hv] at asked
    exact asked.trans ih

/-- Work that is done to its end has a statement for every member. -/
theorem yields (h : Worked owners ctx w queue work v) {pairs : List (Member ρ × Compiled)}
    (hp : work = .ok pairs) : ∀ p ∈ pairs, Yields owners ctx p.1 p.2 := by
  induction h generalizing pairs with
  | done =>
    cases hp
    simp
  | stopped => cases hp
  | @next _ _ _ _ _ _ _ _ work visited _ ih =>
    cases work with
    | error e => cases hp
    | ok rest =>
      cases hp
      exact List.forall_mem_cons.mpr ⟨(visit_ok visited).1, ih rfl⟩

/-- There is one way to work off a queue. -/
theorem unique {u : World σ} (h : Worked owners ctx w queue work v)
    (h' : Worked owners ctx w queue work' u) : work = work' ∧ v = u := by
  induction h generalizing work' u with
  | done =>
    cases h'
    exact ⟨rfl, rfl⟩
  | stopped hv =>
    cases h' with
    | stopped hv' =>
      rw [hv] at hv'
      cases hv'
      exact ⟨rfl, rfl⟩
    | next hv' _ =>
      rw [hv] at hv'
      cases hv'
  | next hv _ ih =>
    cases h' with
    | stopped hv' =>
      rw [hv] at hv'
      cases hv'
    | next hv' rest =>
      rw [hv] at hv'
      cases hv'
      obtain ⟨rfl, rfl⟩ := ih rest
      exact ⟨rfl, rfl⟩

end Worked

variable {cs : List Compiled} {kids ms : List (Member ρ)} {depth : Nat} {last : Bool} {e : Error}

/-- Working off one level: what its members cascade into stands in the queue behind all that stood
there before. -/
theorem level_worked (hl : last = decide (cascadeLevels ≤ depth))
    (h : (prepareLevel (prepareMember owners ctx) last ms).run w = (.ok (cs, kids), v)) :
    ∃ pairs : List (Member ρ × Compiled), pairs.map Prod.fst = ms ∧ pairs.map Prod.snd = cs ∧
      kids = ms.flatMap (·.offspring owners) ∧ (last = true → kids = []) ∧
      ∀ queue work u, Worked owners ctx v (queue ++ kids.map (·, depth + 1)) work u →
        Worked owners ctx w (ms.map (·, depth) ++ queue) ((pairs ++ ·) <$> work) u := by
  induction ms generalizing w cs kids with
  | nil =>
    cases h
    refine ⟨[], rfl, rfl, rfl, fun _ => rfl, fun queue work u hu => ?_⟩
    simpa using hu
  | cons m ms ih =>
    rw [prepareLevel_cons hl, run_bind_eq_ok] at h
    obtain ⟨⟨c, front⟩, v₁, visited, h⟩ := h
    obtain ⟨⟨cs', back⟩, v₂, level, h⟩ := run_bind_eq_ok.mp h
    cases h
    obtain ⟨pairs, hm, hc, hk, he, hw⟩ := ih level
    obtain ⟨-, hf, hd⟩ := visit_ok visited
    refine ⟨(m, c) :: pairs, ?_, ?_, ?_, ?_, fun queue work u hu => ?_⟩
    · rw [List.map_cons, hm]
    · rw [List.map_cons, hc]
    · rw [List.flatMap_cons, ← hf, ← hk]
    · intro ht
      rw [hd (by simpa [hl] using ht), he ht, List.append_nil]
    · have rest := hw (queue ++ front.map (·, depth + 1)) work u (by
        rwa [List.append_assoc, ← List.map_append])
      rw [← List.append_assoc] at rest
      have step := Worked.next visited rest
      rwa [← comp_map] at step

theorem level_stopped (hl : last = decide (cascadeLevels ≤ depth))
    (h : (prepareLevel (prepareMember owners ctx) last ms).run w = (.error e, v))
    (queue : List (Member ρ × Nat)) :
    Worked owners ctx w (ms.map (·, depth) ++ queue) (.error e) v := by
  induction ms generalizing w queue with
  | nil => cases h
  | cons m ms ih =>
    rw [prepareLevel_cons hl, run_bind_eq_error] at h
    obtain h | ⟨⟨c, front⟩, v₁, visited, h⟩ := h
    · exact .stopped h
    obtain h | ⟨_, v₂, -, h⟩ := run_bind_eq_error.mp h
    · have rest := ih h (queue ++ front.map (·, depth + 1))
      rw [← List.append_assoc] at rest
      exact .next visited rest
    · cases h

/-- A level that cascades into nothing is the last one, however many are allowed. -/
theorem last_level_worked (hl : last = decide (cascadeLevels ≤ depth))
    (h : (prepareLevel (prepareMember owners ctx) last ms).run w = (.ok (cs, []), v)) :
    ∃ pairs : List (Member ρ × Compiled), pairs.map Prod.snd = cs ∧
      (∀ levels, pairs.map Prod.fst = breadthFirst owners levels ms) ∧
      Worked owners ctx w (ms.map (·, depth)) (.ok pairs) v := by
  obtain ⟨pairs, hm, hc, hk, -, hw⟩ := level_worked hl h
  have step : Worked owners ctx w (ms.map (·, depth) ++ []) (.ok (pairs ++ [])) v :=
    hw [] (.ok []) v (.done v)
  rw [List.append_nil, List.append_nil] at step
  exact ⟨pairs, hc, fun levels => by rw [hm, breadthFirst_of_barren hk.symm], step⟩

/-- All levels together: every member once, level by level, and no level below the last one. -/
theorem all_worked {levels : Nat} (hd : depth + levels = cascadeLevels)
    (h : (prepareAll (prepareMember owners ctx) levels ms).run w = (.ok cs, v)) :
    ∃ pairs : List (Member ρ × Compiled), pairs.map Prod.snd = cs ∧
      (∀ more, pairs.map Prod.fst = breadthFirst owners (levels + more) ms) ∧
      Worked owners ctx w (ms.map (·, depth)) (.ok pairs) v := by
  induction levels generalizing depth w cs ms with
  | zero =>
    have hl : true = decide (cascadeLevels ≤ depth) := by simp; omega
    rw [prepareAll, run_bind_eq_ok] at h
    obtain ⟨⟨cs', kids⟩, _, level, h⟩ := h
    cases h
    obtain ⟨-, -, -, -, he, -⟩ := level_worked hl level
    obtain rfl := he rfl
    obtain ⟨pairs, hc, hm, hw⟩ := last_level_worked hl level
    exact ⟨pairs, hc, fun more => hm _, hw⟩
  | succ levels ih =>
    have hl : false = decide (cascadeLevels ≤ depth) := by simp; omega
    have below : depth + 1 + levels = cascadeLevels := by omega
    rw [prepareAll, run_bind_eq_ok] at h
    obtain ⟨⟨cs', kids⟩, v₁, level, h⟩ := h
    cases kids with
    | nil =>
      cases h
      obtain ⟨pairs, hc, hm, hw⟩ := last_level_worked hl level
      exact ⟨pairs, hc, fun more => hm _, hw⟩
    | cons k ks =>
      obtain ⟨pairs, hm, hc, hk, -, hw⟩ := level_worked hl level
      obtain ⟨cs'', _, others, h⟩ := run_bind_eq_ok.mp h
      cases h
      obtain ⟨pairs', hc', hm', hw'⟩ := ih below others
      refine ⟨pairs ++ pairs', ?_, fun more => ?_, ?_⟩
      · rw [List.map_append, hc, hc']
      · rw [List.map_append, hm, hm' more, Nat.add_right_comm, breadthFirst, ← hk]
      · have step := hw [] (.ok pairs') v hw'
        rwa [List.append_nil] at step

theorem all_stopped {levels : Nat} (hd : depth + levels = cascadeLevels)
    (h : (prepareAll (prepareMember owners ctx) levels ms).run w = (.error e, v)) :
    Worked owners ctx w (ms.map (·, depth)) (.error e) v := by
  induction levels generalizing depth w ms with
  | zero =>
    have hl : true = decide (cascadeLevels ≤ depth) := by simp; omega
    rw [prepareAll, run_bind_eq_error] at h
    obtain h | ⟨_, _, -, h⟩ := h
    · simpa using level_stopped hl h []
    · cases h
  | succ levels ih =>
    have hl : false = decide (cascadeLevels ≤ depth) := by simp; omega
    have below : depth + 1 + levels = cascadeLevels := by omega
    rw [prepareAll, run_bind_eq_error] at h
    obtain h | ⟨⟨cs', kids⟩, v₁, level, h⟩ := h
    · simpa using level_stopped hl h []
    · obtain ⟨pairs, -, -, -, -, hw⟩ := level_worked hl level
      cases kids with
      | nil => cases h
      | cons k ks =>
        obtain h | ⟨_, _, -, h⟩ := run_bind_eq_error.mp h
        · have step := hw [] (.error e) v (ih below h)
          rwa [List.append_nil] at step
        · cases h

theorem assemble_statements {statements : List Compiled} {kind : Option BatchKind} {b : Batch}
    (h : Batch.assemble statements kind ctx = .ok b) : b.statements = statements := by
  rw [Batch.assemble] at h
  split at h
  · cases h
  · split at h
    · cases h
    · simp only [Outcome.bind_eq_ok, Outcome.pure_eq_ok] at h
      obtain ⟨_, -, rfl⟩ := h
      rfl

theorem submission_statements {statements : List Compiled} {kind : Option BatchKind}
    {s : Submission} (h : submission statements kind ctx = .ok s) :
    s.request.statements = statements.map Compiled.wire := by
  unfold submission at h
  split at h
  · cases h
    rfl
  · cases hb : Batch.assemble statements kind ctx with
    | error e => simp [hb, Except.map] at h
    | ok b =>
      simp only [hb, Except.map, Except.ok.injEq] at h
      subst h
      exact congrArg _ (assemble_statements hb)

/-- Nothing is sent unless all members and all that they cascade into, on however many levels, have
been worked off without a failure and fit together. Then they are sent once, in one request with one
statement for each of them: first the members in their order, then what they cascade into level by
level, in order of the cascades' registration. -/
theorem mutate_sends_once (owners : ρ → Registry σ ρ) (members : List (Member ρ))
    (kind : Option BatchKind) (ctx : Context) (w : World σ) :
    ∃ work v, Worked owners ctx w (members.map (·, 0)) work v ∧ v.sent = w.sent ∧
      match work with
      | .error e => (mutate owners members kind ctx).run w = (.error e, v)
      | .ok pairs =>
        (∀ levels, cascadeLevels ≤ levels →
          pairs.map Prod.fst = breadthFirst owners levels members) ∧
        (∀ p ∈ pairs, Yields owners ctx p.1 p.2) ∧
        match submission (pairs.map Prod.snd) kind ctx with
        | .error e => (mutate owners members kind ctx).run w = (.error e, v)
        | .ok s => s.request.statements = pairs.map (fun p => p.2.wire) ∧
            ((mutate owners members kind ctx).run w).2.sent =
              w.sent ++ [(s.request, s.options)] := by
  have top : 0 + cascadeLevels = cascadeLevels := Nat.zero_add _
  rcases hr : (prepareAll (prepareMember owners ctx) cascadeLevels members).run w with ⟨e | cs, v⟩
  · have worked := all_stopped top hr
    exact ⟨_, v, worked, worked.quiet.sent, run_bind_error hr⟩
  · obtain ⟨pairs, rfl, order, worked⟩ := all_worked top hr
    refine ⟨_, v, worked, worked.quiet.sent, fun levels hl => ?_, worked.yields rfl, ?_⟩
    · have all := order (levels - cascadeLevels)
      rwa [Nat.add_sub_cancel' hl] at all
    · cases hs : submission (pairs.map Prod.snd) kind ctx with
      | error e =>
        rw [mutate, mutateBy, run_bind_ok hr, hs]
        rfl
      | ok s =>
        refine ⟨by rw [submission_statements hs, List.map_map]; rfl, ?_⟩
        rw [mutate, mutateBy, run_bind_ok hr, hs, run_bind_ok (run_ofExcept _ v), submit_sent,
          worked.quiet.sent]

end Op
end WideColumn
