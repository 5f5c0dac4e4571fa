import WideColumn.Engine.Mutate
import WideColumn.Proofs.Engine.Run

/-!
Relations between the world that an operation finds and the one it leaves, however it ends. Those that
carry over from step to step hold of a mutation's preparation if they hold of each member's.
-/
namespace WideColumn

variable {σ ρ α β : Type}

/-- A relation between worlds that carries over from step to step. -/
structure World.Chained (R : World σ → World σ → Prop) : Prop where
  refl (w : World σ) : R w w
  trans {w v u : World σ} : R w v → R v u → R w u

namespace Op

/-- However the operation ends, the world it leaves is so related to the one it found. -/
def Keeps (R : World σ → World σ → Prop) (x : Op σ α) : Prop := ∀ w : World σ, R w (x.run w).2

namespace Keeps

variable {R : World σ → World σ → Prop} (chained : World.Chained R)

include chained

theorem pure (a : α) : Keeps R (Pure.pure a : Op σ α) := fun w => chained.refl w

theorem throw (e : Error) : Keeps R (MonadExcept.throw e : Op σ α) := fun w => chained.refl w

theorem ofExcept (x : Except Error α) : Keeps R (Op.ofExcept x : Op σ α) := by
  intro w
  rw [run_ofExcept]
  exact chained.refl w

/-- What comes after a step need only be looked at for what the step can give. -/
theorem bind_ran {x : Op σ α} {k : α → Op σ β} (hx : Keeps R x)
    (hk : ∀ a w v, x.run w = (.ok a, v) → Keeps R (k a)) : Keeps R (x >>= k) := by
  intro w
  have first := hx w
  rcases run : x.run w with ⟨e | a, v⟩ <;> rw [run] at first
  · rwa [run_bind_error run]
  · rw [run_bind_ok run]
    exact chained.trans first (hk a w v run v)

theorem bind {x : Op σ α} {k : α → Op σ β} (hx : Keeps R x) (hk : ∀ a, Keeps R (k a)) :
    Keeps R (x >>= k) := .bind_ran chained hx fun a _ _ _ => hk a

/-- What is done after a failure goes on from where the failure left off. -/
theorem tryCatch {x : Op σ α} {k : Error → Op σ α} (hx : Keeps R x) (hk : ∀ e, Keeps R (k e)) :
    Keeps R (MonadExcept.tryCatch x k) := by
  intro w
  have first := hx w
  rw [run_tryCatch]
  rcases run : x.run w with ⟨e | a, v⟩ <;> rw [run] at first
  · exact chained.trans first (hk e v)
  · exact first

theorem foldlM {f : β → α → Op σ β} {as : List α} (hf : ∀ a ∈ as, ∀ b, Keeps R (f b a)) (b : β) :
    Keeps R (as.foldlM f b) := by
  induction as generalizing b with
  | nil => exact .pure chained b
  | cons a as ih =>
    rw [List.foldlM_cons]
    exact .bind chained (hf a List.mem_cons_self b) (ih fun a ha => hf a (List.mem_cons_of_mem _ ha))

theorem mapM {f : α → Op σ β} {as : List α} (hf : ∀ a ∈ as, Keeps R (f a)) : Keeps R (as.mapM f) := by
  induction as with
  | nil => exact .pure chained []
  | cons a as ih =>
    rw [List.mapM_cons]
    refine .bind chained (hf a List.mem_cons_self) fun b => ?_
    exact .bind chained (ih fun a ha => hf a (List.mem_cons_of_mem _ ha)) fun bs => .pure chained _

section Levels

variable {prepare : Member ρ → Op σ (Compiled × List (Member ρ))}

theorem prepareLevel (each : ∀ m, Keeps R (prepare m)) (last : Bool) (members : List (Member ρ)) :
    Keeps R (Op.prepareLevel prepare last members) := by
  induction members with
  | nil => exact .pure chained _
  | cons m members ih =>
    rw [Op.prepareLevel]
    refine .bind chained (each m) fun made => ?_
    dsimp only
    split
    · exact .bind chained (.throw chained _) fun _ => .bind chained ih fun _ => .pure chained _
    · exact .bind chained ih fun _ => .pure chained _

theorem prepareAll (each : ∀ m, Keeps R (prepare m)) (levels : Nat) (members : List (Member ρ)) :
    Keeps R (Op.prepareAll prepare levels members) := by
  induction levels generalizing members with
  | zero => exact .bind chained (.prepareLevel chained each true members) fun _ => .pure chained _
  | succ levels ih =>
    rw [Op.prepareAll]
    refine .bind chained (.prepareLevel chained each false members) fun made => ?_
    dsimp only
    split
    · exact .pure chained _
    · exact .bind chained (ih made.2) fun _ => .pure chained _

end Levels
end Keeps
end Op
end WideColumn
