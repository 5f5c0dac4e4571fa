import WideColumn.Proofs.Engine.Cascade
import WideColumn.Proofs.Engine.Known

/-!
A refresh keeps what the store answers now, and all members of a mutation are compiled one after the
other, refreshes in between, before anything is sent. Nothing else happens meanwhile.
-/
namespace WideColumn.Op

variable {σ ρ α : Type} [Store σ] {P : List Event → Prop}

section Refresh

end Refresh

section Members

variable (owners : ρ → Registry σ ρ) (ctx : Context)

/-- All of the statements are fresh. -/
def AllFresh (σ : Type) [Store σ] (statements : List Compiled) (past : List Event) : Prop :=
  ∀ c ∈ statements, c.Fresh σ past

end Members
end WideColumn.Op
