import Karma.Evm.Tx

/-! # Relations kept by code

`Tx.Keeps R x`: whenever `x` succeeds, the world after it is related by `R` to the world before. -/

namespace Karma.Evm.Tx

variable {ε σ κ α β : Type} {R : σ → σ → Prop} {x y : Tx ε σ α} {f : α → Tx ε σ β} {s : σ}

class Keeps (R : σ → σ → Prop) (x : Tx ε σ α) : Prop where
  post : ∀ s, x.post (fun _ s' => R s s') s

theorem Keeps.then {Q : α → σ → Prop} (hx : Keeps R x) (hQ : ∀ a s', R s s' → Q a s') :
    x.post Q s :=
  wp_mono (hx.post s) hQ

instance keeps_revert (e : ε) : Keeps R (revert e : Tx ε σ α) :=
  ⟨fun _ => (wp_revert e).mpr trivial⟩

instance keeps_ite (c : Prop) [Decidable c] [Keeps R x] [Keeps R y] :
    Keeps R (if c then x else y) :=
  ⟨fun s => (wp_ite c x y).mpr ⟨fun _ => Keeps.post s, fun _ => Keeps.post s⟩⟩

theorem keeps_modify {g : σ → σ} (hg : ∀ s, R s (g s)) : Keeps R (modify g : Tx ε σ Unit) :=
  ⟨fun s => (wp_modify g _).mpr (hg s)⟩

section Preorder

variable [IsPreorder σ R]

instance keeps_pure (a : α) : Keeps R (pure a : Tx ε σ α) :=
  ⟨fun s => (wp_pure a).mpr (refl_of R s)⟩

instance keeps_get : Keeps R (get : Tx ε σ σ) :=
  ⟨fun s => (wp_get _).mpr (refl_of R s)⟩

instance keeps_revertIf (c : Prop) [Decidable c] (e : ε) : Keeps R (revertIf c e : Tx ε σ Unit) :=
  ⟨fun s => (wp_revertIf c e _).mpr ⟨fun _ => trivial, fun _ => refl_of R s⟩⟩

instance keeps_ofOption (e : ε) (o : Option α) : Keeps R (ofOption e o : Tx ε σ α) :=
  ⟨fun s => (wp_ofOption e o).mpr ⟨fun _ => trivial, fun _ _ => refl_of R s⟩⟩

instance keeps_checkedAdd (e : ε) (a b : ℕ) : Keeps R (checkedAdd e a b : Tx ε σ ℕ) := by
  unfold checkedAdd
  infer_instance

instance keeps_checkedSub (e : ε) (a b : ℕ) : Keeps R (checkedSub e a b : Tx ε σ ℕ) := by
  unfold checkedSub
  infer_instance

instance keeps_checkedMul (e : ε) (a b : ℕ) : Keeps R (checkedMul e a b : Tx ε σ ℕ) := by
  unfold checkedMul
  infer_instance

/-- **Composition.** -/
instance keeps_bind [hx : Keeps R x] [hf : ∀ a, Keeps R (f a)] : Keeps R (x >>= f) where
  post s := by
    simp only [wp_bind]
    refine hx.then fun a t hst => (hf a).then fun b u htu => ?_
    exact trans_of R hst htu

theorem keeps_callOut {run : κ → σ → σ} {acts : List κ} {answer : Option α}
    (hrun : ∀ a ∈ acts, ∀ s, R s (run a s)) :
    Keeps R (callOut run acts answer : Tx ε σ (Option α)) where
  post s := by
    refine wp_callOut (refl_of R) (fun _ _ _ => trans_of R) acts hrun answer _ (fun _ _ => trivial)
      ?_ ?_
    · exact fun _ _ _ hv => hv
    · exact fun _ => refl_of R s

end Preorder

end Karma.Evm.Tx
