import Mathlib.Data.FinEnum

/-! # Addresses and words

160-bit addresses, with the zero address that stands for "unset", and 256-bit words for hashes and
packed storage. -/

namespace Karma.Evm

structure Address where
  bits : BitVec 160
  deriving DecidableEq, Repr

namespace Address

instance : Zero Address := ⟨⟨0#160⟩⟩

def ofNat (n : ℕ) : Address := ⟨BitVec.ofNat 160 n⟩

instance : Fintype Address :=
  Fintype.ofEquiv (BitVec 160)
    { toFun := Address.mk
      invFun := Address.bits
      left_inv := fun _ => rfl
      right_inv := fun _ => rfl }

theorem card_le : Fintype.card Address ≤ 2 ^ 160 := by
  have hinj : Function.Injective fun a : Address => a.bits.toFin := by
    intro a b hab
    cases a
    cases b
    exact congrArg Address.mk (BitVec.toFin_inj.mp hab)
  exact (Fintype.card_le_of_injective _ hinj).trans_eq (Fintype.card_fin _)

end Address

/-- A 32-byte word: a hash, or a packed storage slot. -/
abbrev Bytes32 : Type := BitVec 256

/-! ## Packed words -/

namespace Word

def place {w : ℕ} (offset : ℕ) (x : BitVec w) : Bytes32 := x.setWidth 256 <<< offset

def field (offset w : ℕ) (b : Bytes32) : BitVec w := (b >>> offset).setWidth w

def clear (offset w : ℕ) (b : Bytes32) : Bytes32 := b &&& ~~~place offset (BitVec.allOnes w)

variable {w w' offset offset' : ℕ}

theorem field_or (b c : Bytes32) :
    field offset w (b ||| c) = field offset w b ||| field offset w c := by
  simp [field, BitVec.ushiftRight_or_distrib]

theorem field_place (x : BitVec w) (h : offset + w ≤ 256) :
    field offset w (place offset x) = x := by
  refine BitVec.eq_of_getLsbD_eq fun i hi => ?_
  have hlt : offset + i < 256 := by omega
  simp [field, place, hi, hlt]

theorem field_place_of_disjoint (x : BitVec w') (h : offset + w ≤ offset' ∨ offset' + w' ≤ offset) :
    field offset w (place offset' x) = 0#w := by
  refine BitVec.eq_of_getLsbD_eq fun i hi => ?_
  rcases h with h | h
  · -- the placed value lies above the field: every bit read is a shifted-in zero
    have hlow : offset + i < offset' := by omega
    simp [field, place, hi, hlow]
  · -- it lies below: the bits read are beyond its width
    have hhigh : x.getLsbD (offset + i - offset') = false :=
      BitVec.getLsbD_of_ge _ _ (by omega)
    simp [field, place, hi, hhigh]

theorem field_clear (b : Bytes32) (h : offset + w ≤ 256) :
    field offset w (clear offset w b) = 0#w := by
  refine BitVec.eq_of_getLsbD_eq fun i hi => ?_
  have hlt : offset + i < 256 := by omega
  simp [field, clear, place, hi, hlt]

theorem field_clear_of_disjoint (b : Bytes32) (hfit : offset + w ≤ 256)
    (h : offset + w ≤ offset' ∨ offset' + w' ≤ offset) :
    field offset w (clear offset' w' b) = field offset w b := by
  refine BitVec.eq_of_getLsbD_eq fun i hi => ?_
  have hlt : offset + i < 256 := by omega
  simp only [field, clear, place, BitVec.getLsbD_setWidth, BitVec.getLsbD_ushiftRight,
    BitVec.getLsbD_and, BitVec.getLsbD_not, BitVec.getLsbD_shiftLeft, BitVec.getLsbD_allOnes, hi,
    hlt, decide_true, Bool.true_and, Bool.and_eq_left_iff_imp]
  intro _
  simp
  omega

end Word

end Karma.Evm
