import Karma.Evm.Word

/-! # `KarmaBilateral` — packed bills

A bill is one storage word, `[ owner : 160 | tokenId : 8 | state : 8 | unused : 80 ]`; its amount is
stored beside it. -/

namespace Karma.Bilateral

open Evm

inductive BillState
  | minted
  | bound
  | burned
  deriving DecidableEq, Repr

def BillState.code : BillState → BitVec 8
  | .minted => 0
  | .bound => 1
  | .burned => 2

def BillState.ofCode (n : BitVec 8) : Option BillState :=
  if n = 0 then some .minted
  else if n = 1 then some .bound
  else if n = 2 then some .burned
  else none

@[simp] theorem BillState.ofCode_code (st : BillState) : BillState.ofCode st.code = some st := by
  cases st <;> rfl

def packBill (owner : Address) (tokenId : BitVec 8) (state : BillState) : Bytes32 :=
  Word.place 96 owner.bits ||| Word.place 88 tokenId ||| Word.place 80 state.code

def billOwner (b : Bytes32) : Address := ⟨Word.field 96 160 b⟩

def billTokenId (b : Bytes32) : BitVec 8 := Word.field 88 8 b

/-- `_billState`; `none` where the conversion to the enumeration panics. -/
def billState (b : Bytes32) : Option BillState := BillState.ofCode (Word.field 80 8 b)

def setBillState (b : Bytes32) (state : BillState) : Bytes32 :=
  Word.clear 80 8 b ||| Word.place 80 state.code

section Readers

variable (owner : Address) (tokenId : BitVec 8) (state : BillState) (b : Bytes32)

@[simp] theorem billOwner_packBill : billOwner (packBill owner tokenId state) = owner := by
  rw [billOwner, packBill, Word.field_or, Word.field_or, Word.field_place _ (by decide),
    Word.field_place_of_disjoint _ (by decide), Word.field_place_of_disjoint _ (by decide)]
  simp

@[simp] theorem billTokenId_packBill : billTokenId (packBill owner tokenId state) = tokenId := by
  rw [billTokenId, packBill, Word.field_or, Word.field_or, Word.field_place tokenId (by decide),
    Word.field_place_of_disjoint _ (by decide), Word.field_place_of_disjoint _ (by decide)]
  simp

@[simp] theorem billState_packBill : billState (packBill owner tokenId state) = some state := by
  rw [billState, packBill, Word.field_or, Word.field_or, Word.field_place state.code (by decide),
    Word.field_place_of_disjoint _ (by decide), Word.field_place_of_disjoint _ (by decide)]
  simp

@[simp] theorem billOwner_setBillState : billOwner (setBillState b state) = billOwner b := by
  rw [billOwner, billOwner, setBillState, Word.field_or,
    Word.field_clear_of_disjoint _ (by decide) (by decide),
    Word.field_place_of_disjoint _ (by decide)]
  simp

@[simp] theorem billTokenId_setBillState : billTokenId (setBillState b state) = billTokenId b := by
  rw [billTokenId, billTokenId, setBillState, Word.field_or,
    Word.field_clear_of_disjoint _ (by decide) (by decide),
    Word.field_place_of_disjoint _ (by decide)]
  simp

@[simp] theorem billState_setBillState : billState (setBillState b state) = some state := by
  rw [billState, setBillState, Word.field_or, Word.field_clear _ (by decide),
    Word.field_place _ (by decide)]
  simp

@[simp] theorem billOwner_zero : billOwner 0#256 = 0 := by decide

@[simp] theorem billTokenId_zero : billTokenId 0#256 = 0 := by decide

@[simp] theorem billState_zero : billState 0#256 = some .minted := by decide

end Readers

end Karma.Bilateral
