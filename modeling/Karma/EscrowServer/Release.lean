import Karma.EscrowServer.Direction

/-! # Releasing what an order holds

`submit_for_task` opens the payout window of an order decided for the seller. -/

namespace Karma.EscrowServer

open Evm AllowanceEscrow Function

section Release

variable {T : Type} [DecidableEq T] {cfg : Config T} {S S' : State T} {read : Bool} {b : ℕ}
  {row : Row T} {h : List (Entry (State T) (Act T))}

/-! ## A release that fails -/

variable {p : Plan T} {committed : Bool}

variable {books : Books} {given : Option ℕ}

def Plan.about : Plan T → Option ℕ
  | .idle => none
  | .write b _ | .send b _ _ _ | .rebind b _ _ _ _ => some b

inductive Push (b : ℕ) (row : Row T) : Plan T → Prop
  | cancel : Push b row (.send b (.cancelBinding b) row .cancelled)
  | submit {proof : Bytes32} : Push b row (.send b (.submitSettlement b proof) row .finalizing)
  | breach {proof : Bytes32} : Push b row (.send b (.submitBreach b proof) row .breaching)
  | pay : Push b row (.send b (.finalizeSettlement b) row .settled)
  | slash : Push b row (.send b (.finalizeBreach b) row .slashed)
  | rebind {i j amount : ℕ} : Push b row (.rebind b row i j amount)

omit [DecidableEq T] in
theorem Push.about (hp : Push b row p) : p.about = some b := by
  cases hp <;> rfl

variable {d : ℕ}

end Release

namespace Sample

def disputing : List (Act ℕ) :=
  locked ++ [.job (.markDisputeForTask 1) true 1 true, .book 0 (some (booked .refunded))]

def row (state : RowState) : Row ℕ := ⟨0, state, 40, none, 100⟩

end Sample

end Karma.EscrowServer
