import Karma.Bilateral.Payments
import Karma.Bilateral.Records

/-! # `KarmaBilateral` — the parties of a binding

The owner of a bill is fixed when the bill is minted, and the bills of a binding when it is made. -/

namespace Karma.Bilateral

open Evm Function

variable {D : Deployment} {h : History} {w w' : World} {a : Act} {b : ℕ} {sender : Address}
  {s : Scene} {c : Call} {d : Docket} {n : Notices}

theorem Turn.owner (hs : Sound D w) (ht : Turn w w' a) {i : ℕ} (hi : (w.bill i).owner ≠ 0) :
    (w'.bill i).owner = (w.bill i).owner := by
  cases ht.billTurn i with
  | same hb => rw [hb]
  | bound _ _ _ hb | paid _ _ _ hb | withdrawn _ _ hb => rw [hb, BillToken.withState_owner]
  | minted _ hnew _ _ =>
    -- the number of the next bill was not in use
    have hle := ((hs.balanced.paired.bill_iff i).mp hi).2
    simp only [World.book] at hle
    omega

theorem Sound.ne_new (hs : Sound D w) (hb : (w.bindings b).createdAt ≠ 0) :
    b ≠ w.bindingCounter + 1 := by
  rintro rfl
  have hle := ((hs.balanced.paired.binding_iff _).mp hb).2
  simp [World.book] at hle

theorem Sound.parties_ne_zero (hs : Sound D w) (hb : (w.bindings b).createdAt ≠ 0) :
    w.buyerOf b ≠ 0 ∧ w.agentOf b ≠ 0 := by
  have hm := hs.balanced.paired.matched b hb
  exact ⟨hm.buyer, hm.agent⟩

theorem parties_of_step (hs : Sound D w) (h : step D w a = some w')
    (hb : (w.bindings b).createdAt ≠ 0) :
    (w'.bindings b).createdAt = (w.bindings b).createdAt ∧ w'.buyerOf b = w.buyerOf b ∧
      w'.agentOf b = w.agentOf b := by
  have ht := turn_of_step hs h
  obtain ⟨hrev, -⟩ := (ht.binding_advances hs b).kept hb
  obtain ⟨hbuyer, hagent⟩ := hs.parties_ne_zero hb
  refine ⟨hrev.createdAt, ?_, ?_⟩
  · rw [Ledger.buyerOf, hrev.buyer]
    exact ht.owner hs hbuyer
  · rw [Ledger.agentOf, hrev.agent]
    exact ht.owner hs hagent

theorem Files.made (hf : Files D s sender c d n) (hold : (s.bindings b).createdAt = 0)
    (hmade : (d.bindings b).createdAt ≠ 0) :
    b = s.bindingCounter + 1 ∧ ∃ i j scopeHash st, c.pairs = some (i, j) ∧ Offers s sender i j ∧
      (st = .active ∨ st = .pending) ∧ d.bindings b = s.opening i j scopeHash st := by
  -- a call on a binding asks for it to exist
  have hrevise : ∀ {k x}, (s.bindings k).createdAt ≠ 0 → (s.docket.revise k x).bindings b =
      s.bindings b := by
    intro k x hk
    refine update_of_ne ?_ _ _
    rintro rfl
    exact hk hold
  have henter : ∀ {x}, ((s.docket.enter x).bindings b).createdAt ≠ 0 →
      b = s.bindingCounter + 1 ∧ (s.docket.enter x).bindings b = x := by
    intro x hx
    by_cases hb : b = s.bindingCounter + 1
    · subst hb
      exact ⟨rfl, update_self ..⟩
    · rw [show (s.docket.enter x).bindings b = s.bindings b from update_of_ne hb _ _] at hx
      exact absurd hold hx
  cases hf with
  | lock | lockFor | unlock | testified => exact absurd hold hmade
  | bind hoffers hst | bindAttested hoffers hst | bindIntent hoffers hst
  | bindIntentAttested hoffers hst =>
    obtain ⟨hb, hx⟩ := henter hmade
    exact ⟨hb, _, _, _, _, rfl, hoffers, hst, hx⟩
  | submitted hu | attested hu | enclave hu | refunded hu =>
    rw [hrevise hu.created] at hmade
    exact absurd hold hmade
  | finalized hfin =>
    rw [hrevise hfin.created] at hmade
    exact absurd hold hmade
  | disputed hfin =>
    rw [Docket.arbitrate, hrevise hfin.created] at hmade
    exact absurd hold hmade
  | autoResolved hdis | resolved _ hdis =>
    rw [Docket.arbitrate, hrevise hdis.created] at hmade
    exact absurd hold hmade

theorem Reach.buyer_ne_self (hr : Reach D h w) (hb : (w.bindings b).createdAt ≠ 0) :
    w.buyerOf b ≠ D.self := by
  revert hb
  refine hr.invariant (P := fun _ w => (w.bindings b).createdAt ≠ 0 → w.buyerOf b ≠ D.self) ?_ ?_
  · intro w hw hb
    simp [hw.ledger] at hb
  · intro h w a w' hr ih hstep hb
    have hs := Reach.sound hr
    by_cases hold : (w.bindings b).createdAt = 0
    · -- made by this transaction: the caller is the buyer
      cases records_of_step hstep with
      | tick _ => exact absurd hold hb
      | outside _ hidle =>
        rw [show w'.bindings = w.bindings from congrArg Docket.bindings hidle.docket] at hb
        exact absurd hold hb
      | call hself _ hf hlogs =>
        have hpost : w'.bindings b = _ := congrFun (congrArg Docket.bindings hlogs.docket) b
        rw [hpost] at hb
        obtain ⟨-, i, j, _, _, -, hoffers, -, hx⟩ := hf.made hold hb
        have howner : (w'.bill i).owner = (w.bill i).owner :=
          (turn_of_step hs hstep).owner hs hoffers.buyer
        have hbuyer : w'.buyerOf b = (w'.bill i).owner := by
          rw [Ledger.buyerOf, hpost, hx]
          rfl
        rw [hbuyer, howner]
        exact fun h => hself (hoffers.sender.symm.trans h)
    · rw [(parties_of_step hs hstep hold).2.1]
      exact ih hold

end Karma.Bilateral
