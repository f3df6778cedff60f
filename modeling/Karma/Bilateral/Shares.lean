import Karma.Bilateral.Records

/-! # `KarmaBilateral` — what each party gets

A call about a binding that goes through has run the code of the payout that `Call.payoff` names
(`disposes_of_step`), and `Payoff.Makes` says what that pays to whom. -/

namespace Karma.Bilateral

open Evm

variable {D : Deployment} {env : Env} {w u : World} {sender : Address} {b : ℕ}

/-! ## What each party gets -/

section Parties

variable {t a a' : Address} {n : ℕ} {ms ms' : List Move}

@[simp] theorem sentTo_append (t a : Address) (ms ms' : List Move) :
    sentTo t a (ms ++ ms') = sentTo t a ms + sentTo t a ms' := by
  simp [sentTo]

theorem Pays.sentTo (h : Pays t a n ms) : sentTo t a ms = n := by
  rcases h with rfl | ⟨rfl, rfl⟩ <;> simp [Bilateral.sentTo]

theorem Pays.sentTo_of_ne (h : Pays t a n ms) (hne : a ≠ a') : Bilateral.sentTo t a' ms = 0 := by
  rcases h with rfl | ⟨rfl, rfl⟩ <;> simp [Bilateral.sentTo, hne]

theorem Payoff.Makes.split_shares {B : Book} {x : Binding} {bps : ℕ} (hm : B.Matched x)
    (h : (Payoff.split bps).Makes B x ms) :
    sentTo (B.poolToken x) (B.bill x.buyerBillId).owner ms = B.pool x * bps / 10000 ∧
      sentTo (B.poolToken x) (B.bill x.agentBillId).owner ms =
        B.pool x - B.pool x * bps / 10000 := by
  obtain ⟨ms₁, ms₂, hbuyer, hagent, rfl⟩ := h
  rw [sentTo_append, sentTo_append, hbuyer.sentTo, hagent.sentTo,
    hagent.sentTo_of_ne hm.owners_ne.symm, hbuyer.sentTo_of_ne hm.owners_ne]
  exact ⟨Nat.add_zero _, Nat.zero_add _⟩

theorem Payoff.Makes.refund_shares {B : Book} {x : Binding} (hm : B.Matched x)
    (h : Payoff.refund.Makes B x ms) :
    sentTo (B.poolToken x) (B.bill x.buyerBillId).owner ms = (B.bill x.buyerBillId).amount ∧
      sentTo (B.poolToken x) (B.bill x.agentBillId).owner ms = (B.bill x.agentBillId).amount := by
  have hne := hm.owners_ne
  rw [show ms = _ from h]
  simp [sentTo, hne, hne.symm]

end Parties

/-! ## Transactions -/

theorem of_step {c : Call} {P : World → Prop} (h : step D w (.call sender env c) = some u)
    (hbody : (c.body D env sender).post (fun _ v => P { v with entered := false })
      { w.fresh with entered := true }) : P u := by
  rw [step] at h
  split_ifs at h with hsender
  split at h
  case h_1 x hr =>
    cases h
    have hexec : (c.exec D env sender).post (fun _ v => P v) w.fresh := by
      simp only [Call.exec, nonReentrant, Tx.post_code]
      exact fun _ => hbody
    exact Tx.wp_ok hexec hr
  case h_2 => cases h

theorem Disposes.flag {c : Call} {e : Bool} (h : Disposes D env w b c u) :
    Disposes D env w b c { u with entered := e } := by
  rw [Disposes] at h ⊢
  split at h
  · exact h
  · exact h.beside ⟨_, _, _, rfl⟩

theorem disposes_of_step {c : Call} (h : step D w (.call sender env c) = some u)
    (hc : c.binding = some b) : Disposes D env { w.fresh with entered := true } b c u :=
  of_step h (post_body c fun _ _ hd => (hd b hc).flag)

theorem created_of_step {c : Call} (h : step D w (.call sender env c) = some u)
    (hc : c.binding = some b) : (w.bindings b).createdAt ≠ 0 := by
  cases records_of_step h with
  | call _ _ hf _ =>
    cases hf with
    | lock | lockFor | unlock | bind | bindIntent | bindAttested | bindIntentAttested => cases hc
    | submitted hu | attested hu | enclave hu | refunded hu | finalized hu | disputed hu
    | testified hu | autoResolved hu | resolved _ hu =>
      cases hc
      exact hu.created

theorem step_isSome_iff {c : Call} : (step D w (.call sender env c)).isSome ↔
    ¬ (sender = D.self ∨ sender = 0) ∧ (c.body D env sender).wp (fun _ => True) (fun _ => False)
      (fun _ _ => True) { w.fresh with entered := true } := by
  have hexec : (c.exec D env sender).wp (fun _ => True) (fun _ => False) (fun _ _ => True) w.fresh ↔
      (c.body D env sender).wp (fun _ => True) (fun _ => False) (fun _ _ => True)
        { w.fresh with entered := true } := by
    simp only [Call.exec, nonReentrant, Tx.wp_code]
    exact ⟨fun h => h.2 Bool.false_ne_true, fun h => ⟨Bool.false_ne_true, fun _ => h⟩⟩
  rw [← hexec, step]
  by_cases hsender : sender = D.self ∨ sender = 0
  · simp [hsender]
  · rw [if_neg hsender]
    constructor
    · intro hsome
      refine ⟨hsender, fun _ _ => trivial, ?_⟩
      split at hsome
      case h_1 hr =>
        rw [hr]
        trivial
      case h_2 => cases hsome
    · rintro ⟨-, hwp⟩
      obtain ⟨_, v, hr, -⟩ := Tx.exists_ok_of_wp hwp
      rw [hr]
      rfl

end Karma.Bilateral
