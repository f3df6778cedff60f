import Karma.Bilateral.Settlement

/-! # `KarmaBilateral` — transactions and runs

`wp_exec` puts the rules of the entry points together under the reentrancy guard, and
`transition_of_step` inverts one transaction of the system. -/

namespace Karma.Bilateral

open Evm

variable {D : Deployment} {env : Env} {w w' : World} {sender : Address} {I : World → Prop}

/-! ## Whole transactions -/

theorem wp_body {Q : Unit → World → Prop} (hs : Sound D w) (c : Call)
    (hQ : ∀ v, Effect D w sender c v → Q () v) :
    (c.body D env sender).wp (Solvent D) Clean Q w := by
  cases c with
  | lock =>
    simp only [Call.body, lock, Tx.wp_code]
    refine wp_lockInto hs fun _ v howner hamount hreg hd => hQ v ?_
    exact .lock howner hamount ⟨hd, hreg ▸ .refl⟩
  | lockFor =>
    simp only [Call.body, Tx.wp_code]
    exact wp_lockFor hs fun _ => hQ
  | bind =>
    simp only [Call.body, Tx.wp_code]
    exact wp_bind hs fun _ => hQ
  | bindWithAttestation =>
    simp only [Call.body, Tx.wp_code]
    exact wp_bindWithAttestation hs fun _ => hQ
  | bindWithIntent =>
    simp only [Call.body, Tx.wp_code]
    exact wp_bindWithIntent hs fun _ => hQ
  | settle => exact wp_settle hs hQ
  | finalizeSettle => exact wp_finalizeSettle hs hQ
  | dispute => exact wp_dispute hs hQ
  | submitArbitrationEvidence => exact wp_submitArbitrationEvidence hs hQ
  | autoResolveArbitration => exact wp_autoResolveArbitration hs hQ
  | settleWithTEE => exact wp_settleWithTEE hs hQ
  | settleWithZKProof =>
    simp only [Call.body, settleWithZKProof, Tx.wp_revert]
    exact id
  | resolveDispute => exact wp_resolveDispute hs hQ
  | refundOnTimeout => exact wp_refundOnTimeout hs hQ
  | unlock => exact wp_unlock hs hQ

theorem Deals.flag {e e' : Bool} {B : Book} {ms : List Move}
    (h : Deals D { w with entered := e } w' B ms) : Deals D w { w' with entered := e' } B ms :=
  ⟨h.book, h.moves, h.now, ⟨h.wf.listed, h.wf.ids, h.wf.states⟩, h.solvent, h.backs⟩

theorem Done.flag {e e' : Bool} {B : Book} {ms : List Move}
    (h : Done D { w with entered := e } w' B ms) : Done D w { w' with entered := e' } B ms :=
  ⟨h.toDeals.flag, h.registry⟩

theorem Effect.flag {e e' : Bool} {c : Call} (h : Effect D { w with entered := e } sender c w') :
    Effect D w sender c { w' with entered := e' } := by
  cases h with
  | lock howner hamount hd => exact .lock howner hamount hd.flag
  | lockFor howner hamount hc hd =>
    exact .lockFor howner hamount ⟨hc.isSet, hc.own, hc.other⟩ hd.flag
  | bind hp hb hlive hst hd =>
    exact .bind hp ⟨hb.buyer, hb.agent, hb.sender, hb.buyer_minted, hb.agent_minted, hb.owners_ne,
      hb.token_eq⟩ hlive hst hd.flag
  | revise hb hlive hx hopen hnext hd => exact .revise hb hlive hx hopen hnext hd.flag
  | close hb hlive hx hclosed hnext hc =>
    obtain ⟨ms, hpay, hd⟩ := hc
    exact .close hb hlive hx hclosed hnext ⟨ms, hpay, hd.flag⟩
  | unlock howner hsender hst hd => exact .unlock howner hsender hst hd.flag

theorem Sound.flag (hs : Sound D w) (e : Bool) : Sound D { w with entered := e } :=
  ⟨⟨hs.wf.listed, hs.wf.ids, hs.wf.states⟩, hs.balanced, hs.solvent, hs.now⟩

theorem wp_exec (hs : Sound D w) (env : Env) (sender : Address) (c : Call) :
    (c.exec D env sender).wp (Solvent D) Clean (fun _ v => Effect D w sender c v) w := by
  simp only [Call.exec, nonReentrant, Tx.wp_code]
  refine ⟨fun _ => id, fun _ => ?_⟩
  exact wp_body (hs.flag true) c fun v hv => hv.flag

theorem Effect.sound {c : Call} (hs : Sound D w) (h : Effect D w sender c w') : Sound D w' := by
  -- all that is left of soundness is that the new book balances
  have hdeals : ∀ {B ms}, Deals D w w' B ms → B.Balanced → Sound D w' := by
    intro B ms hd hB
    refine ⟨hd.wf, ?_, hd.solvent, ?_⟩
    · rw [hd.book]
      exact hB
    · rw [hd.now]
      exact hs.now
  cases h with
  | lock howner _ hd => exact hdeals hd.toDeals (hs.balanced.mint howner)
  | lockFor howner _ _ hd => exact hdeals hd (hs.balanced.mint howner)
  | bind _ hb hlive _ hd => exact hdeals hd.toDeals (hs.balanced.pair hb.matched hlive hb.minted)
  | revise _ hlive hx hopen _ hd =>
    exact hdeals hd.toDeals (hs.balanced.revise hx ⟨fun _ => hlive.2, fun _ => hopen⟩)
  | close _ hlive hx hclosed _ hc =>
    obtain ⟨ms, -, hd⟩ := hc
    exact hdeals hd.toDeals (hs.balanced.close hx hlive hclosed)
  | unlock howner _ hst hd => exact hdeals hd.toDeals (hs.balanced.release howner hst)

/-! ## Runs -/

theorem Sound.fresh (hs : Sound D w) : Sound D w.fresh :=
  ⟨⟨hs.wf.listed, hs.wf.ids, hs.wf.states⟩, hs.balanced, hs.solvent, hs.now⟩

inductive Transition (D : Deployment) (w : World) : Act → World → Prop
  | tick {time : ℕ} : w.now ≤ time → Transition D w (.tick time) { w.fresh with now := time }
  | outside {o : Outside} {w' : World} :
      o.attempt D w.fresh = some w' → Foreign D w.fresh w' → Transition D w (.outside o) w'
  | call {sender : Address} {env : Env} {c : Call} {w' : World} :
      sender ≠ D.self → sender ≠ 0 → Effect D w.fresh sender c w' →
      Transition D w (.call sender env c) w'

theorem transition_of_step {a : Act} (hs : Sound D w) (h : step D w a = some w') :
    Transition D w a w' := by
  cases a with
  | tick time =>
    rw [step] at h
    split_ifs at h with htime
    cases h
    exact .tick htime
  | outside o => exact .outside h (foreign_of_attempt h)
  | call sender env c =>
    rw [step] at h
    split_ifs at h with hsender
    rw [not_or] at hsender
    split at h
    case h_1 u hr =>
      cases h
      exact .call hsender.1 hsender.2 (Tx.wp_ok (wp_exec hs.fresh env sender c) hr)
    case h_2 => cases h

theorem Transition.sound {a : Act} (hs : Sound D w) (h : Transition D w a w') : Sound D w' := by
  cases h with
  | tick htime =>
    exact ⟨⟨hs.wf.listed, hs.wf.ids, hs.wf.states⟩, hs.balanced, hs.solvent, hs.now.trans_le htime⟩
  | outside _ hf => exact Foreign.sound hf hs.fresh
  | call _ _ he => exact he.sound hs.fresh

theorem balanced_empty : Book.Balanced
    { bill := fun _ => {}, billCounter := 0, binding := fun _ => {}, bindingCounter := 0,
      totalLocked := fun _ => 0, pendingBatchAmount := fun _ => 0, freeBalance := fun _ => 0,
      boundBalance := fun _ => 0 } := by
  constructor
  · constructor <;> simp [Binding.Live] <;> omega
  · constructor <;> simp

theorem Init.sound (h : Init D w) : Sound D w := by
  have hbook : w.book =
      { bill := fun _ => {}, billCounter := 0, binding := fun _ => {}, bindingCounter := 0,
        totalLocked := fun _ => 0, pendingBatchAmount := fun _ => 0, freeBalance := fun _ => 0,
        boundBalance := fun _ => 0 } := by
    simp [World.book, World.bill, Config.billToken, h.config, h.ledger, funext_iff]
  refine ⟨⟨?_, fun i => ?_, fun i => ?_⟩, hbook ▸ balanced_empty, fun t => ?_, h.now⟩
  · rw [h.config]
    exact fun t ht => absurd rfl ht
  · simp [h.ledger]
  · simp [h.ledger]
  · -- nothing is locked and nothing is approved, so any balance will do
    simp [Erc20.Backs, Erc20.granted, h.allowance, h.ledger]

theorem Reach.sound {h : History} (hr : Reach D h w) : Sound D w :=
  hr.safe (fun _ => Init.sound) fun _ _ _ hs hstep => (transition_of_step hs hstep).sound hs

end Karma.Bilateral
