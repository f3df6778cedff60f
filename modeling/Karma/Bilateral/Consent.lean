import Karma.Bilateral.Payments

/-! # `KarmaBilateral` — being bound without consent

An account that only locks and withdraws its own money does not always get it back. -/

namespace Karma.Bilateral

open Evm

variable {D : Deployment} {h : History} {w w' : World} {a : Address} {e : Entry World Act}

/-! ## Accounts that only lock and withdraw -/

def Outside.IsApproval : Outside → Prop
  | .erc20 _ _ (.approve _ _) => True
  | _ => False

instance : DecidablePred Outside.IsApproval := fun o => by
  unfold Outside.IsApproval
  split <;> infer_instance

def Call.IsCustody : Call → Prop
  | .lock _ _ | .unlock _ => True
  | _ => False

instance : DecidablePred Call.IsCustody := fun c => by
  unfold Call.IsCustody
  split <;> infer_instance

/-- Every call that foreign code makes in the course of a transaction. -/
def Env.acts (env : Env) : List Outside :=
  env.consumeAuthorization.acts ++ env.registerTaskPublisher.acts ++ env.collectAndRecord.acts ++
    (env.record.map Reply.acts).getD []

/-- All that account `a` calls in the transaction are approvals, `lock` and `unlock`. -/
def Act.OnlyCustody (a : Address) : Act → Prop
  | .tick _ => True
  | .outside o => o.sender = a → o.IsApproval
  | .call sender env c =>
    (sender = a → c.IsCustody) ∧ ∀ o ∈ env.acts, o.sender = a → o.IsApproval

instance (a : Address) : DecidablePred (Act.OnlyCustody a) := fun act => by
  unfold Act.OnlyCustody
  split <;> infer_instance

/-- **A mere saver**: in the transaction `e` account `a` calls nothing but approvals, `lock` and
`unlock`. -/
structure Saver (D : Deployment) (a : Address) (e : Entry World Act) : Prop where
  calls : e.act.OnlyCustody a
  subAgents : e.pre.registry.masterSubAgentIds a = []
  admin : D.admin ≠ a
  operator : e.pre.settleOperator ≠ a
  gateway : e.pre.attestationGateway ≠ a
  bridge : e.pre.feeBridge ≠ a

instance (a : Address) : DecidablePred (Saver D a) := fun e =>
  decidable_of_iff (e.act.OnlyCustody a ∧ e.pre.registry.masterSubAgentIds a = [] ∧ D.admin ≠ a ∧
      e.pre.settleOperator ≠ a ∧ e.pre.attestationGateway ≠ a ∧ e.pre.feeBridge ≠ a)
    ⟨fun ⟨h1, h2, h3, h4, h5, h6⟩ => ⟨h1, h2, h3, h4, h5, h6⟩,
      fun ⟨h1, h2, h3, h4, h5, h6⟩ => ⟨h1, h2, h3, h4, h5, h6⟩⟩

def Repaid (a : Address) (i : ℕ) (e : Entry World Act) : Prop :=
  (e.pre.bill i).owner = a → (e.pre.bill i).state ≠ .burned → (e.post.bill i).state = .burned →
    (e.pre.bill i).amount ≤ sentTo (e.pre.bill i).token a e.post.moves

instance (a : Address) (i : ℕ) : DecidablePred (Repaid a i) := fun e => by
  unfold Repaid
  infer_instance

/-! ## Nobody binds the account's bills -/

def Act.agentBill : Act → Option ℕ
  | .call _ _ c => c.pairs.map Prod.snd
  | _ => none

def SparesAgent (a : Address) (e : Entry World Act) : Prop :=
  ∀ j ∈ e.act.agentBill, (e.pre.bill j).owner ≠ a

instance (a : Address) : DecidablePred (SparesAgent a) := fun e => by
  unfold SparesAgent
  infer_instance

theorem owner_ne_of_pair {sender : Address} {env : Env} {c : Call} {x : Binding}
    (hsaver : Saver D a ⟨w, .call sender env c, w'⟩)
    (hspares : SparesAgent a ⟨w, .call sender env c, w'⟩)
    (hc : c.pairs = some (x.buyerBillId, x.agentBillId))
    (hb : Bindable w sender x.buyerBillId x.agentBillId) {k : ℕ} (hk : x.Holds k) :
    (w.bill k).owner ≠ a := by
  rcases hk with rfl | rfl
  · rw [hb.sender]
    intro hs
    -- a call of the saver's is a lock or a withdrawal, and these pair nothing
    have hcustody := hsaver.calls.1 hs
    cases c with
    | lock | unlock => cases hc
    | _ => exact hcustody
  · exact hspares x.agentBillId (by simp [Act.agentBill, hc])

theorem not_bound_of_spared (hr : Reach D h w) (hsaver : ∀ e ∈ h, Saver D a e)
    (hspares : ∀ e ∈ h, SparesAgent a e) (i : ℕ) (hi : (w.bill i).owner = a) :
    (w.bill i).state ≠ .bound := by
  revert hsaver hspares hi
  refine hr.invariant (P := fun h w => (∀ e ∈ h, Saver D a e) → (∀ e ∈ h, SparesAgent a e) →
    (w.bill i).owner = a → (w.bill i).state ≠ .bound) ?_ ?_
  · intro w hw _ _ _
    simp [World.bill, hw.ledger]
  · intro h w act w' hr ih hstep hsaver hspares hi
    rw [List.forall_mem_cons] at hsaver hspares
    cases (turn_of_step (Reach.sound hr) hstep).billTurn i with
    | same hb =>
      rw [hb] at hi ⊢
      exact ih hsaver.2 hspares.2 hi
    | minted _ _ hb | paid _ _ _ hb | withdrawn _ _ hb =>
      -- the bill comes out minted or burned
      rw [hb]
      simp
    | bound hc hbind hx hb =>
      rw [hb] at hi
      exact absurd hi (owner_ne_of_pair hsaver.1 hspares.1 hc hbind hx)

theorem BillTurn.repaid {act : Act} {i : ℕ} (ht : BillTurn w w' i act) (hs : Sound D w)
    (hfree : (w.bill i).state ≠ .bound) : Repaid a i ⟨w, act, w'⟩ := by
  intro howner hpre hpost
  change (w.bill i).state ≠ .burned at hpre
  change (w'.bill i).state = .burned at hpost
  cases ht with
  | same hb =>
    rw [hb] at hpost
    exact absurd hpost hpre
  | minted _ _ hb | bound _ _ _ hb =>
    rw [hb] at hpost
    cases hpost
  -- a payout burns only bills that were bound
  | paid _ hlive hholds _ => exact absurd (hs.balanced.paired.held _ i hlive hholds) hfree
  | withdrawn hsender _ _ hmoves =>
    obtain rfl : (w.bill i).owner = a := howner
    show (w.bill i).amount ≤ sentTo (w.bill i).token (w.bill i).owner w'.moves
    rw [hmoves, ← hsender]
    simp [sentTo]

/-- **A saver is repaid, unless somebody binds the saver's bill.** -/
theorem repaid_unless_bound (hr : Reach D h w) (hsaver : ∀ e ∈ h, Saver D a e)
    (hspares : ∀ e ∈ h, SparesAgent a e) : ∀ e ∈ h, ∀ i, Repaid a i e := by
  intro e he i
  obtain ⟨later, before, rfl⟩ := List.append_of_mem he
  obtain ⟨hbefore, hstep⟩ := hr.of_append
  have hs : Sound D e.pre := Reach.sound hbefore
  have hearlier : ∀ e' ∈ before, e' ∈ later ++ e :: before := fun e' he' =>
    List.mem_append_right _ (List.mem_cons_of_mem _ he')
  intro howner
  refine ((turn_of_step hs hstep).billTurn i).repaid hs ?_ howner
  exact not_bound_of_spared hbefore (fun e' he' => hsaver e' (hearlier e' he'))
    (fun e' he' => hspares e' (hearlier e' he')) i howner

namespace Sample

def saving : List Act :=
  [.outside (.core deployment.admin (.setTokenAllowed token true)),
    .outside (.erc20 agent token (.approve deployment.self 50)),
    .call agent {} (.lock token 50),
    .outside (.erc20 buyer token (.approve deployment.self 100)),
    .call buyer {} (.lock token 100),
    .call agent {} (.unlock 1)]

def robbery : List Act :=
  [.outside (.core deployment.admin (.setTokenAllowed token true)),
    .outside (.erc20 agent token (.approve deployment.self 50)),
    .call agent {} (.lock token 50),
    .outside (.erc20 buyer token (.approve deployment.self 1)),
    .call buyer {} (.lock token 1),
    .call buyer {} (.bind 2 1 0#256),
    .tick 1900,
    .call buyer {} (.settle 1 0#256),
    .call buyer {} (.dispute 1 0#256),
    .tick 261100,
    .call buyer {} (.autoResolveArbitration 1)]

end Sample

open Sample

theorem repaid_unless_bound_sample : (world saving).moves = [.sent token agent 50] ∧
      ∀ e ∈ history saving, ∀ i, Repaid agent i e :=
  ⟨by decide +kernel, repaid_unless_bound (reach saving (by decide +kernel))
    (by decide +kernel) (by decide +kernel)⟩

/-- **Robbed without consent.** In the sample run the agent only locks 50. -/
theorem robbed_without_consent : Reach deployment (history robbery) (world robbery) ∧
      (∀ e ∈ history robbery, Saver deployment agent e) ∧
      (∃ e ∈ history robbery, ¬ Repaid agent 1 e) ∧
      (world robbery).moves = [.sent token buyer 51] :=
  ⟨reach robbery (by decide +kernel), by decide +kernel, by decide +kernel,
    by decide +kernel⟩

end Karma.Bilateral
