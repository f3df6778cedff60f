import Karma.Bilateral.Delegation
import Karma.Evm.Keeps
import Karma.IdentityRegistry.Allowances

/-! # `KarmaBilateral` — allowances and free balances

The registry compares the allowances of a master's active sub-agents with the master's free balance
when it sets one of them. -/

namespace Karma.Bilateral

open Evm IdentityRegistry Function

variable {D : Deployment} {env : Env} {h : History} {w w' v v' : World} {sender : Address}

/-! ## What keeps the allowances within the free balances -/

def Budgeted (v v' : World) : Prop :=
  v.registry.Sound → 0 < v.now → v'.registry.Sound ∧ v'.now = v.now ∧
    ∀ m, v.registry.granted m ≤ v.freeBalance m → v'.registry.granted m ≤ v'.freeBalance m

instance : IsPreorder World Budgeted where
  refl _ hs _ := ⟨hs, rfl, fun _ => id⟩
  trans v v' v'' h h' hs hnow := by
    obtain ⟨hs', hnow', hle⟩ := h hs hnow
    obtain ⟨hs'', hnow'', hle'⟩ := h' hs' (hnow' ▸ hnow)
    exact ⟨hs'', hnow''.trans hnow', fun m hm => hle' m (hle m hm)⟩

theorem Budgeted.of_eq (hregistry : v'.registry = v.registry) (hnow : v'.now = v.now)
    (hfree : v'.freeBalance = v.freeBalance) : Budgeted v v' := by
  intro hs _
  rw [hregistry, hfree]
  exact ⟨hs, hnow, fun _ => id⟩

section Parts

instance (e : Event) : Tx.Keeps Budgeted (emit e) :=
  Tx.keeps_modify fun _ => .of_eq rfl rfl rfl

theorem keeps_writeLedger {f : Ledger → Ledger} (hf : ∀ l, (f l).freeBalance = l.freeBalance) :
    Tx.Keeps Budgeted (writeLedger f) :=
  Tx.keeps_modify fun w => .of_eq rfl rfl (hf w.toLedger)

instance (i : ℕ) (packed : Bytes32) : Tx.Keeps Budgeted (setBill i packed) :=
  keeps_writeLedger fun _ => rfl

instance (b : ℕ) (f : Binding → Binding) : Tx.Keeps Budgeted (updateBinding b f) :=
  keeps_writeLedger fun _ => rfl

instance (b : ℕ) (f : ArbitrationRecord → ArbitrationRecord) :
    Tx.Keeps Budgeted (updateArbitration b f) :=
  keeps_writeLedger fun _ => rfl

instance (b : ℕ) (taskId : Bytes32) : Tx.Keeps Budgeted (requireAttestation b taskId) :=
  keeps_writeLedger fun _ => rfl

end Parts

/-! ## Foreign code -/

-- the instances are composed along whole functions, which makes them long
set_option synthInstance.maxSize 20000

instance (D : Deployment) (sender : Address) : Tx.Keeps Budgeted (onlyAdmin D sender) := by
  unfold onlyAdmin
  infer_instance

theorem budgeted_of_attempt {o : Outside} (ho : o.attempt D w = some w') : Budgeted w w' := by
  unfold Outside.attempt at ho
  split_ifs at ho with hsender
  rw [not_or] at hsender
  cases o with
  | core sender c =>
    dsimp only at ho
    split at ho
    case h_1 u hr =>
      cases ho
      obtain ⟨e, -, -, -, rfl⟩ := Tx.wp_ok (post_openCall c) hr
      exact .of_eq rfl rfl rfl
    case h_2 => cases ho
  | registry sender c =>
    dsimp only at ho
    split at ho
    case h_1 R hr =>
      cases ho
      intro hs hnow
      obtain ⟨hs', hle⟩ := Tx.wp_ok (post_exec_granted hs hnow hsender.2 hsender.1 c) hr
      exact ⟨hs', rfl, hle⟩
    case h_2 => cases ho
  | erc20 sender token c =>
    obtain ⟨T, -, rfl⟩ := Option.map_eq_some_iff.mp ho
    exact .of_eq rfl rfl rfl

theorem budgeted_run (o : Outside) (w : World) : Budgeted w (o.run D w) := by
  rw [Outside.run]
  cases ho : o.attempt D w with
  | none => exact refl_of Budgeted w
  | some v => exact budgeted_of_attempt ho

instance {α : Type} (D : Deployment) (c : OutCall) (r : Reply α) :
    Tx.Keeps Budgeted (callOut D c r) := by
  have hlog : Tx.Keeps Budgeted (Tx.modify fun w => { w with calls := w.calls ++ [c] } : M Unit) :=
    Tx.keeps_modify fun _ => .of_eq rfl rfl rfl
  have hcall : Tx.Keeps Budgeted (Tx.callOut (Outside.run D) r.acts r.answer : M (Option α)) :=
    Tx.keeps_callOut fun o _ w => budgeted_run o w
  unfold callOut
  infer_instance

/-! ## Settlements and disputes -/

section Settling

variable (D : Deployment) (env : Env)

instance (addr : Address) (amount : ℕ) : Tx.Keeps Budgeted (decrementBound addr amount) := by
  have hwrite : ∀ bound, Tx.Keeps Budgeted (writeLedger fun l => { l with
      boundBalance := update l.boundBalance addr bound }) :=
    fun _ => keeps_writeLedger fun _ => rfl
  unfold decrementBound
  infer_instance

instance (token : Address) (amount : ℕ) : Tx.Keeps Budgeted (decrementPending token amount) := by
  have hwrite : ∀ pending, Tx.Keeps Budgeted (writeLedger fun l => { l with
      pendingBatchAmount := update l.pendingBatchAmount token pending }) :=
    fun _ => keeps_writeLedger fun _ => rfl
  unfold decrementPending
  infer_instance

instance (i : ℕ) (bill : Bytes32) (reason : String) :
    Tx.Keeps Budgeted (burnBill i bill reason) := by
  have hwrite : ∀ token locked, Tx.Keeps Budgeted (writeLedger fun l => { l with
      totalLocked := update l.totalLocked token locked }) :=
    fun _ _ => keeps_writeLedger fun _ => rfl
  unfold burnBill
  infer_instance

instance (i j : ℕ) (reason : String) : Tx.Keeps Budgeted (releasePair i j reason) := by
  unfold releasePair
  infer_instance

instance (token target : Address) (amount : ℕ) :
    Tx.Keeps Budgeted (transfer D token target amount) where
  post w := by
    simp only [transfer, Tx.post_code]
    exact fun _ _ => .of_eq rfl rfl rfl

instance (token target : Address) (amount : ℕ) :
    Tx.Keeps Budgeted (transferNonzero D token target amount) := by
  unfold transferNonzero
  infer_instance

instance (b : ℕ) : Tx.Keeps Budgeted (requirePayoutNotFrozen env b) := by
  unfold requirePayoutNotFrozen
  infer_instance

instance (c : OutCall) : Tx.Keeps Budgeted (tryRecord D env c) := by
  unfold tryRecord
  infer_instance

instance (token feeBridge : Address) (fee : ℕ) (c : OutCall) :
    Tx.Keeps Budgeted (approveAndCollect D env token feeBridge fee c) where
  post w := by
    simp only [approveAndCollect, Tx.post_code]
    intro T _
    have happroved : Budgeted w { w with
        tokens := update w.tokens token T,
        moves := w.moves ++ [.granted token feeBridge fee] } := .of_eq rfl rfl rfl
    have hcollect : Tx.Keeps Budgeted (callOut D c env.collectAndRecord) := inferInstance
    refine hcollect.then fun collected v hv => ?_
    exact fun _ => trans_of Budgeted happroved hv

instance (b : ℕ) (token buyer seller developer : Address) (amount : ℕ) :
    Tx.Keeps Budgeted (collectEconomyFee D env b token buyer seller developer amount) := by
  unfold collectEconomyFee
  infer_instance

instance (b i j : ℕ) (proofHash : Bytes32) :
    Tx.Keeps Budgeted (executeSettle D env b i j proofHash) := by
  unfold executeSettle tryRecordSettlement
  infer_instance

instance (b i j : ℕ) : Tx.Keeps Budgeted (executeRefund D env b i j) := by
  unfold executeRefund tryRecordDispute
  infer_instance

instance (b i j buyerShareBps : ℕ) :
    Tx.Keeps Budgeted (executeSplit D env b i j buyerShareBps) := by
  unfold executeSplit tryRecordDispute
  infer_instance

end Settling

instance (D : Deployment) (token : Address) (amount : ℕ) (owner : Address) :
    Tx.Keeps Budgeted (lockInto D token amount owner) where
  post w := by
    simp only [lockInto, Tx.post_code, wp_writeLedger, wp_emit]
    intro _ _ _ _ T _ _ _
    -- the registry is not touched, and the only balance that changes grows
    refine fun hs _ => ⟨hs, rfl, fun m hle => hle.trans ?_⟩
    change w.freeBalance m ≤ update w.freeBalance owner (w.freeBalance owner + amount) m
    rcases eq_or_ne m owner with rfl | hne
    · rw [update_self]
      exact Nat.le_add_right _ _
    · rw [update_of_ne hne]

instance (D : Deployment) (env : Env) (registry sender : Address) (amount : ℕ) :
    Tx.Keeps Budgeted (consumeAuthorization D env registry sender amount) where
  post w := by
    simp only [consumeAuthorization, Tx.wp_code]
    refine ⟨fun _ => ?_, fun _ => ?_⟩
    · split
      case h_1 answer R hr =>
        simp only [Tx.wp_code]
        intro hs _
        obtain ⟨hs', hle⟩ := Tx.wp_ok (post_consumeAuthorization hs) hr
        exact ⟨hs', rfl, fun m hm => (hle m).trans hm⟩
      case h_2 => exact (Tx.wp_revert _).mpr trivial
    · have hcall : Tx.Keeps Budgeted
          (callOut D (.consumeAuthorization sender amount) env.consumeAuthorization) :=
        inferInstance
      refine hcall.then fun answer v hv => ?_
      exact ⟨fun _ => trivial, fun _ _ => hv⟩

/-! ## Withdrawing and binding -/

def Call.debit (w : World) (m : Address) : Call → ℕ
  | .unlock i => if (w.bill i).owner = m then (w.bill i).amount else 0
  | .bind i j _ | .bindWithAttestation i j _ _ | .bindWithIntent _ i j =>
    (if (w.bill i).owner = m then (w.bill i).amount else 0) +
      if (w.bill j).owner = m then (w.bill j).amount else 0
  | _ => 0

/-- Between `w` and `w'` nobody's allowances outgrow what the call leaves of the free balance. -/
def Spends (d : Address → ℕ) (w w' : World) : Prop :=
  w.registry.Sound → 0 < w.now → w'.registry.Sound ∧
    ∀ m, w.registry.granted m + d m ≤ w.freeBalance m → w'.registry.granted m ≤ w'.freeBalance m

variable {d : Address → ℕ}

theorem Budgeted.spends (hb : Budgeted w w') : Spends d w w' := by
  intro hs hnow
  obtain ⟨hs', -, hle⟩ := hb hs hnow
  exact ⟨hs', fun m hm => hle m ((Nat.le_add_right _ _).trans hm)⟩

theorem Spends.of_debit (hregistry : v.registry = w.registry) (hnow : v.now = w.now)
    (hfree : ∀ m, w.freeBalance m ≤ v.freeBalance m + d m) (hb : Budgeted v w') :
    Spends d w w' := by
  intro hs hpos
  obtain ⟨hs', -, hle⟩ := hb (hregistry ▸ hs) (hnow ▸ hpos)
  refine ⟨hs', fun m hm => hle m ?_⟩
  have hfree := hfree m
  rw [hregistry]
  omega

theorem spends_unlock (i : ℕ) :
    (unlock D sender i).post (fun _ w' => Spends (fun m => (Call.unlock i).debit w m) w w') w := by
  simp only [unlock, requireBill, requireBillState, Tx.post_code, wp_writeLedger]
  intro _ howner _ _ _ hfree hle
  have hburn : Tx.Keeps Budgeted (burnBill i (w.bills i) "unlocked") := inferInstance
  have hpay : Tx.Keeps Budgeted
      (transfer D (w.billToken (w.bills i)) sender (w.billAmounts i)) := inferInstance
  refine hburn.then fun _ u hu => hpay.then fun _ w' hw' => ?_
  have hsender : (w.bill i).owner = sender := not_not.mp howner
  refine Spends.of_debit
    (v := { w with freeBalance := debit w.freeBalance sender (w.billAmounts i) }) rfl rfl
    (fun m => ?_) (trans_of Budgeted hu hw')
  -- the owner of the bill is the caller, and nobody else is debited
  rw [Call.debit, hsender]
  exact (debit_apply hle m).ge

theorem free_pair {i j : ℕ} {x : Binding} (hs : Sound D w) (hb : Bindable w sender i j)
    (hi : x.buyerBillId = i) (hj : x.agentBillId = j) (m : Address) :
    (w.book.pair x).freeBalance m + ((if (w.bill i).owner = m then (w.bill i).amount else 0) +
      if (w.bill j).owner = m then (w.bill j).amount else 0) = w.freeBalance m := by
  subst hi hj
  rw [← Nat.add_assoc]
  exact debit_debit_apply hb.owners_ne (hs.balanced.amount_le_freeBalance hb.buyer hb.buyer_minted)
    (hs.balanced.amount_le_freeBalance hb.agent hb.agent_minted) m

theorem Books.spends {i j : ℕ} {x : Binding} (hv : Books w v (w.book.pair x)) (hs : Sound D w)
    (hb : Bindable w sender i j) (hi : x.buyerBillId = i) (hj : x.agentBillId = j)
    (hd : ∀ m, d m = (if (w.bill i).owner = m then (w.bill i).amount else 0) +
      if (w.bill j).owner = m then (w.bill j).amount else 0) (hw' : Budgeted v w') :
    Spends d w w' := by
  refine Spends.of_debit hv.registry hv.now (fun m => ?_) hw'
  have hfree : v.freeBalance = (w.book.pair x).freeBalance := congrArg Book.freeBalance hv.book
  rw [hd, hfree]
  exact (free_pair hs hb hi hj m).ge

section Binding

variable {i j : ℕ}

theorem spends_bind {scopeHash : Bytes32} (hs : Sound D w) : (bind env sender i j scopeHash).post
      (fun _ w' => Spends (fun m => (Call.bind i j scopeHash).debit w m) w w') w := by
  simp only [bind, Tx.wp_bind]
  refine Tx.post_of_wp (wp_requireBindable fun hb => ?_)
  refine Tx.post_of_wp (wp_bindPair hs hb fun x v hi hj _ _ hv => ?_)
  exact hv.spends hs hb hi hj (fun _ => rfl) (refl_of Budgeted v)

instance (D : Deployment) (env : Env) (taskId buyerBill agentBill : Bytes32) :
    Tx.Keeps Budgeted (registerTaskPublisher D env taskId buyerBill agentBill) := by
  unfold registerTaskPublisher
  infer_instance

theorem spends_bindWithAttestation {scopeHash taskId : Bytes32} (hs : Sound D w) :
    (bindWithAttestation D env sender i j scopeHash taskId).post
      (fun _ w' => Spends (fun m => (Call.bindWithAttestation i j scopeHash taskId).debit w m) w w')
      w := by
  simp only [bindWithAttestation, Tx.post_code]
  intro _ _
  refine Tx.post_of_wp (wp_requireBindable fun hb => ?_)
  refine Tx.post_of_wp (wp_bindPair hs hb fun x v hi hj _ _ hv => ?_)
  have hattest : Tx.Keeps Budgeted (requireAttestation (w.bindingCounter + 1) taskId) :=
    inferInstance
  have hregister : Tx.Keeps Budgeted
      (registerTaskPublisher D env taskId (w.bills i) (w.bills j)) := inferInstance
  refine hattest.then fun _ u hu => hregister.then fun _ u' hu' => ?_
  simp only [wp_emit]
  refine hv.spends hs hb hi hj (fun _ => rfl) (trans_of Budgeted (trans_of Budgeted hu hu') ?_)
  exact .of_eq rfl rfl rfl

instance (D : Deployment) (env : Env) (intent : IntentPackage) (b : ℕ)
    (buyerBill agentBill intentHash : Bytes32) :
    Tx.Keeps Budgeted (registerIntent D env intent b buyerBill agentBill intentHash) := by
  unfold registerIntent
  infer_instance

theorem spends_bindWithIntent {intent : IntentPackage} (hs : Sound D w) :
    (bindWithIntent D env sender intent i j).post
      (fun _ w' => Spends (fun m => (Call.bindWithIntent intent i j).debit w m) w w') w := by
  simp only [bindWithIntent, Tx.wp_bind, wp_writeLedger]
  refine Tx.post_of_wp (wp_requireBindable fun hb => ?_)
  refine Tx.post_of_wp (wp_requireIntent ?_)
  refine Tx.post_of_wp (wp_bindPair hs hb fun x v hi hj _ _ hv => ?_)
  have hregister : Tx.Keeps Budgeted (registerIntent D env intent (w.bindingCounter + 1)
      (w.bills i) (w.bills j) (D.intentHash intent)) := inferInstance
  refine hregister.then fun _ u hu => ?_
  simp only [wp_emit, Tx.wp_pure]
  -- the stored document and the event are nothing that matters here
  have hstored : Budgeted v { v with
      intentPackages := update v.intentPackages (w.bindingCounter + 1) intent } :=
    .of_eq rfl rfl rfl
  refine hv.spends hs hb hi hj (fun _ => rfl) (trans_of Budgeted (trans_of Budgeted hstored hu) ?_)
  exact .of_eq rfl rfl rfl

end Binding

/-! ## Whole transactions -/

section Calls

variable (D : Deployment) (env : Env) (sender : Address) (b : ℕ)

instance : Tx.Keeps Budgeted (requireBinding b) := by
  unfold requireBinding
  infer_instance

instance (x : Binding) : Tx.Keeps Budgeted (requireUnsettled b x) := by
  unfold requireUnsettled
  infer_instance

instance (x : Binding) : Tx.Keeps Budgeted (requireSettleDelay x) := by
  unfold requireSettleDelay
  infer_instance

instance (token : Address) (amount : ℕ) (master : Address) :
    Tx.Keeps Budgeted (lockFor D env sender token amount master) := by
  unfold lockFor
  infer_instance

instance (proofHash : Bytes32) : Tx.Keeps Budgeted (settle D env sender b proofHash) := by
  unfold settle
  infer_instance

instance : Tx.Keeps Budgeted (finalizeSettle D env b) := by
  unfold finalizeSettle
  infer_instance

instance (evidenceHash : Bytes32) : Tx.Keeps Budgeted (dispute sender b evidenceHash) := by
  unfold dispute
  infer_instance

instance (evidenceHash : Bytes32) :
    Tx.Keeps Budgeted (submitArbitrationEvidence sender b evidenceHash) := by
  unfold submitArbitrationEvidence
  infer_instance

instance (totalPool windowEnd : ℕ) :
    Tx.Keeps Budgeted (requireAutoResolvable b totalPool windowEnd) := by
  unfold requireAutoResolvable
  infer_instance

instance : Tx.Keeps Budgeted (autoResolveArbitration D env b) := by
  unfold autoResolveArbitration
  infer_instance

instance (proofHash : Bytes32) (teeAttestation : Option TEEAttestation) :
    Tx.Keeps Budgeted (settleWithTEE D env b proofHash teeAttestation) := by
  unfold settleWithTEE
  infer_instance

instance (buyerShareBps : ℕ) : Tx.Keeps Budgeted (resolveDispute D env sender b buyerShareBps) := by
  unfold resolveDispute requireSplitMatchesEvidence
  infer_instance

instance : Tx.Keeps Budgeted (refundOnTimeout D env sender b) := by
  unfold refundOnTimeout
  infer_instance

end Calls

theorem post_of_keeps {α : Type} {x : M α} (hx : Tx.Keeps Budgeted x) :
    x.post (fun _ w' => Spends d w w') w :=
  hx.then fun _ _ hb => hb.spends

theorem spends_body (hs : Sound D w) (c : Call) :
    (c.body D env sender).post (fun _ w' => Spends (fun m => c.debit w m) w w') w := by
  cases c with
  | lock token amount =>
    have hlock : Tx.Keeps Budgeted (lockInto D token amount sender) := inferInstance
    simp only [Call.body, lock, Tx.wp_code]
    exact post_of_keeps hlock
  | lockFor =>
    simp only [Call.body, Tx.wp_code]
    exact post_of_keeps inferInstance
  | bind =>
    simp only [Call.body, Tx.wp_code]
    exact spends_bind hs
  | bindWithAttestation =>
    simp only [Call.body, Tx.wp_code]
    exact spends_bindWithAttestation hs
  | bindWithIntent =>
    simp only [Call.body, Tx.wp_code]
    exact spends_bindWithIntent hs
  | settle | finalizeSettle | dispute | submitArbitrationEvidence | autoResolveArbitration
  | settleWithTEE | resolveDispute | refundOnTimeout =>
    simp only [Call.body]
    exact post_of_keeps inferInstance
  | settleWithZKProof =>
    simp only [Call.body, settleWithZKProof, Tx.wp_revert]
  | unlock i => exact spends_unlock i

theorem spends_exec (hs : Sound D w) (c : Call) :
    (c.exec D env sender).post (fun _ w' => Spends (fun m => c.debit w m) w w') w := by
  simp only [Call.exec, nonReentrant, Tx.post_code]
  intro _
  exact spends_body (hs.flag true) c

variable {c : Call}

theorem Effect.free_debit (he : Effect D w sender c w') (hs : Sound D w) (m : Address)
    (hdebit : c.debit w m ≠ 0) : w'.freeBalance m + c.debit w m = w.freeBalance m := by
  cases he with
  | lock | lockFor => exact absurd rfl hdebit
  | @bind _ x _ hpairs hb _ _ hd =>
    have hfree : w'.freeBalance = (w.book.pair x).freeBalance :=
      congrArg Book.freeBalance hd.book
    rw [hfree]
    cases c with
    | bind | bindWithAttestation | bindWithIntent =>
      obtain ⟨rfl, rfl⟩ := Prod.mk.inj (Option.some.inj hpairs)
      exact free_pair hs hb rfl rfl m
    | _ => cases hpairs
  | revise hbinding | close hbinding =>
    cases c with
    | bind | bindWithAttestation | bindWithIntent | unlock => cases hbinding
    | _ => exact absurd rfl hdebit
  | @unlock i _ howner _ hminted hd =>
    have hfree : w'.freeBalance = debit w.freeBalance (w.bill i).owner (w.bill i).amount :=
      congrArg Book.freeBalance hd.book
    rw [hfree]
    exact debit_apply (hs.balanced.amount_le_freeBalance howner hminted) m

/-! ## Runs -/

def Within (_ : History) (w : World) : Prop := ∀ m, w.registry.granted m ≤ w.freeBalance m

def Spares (R : Registry) (e : Entry World Act) : Prop :=
  match e.act with
  | .call _ _ c => ∀ m, c.debit e.pre m ≠ 0 → R.granted m + c.debit e.pre m ≤ e.pre.freeBalance m
  | _ => True

theorem spares_call {R : Registry}
    (hspares : ∀ m, c.debit w m ≠ 0 → R.granted m + c.debit w m ≤ w.freeBalance m) :
    Spares R ⟨w, .call sender env c, w'⟩ := hspares

theorem spends_of_step (hs : Sound D w) (hstep : step D w (.call sender env c) = some w') :
    Effect D w.fresh sender c w' ∧ Spends (fun m => c.debit w m) w.fresh w' := by
  rw [step] at hstep
  split_ifs at hstep
  split at hstep
  case h_1 u hr =>
    cases hstep
    exact ⟨Tx.wp_ok (wp_exec hs.fresh env sender c) hr, Tx.wp_ok (spends_exec hs.fresh c) hr⟩
  case h_2 => cases hstep

theorem within_of_step {a : Act} (hs : Sound D w) (hregistry : w.registry.Sound) (hw : Within h w)
    (hstep : step D w a = some w')
    (hspares : Spares w.registry ⟨w, a, w'⟩ ∨ Spares w'.registry ⟨w, a, w'⟩) :
    w'.registry.Sound ∧ Within (⟨w, a, w'⟩ :: h) w' := by
  have hfresh : w.fresh.registry.Sound := ⟨hregistry.listed, hregistry.added, hregistry.unique⟩
  cases a with
  | tick time =>
    simp only [step] at hstep
    split_ifs at hstep
    cases hstep
    exact ⟨hfresh, hw⟩
  | outside o =>
    obtain ⟨hregistry', -, hle⟩ := budgeted_of_attempt hstep hfresh hs.now
    exact ⟨hregistry', fun m => hle m (hw m)⟩
  | call sender env c =>
    obtain ⟨he, hspends⟩ := spends_of_step hs hstep
    obtain ⟨hregistry', hle⟩ := hspends hfresh hs.now
    refine ⟨hregistry', fun m => ?_⟩
    by_cases hdebit : c.debit w m = 0
    · apply hle m
      beta_reduce
      rw [hdebit]
      exact hw m
    · rcases hspares with hbefore | hafter
      · exact hle m (hbefore m hdebit)
      · have hspare := hafter m hdebit
        have hfree : w'.freeBalance m + c.debit w m = w.freeBalance m :=
          he.free_debit hs.fresh m hdebit
        dsimp only at hspare
        omega

theorem spares_of_within {a : Act} (hs : Sound D w) (hstep : step D w a = some w')
    (hw' : Within h w') : Spares w'.registry ⟨w, a, w'⟩ := by
  cases a with
  | tick | outside => trivial
  | call sender env c =>
    intro m hdebit
    have hfree : w'.freeBalance m + c.debit w m = w.freeBalance m :=
      (spends_of_step hs hstep).1.free_debit hs.fresh m hdebit
    have hle := hw' m
    dsimp only
    omega

/-- **Allowances within free balances.** -/
theorem allowances_within_iff (hr : Reach D h w) :
    ((∀ e ∈ h, Spares e.pre.registry e) → Throughout Within h w) ∧
      (Throughout Within h w ↔ ∀ e ∈ h, Spares e.post.registry e) := by
  have hstart : ∀ v, Init D v → v.registry.Sound ∧ Within [] v := by
    intro v hv
    have hlisted : ∀ m, ∀ id ∈ v.registry.masterSubAgentIds m, False := by
      rw [hv.registry]
      exact fun _ _ hid => absurd hid List.not_mem_nil
    refine ⟨⟨fun m id hid => (hlisted m id hid).elim, ?_, ?_⟩, fun m => ?_⟩
    · rw [hv.registry]
      exact fun _ hadded => absurd rfl hadded
    · rw [hv.registry]
      exact fun _ _ hadded => absurd rfl hadded
    · rw [hv.registry]
      exact Nat.zero_le _
  constructor
  · have hkept := hr.invariant (P := fun h v => (∀ e ∈ h, Spares e.pre.registry e) →
        v.registry.Sound ∧ Throughout Within h v) (fun v hv _ => hstart v hv) ?_
    · exact fun hspares => (hkept hspares).2
    · intro h v a v' hr ih hstep hspares
      obtain ⟨hregistry, hthroughout⟩ := ih fun e he => hspares e (List.mem_cons_of_mem _ he)
      obtain ⟨hregistry', hv'⟩ := within_of_step (Reach.sound hr) hregistry hthroughout.last hstep
        (.inl (hspares _ List.mem_cons_self))
      exact ⟨hregistry', hv', hthroughout⟩
  · rw [← each_iff]
    refine hr.throughout_iff (J := fun h v => v.registry.Sound ∧ Within h v)
      (H := fun _ => True) (fun _ _ _ => trivial) hstart ?_ (fun _ _ hv => hv.2) ?_ trivial
    · intro h v a v' hr _ hv hstep hspares
      exact within_of_step (Reach.sound hr) hv.1 hv.2 hstep (.inr hspares)
    · intro h v a v' hr _ hstep hv'
      exact spares_of_within (Reach.sound hr) hstep hv'

namespace Sample

def withdrawing : List Act := delegating ++ [.call master {} (.unlock 1)]

def sparing : List Act := delegatedLock ++ [.call master {} (.unlock 2)]

theorem spares_delegatedLock (e : Entry World Act) (he : e ∈ history delegatedLock) :
    Spares e.pre.registry e := by
  refine record_forall (P := fun e => Spares e.pre.registry e)
    (fun _ he => absurd he List.not_mem_nil) (fun a ha s s' => ?_) e he
  simp only [delegatedLock, delegating, List.mem_append, List.mem_cons, List.not_mem_nil,
    or_false] at ha
  rcases ha with (rfl | rfl | rfl | rfl | rfl | rfl | rfl | rfl) | rfl
  all_goals first | exact True.intro | exact fun m hdebit => absurd rfl hdebit

theorem spares_withdrawal {w' : World} : Spares (world delegatedLock).registry
    ⟨world delegatedLock, .call master {} (.unlock 2), w'⟩ := by
  apply spares_call
  intro m hdebit
  have howner : ((world delegatedLock).bill 2).owner = master := by decide +kernel
  obtain rfl : m = master := by
    by_contra hne
    apply hdebit
    rw [Call.debit, howner, if_neg (Ne.symm hne)]
  decide +kernel

theorem spares_sparing (e : Entry World Act) (he : e ∈ history sparing) :
    Spares e.pre.registry e := by
  obtain ⟨v, hv⟩ := Option.isSome_iff_exists.mp
    (show (steps (step deployment) (delegatedLock ++ [.call master {} (.unlock 2)]) start).isSome by
      decide +kernel)
  obtain ⟨t, t', ht, -, -, hsplit⟩ := record_split (h := []) hv
  obtain rfl : world delegatedLock = t := by rw [world, ht, Option.getD_some]
  have hhistory : history sparing =
      ⟨world delegatedLock, .call master {} (.unlock 2), t'⟩ :: history delegatedLock := hsplit
  rw [hhistory] at he
  rcases List.mem_cons.mp he with rfl | he
  · exact spares_withdrawal
  · exact spares_delegatedLock e he

end Sample

open Sample

theorem allowances_within_sample : (world sparing).registry.granted master = 50 ∧
      Within (history sparing) (world sparing) := by
  have hr := reach sparing (by decide +kernel)
  have hspares := spares_sparing
  refine ⟨by decide +kernel, ?_⟩
  -- the history is made a variable, so that nobody tries to evaluate what holds throughout it
  generalize history sparing = h at hr hspares ⊢
  exact ((allowances_within_iff hr).1 hspares).last

/-- **Allowances above the free balance.** -/
theorem allowance_without_balance : Reach deployment (history withdrawing) (world withdrawing) ∧
      (world withdrawing).registry.granted master = 100 ∧
      (world withdrawing).freeBalance master = 0 := by
  have hr := reach withdrawing (by decide +kernel)
  exact ⟨hr, by decide +kernel⟩

end Karma.Bilateral
