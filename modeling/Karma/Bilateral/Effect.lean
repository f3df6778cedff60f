import Karma.Bilateral.Payout

/-! # `KarmaBilateral` — what a guarded call does

`Effect D w sender c w'` lists what a guarded call `c` can do to a sound world. -/

namespace Karma.Bilateral

open Evm Relation Function

def BindingState.Next : BindingState → BindingState → Prop
  | .active, .finalizing | .active, .settled | .active, .refunded
  | .pending, .finalizing | .pending, .settled | .pending, .refunded
  | .finalizing, .settled | .finalizing, .disputed
  | .disputed, .settled | .disputed, .refunded => True
  | _, _ => False

def Call.pairs : Call → Option (ℕ × ℕ)
  | .bind buyerBillId agentBillId _ | .bindWithAttestation buyerBillId agentBillId _ _
  | .bindWithIntent _ buyerBillId agentBillId => some (buyerBillId, agentBillId)
  | _ => none

def Call.binding : Call → Option ℕ
  | .settle b _ | .finalizeSettle b | .dispute b _ | .submitArbitrationEvidence b _
  | .autoResolveArbitration b | .settleWithTEE b _ _ | .settleWithZKProof b _ _
  | .resolveDispute b _ | .refundOnTimeout b => some b
  | _ => none

/-- What the checks of the three ways of binding leave standing. -/
structure Bindable (w : World) (sender : Address) (i j : ℕ) : Prop where
  buyer : (w.bill i).owner ≠ 0
  agent : (w.bill j).owner ≠ 0
  sender : (w.bill i).owner = sender
  buyer_minted : (w.bill i).state = .minted
  agent_minted : (w.bill j).state = .minted
  owners_ne : (w.bill i).owner ≠ (w.bill j).owner
  token_eq : (w.bill i).token = (w.bill j).token

structure Consumes (D : Deployment) (w : World) (sender : Address) (amount : ℕ)
    (R : IdentityRegistry.Registry) : Prop where
  isSet : w.identityRegistry ≠ 0
  own : w.identityRegistry = D.registry →
    (IdentityRegistry.consumeAuthorization D.self w.now D.self sender amount w.registry).result =
      .ok (true, R)
  other : w.identityRegistry ≠ D.registry →
    ReflTransGen (IdentityRegistry.Step D.self) w.registry R

inductive Effect (D : Deployment) (w : World) (sender : Address) : Call → World → Prop
  | lock {token : Address} {amount : ℕ} {w' : World} :
      sender ≠ 0 → amount ≠ 0 →
      Done D w w' (w.book.mint sender token amount) [.pulled token sender amount] →
      Effect D w sender (.lock token amount) w'
  | lockFor {token master : Address} {amount : ℕ} {w' : World} :
      master ≠ 0 → amount ≠ 0 → Consumes D w sender amount w'.registry →
      Deals D w w' (w.book.mint master token amount) [.pulled token master amount] →
      Effect D w sender (.lockFor token amount master) w'
  | bind {c : Call} {x : Binding} {w' : World} :
      c.pairs = some (x.buyerBillId, x.agentBillId) →
      Bindable w sender x.buyerBillId x.agentBillId → x.Live →
      x.state = .active ∨ x.state = .pending →
      Done D w w' (w.book.pair x) [] → Effect D w sender c w'
  | revise {c : Call} {b : ℕ} {x : Binding} {w' : World} :
      c.binding = some b → (w.bindings b).Live → x.Revises (w.bindings b) → x.state.Open →
      x.state = (w.bindings b).state ∨ (w.bindings b).state.Next x.state →
      Done D w w' (w.book.revise b x) [] → Effect D w sender c w'
  | close {c : Call} {b : ℕ} {x : Binding} {w' : World} :
      c.binding = some b → (w.bindings b).Live → x.Revises (w.bindings b) → ¬ x.state.Open →
      (w.bindings b).state.Next x.state → Closes D w b x w' → Effect D w sender c w'
  | unlock {i : ℕ} {w' : World} :
      (w.bill i).owner ≠ 0 → (w.bill i).owner = sender → (w.bill i).state = .minted →
      Done D w w' (w.book.release i) [.sent (w.bill i).token sender (w.bill i).amount] →
      Effect D w sender (.unlock i) w'

variable {D : Deployment} {env : Env} {w w' : World} {sender : Address} {I : World → Prop}

/-! ## Locking -/

theorem bill_packBill {i amount : ℕ} {owner token : Address} {id : BitVec 8}
    (htable : w'.idToToken = w.idToToken) (hid : w.idToToken id = token)
    (hbills : w'.bills = update w.bills i (packBill owner id .minted))
    (hamounts : w'.billAmounts = update w.billAmounts i amount) :
    w'.bill = update w.bill i { owner, state := .minted, token, amount } := by
  funext k
  rcases eq_or_ne k i with rfl | hne
  · simp [World.bill, Config.billToken, hbills, hamounts, htable, hid]
  · simp [World.bill, Config.billToken, hbills, hamounts, htable, hne]

theorem wp_lockInto {token owner : Address} {amount : ℕ} {Q : ℕ → World → Prop} (hs : Sound D w)
    (hQ : ∀ i v, owner ≠ 0 → amount ≠ 0 → v.registry = w.registry →
      Deals D w v (w.book.mint owner token amount) [.pulled token owner amount] → Q i v) :
    (lockInto D token amount owner).wp I Clean Q w := by
  simp only [lockInto, Tx.wp_code, wp_writeLedger, wp_emit]
  refine ⟨fun _ => id, fun _ => ⟨fun _ => id, fun hamount => ⟨fun _ => id, fun _ =>
    ⟨fun _ => id, fun hid => ⟨fun _ => id, fun T hT => ⟨fun _ => ⟨fun _ => ?_, fun _ => id⟩,
      fun _ => id⟩⟩⟩⟩⟩⟩
  obtain ⟨howner, -, -, -, -⟩ := Erc20.transferFrom_eq_some.mp hT
  obtain ⟨hle, hback⟩ := hs.wf.listed token hid
  refine hQ _ _ howner hamount rfl ⟨?_, rfl, rfl, ?_, fun t => ?_, fun t n hb => ?_⟩
  · exact Book.ext (bill_packBill rfl hback rfl rfl) rfl rfl rfl rfl rfl rfl rfl
  · refine ⟨hs.wf.listed, ?_, ?_⟩
    · refine (forall_update_iff w.bills
        fun _ b => (billTokenId b).toNat ≤ w.tokenCounter.toNat).mpr ⟨?_, fun k _ => hs.wf.ids k⟩
      rwa [billTokenId_packBill]
    · refine (forall_update_iff w.bills
        fun _ b => (billState b).isSome).mpr ⟨?_, fun k _ => hs.wf.states k⟩
      simp
  · -- what was pulled in backs what the ledger now says
    rcases eq_or_ne t token with rfl | hne
    · simpa using (hs.solvent t).pull hT
    · simpa [hne] using hs.solvent t
  · rcases eq_or_ne t token with rfl | hne
    · simpa using (hb.pull hT).mono ((Nat.le_add_right _ _).trans (Nat.le_add_right _ _))
    · simpa [hne, Move.spends] using hb

variable {v : World}

theorem Foreign.sound (h : Foreign D w v) (hs : Sound D w) : Sound D v := by
  refine ⟨h.wf hs.wf, ?_, Foreign.solvent h hs.solvent, ?_⟩
  · rw [h.book hs.wf]
    exact hs.balanced
  · rw [h.now]
    exact hs.now

theorem wp_lockFor {token master : Address} {amount : ℕ} {Q : ℕ → World → Prop}
    (hs : Sound D w)
    (hQ : ∀ i v, Effect D w sender (.lockFor token amount master) v → Q i v) :
    (lockFor D env sender token amount master).wp (Solvent D) Clean Q w := by
  simp only [lockFor, Tx.wp_code]
  refine ⟨fun _ => id, fun hmaster => ⟨fun _ => id, fun hset => ?_⟩⟩
  -- from whatever world the consumption leaves, the lock is the same
  have hend : ∀ v, Consumes D w sender amount v.registry → v.book = w.book → v.moves = w.moves →
      v.now = w.now → Sound D v →
      (∀ t n, (w.tokens t).Backs D.self n → (v.tokens t).Backs D.self n) →
      (lockInto D token amount master).wp (Solvent D) Clean Q v := by
    intro v hc hbook hmoves hnow hv hbacks
    refine wp_lockInto hv fun i v' howner hamount hreg hd => hQ i v' ?_
    rw [← hreg] at hc
    refine .lockFor howner hamount hc ⟨?_, ?_, hd.now.trans hnow, hd.wf, hd.solvent,
      fun t n hb => hd.backs t n (hbacks t _ hb)⟩
    · rw [hd.book, hbook]
    · rw [hd.moves, hmoves]
  simp only [consumeAuthorization, Tx.wp_code]
  refine ⟨fun hown => ?_, fun hother => ?_⟩
  · split
    case h_1 answer R hr =>
      simp only [Tx.wp_code]
      refine ⟨fun _ => id, fun htrue => ?_⟩
      have hanswer : answer = true := by simpa using htrue
      subst hanswer
      refine hend _ ⟨hset, fun _ => hr, fun h => absurd hown h⟩ rfl rfl rfl ?_ fun _ _ => id
      exact ⟨⟨hs.wf.listed, hs.wf.ids, hs.wf.states⟩, hs.balanced, hs.solvent, hs.now⟩
    case h_2 =>
      rw [Tx.wp_revert]
      exact id
  · refine wp_callOut _ _ (fun v hv => Foreign.solvent hv hs.solvent) fun v hv => ?_
    refine ⟨fun _ => id, fun answer _ => ⟨fun _ => id, fun _ => ?_⟩⟩
    refine hend v ⟨hset, fun h => absurd h hother, fun _ => hv.registry hs.now⟩
      (hv.book hs.wf) ?_ hv.now (Foreign.sound hv hs) hv.backs
    rw [hv.moves, List.append_nil]

/-! ## Guards on bills and bindings -/

section Guards

variable {i b : ℕ} {E : Error → Prop}

theorem wp_requireBill {Q : Bytes32 → World → Prop}
    (hQ : (w.bill i).owner ≠ 0 → Q (w.bills i) w) : (requireBill i).wp I Clean Q w := by
  simp only [requireBill, Tx.wp_code]
  exact ⟨fun _ => id, hQ⟩

theorem wp_requireBillState {Q : Unit → World → Prop}
    (hQ : (w.bill i).state = .minted → Q () w) :
    (requireBillState i (w.bills i) .minted).wp I Clean Q w := by
  simp only [requireBillState, Tx.wp_code, not_not]
  refine ⟨fun _ => id, fun st hst => ⟨fun _ => id, fun hminted => hQ ?_⟩⟩
  simp [World.bill, hst, hminted]

theorem wp_requireBinding {Q : Binding → World → Prop}
    (hQ : (w.bindings b).createdAt ≠ 0 → Q (w.bindings b) w) :
    (requireBinding b).wp I Clean Q w := by
  simp only [requireBinding, Tx.wp_code]
  exact ⟨fun _ => id, hQ⟩

theorem wp_requireUnsettled {x : Binding} {Q : Unit → World → Prop}
    (hQ : x.state = .active ∨ x.state = .pending → Q () w) :
    (requireUnsettled b x).wp I Clean Q w := by
  rw [requireUnsettled, Tx.wp_revertIf]
  refine ⟨fun _ => id, fun h => hQ ?_⟩
  by_contra hne
  exact h (not_or.mp hne)

theorem wp_requireSettleDelay {x : Binding} {Q : Unit → World → Prop} (hQ : Q () w) :
    (requireSettleDelay x).wp I Clean Q w := by
  simp only [requireSettleDelay, Tx.wp_code]
  exact ⟨fun _ => id, fun _ => hQ⟩

theorem wp_enforceReputationGate {agent : Address} {Q : Unit → World → Prop} (hQ : Q () w) :
    (enforceReputationGate env agent).wp I Clean Q w := by
  simp only [enforceReputationGate, Tx.wp_code]
  exact ⟨fun _ => hQ, fun _ => ⟨fun _ => id, fun _ _ => ⟨fun _ => hQ, fun _ =>
    ⟨fun _ => id, fun _ _ => ⟨fun _ => id, fun _ => hQ⟩⟩⟩⟩⟩

end Guards

theorem wp_transfer_released {i : ℕ} {Q : Unit → World → Prop} (hs : Sound D w)
    (hv : Books w v (w.book.release i)) (howner : (w.bill i).owner ≠ 0)
    (hminted : (w.bill i).state = .minted)
    (hQ : ∀ v, Effect D w (w.bill i).owner (.unlock i) v → Q () v) :
    (transfer D (w.bill i).token (w.bill i).owner (w.bill i).amount).wp I Clean Q v := by
  have hcover := hs.balanced.amount_le_totalLocked howner
    (by rw [show (w.book.bill i).state = .minted from hminted]; simp)
  have ho : Owes D v (w.bill i).token (w.bill i).amount := hv.owes hs.solvent rfl hcover
  refine wp_transfer (m := 0) howner (by rwa [Nat.zero_add]) fun v' _ hp ho' => hQ v' ?_
  exact .unlock howner rfl hminted (hv.done hp hs ho'.solvent)

theorem wp_unlock {i : ℕ} {Q : Unit → World → Prop} (hs : Sound D w)
    (hQ : ∀ v, Effect D w sender (.unlock i) v → Q () v) :
    (unlock D sender i).wp I Clean Q w := by
  simp only [unlock, Tx.wp_bind]
  refine wp_requireBill fun howner => ?_
  rw [Tx.wp_revertIf]
  refine ⟨fun _ => id, fun hsender => wp_requireBillState fun hminted => ?_⟩
  obtain rfl : (w.bill i).owner = sender := not_not.mp hsender
  -- a minted bill is covered twice: by its owner's free balance and by the escrow of its token
  have hfree := hs.balanced.amount_le_freeBalance howner hminted
  have hlocked := hs.balanced.amount_le_totalLocked howner
    (by rw [show (w.book.bill i).state = .minted from hminted]; simp)
  simp only [burnBill, setBill, Tx.wp_code, wp_writeLedger, wp_emit]
  refine ⟨fun h => absurd hfree (not_le.mpr h), fun _ => ⟨fun _ => ⟨fun _ => ?_,
    fun h => absurd hlocked h⟩, fun h => absurd hfree h⟩⟩
  refine wp_transfer_released hs ⟨?_, rfl, rfl, rfl, rfl, rfl, fun hw => hw.restate rfl rfl⟩ howner
    hminted hQ
  exact Book.ext (bill_setBillState rfl rfl rfl) rfl rfl rfl rfl rfl rfl rfl

/-! ## Pairing two bills -/

theorem wp_requireBindable {i j : ℕ} {Q : Bytes32 × Bytes32 → World → Prop}
    (hQ : Bindable w sender i j → Q (w.bills i, w.bills j) w) :
    (requireBindable env sender i j).wp I Clean Q w := by
  simp only [requireBindable, Tx.wp_bind]
  refine wp_requireBill fun hbuyer => wp_requireBill fun hagent => ?_
  rw [Tx.wp_revertIf]
  refine ⟨fun _ => id, fun hsender => ?_⟩
  refine wp_requireBillState fun hi => wp_requireBillState fun hj => ?_
  simp only [Tx.wp_revertIf]
  refine ⟨fun _ => id, fun htoken => ⟨fun _ => id, fun howners => ?_⟩⟩
  refine wp_enforceReputationGate ?_
  rw [Tx.wp_pure]
  -- the code compares token numbers; equal numbers name one token
  refine hQ ⟨hbuyer, hagent, not_not.mp hsender, hi, hj, howners, ?_⟩
  exact congrArg w.idToToken (not_not.mp htoken)

theorem Bindable.matched {x : Binding} (h : Bindable w sender x.buyerBillId x.agentBillId) :
    w.book.Matched x := ⟨h.buyer, h.agent, h.owners_ne, h.token_eq⟩

theorem Bindable.minted {x : Binding} (h : Bindable w sender x.buyerBillId x.agentBillId) (k : ℕ)
    (hk : x.Holds k) : (w.book.bill k).state = .minted := by
  rcases hk with rfl | rfl
  · exact h.buyer_minted
  · exact h.agent_minted

variable {scopeHash : Bytes32}

theorem wp_finalizeBind {i j : ℕ} {Q : ℕ → World → Prop} (hpos : 0 < w.now)
    (hi : (w.bill i).amount ≤ w.freeBalance (w.bill i).owner) (hj : (w.bill j).amount ≤
      debit w.freeBalance (w.bill i).owner (w.bill i).amount (w.bill j).owner)
    (hQ : ∀ x v, x.buyerBillId = i → x.agentBillId = j → x.Live →
      x.state = .active ∨ x.state = .pending → Books w v (w.book.enroll x) →
      Q (w.bindingCounter + 1) v) : (finalizeBind i j scopeHash).wp I Clean Q w := by
  simp only [finalizeBind, moveFreeToBound, updateBinding, Tx.wp_code, wp_writeLedger, wp_emit]
  refine ⟨fun _ => ⟨fun _ => ⟨fun _ => ⟨fun h => absurd hi (not_le.mpr h), fun _ => ⟨fun _ =>
    ⟨fun _ => ⟨fun h => absurd hj (not_le.mpr h), fun _ => ⟨fun _ => ⟨fun _ => ⟨fun _ => ?_,
      fun _ => ?_⟩, fun _ => id⟩, fun h => absurd hj h⟩⟩, fun _ => id⟩, fun h => absurd hi h⟩⟩,
        fun _ => id⟩, fun _ => id⟩, fun _ => id⟩
  · refine hQ
      { bindingId := w.bindingCounter + 1, buyerBillId := i, agentBillId := j, scopeHash,
        state := .pending, createdAt := w.now, settleAfter := w.now + w.settleDelaySeconds }
      _ rfl rfl ⟨hpos.ne', trivial⟩ (.inr rfl)
      ⟨Book.ext rfl rfl ?_ rfl rfl rfl rfl rfl, rfl, rfl, rfl, rfl, rfl,
        fun hw => ⟨hw.listed, hw.ids, hw.states⟩⟩
    -- the record is first stored as active and then overwritten
    show update (update w.bindings (w.bindingCounter + 1) _) _ _ =
      update w.bindings (w.bindingCounter + 1) _
    rw [update_idem, update_self]
  · exact hQ
      { bindingId := w.bindingCounter + 1, buyerBillId := i, agentBillId := j, scopeHash,
        state := .active, createdAt := w.now, settleAfter := w.now + w.settleDelaySeconds }
      _ rfl rfl ⟨hpos.ne', trivial⟩ (.inl rfl)
      ⟨Book.ext rfl rfl rfl rfl rfl rfl rfl rfl, rfl, rfl, rfl, rfl, rfl,
        fun hw => ⟨hw.listed, hw.ids, hw.states⟩⟩

theorem wp_bindPair {i j : ℕ} {Q : ℕ → World → Prop} (hs : Sound D w) (h : Bindable w sender i j)
    (hQ : ∀ x v, x.buyerBillId = i → x.agentBillId = j → x.Live →
      x.state = .active ∨ x.state = .pending → Books w v (w.book.pair x) →
      Q (w.bindingCounter + 1) v) :
    (bindPair i j (w.bills i) (w.bills j) scopeHash).wp I Clean Q w := by
  have hci := hs.balanced.amount_le_freeBalance h.buyer h.buyer_minted
  have hcj := hs.balanced.amount_le_freeBalance h.agent h.agent_minted
  have hne : i ≠ j := fun he => h.owners_ne (by rw [he])
  let y : Binding := { buyerBillId := i, agentBillId := j }
  let v : World := { w with
    bills := update (update w.bills i (setBillState (w.bills i) .bound)) j
      (setBillState (w.bills j) .bound) }
  have hbill : v.bill = (w.book.setBoth y .bound).bill := bill_setBoth (x := y) hne rfl rfl rfl
  have hv : Books w v (w.book.setBoth y .bound) :=
    ⟨Book.ext hbill rfl rfl rfl rfl rfl rfl rfl, rfl, rfl, rfl, rfl, rfl,
      fun hw => hw.restateBoth (x := y) hne rfl rfl⟩
  -- freezing the bills changed neither owners nor amounts
  have howner : ∀ k, (v.bill k).owner = (w.bill k).owner := fun k => by
    rw [hbill]
    exact Book.setBoth_owner .bound k
  have hamount : ∀ k, (v.bill k).amount = (w.bill k).amount := fun k => by
    rw [hbill]
    exact Book.setBoth_amount .bound k
  simp only [bindPair, setBill, Tx.wp_bind, wp_writeLedger]
  refine wp_finalizeBind (w := v) hs.now ?_ ?_ fun x v' hxi hxj hlive hstate hx => ?_
  · rw [howner, hamount]
    exact hci
  · rw [howner, howner, hamount, hamount, debit_of_ne h.owners_ne.symm]
    exact hcj
  · refine hQ x v' hxi hxj hlive hstate ?_
    have hpair : w.book.pair x = v.book.enroll x := by
      rw [hv.book, ← Book.enroll_setBoth, Book.setBoth, Book.setBoth, hxi, hxj]
    rw [hpair]
    exact hv.trans hx

/-! ## The three ways of binding -/

def Drifts (D : Deployment) (w : World) (B : Book) (u : World) : Prop :=
  ∃ v, Books w v B ∧ Foreign D v u

variable {B : Book}

theorem Books.drifts (h : Books w v B) : Drifts D w B v := ⟨v, h, .refl v⟩

theorem Drifts.foreign {u u' : World} (h : Drifts D w B u) (hf : Foreign D u u') :
    Drifts D w B u' := by
  obtain ⟨v, hv, hu⟩ := h
  exact ⟨v, hv, Foreign.trans hu hf⟩

theorem Drifts.solvent {u : World} (h : Drifts D w B u) (hs : Solvent D w)
    (hB : B.totalLocked = w.totalLocked) : Solvent D u := by
  obtain ⟨v, hv, hu⟩ := h
  refine Foreign.solvent hu fun t => ?_
  rw [hv.tokens, show v.totalLocked = w.totalLocked from
    (congrArg Book.totalLocked hv.book).trans hB]
  exact hs t

theorem Drifts.done {u : World} (h : Drifts D w B u) (hs : Sound D w)
    (hB : B.totalLocked = w.totalLocked) : Done D w u B [] := by
  have hsol := h.solvent hs.solvent hB
  obtain ⟨v, hv, hu⟩ := h
  exact hv.done hu hs hsol

theorem Foreign.event {es : List Event} : Foreign D w { w with events := es } :=
  Foreign.config (.refl _)

theorem wp_registerTaskPublisher {taskId buyerBill agentBill : Bytes32} {Q : Unit → World → Prop}
    (hs : Solvent D w) (hQ : ∀ v, Foreign D w v → Q () v) :
    (registerTaskPublisher D env taskId buyerBill agentBill).wp (Solvent D) Clean Q w := by
  simp only [registerTaskPublisher, Tx.wp_bind]
  refine wp_callOut _ _ (fun v hv => Foreign.solvent hv hs) fun v hv => ?_
  rw [Tx.wp_ofOption]
  exact ⟨fun _ => id, fun _ _ => hQ v hv⟩

variable {intent : IntentPackage}

theorem wp_requireIntent {i j : ℕ} {buyerBill agentBill : Bytes32} {Q : Unit → World → Prop}
    (hQ : Q () w) : (requireIntent intent i j buyerBill agentBill).wp I Clean Q w := by
  simp only [requireIntent, Tx.wp_code]
  exact ⟨fun _ => id, fun _ => ⟨fun _ => id, fun _ => ⟨fun _ => ⟨fun _ => id, fun _ =>
    ⟨fun _ => id, fun _ => ⟨fun _ => id, fun _ => hQ⟩⟩⟩, fun _ => id⟩⟩⟩

theorem wp_requireAttestation {b : ℕ} {taskId : Bytes32} {Q : Unit → World → Prop} (h : Books w v B)
    (hQ : ∀ u, Books w u B → Q () u) : (requireAttestation b taskId).wp I Clean Q v := by
  rw [requireAttestation, wp_writeLedger]
  exact hQ _ ⟨h.book, h.config, h.tokens, h.registry, h.now, h.moves, fun hw => by
    have hv := h.wf hw
    exact ⟨hv.listed, hv.ids, hv.states⟩⟩

theorem wp_registerIntent {b : ℕ} {buyerBill agentBill intentHash : Bytes32}
    {Q : Unit → World → Prop} (h : Books w v B) (hs : Solvent D w)
    (hB : B.totalLocked = w.totalLocked) (hQ : ∀ u, Drifts D w B u → Q () u) :
    (registerIntent D env intent b buyerBill agentBill intentHash).wp (Solvent D) Clean Q v := by
  simp only [registerIntent, Tx.wp_ite, Tx.wp_bind, Tx.wp_pure]
  refine ⟨fun _ => ?_, fun _ => hQ v h.drifts⟩
  refine wp_requireAttestation h fun u hu => ?_
  rw [Tx.wp_get]
  refine ⟨fun _ => ?_, fun _ => hQ u hu.drifts⟩
  refine wp_registerTaskPublisher (hu.drifts.solvent hs hB) fun u' hu' => ?_
  exact hQ u' (hu.drifts.foreign hu')

section Bind

variable {i j : ℕ} {Q : ℕ → World → Prop}

theorem wp_bind (hs : Sound D w) (hQ : ∀ b v, Effect D w sender (.bind i j scopeHash) v → Q b v) :
    (bind env sender i j scopeHash).wp I Clean Q w := by
  simp only [bind, Tx.wp_bind]
  refine wp_requireBindable fun hb => wp_bindPair hs hb fun x v hi hj hlive hstate hv => ?_
  subst hi hj
  exact hQ _ v (.bind rfl hb hlive hstate (hv.drifts.done hs rfl))

theorem wp_bindWithAttestation {scopeHash taskId : Bytes32} (hs : Sound D w)
    (hQ : ∀ b v, Effect D w sender (.bindWithAttestation i j scopeHash taskId) v → Q b v) :
    (bindWithAttestation D env sender i j scopeHash taskId).wp (Solvent D) Clean Q w := by
  simp only [bindWithAttestation, Tx.wp_code]
  refine ⟨fun _ => id, fun _ => ⟨fun _ => id, fun _ => ?_⟩⟩
  refine wp_requireBindable fun hb => ?_
  simp only
  refine wp_bindPair hs hb fun x v hi hj hlive hstate hv => ?_
  subst hi hj
  refine wp_requireAttestation hv fun u hu => ?_
  refine wp_registerTaskPublisher (hu.drifts.solvent hs.solvent rfl) fun u' hu' => ?_
  simp only [wp_emit]
  exact hQ _ _ (.bind rfl hb hlive hstate (((hu.drifts.foreign hu').foreign .event).done hs rfl))

theorem wp_bindWithIntent (hs : Sound D w)
    (hQ : ∀ b v, Effect D w sender (.bindWithIntent intent i j) v → Q b v) :
    (bindWithIntent D env sender intent i j).wp (Solvent D) Clean Q w := by
  simp only [bindWithIntent, Tx.wp_bind]
  refine wp_requireBindable fun hb => ?_
  simp only
  refine wp_requireIntent (wp_bindPair hs hb fun x v hi hj hlive hstate hv => ?_)
  subst hi hj
  rw [wp_writeLedger]
  -- the stored document is no part of the book
  have hstored : Books w
      { v with
        intentPackages := update v.intentPackages (w.bindingCounter + 1) intent }
      (w.book.pair x) :=
    ⟨hv.book, hv.config, hv.tokens, hv.registry, hv.now, hv.moves, fun hw => by
      have hw' := hv.wf hw
      exact ⟨hw'.listed, hw'.ids, hw'.states⟩⟩
  refine wp_registerIntent hstored hs.solvent rfl fun u hu => ?_
  simp only [wp_emit, Tx.wp_pure]
  exact hQ _ _ (.bind rfl hb hlive hstate ((hu.foreign .event).done hs rfl))

end Bind

end Karma.Bilateral
