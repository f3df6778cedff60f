import Karma.Bilateral.Foreign

/-! # `KarmaBilateral` — the three payouts

`executeSettle`, `executeRefund` and `executeSplit` close a live binding in the book and pay its
pool out. -/

namespace Karma.Bilateral

open Evm Relation Function

/-! ## What is shown of every guarded call -/

/-- The errors that the bookkeeping itself would cause. -/
def Error.Fault : Error → Prop
  | .underflow | .insufficientFreeBalance _ _ _ => True
  | _ => False

def Clean (e : Error) : Prop := ¬ e.Fault

def sentTo (t a : Address) (ms : List Move) : ℕ :=
  (ms.map fun
    | .sent t' a' n => if t' = t ∧ a' = a then n else 0
    | _ => 0).sum

def grantedOn (t : Address) (ms : List Move) : ℕ :=
  (ms.map fun
    | .granted t' _ n => if t' = t then n else 0
    | _ => 0).sum

structure Payout (B : Book) (x : Binding) (ms : List Move) : Prop where
  full : sentTo (B.poolToken x) (B.bill x.buyerBillId).owner ms +
      sentTo (B.poolToken x) (B.bill x.agentBillId).owner ms + grantedOn (B.poolToken x) ms =
    B.pool x
  ceiling : grantedOn (B.poolToken x) ms ≤ B.pool x * maxFeeBps / 10000
  only : ∀ m ∈ ms, (∃ n, m = .sent (B.poolToken x) (B.bill x.buyerBillId).owner n) ∨
    (∃ n, m = .sent (B.poolToken x) (B.bill x.agentBillId).owner n) ∨
    ∃ s n, m = .granted (B.poolToken x) s n

/-- The invariant of the core, as far as a guarded call needs it. -/
structure Sound (D : Deployment) (w : World) : Prop where
  wf : w.Wf
  balanced : w.book.Balanced
  solvent : Solvent D w
  now : 0 < w.now

structure Deals (D : Deployment) (w w' : World) (B : Book) (ms : List Move) : Prop where
  book : w'.book = B
  moves : w'.moves = w.moves ++ ms
  now : w'.now = w.now
  wf : w'.Wf
  solvent : Solvent D w'
  backs : ∀ t n, (w.tokens t).Backs D.self (n + spentOn t ms) → (w'.tokens t).Backs D.self n

/-- A guarded call that leaves the registry to the others. -/
structure Done (D : Deployment) (w w' : World) (B : Book) (ms : List Move) : Prop
    extends Deals D w w' B ms where
  registry : ReflTransGen (IdentityRegistry.Step D.self) w.registry w'.registry

variable {D : Deployment} {env : Env} {w w' : World} {I : World → Prop} {E : Error → Prop}
  {t : Address} {n m : ℕ}

/-- **A step of bookkeeping**: the book becomes `B`, and nothing else matters. -/
structure Books (w w' : World) (B : Book) : Prop where
  book : w'.book = B
  config : w'.toConfig = w.toConfig
  tokens : w'.tokens = w.tokens
  registry : w'.registry = w.registry
  now : w'.now = w.now
  moves : w'.moves = w.moves
  wf : w.Wf → w'.Wf

theorem Books.trans {v : World} {B B' : Book} (h : Books w v B) (h' : Books v w' B') :
    Books w w' B' :=
  ⟨h'.book, h'.config.trans h.config, h'.tokens.trans h.tokens, h'.registry.trans h.registry,
    h'.now.trans h.now, h'.moves.trans h.moves, fun hw => h'.wf (h.wf hw)⟩

theorem Books.done {v : World} {B : Book} {ms : List Move} (h : Books w v B)
    (hpass : Passes D v w' ms) (hsound : Sound D w) (hs : Solvent D w') : Done D w w' B ms := by
  have hwf := h.wf hsound.wf
  refine ⟨⟨(hpass.book hwf).trans h.book, ?_, hpass.now.trans h.now, hpass.wf hwf, hs,
    fun t n hb => hpass.backs t n ?_⟩, ?_⟩
  · rw [hpass.moves, h.moves]
  · rw [h.tokens]
    exact hb
  · rw [← h.registry]
    exact hpass.registry (h.now ▸ hsound.now)

/-! ## Token calls of the core -/

theorem Passes.move {T : Erc20 Address} {mv : Move}
    (hT : ∀ k, (w.tokens t).Backs D.self (k + mv.spends t) → T.Backs D.self k)
    (hother : ∀ t', t ≠ t' → mv.spends t' = 0) :
    Passes D w { w with
      tokens := update w.tokens t T, moves := w.moves ++ [mv] } [mv] := by
  refine ⟨rfl, rfl, rfl, .refl _, fun _ => .refl, fun t' k hb => ?_⟩
  rw [spentOn_singleton] at hb
  rcases eq_or_ne t t' with rfl | hne
  · simpa using hT k hb
  · rw [hother t' hne] at hb
    simpa [hne.symm] using hb

theorem Passes.sent {a : Address} {T : Erc20 Address}
    (hT : (w.tokens t).transfer D.self a n = some T) :
    Passes D w { w with
      tokens := update w.tokens t T,
      moves := w.moves ++ [.sent t a n] } [.sent t a n] := by
  refine .move (fun k hb => ?_) fun t' hne => if_neg hne
  rw [Move.spends, if_pos rfl] at hb
  exact hb.transfer hT

theorem Passes.granted {a : Address} {T : Erc20 Address}
    (hT : (w.tokens t).approve D.self a n = some T) :
    Passes D w { w with
      tokens := update w.tokens t T, moves := w.moves ++ [.granted t a n] }
      [.granted t a n] := by
  refine .move (fun k hb => ?_) fun t' hne => if_neg hne
  rw [Move.spends, if_pos rfl] at hb
  exact hb.approve hT

theorem Passes.event {ms : List Move} {es : List Event} (h : Passes D w w' ms) :
    Passes D w { w' with events := es } ms :=
  ⟨h.ledger, h.now, h.moves, h.table, h.registry, h.backs⟩

def Pays (t a : Address) (n : ℕ) (ms : List Move) : Prop :=
  ms = [.sent t a n] ∨ ms = [] ∧ n = 0

theorem Pays.nothing (t a : Address) : Pays t a 0 [] := .inr ⟨rfl, rfl⟩

/-- **`n` of token `t` went from the core to `a`**, and nothing else happened that matters here. -/
structure Sends (D : Deployment) (w w' : World) (t a : Address) (n : ℕ) : Prop where
  config : w'.toConfig = w.toConfig
  tokens : w'.tokens = update w.tokens t ((w.tokens t).move D.self a n)
  events : w'.events = w.events

variable {Q : Unit → World → Prop}

theorem wp_transfer {a : Address} (ha : a ≠ 0) (h : Owes D w t (m + n))
    (hQ : ∀ v, Sends D w v t a n → Passes D w v [.sent t a n] → Owes D v t m → Q () v) :
    (transfer D t a n).wp I E Q w := by
  have hle : n ≤ (w.tokens t).balanceOf D.self := by
    have hbacks := h t
    rw [if_pos rfl, Erc20.Backs] at hbacks
    omega
  have hsucceeds := Erc20.transfer_eq_some.mpr ⟨D.self_ne_zero, ha, hle, rfl⟩
  simp only [transfer, Tx.wp_code]
  refine ⟨fun hnone => ?_, fun T hT => ?_⟩
  · rw [hsucceeds] at hnone
    cases hnone
  · have howes := (Passes.sent hT).owes (fun t' => spentOn_singleton t' _) h
    refine hQ _ ⟨rfl, ?_, rfl⟩ (.sent hT) howes
    rw [Option.some.inj (hT.symm.trans hsucceeds)]

theorem wp_transferNonzero {a : Address} (ha : a ≠ 0)
    (h : Owes D w t (m + n))
    (hQ : ∀ ms v, Pays t a n ms → Sends D w v t a n → Passes D w v ms → Owes D v t m → Q () v) :
    (transferNonzero D t a n).wp I E Q w := by
  rw [transferNonzero, Tx.wp_ite]
  refine ⟨fun _ => wp_transfer ha h fun v => hQ _ v (.inl rfl), fun hzero => ?_⟩
  obtain rfl : n = 0 := by omega
  rw [Tx.wp_pure]
  exact hQ [] w (.inr ⟨rfl, rfl⟩) ⟨rfl, by simp, rfl⟩ (Foreign.refl w) h

/-! ## Calls to the contracts around -/

/-- **Nothing around the core stands in the way** of paying a pool out. -/
structure Smooth (env : Env) (c : Config) (pool : ℕ) : Prop where
  guard : c.emergencyGuard = 0
  bridge : c.feeBridge = 0
  engine : c.scoringEngine = 0 ∨ env.record.isSome
  pool : pool * 10000 < 2 ^ 256

theorem Smooth.pool_lt {c : Config} {pool : ℕ} (h : Smooth env c pool) : pool < 2 ^ 256 := by
  have := h.pool
  omega

theorem Smooth.scaled_lt {c : Config} {pool bps : ℕ} (h : Smooth env c pool) (hbps : bps ≤ 10000) :
    pool * bps < 2 ^ 256 :=
  (Nat.mul_le_mul_left pool hbps).trans_lt h.pool

theorem Smooth.engine_of {c c' : Config} {pool : ℕ} (h : Smooth env c pool) (hc : c' = c) :
    c'.scoringEngine = 0 ∨ env.record.isSome := by
  rw [hc]
  exact h.engine

theorem wp_requirePayoutNotFrozen {bindingId : ℕ}
    (hE : w.emergencyGuard = 0 ∨ ∀ e, Clean e → E e) (hQ : Q () w) :
    (requirePayoutNotFrozen env bindingId).wp I E Q w := by
  simp only [requirePayoutNotFrozen, Tx.wp_code]
  refine ⟨fun _ => hQ, fun hguard => ?_⟩
  have hany := hE.resolve_left (not_or.mp hguard).1
  exact ⟨fun _ => hany _ id, fun _ _ => ⟨fun _ => hany _ id, fun _ => hQ⟩⟩

theorem wp_tryRecord {c : OutCall}
    (hE : (w.scoringEngine = 0 ∨ env.record.isSome) ∨ ∀ e, Clean e → E e)
    (hI : ∀ v, Foreign D w v → I v) (hQ : ∀ v, Foreign D w v → Q () v) :
    (tryRecord D env c).wp I E Q w := by
  simp only [tryRecord, Tx.wp_code]
  refine ⟨fun _ => hQ w (.refl w), fun hengine => ⟨fun hnone => ?_, fun r _ => ?_⟩⟩
  · rcases hE with (hzero | hsome) | hany
    · exact absurd hzero hengine
    · rw [hnone] at hsome
      cases hsome
    · exact hany _ id
  · exact wp_callOut c r hI hQ

theorem wp_approveAndCollect {bridge : Address} {c : OutCall}
    (hE : ∀ e, Clean e → E e) (h : Owes D w t (m + n))
    (hQ : ∀ v, Passes D w v [.granted t bridge n] → Owes D v t m → Q () v) :
    (approveAndCollect D env t bridge n c).wp (Solvent D) E Q w := by
  simp only [approveAndCollect, Tx.wp_code]
  refine ⟨fun _ => hE _ id, fun T hT => ?_⟩
  -- the approval is counted before the bridge gets control: it finds a solvent core
  have hrest := (Passes.granted hT).owes (fun t' => spentOn_singleton t' _) h
  refine wp_callOut c _ (fun v hv => (Foreign.owes hv hrest).solvent) fun v hv => ?_
  exact ⟨fun _ => hE _ id, fun _ => hQ v ((Passes.granted hT).trans hv) (Foreign.owes hv hrest)⟩

/-- The token calls `ms` approve the fee `n`, by at most one approval. -/
def Levies (t : Address) (n : ℕ) (ms : List Move) : Prop :=
  (∃ s, ms = [.granted t s n]) ∨ ms = [] ∧ n = 0

theorem Levies.nothing (t : Address) : Levies t 0 [] := .inr ⟨rfl, rfl⟩

theorem Payout.of_parts {B : Book} {x : Binding} {fee p q : ℕ} {ms ms' ms'' : List Move}
    (hm : B.Matched x) (hfee : Levies (B.poolToken x) fee ms)
    (hbuyer : Pays (B.poolToken x) (B.bill x.buyerBillId).owner p ms')
    (hagent : Pays (B.poolToken x) (B.bill x.agentBillId).owner q ms'')
    (hsum : p + q + fee = B.pool x) (hceil : fee ≤ B.pool x * maxFeeBps / 10000) :
    Payout B x (ms ++ ms' ++ ms'') := by
  have hne := hm.owners_ne
  -- each part is one token call or none; the owners differ, so no payment counts twice
  have hsent : sentTo (B.poolToken x) (B.bill x.buyerBillId).owner (ms ++ ms' ++ ms'') = p ∧
      sentTo (B.poolToken x) (B.bill x.agentBillId).owner (ms ++ ms' ++ ms'') = q ∧
      grantedOn (B.poolToken x) (ms ++ ms' ++ ms'') = fee := by
    rcases hfee with ⟨s, rfl⟩ | ⟨rfl, rfl⟩ <;> rcases hbuyer with rfl | ⟨rfl, rfl⟩ <;>
      rcases hagent with rfl | ⟨rfl, rfl⟩ <;> simp [sentTo, grantedOn, hne, hne.symm]
  obtain ⟨h1, h2, h3⟩ := hsent
  refine ⟨by rw [h1, h2, h3, hsum], h3 ▸ hceil, fun mv hmv => ?_⟩
  rw [List.mem_append, List.mem_append] at hmv
  rcases hmv with (hmv | hmv) | hmv
  · rcases hfee with ⟨s, rfl⟩ | ⟨rfl, -⟩
    · exact .inr (.inr ⟨s, fee, List.mem_singleton.mp hmv⟩)
    · simp at hmv
  · rcases hbuyer with rfl | ⟨rfl, -⟩
    · exact .inl ⟨p, List.mem_singleton.mp hmv⟩
    · simp at hmv
  · rcases hagent with rfl | ⟨rfl, -⟩
    · exact .inr (.inl ⟨q, List.mem_singleton.mp hmv⟩)
    · simp at hmv

theorem wp_collectEconomyFee {bindingId pool : ℕ} {buyer seller developer : Address}
    {Q : ℕ → World → Prop} (hE : w.feeBridge = 0 ∨ ∀ e, Clean e → E e) (h : Owes D w t pool)
    (hQ : ∀ fee ms v, Levies t fee ms → fee ≤ pool * maxFeeBps / 10000 →
      (w.feeBridge = 0 → v.toConfig = w.toConfig) → Passes D w v ms → Owes D v t (pool - fee) →
      Q fee v) :
    (collectEconomyFee D env bindingId t buyer seller developer pool).wp (Solvent D) E Q w := by
  have hle : pool * maxFeeBps / 10000 ≤ pool := by
    rw [maxFeeBps]
    omega
  simp only [collectEconomyFee, Tx.wp_code, wp_emit]
  refine ⟨fun _ => hQ 0 [] w (.nothing t) (Nat.zero_le _) (fun _ => rfl) (Foreign.refl w) h,
    fun hsome => ?_⟩
  have hbridge : w.feeBridge ≠ 0 := (not_or.mp hsome).1
  have hany := hE.resolve_left hbridge
  refine ⟨fun _ => ?_, fun _ => ⟨fun _ => ?_, fun _ => hany _ id⟩⟩
  · -- a zero quote: the bridge is only told
    refine wp_callOut _ _ (fun v hv => (Foreign.owes hv h).solvent) fun v hv => ?_
    exact hQ 0 [] v (.nothing t) (Nat.zero_le _) (absurd · hbridge) hv (Foreign.owes hv h)
  · -- the quote, capped to the ceiling; the event of the cap changes nothing that matters
    refine ⟨fun hcap => ?_, fun hfit => ?_⟩
    · rw [if_pos hcap]
      have hsplit : ∀ es, Owes D { w with events := es } t
          (pool - pool * maxFeeBps / 10000 + pool * maxFeeBps / 10000) := by
        rw [Nat.sub_add_cancel hle]
        exact fun _ => h
      refine wp_approveAndCollect hany (hsplit _) fun v hv ho => ?_
      exact hQ _ [.granted t w.feeBridge _] v (.inl ⟨_, rfl⟩) le_rfl (absurd · hbridge)
        ⟨hv.ledger, hv.now, hv.moves, hv.table, hv.registry, hv.backs⟩ ho
    · rw [if_neg hfit]
      have hfee : (if pool < env.quoteFee.getD 0 then pool else env.quoteFee.getD 0) ≤
          pool * maxFeeBps / 10000 := not_lt.mp hfit
      refine wp_approveAndCollect hany (by rwa [Nat.sub_add_cancel (hfee.trans hle)])
        fun v hv ho => ?_
      exact hQ _ _ v (.inl ⟨_, rfl⟩) hfee (absurd · hbridge) hv ho

/-! ## Bookkeeping -/

section Bookkeeping

variable {b i : ℕ} {st : BillState} {x : Binding}

@[simp] theorem wp_writeLedger (f : Ledger → Ledger) (Q : Unit → World → Prop) :
    (writeLedger f).wp I E Q w ↔ Q () { w with toLedger := f w.toLedger } := by
  simp [writeLedger]

theorem bill_setBillState (htable : w'.idToToken = w.idToToken)
    (hamounts : w'.billAmounts = w.billAmounts)
    (hbills : w'.bills = update w.bills i (setBillState (w.bills i) st)) :
    w'.bill = update w.bill i ((w.bill i).withState st) := by
  funext k
  rcases eq_or_ne k i with rfl | hne
  · simp [World.bill, BillToken.withState, hbills, hamounts, Config.billToken, htable]
  · simp [World.bill, hbills, hamounts, Config.billToken, htable, hne]

theorem World.Wf.restate (h : w.Wf) (hconfig : w'.toConfig = w.toConfig)
    (hbills : w'.bills = update w.bills i (setBillState (w.bills i) st)) : w'.Wf := by
  refine ⟨hconfig ▸ h.listed, ?_, ?_⟩
  · rw [hbills, hconfig]
    refine (forall_update_iff w.bills
      fun _ b => (billTokenId b).toNat ≤ w.tokenCounter.toNat).mpr ⟨?_, fun k _ => h.ids k⟩
    rw [billTokenId_setBillState]
    exact h.ids i
  · rw [hbills]
    refine (forall_update_iff w.bills
      fun _ b => (billState b).isSome).mpr ⟨?_, fun k _ => h.states k⟩
    simp

theorem bill_setBoth (hne : x.buyerBillId ≠ x.agentBillId) (htable : w'.idToToken = w.idToToken)
    (hamounts : w'.billAmounts = w.billAmounts)
    (hbills : w'.bills = update
      (update w.bills x.buyerBillId (setBillState (w.bills x.buyerBillId) st))
      x.agentBillId (setBillState (w.bills x.agentBillId) st)) :
    w'.bill = (w.book.setBoth x st).bill := by
  let v : World := { w with
    bills := update w.bills x.buyerBillId (setBillState (w.bills x.buyerBillId) st) }
  have hfst : v.bill = (w.book.setState x.buyerBillId st).bill := bill_setBillState rfl rfl rfl
  have hword : v.bills x.agentBillId = w.bills x.agentBillId := update_of_ne hne.symm _ _
  have hsnd : w'.bill = update v.bill x.agentBillId ((v.bill x.agentBillId).withState st) :=
    bill_setBillState htable hamounts (by rw [hbills, hword])
  rw [hsnd, hfst]
  rfl

theorem World.Wf.restateBoth (h : w.Wf) (hne : x.buyerBillId ≠ x.agentBillId)
    (hconfig : w'.toConfig = w.toConfig)
    (hbills : w'.bills = update
      (update w.bills x.buyerBillId (setBillState (w.bills x.buyerBillId) st))
      x.agentBillId (setBillState (w.bills x.agentBillId) st)) : w'.Wf := by
  let v : World := { w with
    bills := update w.bills x.buyerBillId (setBillState (w.bills x.buyerBillId) st) }
  have hv : v.Wf := h.restate rfl rfl
  have hword : v.bills x.agentBillId = w.bills x.agentBillId := update_of_ne hne.symm _ _
  exact hv.restate hconfig (by rw [hbills, ← hword])

structure Book.Covered (B : Book) (x : Binding) : Prop where
  buyer : (B.bill x.buyerBillId).amount ≤ B.boundBalance (B.bill x.buyerBillId).owner
  agent : (B.bill x.agentBillId).amount ≤
    debit B.boundBalance (B.bill x.buyerBillId).owner (B.bill x.buyerBillId).amount
      (B.bill x.agentBillId).owner
  buyerLocked : (B.bill x.buyerBillId).amount ≤ B.totalLocked (B.bill x.buyerBillId).token
  agentLocked : (B.bill x.agentBillId).amount ≤
    debit B.totalLocked (B.bill x.buyerBillId).token (B.bill x.buyerBillId).amount
      (B.bill x.agentBillId).token
  pending : B.pool x ≤ B.pendingBatchAmount (B.poolToken x)

theorem Book.Balanced.covered {B : Book} (h : B.Balanced) (hlive : (B.binding b).Live)
    (hx : x.Revises (B.binding b)) : B.Covered x := by
  have hm := (h.paired.matched b hlive.1).revises hx
  have hstate : ∀ k, x.Holds k → (B.bill k).state = .bound := fun k hk =>
    h.paired.held b k hlive ((hx.holds k).mp hk)
  have hpool := h.pool_le_totalLocked hm fun k hk => by simp [hstate k hk]
  have hpending := h.pool_le_pendingBatchAmount hlive
  rw [Book.pool, Book.poolToken] at hpool
  refine ⟨h.amount_le_boundBalance (hstate _ (.inl rfl)), ?_, by omega, ?_, ?_⟩
  · -- the owners differ, so the first debit leaves the agent's balance alone
    rw [debit_of_ne hm.owners_ne.symm]
    exact h.amount_le_boundBalance (hstate _ (.inr rfl))
  · -- the token is the same: it covers both bills together
    rw [← hm.token_eq, debit, update_self]
    omega
  · rw [Book.pool_of_revises hx, Book.poolToken_of_revises hx]
    exact hpending

def Event.Caps : Event → Prop
  | .feeCappedToHardCeiling _ _ _ => True
  | _ => False

def Uncapped (es : List Event) : Prop := ∀ e ∈ es, ¬ e.Caps

theorem Uncapped.append {es : List Event} {e : Event} (h : Uncapped es) (he : ¬ e.Caps) :
    Uncapped (es ++ [e]) := by
  intro e' he'
  rcases List.mem_append.mp he' with he' | he'
  · exact h e' he'
  · rw [List.mem_singleton.mp he']
    exact he

theorem wp_releasePair {reason : String} {Q : ℕ → World → Prop}
    (hE : w.book.pool x < 2 ^ 256 ∨ ∀ e, Clean e → E e) (hc : w.book.Covered x)
    (hne : x.buyerBillId ≠ x.agentBillId)
    (hQ : ∀ v, Books w v (w.book.retire x) → (Uncapped w.events → Uncapped v.events) →
      Q (w.book.pool x) v) :
    (releasePair x.buyerBillId x.agentBillId reason).wp I E Q w := by
  simp only [releasePair, decrementBound, burnBill, setBill, decrementPending, Tx.wp_code,
    wp_writeLedger, wp_emit]
  -- five checked subtractions and one addition; the cover rules the failures out, inside out
  refine ⟨fun _ => ⟨fun _ => ⟨fun _ => ⟨fun _ => ⟨fun _ => ⟨fun _ => ?_, fun h => ?_⟩, fun h => ?_⟩,
    fun h => ?_⟩, fun h => ?_⟩, fun h => ?_⟩, fun h => ?_⟩
  · refine hQ _ ⟨?_, rfl, rfl, rfl, rfl, rfl, fun hw => hw.restateBoth hne rfl rfl⟩
      fun hu => (hu.append id).append id
    exact Book.ext (bill_setBoth hne rfl rfl rfl) rfl rfl rfl rfl rfl rfl rfl
  · exact absurd hc.pending h
  · exact hE.resolve_left h _ id
  · exact absurd hc.agentLocked h
  · exact absurd hc.buyerLocked h
  · exact absurd hc.agent h
  · exact absurd hc.buyer h

theorem Books.owes {v : World} {B : Book} (h : Books w v B) (hs : Solvent D w)
    (hlocked : B.totalLocked = debit w.totalLocked t n) (hcover : n ≤ w.totalLocked t) :
    Owes D v t n := by
  have hv : v.totalLocked = debit w.totalLocked t n :=
    (congrArg Book.totalLocked h.book).trans hlocked
  intro t'
  rw [h.tokens, hv, debit_apply hcover]
  exact hs t'

theorem Sound.owes_close {v : World} (hs : Sound D w) (hlive : (w.bindings b).Live)
    (hx : x.Revises (w.bindings b)) (hv : Books w v (w.book.close b x)) :
    Owes D v (w.book.poolToken x) (w.book.pool x) := by
  have hm : w.book.Matched x := (hs.balanced.paired.matched b hlive.1).revises hx
  have hcover := hs.balanced.pool_le_totalLocked hm fun k hk => by
    simp [hs.balanced.paired.held b k hlive ((hx.holds k).mp hk)]
  refine hv.owes hs.solvent ?_ hcover
  show debit (debit w.totalLocked (w.bill x.buyerBillId).token (w.bill x.buyerBillId).amount)
    (w.bill x.agentBillId).token (w.bill x.agentBillId).amount = _
  rw [show (w.bill x.agentBillId).token = (w.bill x.buyerBillId).token from hm.token_eq.symm,
    debit_debit_self]
  rfl

theorem wp_close {reason : String} {f : Binding → Binding} {Q : ℕ → World → Prop}
    (hs : Sound D w) (hlive : (w.bindings b).Live)
    (hE : w.book.pool (w.bindings b) < 2 ^ 256 ∨ ∀ e, Clean e → E e)
    (hx : (f (w.bindings b)).Revises (w.bindings b))
    (hQ : ∀ v, Books w v (w.book.close b (f (w.bindings b))) →
      (Uncapped w.events → Uncapped v.events) →
      Owes D v (w.book.poolToken (w.bindings b)) (w.book.pool (w.bindings b)) →
      Q (w.book.pool (w.bindings b)) v) :
    (updateBinding b f).wp I E (fun _ v => (releasePair (w.bindings b).buyerBillId
      (w.bindings b).agentBillId reason).wp I E Q v) w := by
  rw [updateBinding, wp_writeLedger]
  have hm := (hs.balanced.paired.matched b hlive.1).revises hx
  have hc := hs.balanced.covered hlive hx
  have hpool : w.book.pool (f (w.bindings b)) = w.book.pool (w.bindings b) :=
    Book.pool_of_revises hx
  rw [← hpool] at hE
  rw [← hx.buyer, ← hx.agent]
  refine wp_releasePair hE ⟨hc.buyer, hc.agent, hc.buyerLocked, hc.agentLocked, hc.pending⟩
    hm.ids_ne
    fun v hv huncapped => ?_
  -- overwriting the binding and then retiring it is closing it
  have hclose : Books w v (w.book.close b (f (w.bindings b))) :=
    ⟨hv.book, hv.config, hv.tokens, hv.registry, hv.now, hv.moves,
      fun hw => hv.wf ⟨hw.listed, hw.ids, hw.states⟩⟩
  have howes := hs.owes_close hlive hx hclose
  rw [hpool, Book.poolToken_of_revises hx] at howes
  have := hQ v hclose huncapped howes
  rw [← hpool] at this
  exact this

end Bookkeeping

/-! ## The three payouts -/

def Closes (D : Deployment) (w : World) (b : ℕ) (x : Binding) (w' : World) : Prop :=
  ∃ ms, Payout w.book x ms ∧ Done D w w' (w.book.close b x) ms

section Execute

variable {b : ℕ} {Q : Unit → World → Prop}

theorem wp_tryRecord_closed {c : OutCall} {v : World} {B : Book} {ms : List Move}
    (hE : (w'.scoringEngine = 0 ∨ env.record.isSome) ∨ ∀ e, Clean e → E e)
    (hs : Sound D w) (hv : Books w v B) (hp : Passes D v w' ms) (ho : Owes D w' t n)
    (hQ : ∀ u, Done D w u B ms → Q () u) : (tryRecord D env c).wp (Solvent D) E Q w' := by
  refine wp_tryRecord hE (fun u hu => (Foreign.owes hu ho).solvent) fun u hu => hQ u ?_
  refine hv.done ?_ hs (Foreign.owes hu ho).solvent
  have := hp.trans hu
  rwa [List.append_nil] at this

def World.developer (w : World) (b : ℕ) : Address :=
  if w.bindingDeveloper b = 0 then (w.bill (w.bindings b).agentBillId).owner
  else w.bindingDeveloper b

theorem wp_executeSettle_of_fee {proofHash : Bytes32} (hs : Sound D w)
    (hlive : (w.bindings b).Live) (hguard : w.emergencyGuard = 0 ∨ ∀ e, Clean e → E e)
    (hpool : w.book.pool (w.bindings b) < 2 ^ 256 ∨ ∀ e, Clean e → E e)
    (hfee : ∀ v, Books w v (w.book.close b { w.bindings b with state := .settled, proofHash }) →
      (Uncapped w.events → Uncapped v.events) →
      Owes D v (w.book.poolToken (w.bindings b)) (w.book.pool (w.bindings b)) →
      (collectEconomyFee D env b (w.book.poolToken (w.bindings b))
        (w.bill (w.bindings b).buyerBillId).owner (w.bill (w.bindings b).agentBillId).owner
        (w.developer b) (w.book.pool (w.bindings b))).wp I E (fun fee v₁ =>
        (do
          transferNonzero D (w.book.poolToken (w.bindings b))
            (w.bill (w.bindings b).agentBillId).owner
            (w.book.pool (w.bindings b) - fee)
          emit (.settleFinalized b proofHash)
          emit (.bindingSettled b proofHash 0 (w.book.pool (w.bindings b) - fee))
          tryRecordSettlement D env (w.bill (w.bindings b).agentBillId).owner
            (w.bill (w.bindings b).buyerBillId).owner true : M Unit).wp I E Q v₁) v) :
    (executeSettle D env b (w.bindings b).buyerBillId (w.bindings b).agentBillId proofHash).wp
      I E Q w := by
  -- the agent's payout is what is left of the pool, also in the branch that cannot happen
  have hpayout : ∀ fee,
      (if fee < w.book.pool (w.bindings b) then w.book.pool (w.bindings b) - fee else 0) =
        w.book.pool (w.bindings b) - fee := by
    intro fee
    split_ifs <;> omega
  simp only [Tx.wp_bind] at hfee
  simp only [executeSettle, Tx.wp_code]
  refine wp_requirePayoutNotFrozen hguard ?_
  refine wp_close hs hlive hpool ⟨rfl, rfl, rfl⟩ fun v hv huncapped ho => ?_
  simp only [hpayout]
  exact hfee v hv huncapped ho

theorem wp_executeSettle {proofHash : Bytes32} (hs : Sound D w) (hlive : (w.bindings b).Live)
    (hE : Smooth env w.toConfig (w.book.pool (w.bindings b)) ∨ ∀ e, Clean e → E e)
    (hQ : ∀ v, Closes D w b { w.bindings b with state := .settled, proofHash } v → Q () v) :
    (executeSettle D env b (w.bindings b).buyerBillId (w.bindings b).agentBillId proofHash).wp
      (Solvent D) E Q w := by
  have hm := hs.balanced.paired.matched b hlive.1
  refine wp_executeSettle_of_fee hs hlive (hE.imp_left Smooth.guard) (hE.imp_left Smooth.pool_lt)
    fun v hv _ ho => ?_
  have hE₁ : Smooth env v.toConfig (w.book.pool (w.bindings b)) ∨ ∀ e, Clean e → E e := by
    rwa [hv.config]
  refine wp_collectEconomyFee (hE₁.imp_left Smooth.bridge) ho
    fun fee ms v₁ hms hfee hc₁ hp₁ ho₁ => ?_
  simp only [Tx.wp_bind, wp_emit, tryRecordSettlement]
  refine wp_transferNonzero (m := 0) hm.agent (by rwa [Nat.zero_add])
    fun ms' v₂ hms' hs₂ hp₂ ho₂ => ?_
  have hE₂ : (v₂.scoringEngine = 0 ∨ env.record.isSome) ∨ ∀ e, Clean e → E e := by
    rw [hs₂.config]
    exact hE₁.imp_left fun h => by rw [hc₁ h.bridge]; exact h.engine
  have hp : Passes D v v₂ (ms ++ [] ++ ms') := by
    rw [List.append_nil]
    exact hp₁.trans hp₂
  refine wp_tryRecord_closed (t := w.book.poolToken (w.bindings b)) (n := 0) hE₂ hs hv hp.event ho₂
    fun u hu => ?_
  refine hQ u ⟨_, Payout.of_parts ⟨hm.buyer, hm.agent, hm.owners_ne, hm.token_eq⟩ hms
    (.nothing _ _) hms' ?_ hfee, hu⟩
  have hle : w.book.pool (w.bindings b) * maxFeeBps / 10000 ≤ w.book.pool (w.bindings b) := by
    rw [maxFeeBps]
    omega
  show 0 + (w.book.pool (w.bindings b) - fee) + fee = w.book.pool (w.bindings b)
  omega

theorem wp_executeRefund (hs : Sound D w) (hlive : (w.bindings b).Live)
    (hE : Smooth env w.toConfig (w.book.pool (w.bindings b)) ∨ ∀ e, Clean e → E e)
    (hQ : ∀ v, Closes D w b { w.bindings b with state := .refunded } v → Q () v) :
    (executeRefund D env b (w.bindings b).buyerBillId (w.bindings b).agentBillId).wp
      (Solvent D) E Q w := by
  have hm := hs.balanced.paired.matched b hlive.1
  simp only [executeRefund, Tx.wp_code]
  refine wp_close hs hlive (hE.imp_left Smooth.pool_lt) ⟨rfl, rfl, rfl⟩ fun v hv _ ho => ?_
  -- after the first transfer the core still owes the agent's amount
  refine wp_transfer (m := w.billAmounts (w.bindings b).agentBillId) hm.buyer
    (by rw [Nat.add_comm]; exact ho) fun v₁ hs₁ hp₁ ho₁ => ?_
  refine wp_transfer (m := 0) hm.agent (by rwa [Nat.zero_add]) fun v₂ hs₂ hp₂ ho₂ => ?_
  rw [tryRecordDispute]
  have hconfig := hs₂.config.trans (hs₁.config.trans hv.config)
  refine wp_tryRecord_closed (hE.imp_left (·.engine_of hconfig)) hs hv (hp₁.trans hp₂) ho₂
    fun u hu => hQ u ⟨_, ?_, hu⟩
  exact Payout.of_parts (x := { w.bindings b with state := .refunded })
    ⟨hm.buyer, hm.agent, hm.owners_ne, hm.token_eq⟩ (.nothing _) (.inl rfl) (.inl rfl) rfl
    (Nat.zero_le _)

theorem wp_executeSplit {bps : ℕ} (hs : Sound D w) (hlive : (w.bindings b).Live)
    (hbps : bps ≤ 10000)
    (hE : Smooth env w.toConfig (w.book.pool (w.bindings b)) ∨ ∀ e, Clean e → E e)
    (hQ : ∀ v, Closes D w b { w.bindings b with state := .settled } v → Q () v) :
    (executeSplit D env b (w.bindings b).buyerBillId (w.bindings b).agentBillId bps).wp
      (Solvent D) E Q w := by
  have hm := hs.balanced.paired.matched b hlive.1
  have hfreeze : ∀ {Q' : Unit → World → Prop}, Q' () w →
      (if bps < 10000 then requirePayoutNotFrozen env b else pure ()).wp (Solvent D) E Q' w := by
    intro Q' hQ'
    rw [Tx.wp_ite, Tx.wp_pure]
    exact ⟨fun _ => wp_requirePayoutNotFrozen (hE.imp_left Smooth.guard) hQ', fun _ => hQ'⟩
  -- the buyer's share never exceeds the pool, so the agent's share is not an underflow
  have hshare : w.book.pool (w.bindings b) * bps / 10000 ≤ w.book.pool (w.bindings b) :=
    Nat.div_le_of_le_mul (by rw [Nat.mul_comm]; exact Nat.mul_le_mul_right _ hbps)
  simp only [executeSplit, Tx.wp_bind, Tx.wp_get]
  refine hfreeze ?_
  simp only [Tx.wp_code]
  refine ⟨fun _ => ⟨fun _ => ⟨fun _ => ?_, fun h => absurd hshare h⟩, fun h => ?_⟩, fun h => ?_⟩
  rotate_left
  · exact (hE.imp_left (·.scaled_lt hbps)).resolve_left h _ id
  · exact (hE.imp_left Smooth.pool_lt).resolve_left h _ id
  refine wp_close hs hlive (hE.imp_left Smooth.pool_lt) ⟨rfl, rfl, rfl⟩ fun v hv _ ho => ?_
  have hsplit : Owes D v (w.book.poolToken (w.bindings b))
      (w.book.pool (w.bindings b) - w.book.pool (w.bindings b) * bps / 10000 +
        w.book.pool (w.bindings b) * bps / 10000) := by
    rwa [Nat.sub_add_cancel hshare]
  refine wp_transferNonzero hm.buyer hsplit fun ms v₁ hms hs₁ hp₁ ho₁ => ?_
  refine wp_transferNonzero (m := 0) hm.agent (by rwa [Nat.zero_add])
    fun ms' v₂ hms' hs₂ hp₂ ho₂ => ?_
  simp only [wp_emit, tryRecordDispute]
  have hp := hp₁.trans hp₂
  refine wp_tryRecord_closed (t := w.book.poolToken (w.bindings b)) (n := 0)
    (hE.imp_left (·.engine_of (hs₂.config.trans (hs₁.config.trans hv.config)))) hs hv hp.event ho₂
    fun u hu => ?_
  refine hQ u ⟨_, ?_, hu⟩
  rw [← List.nil_append ms]
  exact Payout.of_parts ⟨hm.buyer, hm.agent, hm.owners_ne, hm.token_eq⟩ (.nothing _) hms hms'
    (Nat.add_sub_cancel' hshare) (Nat.zero_le _)

end Execute

end Karma.Bilateral
