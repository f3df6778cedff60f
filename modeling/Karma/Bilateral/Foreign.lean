import Karma.Bilateral.Book
import Karma.Bilateral.Code

/-! # `KarmaBilateral` — what foreign code can do

`World.book` decodes the packed ledger, `World.Wf` is what the decoding rests on, and `Solvent` is
the property at stake while foreign code runs. -/

namespace Karma.Bilateral

open Evm Relation Function

variable {D : Deployment} {v v' w w' : World}

/-! ## The decoded ledger -/

def World.bill (w : World) (i : ℕ) : BillToken where
  owner := billOwner (w.bills i)
  state := (billState (w.bills i)).getD .burned
  token := w.billToken (w.bills i)
  amount := w.billAmounts i

def World.book (w : World) : Book where
  bill := w.bill
  billCounter := w.billCounter
  binding := w.bindings
  bindingCounter := w.bindingCounter
  totalLocked := w.totalLocked
  pendingBatchAmount := w.pendingBatchAmount
  freeBalance := w.freeBalance
  boundBalance := w.boundBalance

/-- The table of token numbers: a number in use is at most the counter, and leads back to its
token. -/
def Config.Listed (c : Config) : Prop :=
  ∀ t, c.tokenIds t ≠ 0 →
    (c.tokenIds t).toNat ≤ c.tokenCounter.toNat ∧ c.idToToken (c.tokenIds t) = t

structure World.Wf (w : World) : Prop where
  listed : w.toConfig.Listed
  ids : ∀ i, (billTokenId (w.bills i)).toNat ≤ w.tokenCounter.toNat
  states : ∀ i, (billState (w.bills i)).isSome

theorem World.Wf.decodeBill (h : w.Wf) (i : ℕ) : w.decodeBill i = some (w.bill i) := by
  obtain ⟨st, hst⟩ := Option.isSome_iff_exists.mp (h.states i)
  rw [World.decodeBill, hst]
  simp [World.bill, hst]

structure Config.Grows (c c' : Config) : Prop where
  counter : c.tokenCounter.toNat ≤ c'.tokenCounter.toNat
  kept : ∀ k, k.toNat ≤ c.tokenCounter.toNat → c'.idToToken k = c.idToToken k
  listed : c.Listed → c'.Listed

theorem Config.Grows.refl (c : Config) : c.Grows c := ⟨le_rfl, fun _ _ => rfl, id⟩

theorem Config.Grows.trans {c c' c'' : Config} (h : c.Grows c') (h' : c'.Grows c'') :
    c.Grows c'' := by
  refine ⟨h.counter.trans h'.counter, fun k hk => ?_, fun hl => h'.listed (h.listed hl)⟩
  rw [h'.kept k (hk.trans h.counter), h.kept k hk]

theorem Config.Grows.of_eq {c c' : Config} (hids : c'.tokenIds = c.tokenIds)
    (htokens : c'.idToToken = c.idToToken) (hcounter : c'.tokenCounter = c.tokenCounter) :
    c.Grows c' := by
  refine ⟨by rw [hcounter], fun k _ => by rw [htokens], fun hl t ht => ?_⟩
  rw [hids] at ht ⊢
  rw [hcounter, htokens]
  exact hl t ht

theorem toNat_counter_succ {n : BitVec 8} (h : n ≠ BitVec.allOnes 8) :
    (n + 1).toNat = n.toNat + 1 := by
  have hne : n.toNat ≠ 255 := fun he => h (BitVec.eq_of_toNat_eq (by simpa using he))
  have hlt := n.isLt
  rw [BitVec.toNat_add, show (1 : BitVec 8).toNat = 1 from rfl]
  omega

theorem Config.Grows.list {c c' : Config} {token : Address} (hnew : c.tokenIds token = 0)
    (hroom : c.tokenCounter ≠ BitVec.allOnes 8)
    (hids : c'.tokenIds = update c.tokenIds token (c.tokenCounter + 1))
    (htokens : c'.idToToken = update c.idToToken (c.tokenCounter + 1) token)
    (hcounter : c'.tokenCounter = c.tokenCounter + 1) : c.Grows c' := by
  have hsucc := toNat_counter_succ hroom
  have hkept : ∀ k, k.toNat ≤ c.tokenCounter.toNat → c'.idToToken k = c.idToToken k := by
    intro k hk
    have hne : k ≠ c.tokenCounter + 1 := by
      rintro rfl
      omega
    rw [htokens, update_of_ne hne]
  -- the new number leads to the new token; an old one is at most the old counter, and kept
  refine ⟨by rw [hcounter]; omega, hkept, fun hl t ht => ?_⟩
  rw [hids, hcounter]
  rcases eq_or_ne t token with rfl | hne
  · rw [update_self, htokens, update_self]
    exact ⟨le_rfl, rfl⟩
  · rw [hids, update_of_ne hne] at ht
    rw [update_of_ne hne]
    obtain ⟨hle, hback⟩ := hl t ht
    exact ⟨by omega, (hkept _ hle).trans hback⟩

/-! ## Solvency -/

/-- Of every token the core holds `n` of `t` more than its ledger says, beyond everything it has
approved. -/
def Owes (D : Deployment) (w : World) (t : Address) (n : ℕ) : Prop :=
  ∀ t', (w.tokens t').Backs D.self (w.totalLocked t' + if t = t' then n else 0)

/-- **Solvency**: of every token the core holds what its ledger says, beyond everything it has
approved. -/
def Solvent (D : Deployment) (w : World) : Prop := ∀ t, (w.tokens t).Backs D.self (w.totalLocked t)

theorem Owes.solvent {t : Address} {n : ℕ} (h : Owes D w t n) : Solvent D w :=
  fun t' => (h t').mono (Nat.le_add_right _ _)

theorem Solvent.owes (h : Solvent D w) (t : Address) : Owes D w t 0 := by
  intro t'
  rw [ite_self, Nat.add_zero]
  exact h t'

/-! ## Foreign code -/

/-- What a token call of the core takes off its holdings of `t`, as money sent or approved. -/
def Move.spends (t : Address) : Move → ℕ
  | .sent t' _ n | .granted t' _ n => if t' = t then n else 0
  | .pulled _ _ _ => 0

/-- What the token calls `ms` take off the core's holdings of `t`. -/
def spentOn (t : Address) (ms : List Move) : ℕ := (ms.map (Move.spends t)).sum

@[simp] theorem spentOn_nil (t : Address) : spentOn t [] = 0 := rfl

@[simp] theorem spentOn_singleton (t : Address) (m : Move) : spentOn t [m] = m.spends t := by
  simp [spentOn]

theorem spentOn_append (t : Address) (ms ms' : List Move) :
    spentOn t (ms ++ ms') = spentOn t ms + spentOn t ms' := by
  simp [spentOn]

/-- **A stretch of a transaction that leaves the ledger alone** and makes the token calls `ms`. -/
structure Passes (D : Deployment) (v v' : World) (ms : List Move) : Prop where
  ledger : v'.toLedger = v.toLedger
  now : v'.now = v.now
  moves : v'.moves = v.moves ++ ms
  table : v.toConfig.Grows v'.toConfig
  registry : 0 < v.now → ReflTransGen (IdentityRegistry.Step D.self) v.registry v'.registry
  backs : ∀ t n, (v.tokens t).Backs D.self (n + spentOn t ms) → (v'.tokens t).Backs D.self n

theorem Passes.trans {v'' : World} {ms ms' : List Move} (h : Passes D v v' ms)
    (h' : Passes D v' v'' ms') : Passes D v v'' (ms ++ ms') := by
  refine ⟨h'.ledger.trans h.ledger, h'.now.trans h.now, ?_, h.table.trans h'.table,
    fun hpos => (h.registry hpos).trans (h'.registry ?_), fun t n hb => ?_⟩
  · rw [h'.moves, h.moves, List.append_assoc]
  · rwa [h.now]
  · rw [spentOn_append, Nat.add_comm (spentOn t ms), ← Nat.add_assoc] at hb
    exact h'.backs t n (h.backs t _ hb)

theorem Passes.book {ms : List Move} (h : Passes D v v' ms) (hwf : v.Wf) : v'.book = v.book := by
  have hbill : v'.bill = v.bill := by
    funext i
    have htoken : v'.billToken (v.bills i) = v.billToken (v.bills i) := h.table.kept _ (hwf.ids i)
    simp only [World.bill, h.ledger, htoken]
  simp only [World.book, hbill, h.ledger]

theorem Passes.wf {ms : List Move} (h : Passes D v v' ms) (hwf : v.Wf) : v'.Wf := by
  refine ⟨h.table.listed hwf.listed, fun i => ?_, fun i => ?_⟩
  · rw [h.ledger]
    exact (hwf.ids i).trans h.table.counter
  · rw [h.ledger]
    exact hwf.states i

theorem Passes.owes {t : Address} {m n : ℕ} {ms : List Move} (h : Passes D v v' ms)
    (hms : ∀ t', spentOn t' ms = if t = t' then n else 0) (ho : Owes D v t (m + n)) :
    Owes D v' t m := by
  intro t'
  rw [h.ledger]
  refine h.backs t' _ ?_
  have hb := ho t'
  rw [hms t']
  split_ifs at hb ⊢
  · rwa [Nat.add_assoc]
  · exact hb

/-- **Foreign code**: a stretch without a token call of the core. -/
abbrev Foreign (D : Deployment) (v v' : World) : Prop := Passes D v v' []

theorem Foreign.idle (hledger : v'.toLedger = v.toLedger) (hnow : v'.now = v.now)
    (hmoves : v'.moves = v.moves) (htable : v.toConfig.Grows v'.toConfig)
    (hregistry : v'.registry = v.registry) (htokens : v'.tokens = v.tokens) : Foreign D v v' := by
  refine ⟨hledger, hnow, by rw [hmoves, List.append_nil], htable, fun _ => hregistry ▸ .refl,
    fun t n hb => ?_⟩
  rw [htokens]
  exact hb

theorem Foreign.refl (v : World) : Foreign D v v := .idle rfl rfl rfl (.refl _) rfl rfl

theorem Foreign.trans {v'' : World} (h : Foreign D v v') (h' : Foreign D v' v'') :
    Foreign D v v'' := Passes.trans h h'

theorem Foreign.config {c : Config} {es : List Event} (h : w.toConfig.Grows c) :
    Foreign D w { w with toConfig := c, events := es } := .idle rfl rfl rfl h rfl rfl

theorem Foreign.owes {t : Address} {n : ℕ} (h : Foreign D v v') (ho : Owes D v t n) :
    Owes D v' t n :=
  Passes.owes (n := 0) h (fun _ => (ite_self 0).symm) ho

theorem Foreign.solvent (h : Foreign D v v') (hs : Solvent D v) : Solvent D v' :=
  (Foreign.owes h (hs.owes 0)).solvent

/-! ## Every call from outside is foreign -/

structure Deadline where
  bindingId : ℕ
  finalizeAfter : ℕ
  deriving DecidableEq

def Event.deadline : Event → Option Deadline
  | .settleSubmitted bindingId _ finalizeAfter => some ⟨bindingId, finalizeAfter⟩
  | _ => none

/-- The functions without a guard that ask for the admin. -/
def OpenCall.AdminOnly : OpenCall → Prop
  | .applyAttestationGateway | .setBindingDeveloper _ _ => False
  | _ => True

def OpenCall.rewrite (now : ℕ) (c : Config) : OpenCall → Config
  | .setEmergencyGuard guard => { c with emergencyGuard := guard }
  | .setSettleOperator operator => { c with settleOperator := operator }
  | .setTEEVerifier verifier => { c with teeVerifier := verifier }
  | .setIdentityRegistry registry => { c with identityRegistry := registry }
  | .setTokenAllowed token allowed =>
    let c' := { c with tokenAllowed := update c.tokenAllowed token allowed }
    if allowed = true ∧ c.tokenIds token = 0 then
      { c' with
        tokenCounter := c.tokenCounter + 1,
        tokenIds := update c.tokenIds token (c.tokenCounter + 1),
        idToToken := update c.idToToken (c.tokenCounter + 1) token }
    else c'
  | .setScoringEngine engine => { c with scoringEngine := engine }
  | .setMinReputationScore minScore => { c with minReputationScore := minScore }
  | .setBatchThreshold token threshold =>
    { c with batchThreshold := update c.batchThreshold token threshold }
  | .setSettleDelay seconds => { c with settleDelaySeconds := seconds }
  | .setOptimisticDisputeWindow seconds => { c with optimisticDisputeWindow := seconds }
  | .setEvidenceWindow seconds => { c with evidenceWindow := seconds }
  | .setAutoArbitrationThreshold amount => { c with autoArbitrationThreshold := amount }
  | .setSettleTimeout seconds => { c with settleTimeoutSeconds := seconds }
  | .setLargeDisputeTimeout seconds => { c with largeDisputeTimeoutSeconds := seconds }
  | .setAttestationGateway gateway =>
    if c.attestationGateway = 0 then { c with attestationGateway := gateway }
    else { c with
      pendingAttestationGateway := gateway,
      pendingGatewayApplyTime := now + c.gatewayChangeDelay }
  | .applyAttestationGateway =>
    { c with
      pendingAttestationGateway := 0, pendingGatewayApplyTime := 0,
      attestationGateway := c.pendingAttestationGateway }
  | .setGatewayChangeDelay delay => { c with gatewayChangeDelay := delay }
  | .setTreasury treasury => { c with treasury := treasury }
  | .setFeeBridge feeBridge => { c with feeBridge := feeBridge }
  | .setBindingDeveloper bindingId developer =>
    { c with bindingDeveloper := update c.bindingDeveloper bindingId developer }

section Setters

variable {sender : Address} {I : World → Prop} {E : Error → Prop}

@[simp] theorem wp_emit (e : Event) (Q : Unit → World → Prop) :
    (emit e).wp I E Q w ↔ Q () { w with events := w.events ++ [e] } := by
  simp [emit]

@[simp] theorem wp_writeConfig (f : Config → Config) (Q : Unit → World → Prop) :
    (writeConfig f).wp I E Q w ↔ Q () { w with toConfig := f w.toConfig } := by
  simp [writeConfig]

def Sets (D : Deployment) (sender : Address) (c : OpenCall) (w v : World) : Prop :=
  ∃ e, Event.deadline e = none ∧ (c.AdminOnly → sender = D.admin) ∧
    w.toConfig.Grows (c.rewrite w.now w.toConfig) ∧
    v = { w with toConfig := c.rewrite w.now w.toConfig, events := w.events ++ [e] }

theorem Sets.of_eq {c : OpenCall} {e : Event} {cfg : Config} (he : e.deadline = none)
    (hcfg : c.rewrite w.now w.toConfig = cfg) (hadmin : c.AdminOnly → sender = D.admin)
    (hgrows : w.toConfig.Grows cfg) :
    Sets D sender c w { w with toConfig := cfg, events := w.events ++ [e] } := by
  subst hcfg
  exact ⟨e, he, hadmin, hgrows, rfl⟩

theorem post_adminSet {c : OpenCall} {f : Config → Config} {e : Event} (he : e.deadline = none)
    (hf : c.rewrite w.now w.toConfig = f w.toConfig)
    (hgrows : w.toConfig.Grows (f w.toConfig)) :
    (adminSet D sender f e).post (fun _ => Sets D sender c w) w := by
  simp only [adminSet, onlyAdmin, Tx.post_code, wp_writeConfig, wp_emit]
  exact fun hsender => .of_eq he hf (fun _ => not_not.mp hsender) hgrows

theorem post_openCall (c : OpenCall) : (c.exec D sender).post (fun _ => Sets D sender c w) w := by
  cases c with
  | setTokenAllowed =>
    simp only [OpenCall.exec, setTokenAllowed, onlyAdmin, Tx.post_code, wp_writeConfig, wp_emit]
    refine fun hsender _ => ⟨fun hnew hroom => ?_, fun hold => ?_⟩
    · exact .of_eq rfl (if_pos hnew) (fun _ => not_not.mp hsender) (.list hnew.2 hroom rfl rfl rfl)
    · exact .of_eq rfl (if_neg hold) (fun _ => not_not.mp hsender) (.of_eq rfl rfl rfl)
  | setAttestationGateway =>
    simp only [OpenCall.exec, setAttestationGateway, onlyAdmin, Tx.post_code, wp_writeConfig,
      wp_emit]
    refine fun hsender _ => ⟨fun hfirst => ?_, fun hset _ => ?_⟩
    · exact .of_eq rfl (if_pos hfirst) (fun _ => not_not.mp hsender) (.of_eq rfl rfl rfl)
    · exact .of_eq rfl (if_neg hset) (fun _ => not_not.mp hsender) (.of_eq rfl rfl rfl)
  | setLargeDisputeTimeout =>
    simp only [OpenCall.exec, setLargeDisputeTimeout, onlyAdmin, Tx.post_code, wp_writeConfig,
      wp_emit]
    exact fun hsender _ => .of_eq rfl rfl (fun _ => not_not.mp hsender) (.of_eq rfl rfl rfl)
  | applyAttestationGateway =>
    simp only [OpenCall.exec, applyAttestationGateway, Tx.post_code, wp_writeConfig, wp_emit]
    exact fun _ _ => .of_eq rfl rfl False.elim (.of_eq rfl rfl rfl)
  | setBindingDeveloper =>
    simp only [OpenCall.exec, setBindingDeveloper, Tx.post_code, wp_writeConfig, wp_emit]
    exact fun _ _ _ => .of_eq rfl rfl False.elim (.of_eq rfl rfl rfl)
  -- all the others are plain setters
  | _ => exact post_adminSet rfl rfl (.of_eq rfl rfl rfl)

end Setters

theorem foreign_of_attempt {a : Outside} (h : a.attempt D w = some w') : Foreign D w w' := by
  have hsender : ¬ (a.sender = D.self ∨ a.sender = 0) := by
    intro hs
    simp [Outside.attempt, hs] at h
  unfold Outside.attempt at h
  rw [if_neg hsender] at h
  rw [not_or] at hsender
  cases a with
  | core sender c =>
    dsimp only at h
    split at h
    case h_1 u hr =>
      cases h
      obtain ⟨e, -, -, hgrows, rfl⟩ := Tx.wp_ok (post_openCall c) hr
      exact .config hgrows
    case h_2 => cases h
  | registry sender c =>
    dsimp only at h
    split at h
    case h_1 R hr =>
      cases h
      refine ⟨rfl, rfl, (List.append_nil _).symm, .refl _, fun hpos => .single ?_, fun _ _ => id⟩
      exact ⟨w.ctx, sender, c, hpos, hsender.2, hsender.1, hr⟩
    case h_2 => cases h
  | erc20 sender token c =>
    -- a spender of the core's takes balance and approval alike
    obtain ⟨T, hT, rfl⟩ := Option.map_eq_some_iff.mp h
    refine ⟨rfl, rfl, (List.append_nil _).symm, .refl _, fun _ => .refl, fun t n hb => ?_⟩
    rw [spentOn_nil, Nat.add_zero] at hb
    rcases eq_or_ne t token with rfl | hne
    · simpa using hb.run hsender.1 hT
    · simpa [hne] using hb

theorem foreign_run (a : Outside) (w : World) : Foreign D w (a.run D w) := by
  rw [Outside.run]
  cases h : a.attempt D w with
  | none => exact .refl w
  | some w' => exact foreign_of_attempt h

theorem wp_callOut {α : Type} {I : World → Prop} {E : Error → Prop} {Q : Option α → World → Prop}
    (c : OutCall) (r : Reply α) (hI : ∀ v, Foreign D w v → I v)
    (hQ : ∀ v, Foreign D w v → Q r.answer v) : (callOut D c r).wp I E Q w := by
  simp only [callOut, Tx.wp_code]
  have hlog : Foreign D w { w with calls := w.calls ++ [c] } :=
    .idle rfl rfl rfl (.refl _) rfl rfl
  refine Tx.wp_callOut Foreign.refl (fun _ _ _ => Foreign.trans) _ (fun o _ => foreign_run o) _ _
    ?_ ?_ ?_
  · exact fun v hv => hI v (hlog.trans hv)
  · intro a v ha hv
    rw [← ha]
    exact hQ v (hlog.trans hv)
  · intro ha
    rw [← ha]
    exact hQ _ hlog

end Karma.Bilateral
