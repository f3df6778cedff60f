import Karma.Evm.Run
import Mathlib.Order.Lattice.Nat

/-! # The operator's nonces

`_broadcast_tx` of `services/chain/allowance_escrow.py` signs with the larger of what the RPC node
answers and one more than the last nonce this process has signed (`_LAST_NONCE`). -/

namespace Karma.Operator

open Karma.Evm Function

/-- What becomes of `send_raw_transaction`. -/
inductive Answer
  | accepted (txHash : String)
  | staleNonce
  /-- Any other exception; `landed` if the node has taken the transaction all the same. -/
  | raises (text : String) (landed : Bool)

/-- What one attempt meets; `none` is a call that raises. -/
structure Attempt where
  /-- `get_transaction_count(address, "latest")`. -/
  latest : Option ℕ
  /-- `get_transaction_count(address, "pending")`. -/
  pending : Option ℕ
  gasPrice : Option ℕ
  buildError : Option String := none
  answer : Answer

/-- A read that fails counts as zero. -/
def chainNonce (read : Option ℕ) : ℕ := read.getD 0

def Attempt.chainNonce (x : Attempt) : ℕ :=
  max (Operator.chainNonce x.latest) (Operator.chainNonce x.pending)

def reserveNonce (last : Option ℕ) (x : Attempt) : ℕ :=
  max x.chainNonce ((last.map (· + 1)).getD 0)

/-- The transaction parameters that are not the call's own. -/
structure Overrides (A : Type) where
  sender : A
  nonce : ℕ
  chainId : ℕ
  maxFeePerGas : Option ℕ := none
  maxPriorityFeePerGas : Option ℕ := none

/-- Why `_broadcast_tx` raises. -/
inductive Failure
  | build (text : String)
  | staleNonce
  | broadcast (text : String)

inductive Outcome (A : Type)
  | sent (tx : Overrides A) (txHash : String)
  | retry
  | failed (e : Failure)

/-- `_LAST_NONCE`, by address, and the nonces of the transactions that the node has accepted from
it, the newest first. -/
structure State (A : Type) where
  last : A → Option ℕ
  accepted : A → List ℕ

variable {A : Type} [DecidableEq A]

/-- `_LAST_NONCE[key] = nonce`, and `_forget_nonce`. -/
def State.remember (s : State A) (a : A) (last : Option ℕ) : State A :=
  { s with last := update s.last a last }

def State.accept (s : State A) (a : A) (nonce : ℕ) : State A :=
  { s with accepted := update s.accepted a (nonce :: s.accepted a) }

/-- The fee ceiling: bid it where the quoted price is unknown or above it. -/
def overrides (a : A) (chainId capWei nonce : ℕ) (gasPrice : Option ℕ) : Overrides A :=
  let quoted := gasPrice.getD 0
  if capWei ≠ 0 ∧ (quoted = 0 ∨ capWei < quoted) then
    ⟨a, nonce, chainId, some capWei, some (min capWei 300000000)⟩
  else ⟨a, nonce, chainId, none, none⟩

def State.attempt (s : State A) (a : A) (chainId capWei : ℕ) (first : Bool) (x : Attempt) :
    Outcome A × State A :=
  let nonce := reserveNonce (s.last a) x
  match x.buildError with
  | some text => (.failed (.build text), s.remember a none)
  | none =>
    match x.answer with
    | .accepted txHash =>
      (.sent (overrides a chainId capWei nonce x.gasPrice) txHash,
        (s.remember a (some nonce)).accept a nonce)
    | .staleNonce =>
      if first then (.retry, s.remember a (some nonce))
      else (.failed .staleNonce, s.remember a none)
    | .raises text landed =>
      (.failed (.broadcast text),
        if landed then (s.remember a none).accept a nonce else s.remember a none)

/-- A call of `_broadcast_tx`, with what its two attempts meet. -/
structure Send (A : Type) where
  sender : A
  chainId : ℕ
  capWei : ℕ
  first : Attempt
  second : Attempt

def State.broadcastTx (s : State A) (x : Send A) : Outcome A × State A :=
  match s.attempt x.sender x.chainId x.capWei true x.first with
  | (.retry, s') => s'.attempt x.sender x.chainId x.capWei false x.second
  | done => done

def step (s : State A) (x : Send A) : Option (State A) := some (s.broadcastTx x).2

abbrev History (A : Type) := List (Entry (State A) (Send A))

abbrev Reach (h : History A) (s : State A) : Prop :=
  Run (fun s => ∀ a, s.last a = none ∧ s.accepted a = []) step h s

/-! ## What a send does -/

def Attempt.lands (x : Attempt) : Bool :=
  x.buildError.isNone && match x.answer with
    | .accepted _ => true
    | .staleNonce => false
    | .raises _ landed => landed

def Attempt.stale (x : Attempt) : Bool :=
  x.buildError.isNone && match x.answer with
    | .staleNonce => true
    | _ => false

/-- **The nonce with which the node takes the transaction**, where `last` is remembered. -/
def Send.nonce (x : Send A) (last : Option ℕ) : Option ℕ :=
  if x.first.lands then some (reserveNonce last x.first)
  else if x.first.stale && x.second.lands then
    some (reserveNonce (some (reserveNonce last x.first)) x.second)
  else none

variable {s s' : State A} {a : A}

/-- What was remembered and accepted for everybody else is as before. -/
structure Leaves (s : State A) (a : A) (nonce : Option ℕ) (s' : State A) : Prop where
  last_of_ne : ∀ b, b ≠ a → s'.last b = s.last b
  accepted_of_ne : ∀ b, b ≠ a → s'.accepted b = s.accepted b
  last : ∀ n, s'.last a = some n → nonce = some n
  accepted : s'.accepted a = nonce.toList ++ s.accepted a

theorem Leaves.forget (s : State A) (a : A) : Leaves s a none (s.remember a none) := by
  refine ⟨fun b hb => ?_, fun _ _ => rfl, fun n hn => ?_, rfl⟩
  · exact update_of_ne hb ..
  · simp [State.remember] at hn

theorem State.attempt_retry (s : State A) (a : A) (chainId capWei : ℕ) {x : Attempt}
    (hstale : x.stale = true) :
    s.attempt a chainId capWei true x =
      (.retry, s.remember a (some (reserveNonce (s.last a) x))) := by
  obtain ⟨hbuild, hanswer⟩ := Bool.and_eq_true_iff.mp hstale
  cases h : x.answer with
  | staleNonce => simp [State.attempt, Option.isNone_iff_eq_none.mp hbuild, h]
  | accepted | raises => simp [h] at hanswer

theorem State.leaves_attempt (s : State A) (a : A) (chainId capWei : ℕ) {first : Bool}
    {x : Attempt} (hlast : first = true → x.stale = false) :
    (s.attempt a chainId capWei first x).1 ≠ .retry ∧
      Leaves s a (if x.lands then some (reserveNonce (s.last a) x) else none)
        (s.attempt a chainId capWei first x).2 := by
  unfold State.attempt
  cases hbuild : x.buildError with
  | some text => simpa [Attempt.lands, hbuild] using Leaves.forget s a
  | none =>
    cases hanswer : x.answer with
    | accepted txHash =>
      refine ⟨?_, fun b hb => ?_, fun b hb => ?_, fun n hn => ?_, ?_⟩ <;>
        simp_all [State.remember, State.accept, Attempt.lands]
    | staleNonce =>
      cases first with
      | true => simp [Attempt.stale, hbuild, hanswer] at hlast
      | false => simpa [Attempt.lands, hbuild, hanswer] using Leaves.forget s a
    | raises text landed =>
      cases landed with
      | true =>
        refine ⟨?_, fun b hb => ?_, fun b hb => ?_, fun n hn => ?_, ?_⟩ <;>
          simp_all [State.remember, State.accept, Attempt.lands]
      | false => simpa [Attempt.lands, hbuild, hanswer] using Leaves.forget s a

theorem State.leaves_broadcastTx (s : State A) (x : Send A) :
    Leaves s x.sender (x.nonce (s.last x.sender)) (s.broadcastTx x).2 := by
  rw [State.broadcastTx]
  cases hstale : x.first.stale with
  | false =>
    obtain ⟨hretry, hleaves⟩ :=
      s.leaves_attempt x.sender x.chainId x.capWei fun _ : true = true => hstale
    have hnonce : x.nonce (s.last x.sender) =
        if x.first.lands then some (reserveNonce (s.last x.sender) x.first) else none := by
      simp [Send.nonce, hstale]
    rw [hnonce]
    generalize s.attempt x.sender x.chainId x.capWei true x.first = r at hretry hleaves
    obtain ⟨outcome, u⟩ := r
    cases outcome with
    | retry => exact absurd rfl hretry
    | sent | failed => exact hleaves
  | true =>
    have hlands : x.first.lands = false := by
      unfold Attempt.stale at hstale
      unfold Attempt.lands
      cases h : x.first.answer <;> simp_all
    rw [s.attempt_retry x.sender x.chainId x.capWei hstale]
    set u := s.remember x.sender (some (reserveNonce (s.last x.sender) x.first)) with hu
    have hfinal : false = true → x.second.stale = false := fun h => by cases h
    have hsecond := (u.leaves_attempt x.sender x.chainId x.capWei hfinal).2
    have hremembered : u.last x.sender = some (reserveNonce (s.last x.sender) x.first) :=
      update_self ..
    rw [hremembered] at hsecond
    have hnonce : x.nonce (s.last x.sender) = if x.second.lands then
        some (reserveNonce (some (reserveNonce (s.last x.sender) x.first)) x.second)
        else none := by
      simp [Send.nonce, hlands, hstale]
    rw [hnonce]
    refine ⟨fun b hb => ?_, hsecond.accepted_of_ne, hsecond.last, hsecond.accepted⟩
    rw [hsecond.last_of_ne b hb]
    exact update_of_ne hb ..

/-! ## Accepted nonces -/

/-- **Nonces never repeat**: each accepted nonce is above every one accepted before. -/
def State.Rising (s : State A) : Prop := ∀ a, (s.accepted a).Pairwise (· > ·)

/-- What is remembered is no lower than any accepted nonce. -/
def State.Covered (s : State A) : Prop :=
  ∀ a n, s.last a = some n → ∀ m ∈ s.accepted a, m ≤ n

/-- **The node makes up for a forgotten nonce**. -/
def Recovers (e : Entry (State A) (Send A)) : Prop :=
  e.pre.last e.act.sender = none → ∀ n ∈ e.act.nonce none, ∀ m ∈ e.pre.accepted e.act.sender, m < n

theorem lt_reserveNonce (l : ℕ) (x : Attempt) : l < reserveNonce (some l) x :=
  (Nat.lt_succ_self l).trans_le (le_max_right ..)

omit [DecidableEq A] in
theorem lt_of_nonce {x : Send A} {l n : ℕ} (h : x.nonce (some l) = some n) : l < n := by
  unfold Send.nonce at h
  split_ifs at h <;> cases h
  · exact lt_reserveNonce l x.first
  · exact (lt_reserveNonce l x.first).trans (lt_reserveNonce _ x.second)

theorem Leaves.rising_iff {nonce : Option ℕ} (hl : Leaves s a nonce s') (hs : s.Rising) :
    s'.Rising ↔ ∀ n ∈ nonce, ∀ m ∈ s.accepted a, m < n := by
  constructor
  · rintro hrising n rfl m hm
    have ha := hrising a
    rw [hl.accepted] at ha
    exact List.rel_of_pairwise_cons ha hm
  · intro hlt b
    by_cases hb : b = a
    · rw [hb, hl.accepted]
      cases nonce with
      | none => exact hs a
      | some n => exact List.pairwise_cons.mpr ⟨hlt n rfl, hs a⟩
    · rw [hl.accepted_of_ne b hb]
      exact hs b

/-- **The operator's nonces.** -/
theorem accepted_nonces_rise_iff {h : History A} (hr : Reach h s) :
    Throughout (fun _ s => s.Rising) h s ↔ ∀ e ∈ h, Recovers e := by
  refine (hr.throughout_iff (J := fun _ s => s.Rising ∧ s.Covered) (C := fun _ e => Recovers e)
    (H := fun _ => True) (fun _ _ _ => trivial) ?_ ?_ (fun _ _ hJ => hJ.1) ?_ trivial).trans
      each_iff
  · intro s hs
    refine ⟨fun a => ?_, fun a n hn => ?_⟩
    · rw [(hs a).2]
      exact List.Pairwise.nil
    · rw [(hs a).1] at hn
      cases hn
  · rintro h s x s' - - ⟨hrising, hcovered⟩ hstep hrecovers
    cases hstep
    have hl := s.leaves_broadcastTx x
    have habove : ∀ n ∈ x.nonce (s.last x.sender), ∀ m ∈ s.accepted x.sender, m < n := by
      cases hlast : s.last x.sender with
      | none => exact hrecovers hlast
      | some l => exact fun n hn m hm => (hcovered _ l hlast m hm).trans_lt (lt_of_nonce hn)
    refine ⟨(hl.rising_iff hrising).mpr habove, fun b n hn m hm => ?_⟩
    by_cases hb : b = x.sender
    · -- only the accepted nonce is remembered
      subst hb
      have hnonce := hl.last n hn
      rw [hl.accepted, hnonce] at hm
      rcases List.mem_cons.mp hm with rfl | hm
      · exact le_rfl
      · exact (habove n hnonce m hm).le
    · rw [hl.last_of_ne b hb] at hn
      rw [hl.accepted_of_ne b hb] at hm
      exact hcovered b n hn m hm
  · intro h s x s' _ hrising hstep hrising' hlast
    cases hstep
    have hl := s.leaves_broadcastTx x
    rw [hlast] at hl
    exact (hl.rising_iff hrising).mp hrising'

namespace Sample

def attempt (nonce : ℕ) (answer : Answer) (buildError : Option String := none) : Attempt :=
  ⟨some nonce, some nonce, none, buildError, answer⟩

def send (first : Attempt) : Send Unit := ⟨(), 1, 0, first, first⟩

def start : State Unit := ⟨fun _ => none, fun _ => []⟩

def after (xs : List (Send Unit)) : State Unit := stateAfter step xs start

def lagging : List (Send Unit) :=
  [send (attempt 0 (.accepted "0x1")), send (attempt 0 (.accepted "0x2"))]

def forgetful : List (Send Unit) :=
  [send (attempt 0 (.accepted "0x1")), send (attempt 0 (.accepted "0x2") (some "reverted")),
    send (attempt 0 (.accepted "0x3"))]

end Sample

open Sample

theorem accepted_nonces_rise_sample :
    (after lagging).accepted () = [1, 0] ∧ (after lagging).Rising := by
  have hr : Reach _ (after lagging) := .stateAfter (.start fun _ => ⟨rfl, rfl⟩)
  refine ⟨rfl, ((accepted_nonces_rise_iff hr).mpr fun e he => ?_).last⟩
  have hlist : record step lagging start [] = [⟨_, send (attempt 0 (.accepted "0x2")), _⟩,
        ⟨start, send (attempt 0 (.accepted "0x1")), _⟩] := rfl
  rw [hlist] at he
  rcases List.mem_cons.mp he with rfl | he
  · exact fun hnone => by cases hnone
  · obtain rfl := List.mem_singleton.mp he
    exact fun _ _ _ _ hm => absurd hm List.not_mem_nil

/-- **A nonce is used twice.** -/
theorem nonce_repeated : Reach (record step forgetful start []) (after forgetful) ∧
      (∀ e ∈ record step forgetful start [], e.act.first.chainNonce ≤ (e.pre.accepted ()).length) ∧
      (after forgetful).accepted () = [0, 0] ∧
      ¬ (after forgetful).Rising := by
  refine ⟨.stateAfter (.start fun _ => ⟨rfl, rfl⟩), by decide, rfl, fun hrising => ?_⟩
  have hpair : ([0, 0] : List ℕ).Pairwise (· > ·) := hrising ()
  exact absurd hpair (by decide)

end Karma.Operator
