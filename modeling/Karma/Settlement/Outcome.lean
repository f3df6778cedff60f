import Karma.Capacity.Freezes

/-! # The outcome of a settlement and the capacity ledger

The requests that end a settlement (`buyer_accept_settlement`, `_auto_confirm_release`,
`auto_arbitrate` in `api/routes/settlement.py`, `_settle_from_decision` in
`api/routes/arbitration.py`) write the outcome on the settlement row and a resolution of the escrow
on the buyer's capacity row. -/

namespace Karma.Settlement

open Karma.Capacity

structure Resolution where
  escrow : ℚ
  settled : ℚ
  refunded : ℚ
  deriving DecidableEq

structure Books where
  status : TaskStatus
  released : Option ℚ
  refunded : Option ℚ
  cap : Option Balances
  resolutions : List Resolution := []

/-- What the database has committed, and what the request's transaction sees. -/
structure Session where
  committed : Books
  working : Books

/-- Work after the resolution, or before the outcome. -/
inductive Work
  | assertReceipt | splitAmounts | releaseProfileCredits | markVoucherUsed | syncPaymentIntents
  | applyReputation | sealAttestation | appendCaseEvent | flush

inductive Instr
  | require (p : TaskStatus → Bool)
  | work (w : Work)
  | transition (target : TaskStatus) (amounts : Option (ℚ × ℚ))
  /-- `store.save` in the request's own transaction. -/
  | save (target : TaskStatus) (amounts : ℚ × ℚ)
  /-- `_sync_escrow_settlement` in the request's own transaction. -/
  | syncChain
  | resolve (r : Resolution)

/-- How an instruction raises: before it has done anything, or, for a transition, because the chain
rejected it after the commit. -/
inductive Raise
  | early
  | chainRejected (reverted : Bool)
  deriving DecidableEq

def Books.record (b : Books) (target : TaskStatus) (amounts : Option (ℚ × ℚ)) : Books :=
  { b with
    status := target
    released := (amounts.map Prod.fst).or b.released
    refunded := (amounts.map Prod.snd).or b.refunded }

variable (cfg : Capacity.Settings)

def Instr.exec (s : Session) : Instr → Option Session
  | .require p => if p s.working.status then some s else none
  | .work _ | .syncChain => some s
  | .transition target amounts =>
    if s.working.status.canTransition target then
      -- the commit takes everything along that the transaction has written
      some ⟨s.working.record target amounts, s.working.record target amounts⟩
    else none
  | .save target amounts =>
    -- the persistence guard of the store
    if s.working.status.canonical = target ∨ s.working.status.canTransition target = true then
      some { s with working := s.working.record target (some amounts) }
    else none
  | .resolve r =>
    match s.working.cap with
    | none => some s
    | some c =>
      (operate cfg (.applyCapacityResolution r.escrow r.settled r.refunded) c).map fun c' =>
        { s with working :=
          { s.working with cap := some c', resolutions := r :: s.working.resolutions } }

def Instr.fail (s : Session) (raise : Raise) : Instr → Books
  | .transition target amounts =>
    match raise with
    | .early => s.committed
    | .chainRejected reverted =>
      if s.working.status.canTransition target then
        if reverted then s.working else s.working.record target amounts
      else s.committed
  | _ => s.committed

def run : List Instr → Option (ℕ × Raise) → Session → Books
  | [], none, s => s.working
  | [], some _, s => s.committed
  | i :: _, some (0, raise), s => i.fail s raise
  | i :: rest, some (k + 1, raise), s =>
    match i.exec cfg s with
    | some s' => run rest (some (k, raise)) s'
    | none => s.committed
  | i :: rest, none, s =>
    match i.exec cfg s with
    | some s' => run rest none s'
    | none => s.committed

/-! ## The four requests -/

inductive Verdict
  | buyerWins
  | sellerWins
  | split (settled refunded : ℚ)

def Verdict.target : Verdict → TaskStatus
  | .buyerWins => .refunded
  | .sellerWins | .split .. => .settled

def Verdict.amounts (escrow : ℚ) : Verdict → ℚ × ℚ
  | .buyerWins => (0, escrow)
  | .sellerWins => (escrow, 0)
  | .split settled refunded => (settled, refunded)

inductive Ending
  | buyerAccept
  | autoConfirm
  | autoArbitrate (settled refunded : ℚ)
  | settleFromDecision (v : Verdict)

def closing : List Work :=
  [.releaseProfileCredits, .markVoucherUsed, .syncPaymentIntents, .applyReputation,
    .sealAttestation, .flush]

def decision (settled : ℚ) : TaskStatus := if settled ≤ 1 / 10 ^ 6 then .refunded else .settled

/-- The status that `_settle_from_decision` goes on from. -/
def arbitratedFrom (s : TaskStatus) : TaskStatus := if s = .disputed then .arbitrated else s

def program (escrow : ℚ) : Ending → List Instr
  | .buyerAccept =>
    [.require (· = .delivered), .work .assertReceipt, .transition .settled (some (escrow, 0)),
      .resolve ⟨escrow, escrow, 0⟩] ++ closing.map .work
  | .autoConfirm =>
    [.work .assertReceipt, .transition .autoConfirmed none,
      .transition .settled (some (escrow, 0)), .resolve ⟨escrow, escrow, 0⟩] ++ closing.map .work
  | .autoArbitrate settled refunded =>
    [.transition .arbitrated none, .work .splitAmounts, .work .assertReceipt,
      .transition (decision settled) (some (settled, refunded)),
      .resolve ⟨escrow, settled, refunded⟩] ++
      [Work.markVoucherUsed, .syncPaymentIntents, .flush].map .work
  | .settleFromDecision v =>
    [.require fun s => (arbitratedFrom s).canTransition v.target,
      .save v.target (v.amounts escrow), .syncChain,
      .resolve ⟨escrow, (v.amounts escrow).1, (v.amounts escrow).2⟩] ++
      [Work.markVoucherUsed, .flush, .appendCaseEvent].map .work

def Ended (s : TaskStatus) : Prop := s = .settled ∨ s = .refunded

def Atomic (escrow : ℚ) (b : Books) : Prop :=
  Ended b.status ↔ ∃ settled refunded, b.released = some settled ∧ b.refunded = some refunded ∧
    b.resolutions = [⟨escrow, settled, refunded⟩]

/-! ## When they are atomic -/

def Before (k : ℕ) (fault : Option (ℕ × Raise)) : Prop :=
  ∃ j raise, fault = some (j, raise) ∧ (j < k ∨ j = k ∧ raise ≠ .chainRejected false)

def Resolves (r : Resolution) (b : Books) : Prop :=
  ∃ c c', b.cap = some c ∧
    operate cfg (.applyCapacityResolution r.escrow r.settled r.refunded) c = some c'

def Safe (escrow : ℚ) (fault : Option (ℕ × Raise)) (b : Books) : Ending → Prop
  | .buyerAccept => b.status ≠ .delivered ∨ Before 2 fault ∨
      fault = none ∧ Resolves cfg ⟨escrow, escrow, 0⟩ b
  | .autoConfirm => b.status.canTransition .autoConfirmed = false ∨ Before 2 fault ∨
      fault = none ∧ Resolves cfg ⟨escrow, escrow, 0⟩ b
  | .autoArbitrate settled refunded => b.status.canTransition .arbitrated = false ∨
      Before 3 fault ∨ fault = none ∧ Resolves cfg ⟨escrow, settled, refunded⟩ b
  | .settleFromDecision v => (arbitratedFrom b.status).canTransition v.target = false ∨
      (b.status.canonical ≠ v.target ∧ b.status.canTransition v.target = false) ∨
      fault ≠ none ∨ b.cap ≠ none

variable {cfg} {escrow : ℚ} {fault : Option (ℕ × Raise)} {s : Session} {b : Books}

variable {rest : List Instr} {i : Instr}

theorem run_cons_none {s' : Session} (hexec : i.exec cfg s = some s') :
    run cfg (i :: rest) none s = run cfg rest none s' := by
  rw [run, hexec]

theorem run_cons_succ {s' : Session} {k : ℕ} {raise : Raise} (hexec : i.exec cfg s = some s') :
    run cfg (i :: rest) (some (k + 1, raise)) s = run cfg rest (some (k, raise)) s' := by
  rw [run, hexec]

theorem run_work (ws : List Work) (fault : Option (ℕ × Raise)) (s : Session) :
    run cfg (ws.map .work) fault s = if fault = none then s.working else s.committed := by
  induction ws generalizing fault with
  | nil => rcases fault with - | ⟨k, raise⟩ <;> rfl
  | cons w ws ih =>
    rcases fault with - | ⟨- | k, raise⟩
    · exact ih none
    · rfl
    · exact ih (some (k, raise))

theorem run_resolve (r : Resolution) (ws : List Work) (fault : Option (ℕ × Raise)) (s : Session) :
    run cfg (.resolve r :: ws.map .work) fault s =
      if fault = none then (((Instr.resolve r).exec cfg s).map Session.working).getD s.committed
      else s.committed := by
  rcases fault with - | ⟨- | k, raise⟩
  · rw [run]
    cases (Instr.resolve r).exec cfg s with
    | none => rfl
    | some s' => exact run_work ws none s'
  · rfl
  · rw [run]
    cases hexec : (Instr.resolve r).exec cfg s with
    | none => rfl
    | some s' =>
      have hcommitted : s'.committed = s.committed := by
        simp only [Instr.exec] at hexec
        split at hexec
        · exact (Option.some.inj hexec) ▸ rfl
        · obtain ⟨c', -, rfl⟩ := Option.map_eq_some_iff.mp hexec
          rfl
      exact (run_work ws _ s').trans hcommitted

theorem atomic_of_open (hopen : ¬ Ended b.status) (hnone : b.resolutions = []) :
    Atomic escrow b := by
  refine iff_of_false hopen ?_
  rintro ⟨settled, refunded, -, -, hone⟩
  rw [hnone] at hone
  cases hone

theorem not_atomic_of_ended (hended : Ended b.status) (hnone : b.resolutions = []) :
    ¬ Atomic escrow b := by
  intro h
  obtain ⟨settled, refunded, -, -, hone⟩ := h.mp hended
  rw [hnone] at hone
  cases hone

variable {settled refunded : ℚ}

theorem atomic_run_resolve_iff {ws : List Work}
    (hsame : s.committed = s.working) (hended : Ended s.working.status)
    (hnone : s.working.resolutions = []) (hreleased : s.working.released = some settled)
    (hrefunded : s.working.refunded = some refunded) :
    Atomic escrow (run cfg (.resolve ⟨escrow, settled, refunded⟩ :: ws.map .work) fault s) ↔
      fault = none ∧ Resolves cfg ⟨escrow, settled, refunded⟩ s.working := by
  rw [run_resolve]
  split_ifs with hfault
  · rw [and_iff_right hfault]
    constructor
    · intro hatomic
      by_contra hno
      have hbroken : ¬ Atomic escrow s.working := not_atomic_of_ended hended hnone
      apply hbroken
      cases hcap : s.working.cap with
      | none => simpa [Instr.exec, hcap] using hatomic
      | some c =>
        have hrefused : operate cfg (.applyCapacityResolution escrow settled refunded) c =
            none := by
          by_contra hsome
          obtain ⟨c', hc'⟩ := Option.ne_none_iff_exists'.mp hsome
          exact hno ⟨c, c', hcap, hc'⟩
        simpa [Instr.exec, hcap, hrefused, hsame] using hatomic
    · rintro ⟨c, c', hcap, hc'⟩
      simp only [Instr.exec, hcap, hc', Option.map_some, Option.getD_some]
      exact iff_of_true hended ⟨settled, refunded, hreleased, hrefunded, by rw [hnone]⟩
  · refine iff_of_false ?_ fun h => hfault h.1
    rw [hsame]
    exact not_atomic_of_ended hended hnone

theorem atomic_run_outcome_iff {target : TaskStatus} {ws : List Work}
    (hs : s.committed = s.working) (hopen : ¬ Ended s.working.status)
    (hnone : s.working.resolutions = []) (htarget : Ended target)
    (hcan : s.working.status.canTransition target = true) (fault : Option (ℕ × Raise)) :
    Atomic escrow (run cfg (.transition target (some (settled, refunded)) ::
        .resolve ⟨escrow, settled, refunded⟩ :: ws.map .work) fault s) ↔
      Before 0 fault ∨ fault = none ∧ Resolves cfg ⟨escrow, settled, refunded⟩ s.working := by
  have hstart : Atomic escrow s.working := atomic_of_open hopen hnone
  let after := s.working.record target (some (settled, refunded))
  have htail (fault : Option (ℕ × Raise)) :
      Atomic escrow (run cfg (.resolve ⟨escrow, settled, refunded⟩ :: ws.map .work) fault
        ⟨after, after⟩) ↔ fault = none ∧ Resolves cfg ⟨escrow, settled, refunded⟩ after :=
    atomic_run_resolve_iff rfl htarget hnone rfl rfl
  have hexec : (Instr.transition target (some (settled, refunded))).exec cfg s =
      some ⟨after, after⟩ := by
    rw [Instr.exec, if_pos hcan]
  rcases fault with - | ⟨- | k, raise⟩
  · rw [run_cons_none hexec, htail none]
    refine (or_iff_right ?_).symm
    rintro ⟨j, raise, h, -⟩
    cases h
  · refine Iff.trans ?_ (or_iff_left fun h => by cases h.1).symm
    simp only [run, Instr.fail, hcan, if_true]
    cases raise with
    | early => exact iff_of_true (hs ▸ hstart) ⟨0, .early, rfl, .inr ⟨rfl, by decide⟩⟩
    | chainRejected reverted =>
      cases reverted with
      | true => exact iff_of_true hstart ⟨0, _, rfl, .inr ⟨rfl, by decide⟩⟩
      | false =>
        refine iff_of_false (not_atomic_of_ended htarget hnone) ?_
        rintro ⟨j, raise, h, hj | ⟨-, hraise⟩⟩
        · exact absurd hj (Nat.not_lt_zero j)
        · obtain ⟨rfl, rfl⟩ := Prod.mk.inj (Option.some.inj h)
          exact hraise rfl
  · rw [run_cons_succ hexec, htail (some (k, raise))]
    refine iff_of_false (fun h => by cases h.1) ?_
    rintro (⟨j, raise', h, hj⟩ | ⟨h, -⟩)
    · obtain ⟨rfl, -⟩ := Prod.mk.inj (Option.some.inj h)
      omega
    · cases h

theorem atomic_run_cons_iff {t : Session} {k : ℕ} {P : Prop} (hexec : i.exec cfg s = some t)
    (hfail : ∀ raise, Atomic escrow (i.fail s raise))
    (htail : ∀ fault, Atomic escrow (run cfg rest fault t) ↔ Before k fault ∨ fault = none ∧ P)
    (fault : Option (ℕ × Raise)) :
    Atomic escrow (run cfg (i :: rest) fault s) ↔ Before (k + 1) fault ∨ fault = none ∧ P := by
  rcases fault with - | ⟨- | j, raise⟩
  · rw [run_cons_none hexec, htail none]
    simp only [Before, reduceCtorEq, false_and, exists_false]
  · exact iff_of_true (hfail raise) (.inl ⟨0, raise, rfl, .inl (Nat.succ_pos k)⟩)
  · rw [run_cons_succ hexec, htail (some (j, raise))]
    simp only [reduceCtorEq, false_and, or_false]
    constructor
    · rintro ⟨j', raise', h, hj⟩
      obtain ⟨rfl, rfl⟩ := Prod.mk.inj (Option.some.inj h)
      exact ⟨j + 1, raise, rfl, hj.imp Nat.succ_lt_succ (And.imp_left (congrArg Nat.succ))⟩
    · rintro ⟨j', raise', h, hj⟩
      obtain ⟨rfl, rfl⟩ := Prod.mk.inj (Option.some.inj h)
      exact ⟨j, raise, rfl, hj.imp Nat.lt_of_succ_lt_succ (And.imp_left Nat.succ.inj)⟩

theorem atomic_run_cons (hcommitted : Atomic escrow s.committed)
    (hfail : ∀ raise, Atomic escrow (i.fail s raise))
    (htail : ∀ s', i.exec cfg s = some s' → ∀ fault, Atomic escrow (run cfg rest fault s'))
    (fault : Option (ℕ × Raise)) : Atomic escrow (run cfg (i :: rest) fault s) := by
  rcases fault with - | ⟨- | j, raise⟩
  · rw [run]
    cases hexec : i.exec cfg s with
    | none => exact hcommitted
    | some s' => exact htail s' hexec none
  · exact hfail raise
  · rw [run]
    cases hexec : i.exec cfg s with
    | none => exact hcommitted
    | some s' => exact htail s' hexec (some (j, raise))

theorem atomic_fail_transition {target : TaskStatus} {amounts : Option (ℚ × ℚ)}
    (hopen : ¬ Ended b.status) (hnone : b.resolutions = []) (htarget : ¬ Ended target)
    (raise : Raise) : Atomic escrow ((Instr.transition target amounts).fail ⟨b, b⟩ raise) := by
  have hb : Atomic escrow b := atomic_of_open hopen hnone
  cases raise with
  | early => exact hb
  | chainRejected reverted =>
    simp only [Instr.fail]
    split_ifs
    · exact hb
    · exact atomic_of_open htarget hnone
    · exact hb

theorem atomic_buyerAccept_iff (hopen : ¬ Ended b.status) (hnone : b.resolutions = []) :
    Atomic escrow (run cfg (program escrow .buyerAccept) fault ⟨b, b⟩) ↔
      Safe cfg escrow fault b .buyerAccept := by
  have hb : Atomic escrow b := atomic_of_open hopen hnone
  rw [Safe]
  by_cases hstatus : b.status = .delivered
  · rw [or_iff_right (not_not.mpr hstatus)]
    have hcan : b.status.canTransition .settled = true := by rw [hstatus]; decide
    refine atomic_run_cons_iff (t := ⟨b, b⟩) (by simp [Instr.exec, hstatus]) (fun _ => hb) ?_ fault
    refine atomic_run_cons_iff (t := ⟨b, b⟩) rfl (fun _ => hb) ?_
    exact atomic_run_outcome_iff rfl hopen hnone (.inl rfl) hcan
  · refine iff_of_true ?_ (.inl hstatus)
    refine atomic_run_cons hb (fun _ => hb) (fun s' hs' => ?_) fault
    simp [Instr.exec, hstatus] at hs'

theorem atomic_autoConfirm_iff (hopen : ¬ Ended b.status) (hnone : b.resolutions = []) :
    Atomic escrow (run cfg (program escrow .autoConfirm) fault ⟨b, b⟩) ↔
      Safe cfg escrow fault b .autoConfirm := by
  have hb : Atomic escrow b := atomic_of_open hopen hnone
  have hconfirmed : ¬ Ended .autoConfirmed := by rintro (h | h) <;> cases h
  rw [Safe]
  cases hcan : b.status.canTransition .autoConfirmed with
  | true =>
    rw [or_iff_right (by decide)]
    refine atomic_run_cons_iff (t := ⟨b, b⟩) rfl (fun _ => hb) ?_ fault
    refine atomic_run_cons_iff (t := ⟨b.record .autoConfirmed none, b.record .autoConfirmed none⟩)
      (by simp [Instr.exec, hcan]) (atomic_fail_transition hopen hnone hconfirmed) ?_
    exact atomic_run_outcome_iff rfl hconfirmed hnone (.inl rfl) (by rfl)
  | false =>
    refine iff_of_true ?_ (.inl rfl)
    refine atomic_run_cons hb (fun _ => hb) (fun s' hs' => ?_) fault
    cases hs'
    refine atomic_run_cons hb (atomic_fail_transition hopen hnone hconfirmed) fun s' hs' => ?_
    simp [Instr.exec, hcan] at hs'

theorem atomic_autoArbitrate_iff (hopen : ¬ Ended b.status)
    (hnone : b.resolutions = []) :
    Atomic escrow (run cfg (program escrow (.autoArbitrate settled refunded)) fault ⟨b, b⟩) ↔
      Safe cfg escrow fault b (.autoArbitrate settled refunded) := by
  have hb : Atomic escrow b := atomic_of_open hopen hnone
  have harbitrated : ¬ Ended .arbitrated := by rintro (h | h) <;> cases h
  have hdecision : Ended (decision settled) ∧
      TaskStatus.arbitrated.canTransition (decision settled) = true := by
    rw [decision]
    split_ifs
    · exact ⟨.inr rfl, rfl⟩
    · exact ⟨.inl rfl, rfl⟩
  rw [Safe]
  cases hcan : b.status.canTransition .arbitrated with
  | true =>
    rw [or_iff_right (by decide)]
    have hb' : Atomic escrow (b.record .arbitrated none) := atomic_of_open harbitrated hnone
    refine atomic_run_cons_iff (t := ⟨b.record .arbitrated none, b.record .arbitrated none⟩)
      (by simp [Instr.exec, hcan]) (atomic_fail_transition hopen hnone harbitrated) ?_ fault
    refine atomic_run_cons_iff rfl (fun _ => hb') ?_
    refine atomic_run_cons_iff rfl (fun _ => hb') ?_
    exact atomic_run_outcome_iff rfl harbitrated hnone hdecision.1 hdecision.2
  | false =>
    refine iff_of_true ?_ (.inl rfl)
    refine atomic_run_cons hb (atomic_fail_transition hopen hnone harbitrated) (fun s' hs' => ?_)
      fault
    simp [Instr.exec, hcan] at hs'

theorem atomic_settleFromDecision_iff {v : Verdict} (hopen : ¬ Ended b.status)
    (hnone : b.resolutions = []) :
    Atomic escrow (run cfg (program escrow (.settleFromDecision v)) fault ⟨b, b⟩) ↔
      Safe cfg escrow fault b (.settleFromDecision v) := by
  have hb : Atomic escrow b := atomic_of_open hopen hnone
  have htarget : Ended v.target := by
    cases v with
    | buyerWins => exact .inr rfl
    | sellerWins | split => exact .inl rfl
  rw [Safe]
  by_cases hrequire : (arbitratedFrom b.status).canTransition v.target = true
  swap
  · refine iff_of_true ?_ (.inl (Bool.eq_false_iff.mpr hrequire))
    refine atomic_run_cons hb (fun _ => hb) (fun s' hs' => ?_) fault
    simp [Instr.exec, hrequire] at hs'
  by_cases hguard : b.status.canonical = v.target ∨ b.status.canTransition v.target = true
  swap
  · refine iff_of_true ?_ (.inr (.inl (by simpa using hguard)))
    refine atomic_run_cons hb (fun _ => hb) (fun s' hs' => ?_) fault
    obtain rfl : (⟨b, b⟩ : Session) = s' := by simpa [Instr.exec, hrequire] using hs'
    refine atomic_run_cons hb (fun _ => hb) fun s' hs' => ?_
    simp [Instr.exec, hguard] at hs'
  -- the outcome is written but not committed when the resolution is tried
  have hrun : ∀ fault, run cfg (program escrow (.settleFromDecision v)) fault ⟨b, b⟩ =
      if fault = none then
        (((Instr.resolve ⟨escrow, (v.amounts escrow).1, (v.amounts escrow).2⟩).exec cfg
          ⟨b, b.record v.target (some (v.amounts escrow))⟩).map Session.working).getD b
      else b := by
    have hrequired : (Instr.require fun s => (arbitratedFrom s).canTransition v.target).exec cfg
        ⟨b, b⟩ = some ⟨b, b⟩ := by
      rw [Instr.exec, if_pos hrequire]
    have hsaved : (Instr.save v.target (v.amounts escrow)).exec cfg ⟨b, b⟩ =
        some ⟨b, b.record v.target (some (v.amounts escrow))⟩ := by
      rw [Instr.exec, if_pos hguard]
    rintro (- | ⟨- | - | - | k, raise⟩)
    · exact (run_cons_none hrequired).trans ((run_cons_none hsaved).trans
        ((run_cons_none rfl).trans (run_resolve _ _ none _)))
    · rfl
    · exact run_cons_succ hrequired
    · exact (run_cons_succ hrequired).trans (run_cons_succ hsaved)
    · exact (run_cons_succ hrequired).trans ((run_cons_succ hsaved).trans
        ((run_cons_succ rfl).trans (run_resolve _ _ _ _)))
  have hpassed : ¬ (b.status.canonical ≠ v.target ∧ b.status.canTransition v.target = false) := by
    rintro ⟨hother, hno⟩
    rcases hguard with hsame | hcan
    · exact hother hsame
    · exact absurd (hno.symm.trans hcan) (by decide)
  rw [hrun, or_iff_right (by simp [hrequire]), or_iff_right hpassed]
  split_ifs with hfault
  · rw [or_iff_right (not_not.mpr hfault)]
    cases hcap : b.cap with
    | none =>
      refine iff_of_false ?_ (not_not.mpr rfl)
      have hrow : (b.record v.target (some (v.amounts escrow))).cap = none := hcap
      simp only [Instr.exec, hrow, Option.map_some, Option.getD_some]
      exact not_atomic_of_ended htarget hnone
    | some c =>
      refine iff_of_true ?_ (Option.some_ne_none c)
      have hrow : (b.record v.target (some (v.amounts escrow))).cap = some c := hcap
      simp only [Instr.exec, hrow]
      cases operate cfg (.applyCapacityResolution escrow (v.amounts escrow).1
          (v.amounts escrow).2) c with
      | none => exact hb
      | some c' =>
        refine iff_of_true htarget ⟨(v.amounts escrow).1, (v.amounts escrow).2, rfl, rfl, ?_⟩
        exact congrArg _ hnone
  · exact iff_of_true hb (.inl hfault)

/-- **Outcome and bookkeeping.** For each of the four requests, any fault, and any books of an open
settlement. -/
theorem outcome_atomic_iff (cfg : Capacity.Settings) (escrow : ℚ) (r : Ending)
    (fault : Option (ℕ × Raise)) (b : Books) (hopen : ¬ Ended b.status)
    (hnone : b.resolutions = []) :
    Atomic escrow (run cfg (program escrow r) fault ⟨b, b⟩) ↔ Safe cfg escrow fault b r := by
  cases r with
  | buyerAccept => exact atomic_buyerAccept_iff hopen hnone
  | autoConfirm => exact atomic_autoConfirm_iff hopen hnone
  | autoArbitrate settled refunded => exact atomic_autoArbitrate_iff hopen hnone
  | settleFromDecision v => exact atomic_settleFromDecision_iff hopen hnone

namespace Sample

def books : Books where
  status := .delivered
  released := none
  refunded := none
  cap := some (deltas [(.totalLockedUsdc, 5), (.totalBillCredits, 5), (.reservedCredits, 5)])

theorem books_open : ¬ Ended books.status := by
  rintro (h | h) <;> cases h

end Sample

open Sample

theorem outcome_atomic_sample :
    ¬ Ended books.status ∧ Atomic 5 (run Capacity.Sample.settings (program 5 .buyerAccept)
      none ⟨books, books⟩) := by
  refine ⟨books_open, ?_⟩
  refine (outcome_atomic_iff Capacity.Sample.settings 5 .buyerAccept none books
    books_open rfl).mpr (.inr (.inr ⟨rfl, ?_⟩))
  have hresolves : ((operate Capacity.Sample.settings (.applyCapacityResolution 5 5 0)
      (deltas [(.totalLockedUsdc, 5), (.totalBillCredits, 5), (.reservedCredits, 5)])).isSome) =
        true := by
    decide +kernel
  obtain ⟨c', hc'⟩ := Option.isSome_iff_exists.mp hresolves
  exact ⟨_, c', rfl, hc'⟩

/-- **An outcome without a resolution.** -/
theorem settled_without_resolution :
    (¬ Ended books.status ∧ ¬ Atomic 5 (run Capacity.Sample.settings
      (program 5 .buyerAccept) (some (5, .early)) ⟨books, books⟩)) ∧
    ¬ Atomic 5 (run Capacity.Sample.settings (program 5 (.settleFromDecision .sellerWins)) none
      ⟨{ books with status := .arbitrated, cap := none },
        { books with status := .arbitrated, cap := none }⟩) := by
  refine ⟨⟨books_open, ?_⟩, ?_⟩
  · exact not_atomic_of_ended (.inl (by decide +kernel)) (by decide +kernel)
  · exact not_atomic_of_ended (.inl (by decide +kernel)) (by decide +kernel)

end Karma.Settlement
