import Karma.Capacity.Freezes

/-! # Whose reservation is it

The reserved bucket of a buyer is one number for all the buyer's vouchers. -/

namespace Karma.Capacity

open Karma.Evm Function

inductive VoucherStatus
  | created
  | accepted
  | used
  | expired
  | cancelled
  | rejected
  deriving DecidableEq

structure Orders (V Task : Type) where
  voucher : V → Voucher
  /-- `settlement.voucher_id`. -/
  link : Task → Option V
  escrow : Task → ℚ

structure Desk (V : Type) where
  cap : Balances
  status : V → VoucherStatus
  live : Finset V

inductive Desk.Act (V Task : Type)
  | accept (v : V)
  | dispute (t : Task)
  /-- `apply_capacity_resolution` and `mark_voucher_used_if_linked`. -/
  | settle (t : Task) (settled refunded : ℚ)
  /-- The turn of `expire_due` for a voucher that is due. -/
  | expire (v : V)
  | cancel (t : Task)

variable {V Task : Type} [DecidableEq V] (cfg : Settings) (o : Orders V Task)

/-- `release_reservation`: an amount that the bucket no longer covers is not released, and the
caller goes on. -/
def Desk.release (s : Desk V) (v : V) : Balances :=
  (operate cfg (.releaseReservation (o.voucher v)) s.cap).getD s.cap

def Desk.drop (s : Desk V) (v : V) (status : VoucherStatus) : Desk V where
  cap := if s.status v = .accepted then s.release cfg o v else s.cap
  status := update s.status v status
  live := s.live.erase v

def Desk.markUsed (s : Desk V) : Option V → V → VoucherStatus
  | none => s.status
  | some v => if s.status v = .accepted then update s.status v .used else s.status

/-- The vouchers that stay live when the escrow of a task with the voucher `v` moves. -/
def Desk.without (s : Desk V) (v : Option V) : Finset V := v.elim s.live s.live.erase

def Desk.step (s : Desk V) : Desk.Act V Task → Option (Desk V)
  | .accept v =>
    if s.status v = .created then
      (operate cfg (.acceptVoucherRow (o.voucher v)) s.cap).map fun cap =>
        ⟨cap, update s.status v .accepted, insert v s.live⟩
    else none
  | .dispute t =>
    (operate cfg (.moveReservedToDisputed (o.escrow t)) s.cap).map fun cap =>
      { s with cap := cap, live := s.without (o.link t) }
  | .settle t settled refunded =>
    (operate cfg (.applyCapacityResolution (o.escrow t) settled refunded) s.cap).map fun cap =>
      ⟨cap, s.markUsed (o.link t), s.without (o.link t)⟩
  | .expire v =>
    if s.status v = .created ∨ s.status v = .accepted then some (s.drop cfg o v .expired)
    else none
  | .cancel t =>
    match o.link t with
    | none => some s
    | some v =>
      if s.status v = .created ∨ s.status v = .accepted then some (s.drop cfg o v .cancelled)
      else some s

/-- Runs from any row without reservations, before any voucher is accepted. -/
abbrev Desk.Reach (h : List (Entry (Desk V) (Desk.Act V Task))) (s : Desk V) : Prop :=
  Run (fun s => s.cap .reservedCredits = 0 ∧ s.live = ∅) (Desk.step cfg o) h s

/-! ## What a step takes -/

def Desk.spare (s : Desk V) : ℚ :=
  s.cap .reservedCredits - ∑ v ∈ s.live, (o.voucher v).billCreditAmount

def Desk.Covers (s : Desk V) : Prop :=
  ∑ v ∈ s.live, (o.voucher v).billCreditAmount ≤ s.cap .reservedCredits

def Desk.own (s : Desk V) : Option V → ℚ
  | none => 0
  | some v => if v ∈ s.live then (o.voucher v).billCreditAmount else 0

def releasedReservation (v : Voucher) (reserved : ℚ) : ℚ :=
  if 0 < round6 v.billCreditAmount ∧ round6 v.billCreditAmount ≤ reserved + EPSILON then
    round6 v.billCreditAmount
  else 0

/-- What the end of a voucher takes out of the bucket. -/
def Desk.dropped (s : Desk V) (v : V) : ℚ :=
  if s.status v = .accepted then releasedReservation (o.voucher v) (s.cap .reservedCredits) else 0

/-- What a step takes out of the bucket, and whose voucher it is about. -/
def Desk.taken (s : Desk V) : Desk.Act V Task → ℚ
  | .accept _ => 0
  | .dispute t => o.escrow t
  | .settle t _ _ =>
    if resolvedFrom (o.escrow t) s.cap = .reservedCredits then o.escrow t else 0
  | .expire v => s.dropped o v
  | .cancel t => (o.link t).elim 0 (s.dropped o)

def Desk.Act.about : Desk.Act V Task → Option V
  | .accept _ => none
  | .dispute t | .settle t _ _ | .cancel t => o.link t
  | .expire v => some v

/-- **The condition**: what a step takes beyond the reservation of its own voucher was there beyond
the reservations of all live ones. -/
def Desk.TakesSpare (s : Desk V) (a : Desk.Act V Task) : Prop :=
  s.taken o a ≤ s.own o (a.about o) + s.spare o

variable {cfg o} {s s' : Desk V} {c : Balances}

theorem operate_releaseReservation_none {v : Voucher}
    (h : operate cfg (.releaseReservation v) c = none) :
    c .reservedCredits + EPSILON < round6 v.billCreditAmount := by
  by_contra hcovers
  rw [operate] at h
  simp only [prepare, releaseReservation] at h
  split_ifs at h with hpos
  · simp [runAll] at h
  · dsimp only at h
    rw [move, runAll_applyDelta, if_pos (by simpa using hcovers)] at h
    by_cases hgap : capacityConservationGap (c + deltas
        [(.reservedCredits, -round6 v.billCreditAmount),
          (.availableCredits, round6 v.billCreditAmount)]) = true <;>
      simp [runAll, Statement.exec, hgap] at h

omit [DecidableEq V] in
theorem Desk.reserved_release (s : Desk V) (v : V) :
    s.release cfg o v .reservedCredits = s.cap .reservedCredits -
      releasedReservation (o.voucher v) (s.cap .reservedCredits) := by
  unfold Desk.release releasedReservation
  cases hop : operate cfg (.releaseReservation (o.voucher v)) s.cap with
  | none =>
    have hlt := operate_releaseReservation_none hop
    rw [if_neg fun h => hlt.not_ge h.2, sub_zero, Option.getD_none]
  | some c =>
    rw [Option.getD_some]
    rcases operate_releaseReservation hop with ⟨hpos, rfl⟩ | ⟨hpos, hcovers, hshifts⟩
    · rw [if_neg fun h => hpos.not_gt h.1, sub_zero]
    · rw [if_pos ⟨hpos, hcovers⟩, hshifts .reservedCredits (by decide) (by decide)]
      simp [sub_eq_add_neg]

theorem Desk.sum_erase (s : Desk V) (v : V) :
    ∑ v' ∈ s.live.erase v, (o.voucher v').billCreditAmount =
      ∑ v' ∈ s.live, (o.voucher v').billCreditAmount - s.own o (some v) := by
  rw [Desk.own]
  split_ifs with hv
  · rw [Finset.sum_erase_eq_sub hv]
  · rw [Finset.erase_eq_of_notMem hv, sub_zero]

theorem Desk.sum_without (s : Desk V) (v : Option V) :
    ∑ v' ∈ s.without v, (o.voucher v').billCreditAmount =
      ∑ v' ∈ s.live, (o.voucher v').billCreditAmount - s.own o v := by
  cases v with
  | none => exact (sub_zero _).symm
  | some v => exact s.sum_erase v

theorem Desk.spare_drop (s : Desk V) (v : V) (status : VoucherStatus) :
    (s.drop cfg o v status).spare o = s.spare o - s.dropped o v + s.own o (some v) := by
  unfold Desk.spare Desk.drop Desk.dropped
  dsimp only
  rw [s.sum_erase v]
  split_ifs
  · rw [s.reserved_release v]
    ring
  · ring

theorem Desk.accepted_erase (hs : ∀ u ∈ s.live, s.status u = .accepted) (v : V)
    (x : VoucherStatus) : ∀ u ∈ s.live.erase v, update s.status v x u = .accepted := by
  intro u hu
  rw [update_of_ne (Finset.ne_of_mem_erase hu)]
  exact hs u (Finset.mem_of_mem_erase hu)

theorem Desk.accepted_step {a : Desk.Act V Task} (hs : ∀ u ∈ s.live, s.status u = .accepted)
    (hstep : s.step cfg o a = some s') : ∀ u ∈ s'.live, s'.status u = .accepted := by
  cases a with
  | accept v =>
    simp only [Desk.step] at hstep
    split_ifs at hstep
    obtain ⟨cap, -, rfl⟩ := Option.map_eq_some_iff.mp hstep
    intro u hu
    rcases eq_or_ne u v with rfl | hne
    · exact update_self ..
    · exact (update_of_ne hne ..).trans (hs u (Finset.mem_of_mem_insert_of_ne hu hne))
  | dispute t =>
    obtain ⟨cap, -, rfl⟩ := Option.map_eq_some_iff.mp hstep
    intro u hu
    cases hlink : o.link t with
    | none => exact hs u (by simpa [Desk.without, hlink] using hu)
    | some v => exact hs u (Finset.mem_of_mem_erase (by simpa [Desk.without, hlink] using hu))
  | settle t settled refunded =>
    obtain ⟨cap, -, rfl⟩ := Option.map_eq_some_iff.mp hstep
    intro u hu
    cases hlink : o.link t with
    | none =>
      simp only [Desk.without, hlink, Option.elim_none] at hu
      simpa [Desk.markUsed, hlink] using hs u hu
    | some v =>
      simp only [Desk.without, hlink, Option.elim_some] at hu
      simp only [Desk.markUsed]
      split_ifs
      · exact Desk.accepted_erase hs v .used u hu
      · exact hs u (Finset.mem_of_mem_erase hu)
  | expire v =>
    simp only [Desk.step] at hstep
    split_ifs at hstep
    cases hstep
    exact Desk.accepted_erase hs v .expired
  | cancel t =>
    simp only [Desk.step] at hstep
    split at hstep
    · cases hstep
      exact hs
    · split_ifs at hstep <;> cases hstep
      · exact Desk.accepted_erase hs _ .cancelled
      · exact hs

theorem Desk.Reach.accepted_of_live {h : List (Entry (Desk V) (Desk.Act V Task))}
    (hr : Desk.Reach cfg o h s) : ∀ v ∈ s.live, s.status v = .accepted := by
  refine hr.safe (P := fun s => ∀ v ∈ s.live, s.status v = .accepted) ?_
    fun s a s' hs hstep => Desk.accepted_step hs hstep
  rintro s ⟨-, hnone⟩ v hv
  rw [hnone] at hv
  exact absurd hv (Finset.notMem_empty v)

theorem Desk.spare_step {a : Desk.Act V Task} (hlive : ∀ v ∈ s.live, s.status v = .accepted)
    (hstep : s.step cfg o a = some s') :
    s'.spare o = s.spare o - s.taken o a + s.own o (a.about o) := by
  cases a with
  | accept v =>
    simp only [Desk.step] at hstep
    split_ifs at hstep with hcreated
    obtain ⟨cap, hcap, rfl⟩ := Option.map_eq_some_iff.mp hstep
    have hnew : v ∉ s.live := fun hv => by
      have haccepted := hlive v hv
      rw [hcreated] at haccepted
      cases haccepted
    have hreserved := operate_accept hcap .reservedCredits (by decide) (by decide)
    simp only [Desk.spare, Desk.taken, Desk.Act.about, Desk.own]
    rw [Finset.sum_insert hnew, hreserved]
    simp
    ring
  | dispute t =>
    obtain ⟨cap, hcap, rfl⟩ := Option.map_eq_some_iff.mp hstep
    have hreserved := operate_dispute hcap .reservedCredits (by decide) (by decide)
    simp only [Desk.spare, Desk.taken, Desk.Act.about]
    rw [s.sum_without, hreserved]
    simp
    ring
  | settle t settled refunded =>
    obtain ⟨cap, hcap, rfl⟩ := Option.map_eq_some_iff.mp hstep
    have hreserved := operate_resolve hcap .reservedCredits (by decide) (by decide)
    simp only [Desk.spare, Desk.taken, Desk.Act.about]
    rw [s.sum_without, hreserved]
    by_cases hdisputed : o.escrow t ≤ s.cap .disputedCredits + EPSILON
    · simp [resolvedFrom, hdisputed]
      ring
    · simp [resolvedFrom, hdisputed]
      ring
  | expire v =>
    simp only [Desk.step] at hstep
    split_ifs at hstep
    cases hstep
    exact s.spare_drop v .expired
  | cancel t =>
    simp only [Desk.step] at hstep
    cases hlink : o.link t with
    | none =>
      rw [hlink] at hstep
      cases hstep
      simp [Desk.taken, Desk.Act.about, hlink, Desk.own]
    | some v =>
      rw [hlink] at hstep
      dsimp only at hstep
      simp only [Desk.taken, Desk.Act.about, hlink, Option.elim_some]
      split_ifs at hstep with hstatus <;> cases hstep
      · exact s.spare_drop v .cancelled
      · -- a voucher that is neither has no live reservation
        have haccepted : s.status v ≠ .accepted := fun h => hstatus (.inr h)
        have hnew : v ∉ s.live := fun hv => haccepted (hlive v hv)
        simp [Desk.dropped, haccepted, Desk.own, hnew]

theorem reservations_cover_vouchers {h : List (Entry (Desk V) (Desk.Act V Task))}
    (hr : Desk.Reach cfg o h s) :
    Throughout (fun _ s => s.Covers o) h s ↔ ∀ e ∈ h, e.pre.TakesSpare o e.act := by
  refine hr.throughout_iff_step (C := fun e => e.pre.TakesSpare o e.act) ?_ ?_
  · rintro s ⟨hzero, hnone⟩
    rw [Desk.Covers, hzero, hnone, Finset.sum_empty]
  · intro h s a s' hr _ hstep
    have hspare := Desk.spare_step (Desk.Reach.accepted_of_live hr) hstep
    rw [Desk.Covers, ← sub_nonneg]
    show 0 ≤ s'.spare o ↔ _
    rw [hspare, Desk.TakesSpare]
    constructor <;> intro hle <;> linarith

namespace Sample

def orders : Orders ℕ ℕ := ⟨fun _ => ⟨5, by norm_num⟩, some, fun _ => 5⟩

def desk : Desk ℕ where
  cap := deltas [(.totalLockedUsdc, 10), (.totalBillCredits, 10), (.availableCredits, 10)]
  status := fun _ => .created
  live := ∅

def deskAfter (as : List (Desk.Act ℕ ℕ)) : Desk ℕ := stateAfter (Desk.step settings orders) as desk

def deskHistory (as : List (Desk.Act ℕ ℕ)) : List (Entry (Desk ℕ) (Desk.Act ℕ ℕ)) :=
  record (Desk.step settings orders) as desk []

def expiring : List (Desk.Act ℕ ℕ) := [.accept 1, .accept 2, .dispute 1, .expire 1]

end Sample

open Sample in
theorem reservations_cover_sample :
    (deskAfter [.accept 1, .accept 2, .expire 1]).cap .reservedCredits = 5 ∧
      (Throughout (fun _ s => s.Covers orders) (deskHistory [.accept 1, .accept 2, .expire 1])
          (deskAfter [.accept 1, .accept 2, .expire 1]) ↔
        ∀ e ∈ deskHistory [.accept 1, .accept 2, .expire 1], e.pre.TakesSpare orders e.act) :=
  ⟨by decide +kernel, reservations_cover_vouchers (.stateAfter (.start ⟨by decide +kernel, rfl⟩))⟩

open Sample in
theorem reservation_of_another_freed :
    Desk.Reach settings orders (deskHistory expiring) (deskAfter expiring) ∧
      (deskAfter expiring).status 2 = .accepted ∧ (deskAfter expiring).live = {2} ∧
      (deskAfter expiring).cap .reservedCredits = 0 ∧ ¬ (deskAfter expiring).Covers orders := by
  refine ⟨.stateAfter (.start ⟨by decide +kernel, rfl⟩), by decide +kernel,
    by decide +kernel,
    by decide +kernel, ?_⟩
  unfold Desk.Covers
  decide +kernel

end Karma.Capacity
