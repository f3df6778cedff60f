import Karma.Capacity.Ledger
import Karma.Settlement.Status
import Mathlib.Algebra.BigOperators.Ring.Finset

/-! # Whose freeze is it

The disputed bucket of a buyer is one number for all the buyer's tasks. -/

namespace Karma.Capacity

open Karma.Evm Karma.Settlement Function

/-! ## Operations run alone -/

def runAll : Bool → List Statement → Option Balances → Option (Option Balances)
  | _, [], v => some v
  | matched, st :: rest, v =>
    if st.isDelta && matched then runAll matched rest v
    else match st.exec v with
      | some v' => runAll st.isDelta rest v'
      | none =>
        -- the caller of a last `apply_delta` raises
        if st.isDelta && !rest.head?.any (·.isDelta) then none else runAll false rest v

/-- An operation from beginning to end, on the row `c`. -/
def operate (cfg : Settings) (req : Request) (c : Balances) : Option Balances :=
  match prepare cfg req (some c) with
  | .ok sts => (runAll false sts (some c)).join
  | .error _ => none

variable {cfg : Settings} {c c' : Balances}

theorem operate_cases {req : Request} (h : operate cfg req c = some c') :
    ∃ sts, prepare cfg req (some c) = .ok sts ∧ runAll false sts (some c) = some (some c') := by
  rw [operate] at h
  cases hprep : prepare cfg req (some c) with
  | error e => exact absurd h (by simp [hprep])
  | ok sts =>
    rw [hprep] at h
    exact ⟨sts, rfl, Option.join_eq_some_iff.mp h⟩

theorem runAll_applyDelta (d : Balances) (guards : List Guard) (m : String)
    (rest : List Statement) :
    runAll false (.applyDelta d guards m :: rest) (some c) =
      if guards.all (·.holds c) then runAll true rest (some (c + d))
      else if rest.head?.any (·.isDelta) then runAll false rest (some c) else none := by
  by_cases hguards : guards.all (·.holds c) = true
  · simp [runAll, Statement.exec, hguards]
  · cases hrest : rest.head?.any (·.isDelta) <;> simp [runAll, Statement.exec, hguards, hrest]

theorem runAll_skip (d : Balances) (guards : List Guard) (m : String) (rest : List Statement)
    (v : Option Balances) :
    runAll true (.applyDelta d guards m :: rest) v = runAll true rest v := by
  simp [runAll]

/-- Every column but the two totals, which are left to the check after the write, changes by `d`. -/
def Shifts (d c c' : Balances) : Prop :=
  ∀ f, f ≠ .totalBillCredits → f ≠ .totalLockedUsdc → c' f = c f + d f

theorem runAll_heal {matched : Bool}
    (h : runAll matched [.healCapacityConservation] (some c) = some (some c')) :
    Shifts 0 c c' := by
  intro f hbill hlocked
  rw [Pi.zero_apply, add_zero]
  by_cases hgap : capacityConservationGap c = true
  · simp only [runAll, Statement.isDelta_heal, Statement.exec, hgap, Bool.false_and,
      Bool.false_eq_true, if_false, if_true, Option.some.injEq] at h
    rw [← h]
    cases f <;> first | rfl | contradiction
  · simp only [runAll, Statement.isDelta_heal, Statement.exec, hgap, Bool.false_and,
      Bool.false_eq_true, if_false, Option.some.injEq] at h
    rw [h]

theorem Shifts.after {d c₁ : Balances} (h : Shifts 0 c₁ c') (hd : c₁ = c + d) : Shifts d c c' := by
  intro f hbill hlocked
  rw [h f hbill hlocked, hd, Pi.zero_apply, add_zero, Pi.add_apply]

theorem runAll_shifts {d : Balances} {guards : List Guard} {m : String}
    (h : runAll false [.applyDelta d guards m, .healCapacityConservation] (some c) =
      some (some c')) : guards.all (·.holds c) = true ∧ Shifts d c c' := by
  rw [runAll_applyDelta] at h
  split_ifs at h with hguards hmore
  · exact ⟨hguards, (runAll_heal h).after rfl⟩
  · simp at hmore

theorem operate_accept {v : Voucher} (h : operate cfg (.acceptVoucherRow v) c = some c') :
    Shifts (deltas [(.availableCredits, -v.billCreditAmount),
      (.reservedCredits, v.billCreditAmount)]) c c' := by
  obtain ⟨sts, hprep, hrun⟩ := operate_cases h
  simp only [prepare, acceptVoucherRow] at hprep
  split_ifs at hprep
  obtain rfl := Except.ok.inj hprep
  exact (runAll_shifts hrun).2

theorem operate_releaseReservation {v : Voucher}
    (h : operate cfg (.releaseReservation v) c = some c') :
    round6 v.billCreditAmount ≤ 0 ∧ c' = c ∨ 0 < round6 v.billCreditAmount ∧
      round6 v.billCreditAmount ≤ c .reservedCredits + EPSILON ∧
      Shifts (deltas [(.reservedCredits, -round6 v.billCreditAmount),
        (.availableCredits, round6 v.billCreditAmount)]) c c' := by
  obtain ⟨sts, hprep, hrun⟩ := operate_cases h
  simp only [prepare, releaseReservation] at hprep
  by_cases hpos : round6 v.billCreditAmount ≤ 0
  · rw [if_pos hpos] at hprep
    obtain rfl := Except.ok.inj hprep
    exact .inl ⟨hpos, (Option.some.inj (Option.some.inj hrun)).symm⟩
  · rw [if_neg hpos] at hprep
    obtain rfl := Except.ok.inj hprep
    obtain ⟨hguards, hshifts⟩ := runAll_shifts hrun
    exact .inr ⟨not_le.mp hpos, by simpa using hguards, hshifts⟩

theorem operate_dispute {escrow : ℚ}
    (h : operate cfg (.moveReservedToDisputed escrow) c = some c') :
    Shifts (deltas [(.reservedCredits, -escrow), (.disputedCredits, escrow)]) c c' := by
  obtain ⟨sts, hprep, hrun⟩ := operate_cases h
  simp only [prepare, moveReservedToDisputed] at hprep
  split_ifs at hprep
  obtain rfl := Except.ok.inj hprep
  exact (runAll_shifts hrun).2

theorem operate_freeze {escrow : ℚ} (h : operate cfg (.moveReservedToDisputed escrow) c = some c') :
    c' .disputedCredits = c .disputedCredits + escrow := by
  simpa using operate_dispute h .disputedCredits (by decide) (by decide)

def resolvedFrom (escrow : ℚ) (c : Balances) : Field :=
  if escrow ≤ c .disputedCredits + EPSILON then .disputedCredits else .reservedCredits

theorem operate_resolve {escrow settled refunded : ℚ}
    (h : operate cfg (.applyCapacityResolution escrow settled refunded) c = some c') :
    Shifts (deltas [(.burnedCredits, settled), (.releasedCredits, refunded),
      (.totalBillCredits, -escrow), (.totalLockedUsdc, -escrow),
      (resolvedFrom escrow c, -escrow)]) c c' := by
  obtain ⟨sts, hprep, hrun⟩ := operate_cases h
  simp only [prepare, applyCapacityResolution] at hprep
  split_ifs at hprep with hbill hlocked
  obtain rfl := Except.ok.inj hprep
  rw [resolve, resolve, runAll_applyDelta, runAll_skip] at hrun
  -- the totals were checked before, so the first attempt hangs on the bucket
  have hfirst : ([Guard.covers .totalBillCredits EPSILON escrow,
      .covers .totalLockedUsdc EPSILON escrow, .covers .disputedCredits EPSILON escrow].all
        (·.holds c)) = decide (escrow ≤ c .disputedCredits + EPSILON) := by
    simp [Guard.holds, not_lt.mp hbill, not_lt.mp hlocked]
  rw [hfirst] at hrun
  unfold resolvedFrom
  by_cases hdisputed : escrow ≤ c .disputedCredits + EPSILON
  · rw [if_pos hdisputed]
    rw [if_pos (decide_eq_true hdisputed)] at hrun
    exact (runAll_heal hrun).after rfl
  · rw [if_neg hdisputed]
    rw [if_neg (by simpa using hdisputed)] at hrun
    split_ifs at hrun with hmore
    exact (runAll_shifts hrun).2

theorem operate_resolution {escrow settled refunded : ℚ}
    (h : operate cfg (.applyCapacityResolution escrow settled refunded) c = some c') :
    c' .disputedCredits = c .disputedCredits -
      if escrow ≤ c .disputedCredits + EPSILON then escrow else 0 := by
  rw [operate_resolve h .disputedCredits (by decide) (by decide), sub_eq_add_neg]
  by_cases hdisputed : escrow ≤ c .disputedCredits + EPSILON <;> simp [resolvedFrom, hdisputed]

/-- What a release takes out of the bucket: nothing below the tolerance. -/
def releasedFreeze (escrow disputed : ℚ) : ℚ :=
  if heldFreeze escrow disputed ≤ EPSILON then 0 else heldFreeze escrow disputed

theorem operate_release {escrow : ℚ} {settled : Bool}
    (h : operate cfg (.releaseDisputeFreeze escrow settled) c = some c') :
    c' .disputedCredits = c .disputedCredits - releasedFreeze escrow (c .disputedCredits) := by
  obtain ⟨sts, hprep, hrun⟩ := operate_cases h
  simp only [prepare, releaseDisputeFreeze] at hprep
  rw [releasedFreeze]
  by_cases hheld : heldFreeze escrow (c .disputedCredits) ≤ EPSILON
  · rw [if_pos hheld] at hprep ⊢
    obtain rfl := Except.ok.inj hprep
    obtain rfl := Option.some.inj (Option.some.inj hrun)
    rw [sub_zero]
  · rw [if_neg hheld] at hprep ⊢
    obtain rfl := Except.ok.inj hprep
    generalize (if settled = true then heldFreeze escrow (c .disputedCredits) else 0) = burned,
      (if settled = true then 0 else heldFreeze escrow (c .disputedCredits)) = refunded at hrun
    rw [resolve, runAll_applyDelta] at hrun
    split_ifs at hrun with hguards hmore
    · obtain rfl := Option.some.inj (Option.some.inj hrun)
      simp [sub_eq_add_neg]
    · simp at hmore

/-! ## The tasks of a buyer -/

inductive ChainTerminal
  | cancelled
  | slashed
  | settled
  deriving DecidableEq

def ChainTerminal.status : ChainTerminal → TaskStatus
  | .cancelled => .cancelled
  | .slashed => .refunded
  | .settled => .settled

/-- The row of the buyer, the status of the buyer's tasks, and, as a ghost, the tasks whose freeze
was opened and not yet resolved or released. -/
structure Docket (Task : Type) where
  cap : Balances
  status : Task → TaskStatus
  opened : Finset Task

inductive Docket.Act (Task : Type)
  | openDispute (t : Task)
  | resolve (t : Task) (settled refunded : ℚ)
  | chainTerminal (t : Task) (end_ : ChainTerminal)
  | release (t : Task) (settled : Bool)
  | transition (t : Task) (target : TaskStatus)

variable {Task : Type} [DecidableEq Task]

def Docket.step (cfg : Settings) (escrow : Task → ℚ) (s : Docket Task) :
    Docket.Act Task → Option (Docket Task)
  | .openDispute t =>
    if (s.status t).canTransition .disputed then
      (operate cfg (.moveReservedToDisputed (escrow t)) s.cap).map fun cap =>
        ⟨cap, update s.status t .disputed, insert t s.opened⟩
    else none
  | .resolve t settled refunded =>
    (operate cfg (.applyCapacityResolution (escrow t) settled refunded) s.cap).map fun cap =>
      { s with cap := cap, opened := s.opened.erase t }
  | .chainTerminal t terminal =>
    -- only a task that is in dispute has a freeze to give back
    if (s.status t).canonical = .disputed then
      (operate cfg (.releaseDisputeFreeze (escrow t) (terminal = .settled)) s.cap).map fun cap =>
        ⟨cap, update s.status t terminal.status, s.opened.erase t⟩
    else some s
  | .release t settled =>
    (operate cfg (.releaseDisputeFreeze (escrow t) settled) s.cap).map fun cap =>
      { s with cap := cap, opened := s.opened.erase t }
  | .transition t target =>
    if (s.status t).canTransition target ∧ target.canonical ≠ .disputed then
      some { s with status := update s.status t target.canonical }
    else none

abbrev Docket.Reach (cfg : Settings) (escrow : Task → ℚ)
    (h : List (Entry (Docket Task) (Docket.Act Task))) (s : Docket Task) : Prop :=
  Run (fun s => s.cap .disputedCredits = 0 ∧ s.opened = ∅) (Docket.step cfg escrow) h s

def Docket.Owned (escrow : Task → ℚ) (s : Docket Task) : Prop :=
  s.cap .disputedCredits = ∑ t ∈ s.opened, escrow t

def Docket.due (escrow : Task → ℚ) (s : Docket Task) (t : Task) : ℚ :=
  if t ∈ s.opened then escrow t else 0

/-- The condition on a step: a freeze is opened once, and what a resolution or a release takes out
of the bucket, which it finds by looking at the bucket alone, is the freeze of its task. -/
def Docket.TakesOwn (escrow : Task → ℚ) (s : Docket Task) : Docket.Act Task → Prop
  | .openDispute t => s.due escrow t = 0
  | .resolve t _ _ =>
    (if escrow t ≤ s.cap .disputedCredits + EPSILON then escrow t else 0) = s.due escrow t
  | .chainTerminal t _ => (s.status t).canonical = .disputed →
      releasedFreeze (escrow t) (s.cap .disputedCredits) = s.due escrow t
  | .release t _ => releasedFreeze (escrow t) (s.cap .disputedCredits) = s.due escrow t
  | .transition _ _ => True

variable {escrow : Task → ℚ} {s s' : Docket Task}

theorem Docket.sum_erase (s : Docket Task) (t : Task) :
    ∑ t' ∈ s.opened.erase t, escrow t' = ∑ t' ∈ s.opened, escrow t' - s.due escrow t := by
  rw [Docket.due]
  split_ifs with ht
  · rw [Finset.sum_erase_eq_sub ht]
  · rw [Finset.erase_eq_of_notMem ht, sub_zero]

theorem Docket.sum_insert (s : Docket Task) (t : Task) : ∑ t' ∈ insert t s.opened, escrow t' =
      ∑ t' ∈ s.opened, escrow t' + escrow t - s.due escrow t := by
  rw [Docket.due]
  split_ifs with ht
  · rw [Finset.insert_eq_of_mem ht, add_sub_cancel_right]
  · rw [Finset.sum_insert ht, sub_zero, add_comm]

theorem Docket.step_owned_iff {a : Docket.Act Task} (hs : s.Owned escrow)
    (hstep : s.step cfg escrow a = some s') : s'.Owned escrow ↔ s.TakesOwn escrow a := by
  rw [Docket.Owned] at hs
  cases a with
  | openDispute t =>
    simp only [Docket.step] at hstep
    split_ifs at hstep
    obtain ⟨cap, hcap, rfl⟩ := Option.map_eq_some_iff.mp hstep
    simp only [Docket.Owned, Docket.TakesOwn, operate_freeze hcap, Docket.sum_insert, hs]
    constructor <;> intro h <;> linarith
  | resolve t settled refunded =>
    obtain ⟨cap, hcap, rfl⟩ := Option.map_eq_some_iff.mp hstep
    simp only [Docket.Owned, Docket.TakesOwn, operate_resolution hcap, Docket.sum_erase, ← hs]
    exact sub_right_inj
  | chainTerminal t terminal =>
    simp only [Docket.step] at hstep
    split_ifs at hstep with hstatus
    · obtain ⟨cap, hcap, rfl⟩ := Option.map_eq_some_iff.mp hstep
      simp only [Docket.Owned, Docket.TakesOwn, operate_release hcap, Docket.sum_erase, ← hs,
        hstatus, true_imp_iff]
      exact sub_right_inj
    · cases hstep
      exact iff_of_true hs fun h => absurd h hstatus
  | release t settled =>
    obtain ⟨cap, hcap, rfl⟩ := Option.map_eq_some_iff.mp hstep
    simp only [Docket.Owned, Docket.TakesOwn, operate_release hcap, Docket.sum_erase, ← hs]
    exact sub_right_inj
  | transition t target =>
    simp only [Docket.step] at hstep
    split_ifs at hstep
    cases hstep
    exact iff_of_true hs trivial

/-- **Dispute freezes and their tasks.** -/
theorem freezes_belong_to_tasks {h : List (Entry (Docket Task) (Docket.Act Task))}
    (hr : Docket.Reach cfg escrow h s) :
    Throughout (fun _ s => s.Owned escrow) h s ↔ ∀ e ∈ h, e.pre.TakesOwn escrow e.act := by
  refine hr.throughout_iff_step (C := fun e => e.pre.TakesOwn escrow e.act) ?_ ?_
  · rintro s ⟨hzero, hnone⟩
    rw [Docket.Owned, hzero, hnone, Finset.sum_empty]
  · exact fun _ _ _ _ _ hs hstep => Docket.step_owned_iff hs hstep

namespace Sample

def docket : Docket ℕ where
  cap := deltas [(.totalLockedUsdc, 15), (.totalBillCredits, 15), (.reservedCredits, 15)]
  status := fun _ => .delivered
  opened := ∅

def docketAfter (as : List (Docket.Act ℕ)) : Docket ℕ :=
  stateAfter (Docket.step settings fun _ => 5) as docket

end Sample

open Sample

theorem freezes_belong_to_tasks_sample : Docket.Reach settings (fun _ => 5)
        (record (Docket.step settings fun _ => 5) [.openDispute 1, .resolve 1 5 0]
          docket []) (docketAfter [.openDispute 1, .resolve 1 5 0]) ∧
      (Throughout (fun _ s => s.Owned fun _ => 5)
          (record (Docket.step settings fun _ => 5) [.openDispute 1, .resolve 1 5 0]
            docket []) (docketAfter [.openDispute 1, .resolve 1 5 0]) ↔
        ∀ e ∈ record (Docket.step settings fun _ => 5) [.openDispute 1, .resolve 1 5 0]
          docket [], e.pre.TakesOwn (fun _ => 5) e.act) :=
  have hr : Docket.Reach settings (fun _ => 5) _ (docketAfter [.openDispute 1, .resolve 1 5 0]) :=
    .stateAfter (.start ⟨by decide +kernel, rfl⟩)
  ⟨hr, freezes_belong_to_tasks hr⟩

/-- **Another task's freeze is taken.** -/
theorem freeze_of_another_task_taken : (Docket.Reach settings (fun _ => 5)
        (record (Docket.step settings fun _ => 5) [.openDispute 1, .resolve 2 5 0]
          docket []) (docketAfter [.openDispute 1, .resolve 2 5 0]) ∧
      ¬ (docketAfter [.openDispute 1, .resolve 2 5 0]).Owned fun _ => 5) ∧
    Docket.Reach settings (fun _ => 5) (record (Docket.step settings fun _ => 5)
          [.openDispute 1, .openDispute 2, .release 1 false, .release 1 false] docket [])
        (docketAfter [.openDispute 1, .openDispute 2, .release 1 false, .release 1 false]) ∧
      ¬ (docketAfter
        [.openDispute 1, .openDispute 2, .release 1 false, .release 1 false]).Owned fun _ => 5 := by
  refine ⟨⟨.stateAfter (.start ⟨by decide +kernel, rfl⟩), ?_⟩,
    .stateAfter (.start ⟨by decide +kernel, rfl⟩), ?_⟩
  · unfold Docket.Owned
    decide +kernel
  · unfold Docket.Owned
    decide +kernel

end Karma.Capacity
