import Karma.Settlement.Paths
import Karma.Capacity.Freezes

/-! # Taking back a step that the chain rejected

`_apply_transition` commits its step and then calls the chain. -/

namespace Karma.Settlement

open Karma.Evm Karma.Db Karma.Capacity

variable {T V : Type} [DecidableEq T] [DecidableEq V] {S S' : State T V}

def StillCarried (later : List (Stmt T V)) : Prop :=
  ∀ o ∈ later, o.sets.status = none ∧ ∀ c ∈ snapshotColumns, o.sets.field c = none

def Restored (prior v v' : SettlementRow V) : Prop :=
  v'.status = prior.status ∧
    ∀ c, v'.field c = if c ∈ snapshotColumns then prior.field c else v.field c

def Agrees (prior v : SettlementRow V) : Prop :=
  v.status = prior.status ∧ ∀ c ∈ snapshotColumns, v.field c = prior.field c

omit [DecidableEq V] in
theorem restored_revertWrite (prior v : SettlementRow V) :
    Restored prior v ((revertWrite prior).apply v) := by
  refine ⟨rfl, fun c => ?_⟩
  simp only [Write.apply, revertWrite]
  split_ifs <;> rfl

omit [DecidableEq V] in
theorem revertWrite_eq_iff (prior v : SettlementRow V) :
    (revertWrite prior).apply v = v ↔ Agrees prior v := by
  constructor
  · intro h
    refine ⟨(congrArg SettlementRow.status h).symm, fun c hc => ?_⟩
    have hfield := congrFun (congrArg SettlementRow.field h) c
    simp only [Write.apply, revertWrite, if_pos hc, Option.getD_some] at hfield
    exact hfield.symm
  · rintro ⟨hstatus, hfield⟩
    obtain ⟨status, field⟩ := v
    simp only [Write.apply, revertWrite, Option.getD_some, SettlementRow.mk.injEq]
    refine ⟨hstatus.symm, funext fun c => ?_⟩
    split_ifs with hc
    · exact (hfield c hc).symm
    · rfl

theorem revert_committed {t : T} {prior : SettlementRow V} {m : ℕ}
    (hprior : (S.request t).prior = some (prior, m)) (hfree : S.row.writer = none)
    (hrun : steps step [.revert t, .issue t, .commit t] S = some S') :
    S'.row.committed = (revertWrite prior).apply S.row.committed := by
  simp only [steps, step, hprior, Option.map_some, Option.bind_some, State.put,
    Function.update_self, Row.step, Row.newest, hfree, Stmt.exec, if_true] at hrun
  cases hrun
  rfl

/-! ## The freeze of a dispute -/

def undoFreeze (cfg : Capacity.Settings) (target : TaskStatus) (escrow : ℚ) (cap : Balances) :
    Balances :=
  if target.canonical = .disputed then
    (operate cfg (.releaseDisputeFreezeAfterRevert escrow) cap).getD cap
  else cap

def MovedBack (cap cap' : Balances) (amount : ℚ) : Prop :=
  cap' .disputedCredits = cap .disputedCredits - amount ∧
    cap' .reservedCredits = cap .reservedCredits + amount

theorem movedBack_undoFreeze_iff {cfg : Capacity.Settings} {target : TaskStatus} {escrow : ℚ}
    {cap : Balances} (htarget : target.canonical = .disputed) :
    MovedBack cap (undoFreeze cfg target escrow cap) escrow ↔
      escrow = 0 ∨ EPSILON < escrow ∧ escrow ≤ cap .disputedCredits + EPSILON := by
  have hnothing : MovedBack cap cap escrow ↔ escrow = 0 := by
    constructor
    · rintro ⟨-, hreserved⟩
      linarith
    · rintro rfl
      simp [MovedBack]
  rw [undoFreeze, if_pos htarget, operate]
  simp only [prepare, releaseDisputeFreezeAfterRevert]
  by_cases hsmall : escrow ≤ EPSILON
  · simp only [if_pos hsmall, runAll, Option.join_some, Option.getD_some]
    rw [hnothing]
    exact (or_iff_left fun h => absurd h.1 (not_lt.mpr hsmall)).symm
  · simp only [if_neg hsmall, Capacity.move, runAll_applyDelta]
    by_cases hcovers : escrow ≤ cap .disputedCredits + EPSILON
    · simp [runAll, Guard.holds, hcovers, MovedBack, not_le.mp hsmall, sub_eq_add_neg]
    · simp [Guard.holds, hcovers, hnothing]

structure ChainRejected (S : State T V) (t : T) (own : Stmt T V) (later : List (Stmt T V))
    (target : TaskStatus) (prior : SettlementRow V) : Prop where
  log : ∃ earlier, S.row.log = later ++ own :: earlier
  session : own.session = t
  last : ∀ o ∈ later, o.session ≠ t
  status : own.sets.status = some target
  prior : ∃ m, (S.request t).prior = some (prior, m)
  free : S.row.writer = none

theorem revert_undoes_own_step_iff {t : T} {own : Stmt T V} {later : List (Stmt T V)}
    {target : TaskStatus} {prior : SettlementRow V}
    (hrejected : ChainRejected S t own later target prior)
    (hrun : steps step [.revert t, .issue t, .commit t] S = some S')
    (cfg : Capacity.Settings) (escrow : ℚ) (cap : Balances) :
    ((StillCarried later ∧ Restored prior S.row.committed S'.row.committed ∨
          S'.row.committed = S.row.committed) ∧
        (target.canonical = .disputed → MovedBack cap (undoFreeze cfg target escrow cap) escrow)) ↔
      (StillCarried later ∨ Agrees prior S.row.committed) ∧ (target.canonical = .disputed →
          escrow = 0 ∨ EPSILON < escrow ∧ escrow ≤ cap .disputedCredits + EPSILON) := by
  obtain ⟨m, hprior⟩ := hrejected.prior
  have hcommitted := revert_committed hprior hrejected.free hrun
  have hrestored := restored_revertWrite prior S.row.committed
  rw [hcommitted, revertWrite_eq_iff, and_iff_left hrestored]
  refine and_congr_right fun _ => forall_congr' fun hdisputed => ?_
  exact movedBack_undoFreeze_iff hdisputed

namespace Sample

def disputing : List (Act ℕ Unit) := judging 1 .disputed ++ [.issue 1, .commit 1]

def overtaken : List (Act ℕ Unit) := disputing ++ judging 2 .arbitrated ++ [.issue 2, .commit 2]

def dispute : Stmt ℕ Unit :=
  ⟨1, .save, 0, 0, .delivered, ⟨some .disputed, fun _ => none⟩⟩

def arbitrate : Stmt ℕ Unit :=
  ⟨2, .save, 1, 1, .disputed, ⟨some .arbitrated, fun _ => none⟩⟩

theorem chainRejected_disputing :
    ChainRejected (after disputing) 1 dispute [] .disputed delivered :=
  ⟨⟨[], rfl⟩, rfl, fun _ h => absurd h List.not_mem_nil, rfl, ⟨0, rfl⟩, rfl⟩

theorem chainRejected_overtaken :
    ChainRejected (after overtaken) 1 dispute [arbitrate] .disputed delivered := by
  refine ⟨⟨[], rfl⟩, rfl, ?_, rfl, ⟨0, rfl⟩, rfl⟩
  rintro o ho
  obtain rfl := List.mem_singleton.mp ho
  decide

def reverted (as : List (Act ℕ Unit)) : State ℕ Unit :=
  stateAfter step [.revert 1, .issue 1, .commit 1] (after as)

end Sample

open Sample

theorem revert_undoes_own_step_sample : ChainRejected (after disputing) 1 dispute [] .disputed
        delivered ∧
      MovedBack (deltas [(.disputedCredits, 5)])
        (undoFreeze Capacity.Sample.settings .disputed 5 (deltas [(.disputedCredits, 5)])) 5 := by
  refine ⟨chainRejected_disputing, ?_⟩
  have hrun : steps step [.revert 1, .issue 1, .commit 1] (after disputing) =
      some (reverted disputing) := rfl
  refine ((revert_undoes_own_step_iff chainRejected_disputing hrun
    Capacity.Sample.settings 5 (deltas [(.disputedCredits, 5)])).mpr ⟨.inl ?_, fun _ => .inr ?_⟩).2
    rfl
  · exact fun o ho => absurd ho List.not_mem_nil
  · norm_num [EPSILON]

/-- **A revert that undoes somebody else's step.** -/
theorem revert_undoes_arbitration : ChainRejected (after overtaken) 1 dispute [arbitrate] .disputed
        delivered ∧
      steps step [.revert 1, .issue 1, .commit 1] (after overtaken) = some (reverted overtaken) ∧
      ¬ (StillCarried [arbitrate] ∧ Restored delivered (after overtaken).row.committed
            (reverted overtaken).row.committed ∨
          (reverted overtaken).row.committed = (after overtaken).row.committed) ∧
      ¬ MovedBack 0 (undoFreeze Capacity.Sample.settings .disputed 5 0) 5 := by
  refine ⟨chainRejected_overtaken, rfl, ?_, ?_⟩
  · rintro (⟨hcarried, -⟩ | hsame)
    · exact absurd (hcarried _ List.mem_cons_self).1 (by decide)
    · exact absurd (congrArg SettlementRow.status hsame) (by decide +kernel)
  · rw [movedBack_undoFreeze_iff rfl]
    norm_num [EPSILON]

end Karma.Settlement
