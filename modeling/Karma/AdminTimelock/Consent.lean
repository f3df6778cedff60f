import Karma.AdminTimelock.Invariant

/-! # `AdminTimelock` — whose consent is needed

`execute` asks for as many approvals as the threshold and counts every address that approved, also
former owners (`execution_rule`). -/

namespace Karma.AdminTimelock

open Evm

variable {D : Deployment} {w w' : World} {sender : Address} {id : Bytes32}

/-! ## Quorums -/

def Storage.Quorum (g : Storage) (l : List Address) : Prop :=
  ∃ q : List Address, q.Nodup ∧ g.threshold ≤ q.length ∧ ∀ o ∈ q, o ∈ g.owners ∧ o ∈ l

def Storage.strangers (g : Storage) (l : List Address) : ℕ := l.countP fun o => !g.isOwner o

theorem Storage.Governed.quorum_iff {g : Storage} {l : List Address} (hg : g.Governed)
    (hl : l.Nodup) : g.Quorum l ↔ g.threshold ≤ l.countP g.isOwner := by
  rw [List.countP_eq_length_filter]
  constructor
  · rintro ⟨q, hq, hlength, hmem⟩
    have hsub : q ⊆ l.filter g.isOwner := by
      intro o ho
      obtain ⟨howner, hol⟩ := hmem o ho
      exact List.mem_filter.mpr ⟨hol, (hg.agrees o).mpr howner⟩
    exact hlength.trans (List.subperm_of_subset hq hsub).length_le
  · intro hlength
    refine ⟨l.filter g.isOwner, hl.filter _, hlength, fun o ho => ?_⟩
    obtain ⟨hol, howner⟩ := List.mem_filter.mp ho
    exact ⟨(hg.agrees o).mp howner, hol⟩

theorem Storage.Governed.quorum_iff_strangers {g : Storage} {l : List Address} (hg : g.Governed)
    (hl : l.Nodup) : g.Quorum l ↔ g.strangers l + g.threshold ≤ l.length := by
  have hsplit := l.length_eq_countP_add_countP g.isOwner
  have hstrangers : g.strangers l = l.countP fun o => decide (¬ g.isOwner o = true) := by
    rw [Storage.strangers]
    congr
    funext o
    cases g.isOwner o with
    | false => rfl
    | true => rfl
  rw [hg.quorum_iff hl]
  omega

/-! ## Execution -/

/-- **The rule of execution.** At every moment of every run the owner set is a set with a threshold
between one and its size. -/
theorem execution_rule (hw : Visits D w) :
    w.Governed ∧ ∀ id t g log, .executed id t g :: log <:+ w.log →
      (∃ owner t₀ d, .scheduled id owner t₀ d ∈ log ∧ t₀ + d ≤ t) ∧
      (∀ t' g', .executed id t' g' ∉ log) ∧
      (g.Quorum (approvers id log) ↔
        g.strangers (approvers id log) + g.threshold ≤ (g.actions id).approvals) := by
  have hsound := hw.sound
  refine ⟨hsound.governed, fun id t g log hsuffix => ?_⟩
  have hexecuted := hsound.justified id t g log hsuffix
  refine ⟨hexecuted.delayed, hexecuted.once, ?_⟩
  rw [hexecuted.counted]
  exact hexecuted.governed.quorum_iff_strangers hexecuted.distinct

namespace Sample

def deployment : Deployment where
  self := .ofNat 70
  actionId _ _ _ nonce := .ofNat 256 nonce
  decode _ := some (.setOwners [.ofNat 4, .ofNat 5] 2)

def initial (threshold : ℕ) : World :=
  match (create [.ofNat 1, .ofNat 2, .ofNat 3] threshold 10 { now := 1 }).result with
  | .ok (_, w) => w
  | .error _ => { now := 1 }

def world (threshold : ℕ) (as : List Act) : World :=
  (steps (step deployment) as (initial threshold)).getD (initial threshold)

theorem init_one : Init (initial 1) :=
  ⟨by decide +kernel, [.ofNat 1, .ofNat 2, .ofNat 3], 1, 10, rfl⟩

theorem init_two : Init (initial 2) :=
  ⟨by decide +kernel, [.ofNat 1, .ofNat 2, .ofNat 3], 2, 10, rfl⟩

theorem visits {threshold : ℕ} (hinit : Init (initial threshold)) (as : List Act)
    (hsome : (steps (step deployment) as (initial threshold)).isSome) :
    Visits deployment (world threshold as) := by
  obtain ⟨w, hw⟩ := Option.isSome_iff_exists.mp hsome
  refine ⟨_, _, (Run.start hinit).steps hw, .inl ?_⟩
  rw [world, hw, Option.getD_some]

def first : Bytes32 := .ofNat 256 0

def scheduling : List Act := [.call 1 (.ofNat 1) (.schedule (.ofNat 50) 0 []) .idle]

def approving : List Act := scheduling ++ [.call 1 (.ofNat 2) (.approve first) .idle, .tick 20]

def rotating : List Act :=
  approving ++ [.call 1 (.ofNat 1) (.schedule deployment.self 0 []) .idle,
      .call 1 (.ofNat 2) (.approve (.ofNat 256 1)) .idle, .tick 30,
      .call 2 (.ofNat 9) (.execute (.ofNat 256 1)) .idle]

def executing : Act := .call 1 (.ofNat 9) (.execute first) .idle

end Sample

open Sample

theorem execution_rule_sample : (world 2 (approving ++ [executing])).log =
      .executed first 20 (world 2 approving).toStorage :: (world 2 approving).log ∧
    (world 2 approving).Quorum (approvers first (world 2 approving).log) := by
  have hvisits := visits init_two (approving ++ [executing]) (by decide +kernel)
  have hlog : (world 2 (approving ++ [executing])).log =
      .executed first 20 (world 2 approving).toStorage :: (world 2 approving).log := rfl
  have hsuffix : .executed first 20 (world 2 approving).toStorage :: (world 2 approving).log <:+
        (world 2 (approving ++ [executing])).log := by
    rw [hlog]
  exact ⟨hlog, ((execution_rule hvisits).2 _ _ _ _ hsuffix).2.2.mpr (by decide +kernel)⟩

/-- **Executed by former owners.** The approvals of owners 1 and 2 outlive their ownership. -/
theorem executed_by_former_owners : Visits deployment (world 2 (rotating ++ [executing])) ∧
    (world 2 (rotating ++ [executing])).log = .executed first 30 (world 2 rotating).toStorage ::
        (world 2 rotating).log ∧
    (world 2 rotating).owners = [.ofNat 4, .ofNat 5] ∧
    ¬ (world 2 rotating).Quorum (approvers first (world 2 rotating).log) := by
  have hsound := (visits init_two rotating (by decide +kernel)).sound
  refine ⟨visits init_two _ (by decide +kernel), rfl, rfl, ?_⟩
  rw [hsound.governed.quorum_iff (hsound.distinct _)]
  decide +kernel

/-! ## Cancellation -/

def cancelAll (id : Bytes32) : List Address → World → World
  | [], w => w
  | o :: l, w =>
    match (cancel o id w).result with
    | .ok (_, w') => cancelAll id l w'
    | .error _ => cancelAll id l w

structure Consensual (w : World) (id : Bytes32) : Prop where
  asked : ∀ sender w', (cancel sender id w).result = .ok ((), w') → w.Quorum (askers id w'.log)
  joint : 1 < w.threshold → ∀ sender w', (cancel sender id w).result = .ok ((), w') →
    ∃ o ∈ askers id w'.log, o ≠ sender
  removable : ∀ l : List Address, l.Nodup → (∀ o ∈ l, o ∈ w.owners) → w.threshold ≤ l.length →
    ((cancelAll id l w).actions id).eta = 0

theorem post_cancel (sender : Address) (id : Bytes32) (w : World) :
    (cancel sender id).post (fun _ w' => w.isOwner sender = true ∧
      w.threshold ≤ (w.actions id).approvals ∧ w'.log = .cancelled id sender :: w.log ∧
      (w'.actions id).eta = 0) w := by
  simp only [cancel, Tx.wp_code, wp_onlyOwner, wp_note, wp_updateAction, wp_emit,
    Function.update_self, implies_true, true_and, not_lt, and_true]
  intro howner _ _ henough
  exact ⟨by simpa using howner, henough⟩

theorem cancel_ok (howner : w.isOwner sender = true) (hpending : (w.actions id).eta ≠ 0)
    (hunexecuted : (w.actions id).executed = false)
    (henough : w.threshold ≤ (w.actions id).approvals) :
    ∃ w', (cancel sender id w).result = .ok ((), w') ∧ w'.log = .cancelled id sender :: w.log ∧
      (w'.actions id).eta = 0 := by
  have hwp : (cancel sender id).wp (fun _ => True) (fun _ => False)
      (fun _ w' => w'.log = .cancelled id sender :: w.log ∧ (w'.actions id).eta = 0) w := by
    simp [cancel, howner, hpending, hunexecuted, henough]
  obtain ⟨_, w', hr, hw'⟩ := Tx.exists_ok_of_wp hwp
  exact ⟨w', hr, hw'⟩

theorem cancelAll_of_lt (hfew : (w.actions id).approvals < w.threshold) (l : List Address) :
    cancelAll id l w = w := by
  induction l with
  | nil => rfl
  | cons o l ih =>
    rw [cancelAll]
    split
    case h_1 w' hr => exact absurd (Tx.wp_ok (post_cancel o id w) hr).2.1 (not_le.mpr hfew)
    case h_2 => exact ih

theorem cancelAll_of_gone (hgone : (w.actions id).eta = 0) (l : List Address) :
    cancelAll id l w = w := by
  induction l with
  | nil => rfl
  | cons o l ih =>
    have hfails : (cancel o id).post (fun _ _ => False) w := by
      simp [cancel, hgone]
    rw [cancelAll]
    split
    case h_1 w' hr => exact (Tx.wp_ok hfails hr).elim
    case h_2 => exact ih

section Pending

variable (hw : Sound w) (hpending : (w.actions id).eta ≠ 0)
  (hunexecuted : (w.actions id).executed = false)

include hw hpending in
theorem askers_of_cancelled (hlog : w'.log = .cancelled id sender :: w.log) :
    askers id w'.log = [sender] := by
  rw [hlog, askers, if_pos rfl, hw.unasked id hpending]

include hw hpending hunexecuted

theorem asked_iff :
    (∀ sender w', (cancel sender id w).result = .ok ((), w') → w.Quorum (askers id w'.log)) ↔
      w.threshold = 1 ∨ (w.actions id).approvals < w.threshold := by
  have hpositive := hw.governed.positive
  constructor
  · intro hasked
    by_contra hnot
    push Not at hnot
    -- the first owner of the list cancels alone
    obtain ⟨o, ho⟩ := List.exists_mem_of_length_pos (hpositive.trans hw.governed.reachable)
    obtain ⟨w', hr, hlog, -⟩ :=
      cancel_ok ((hw.governed.agrees o).mpr ho) hpending hunexecuted hnot.2
    obtain ⟨q, hnodup, hlength, hq⟩ := hasked o w' hr
    rw [askers_of_cancelled hw hpending hlog] at hq
    have hone : q.length ≤ 1 :=
      (List.subperm_of_subset hnodup fun x hx => (hq x hx).2).length_le
    have hne := hnot.1
    omega
  · intro hcond sender w' hr
    obtain ⟨howner, henough, hlog, -⟩ := Tx.wp_ok (post_cancel sender id w) hr
    rcases hcond with hone | hfew
    · rw [askers_of_cancelled hw hpending hlog]
      refine ⟨[sender], List.nodup_singleton _, hone.le, fun o ho => ⟨?_, ho⟩⟩
      rw [List.mem_singleton.mp ho]
      exact (hw.governed.agrees sender).mp howner
    · exact absurd henough (not_le.mpr hfew)

theorem removable_iff :
    (∀ l : List Address, l.Nodup → (∀ o ∈ l, o ∈ w.owners) → w.threshold ≤ l.length →
      ((cancelAll id l w).actions id).eta = 0) ↔ w.threshold ≤ (w.actions id).approvals := by
  constructor
  · intro hremovable
    by_contra hfew
    apply hpending
    have hgone := hremovable w.owners hw.governed.nodup (fun _ ho => ho) hw.governed.reachable
    rwa [cancelAll_of_lt (not_le.mp hfew)] at hgone
  · intro henough l _ howners hlength
    cases l with
    | nil => exact absurd (hw.governed.positive.trans hlength) (by simp)
    | cons o l =>
      have howner := (hw.governed.agrees o).mpr (howners o List.mem_cons_self)
      obtain ⟨w', hr, -, hgone⟩ := cancel_ok howner hpending hunexecuted henough
      rw [cancelAll, hr]
      simp only [cancelAll_of_gone hgone]
      exact hgone

end Pending

/-- **Cancellation takes a threshold of owners only where the threshold is one.** -/
theorem cancellation_iff (hw : Visits D w) (hpending : (w.actions id).eta ≠ 0)
    (hunexecuted : (w.actions id).executed = false) :
    ((∀ sender w', (cancel sender id w).result = .ok ((), w') → w.Quorum (askers id w'.log)) ↔
      w.threshold = 1 ∨ (w.actions id).approvals < w.threshold) ∧
    ((∀ l : List Address, l.Nodup → (∀ o ∈ l, o ∈ w.owners) → w.threshold ≤ l.length →
      ((cancelAll id l w).actions id).eta = 0) ↔ w.threshold ≤ (w.actions id).approvals) ∧
    (Consensual w id ↔ w.threshold = 1) := by
  have hasked := asked_iff hw.sound hpending hunexecuted
  have hremovable := removable_iff hw.sound hpending hunexecuted
  refine ⟨hasked, hremovable, fun hconsensual => ?_, fun hone => ⟨?_, ?_, ?_⟩⟩
  · rcases hasked.mp hconsensual.asked with hone | hfew
    · exact hone
    · exact absurd (hremovable.mp hconsensual.removable) (not_le.mpr hfew)
  · exact hasked.mpr (.inl hone)
  · exact fun hmany => absurd hone hmany.ne'
  · apply hremovable.mpr
    rw [hone]
    exact (hw.sound.counted id hpending).2

theorem cancellation_sample : ((world 1 scheduling).actions first).eta = 11 ∧
      (world 1 scheduling).threshold = 1 ∧
      Consensual (world 1 scheduling) first :=
  ⟨by decide +kernel, by decide +kernel,
    (cancellation_iff (visits init_one scheduling (by decide +kernel))
      (by decide +kernel) (by decide +kernel)).2.2.mpr (by decide +kernel)⟩

theorem cancelled_alone : (Visits deployment (world 2 approving) ∧
      (world 2 approving).threshold = 2 ∧
      ((world 2 approving).actions first).eta = 11 ∧
      approvers first (world 2 approving).log = [.ofNat 2, .ofNat 1] ∧
      ((cancelAll first [.ofNat 3] (world 2 approving)).actions first).eta = 0 ∧
      askers first
        (cancelAll first [.ofNat 3] (world 2 approving)).log = [.ofNat 3]) ∧
    Visits deployment (world 2 scheduling) ∧ ((cancelAll first [.ofNat 1, .ofNat 2, .ofNat 3]
        (world 2 scheduling)).actions first).eta = 11 :=
  ⟨⟨visits init_two _ (by decide +kernel), by decide +kernel⟩,
    visits init_two _ (by decide +kernel), by decide +kernel⟩

end Karma.AdminTimelock
