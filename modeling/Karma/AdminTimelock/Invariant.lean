import Karma.AdminTimelock.Code

/-! # `AdminTimelock` — what holds at every moment

`Sound` collects what every call keeps, to any depth and whatever the called targets do
(`safe_exec`). -/

namespace Karma.AdminTimelock

open Evm Function

/-! ## Reading the log -/

def Moment.action : Moment → Bytes32
  | .scheduled id _ _ _ => id
  | .approved id _ => id
  | .executed id _ _ => id
  | .cancelled id _ => id

def approvers (id : Bytes32) : List Moment → List Address
  | [] => []
  | .scheduled i owner _ _ :: log => if i = id then [owner] else approvers id log
  | .approved i owner :: log => if i = id then owner :: approvers id log else approvers id log
  | .executed _ _ _ :: log => approvers id log
  | .cancelled _ _ :: log => approvers id log

/-- Who asked for the cancellation of the action since it was (last) scheduled. -/
def askers (id : Bytes32) : List Moment → List Address
  | [] => []
  | .scheduled i _ _ _ :: log => if i = id then [] else askers id log
  | .approved _ _ :: log => askers id log
  | .executed _ _ _ :: log => askers id log
  | .cancelled i owner :: log => if i = id then owner :: askers id log else askers id log

/-- **The owner set is a set**, the mapping agrees with the list, and the threshold can be met. -/
structure Storage.Governed (g : Storage) : Prop where
  nodup : g.owners.Nodup
  agrees : ∀ o, g.isOwner o = true ↔ o ∈ g.owners
  zero : 0 ∉ g.owners
  positive : 1 ≤ g.threshold
  reachable : g.threshold ≤ g.owners.length

structure Justified (id : Bytes32) (time : ℕ) (g : Storage) (log : List Moment) : Prop where
  delayed : ∃ owner t d, .scheduled id owner t d ∈ log ∧ t + d ≤ time
  once : ∀ t g', .executed id t g' ∉ log
  distinct : (approvers id log).Nodup
  counted : (g.actions id).approvals = (approvers id log).length
  enough : g.threshold ≤ (g.actions id).approvals
  governed : g.Governed

structure Sound (w : World) : Prop where
  governed : w.Governed
  now : 0 < w.now
  scheduled : ∀ id, (w.actions id).eta ≠ 0 →
    ∃ owner t d, .scheduled id owner t d ∈ w.log ∧ t + d = (w.actions id).eta
  counted : ∀ id, (w.actions id).eta ≠ 0 →
    (w.actions id).approvals = (approvers id w.log).length ∧ 1 ≤ (w.actions id).approvals
  flagged : ∀ id, ∀ o ∈ approvers id w.log, w.approvedBy id o = true
  distinct : ∀ id, (approvers id w.log).Nodup
  unasked : ∀ id, (w.actions id).eta ≠ 0 → askers id w.log = []
  done : ∀ id t g, .executed id t g ∈ w.log → (w.actions id).executed = true
  justified : ∀ id t g log, .executed id t g :: log <:+ w.log → Justified id t g log

variable {D : Deployment} {w w' : World} {sender : Address} {id : Bytes32} {I : World → Prop}
  {E : Error → Prop} {Q : Unit → World → Prop}

theorem Storage.Governed.of_eq {g g' : Storage} (h : g.Governed) (howners : g'.owners = g.owners)
    (hisOwner : g'.isOwner = g.isOwner) (hthreshold : g'.threshold = g.threshold) :
    g'.Governed := by
  obtain ⟨hnodup, hagrees, hzero, hpositive, hreachable⟩ := h
  rw [← howners, ← hisOwner] at hagrees
  rw [← howners] at hnodup hzero
  rw [← hthreshold] at hpositive
  rw [← howners, ← hthreshold] at hreachable
  exact ⟨hnodup, hagrees, hzero, hpositive, hreachable⟩

theorem Sound.govern (hw : Sound w) (hgoverned : w'.Governed) (hnow : w.now ≤ w'.now)
    (hactions : w'.actions = w.actions) (happrovedBy : w'.approvedBy = w.approvedBy)
    (hlog : w'.log = w.log) : Sound w' where
  governed := hgoverned
  now := hw.now.trans_le hnow
  scheduled := by rw [hactions, hlog]; exact hw.scheduled
  counted := by rw [hactions, hlog]; exact hw.counted
  flagged := by rw [happrovedBy, hlog]; exact hw.flagged
  distinct := by rw [hlog]; exact hw.distinct
  unasked := by rw [hactions, hlog]; exact hw.unasked
  done := by rw [hactions, hlog]; exact hw.done
  justified := by rw [hlog]; exact hw.justified

/-! ## Rules for the parts of the calls -/

@[simp] theorem wp_emit (e : Event) :
    (emit e).wp I E Q w ↔ Q () { w with events := w.events ++ [e] } := by
  simp only [emit, Tx.wp_modify]

@[simp] theorem wp_write (f : Storage → Storage) :
    (write f).wp I E Q w ↔ Q () { w with toStorage := f w.toStorage } := by
  simp only [write, Tx.wp_modify]

@[simp] theorem wp_note (m : Moment) :
    (note m).wp I E Q w ↔ Q () { w with log := m :: w.log } := by
  simp only [note, Tx.wp_modify]

@[simp] theorem wp_updateAction (f : Action → Action) :
    (updateAction id f).wp I E Q w ↔
      Q () { w with actions := update w.actions id (f (w.actions id)) } := by
  simp only [updateAction, wp_write]

@[simp] theorem wp_setApproved (owner : Address) :
    (setApproved id owner).wp I E Q w ↔ Q () { w with
        approvedBy := update w.approvedBy id (update (w.approvedBy id) owner true) } := by
  simp only [setApproved, wp_write]

@[simp] theorem wp_onlyOwner :
    (onlyOwner sender).wp I E Q w ↔
      (w.isOwner sender = false → E .notOwner) ∧ (¬ w.isOwner sender = false → Q () w) := by
  simp only [onlyOwner, Tx.wp_code]

theorem wp_clearOwners (owners : List Address)
    (hQ : Q () { w with isOwner := fun o => if o ∈ owners then false else w.isOwner o }) :
    (clearOwners owners).wp I E Q w := by
  induction owners generalizing w with
  | nil =>
    rw [clearOwners, Tx.wp_pure]
    simpa using hQ
  | cons owner owners ih =>
    rw [clearOwners, Tx.wp_bind, wp_write]
    apply ih
    have hsame : (fun o => if o ∈ owners then false
        else update w.isOwner owner false o) =
        fun o => if o ∈ owner :: owners then false else w.isOwner o := by
      funext o
      by_cases ho : o = owner
      · simp [ho]
      · simp [ho]
    simp only [hsame]
    exact hQ

theorem wp_addOwners (newOwners : List Address)
    (hagrees : w.isOwner = fun o => decide (o ∈ w.owners))
    (hnodup : w.owners.Nodup) (hzero : 0 ∉ w.owners)
    (hQ : (w.owners ++ newOwners).Nodup → 0 ∉ w.owners ++ newOwners → Q () { w with
      owners := w.owners ++ newOwners
      isOwner := fun o => decide (o ∈ w.owners ++ newOwners) }) :
    (addOwners newOwners).wp I (fun _ => True) Q w := by
  induction newOwners generalizing w with
  | nil =>
    rw [addOwners, Tx.wp_pure]
    simp only [List.append_nil, ← hagrees] at hQ
    exact hQ hnodup hzero
  | cons owner newOwners ih =>
    simp only [addOwners, Tx.post_code, wp_write]
    intro hok
    push Not at hok
    have hnew : owner ∉ w.owners := by
      have hnot := hok.2
      rw [hagrees] at hnot
      simpa using hnot
    apply ih
    · funext o
      by_cases ho : o = owner
      · simp [ho]
      · simp [ho, hagrees]
    · rw [List.nodup_append]
      refine ⟨hnodup, List.nodup_singleton _, fun x hx y hy hxy => ?_⟩
      rw [List.mem_singleton.mp hy] at hxy
      exact hnew (hxy ▸ hx)
    · simp only [List.mem_append, List.mem_singleton, not_or]
      exact ⟨hzero, fun hzero => hok.1 hzero.symm⟩
    · intro hnodup' hzero'
      simp only [List.append_assoc, List.singleton_append] at hnodup' hzero' ⊢
      exact hQ hnodup' hzero'

theorem wp_setOwnerSet {newOwners : List Address} {newThreshold : ℕ}
    (hagrees : ∀ o, w.isOwner o = true ↔ o ∈ w.owners)
    (hQ : ∀ evs isOwner, (Storage.Governed { w.toStorage with
        owners := newOwners, isOwner, threshold := newThreshold }) →
      Q () { w with
        owners := newOwners
        isOwner := isOwner
        threshold := newThreshold
        events := evs }) :
    (setOwnerSet newOwners newThreshold).wp I (fun _ => True) Q w := by
  simp only [setOwnerSet, Tx.post_code]
  intro hok
  push Not at hok
  apply wp_clearOwners
  rw [wp_write]
  have hcleared : (fun o => if o ∈ w.owners then false else w.isOwner o) =
      fun o => decide (o ∈ ([] : List Address)) := by
    funext o
    by_cases ho : o ∈ w.owners
    · simp [ho]
    · have hnot : w.isOwner o = false := by
        rw [← Bool.not_eq_true, hagrees]
        exact ho
      simp [ho, hnot]
  apply wp_addOwners
  · exact hcleared
  · exact List.nodup_nil
  · exact List.not_mem_nil
  · intro hnodup hzero
    rw [wp_write, wp_emit]
    apply hQ
    refine ⟨hnodup, fun o => ?_, hzero, Nat.pos_of_ne_zero hok.2.1, hok.2.2⟩
    simp

theorem approvers_of_ne {m : Moment} {x : Bytes32} (hx : x ≠ m.action) (log : List Moment) :
    approvers x (m :: log) = approvers x log := by
  cases m with
  | scheduled | approved => exact if_neg (Ne.symm hx)
  | executed => rfl
  | cancelled => rfl

theorem askers_of_ne {m : Moment} {x : Bytes32} (hx : x ≠ m.action) (log : List Moment) :
    askers x (m :: log) = askers x log := by
  cases m with
  | scheduled | cancelled => exact if_neg (Ne.symm hx)
  | approved => rfl
  | executed => rfl

section Moments

variable {a : Action} {m : Moment}

theorem Sound.moment (hw : Sound w) (hactions : w'.actions = update w.actions m.action a)
    (happrovedBy : ∀ x ≠ m.action, w'.approvedBy x = w.approvedBy x) (hlog : w'.log = m :: w.log)
    (hgoverned : w'.Governed) (hnow : w'.now = w.now)
    (hscheduled : a.eta ≠ 0 →
      ∃ owner t d, .scheduled m.action owner t d ∈ m :: w.log ∧ t + d = a.eta)
    (hcounted : a.eta ≠ 0 →
      a.approvals = (approvers m.action (m :: w.log)).length ∧ 1 ≤ a.approvals)
    (hflagged : ∀ o ∈ approvers m.action (m :: w.log), w'.approvedBy m.action o = true)
    (hdistinct : (approvers m.action (m :: w.log)).Nodup)
    (hunasked : a.eta ≠ 0 → askers m.action (m :: w.log) = [])
    (hdone : ∀ t g, .executed m.action t g ∈ m :: w.log → a.executed = true)
    (hjustified : ∀ id t g, m = .executed id t g → Justified id t g w.log) : Sound w' := by
  refine ⟨hgoverned, hnow ▸ hw.now, fun x => ?_, fun x => ?_, fun x => ?_, fun x => ?_, fun x => ?_,
    fun x t g => ?_, fun x t g log => ?_⟩
  all_goals rw [hlog]
  · by_cases hx : x = m.action
    · rw [hactions, hx, update_self]
      exact hscheduled
    · rw [hactions, update_of_ne hx]
      intro hpending
      obtain ⟨owner, t, d, hmem, hsum⟩ := hw.scheduled x hpending
      exact ⟨owner, t, d, List.mem_cons_of_mem _ hmem, hsum⟩
  · by_cases hx : x = m.action
    · rw [hactions, hx, update_self]
      exact hcounted
    · rw [hactions, update_of_ne hx, approvers_of_ne hx]
      exact hw.counted x
  · by_cases hx : x = m.action
    · rw [hx]
      exact hflagged
    · rw [happrovedBy x hx, approvers_of_ne hx]
      exact hw.flagged x
  · by_cases hx : x = m.action
    · rw [hx]
      exact hdistinct
    · rw [approvers_of_ne hx]
      exact hw.distinct x
  · by_cases hx : x = m.action
    · rw [hactions, hx, update_self]
      exact hunasked
    · rw [hactions, update_of_ne hx, askers_of_ne hx]
      exact hw.unasked x
  · intro hmem
    by_cases hx : x = m.action
    · rw [hactions, hx, update_self]
      exact hdone t g (hx ▸ hmem)
    · rw [hactions, update_of_ne hx]
      rcases List.mem_cons.mp hmem with heq | hmem
      · exact absurd (congrArg Moment.action heq) hx
      · exact hw.done x t g hmem
  · intro hsuffix
    rcases List.suffix_cons_iff.mp hsuffix with heq | hsuffix
    · obtain ⟨rfl, rfl⟩ := List.cons.inj heq
      exact hjustified x t g rfl
    · exact hw.justified x t g log hsuffix

end Moments

/-! ## The calls -/

theorem wp_schedule {target : Address} {value : ℕ} {data : Bytes} (hw : Sound w) :
    (schedule D sender target value data).wp I (fun _ => True) (fun _ w' => Sound w') w := by
  simp only [schedule, onlyOwner, Tx.post_code, wp_write, wp_updateAction, wp_setApproved, wp_note,
    wp_emit]
  intro _ _ _ _
  refine hw.moment (m := .scheduled (D.actionId target value data w.nonce) sender w.now w.minDelay)
    rfl (fun x hx => update_of_ne hx _ _) rfl
    (hw.governed.of_eq rfl rfl rfl) rfl ?_ ?_ ?_ ?_ ?_ ?_ ?_
  · exact fun _ => ⟨sender, w.now, w.minDelay, List.mem_cons_self, rfl⟩
  · intro _
    simp [approvers, Moment.action]
  · intro o ho
    simp only [approvers, Moment.action, if_true, List.mem_singleton] at ho
    rw [ho]
    simp [Moment.action]
  · simp [approvers, Moment.action]
  · intro _
    simp [askers, Moment.action]
  · intro t g hmem
    exact hw.done _ t g (List.mem_of_ne_of_mem (by simp) hmem)
  · intro _ _ _ heq
    cases heq

theorem wp_approve (hw : Sound w) :
    (approve sender id).wp I (fun _ => True) (fun _ w' => Sound w') w := by
  simp only [approve, onlyOwner, Tx.post_code, wp_updateAction, wp_setApproved, wp_note, wp_emit]
  intro _ hpending _ hfirst _
  have hnew : sender ∉ approvers id w.log := fun hmem => hfirst (hw.flagged id sender hmem)
  obtain ⟨hcount, hpos⟩ := hw.counted id hpending
  refine hw.moment (m := .approved id sender) rfl (fun x hx => update_of_ne hx _ _) rfl
    (hw.governed.of_eq rfl rfl rfl) rfl ?_ ?_ ?_ ?_ ?_ ?_ ?_
  · intro _
    obtain ⟨owner, t, d, hmem, hsum⟩ := hw.scheduled id hpending
    exact ⟨owner, t, d, List.mem_cons_of_mem _ hmem, hsum⟩
  · intro _
    simp [approvers, Moment.action, hcount]
  · intro o ho
    simp only [approvers, Moment.action, if_true] at ho
    simp only [Moment.action, update_self]
    by_cases hsender : o = sender
    · rw [hsender, update_self]
    · rw [update_of_ne hsender]
      exact hw.flagged id o (List.mem_of_ne_of_mem hsender ho)
  · simp only [approvers, Moment.action, if_true]
    exact List.nodup_cons.mpr ⟨hnew, hw.distinct id⟩
  · exact fun _ => hw.unasked id hpending
  · intro t g hmem
    exact hw.done id t g (List.mem_of_ne_of_mem (by simp) hmem)
  · intro _ _ _ heq
    cases heq

theorem wp_cancel (hw : Sound w) :
    (cancel sender id).wp I (fun _ => True) (fun _ w' => Sound w') w := by
  simp only [cancel, onlyOwner, Tx.post_code, wp_updateAction, wp_note, wp_emit]
  intro _ _ hunexecuted _
  refine hw.moment (m := .cancelled id sender) rfl (fun _ _ => rfl) rfl
    (hw.governed.of_eq rfl rfl rfl) rfl ?_ ?_ ?_ ?_ ?_ ?_ ?_
  · exact fun hpending => absurd rfl hpending
  · exact fun hpending => absurd rfl hpending
  · exact hw.flagged id
  · exact hw.distinct id
  · exact fun hpending => absurd rfl hpending
  · intro t g hmem
    exact absurd (hw.done id t g (List.mem_of_ne_of_mem (by simp) hmem)) hunexecuted
  · intro _ _ _ heq
    cases heq

theorem wp_setOwnerSet_sound {newOwners : List Address} {newThreshold : ℕ} (hw : Sound w) :
    (setOwnerSet newOwners newThreshold).wp I (fun _ => True) (fun _ w' => Sound w') w := by
  apply wp_setOwnerSet hw.governed.agrees
  intro evs isOwner hgoverned
  exact hw.govern ⟨hgoverned.nodup, hgoverned.agrees, hgoverned.zero, hgoverned.positive,
    hgoverned.reachable⟩ le_rfl rfl rfl rfl

theorem wp_setMinDelayTo {newMinDelay : ℕ} (hw : Sound w) (hQ : ∀ w', Sound w' → Q () w') :
    (setMinDelayTo newMinDelay).wp I (fun _ => True) Q w := by
  simp only [setMinDelayTo, Tx.post_code, wp_write, wp_emit]
  refine fun _ => hQ _ ?_
  exact hw.govern ⟨hw.governed.nodup, hw.governed.agrees, hw.governed.zero, hw.governed.positive,
    hw.governed.reachable⟩ le_rfl rfl rfl rfl

/-! ## Execution -/

/-- A runner that keeps the world sound, at every moment and in the end. -/
def Runner.Safe (run : Runner) : Prop :=
  ∀ sender c plan w, Sound w → (run sender c plan).wp Sound (fun _ => True) (fun _ w' => Sound w') w

theorem wp_foreign {run : Runner} (hrun : run.Safe) (calls : List (Address × Call × Plan))
    (hw : Sound w) (hQ : ∀ w', Sound w' → Q () w') :
    (foreign D run calls).wp Sound E Q w := by
  induction calls generalizing w with
  | nil =>
    rw [foreign, Tx.wp_observe]
    exact ⟨hw, hQ w hw⟩
  | cons call calls ih =>
    obtain ⟨sender, c, plan⟩ := call
    simp only [foreign, Tx.wp_code, Tx.wp_observe, Tx.wp_attempt]
    refine ⟨hw, fun _ => ih hw, fun _ => ?_⟩
    -- a call of the foreign code ends in a sound world, or is undone
    have hcall := hrun sender c plan w hw
    exact Tx.wp_both hcall hcall (fun _ hI _ => hI) (fun _ _ _ => ih hw) fun _ w' hw' _ => ih hw'

theorem wp_callTarget {run : Runner} {a : Action} {plan : Plan} (hrun : run.Safe) (hw : Sound w)
    (hQ : ∀ w', Sound w' → Q () w') :
    (callTarget D run a plan).wp Sound (fun _ => True) Q w := by
  unfold callTarget
  by_cases hself : a.target = D.self
  · rw [if_pos hself]
    cases D.decode a.data with
    | none => exact (Tx.wp_revert _).mpr trivial
    | some c =>
      by_cases hvalue : a.value = 0
      · simp only [hvalue, if_true, Tx.wp_bind, Tx.wp_observe, Tx.wp_mapError]
        exact ⟨hw, Tx.wp_mono (hrun D.self c plan w hw) fun _ w' hw' => hQ w' hw'⟩
      · simp only [hvalue, if_false, Tx.wp_revert]
  · rw [if_neg hself]
    obtain ⟨calls, succeeds⟩ := plan
    simp only [Tx.wp_bind]
    apply wp_foreign hrun calls hw
    intro w' hw'
    simp only [Tx.post_code]
    exact fun _ => hQ w' hw'

theorem Sound.justify (hw : Sound w) (hpending : (w.actions id).eta ≠ 0)
    (hunexecuted : ¬ (w.actions id).executed = true) (hready : (w.actions id).eta ≤ w.now)
    (henough : w.threshold ≤ (w.actions id).approvals) :
    Justified id w.now w.toStorage w.log := by
  refine ⟨?_, fun t g hmem => hunexecuted (hw.done id t g hmem), hw.distinct id,
    (hw.counted id hpending).1, henough, hw.governed⟩
  obtain ⟨owner, t, d, hmem, hsum⟩ := hw.scheduled id hpending
  exact ⟨owner, t, d, hmem, hsum.trans_le hready⟩

theorem wp_execute {run : Runner} {plan : Plan} (hrun : run.Safe) (hw : Sound w) :
    (execute D run id plan).wp Sound (fun _ => True) (fun _ w' => Sound w') w := by
  simp only [execute, Tx.post_code, wp_note, wp_updateAction]
  intro hpending hunexecuted hready henough
  have hjustified := hw.justify hpending hunexecuted (not_lt.mp hready) (not_lt.mp henough)
  apply wp_callTarget hrun
  · refine hw.moment (m := .executed id w.now w.toStorage) rfl (fun _ _ => rfl) rfl
      (hw.governed.of_eq rfl rfl rfl) rfl ?_ ?_ ?_ ?_ ?_ ?_ ?_
    · intro _
      obtain ⟨owner, t, d, hmem, hsum⟩ := hw.scheduled id hpending
      exact ⟨owner, t, d, List.mem_cons_of_mem _ hmem, hsum⟩
    · exact fun _ => hw.counted id hpending
    · exact hw.flagged id
    · exact hw.distinct id
    · exact fun _ => hw.unasked id hpending
    · exact fun _ _ _ => rfl
    · rintro _ _ _ ⟨⟩
      exact hjustified
  · intro w' hw'
    rw [wp_emit]
    exact hw'.govern (hw'.governed.of_eq rfl rfl rfl) le_rfl rfl rfl rfl

theorem safe_exec (D : Deployment) (depth : ℕ) : (exec D depth).Safe := by
  induction depth with
  | zero =>
    intro sender c plan w _
    rw [exec, Tx.wp_revert]
    trivial
  | succ depth ih =>
    intro sender c plan w hw
    cases c with
    | schedule target value data =>
      simp only [exec, Tx.wp_code]
      exact wp_schedule hw
    | approve id => exact wp_approve hw
    | execute id => exact wp_execute ih hw
    | cancel id => exact wp_cancel hw
    | setOwners newOwners newThreshold =>
      simp only [exec, setOwners, onlySelf, Tx.post_code]
      exact fun _ => wp_setOwnerSet_sound hw
    | setMinDelay newMinDelay =>
      simp only [exec, setMinDelay, onlySelf, Tx.post_code]
      exact fun _ => wp_setMinDelayTo hw fun _ hw' => hw'
    | reconfigure newOwners newThreshold newMinDelay =>
      simp only [exec, reconfigure, onlySelf, Tx.post_code]
      exact fun _ => wp_setMinDelayTo hw fun _ hw' => wp_setOwnerSet_sound hw'

/-! ## Runs -/

theorem Sound.fresh (hw : Sound w) : Sound w.fresh :=
  hw.govern ⟨hw.governed.nodup, hw.governed.agrees, hw.governed.zero, hw.governed.positive,
    hw.governed.reachable⟩ le_rfl rfl rfl rfl

theorem Init.sound (hw : Init w) : Sound w := by
  obtain ⟨hnow, owners, threshold, minDelay, hresult⟩ := hw
  have hcreate : (create owners threshold minDelay).post (fun _ w' => w'.now = w.now → Sound w')
      { now := w.now } := by
    simp only [create, Tx.wp_bind]
    apply wp_setOwnerSet (by simp)
    intro evs isOwner hgoverned
    have hstart : Sound { now := w.now, owners, isOwner, threshold, events := evs } := by
      refine ⟨⟨hgoverned.nodup, hgoverned.agrees, hgoverned.zero, hgoverned.positive,
        hgoverned.reachable⟩, hnow, ?_, ?_, ?_, ?_, ?_, ?_, ?_⟩
      · exact fun _ hpending => absurd rfl hpending
      · exact fun _ hpending => absurd rfl hpending
      · exact fun _ _ hmem => absurd hmem List.not_mem_nil
      · exact fun _ => List.nodup_nil
      · exact fun _ _ => rfl
      · exact fun _ _ _ hmem => absurd hmem List.not_mem_nil
      · intro id t g log hsuffix
        exact absurd (List.suffix_nil.mp hsuffix) (List.cons_ne_nil _ _)
    exact wp_setMinDelayTo hstart fun _ hw' _ => hw'
  exact Tx.wp_ok hcreate hresult rfl

theorem Reach.sound {h : History} (hr : Reach D h w) : Sound w := by
  refine hr.safe (fun w hw => hw.sound) fun w a w' ih hs => ?_
  cases a with
  | tick time =>
    simp only [step] at hs
    split_ifs at hs with hle
    cases hs
    exact ih.govern ⟨ih.governed.nodup, ih.governed.agrees, ih.governed.zero,
      ih.governed.positive, ih.governed.reachable⟩ hle rfl rfl rfl
  | call depth sender c plan =>
    simp only [step] at hs
    split_ifs at hs
    split at hs
    case h_1 u hr =>
      cases hs
      exact Tx.wp_ok (safe_exec D depth sender c plan w.fresh ih.fresh) hr
    case h_2 => cases hs

theorem Visits.sound (hw : Visits D w) : Sound w := by
  obtain ⟨h, v, hr, rfl | ⟨depth, sender, c, plan, -, hseen⟩⟩ := hw
  · exact hr.sound
  · exact (safe_exec D depth sender c plan v.fresh hr.sound.fresh).1 w hseen

end Karma.AdminTimelock
