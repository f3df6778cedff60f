import Karma.Settlement.Store
import Mathlib.Data.Nat.Basic

/-! # The path of the committed statuses

The guard of `save` judges a status it has loaded. -/

namespace Karma.Settlement

open Karma.Evm Karma.Db Function

variable {T V : Type} {S S' : State T V} {v₀ : SettlementRow V}

/-! ## Replaying statements -/

theorem foldrM_exec (v : SettlementRow V) (log : List (Stmt T V)) :
    log.foldrM Stmt.exec v = some (replay v log) := by
  induction log with
  | nil => rfl
  | cons o log ih =>
    rw [List.foldrM_cons, ih]
    rfl

theorem replay_append (v : SettlementRow V) (ops log : List (Stmt T V)) :
    replay v (ops ++ log) = replay (replay v log) ops := by
  rw [replay, List.foldr_append]
  rfl

theorem replay_status {v : SettlementRow V} {ops : List (Stmt T V)}
    (h : ∀ o ∈ ops, o.sets.status = none) : (replay v ops).status = v.status := by
  induction ops with
  | nil => rfl
  | cons o ops ih =>
    have ho := h o List.mem_cons_self
    have hops := ih fun o' ho' => h o' (List.mem_cons_of_mem _ ho')
    rw [replay, List.foldr_cons, Write.apply, ho]
    exact hops

variable {m : ℕ}

theorem take_since {ops log : List (Stmt T V)} (hm : m ≤ log.length) :
    (ops ++ log).take ((ops ++ log).length - m) = ops ++ log.take (log.length - m) := by
  have hlength : (ops ++ log).length - m = ops.length + (log.length - m) := by
    rw [List.length_append]
    omega
  rw [hlength, List.take_length_add_append]

structure RowSound (v₀ : SettlementRow V) (S : State T V) : Prop where
  replays : S.row.Replays Stmt.exec v₀
  owner : ∀ w, S.row.writer = some w → ∀ o ∈ w.ops, o.session = w.session
  log : Clean S.row.log → Along Stmt.Steps v₀ S.row.log
  writer : ∀ w, S.row.writer = some w → Clean (w.ops ++ S.row.log) →
    Along Stmt.Steps v₀ (w.ops ++ S.row.log)

theorem RowSound.committed (hs : RowSound v₀ S) : S.row.committed = replay v₀ S.row.log :=
  (Option.some.inj ((foldrM_exec v₀ S.row.log).symm.trans hs.replays.log)).symm

theorem RowSound.version (hs : RowSound v₀ S) {w : Writer T (Stmt T V) (SettlementRow V)}
    (hw : S.row.writer = some w) : w.version = replay S.row.committed w.ops :=
  (Option.some.inj ((foldrM_exec _ w.ops).symm.trans (hs.replays.writer w hw))).symm

/-! ## What a request has judged -/

variable [DecidableEq T]

def Untouched (S : State T V) (t : T) (m : ℕ) : Prop :=
  ∀ o ∈ S.row.log.take (S.row.log.length - m), o.session ≠ t → o.sets.status = none

structure Judged (S : State T V) (t : T) (m : ℕ) (s : TaskStatus) : Prop where
  past : m ≤ S.row.log.length
  current : Untouched S t m → s = (S.visible t).status

theorem judged_reading (S : State T V) (t : T) : Judged S t S.row.log.length (S.visible t).status :=
  ⟨le_rfl, fun _ => rfl⟩

variable {t : T}

theorem visible_of_newest {v : SettlementRow V} {ops : List (Stmt T V)}
    (h : S.row.newest t = some (v, ops)) : S.visible t = v := by
  rcases Row.newest_cases h with ⟨hw, rfl, -⟩ | hw
  · rw [State.visible, hw]
  · simp only [State.visible, hw, if_true]

theorem visible_of_other {w : Writer T (Stmt T V) (SettlementRow V)} (hw : S.row.writer = some w)
    (hne : w.session ≠ t) : S.visible t = S.row.committed := by
  simp only [State.visible, hw, if_neg hne]

variable {a : Db.Act T (Stmt T V)}

theorem Judged.row {s : TaskStatus} (hs : RowSound v₀ S) (hj : Judged S t m s)
    (hstep : S.row.step Stmt.exec a = some S'.row) (hupdate : ∀ o, a ≠ .update t o)
    (hrollback : a ≠ .rollback t) : Judged S' t m s := by
  generalize hrow : S'.row = r at hstep
  cases Row.step_cases hstep with
  | skip =>
    refine ⟨hrow ▸ hj.past, fun h => ?_⟩
    rw [Untouched, hrow] at h
    rw [State.visible, hrow]
    exact hj.current h
  | @update t' o v v' ops hnewest hexec =>
    have hne : t' ≠ t := fun h => hupdate o (h ▸ rfl)
    have hbefore : S.visible t = S.row.committed := by
      rcases Row.newest_cases hnewest with ⟨hw, -, -⟩ | hw
      · rw [State.visible, hw]
      · exact visible_of_other hw hne
    have hafter : S'.visible t = S.row.committed := by
      simp only [State.visible, hrow, if_neg hne]
    refine ⟨by rw [hrow]; exact hj.past, fun h => ?_⟩
    rw [Untouched, hrow] at h
    rw [hafter, ← hbefore]
    exact hj.current h
  | @commit w hw =>
    refine ⟨?_, fun h => ?_⟩
    · rw [hrow]
      exact Nat.le_trans hj.past (by simp)
    · rw [Untouched, hrow] at h
      simp only [take_since hj.past] at h
      have hold := hj.current fun o ho => h o (List.mem_append_right _ ho)
      rw [State.visible, hrow]
      by_cases hown : w.session = t
      · simpa only [State.visible, hw, if_pos hown] using hold
      · -- none of the statements that another request commits sets the status
        have hnone : ∀ o ∈ w.ops, o.sets.status = none := fun o ho =>
          h o (List.mem_append_left _ ho) (hs.owner w hw o ho ▸ hown)
        rw [visible_of_other hw hown] at hold
        rw [hold, hs.version hw, replay_status hnone]
  | @rollback w hw =>
    have hne : w.session ≠ t := fun h => hrollback (h ▸ rfl)
    refine ⟨hrow ▸ hj.past, fun h => ?_⟩
    rw [Untouched, hrow] at h
    rw [State.visible, hrow, hj.current h, visible_of_other hw hne]

/-! ## Requests along a run -/

/-- What holds of an `UPDATE` that `t` is about to issue. -/
structure Stmt.Sound (S : State T V) (t : T) (o : Stmt T V) : Prop where
  session : o.session = t
  revert : o.kind = .revert → o.sets.status = some o.base
  save : o.kind = .save → o.since ≤ o.loaded ∧ Judged S t o.loaded o.base ∧
    ∀ s', o.sets.status = some s' → Legal o.base s'

structure Request.Sound (S : State T V) (t : T) (q : Request T V) : Prop where
  state : ∀ x n, q.state = some (x, n) → n ≤ S.row.log.length
  existing : ∀ x m, q.existing = some (x, m) → Judged S t m x.status ∧
    ∀ y n, q.state = some (y, n) → n ≤ m
  todo : ∀ o, q.todo = some o → o.Sound S t

structure Sound (v₀ : SettlementRow V) (S : State T V) : Prop where
  row : RowSound v₀ S
  request : ∀ t, (S.request t).Sound S t

theorem save_legal [DecidableEq V] {existing next : SettlementRow V} {sets : Write V}
    (h : Settlement.save existing next = .ok sets) {s' : TaskStatus}
    (hs' : sets.status = some s') : Legal existing.status s' := by
  rw [Settlement.save] at h
  by_cases hguard : existing.status.canonical ≠ next.status.canonical ∧
      existing.status.canTransition next.status = false
  · rw [if_pos hguard] at h
    cases h
  · rw [if_neg hguard] at h
    split at h
    · cases h
    · obtain rfl := Except.ok.inj h
      obtain ⟨-, hs'⟩ | ⟨-, hs'⟩ := ite_eq_iff.mp hs'
      · cases hs'
      · cases hs'
        rw [Legal, TaskStatus.canTransition, TaskStatus.canonical_canonical]
        by_cases hsame : existing.status.canonical = next.status.canonical
        · exact .inl hsame
        · right
          by_contra hno
          exact hguard ⟨hsame, by simpa [TaskStatus.canTransition] using hno⟩

theorem Judged.congr {s : TaskStatus} (hrow : S'.row = S.row) (hj : Judged S t m s) :
    Judged S' t m s := by
  refine ⟨hrow ▸ hj.past, fun h => ?_⟩
  rw [Untouched, hrow] at h
  rw [State.visible, hrow]
  exact hj.current h

variable {q : Request T V}

theorem Request.Sound.transfer (hq : q.Sound S t) (hlength : S.row.log.length ≤ S'.row.log.length)
    (hjudged : ∀ m s, Judged S t m s → Judged S' t m s) : q.Sound S' t where
  state := fun x n h => Nat.le_trans (hq.state x n h) hlength
  existing := fun x m h => ⟨hjudged _ _ (hq.existing x m h).1, (hq.existing x m h).2⟩
  todo := fun o ho =>
    have hold := hq.todo o ho
    ⟨hold.session, hold.revert, fun hsave =>
      ⟨(hold.save hsave).1, hjudged _ _ (hold.save hsave).2.1, (hold.save hsave).2.2⟩⟩

theorem length_log_le {r r' : Row T (Stmt T V) (SettlementRow V)}
    (hstep : r.step Stmt.exec a = some r') : r.log.length ≤ r'.log.length := by
  cases Row.step_cases hstep with
  | skip | update | rollback => exact le_rfl
  | commit => simp

theorem Sound.put (hs : Sound v₀ S) (hq : q.Sound S t) : Sound v₀ (S.put t q) := by
  refine ⟨⟨hs.row.replays, hs.row.owner, hs.row.log, hs.row.writer⟩, fun t' => ?_⟩
  have hnew : ((S.put t q).request t').Sound S t' := by
    by_cases ht : t' = t
    · subst ht
      simpa only [State.put, update_self] using hq
    · simpa only [State.put, update_of_ne ht] using hs.request t'
  exact hnew.transfer le_rfl fun m s => Judged.congr rfl

theorem RowSound.update {t : T} {o : Stmt T V} (hs : RowSound v₀ S) (ho : o.Sound S t)
    (hstep : S.row.step Stmt.exec (.update t o) = some S'.row) : RowSound v₀ S' := by
  have hreplays := hs.replays.step hstep
  generalize hrow : S'.row = r at hstep
  cases Row.step_cases hstep with
  | skip => exact ⟨hreplays, hrow ▸ hs.owner, hrow ▸ hs.log, hrow ▸ hs.writer⟩
  | @update _ _ v v' ops hnewest hexec =>
    -- the open statements so far, all of them of this request
    have hopen : replay v₀ (ops ++ S.row.log) = v ∧ (∀ o' ∈ ops, o'.session = t) ∧
        (Clean (ops ++ S.row.log) → Along Stmt.Steps v₀ (ops ++ S.row.log)) := by
      rcases Row.newest_cases hnewest with ⟨-, rfl, rfl⟩ | hw
      · exact ⟨hs.committed.symm, fun _ h => absurd h List.not_mem_nil, hs.log⟩
      · refine ⟨?_, hs.owner _ hw, hs.writer _ hw⟩
        rw [replay_append, ← hs.committed]
        exact (hs.version hw).symm
    obtain ⟨hv, howner, halong⟩ := hopen
    refine ⟨hreplays, ?_, by rw [hrow]; exact hs.log, ?_⟩ <;> rw [hrow]
    · rintro w hw o' ho'
      cases hw
      rcases List.mem_cons.mp ho' with rfl | ho'
      · exact ho.session
      · exact howner o' ho'
    · intro w hw hall
      cases hw
      obtain ⟨hhead, hclean⟩ := hall
      refine ⟨?_, halong hclean⟩
      rw [Stmt.Steps]
      have hnext : replay v₀ (o :: (ops ++ S.row.log)) = o.sets.apply v := by rw [← hv]; rfl
      cases hkind : o.kind with
      | revert =>
        show (replay v₀ (o :: (ops ++ S.row.log))).status = o.base
        rw [hnext, Write.apply, ho.revert hkind]
        rfl
      | save =>
        obtain ⟨hsince, hjudged, hlegal⟩ := ho.save hkind
        show Legal (replay v₀ (ops ++ S.row.log)).status
          (replay v₀ (o :: (ops ++ S.row.log))).status
        rw [hnext, hv, Write.apply]
        cases hsets : o.sets.status with
        | none => exact .inl rfl
        | some s' =>
          have huntouched : Untouched S t o.loaded := by
            intro o' ho' hne
            rw [List.append_eq, take_since (Nat.le_trans hsince hjudged.past)] at hhead
            have hmem : o' ∈ S.row.log.take (S.row.log.length - o.since) :=
              (List.take_sublist_take_left (Nat.sub_le_sub_left hsince _)).subset ho'
            have hdisjoint := hhead o' (List.mem_append_right _ hmem) (ho.session ▸ hne)
            exact hdisjoint.1.resolve_right (by simp [hsets])
          have hbase := hjudged.current huntouched
          rw [visible_of_newest hnewest] at hbase
          exact hbase ▸ hlegal s' hsets

omit [DecidableEq T] in
theorem RowSound.of_idle (hreplays : S'.row.Replays Stmt.exec v₀) (hnone : S'.row.writer = none)
    (hlog : Clean S'.row.log → Along Stmt.Steps v₀ S'.row.log) : RowSound v₀ S' := by
  refine ⟨hreplays, fun w hw => ?_, hlog, fun w hw => ?_⟩ <;>
  · rw [hnone] at hw
    cases hw

theorem RowSound.finish (hs : RowSound v₀ S) (ha : ∀ t o, a ≠ .update t o)
    (hstep : S.row.step Stmt.exec a = some S'.row) : RowSound v₀ S' := by
  have hreplays := hs.replays.step hstep
  generalize hrow : S'.row = r at hstep
  cases Row.step_cases hstep with
  | skip => exact ⟨hreplays, hrow ▸ hs.owner, hrow ▸ hs.log, hrow ▸ hs.writer⟩
  | update => exact absurd rfl (ha _ _)
  | commit hw =>
    refine .of_idle hreplays (by rw [hrow]) ?_
    rw [hrow]
    exact hs.writer _ hw
  | rollback hw =>
    refine .of_idle hreplays (by rw [hrow]) ?_
    rw [hrow]
    exact hs.log

theorem Request.Sound.forget (hq : q.Sound S t) (hlength : S.row.log.length ≤ S'.row.log.length) :
    ({ q with todo := none, existing := none } : Request T V).Sound S' t where
  state := fun x n h => Nat.le_trans (hq.state x n h) hlength
  existing := fun _ _ h => absurd h (Option.some_ne_none _).symm
  todo := fun _ h => absurd h (Option.some_ne_none _).symm

theorem Sound.rowStep {row : Row T (Stmt T V) (SettlementRow V)} (hs : Sound v₀ S)
    (hstep : S.row.step Stmt.exec a = some row) (hrow : RowSound v₀ { S with row := row })
    (hother : ∀ t', t' ≠ t → (∀ o, a ≠ .update t' o) ∧ a ≠ .rollback t') :
    Sound v₀ ({ S with row := row }.put t { S.request t with todo := none, existing := none }) := by
  refine ⟨⟨hrow.replays, hrow.owner, hrow.log, hrow.writer⟩, fun t' => ?_⟩
  by_cases ht : t' = t
  · subst ht
    simpa only [State.put, update_self] using (hs.request t').forget (length_log_le hstep)
  · obtain ⟨hupdate, hrollback⟩ := hother t' ht
    simpa only [State.put, update_of_ne ht] using
      (hs.request t').transfer (length_log_le hstep) fun m s hj =>
        hj.row hs.row hstep hupdate hrollback

theorem Sound.step [DecidableEq V] {a : Act T V} (hs : Sound v₀ S)
    (hstep : Settlement.step S a = some S') : Sound v₀ S' := by
  cases a with
  | read t =>
    cases hstep
    have hq := hs.request t
    refine hs.put ⟨?_, fun _ _ h => absurd h (Option.some_ne_none _).symm, hq.todo⟩
    rintro x n h
    obtain ⟨-, rfl⟩ := Prod.mk.inj (Option.some.inj h)
    exact le_rfl
  | snapshot t =>
    cases hstep
    have hq := hs.request t
    exact hs.put ⟨hq.state, hq.existing, hq.todo⟩
  | load t =>
    cases hstep
    have hq := hs.request t
    refine hs.put ⟨hq.state, ?_, hq.todo⟩
    rintro x m h
    obtain ⟨rfl, rfl⟩ := Prod.mk.inj (Option.some.inj h)
    exact ⟨judged_reading S t, hq.state⟩
  | save t next transition =>
    have hq := hs.request t
    simp only [Settlement.step] at hstep
    split at hstep
    · rename_i state n existing m hstate hexisting
      split_ifs at hstep
      split at hstep
      · rename_i sets hsave
        cases hstep
        obtain ⟨hjudged, hafter⟩ := hq.existing _ _ hexisting
        refine hs.put ⟨hq.state, hq.existing, ?_⟩
        rintro o ho
        cases ho
        exact ⟨rfl, fun h => (by cases h), fun _ =>
          ⟨hafter _ _ hstate, hjudged, fun s' => save_legal hsave⟩⟩
      · cases hstep
    · cases hstep
  | revert t =>
    have hq := hs.request t
    obtain ⟨⟨prior, m⟩, -, rfl⟩ := Option.map_eq_some_iff.mp hstep
    refine hs.put ⟨hq.state, hq.existing, ?_⟩
    rintro o ho
    cases ho
    exact ⟨rfl, fun _ => rfl, fun h => (by cases h)⟩
  | issue t =>
    obtain ⟨o, ho, hmap⟩ := Option.bind_eq_some_iff.mp hstep
    obtain ⟨row, hrow, rfl⟩ := Option.map_eq_some_iff.mp hmap
    refine hs.rowStep hrow (hs.row.update ((hs.request t).todo o ho) hrow) fun t' ht => ?_
    refine ⟨fun o' h => ht ?_, fun h => by cases h⟩
    exact (Db.Act.update.inj h).1.symm
  | commit t =>
    obtain ⟨row, hrow, rfl⟩ := Option.map_eq_some_iff.mp hstep
    refine ⟨hs.row.finish (fun _ _ h => by cases h) hrow, fun t' => ?_⟩
    exact (hs.request t').transfer (length_log_le hrow) fun m s hj =>
      hj.row hs.row hrow (fun _ h => by cases h) fun h => by cases h
  | rollback t =>
    obtain ⟨row, hrow, rfl⟩ := Option.map_eq_some_iff.mp hstep
    refine hs.rowStep hrow (hs.row.finish (fun _ _ h => by cases h) hrow) fun t' ht => ?_
    refine ⟨fun o' h => (by cases h), fun h => ht ?_⟩
    exact (Db.Act.rollback.inj h).symm

theorem Reach.sound [DecidableEq V] {h : History T V} (hr : Reach v₀ h S) : Sound v₀ S := by
  refine hr.safe (P := Sound v₀) ?_ fun _ _ _ => Sound.step
  rintro S rfl
  have hnone {α : Type} {x : α} {P : Prop} (h : none = some x) : P :=
    absurd h (Option.some_ne_none x).symm
  exact ⟨⟨⟨rfl, fun _ h => hnone h⟩, fun _ h => hnone h, fun _ => trivial, fun _ h => hnone h⟩,
    fun t => ⟨fun _ _ h => hnone h, fun _ _ h => hnone h, fun _ h => hnone h⟩⟩

/-- **The committed statuses.** In every run of any number of requests the committed row is the
replay of the committed statements. -/
theorem committed_statuses_along [DecidableEq V] {h : History T V} (hr : Reach v₀ h S)
    (hclean : Clean S.row.log) :
    S.row.committed = replay v₀ S.row.log ∧ Along Stmt.Steps v₀ S.row.log :=
  have hs := (Reach.sound hr).row
  ⟨hs.committed, hs.log hclean⟩

namespace Sample

def delivered : SettlementRow Unit := ⟨.delivered, fun _ => ()⟩

def start : State ℕ Unit := ⟨⟨delivered, none, []⟩, fun _ => {}⟩

def judging (t : ℕ) (target : TaskStatus) : List (Act ℕ Unit) :=
  [.read t, .snapshot t, .load t, .save t ⟨target, fun _ => ()⟩ true]

def after (as : List (Act ℕ Unit)) : State ℕ Unit := stateAfter step as start

def rejected : List (Act ℕ Unit) :=
  judging 1 .settled ++ [.issue 1, .commit 1, .revert 1, .issue 1, .commit 1]

def raced : List (Act ℕ Unit) :=
  judging 1 .settled ++ judging 2 .disputed ++ [.issue 1, .commit 1, .issue 2, .commit 2]

end Sample

instance (s s' : TaskStatus) : Decidable (Legal s s') := inferInstanceAs (Decidable (_ ∨ _))

instance Along.decidable (R : Stmt T V → TaskStatus → TaskStatus → Prop)
    [∀ o s s', Decidable (R o s s')] (v₀ : SettlementRow V) : ∀ log, Decidable (Along R v₀ log)
  | [] => .isTrue trivial
  | _ :: log => @instDecidableAnd _ _ inferInstance (Along.decidable R v₀ log)

omit [DecidableEq T] in
theorem clean_of_session {log : List (Stmt T V)} (h : ∀ o ∈ log, o.session = t) : Clean log := by
  induction log with
  | nil => trivial
  | cons o log ih =>
    have hlog : ∀ o' ∈ log, o'.session = t := fun o' ho' => h o' (List.mem_cons_of_mem _ ho')
    refine ⟨fun o' ho' hne => absurd ?_ hne, ih hlog⟩
    exact (hlog o' (List.mem_of_mem_take ho')).trans (h o List.mem_cons_self).symm

open Sample

theorem committed_statuses_along_sample : Clean (after rejected).row.log ∧
      Along Stmt.Steps delivered (after rejected).row.log := by
  have hclean : Clean (after rejected).row.log :=
    clean_of_session (t := 1) (by decide +kernel)
  exact ⟨hclean, (committed_statuses_along (.stateAfter (.start rfl)) hclean).2⟩

/-- **A step that the chain rejects** is committed and taken back. -/
theorem committed_statuses_off_the_table : (Reach delivered (record step rejected start [])
        (after rejected) ∧
      ¬ Along (fun _ => Legal) delivered (after rejected).row.log) ∧
    Reach delivered (record step raced start []) (after raced) ∧
      ¬ Along (fun _ => Legal) delivered (after raced).row.log :=
  ⟨⟨.stateAfter (.start rfl), by decide +kernel⟩, .stateAfter (.start rfl), by decide +kernel⟩

end Karma.Settlement
