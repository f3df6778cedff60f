import Karma.Evm.Run
import Mathlib.Data.List.Basic

/-! # One row of a database under read committed

A statement `o` is a guarded `UPDATE`: on the version `v` of the row it yields `exec o v`, where
`none` is a row count of zero. -/

namespace Karma.Db

open Karma.Evm

variable {T O V : Type}

structure Writer (T O V : Type) where
  session : T
  version : V
  ops : List O

structure Row (T O V : Type) where
  committed : V
  writer : Option (Writer T O V) := none
  log : List O := []

inductive Act (T O : Type)
  | update (t : T) (o : O)
  | commit (t : T)
  | rollback (t : T)

def Row.newest [DecidableEq T] (r : Row T O V) (t : T) : Option (V × List O) :=
  match r.writer with
  | none => some (r.committed, [])
  | some w => if w.session = t then some (w.version, w.ops) else none

variable [DecidableEq T] (exec : O → V → Option V)

def Row.step (r : Row T O V) : Act T O → Option (Row T O V)
  | .update t o =>
    (r.newest t).map fun own =>
      match exec o own.1 with
      | some v' => { r with writer := some ⟨t, v', o :: own.2⟩ }
      | none => r
  | .commit t =>
    match r.writer with
    | some w => some (if w.session = t then ⟨w.version, none, w.ops ++ r.log⟩ else r)
    | none => some r
  | .rollback t =>
    match r.writer with
    | some w => some (if w.session = t then { r with writer := none } else r)
    | none => some r

variable {exec} {r r' : Row T O V}

inductive Row.Step (exec : O → V → Option V) (r : Row T O V) : Act T O → Row T O V → Prop
  | skip {a : Act T O} : Step exec r a r
  | update {t : T} {o : O} {v v' : V} {ops : List O} (hnewest : r.newest t = some (v, ops))
      (hexec : exec o v = some v') :
      Step exec r (.update t o) { r with writer := some ⟨t, v', o :: ops⟩ }
  | commit {w : Writer T O V} (hwriter : r.writer = some w) :
      Step exec r (.commit w.session) ⟨w.version, none, w.ops ++ r.log⟩
  | rollback {w : Writer T O V} (hwriter : r.writer = some w) :
      Step exec r (.rollback w.session) { r with writer := none }

theorem Row.step_cases {a : Act T O} (h : r.step exec a = some r') : Row.Step exec r a r' := by
  cases a with
  | update t o =>
    obtain ⟨⟨v, ops⟩, hnewest, rfl⟩ := Option.map_eq_some_iff.mp h
    cases hexec : exec o v with
    | none => exact .skip
    | some v' => exact .update hnewest hexec
  | commit t =>
    cases hw : r.writer with
    | none =>
      rw [Row.step, hw] at h
      cases h
      exact .skip
    | some w =>
      rw [Row.step, hw] at h
      cases h
      split_ifs with ht
      · subst ht
        exact .commit hw
      · exact .skip
  | rollback t =>
    cases hw : r.writer with
    | none =>
      rw [Row.step, hw] at h
      cases h
      exact .skip
    | some w =>
      rw [Row.step, hw] at h
      cases h
      split_ifs with ht
      · subst ht
        exact .rollback hw
      · exact .skip

theorem Row.newest_cases {t : T} {v : V} {ops : List O} (h : r.newest t = some (v, ops)) :
    (r.writer = none ∧ v = r.committed ∧ ops = []) ∨ r.writer = some ⟨t, v, ops⟩ := by
  rw [Row.newest] at h
  cases hw : r.writer with
  | none =>
    rw [hw] at h
    obtain ⟨rfl, rfl⟩ := Prod.mk.inj (Option.some.inj h)
    exact .inl ⟨rfl, rfl, rfl⟩
  | some w =>
    simp only [hw] at h
    split_ifs at h with ht
    obtain ⟨rfl, rfl⟩ := Prod.mk.inj (Option.some.inj h)
    exact .inr (by rw [← ht])

structure Row.Replays (exec : O → V → Option V) (v₀ : V) (r : Row T O V) : Prop where
  log : r.log.foldrM exec v₀ = some r.committed
  writer : ∀ w, r.writer = some w → w.ops.foldrM exec r.committed = some w.version

theorem Row.Replays.step {v₀ : V} {a : Act T O} (hr : r.Replays exec v₀)
    (h : r.step exec a = some r') : r'.Replays exec v₀ := by
  cases Row.step_cases h with
  | skip => exact hr
  | @update t o v v' ops hnewest hexec =>
    refine ⟨hr.log, fun w hw => ?_⟩
    cases hw
    have hops : ops.foldrM exec r.committed = some v := by
      rcases Row.newest_cases hnewest with ⟨-, rfl, rfl⟩ | hwriter
      · rfl
      · exact hr.writer _ hwriter
    rw [List.foldrM_cons, hops]
    exact hexec
  | commit hwriter =>
    refine ⟨?_, fun w hw => absurd hw (Option.some_ne_none _).symm⟩
    rw [List.foldrM_append, hr.log]
    exact hr.writer _ hwriter
  | rollback hwriter =>
    exact ⟨hr.log, fun w hw => absurd hw (Option.some_ne_none _).symm⟩

/-! ## Facts about every version -/

structure Row.Versions (P : V → Prop) (r : Row T O V) : Prop where
  committed : P r.committed
  writer : ∀ w, r.writer = some w → P w.version

theorem Row.Versions.newest {P : V → Prop} (hr : r.Versions P) {t : T} {v : V} {ops : List O}
    (h : r.newest t = some (v, ops)) : P v := by
  rcases Row.newest_cases h with ⟨-, rfl, -⟩ | hwriter
  · exact hr.committed
  · exact hr.writer _ hwriter

theorem Row.Versions.step {P : V → Prop} {a : Act T O} (hr : r.Versions P)
    (hkeep : ∀ t o v v' ops, a = .update t o → r.newest t = some (v, ops) →
      exec o v = some v' → P v → P v')
    (h : r.step exec a = some r') : r'.Versions P := by
  cases Row.step_cases h with
  | skip => exact hr
  | update hnewest hexec =>
    refine ⟨hr.committed, fun w hw => ?_⟩
    cases hw
    exact hkeep _ _ _ _ _ rfl hnewest hexec (hr.newest hnewest)
  | commit hwriter =>
    exact ⟨hr.writer _ hwriter, fun w hw => absurd hw (Option.some_ne_none _).symm⟩
  | rollback hwriter =>
    exact ⟨hr.committed, fun w hw => absurd hw (Option.some_ne_none _).symm⟩

structure Row.Logged (Q : O → Prop) (r : Row T O V) : Prop where
  log : ∀ o ∈ r.log, Q o
  writer : ∀ w, r.writer = some w → ∀ o ∈ w.ops, Q o

theorem Row.Logged.step {Q : O → Prop} {a : Act T O} (hr : r.Logged Q)
    (hmatch : ∀ t o v v' ops, a = .update t o → r.newest t = some (v, ops) →
      exec o v = some v' → Q o)
    (h : r.step exec a = some r') : r'.Logged Q := by
  cases Row.step_cases h with
  | skip => exact hr
  | update hnewest hexec =>
    refine ⟨hr.log, fun w hw o ho => ?_⟩
    cases hw
    rcases List.mem_cons.mp ho with rfl | ho
    · exact hmatch _ _ _ _ _ rfl hnewest hexec
    · rcases Row.newest_cases hnewest with ⟨-, -, rfl⟩ | hwriter
      · exact absurd ho List.not_mem_nil
      · exact hr.writer _ hwriter o ho
  | commit hwriter =>
    refine ⟨fun o ho => ?_, fun w hw => absurd hw (Option.some_ne_none _).symm⟩
    exact (List.mem_append.mp ho).elim (hr.writer _ hwriter o) (hr.log o)
  | rollback hwriter =>
    exact ⟨hr.log, fun w hw => absurd hw (Option.some_ne_none _).symm⟩

end Karma.Db
