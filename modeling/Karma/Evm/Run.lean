import Mathlib.Tactic.Common

/-! # Runs of a transition system, with their history

`Run init step h s`: the system with the starting states `init` and the step function `step : σ → α
→ Option σ` can get to `s` with the history `h`, the list of the steps taken, the newest first, each
with the state before and after it. -/

namespace Karma.Evm

variable {σ α : Type}

theorem guarded_iff {c : Prop} [Decidable c] {s s' : σ} :
    (if c then some s else none) = some s' ↔ c ∧ s = s' := by
  rw [Option.ite_none_right_eq_some, Option.some.injEq]

/-- One step of a history: the action and the states around it. -/
structure Entry (σ α : Type) where
  pre : σ
  act : α
  post : σ

inductive Run (init : σ → Prop) (step : σ → α → Option σ) : List (Entry σ α) → σ → Prop
  | start {s : σ} : init s → Run init step [] s
  | next {h : List (Entry σ α)} {s s' : σ} {a : α} :
      Run init step h s → step s a = some s' → Run init step (⟨s, a, s'⟩ :: h) s'

variable {init : σ → Prop} {step : σ → α → Option σ} {h : List (Entry σ α)} {s s' : σ}

theorem Run.invariant {P : List (Entry σ α) → σ → Prop} (hinit : ∀ s, init s → P [] s)
    (hstep : ∀ h s a s', Run init step h s → P h s → step s a = some s' → P (⟨s, a, s'⟩ :: h) s')
    (hr : Run init step h s) : P h s := by
  induction hr with
  | start h0 => exact hinit _ h0
  | next hr hs ih => exact hstep _ _ _ _ hr ih hs

variable {P : σ → Prop}

theorem Run.safe (hinit : ∀ s, init s → P s) (hstep : ∀ s a s', P s → step s a = some s' → P s')
    (hr : Run init step h s) : P s :=
  hr.invariant (P := fun _ s => P s) hinit fun _ _ _ _ _ => hstep _ _ _

variable {e : Entry σ α}

theorem Run.of_append {later : List (Entry σ α)} (hr : Run init step (later ++ e :: h) s) :
    Run init step h e.pre ∧ step e.pre e.act = some e.post := by
  induction later generalizing s with
  | nil =>
    cases hr with
    | next hr hs => exact ⟨hr, hs⟩
  | cons e' later ih =>
    cases hr with
    | next hr _ => exact ih hr

theorem Run.since {later : List (Entry σ α)} (hr : Run init step (later ++ e :: h) s)
    (he : P e.post)
    (hstep : ∀ e' ∈ later, ∀ h', Run init step h' e'.pre → step e'.pre e'.act = some e'.post →
      P e'.pre → P e'.post) : P s ∧ ∀ e' ∈ later, P e'.pre := by
  induction later generalizing s with
  | nil =>
    cases hr with
    | next _ _ => exact ⟨he, fun _ h => absurd h List.not_mem_nil⟩
  | cons e' later ih =>
    cases hr with
    | next hr hs =>
      obtain ⟨hpre, hbefore⟩ := ih hr fun e' he' => hstep e' (List.mem_cons_of_mem _ he')
      refine ⟨hstep _ List.mem_cons_self _ hr hs hpre, fun e'' he'' => ?_⟩
      rcases List.mem_cons.mp he'' with rfl | he''
      · exact hpre
      · exact hbefore e'' he''

theorem Run.of_mem (hr : Run init step h s) (he : e ∈ h) :
    ∃ h', Run init step h' e.pre ∧ step e.pre e.act = some e.post := by
  obtain ⟨later, before, rfl⟩ := List.append_of_mem he
  exact ⟨before, hr.of_append⟩

/-! ## What holds throughout a run -/

/-- `P` holds at the end of the run and at every point before, each with its own history. -/
def Throughout (P : List (Entry σ α) → σ → Prop) : List (Entry σ α) → σ → Prop
  | [], s => P [] s
  | e :: h, s => P (e :: h) s ∧ Throughout P h e.pre

/-- Every step of the history meets the condition `C`, which may look at the history before it. -/
def Each (C : List (Entry σ α) → Entry σ α → Prop) : List (Entry σ α) → Prop
  | [] => True
  | e :: h => C h e ∧ Each C h

/-- Some step of the history meets the condition `C`, which may look at the history before it. -/
def Sometime (C : List (Entry σ α) → Entry σ α → Prop) : List (Entry σ α) → Prop
  | [] => False
  | e :: h => C h e ∨ Sometime C h

variable {h : List (Entry σ α)}

theorem Sometime.imp {C D : List (Entry σ α) → Entry σ α → Prop}
    (hCD : ∀ h e, C h e → Sometime D (e :: h)) (hC : Sometime C h) : Sometime D h := by
  induction h with
  | nil => exact hC
  | cons e h ih =>
    rcases hC with hC | hC
    · exact hCD h e hC
    · exact Or.inr (ih hC)

variable {C : Entry σ α → Prop}

theorem each_iff : Each (fun _ e => C e) h ↔ ∀ e ∈ h, C e := by
  induction h with
  | nil => simp [Each]
  | cons e h ih => simp [Each, ih]

theorem Run.each_congr {C D : List (Entry σ α) → Entry σ α → Prop}
    (hCD : ∀ h s a s', Run init step h s → step s a = some s' → (C h ⟨s, a, s'⟩ ↔ D h ⟨s, a, s'⟩))
    (hr : Run init step h s) : Each C h ↔ Each D h := by
  induction hr with
  | start h0 => exact Iff.rfl
  | next hr hs ih => exact and_congr (hCD _ _ _ _ hr hs) ih

theorem Run.each_iff_inv {C D : List (Entry σ α) → Entry σ α → Prop}
    {J : List (Entry σ α) → σ → Prop} (hinit : ∀ s, init s → J [] s)
    (hstep : ∀ h s a s', J h s → step s a = some s' → C h ⟨s, a, s'⟩ → J (⟨s, a, s'⟩ :: h) s')
    (hCD : ∀ h s a s', J h s → step s a = some s' → (C h ⟨s, a, s'⟩ ↔ D h ⟨s, a, s'⟩))
    (hr : Run init step h s) : Each C h ↔ Each D h := by
  suffices hJ : (Each C h ↔ Each D h) ∧ (Each C h → J h s) from hJ.1
  induction hr with
  | start h0 => exact ⟨Iff.rfl, fun _ => hinit _ h0⟩
  | next hr hs ih =>
    refine ⟨?_, fun hC => hstep _ _ _ _ (ih.2 hC.2) hs hC.1⟩
    simp only [Each, ← ih.1]
    exact and_congr_left fun hC => hCD _ _ _ _ (ih.2 hC) hs

theorem Run.throughout_congr {P Q : List (Entry σ α) → σ → Prop}
    (hPQ : ∀ h s, Run init step h s → (P h s ↔ Q h s)) (hr : Run init step h s) :
    Throughout P h s ↔ Throughout Q h s := by
  induction hr with
  | start h0 => exact hPQ _ _ (.start h0)
  | next hr hs ih => exact and_congr (hPQ _ _ (hr.next hs)) ih

theorem Throughout.last {P : List (Entry σ α) → σ → Prop} (hP : Throughout P h s) : P h s := by
  cases h with
  | nil => exact hP
  | cons e h => exact hP.1

theorem throughout_iff_pre :
    Throughout (fun _ s => P s) h s ↔ P s ∧ ∀ e ∈ h, P e.pre := by
  induction h generalizing s with
  | nil => simp [Throughout]
  | cons e h ih => simp [Throughout, ih]

theorem Run.throughout_iff_inv {P J : List (Entry σ α) → σ → Prop}
    {C : List (Entry σ α) → Entry σ α → Prop} {H : List (Entry σ α) → Prop}
    (htail : ∀ e h, H (e :: h) → H h) (hinit : ∀ s, init s → J [] s)
    (hstep : ∀ h s a s', Run init step h s → H (⟨s, a, s'⟩ :: h) → J h s →
      step s a = some s' → C h ⟨s, a, s'⟩ → J (⟨s, a, s'⟩ :: h) s')
    (hinv : ∀ h s, J h s → P h s)
    (hnec : ∀ h s a s', Run init step h s → J h s → step s a = some s' →
      P (⟨s, a, s'⟩ :: h) s' → C h ⟨s, a, s'⟩)
    (hr : Run init step h s) (hH : H h) : Throughout P h s ↔ Each C h := by
  -- the invariant holds at the end of every run with `C`, and so throughout
  have hlast : ∀ {h : List (Entry σ α)} {s : σ}, Run init step h s → H h → Each C h → J h s := by
    intro h s hr
    induction hr with
    | start h0 => exact fun _ _ => hinit _ h0
    | next hr hs ih =>
      intro hH hC
      exact hstep _ _ _ _ hr hH (ih (htail _ _ hH) hC.2) hs hC.1
  induction hr with
  | start h0 => exact ⟨fun _ => trivial, fun _ => hinv _ _ (hinit _ h0)⟩
  | next hr hs ih =>
    have hH' := htail _ _ hH
    constructor
    · intro hP
      have hC := (ih hH').mp hP.2
      exact ⟨hnec _ _ _ _ hr (hlast hr hH' hC) hs hP.1, hC⟩
    · intro hC
      exact ⟨hinv _ _ (hlast (hr.next hs) hH hC), (ih hH').mpr hC.2⟩

theorem Run.throughout_iff {P J : List (Entry σ α) → σ → Prop}
    {C : List (Entry σ α) → Entry σ α → Prop} {H : List (Entry σ α) → Prop}
    (htail : ∀ e h, H (e :: h) → H h) (hinit : ∀ s, init s → J [] s)
    (hstep : ∀ h s a s', Run init step h s → H (⟨s, a, s'⟩ :: h) → J h s →
      step s a = some s' → C h ⟨s, a, s'⟩ → J (⟨s, a, s'⟩ :: h) s')
    (hinv : ∀ h s, J h s → P h s)
    (hnec : ∀ h s a s', Run init step h s → P h s → step s a = some s' →
      P (⟨s, a, s'⟩ :: h) s' → C h ⟨s, a, s'⟩)
    (hr : Run init step h s) (hH : H h) : Throughout P h s ↔ Each C h :=
  hr.throughout_iff_inv htail hinit hstep hinv
    (fun h s a s' hr hJ hs hP => hnec h s a s' hr (hinv h s hJ) hs hP) hH

theorem Run.throughout_iff_step (hinit : ∀ s, init s → P s)
    (hstep : ∀ h s a s', Run init step h s → P s → step s a = some s' → (P s' ↔ C ⟨s, a, s'⟩))
    (hr : Run init step h s) : Throughout (fun _ s => P s) h s ↔ ∀ e ∈ h, C e := by
  refine (hr.throughout_iff (J := fun _ s => P s) (C := fun _ e => C e) (H := fun _ => True)
    (fun _ _ _ => trivial) hinit ?_ (fun _ _ hP => hP) ?_ trivial).trans each_iff
  · exact fun h s a s' hr _ hP hs hC => (hstep h s a s' hr hP hs).mpr hC
  · exact fun h s a s' hr hP hs hP' => (hstep h s a s' hr hP hs).mp hP'

theorem Run.throughout_iff_sound {P J : σ → Prop} (hinit : ∀ s, init s → J s)
    (hstep : ∀ s a s', J s → step s a = some s' → C ⟨s, a, s'⟩ → J s') (hinv : ∀ s, J s → P s)
    (hnec : ∀ s a s', J s → step s a = some s' → P s' → C ⟨s, a, s'⟩) (hr : Run init step h s) :
    Throughout (fun _ s => P s) h s ↔ ∀ e ∈ h, C e :=
  (hr.throughout_iff_inv (J := fun _ s => J s) (C := fun _ e => C e) (H := fun _ => True)
    (fun _ _ _ => trivial) hinit (fun _ _ _ _ _ _ => hstep _ _ _) (fun _ => hinv)
    (fun _ _ _ _ _ => hnec _ _ _) trivial).trans each_iff

theorem Run.throughout_of {P J : σ → Prop} (hinit : ∀ s, init s → J s)
    (hstep : ∀ s a s', J s → step s a = some s' → C ⟨s, a, s'⟩ → J s') (hinv : ∀ s, J s → P s)
    (hr : Run init step h s) (hC : ∀ e ∈ h, C e) : Throughout (fun _ s => P s) h s := by
  suffices hJ : J s ∧ Throughout (fun _ s => P s) h s from hJ.2
  induction hr with
  | start h0 => exact ⟨hinit _ h0, hinv _ (hinit _ h0)⟩
  | next hr hs ih =>
    obtain ⟨hlast, hbefore⟩ := List.forall_mem_cons.mp hC
    have hJ := hstep _ _ _ (ih hbefore).1 hs hlast
    exact ⟨hJ, hinv _ hJ, (ih hbefore).2⟩

/-! ## Runs by lists of actions -/

def steps (step : σ → α → Option σ) : List α → σ → Option σ
  | [], s => some s
  | a :: as, s => (step s a).bind (steps step as)

def record (step : σ → α → Option σ) : List α → σ → List (Entry σ α) → List (Entry σ α)
  | [], _, h => h
  | a :: as, s, h =>
    match step s a with
    | some s' => record step as s' (⟨s, a, s'⟩ :: h)
    | none => h

variable {as : List α}

theorem Run.steps (hr : Run init step h s) (hs : steps step as s = some s') :
    Run init step (record step as s h) s' := by
  induction as generalizing s h with
  | nil =>
    obtain rfl : s = s' := by simpa [Evm.steps] using hs
    exact hr
  | cons a as ih =>
    obtain ⟨t, hst, hrest⟩ := Option.bind_eq_some_iff.mp hs
    rw [record, hst]
    exact ih (hr.next hst) hrest

def stateAfter (step : σ → α → Option σ) (as : List α) (s : σ) : σ := (steps step as s).getD s

/-- A run that goes on with `as`; for concrete steps it is evaluated that they can be taken. -/
theorem Run.stateAfter (hr : Run init step h s)
    (hsome : (Evm.steps step as s).isSome = true := by decide +kernel) :
    Run init step (record step as s h) (Evm.stateAfter step as s) := by
  obtain ⟨t, ht⟩ := Option.isSome_iff_exists.mp hsome
  rw [Evm.stateAfter, ht]
  exact hr.steps ht

theorem record_append (as : List α) (s : σ) (h : List (Entry σ α)) :
    record step as s h = record step as s [] ++ h := by
  induction as generalizing s h with
  | nil => rfl
  | cons a as ih =>
    simp only [record]
    split
    case h_1 s' _ => rw [ih s' (_ :: h), ih s' [_], List.append_assoc, List.singleton_append]
    case h_2 => rfl

theorem steps_append (as bs : List α) (s : σ) :
    steps step (as ++ bs) s = (steps step as s).bind (steps step bs) := by
  induction as generalizing s with
  | nil => rfl
  | cons a as ih =>
    simp only [List.cons_append, steps]
    cases step s a with
    | none => rfl
    | some t => exact ih t

theorem record_split {as bs : List α} {a : α} (hs : steps step (as ++ a :: bs) s = some s') :
    ∃ t t', steps step as s = some t ∧ step t a = some t' ∧ steps step bs t' = some s' ∧
      record step (as ++ a :: bs) s h =
        record step bs t' [] ++ ⟨t, a, t'⟩ :: record step as s h := by
  rw [steps_append] at hs
  obtain ⟨t, hfirst, hrest⟩ := Option.bind_eq_some_iff.mp hs
  obtain ⟨t', hstep, hlast⟩ := Option.bind_eq_some_iff.mp hrest
  refine ⟨t, t', hfirst, hstep, hlast, ?_⟩
  induction as generalizing s h with
  | nil =>
    obtain rfl : s = t := by simpa [steps] using hfirst
    simp only [List.nil_append, record, hstep]
    exact record_append ..
  | cons b as ih =>
    obtain ⟨u, hu, hmore⟩ := Option.bind_eq_some_iff.mp hfirst
    simp only [List.cons_append, record, hu]
    exact ih (by rw [hmore]; exact hrest) hmore

theorem record_forall {P : Entry σ α → Prop} (hold : ∀ e ∈ h, P e)
    (hact : ∀ a ∈ as, ∀ s s', P ⟨s, a, s'⟩) : ∀ e ∈ record step as s h, P e := by
  induction as generalizing s h with
  | nil => exact hold
  | cons a as ih =>
    rw [record]
    split
    case h_1 s' _ =>
      refine ih (fun e he => ?_) fun b hb => hact b (List.mem_cons_of_mem _ hb)
      rcases List.mem_cons.mp he with rfl | he
      · exact hact a List.mem_cons_self s s'
      · exact hold e he
    case h_2 => exact hold

theorem steps_induct (hstep : ∀ s, ∀ a ∈ as, ∀ s', P s → step s a = some s' → P s') (hP : P s)
    (hs : steps step as s = some s') : P s' := by
  induction as generalizing s with
  | nil =>
    obtain rfl : s = s' := by simpa [steps] using hs
    exact hP
  | cons a as ih =>
    obtain ⟨t, hst, hrest⟩ := Option.bind_eq_some_iff.mp hs
    have ht : P t := hstep s a List.mem_cons_self t hP hst
    exact ih (fun s a ha => hstep s a (List.mem_cons_of_mem _ ha)) ht hrest

end Karma.Evm
