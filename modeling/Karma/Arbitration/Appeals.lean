import Karma.Arbitration.Requests

/-! # From a decision to the money

A decided case is scheduled by `execute`, paid by `execute_due` or the tick once its appeal window
is over, and reopened by an appeal before that. -/

namespace Karma.Arbitration

open Karma.Evm Function

/-- The columns of `arbitration_cases` that these requests read or write. -/
structure Ruling where
  case : Case
  executeAfter : Option ℕ
  voteRound : ℕ
  appealCount : ℕ

namespace Ruling

variable (r : Ruling) (now : ℕ)

def decided : Bool := r.case.status = .decided && r.case.decidedOutcome.isSome

def due : Bool := r.decided && r.executeAfter.all (· ≤ now)

/-- The gate of `execute_due_arbitration_cases`. -/
def ticks : Bool := r.decided && r.executeAfter.any (· ≤ now)

def appealable (maxAppeals : ℕ) : Bool :=
  r.case.status = .decided && r.executeAfter.any (now < ·) &&
    (maxAppeals = 0 || r.appealCount < maxAppeals)

def execute : Ruling := { r with case := { r.case with status := .executed } }

def schedule (window : ℕ) : Ruling :=
  if r.executeAfter = none then { r with executeAfter := some (now + window) } else r

def appeal : Ruling := ⟨⟨.voting, none, none⟩, none, r.voteRound + 1, r.appealCount + 1⟩

end Ruling

variable {I : Type} (required window maxAppeals : ℕ)

def Ruling.vote (r : Ruling) (seen : List (Vote I)) : Option Ruling :=
  if r.case.status = .decided ∨ r.case.status = .executed then none
  else some { r with case := r.case.counted required seen }

theorem Ruling.status_vote {required : ℕ} {r r' : Ruling} {seen : List (Vote I)}
    (h : r.vote required seen = some r') :
    (r.case.status ≠ .decided ∧ r.case.status ≠ .executed) ∧ r'.case.status ≠ .executed ∧
      r'.executeAfter = r.executeAfter ∧ r'.voteRound = r.voteRound := by
  unfold Ruling.vote at h
  split_ifs at h with hstatus
  cases h
  refine ⟨not_or.mp hstatus, ?_, rfl, rfl⟩
  unfold Case.counted
  split
  · simp
  · split_ifs
    · simp
    · exact (not_or.mp hstatus).2

/-! ## The appeal window, request after request -/

structure Docket where
  ruling : Ruling
  now : ℕ

inductive Docket.Act (I : Type)
  | vote (seen : List (Vote I))
  | execute
  | executeDue
  | tick
  /-- An appeal of a party, with the chain readable and no payee there. -/
  | appeal
  | advance (d : ℕ)

def Docket.step (s : Docket) : Docket.Act I → Option Docket
  | .vote seen => (s.ruling.vote required seen).map ({ s with ruling := · })
  | .execute =>
    if s.ruling.decided then
      some { s with ruling :=
        if window = 0 then s.ruling.execute else s.ruling.schedule s.now window }
    else none
  | .executeDue => if s.ruling.due s.now then some { s with ruling := s.ruling.execute } else none
  | .tick => if s.ruling.ticks s.now then some { s with ruling := s.ruling.execute } else none
  | .appeal =>
    if 0 < window ∧ s.ruling.appealable s.now maxAppeals then
      some { s with ruling := s.ruling.appeal }
    else none
  | .advance d => some { s with now := s.now + d }

abbrev Docket.History (I : Type) := List (Entry Docket (Docket.Act I))

abbrev Docket.Reach (h : Docket.History I) (s : Docket) : Prop :=
  Run (fun s => s.ruling.case.Undecided ∧ s.ruling.executeAfter = none)
    (Docket.step required window maxAppeals) h s

def Pays (e : Entry Docket (Docket.Act I)) : Prop :=
  e.post.ruling.case.status = .executed ∧ e.pre.ruling.case.status ≠ .executed

def Schedules (e : Entry Docket (Docket.Act I)) : Prop :=
  e.pre.ruling.executeAfter = none ∧ e.post.ruling.executeAfter ≠ none

instance (e : Entry Docket (Docket.Act I)) : Decidable (Pays e) :=
  inferInstanceAs (Decidable (_ ∧ _))

instance (e : Entry Docket (Docket.Act I)) : Decidable (Schedules e) :=
  inferInstanceAs (Decidable (_ ∧ _))

def Served (window : ℕ) (h : Docket.History I) (e : Entry Docket (Docket.Act I)) : Prop :=
  ∃ e₀ ∈ h, Schedules e₀ ∧ e₀.pre.ruling.voteRound = e.pre.ruling.voteRound ∧
    e₀.pre.ruling.case = e.pre.ruling.case ∧ e₀.pre.now + window ≤ e.pre.now

structure Kept (window : ℕ) (h : Docket.History I) (s : Docket) : Prop where
  scheduled : ∀ t, s.ruling.executeAfter = some t → ∃ e₀ ∈ h, Schedules e₀ ∧
    e₀.pre.ruling.voteRound = s.ruling.voteRound ∧ e₀.pre.now + window = t ∧
    (s.ruling.case.status = .decided → e₀.pre.ruling.case = s.ruling.case)
  current : ∀ e₀ ∈ h, Schedules e₀ → e₀.pre.ruling.voteRound ≤ s.ruling.voteRound ∧
    (e₀.pre.ruling.voteRound = s.ruling.voteRound →
      s.ruling.executeAfter = some (e₀.pre.now + window))
  status : ∀ t, s.ruling.executeAfter = some t → s.ruling.case.status = .decided ∨
    s.ruling.case.status = .executed ∧ t ≤ s.now

variable {required window maxAppeals} {h : Docket.History I} {s s' : Docket} {a : Docket.Act I}

theorem Kept.quiet (hk : Kept window h s) (hnow : s.now ≤ s'.now)
    (hafter : s'.ruling.executeAfter = s.ruling.executeAfter)
    (hround : s'.ruling.voteRound = s.ruling.voteRound)
    (hcase : s'.ruling.case = s.ruling.case ∨ s.ruling.executeAfter = none ∨
      s'.ruling.case.status = .executed ∧ s.ruling.executeAfter.all (· ≤ s'.now)) :
    Kept window (⟨s, a, s'⟩ :: h) s' := by
  have hnot : ¬ Schedules ⟨s, a, s'⟩ := fun hs => hs.2 (hafter.trans hs.1)
  refine ⟨fun t ht => ?_, ?_, fun t ht => ?_⟩
  · rw [hafter] at ht
    obtain ⟨e₀, he₀, hs, hr, hn, hc⟩ := hk.scheduled t ht
    refine ⟨e₀, List.mem_cons_of_mem _ he₀, hs, hr.trans hround.symm, hn, fun hd => ?_⟩
    rcases hcase with heq | hnone | ⟨hex, -⟩
    · rw [heq] at hd ⊢
      exact hc hd
    · simp [hnone] at ht
    · simp [hex] at hd
  · rw [List.forall_mem_cons, hround, hafter]
    exact ⟨fun hs => absurd hs hnot, hk.current⟩
  · rw [hafter] at ht
    rcases hcase with heq | hnone | ⟨hex, hall⟩
    · rw [heq]
      exact (hk.status t ht).imp_right fun ⟨hex, hle⟩ => ⟨hex, hle.trans hnow⟩
    · simp [hnone] at ht
    · exact Or.inr ⟨hex, by simpa [ht] using hall⟩

theorem Kept.step (hw : 0 < window) (hk : Kept window h s)
    (hs : s.step required window maxAppeals a = some s') : Kept window (⟨s, a, s'⟩ :: h) s' := by
  cases a with
  | vote seen =>
    obtain ⟨r, hr, rfl⟩ := Option.map_eq_some_iff.mp hs
    obtain ⟨hopen, -, hafter, hround⟩ := Ruling.status_vote hr
    refine hk.quiet le_rfl hafter hround (Or.inr (Or.inl ?_))
    cases ht : s.ruling.executeAfter with
    | none => rfl
    | some t => rcases hk.status t ht with h | ⟨h, -⟩ <;> simp_all
  | execute =>
    simp only [Docket.step, hw.ne', if_false, guarded_iff] at hs
    obtain ⟨hdec, rfl⟩ := hs
    cases ht : s.ruling.executeAfter with
    | some t =>
      have hsame : s.ruling.schedule s.now window = s.ruling := by simp [Ruling.schedule, ht]
      rw [hsame]
      exact hk.quiet le_rfl rfl rfl (Or.inl rfl)
    | none =>
      -- the step is the one that schedules, and there was none in this round before
      have hsched : s.ruling.schedule s.now window =
          { s.ruling with executeAfter := some (s.now + window) } := by
        simp [Ruling.schedule, ht]
      rw [hsched]
      refine ⟨fun t h => ⟨_, List.mem_cons_self, ⟨ht, by simp⟩, rfl, Option.some.inj h,
        fun _ => rfl⟩, List.forall_mem_cons.mpr ⟨fun _ => ⟨le_rfl, fun _ => rfl⟩, ?_⟩, ?_⟩
      · intro e₀ he₀ hs
        obtain ⟨hle, hafter⟩ := hk.current e₀ he₀ hs
        exact ⟨hle, fun heq => absurd (hafter heq) (by simp [ht])⟩
      · intro t _
        simp only [Ruling.decided, Bool.and_eq_true, decide_eq_true_eq] at hdec
        exact Or.inl hdec.1
  | executeDue =>
    simp only [Docket.step, guarded_iff, Ruling.due, Bool.and_eq_true] at hs
    obtain ⟨⟨-, hall⟩, rfl⟩ := hs
    exact hk.quiet le_rfl rfl rfl (Or.inr (Or.inr ⟨rfl, hall⟩))
  | tick =>
    simp only [Docket.step, guarded_iff, Ruling.ticks, Bool.and_eq_true] at hs
    obtain ⟨⟨-, hany⟩, rfl⟩ := hs
    refine hk.quiet le_rfl rfl rfl (Or.inr (Or.inr ⟨rfl, ?_⟩))
    cases ht : s.ruling.executeAfter <;> simp_all
  | appeal =>
    simp only [Docket.step, guarded_iff] at hs
    obtain ⟨-, rfl⟩ := hs
    refine ⟨fun t h => by simp [Ruling.appeal] at h, List.forall_mem_cons.mpr ⟨fun hs => ?_, ?_⟩,
      fun t h => by simp [Ruling.appeal] at h⟩
    · exact absurd rfl hs.2
    · intro e₀ he₀ hs
      have hle := (hk.current e₀ he₀ hs).1
      exact ⟨Nat.le_succ_of_le hle, fun heq => absurd heq (Nat.lt_succ_of_le hle).ne⟩
  | advance d =>
    cases hs
    exact hk.quiet (Nat.le_add_right _ _) rfl rfl (Or.inl rfl)

theorem kept_of_reach (hw : 0 < window) (hr : Docket.Reach required window maxAppeals h s) :
    Kept window h s := by
  refine hr.invariant (P := Kept window) (fun s h0 => ?_) fun h s a s' _ hk hs => hk.step hw hs
  exact ⟨fun t ht => by simp [h0.2] at ht, by simp, fun t ht => by simp [h0.2] at ht⟩

theorem Docket.open_of_pays (hw : 0 < window) (hs : s.step required window maxAppeals a = some s')
    (hpays : Pays ⟨s, a, s'⟩) :
    s.ruling.case.status = .decided ∧ s.ruling.executeAfter.all (· ≤ s.now) := by
  obtain ⟨hpost, hpre⟩ := hpays
  cases a with
  | vote seen =>
    obtain ⟨r, hr, rfl⟩ := Option.map_eq_some_iff.mp hs
    exact absurd hpost (Ruling.status_vote hr).2.1
  | executeDue =>
    simp only [Docket.step, Option.ite_none_right_eq_some, Ruling.due, Ruling.decided,
      Bool.and_eq_true, decide_eq_true_eq] at hs
    exact ⟨hs.1.1.1, hs.1.2⟩
  | tick =>
    simp only [Docket.step, Option.ite_none_right_eq_some, Ruling.ticks, Ruling.decided,
      Bool.and_eq_true, decide_eq_true_eq] at hs
    refine ⟨hs.1.1.1, ?_⟩
    cases ht : s.ruling.executeAfter <;> simp_all
  | _ =>
    simp only [Docket.step, hw.ne', if_false, guarded_iff] at hs
    grind [Ruling.schedule, Ruling.appeal]

/-- **The appeal window.** With a window every payment comes a window after the same decision of the
same round was scheduled, exactly if every payment finds the case scheduled. -/
theorem appeal_window_served_iff (hw : 0 < window)
    (hr : Docket.Reach required window maxAppeals h s) :
    (Each (fun h e => Pays e → Served window h e) h ↔
      ∀ e ∈ h, Pays e → e.pre.ruling.executeAfter.isSome) ∧
    ∀ e₀ ∈ h, Schedules e₀ → e₀.pre.ruling.voteRound = s.ruling.voteRound →
      s.now < e₀.pre.now + window → (maxAppeals = 0 ∨ s.ruling.appealCount < maxAppeals) →
      s.step required window maxAppeals (.appeal : Docket.Act I) =
        some { s with ruling := s.ruling.appeal } := by
  constructor
  · rw [← each_iff]
    refine hr.each_congr fun h s a s' hr hs => forall_congr' fun hpays => ?_
    have hk := kept_of_reach hw hr
    obtain ⟨hdec, hall⟩ := Docket.open_of_pays hw hs hpays
    constructor
    · rintro ⟨e₀, he₀, hsch, hround, -, -⟩
      simp [(hk.current e₀ he₀ hsch).2 hround]
    · intro hsome
      obtain ⟨t, ht⟩ : ∃ t, s.ruling.executeAfter = some t := Option.isSome_iff_exists.mp hsome
      obtain ⟨e₀, he₀, hsch, hround, hn, hc⟩ := hk.scheduled t ht
      refine ⟨e₀, he₀, hsch, hround, hc hdec, ?_⟩
      rw [hn]
      simpa [ht] using hall
  · intro e₀ he₀ hsch hround hnow hlimit
    have hk := kept_of_reach hw hr
    have ht := (hk.current e₀ he₀ hsch).2 hround
    have hdec : s.ruling.case.status = .decided :=
      (hk.status _ ht).resolve_right fun ⟨_, hle⟩ => absurd hle hnow.not_ge
    simp [Docket.step, Ruling.appealable, hw, hdec, ht, hnow, hlimit]

namespace Sample

def voting : Ruling := ⟨⟨.voting, none, none⟩, none, 1, 0⟩

def forBuyer : List (Vote ℕ) := [buyer 0]

def docketAfter (as : List (Docket.Act ℕ)) : Docket :=
  stateAfter (Docket.step 1 60 3) as ⟨voting, 0⟩

def docketHistory (as : List (Docket.Act ℕ)) : Docket.History ℕ :=
  record (Docket.step 1 60 3) as ⟨voting, 0⟩ []

end Sample

open Sample

theorem appeal_window_served_sample :
    (docketAfter [.vote forBuyer, .execute, .advance 60, .tick]).ruling.case.status = .executed ∧
      Each (fun h e => Pays e → Served 60 h e)
        (docketHistory [.vote forBuyer, .execute, .advance 60, .tick]) :=
  ⟨by decide +kernel, (appeal_window_served_iff (by decide)
    (.stateAfter (.start ⟨⟨by decide, by decide, rfl, rfl⟩, rfl⟩))).1.mpr (by decide +kernel)⟩

/-- **Paid without a window**: `execute_due` takes a decision that was never scheduled. -/
theorem unscheduled_paid : Docket.Reach 1 60 3 (docketHistory [.vote forBuyer, .executeDue])
        (docketAfter [.vote forBuyer, .executeDue]) ∧
      (docketAfter [.vote forBuyer, .executeDue]).ruling.case.status = .executed ∧
      (docketAfter [.vote forBuyer, .executeDue]).now = 0 ∧
      ∀ e ∈ docketHistory [.vote forBuyer, .executeDue], ¬ Schedules e :=
  ⟨.stateAfter (.start ⟨⟨by decide, by decide, rfl, rfl⟩, rfl⟩), by decide +kernel⟩

/-! ## Payments and appeals at the same time -/

inductive Errand
  | execute
  | executeDue
  | tick
  /-- `execute` with a window. -/
  | schedule
  | appeal
  deriving DecidableEq

def Errand.locks (k : Errand) : Bool := k ∈ [Errand.executeDue, .tick]

def Errand.pays (k : Errand) : Bool := k ∈ [Errand.execute, .executeDue, .tick]

def Errand.check (window maxAppeals : ℕ) (k : Errand) (r : Ruling) (now : ℕ) : Bool :=
  match k with
  | .execute => window = 0 && r.decided
  | .executeDue => r.due now
  | .tick => r.ticks now
  | .schedule => 0 < window && r.decided
  | .appeal => 0 < window && r.appealable now maxAppeals

structure Turn where
  errand : Errand
  read : Ruling
  cleared : Bool

/-- The committed case, the lock of its row, whether its settlement is final, and how often
`_settle_from_decision` was committed. -/
structure Bench (T : Type) where
  row : Ruling
  lock : Option T
  isFinal : Bool
  paid : ℕ
  turn : T → Option Turn

inductive Bench.Act (T I : Type)
  | read (t : T) (errand : Errand) (now : ℕ)
  | clear (t : T)
  | commit (t : T) (now : ℕ)
  | rollback (t : T)
  | vote (seen : List (Vote I))

variable {T : Type} [DecidableEq T]

def Bench.set (b : Bench T) (t : T) (x : Option Turn) : Bench T :=
  { b with turn := update b.turn t x }

def Bench.close (b : Bench T) (t : T) : Bench T :=
  { b.set t none with lock := if b.lock = some t then none else b.lock }

/-- What a commit writes: a payment the status, a schedule the time, an appeal all its columns. -/
def Turn.write (window : ℕ) (x : Turn) (row : Ruling) (now : ℕ) : Ruling :=
  match x.errand with
  | .schedule =>
    if x.read.executeAfter = none then { row with executeAfter := some (now + window) } else row
  | .appeal => x.read.appeal
  | _ => row.execute

variable (required window maxAppeals) in
/-- **A statement of a request**. -/
def Bench.step (b : Bench T) : Bench.Act T I → Option (Bench T)
  | .read t k now =>
    if b.turn t = none ∧ (k.locks → b.lock = none) ∧ k.check window maxAppeals b.row now then
      some { b.set t (some ⟨k, b.row, false⟩) with lock := if k.locks then some t else b.lock }
    else none
  | .clear t =>
    (b.turn t).bind fun x =>
      if x.errand.pays then
        -- 409, the settlement cannot be moved
        some (if b.isFinal then b.close t else b.set t (some { x with cleared := true }))
      else none
  | .commit t now =>
    (b.turn t).bind fun x =>
      if (b.lock = none ∨ b.lock = some t) ∧ (x.errand.pays → x.cleared) then
        some { b.close t with
          row := x.write window b.row now
          isFinal := b.isFinal || x.errand.pays
          paid := if x.errand.pays then b.paid + 1 else b.paid }
      else none
  | .rollback t => (b.turn t).map fun _ => b.close t
  | .vote seen =>
    if b.lock = none then (b.row.vote required seen).map ({ b with row := · }) else none

structure Bench.Init (b : Bench T) : Prop where
  status : b.row.case.status ≠ .executed
  paid : b.paid = 0
  turn : ∀ t, b.turn t = none

abbrev Bench.Reach (required window maxAppeals : ℕ) (h : List (Entry (Bench T) (Bench.Act T I)))
    (b : Bench T) : Prop :=
  Run Bench.Init (Bench.step required window maxAppeals) h b

def Bench.Once (b : Bench T) : Prop :=
  b.paid ≤ 1 ∧ (0 < b.paid → b.row.case.status = .executed)

def InTime (e : Entry (Bench T) (Bench.Act T I)) : Prop :=
  match e.act with
  | .commit t _ => ∀ x ∈ e.pre.turn t, x.errand = .execute ∨ x.errand = .appeal →
      e.pre.row.case.status ≠ .executed
  | _ => True

instance (e : Entry (Bench T) (Bench.Act T I)) : Decidable (InTime e) := by
  unfold InTime
  split <;> infer_instance

structure Bench.Sound (b : Bench T) : Prop where
  holds : ∀ t, ∀ x ∈ b.turn t, x.errand.locks → b.lock = some t ∧ b.row.case.status = .decided
  executed : b.row.case.status = .executed → 0 < b.paid

theorem Bench.Sound.close {b b' : Bench T} {t : T} (hb : b.Sound)
    (hturn : b'.turn = (b.close t).turn) (hlock : b'.lock = (b.close t).lock)
    (hrow : b'.row = b.row ∨ b.lock = none ∨ b.lock = some t)
    (hexec : b'.row.case.status = .executed → 0 < b'.paid) : b'.Sound := by
  refine ⟨?_, hexec⟩
  rw [hturn]
  refine (forall_update_iff b.turn fun t' y => ∀ x ∈ y, x.errand.locks →
    b'.lock = some t' ∧ b'.row.case.status = .decided).mpr ⟨by simp, fun t' ht x hx hl => ?_⟩
  obtain ⟨hlk, hdec⟩ := hb.holds t' x hx hl
  have hne : b.lock ≠ some t := by
    rw [hlk]
    simpa using ht
  refine ⟨by simp [hlock, Bench.close, ht, hlk], ?_⟩
  rcases hrow with hrow | hnone | hsome
  · rw [hrow]
    exact hdec
  · simp [hnone] at hlk
  · exact absurd hsome hne

theorem Errand.decided_of_check {k : Errand} {r : Ruling} {now : ℕ} (hl : k.locks)
    (h : k.check window maxAppeals r now) : r.case.status = .decided := by
  cases k <;> simp_all [Errand.locks, Errand.check, Ruling.due, Ruling.ticks, Ruling.decided]

theorem Bench.Sound.step {b b' : Bench T} {a : Bench.Act T I} (hb : b.Sound)
    (hs : b.step required window maxAppeals a = some b') : b'.Sound := by
  cases a with
  | read t k now =>
    simp only [Bench.step, guarded_iff] at hs
    obtain ⟨⟨-, hfree, hcheck⟩, rfl⟩ := hs
    refine ⟨(forall_update_iff b.turn fun t' y => ∀ x ∈ y, x.errand.locks →
      (if k.locks then some t else b.lock) = some t' ∧ b.row.case.status = .decided).mpr
        ⟨?_, fun t' ht x hx hl => ?_⟩, hb.executed⟩
    · rintro x hx hl
      cases hx
      exact ⟨if_pos hl, Errand.decided_of_check hl hcheck⟩
    · obtain ⟨hlk, hdec⟩ := hb.holds t' x hx hl
      split_ifs with hk
      · simp [hfree hk] at hlk
      · exact ⟨hlk, hdec⟩
  | clear t =>
    obtain ⟨x, hx, hs⟩ := Option.bind_eq_some_iff.mp hs
    simp only [guarded_iff] at hs
    obtain ⟨-, rfl⟩ := hs
    split_ifs
    · exact hb.close rfl rfl (Or.inl rfl) hb.executed
    · refine ⟨(forall_update_iff b.turn fun t' y => ∀ x ∈ y, x.errand.locks →
        b.lock = some t' ∧ b.row.case.status = .decided).mpr
          ⟨fun y hy hl => ?_, fun t' _ => hb.holds t'⟩, hb.executed⟩
      cases hy
      exact hb.holds t x hx hl
  | commit t now =>
    obtain ⟨x, hx, hs⟩ := Option.bind_eq_some_iff.mp hs
    simp only [guarded_iff] at hs
    obtain ⟨⟨hlock, -⟩, rfl⟩ := hs
    refine hb.close rfl rfl (Or.inr hlock) fun hex => ?_
    have hpaid := hb.executed
    unfold Turn.write at hex
    cases hk : x.errand <;> simp_all [Errand.pays, Ruling.appeal]
    split_ifs at hex <;> exact hpaid hex
  | rollback t =>
    obtain ⟨x, hx, rfl⟩ := Option.map_eq_some_iff.mp hs
    exact hb.close rfl rfl (Or.inl rfl) hb.executed
  | vote seen =>
    simp only [Bench.step, Option.ite_none_right_eq_some] at hs
    obtain ⟨hfree, hs⟩ := hs
    obtain ⟨r, hr, rfl⟩ := Option.map_eq_some_iff.mp hs
    refine ⟨fun t x hx hl => ?_, fun hex => absurd hex (Ruling.status_vote hr).2.1⟩
    exact absurd (hfree.symm.trans (hb.holds t x hx hl).1) (by simp)

/-- **At most one payment.** Whatever the order of the statements, the decision is executed at most
once and the case stays executed, exactly if unlocked payments and appeals are committed in time. -/
theorem executed_once_iff {h : List (Entry (Bench T) (Bench.Act T I))} {b : Bench T}
    (hr : Bench.Reach required window maxAppeals h b) :
    Throughout (fun _ b => b.Once) h b ↔ ∀ e ∈ h, InTime e := by
  refine hr.throughout_iff_step (fun b h0 => by simp [Bench.Once, h0.paid])
    fun h b a b' hr honce hs => ?_
  have hb : b.Sound := by
    refine hr.safe (fun b h0 => ⟨fun t x hx => ?_, fun hex => absurd hex h0.status⟩)
      fun b a b' hb hs => hb.step hs
    simp [h0.turn t] at hx
  have hpaid : b.paid = 0 ↔ b.row.case.status ≠ .executed :=
    ⟨fun h0 hex => (hb.executed hex).ne' h0, fun hne => by
      by_contra h0
      exact hne (honce.2 (Nat.pos_of_ne_zero h0))⟩
  cases a with
  | read t k now =>
    simp only [Bench.step, guarded_iff] at hs
    obtain ⟨-, rfl⟩ := hs
    exact iff_of_true honce trivial
  | clear t =>
    obtain ⟨x, hx, hs⟩ := Option.bind_eq_some_iff.mp hs
    simp only [guarded_iff] at hs
    obtain ⟨-, rfl⟩ := hs
    refine iff_of_true ?_ trivial
    split_ifs <;> exact honce
  | commit t now =>
    obtain ⟨x, hx, hs⟩ := Option.bind_eq_some_iff.mp hs
    simp only [guarded_iff] at hs
    obtain ⟨-, rfl⟩ := hs
    have hholds := hb.holds t x hx
    simp only [Bench.Once, InTime, hx, Option.mem_def, Option.some.injEq, forall_eq']
    unfold Turn.write
    cases hk : x.errand
    case execute => simp [Errand.pays, Ruling.execute, ← hpaid]
    case schedule => simpa [Errand.pays, apply_ite, Bench.Once] using honce
    case appeal =>
      have hle := honce.1
      simp [Errand.pays, Ruling.appeal, ← hpaid]
      omega
    -- the lock has kept the case decided, so nothing was paid
    all_goals
      have hdec := (hholds (by simp [hk, Errand.locks])).2
      have h0 := hpaid.mpr (by simp [hdec])
      simp [Errand.pays, Ruling.execute, h0]
  | rollback t =>
    obtain ⟨x, hx, rfl⟩ := Option.map_eq_some_iff.mp hs
    exact iff_of_true honce trivial
  | vote seen =>
    simp only [Bench.step, Option.ite_none_right_eq_some] at hs
    obtain ⟨-, hs⟩ := hs
    obtain ⟨r, hr, rfl⟩ := Option.map_eq_some_iff.mp hs
    have h0 := hpaid.mpr (Ruling.status_vote hr).1.2
    exact iff_of_true (by simp [Bench.Once, h0]) trivial

namespace Sample

def bench : Bench Bool := ⟨⟨⟨.decided, some .buyerWins, none⟩, some 60, 1, 0⟩, none, false, 0,
  fun _ => none⟩

def benchAfter (window : ℕ) (as : List (Bench.Act Bool ℕ)) : Bench Bool :=
  stateAfter (Bench.step 1 window 3) as bench

def benchHistory (window : ℕ) (as : List (Bench.Act Bool ℕ)) :
    List (Entry (Bench Bool) (Bench.Act Bool ℕ)) :=
  record (Bench.step 1 window 3) as bench []

def byTick : List (Bench.Act Bool ℕ) := [.read true .tick 60, .clear true, .commit true 60]

def bothUnlocked : List (Bench.Act Bool ℕ) :=
  [.read true .execute 0, .read false .execute 0, .clear true, .clear false, .commit true 0,
    .commit false 0]

def lateAppeal : List (Bench.Act Bool ℕ) := .read false .appeal 59 :: byTick ++ [.commit false 60]

end Sample

theorem executed_once_sample : (benchAfter 60 byTick).paid = 1 ∧
      Throughout (fun _ b => b.Once) (benchHistory 60 byTick) (benchAfter 60 byTick) :=
  ⟨by decide +kernel, (executed_once_iff (.stateAfter (.start ⟨by decide, rfl, fun _ => rfl⟩))).mpr
      (by decide +kernel)⟩

/-- **Paid twice**, and **reopened after the payment**. -/
theorem executed_twice :
    (Bench.Reach 1 0 3 (benchHistory 0 bothUnlocked) (benchAfter 0 bothUnlocked) ∧
      (benchAfter 0 bothUnlocked).paid = 2) ∧
    Bench.Reach 1 60 3 (benchHistory 60 lateAppeal) (benchAfter 60 lateAppeal) ∧
      (benchAfter 60 lateAppeal).paid = 1 ∧
      (benchAfter 60 lateAppeal).row.case.status = .voting :=
  ⟨⟨.stateAfter (.start ⟨by decide, rfl, fun _ => rfl⟩), by decide +kernel⟩,
    .stateAfter (.start ⟨by decide, rfl, fun _ => rfl⟩),
    by decide +kernel⟩

end Karma.Arbitration
