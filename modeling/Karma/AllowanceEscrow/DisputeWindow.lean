import Karma.AllowanceEscrow.Lifecycle

/-! # `KarmaAllowanceEscrow` — dispute windows

Three times share the field `settleAfter`: the end of the cooling-off time, the end of a window, and
the earliest time of the next ruling. -/

namespace Karma.AllowanceEscrow

open Evm

variable {D : Deployment} {w w' : World} {a : Act} {h : History} {b : ℕ}

/-! ## The last submission -/

theorem Effect.now_le (he : Effect D w a w') : w.now ≤ w'.now := by
  cases he with
  | tick hle => exact hle
  | _ => exact le_rfl

/-- The newest `submitSettlement` on binding `b`, with the transactions made after it. -/
def lastSubmission (b : ℕ) : History → Option (Entry World Act × History)
  | [] => none
  | e :: h =>
    if e.act.ruling b = some .settlement then some (e, [])
    else (lastSubmission b h).map fun p => (p.1, e :: p.2)

theorem lastSubmission_cons_of_eq {e : Entry World Act}
    (he : e.act.ruling b = some .settlement) : lastSubmission b (e :: h) = some (e, []) :=
  if_pos he

theorem lastSubmission_cons_of_none {e s : Entry World Act} {later : History}
    (he : e.act.ruling b = none) (hlast : lastSubmission b h = some (s, later)) :
    lastSubmission b (e :: h) = some (s, e :: later) := by
  simp [lastSubmission, he, hlast]

def Confirms (b : ℕ) (e : Entry World Act) : Prop :=
  ∃ sender, e.act = .call sender (.buyerConfirm b) ∧
    CanAct (e.pre.bills (e.pre.bindings b).buyerBillId) sender

def WindowServed (b : ℕ) (h : History) (t : ℕ) : Prop :=
  ∃ s later, lastSubmission b h = some (s, later) ∧ (s.pre.now + s.pre.disputeWindowSeconds ≤ t ∨
      ∃ e ∈ later, Confirms b e ∧ s.pre.now ≤ e.pre.now ∧ e.pre.now ≤ t)

/-! ## What the fields of an open window mean -/

/-- **The invariant of a payout window** opened by the submission `s`, with `later` since then. -/
structure Windowed (b : ℕ) (w : World) (s : Entry World Act) (later : History) : Prop where
  settleAfter : (w.bindings b).settleAfter = s.pre.now + s.pre.disputeWindowSeconds
  kept : (s.pre.bindings b).buyerConfirmed = true → (w.bindings b).buyerConfirmed = true
  /-- The mark was set before the submission, or by a confirmation since. -/
  origin : (w.bindings b).buyerConfirmed = true → (s.pre.bindings b).buyerConfirmed = true ∨
      ∃ e ∈ later, Confirms b e ∧ s.pre.now ≤ e.pre.now ∧ e.pre.now ≤ w.now
  unmarked : (∃ e ∈ later, Confirms b e) → (s.pre.bindings b).buyerConfirmed = false
  past : s.pre.now ≤ w.now

def PayoutWindow (b : ℕ) (h : History) (w : World) : Prop :=
  (w.bindings b).state = .finalizing → (w.bindings b).slashArmed = false →
    ∃ s later, lastSubmission b h = some (s, later) ∧ Windowed b w s later

theorem Windowed.untouched {s : Entry World Act} {later : History} (hw : Windowed b w s later)
    (hact : a.binding ≠ some b) (hsame : w'.bindings b = w.bindings b) (hnow : w.now ≤ w'.now) :
    Windowed b w' s (⟨w, a, w'⟩ :: later) := by
  refine ⟨by rw [hsame, hw.settleAfter], ?_, ?_, ?_, hw.past.trans hnow⟩
  · rw [hsame]
    exact hw.kept
  · rw [hsame]
    intro hconf
    rcases hw.origin hconf with hold | ⟨e, he, hc, h1, h2⟩
    · exact .inl hold
    · exact .inr ⟨e, List.mem_cons_of_mem _ he, hc, h1, h2.trans hnow⟩
  · rintro ⟨e, he, hc⟩
    rcases List.mem_cons.mp he with rfl | he
    · -- a confirmation of `b` would concern `b`
      obtain ⟨sender, rfl, -⟩ := hc
      exact absurd rfl hact
    · exact hw.unmarked ⟨e, he, hc⟩

theorem Windowed.confirm {s : Entry World Act} {later : History} {sender : Address}
    (hw : Windowed b w s later) (hact : CanAct (w.bills (w.bindings b).buyerBillId) sender)
    (hconf : (w.bindings b).buyerConfirmed = false)
    (hnew : w'.bindings b = { w.bindings b with buyerConfirmed := true, confirmedAt := w.now })
    (hnow : w.now ≤ w'.now) :
    Windowed b w' s (⟨w, .call sender (.buyerConfirm b), w'⟩ :: later) := by
  refine ⟨by rw [hnew]; exact hw.settleAfter, fun _ => by rw [hnew], fun _ => .inr ?_, fun _ => ?_,
    hw.past.trans hnow⟩
  · exact ⟨_, List.mem_cons_self, ⟨sender, rfl, hact⟩, hw.past, hnow⟩
  · rw [← Bool.not_eq_true]
    intro hold
    rw [hw.kept hold] at hconf
    contradiction

theorem Windowed.submit {e : Entry World Act} {proofHash : Bytes32} (hnew : e.post.bindings b =
      { e.pre.bindings b with
        state := .finalizing, slashArmed := false, proofHash,
        settleAfter := e.pre.now + e.pre.disputeWindowSeconds }) (hnow : e.pre.now ≤ e.post.now) :
    Windowed b e.post e [] := by
  refine ⟨by rw [hnew], ?_, ?_, fun ⟨_, he, _⟩ => absurd he List.not_mem_nil, hnow⟩
  · rw [hnew]
    exact id
  · rw [hnew]
    exact .inl

theorem PayoutWindow.step (hp : PayoutWindow b h w) (hnow : w.now ≤ w'.now)
    (hlife : Life w b w' a) : PayoutWindow b (⟨w, a, w'⟩ :: h) w' := by
  intro hfin hdir
  cases hlife with
  | untouched hact hsame =>
    rw [hsame] at hfin hdir
    obtain ⟨s, later, hlast, hw⟩ := hp hfin hdir
    exact ⟨s, _, lastSubmission_cons_of_none (Act.ruling_eq_none hact) hlast,
      hw.untouched hact hsame hnow⟩
  | confirmed hst hslash hact hconf hnew =>
    obtain ⟨s, later, hlast, hw⟩ := hp hst hslash
    exact ⟨s, _, lastSubmission_cons_of_none rfl hlast, hw.confirm hact hconf hnew hnow⟩
  | ruledSettlement _ _ _ hnew =>
    exact ⟨_, [], lastSubmission_cons_of_eq (if_pos rfl), .submit (e := ⟨w, _, w'⟩) hnew hnow⟩
  -- the other transitions do not end in a payout window
  | bound _ hnew => rw [hnew] at hfin; contradiction
  | cancelled _ _ hnew => rw [hnew] at hfin; contradiction
  | disputed _ _ hnew => rw [hnew] at hfin; contradiction
  | ruledBreach _ _ _ hnew => rw [hnew] at hdir; contradiction
  | settled _ _ _ hnew => rw [hnew] at hfin; contradiction
  | slashed _ _ _ _ hnew => rw [hnew] at hfin; contradiction

theorem Reach.payoutWindow (hr : Reach D h w) (b : ℕ) : PayoutWindow b h w := by
  refine hr.invariant (P := PayoutWindow b) (fun w hw hfin => ?_) fun h w a w' _ ih hstep => ?_
  · rw [hw.bindings b] at hfin
    contradiction
  · have heff := effect_of_step hstep
    exact ih.step heff.now_le (heff.life b)

/-! ## Serving the window -/

/-- **When the window is served.** Whenever a payout is made, at the end of any run. -/
theorem window_served_iff {sender : Address} (hr : Reach D h w)
    (hpay : step D w (.call sender (.finalizeSettlement b)) = some w') :
    WindowServed b h w.now ↔ ∃ s later, lastSubmission b h = some (s, later) ∧
      (s.pre.now + s.pre.disputeWindowSeconds ≤ w.now ∨
        (s.pre.bindings b).buyerConfirmed = false) := by
  obtain ⟨hfin, hdir, htime⟩ : (w.bindings b).state = .finalizing ∧
      (w.bindings b).slashArmed = false ∧
      ((w.bindings b).settleAfter ≤ w.now ∨ (w.bindings b).buyerConfirmed = true) := by
    cases effect_of_step hpay with
    | finalizeSettlement _ hst hslash htime => exact ⟨hst, hslash, htime⟩
  obtain ⟨s, later, hlast, hw⟩ := Reach.payoutWindow hr b hfin hdir
  have huniq : ∀ {s' later'}, lastSubmission b h = some (s', later') → s' = s ∧ later' = later := by
    intro s' later' h'
    rw [hlast] at h'
    simpa [eq_comm] using h'
  constructor
  · rintro ⟨s', later', h', hserved⟩
    obtain ⟨rfl, rfl⟩ := huniq h'
    refine ⟨s', later', h', hserved.imp_right fun ⟨e, he, hc, _⟩ => ?_⟩
    exact hw.unmarked ⟨e, he, hc⟩
  · rintro ⟨s', later', h', hcond⟩
    obtain ⟨rfl, rfl⟩ := huniq h'
    refine ⟨s', later', h', ?_⟩
    -- the payout was let through by the clock or by the mark
    rcases htime with htime | hconf
    · exact .inl (by rw [← hw.settleAfter]; exact htime)
    · refine hcond.imp_right fun hold => ?_
      exact (hw.origin hconf).resolve_left (by rw [hold]; simp)

namespace Sample

def windowPassed : List Act :=
  opening ++ [.tick 105, .call deployment.admin (.submitSettlement 1 0#256), .tick 115]

def changedTwice : List Act :=
  opening ++ [.tick 105, .call deployment.admin (.submitSettlement 1 0#256),
    .call buyer (.buyerConfirm 1), .tick 115, .call deployment.admin (.submitBreach 1 0#256),
    .tick 125, .call deployment.admin (.submitSettlement 1 0#256)]

end Sample

open Sample

theorem window_served_iff_sample :
    WindowServed 1 (history windowPassed) (world windowPassed).now := by
  obtain ⟨w', hpay⟩ : ∃ w', step deployment (world windowPassed)
      (.call (.ofNat 7) (.finalizeSettlement 1)) = some w' :=
    Option.isSome_iff_exists.mp (by decide +kernel)
  have hlast : (lastSubmission 1 (history windowPassed)).isSome := by decide +kernel
  obtain ⟨⟨s, later⟩, hs⟩ := Option.isSome_iff_exists.mp hlast
  have hend : ((lastSubmission 1 (history windowPassed)).map fun p =>
      p.1.pre.now + p.1.pre.disputeWindowSeconds) = some 115 := by decide +kernel
  have hnow : (world windowPassed).now = 115 := by decide +kernel
  rw [window_served_iff (reach _ (by decide +kernel)) hpay]
  refine ⟨s, later, hs, .inl ?_⟩
  rw [hs, Option.map_some, Option.some_inj] at hend
  exact (hend.trans hnow.symm).le

/-- **A leftover mark skips the window.** -/
theorem window_not_served : ∃ h w w', Reach deployment h w ∧
      step deployment w (.call (.ofNat 7) (.finalizeSettlement 1)) = some w' ∧
      ¬ WindowServed 1 h w.now := by
  obtain ⟨w', hpay⟩ : ∃ w', step deployment (world changedTwice)
      (.call (.ofNat 7) (.finalizeSettlement 1)) = some w' :=
    Option.isSome_iff_exists.mp (by decide +kernel)
  refine ⟨history changedTwice, _, w', reach _ (by decide +kernel), hpay, ?_⟩
  rintro ⟨s, later, hs, hserved⟩
  have hlast : ((lastSubmission 1 (history changedTwice)).map fun p =>
      (p.1.pre.now + p.1.pre.disputeWindowSeconds, p.2.length)) = some (135, 0) := by decide +kernel
  have hnow : (world changedTwice).now = 125 := by decide +kernel
  simp only [hs, Option.map_some, Option.some_inj, Prod.mk.injEq, List.length_eq_zero_iff] at hlast
  rcases hserved with hend | ⟨e, he, -⟩
  · omega
  · rw [hlast.2] at he
    exact absurd he List.not_mem_nil

/-! ## Changing a ruling -/

/-- **No change of a ruling inside its window.** -/
theorem no_reruling_in_window (hr : Reach D h w) (hfin : (w.bindings b).state = .finalizing)
    (hdir : (w.bindings b).slashArmed = false) (hopen : w.now < (w.bindings b).settleAfter)
    (hconf : (w.bindings b).buyerConfirmed = false) (proofHash : Bytes32) :
    (exec D w.disputeResolver (.finalizeSettlement b) w.fresh).result =
        .error (.settleDelayActive (w.bindings b).settleAfter) ∧
      (exec D w.disputeResolver (.submitBreach b proofHash) w.fresh).result =
        .error (.settleDelayActive (w.bindings b).settleAfter) ∧
      (exec D w.disputeResolver (.submitSettlement b proofHash) w.fresh).result =
        .error (.settleDelayActive (w.bindings b).settleAfter) := by
  -- the binding exists, so each call passes every guard up to the clock
  have hid := (Reach.sound hr).bindingId_ne_zero (b := b) (by rw [hfin]; trivial)
  refine ⟨Tx.error_of_wp (I := fun _ => True) ?_, Tx.error_of_wp (I := fun _ => True) ?_,
    Tx.error_of_wp (I := fun _ => True) ?_⟩
  · simp [exec, finalizeSettlement, hid, hfin, hdir, hopen, hconf]
  · simp [exec, submitBreach, openWindow, hid, hfin, hopen]
  · simp [exec, submitSettlement, openWindow, hid, hfin, hopen]

/-- The sample contract right after a ruling for the seller. -/
def Sample.windowOpen : List Act :=
  opening ++ [.tick 105, .call deployment.admin (.submitSettlement 1 0#256)]

theorem no_reruling_in_window_sample : (exec deployment (world windowOpen).disputeResolver
      (.submitBreach 1 0#256) (world windowOpen).fresh).result =
        .error (.settleDelayActive ((world windowOpen).bindings 1).settleAfter) :=
  (no_reruling_in_window (reach _ (by decide +kernel)) (by decide +kernel)
    (by decide +kernel) (by decide +kernel) (by decide +kernel) 0#256).2.1

/-- **A wrong ruling stands.** In the sample run, with the window open until 115, neither ruling can
be made by the resolver at 105. -/
theorem reruling_refused : ∃ h w, Reach deployment h w ∧ (w.bindings 1).state = .finalizing ∧
      lastRuling 1 h = some .settlement ∧ w.now < (w.bindings 1).settleAfter ∧
      (w.bindings 1).buyerConfirmed = false ∧
      step deployment w (.call w.disputeResolver (.submitBreach 1 0#256)) = none ∧
      step deployment w (.call w.disputeResolver (.submitSettlement 1 0#256)) = none := by
  refine ⟨history windowOpen, world windowOpen,
    reach _ (by decide +kernel), by decide +kernel, by decide +kernel, by decide +kernel,
    by decide +kernel, ?_, ?_⟩
  · exact Option.isNone_iff_eq_none.mp (by decide +kernel)
  · exact Option.isNone_iff_eq_none.mp (by decide +kernel)

end Karma.AllowanceEscrow
