import Karma.Arith.Round
import Karma.Capacity.Code
import Karma.EscrowServer.Reflect

/-! # The quota of a buyer profile

An order opened through `api/routes/escrow.py` for a profile takes its amount from the available
credits and holds it as in progress. -/

namespace Karma.EscrowServer

open Evm Capacity Arith Function

/-- The credits of `ProfileCapacityModel` that orders move. -/
structure Profile where
  available : ℚ
  inProgress : ℚ
  released : ℚ

/-- What leaves the credits in progress, and where it goes. -/
structure Closing where
  taken : ℚ
  released : ℚ
  available : ℚ
  deriving DecidableEq

def Profile.release (c : Profile) (settledAmount refundedAmount : ℚ) : Option Closing :=
  let settled := max 0 settledAmount
  let refunded := max 0 refundedAmount
  let total := settled + refunded
  if c.inProgress + EPSILON < total then
    if c.inProgress ≤ 0 then none
    else
      let scale := c.inProgress / total
      some ⟨c.inProgress, roundTo 8 (settled * scale), roundTo 8 (refunded * scale)⟩
  else some ⟨total, settled, refunded⟩

def Profile.close (c : Profile) (x : Closing) : Profile :=
  ⟨c.available + x.available, c.inProgress - x.taken, c.released + x.released⟩

inductive End
  | settled
  | slashed
  | cancelled
  deriving DecidableEq

def End.state : End → RowState
  | .settled => .settled
  | .slashed => .slashed
  | .cancelled => .cancelled

inductive Path
  | finalizeOrder (breach : Bool)
  | settleDue
  | breachDue
  /-- `_reconcile_from_chain`, and `settle_due` on a binding that has ended. -/
  | reconcileFromChain
  | reconcileBreachFromChain
  | reconcileTask
  | cancel
  deriving DecidableEq

def Path.runsOn : Path → RowState → Bool
  | .finalizeOrder _, st => !st.done
  | .settleDue, st => st = .finalizing
  | .breachDue, st | .reconcileBreachFromChain, st => st = .breaching
  | .reconcileFromChain, st => st = .active || st = .finalizing || st = .breaching
  | .reconcileTask, st => st = .finalizing || st = .breaching || st = .disputed || st = .active
  | .cancel, st => st = .active

def Path.reaches : Path → Option End → Option End
  | .finalizeOrder breach, none => some (if breach then .slashed else .settled)
  | .settleDue, none => some .settled
  | .breachDue, none => some .slashed
  | .cancel, none => some .cancelled
  | .reconcileFromChain, e | .reconcileBreachFromChain, e | .reconcileTask, e => e
  | _, some _ => none

def Path.refunds : Path → End → Option Bool
  | .finalizeOrder _, _ | .settleDue, _ => some false
  | .breachDue, _ | .reconcileBreachFromChain, _ => some true
  | .reconcileFromChain, e => some (e = .cancelled)
  | .reconcileTask, _ | .cancel, _ => none

def Path.quota : Path → ℚ → ℚ
  | .finalizeOrder _, amount => amount
  | _, amount => round6 amount

/-- The profile, the rows of the orders, their ends on the chain and, as a ghost, what has left the
credits in progress for each of them. -/
structure Quota (O : Type) where
  profile : Option Profile
  row : O → Option RowState
  onchain : O → Option End
  closed : O → List Closing

inductive Quota.Act (O : Type)
  | opens (o : O)
  | move (o : O) (st : RowState)
  | chain (o : O) (e : End)
  | other (profile : Option Profile)
  /-- A path records the end; `conflict` if `release_profile_credits` raises. -/
  | record (o : O) (p : Path) (conflict : Bool)

variable {O : Type} [DecidableEq O] (amount : O → ℚ)

def Quota.closing (s : Quota O) (o : O) (p : Path) (e : End) : Option Closing := do
  let c ← s.profile
  let refunded ← p.refunds e
  if refunded then c.release 0 (p.quota (amount o)) else c.release (p.quota (amount o)) 0

def Quota.recorded (s : Quota O) (o : O) (e : End) (x : Option Closing) : Quota O where
  profile := s.profile.map fun c => x.elim c c.close
  row := update s.row o (some e.state)
  onchain := update s.onchain o (some e)
  closed := update s.closed o (x.toList ++ s.closed o)

def Quota.recordFinal (s : Quota O) (o : O) (p : Path) (conflict : Bool) (e : End) : Quota O :=
  match conflict, p with
  | false, _ => s.recorded o e (s.closing amount o p e)
  | true, .finalizeOrder _ => { s with onchain := update s.onchain o (some e) }
  | true, _ => s.recorded o e none

def Quota.step (s : Quota O) : Quota.Act O → Option (Quota O)
  | .opens o =>
    if s.row o = none ∧ s.onchain o = none then
      match s.profile with
      | none => some { s with row := update s.row o (some .finalizing) }
      | some c =>
        if c.available + EPSILON < amount o then none
        else some { s with
          profile := some ⟨c.available - amount o, c.inProgress + amount o, c.released⟩
          row := update s.row o (some .finalizing) }
    else none
  | .move o st =>
    if (s.row o).any (!·.done) && !st.done then
      some { s with row := update s.row o (some st) }
    else none
  | .chain o e =>
    if (s.row o).any (!·.done) ∧ s.onchain o = none then
      some { s with onchain := update s.onchain o (some e) }
    else none
  | .other profile => some { s with profile := profile }
  | .record o p conflict =>
    if (s.row o).any p.runsOn then
      (p.reaches (s.onchain o)).map (s.recordFinal amount o p conflict)
    else none

abbrev Quota.Reach (h : List (Entry (Quota O) (Quota.Act O))) (s : Quota O) : Prop :=
  Run (fun s => ∀ o, s.row o = none ∧ s.closed o = []) (Quota.step amount) h s

/-! ## Closed once, and the right way -/

/-- What should leave for an order of the amount `a`. -/
def End.due (a : ℚ) : End → Closing
  | .settled => ⟨a, a, 0⟩
  | .slashed | .cancelled => ⟨a, 0, a⟩

def Quota.Closed (s : Quota O) : Prop :=
  ∀ o, ((s.row o).any (·.done) → ∃ e, s.onchain o = some e ∧ s.closed o = [e.due (amount o)]) ∧
    ((s.row o).any (·.done) = false → s.closed o = [])

def Path.right (p : Path) (e : End) : Bool := p.refunds e = some (decide (e ≠ .settled))

/-- What is taken for the amount `q` that is passed on is the amount `a`. -/
def Profile.Takes (c : Profile) (q a : ℚ) : Prop :=
  if c.inProgress + EPSILON < q then c.inProgress = a ∧ roundTo 8 a = a else q = a

/-- **The condition**: a path that records an end calls `release_profile_credits` with success and
the right outcome, and for the amount of the order. -/
def Quota.Right (e : Entry (Quota O) (Quota.Act O)) : Prop :=
  ∀ o p conflict en, e.act = .record o p conflict → p.reaches (e.pre.onchain o) = some en →
    (e.post.row o).any (·.done) → conflict = false ∧ p.right en ∧
      ∃ c, e.pre.profile = some c ∧ c.Takes (p.quota (amount o)) (amount o)

variable {amount}

theorem Path.quota_nonneg (p : Path) {a : ℚ} (ha : 0 ≤ a) : 0 ≤ p.quota a := by
  cases p with
  | finalizeOrder breach => exact ha
  | settleDue | breachDue | reconcileFromChain | reconcileBreachFromChain | reconcileTask
  | cancel => exact roundTo_nonneg 6 ha

def Profile.part (c : Profile) (q : ℚ) : Option (ℚ × ℚ) :=
  if c.inProgress + EPSILON < q then
    if c.inProgress ≤ 0 then none else some (c.inProgress, roundTo 8 c.inProgress)
  else some (q, q)

theorem Profile.part_eq_iff {c : Profile} {q a : ℚ} (ha : 0 < a) :
    c.part q = some (a, a) ↔ c.Takes q a := by
  unfold Profile.part Profile.Takes
  split_ifs with hclamp hempty
  · exact iff_of_false (fun h => by cases h) fun h => by linarith [h.1]
  · constructor
    · intro h
      obtain ⟨rfl, hround⟩ := Prod.mk.inj (Option.some.inj h)
      exact ⟨rfl, hround⟩
    · rintro ⟨rfl, hround⟩
      rw [hround]
  · simp

theorem Profile.release_eq (c : Profile) {q : ℚ} (hq : 0 ≤ q) :
    c.release q 0 = (c.part q).map (fun x => ⟨x.1, x.2, 0⟩) ∧
      c.release 0 q = (c.part q).map (fun x => ⟨x.1, 0, x.2⟩) := by
  have hzero : roundTo 8 0 = 0 := roundTo_eq_zero 8 (by norm_num)
  unfold Profile.release Profile.part
  simp only [max_eq_right hq, max_self, add_zero, zero_add]
  split_ifs with hclamp hempty
  · exact ⟨rfl, rfl⟩
  · have hne : q ≠ 0 := by linarith [EPSILON_pos]
    rw [mul_div_cancel₀ _ hne, zero_mul, hzero]
    exact ⟨rfl, rfl⟩
  · exact ⟨rfl, rfl⟩

variable {p : Path} {o : O} {e : End}

omit [DecidableEq O] in
theorem Quota.closing_eq_iff {s : Quota O} (ha : 0 < amount o) :
    s.closing amount o p e = some (e.due (amount o)) ↔
      p.right e ∧ ∃ c, s.profile = some c ∧ c.Takes (p.quota (amount o)) (amount o) := by
  cases hprofile : s.profile with
  | none => simp [Quota.closing, hprofile]
  | some c =>
    obtain ⟨hsettled, hrefunded⟩ := c.release_eq (p.quota_nonneg ha.le)
    have htakes := c.part_eq_iff (q := p.quota (amount o)) ha
    cases hpath : p.refunds e with
    | none => simp [Quota.closing, hprofile, hpath, Path.right]
    | some refunded =>
      have hclosing : s.closing amount o p e =
          (c.part (p.quota (amount o))).map (if refunded then (fun x => ⟨x.1, 0, x.2⟩)
            else fun x => ⟨x.1, x.2, 0⟩) := by
        cases refunded <;> simp [Quota.closing, hprofile, hpath, hsettled, hrefunded]
      have hex : (∃ c', some c = some c' ∧ c'.Takes (p.quota (amount o)) (amount o)) ↔
          c.part (p.quota (amount o)) = some (amount o, amount o) := by
        rw [htakes]
        exact ⟨fun ⟨c', hc', h⟩ => Option.some.inj hc' ▸ h, fun h => ⟨c, rfl, h⟩⟩
      rw [hclosing, hex]
      -- the direction shows in what arrives, which is not zero
      cases e <;> cases refunded <;>
        simp [Path.right, hpath, End.due, Option.map_eq_some_iff, ha.ne]

omit [DecidableEq O] in
theorem Quota.Closed.congr {s s' : Quota O} (hs : s.Closed amount)
    (hdone : ∀ o, (s'.row o).any (·.done) = (s.row o).any (·.done)) (hclosed : s'.closed = s.closed)
    (hend : ∀ o, (s.row o).any (·.done) → s'.onchain o = s.onchain o) : s'.Closed amount := by
  intro o
  rw [hdone, hclosed]
  refine ⟨fun h => ?_, (hs o).2⟩
  rw [hend o h]
  exact (hs o).1 h

theorem any_done_update {row : O → Option RowState} {st : RowState}
    (hrow : (row o).any (·.done) = false) (hst : st.done = false) (o' : O) :
    (update row o (some st) o').any (·.done) = (row o').any (·.done) := by
  rcases eq_or_ne o' o with rfl | hne
  · rw [update_self, hrow]
    exact hst
  · rw [update_of_ne hne]

theorem Path.not_done {st : RowState} (h : p.runsOn st) : st.done = false := by
  cases p <;> cases st <;> first | rfl | cases h

theorem Quota.done_recorded (s : Quota O) (o : O) (e : End) (x : Option Closing) :
    ((s.recorded o e x).row o).any (·.done) = true := by
  cases e <;> simp [Quota.recorded, End.state, RowState.done]

theorem Quota.closed_recorded_iff {s : Quota O} {x : Option Closing} (hs : s.Closed amount)
    (hrow : (s.row o).any (·.done) = false) :
    (s.recorded o e x).Closed amount ↔ x = some (e.due (amount o)) := by
  have hclosed : (s.recorded o e x).closed o = x.toList := by
    simp [Quota.recorded, (hs o).2 hrow]
  have honchain : (s.recorded o e x).onchain o = some e := update_self ..
  constructor
  · intro h
    obtain ⟨e', he', hx⟩ := (h o).1 (s.done_recorded o e x)
    obtain rfl := Option.some.inj (honchain.symm.trans he')
    rw [hclosed] at hx
    cases x with
    | none => cases hx
    | some x => exact congrArg some (List.cons.inj hx).1
  · rintro rfl o'
    rcases eq_or_ne o' o with rfl | hne
    · refine ⟨fun _ => ⟨e, honchain, hclosed⟩, fun h => ?_⟩
      rw [Quota.done_recorded] at h
      cases h
    · simpa [Quota.recorded, hne] using hs o'

theorem Quota.Closed.of_step {s s' : Quota O} {a : Quota.Act O} (hs : s.Closed amount)
    (ha : ∀ o p conflict, a ≠ .record o p conflict) (h : Quota.step amount s a = some s') :
    s'.Closed amount := by
  cases a with
  | opens o =>
    simp only [Quota.step] at h
    split_ifs at h with hnew
    have hrow : (s.row o).any (·.done) = false := by rw [hnew.1]; rfl
    split at h
    · cases h
      exact hs.congr (any_done_update hrow rfl) rfl fun _ _ => rfl
    · split_ifs at h
      cases h
      exact hs.congr (any_done_update hrow rfl) rfl fun _ _ => rfl
  | move o st =>
    simp only [Quota.step] at h
    split_ifs at h with hopen
    cases h
    obtain ⟨hrow, hst⟩ := Bool.and_eq_true_iff.mp hopen
    refine hs.congr (any_done_update ?_ (by simpa using hst)) rfl fun _ _ => rfl
    cases h : s.row o <;> simp_all
  | chain o e =>
    simp only [Quota.step] at h
    split_ifs at h with hopen
    cases h
    refine hs.congr (fun _ => rfl) rfl fun o' hdone => update_of_ne ?_ ..
    rintro rfl
    cases h : s.row o' <;> simp_all
  | other profile =>
    cases h
    exact hs.congr (fun _ => rfl) rfl fun _ _ => rfl
  | record o p conflict => exact absurd rfl (ha o p conflict)

omit [DecidableEq O] in
theorem Quota.right_record_iff {s s' : Quota O} {conflict : Bool}
    (he : p.reaches (s.onchain o) = some e) :
    Quota.Right amount ⟨s, .record o p conflict, s'⟩ ↔
      ((s'.row o).any (·.done) → conflict = false ∧ p.right e ∧
        ∃ c, s.profile = some c ∧ c.Takes (p.quota (amount o)) (amount o)) := by
  refine ⟨fun h => h o p conflict e rfl he, ?_⟩
  rintro h o' p' conflict' e' ⟨⟩ he'
  obtain rfl := Option.some.inj (he.symm.trans he')
  exact h

theorem Quota.closed_record_iff {s s' : Quota O} {conflict : Bool} (ha : 0 < amount o)
    (hs : s.Closed amount) (h : Quota.step amount s (.record o p conflict) = some s') :
    s'.Closed amount ↔ Quota.Right amount ⟨s, .record o p conflict, s'⟩ := by
  simp only [Quota.step] at h
  split_ifs at h with hruns
  obtain ⟨e, he, rfl⟩ := Option.map_eq_some_iff.mp h
  have hrow : (s.row o).any (·.done) = false := by
    cases h : s.row o with
    | none => rfl
    | some st => exact Path.not_done (p := p) (by simpa [h] using hruns)
  rw [Quota.right_record_iff he]
  unfold Quota.recordFinal
  split
  · rw [Quota.closed_recorded_iff hs hrow, Quota.done_recorded, Quota.closing_eq_iff ha]
    simp
  · -- the route leaves the row as it was
    refine iff_of_true (hs.congr (fun _ => rfl) rfl fun o' hd => ?_) fun hd => ?_
    · refine update_of_ne ?_ ..
      rintro rfl
      exact absurd (hrow.symm.trans hd) Bool.false_ne_true
    · exact absurd (hrow.symm.trans hd) Bool.false_ne_true
  · rw [Quota.closed_recorded_iff hs hrow, Quota.done_recorded]
    simp

/-- **The quota of a profile.** -/
theorem quota_closed_iff {h : List (Entry (Quota O) (Quota.Act O))} {s : Quota O}
    (hpos : ∀ o, 0 < amount o) (hr : Quota.Reach amount h s) :
    Throughout (fun _ s => s.Closed amount) h s ↔ ∀ e ∈ h, Quota.Right amount e := by
  refine hr.throughout_iff_step (fun s h0 o => ?_) fun h s a s' _ hs hstep => ?_
  · rw [(h0 o).1]
    exact ⟨fun h => (by cases h), fun _ => (h0 o).2⟩
  · by_cases ha : ∃ o p conflict, a = .record o p conflict
    · obtain ⟨o, p, conflict, rfl⟩ := ha
      exact Quota.closed_record_iff (hpos o) hs hstep
    · push Not at ha
      exact iff_of_true (hs.of_step ha hstep) fun o p conflict _ hact =>
        absurd hact (ha o p conflict)

namespace Sample

def profile : Quota ℕ := ⟨some ⟨100, 0, 0⟩, fun _ => none, fun _ => none, fun _ => []⟩

def quotaAfter (as : List (Quota.Act ℕ)) : Quota ℕ :=
  stateAfter (Quota.step fun _ => 10) as profile

def quotaHistory (as : List (Quota.Act ℕ)) : List (Entry (Quota ℕ) (Quota.Act ℕ)) :=
  record (Quota.step fun _ => 10) as profile []

def slashedByRoute : List (Quota.Act ℕ) :=
  [.opens 0, .move 0 .breaching, .record 0 (.finalizeOrder true) false]

def foundSettled : List (Quota.Act ℕ) :=
  [.opens 0, .chain 0 .settled, .record 0 .reconcileTask false]

end Sample

open Sample in
theorem quota_closed_sample :
    (quotaAfter [.opens 0, .record 0 .settleDue false]).closed 0 = [⟨10, 10, 0⟩] ∧
      (Throughout (fun _ s => s.Closed fun _ => 10)
          (quotaHistory [.opens 0, .record 0 .settleDue false])
          (quotaAfter [.opens 0, .record 0 .settleDue false]) ↔
        ∀ e ∈ quotaHistory [.opens 0, .record 0 .settleDue false], Quota.Right (fun _ => 10) e) :=
  ⟨by decide +kernel,
    quota_closed_iff (fun _ => by norm_num) (.stateAfter (.start fun _ => ⟨rfl, rfl⟩))⟩

open Sample in
/-- **Closed the wrong way, and not at all.** -/
theorem quota_not_closed :
    (Quota.Reach (fun _ => 10) (quotaHistory slashedByRoute) (quotaAfter slashedByRoute) ∧
      (quotaAfter slashedByRoute).onchain 0 = some .slashed ∧
      (quotaAfter slashedByRoute).closed 0 = [⟨10, 10, 0⟩] ∧
      ¬ (quotaAfter slashedByRoute).Closed fun _ => 10) ∧
    Quota.Reach (fun _ => 10) (quotaHistory foundSettled) (quotaAfter foundSettled) ∧
      (quotaAfter foundSettled).row 0 = some .settled ∧ (quotaAfter foundSettled).closed 0 = [] ∧
      ¬ (quotaAfter foundSettled).Closed fun _ => 10 := by
  have hslashed : (quotaAfter slashedByRoute).closed 0 = [⟨10, 10, 0⟩] := by decide +kernel
  have hfound : (quotaAfter foundSettled).closed 0 = [] := by decide +kernel
  refine ⟨⟨.stateAfter (.start fun _ => ⟨rfl, rfl⟩), by decide +kernel, hslashed, fun h => ?_⟩,
    .stateAfter (.start fun _ => ⟨rfl, rfl⟩), by decide +kernel, hfound, fun h => ?_⟩
  · obtain ⟨e, he, hdue⟩ := (h 0).1 (by decide +kernel)
    have hend : (quotaAfter slashedByRoute).onchain 0 = some .slashed := by decide +kernel
    obtain rfl := Option.some.inj (hend.symm.trans he)
    rw [hslashed] at hdue
    exact absurd hdue (by decide +kernel)
  · obtain ⟨e, -, hdue⟩ := (h 0).1 (by decide +kernel)
    rw [hfound] at hdue
    cases hdue

end Karma.EscrowServer
