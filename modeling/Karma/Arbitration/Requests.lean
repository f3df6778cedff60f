import Karma.Evm.Run
import Karma.Arbitration.Votes

/-! # Concurrent votes on an arbitration case

Each `cast_vote` request is a transaction at read committed, and none locks the row of the case
before it counts. -/

namespace Karma.Arbitration

open Karma.Evm Function

inductive CaseStatus
  | opened
  | voting
  | decided
  | executed
  deriving DecidableEq

def CaseStatus.value : CaseStatus → String
  | .opened => "open"
  | .voting => "voting"
  | .decided => "decided"
  | .executed => "executed"

/-- The columns of `arbitration_cases` that a vote reads or writes. -/
structure Case where
  status : CaseStatus
  decidedOutcome : Option Decision
  finalPartialPercent : Option ℚ
  deriving DecidableEq

structure HttpError where
  status : ℕ
  detail : String

variable {T I : Type}

/-- A `cast_vote` request, with what the checks that look elsewhere find. -/
structure Request (I : Type) where
  arbitrator : I
  decision : Decision
  partialPercent : Option Percent
  binding : Except HttpError Unit
  assigned : Bool
  /-- `assert_arbitrator_covers_case`. -/
  coverage : Except HttpError Unit

def Request.vote (b : Request I) : Except HttpError (Vote I) :=
  if h : b.partialPercent.isSome ↔ b.decision = .partialDecision then
    .ok ⟨b.arbitrator, b.decision, b.partialPercent, h⟩
  else if b.decision = .partialDecision then
    .error ⟨400, "partial_percent is required when decision is partial"⟩
  else .error ⟨400, "partial_percent is only allowed for partial decision"⟩

def Case.check (c : Case) (b : Request I) : Except HttpError (Vote I) :=
  if c.status = .decided ∨ c.status = .executed then
    .error ⟨409, "arbitration case already finalized: " ++ c.status.value⟩
  else
    match b.binding with
    | .error e => .error e
    | .ok () =>
      if b.assigned then
        match b.coverage with
        | .error e => .error e
        | .ok () => b.vote
      else .error ⟨403, "arbitrator is not assigned to this case"⟩

/-- What the request makes of the row `c` it has read, once it has counted the votes. -/
def Case.counted (required : ℕ) (c : Case) (seen : List (Vote I)) : Case :=
  match tally required seen with
  | some v => ⟨.decided, some v.outcome, v.percent⟩
  | none => if c.status = .opened then { c with status := .voting } else c

def Case.flush (read new current : Case) : Case where
  status := if new.status = read.status then current.status else new.status
  decidedOutcome :=
    if new.decidedOutcome = read.decidedOutcome then current.decidedOutcome else new.decidedOutcome
  finalPartialPercent :=
    if new.finalPartialPercent = read.finalPartialPercent then current.finalPartialPercent
    else new.finalPartialPercent

inductive Phase (I : Type)
  | checked
  | inserted
  | counted (seen : List (Vote I))
  | written (seen : List (Vote I))

structure Session (I : Type) where
  read : Case
  vote : Vote I
  phase : Phase I

def Session.seen (x : Session I) : List (Vote I) :=
  match x.phase with
  | .checked | .inserted => []
  | .counted seen | .written seen => seen

structure State (T I : Type) where
  row : Case
  votes : List (Vote I)
  basis : Option (List (Vote I)) := none
  pending : List I := []
  lock : Option T := none
  session : T → Option (Session I)

inductive Act (T I : Type)
  | request (t : T) (b : Request I)
  | insert (t : T)
  | count (t : T)
  | write (t : T)
  | commit (t : T)
  | rollback (t : T)

variable [DecidableEq T] [DecidableEq I]

def State.set (s : State T I) (t : T) (x : Option (Session I)) : State T I :=
  { s with session := update s.session t x }

/-- The end of a transaction: its row lock and its uncommitted vote are gone. -/
def State.close (s : State T I) (t : T) (x : Session I) : State T I :=
  { s.set t none with
    lock := if s.lock = some t then none else s.lock
    pending := match x.phase with
      | .checked => s.pending
      | _ => s.pending.erase x.vote.arbitrator }

variable (required : ℕ)

def State.commit (s : State T I) (t : T) (x : Session I) (seen : List (Vote I)) : State T I :=
  { s.close t x with
    row := x.read.flush (x.read.counted required seen) s.row
    votes := s.votes ++ [x.vote]
    basis := if (tally required seen).isSome then some seen else s.basis }

def step (s : State T I) : Act T I → Option (State T I)
  | .request t b =>
    match s.session t with
    | some _ => none
    | none =>
      match s.row.check b with
      | .error _ => some s
      | .ok v => some (s.set t (some ⟨s.row, v, .checked⟩))
  | .insert t =>
    match s.session t with
    | some ⟨read, v, .checked⟩ =>
      -- the unique key: 409 "duplicate vote for arbitrator in this case"
      if v.arbitrator ∈ s.votes.map (·.arbitrator) then
        some (s.close t ⟨read, v, .checked⟩)
      else if v.arbitrator ∈ s.pending then none
      else some { s.set t (some ⟨read, v, .inserted⟩) with
        pending := v.arbitrator :: s.pending }
    | _ => none
  | .count t =>
    match s.session t with
    | some ⟨read, v, .inserted⟩ =>
      some (s.set t (some ⟨read, v, .counted (s.votes ++ [v])⟩))
    | _ => none
  | .write t =>
    match s.session t with
    | some ⟨read, v, .counted seen⟩ =>
      if read.counted required seen = read then
        some (s.set t (some ⟨read, v, .written seen⟩))
      else if s.lock.isSome then none
      else some { s.set t (some ⟨read, v, .written seen⟩) with lock := some t }
    | _ => none
  | .commit t =>
    match s.session t with
    | some ⟨read, v, .written seen⟩ =>
      some (s.commit required t ⟨read, v, .written seen⟩ seen)
    | _ => none
  | .rollback t => (s.session t).map (s.close t)

def Case.Undecided (c : Case) : Prop :=
  c.status ≠ .decided ∧ c.status ≠ .executed ∧ c.decidedOutcome = none ∧
    c.finalPartialPercent = none

structure Init (s : State T I) : Prop where
  required_pos : 0 < required
  row : s.row.Undecided
  votes : s.votes = []
  basis : s.basis = none
  session : ∀ t, s.session t = none

abbrev History (T I : Type) := List (Entry (State T I) (Act T I))

abbrev Reach (h : History T I) (s : State T I) : Prop := Run (Init required) (step required) h s

/-! ## What a statement does -/

variable {required} {s s' : State T I} {t : T}

/-- **Before its commit** a request changes nothing that is committed. -/
structure Private (s s' : State T I) : Prop where
  row : s'.row = s.row
  votes : s'.votes = s.votes
  basis : s'.basis = s.basis
  session : ∀ u x', s'.session u = some x' → (∃ x, s.session u = some x ∧ x'.read = x.read ∧
      (x'.seen = x.seen ∨ x'.seen.length = s.votes.length + 1)) ∨
    x'.read = s.row ∧ s.row.status ≠ .decided ∧ s.row.status ≠ .executed ∧ x'.seen = []

omit [DecidableEq I] in
theorem Private.of_update {y : Option (Session I)} (hrow : s'.row = s.row)
    (hvotes : s'.votes = s.votes) (hbasis : s'.basis = s.basis)
    (hsession : s'.session = update s.session t y)
    (hy : ∀ x' ∈ y, (∃ x, s.session t = some x ∧ x'.read = x.read ∧
      (x'.seen = x.seen ∨ x'.seen.length = s.votes.length + 1)) ∨
      x'.read = s.row ∧ s.row.status ≠ .decided ∧ s.row.status ≠ .executed ∧ x'.seen = []) :
    Private s s' := by
  refine ⟨hrow, hvotes, hbasis, fun u x' hx' => ?_⟩
  rw [hsession] at hx'
  rcases eq_or_ne u t with rfl | hne
  · rw [update_self] at hx'
    exact hy x' hx'
  · rw [update_of_ne hne] at hx'
    exact .inl ⟨x', hx', rfl, .inl rfl⟩

theorem Private.close (s : State T I) (t : T) (x : Session I) : Private s (s.close t x) :=
  .of_update (t := t) rfl rfl rfl rfl fun _ h => by cases h

omit [DecidableEq I] in
theorem Case.not_final_of_check {c : Case} {b : Request I} {v : Vote I} (h : c.check b = .ok v) :
    c.status ≠ .decided ∧ c.status ≠ .executed := by
  unfold Case.check at h
  split at h
  · cases h
  · rename_i hfinal
    exact not_or.mp hfinal

theorem step_cases {a : Act T I} (hs : step required s a = some s') :
    (∀ t, a ≠ .commit t) ∧ Private s s' ∨
      ∃ t x seen, a = .commit t ∧ s.session t = some x ∧ x.seen = seen ∧
        s' = s.commit required t x seen := by
  cases a with
  | request t b =>
    refine .inl ⟨fun _ h => (by cases h), ?_⟩
    simp only [step] at hs
    split at hs
    · cases hs
    · split at hs <;> cases hs
      · exact ⟨rfl, rfl, rfl, fun u x' hx' => .inl ⟨x', hx', rfl, .inl rfl⟩⟩
      · rename_i v hcheck
        obtain ⟨hdecided, hexecuted⟩ := Case.not_final_of_check hcheck
        refine .of_update (t := t) rfl rfl rfl rfl fun x' hx' => ?_
        cases hx'
        exact .inr ⟨rfl, hdecided, hexecuted, rfl⟩
  | insert t =>
    refine .inl ⟨fun _ h => (by cases h), ?_⟩
    simp only [step] at hs
    split at hs
    · rename_i read v hsession
      split_ifs at hs <;> cases hs
      · exact .close ..
      · refine .of_update (t := t) rfl rfl rfl rfl fun x' hx' => ?_
        cases hx'
        exact .inl ⟨_, hsession, rfl, .inl rfl⟩
    · cases hs
  | count t =>
    refine .inl ⟨fun _ h => (by cases h), ?_⟩
    simp only [step] at hs
    split at hs
    · rename_i read v hsession
      cases hs
      refine .of_update (t := t) rfl rfl rfl rfl fun x' hx' => ?_
      cases hx'
      exact .inl ⟨_, hsession, rfl, .inr (by simp [Session.seen])⟩
    · cases hs
  | write t =>
    refine .inl ⟨fun _ h => (by cases h), ?_⟩
    simp only [step] at hs
    split at hs
    · rename_i read v seen hsession
      split_ifs at hs <;> cases hs
      all_goals
        refine .of_update (t := t) rfl rfl rfl rfl fun x' hx' => ?_
        cases hx'
        exact .inl ⟨_, hsession, rfl, .inl rfl⟩
    · cases hs
  | commit t =>
    simp only [step] at hs
    split at hs
    · rename_i read v seen hsession
      cases hs
      exact .inr ⟨t, _, seen, rfl, hsession, rfl, rfl⟩
    · cases hs
  | rollback t =>
    refine .inl ⟨fun _ h => (by cases h), ?_⟩
    obtain ⟨x, -, rfl⟩ := Option.map_eq_some_iff.mp hs
    exact .close ..

/-! ## A full round is decided -/

def Decides (required : ℕ) (s : State T I) : Prop :=
  required ≤ s.votes.length → s.basis = some s.votes ∧
    s.row = ⟨.decided, some (verdict s.votes).outcome, (verdict s.votes).percent⟩

def CountsAll (required : ℕ) (e : Entry (State T I) (Act T I)) : Prop :=
  ∀ t x, e.act = .commit t → e.pre.session t = some x → required ≤ e.post.votes.length →
    x.seen = e.post.votes ∧ ((verdict x.seen).percent = none → e.pre.row.finalPartialPercent = none)

structure Sound (required : ℕ) (s : State T I) : Prop where
  /-- Nobody has counted a vote that is neither committed nor their own. -/
  seen_le : ∀ t x, s.session t = some x → x.seen.length ≤ s.votes.length + 1
  basis_le : ∀ vs, s.basis = some vs → vs.length ≤ s.votes.length
  read : ∀ t x, s.session t = some x → x.read.Undecided
  decides : Decides required s
  undecided : s.votes.length < required → s.row.Undecided

omit [DecidableEq T] [DecidableEq I] in
theorem Init.sound (h0 : Init required s) : Sound required s where
  seen_le t x hx := by simp [h0.session t] at hx
  basis_le vs hvs := by simp [h0.basis] at hvs
  read t x hx := by simp [h0.session t] at hx
  decides hfull := by
    have := h0.required_pos
    simp [h0.votes] at hfull
    omega
  undecided _ := h0.row

omit [DecidableEq T] [DecidableEq I] in
theorem Sound.of_private (hs : Sound required s) (hp : Private s s') : Sound required s' where
  seen_le t x hx := by
    rw [hp.votes]
    rcases hp.session t x hx with ⟨y, hy, -, hseen | hseen⟩ | ⟨-, -, -, hseen⟩
    · rw [hseen]
      exact hs.seen_le t y hy
    · exact hseen.le
    · simp [hseen]
  basis_le vs hvs := by
    rw [hp.votes]
    exact hs.basis_le vs (hp.basis ▸ hvs)
  read t x hx := by
    rcases hp.session t x hx with ⟨y, hy, hread, -⟩ | ⟨hread, hdecided, -, -⟩
    · rw [hread]
      exact hs.read t y hy
    · -- a full round has a decided row, which no request gets past
      rw [hread]
      refine hs.undecided (not_le.mp fun hfull => hdecided ?_)
      rw [(hs.decides hfull).2]
  decides := by
    unfold Decides
    rw [hp.votes, hp.basis, hp.row]
    exact hs.decides
  undecided := by
    rw [hp.votes, hp.row]
    exact hs.undecided

omit [DecidableEq I] in
theorem Case.Undecided.flush {row : Case} {seen : List (Vote I)} (hrow : row.Undecided)
    (read : Case) (hfew : seen.length < required) :
    (read.flush (read.counted required seen) row).Undecided := by
  have htally : tally required seen = none := if_neg hfew.not_ge
  unfold Case.Undecided Case.flush Case.counted at *
  rw [htally]
  grind

omit [DecidableEq I] in
theorem Case.flush_decided {read row : Case} {seen : List (Vote I)} (hread : read.Undecided)
    (henough : required ≤ seen.length) :
    read.flush (read.counted required seen) row = ⟨.decided, some (verdict seen).outcome,
        if (verdict seen).percent = none then row.finalPartialPercent
        else (verdict seen).percent⟩ := by
  have htally : tally required seen = some (verdict seen) := if_pos henough
  obtain ⟨hdecided, -, houtcome, hpercent⟩ := hread
  unfold Case.flush Case.counted
  rw [htally]
  simp [houtcome, hpercent, Ne.symm hdecided]

theorem Sound.commit {x : Session I} (hs : Sound required s) (hx : s.session t = some x)
    (hcounts : required ≤ (s.votes ++ [x.vote]).length → x.seen = s.votes ++ [x.vote] ∧
      ((verdict x.seen).percent = none → s.row.finalPartialPercent = none)) :
    Sound required (s.commit required t x x.seen) where
  seen_le u y hy := by
    rcases eq_or_ne u t with rfl | hne
    · simp [State.commit, State.close, State.set] at hy
    · have hold : s.session u = some y := by
        simpa [State.commit, State.close, State.set, hne] using hy
      have hle := hs.seen_le u y hold
      simp [State.commit]
      omega
  basis_le vs hvs := by
    have hseen := hs.seen_le t x hx
    simp only [State.commit, List.length_append, List.length_singleton] at hvs ⊢
    split_ifs at hvs
    · cases hvs
      exact hseen
    · have hle := hs.basis_le vs hvs
      omega
  read u y hy := by
    rcases eq_or_ne u t with rfl | hne
    · simp [State.commit, State.close, State.set] at hy
    · refine hs.read u y ?_
      simpa [State.commit, State.close, State.set, hne] using hy
  decides hfull := by
    obtain ⟨hseen, hpercent⟩ := hcounts hfull
    have henough : required ≤ x.seen.length := hseen ▸ hfull
    have htally : tally required x.seen = some (verdict x.seen) := if_pos henough
    refine ⟨?_, ?_⟩
    · exact (if_pos (by rw [htally]; rfl)).trans (congrArg some hseen)
    · show x.read.flush (x.read.counted required x.seen) s.row = _
      rw [Case.flush_decided (hs.read t x hx) henough]
      show _ = (⟨.decided, some (verdict (s.votes ++ [x.vote])).outcome,
        (verdict (s.votes ++ [x.vote])).percent⟩ : Case)
      rw [← hseen]
      by_cases hnone : (verdict x.seen).percent = none
      · rw [if_pos hnone, hpercent hnone, hnone]
      · rw [if_neg hnone]
  undecided hfew := by
    have hlt : s.votes.length + 1 < required := by simpa [State.commit] using hfew
    have hseen := hs.seen_le t x hx
    exact (hs.undecided (by omega)).flush x.read (by omega)

/-- **Concurrent votes.** -/
theorem full_round_decided_iff {h : History T I} (hr : Reach required h s) :
    Throughout (fun _ s => Decides required s) h s ↔ ∀ e ∈ h, CountsAll required e := by
  refine (hr.throughout_iff_inv (J := fun _ s => Sound required s)
    (C := fun _ e => CountsAll required e) (H := fun _ => True) (fun _ _ _ => trivial)
    (fun _ h0 => h0.sound) ?_ (fun _ _ hJ => hJ.decides) ?_ trivial).trans each_iff
  · intro h s a s' _ _ hsound hstep hcounts
    obtain ⟨-, hp⟩ | ⟨t, x, seen, rfl, hx, rfl, rfl⟩ := step_cases hstep
    · exact hsound.of_private hp
    · exact hsound.commit hx (hcounts t x rfl hx)
  · intro h s a s' _ hsound hstep hdecides t x ha hx hfull
    obtain ⟨hne, -⟩ | ⟨u, y, seen, rfl, hy, rfl, rfl⟩ := step_cases hstep
    · exact absurd ha (hne t)
    · obtain rfl : u = t := by simpa using ha
      obtain rfl : y = x := Option.some.inj (hy.symm.trans hx)
      obtain ⟨hbasis, hrow⟩ := hdecides hfull
      simp only [State.commit] at hbasis hrow hfull ⊢
      -- without a verdict of its own, the request would leave the basis with too few votes
      have henough : required ≤ y.seen.length := by
        by_contra hfew
        have htally : tally required y.seen = none := if_neg hfew
        rw [htally] at hbasis
        have hle := hsound.basis_le _ hbasis
        simp at hle
      have htally : tally required y.seen = some (verdict y.seen) := if_pos henough
      rw [htally, Option.isSome_some, if_pos rfl] at hbasis
      have hseen := Option.some.inj hbasis
      refine ⟨hseen, fun hnone => ?_⟩
      rw [Case.flush_decided (hsound.read u y hx) henough, ← hseen, if_pos hnone, hnone] at hrow
      simpa using hrow

namespace Sample

def start : State ℕ ℕ where
  row := ⟨.voting, none, none⟩
  votes := []
  session := fun _ => none

def ask (i : ℕ) : Request ℕ := ⟨i, .buyerWins, none, .ok (), true, .ok ()⟩

def after (acts : List (Act ℕ ℕ)) : State ℕ ℕ := stateAfter (step 2) acts start

def inTurn : List (Act ℕ ℕ) :=
  [.request 0 (ask 0), .insert 0, .count 0, .write 0, .commit 0,
    .request 1 (ask 1), .insert 1, .count 1, .write 1, .commit 1]

def together : List (Act ℕ ℕ) :=
  [.request 0 (ask 0), .request 1 (ask 1), .insert 0, .insert 1, .count 0, .count 1,
    .write 0, .write 1, .commit 0, .commit 1]

end Sample

open Sample

theorem full_round_decided_sample : (after inTurn).row = ⟨.decided, some .buyerWins, none⟩ ∧
      (Throughout (fun _ s => Decides 2 s) (record (step 2) inTurn start []) (after inTurn) ↔
        ∀ e ∈ record (step 2) inTurn start [], CountsAll 2 e) :=
  ⟨rfl, full_round_decided_iff (.stateAfter (.start
    ⟨by decide, by simp [start, Case.Undecided], rfl, rfl, fun _ => rfl⟩) rfl)⟩

/-- **A full round without a verdict.** -/
theorem full_round_undecided : Reach 2 (record (step 2) together start []) (after together) ∧
      (after together).votes.map (·.arbitrator) = [0, 1] ∧
      (after together).row.status = .voting ∧
      ¬ Decides 2 (after together) := by
  refine ⟨.stateAfter (.start ⟨by decide, by simp [start, Case.Undecided], rfl, rfl, fun _ => rfl⟩)
    rfl, rfl, rfl, fun hdecides => ?_⟩
  have hbasis := (hdecides le_rfl).1
  cases hbasis

end Karma.Arbitration
