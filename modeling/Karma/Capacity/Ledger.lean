import Karma.Capacity.Code
import Karma.Db.Row

/-! # The capacity ledger under concurrency

Any number of sessions run operations of `Capacity.Code` on the row of one buyer. -/

namespace Karma.Capacity

open Karma.Evm Karma.Db Function

variable {T : Type} [DecidableEq T]

/-! ## Sessions -/

def Statement.isDelta : Statement → Bool
  | .applyDelta .. => true
  | _ => false

@[simp] theorem Statement.isDelta_applyDelta (d : Balances) (guards : List Guard) (m : String) :
    (Statement.applyDelta d guards m).isDelta = true := rfl

@[simp] theorem Statement.isDelta_heal : Statement.healCapacityConservation.isDelta = false := rfl

/-- **What a session goes on with.** -/
def Statement.next (matched : Bool) (rest : List Statement) : Statement → List Statement
  | .applyDelta .. =>
    if matched then rest.dropWhile (·.isDelta)
    else if rest.head?.any (·.isDelta) then rest else []
  | _ => rest

/-- The row of the buyer, and what each session still has to issue. -/
structure State (T : Type) where
  row : Row T Statement (Option Balances)
  todo : T → List Statement

def State.fresh : State T := ⟨⟨none, none, []⟩, fun _ => []⟩

inductive Act (T : Type)
  | request (t : T) (req : Request) (seen : Option Balances)
  | issue (t : T)
  | commit (t : T)
  | rollback (t : T)

def State.matches (S : State T) (t : T) (st : Statement) : Bool :=
  ((S.row.newest t).bind fun own => st.exec own.1).isSome

/-- A step of a session; an operation that raises before its first statement is no step. -/
def step (cfg : Settings) (S : State T) : Act T → Option (State T)
  | .request t req seen =>
    match prepare cfg req seen with
    | .ok sts => some { S with todo := update S.todo t sts }
    | .error _ => none
  | .issue t =>
    match S.todo t with
    | [] => none
    | st :: rest => (S.row.step Statement.exec (.update t st)).map fun row =>
      ⟨row, update S.todo t (st.next (S.matches t st) rest)⟩
  | .commit t => (S.row.step Statement.exec (.commit t)).map fun row => { S with row := row }
  | .rollback t => (S.row.step Statement.exec (.rollback t)).map fun row =>
    ⟨row, update S.todo t []⟩

abbrev History (T : Type) := List (Entry (State T) (Act T))

abbrev Reach (cfg : Settings) (h : History T) (S : State T) : Prop :=
  Run (· = State.fresh) (step cfg) h S

/-! ## The statements that operations issue -/

def moves : List (Field × Field) :=
  [(.availableCredits, .reservedCredits), (.reservedCredits, .availableCredits),
    (.disputedCredits, .reservedCredits)]

inductive Issued : Statement → Prop
  | ensureRow : Issued .ensureRow
  | heal : Issued .healCapacityConservation
  | mirror {delta : ℚ} : Issued (.applyCapacityDelta delta)
  | credit {amount : ℚ} {m : String} (hpos : 0 < amount) : Issued (credit amount m)
  | debit {amount slack : ℚ} {c : Balances} {m : String} (hslack : slack ≤ EPSILON)
      (hpos : 0 < amount) : Issued (debit amount slack c m)
  | move {p : Field × Field} {amount : ℚ} {m : String} (hp : p ∈ moves) (hpos : 0 < amount) :
      Issued (move p.1 p.2 amount m)
  | freeze {escrow : ℚ} : Issued (freeze escrow)
  | resolve {bucket : Field} {escrow settled refunded : ℚ} {m : String}
      (hbucket : bucket = .disputedCredits ∨ bucket = .reservedCredits) :
      Issued (resolve bucket escrow settled refunded m)

theorem pos_of_assertCanReleaseLockedFunds {c : Balances} {amount : ℚ}
    (h : assertCanReleaseLockedFunds c amount = .ok ()) : 0 < amount := by
  rw [assertCanReleaseLockedFunds] at h
  split_ifs at h with hpos
  exact lt_of_not_ge hpos

/-- What is prepared, if anything, are statements of these kinds. -/
def Issues (r : Except Refusal (List Statement)) : Prop :=
  ∀ sts, r = .ok sts → ∀ st ∈ sts, Issued st

theorem Issues.error (e : Refusal) : Issues (.error e) := by
  rintro _ ⟨⟩

theorem Issues.ok {l : List Statement} (hl : ∀ st ∈ l, Issued st) : Issues (.ok l) := by
  rintro _ ⟨⟩
  exact hl

theorem Issues.skip : Issues (.ok []) := .ok (by simp)

theorem Issues.ite {c : Prop} [Decidable c] {r r' : Except Refusal (List Statement)}
    (hr : Issues r) (hr' : ¬ c → Issues r') : Issues (if c then r else r') := by
  split_ifs with hc
  · exact hr
  · exact hr' hc

theorem issues_prepare (cfg : Settings) (req : Request) (seen : Option Balances) :
    Issues (prepare cfg req seen) := by
  cases req with
  | lockUsdc amount =>
    refine .ite (.error _) fun hpos => .ite (.error _) fun _ => .ite (.error _) fun _ => .ok ?_
    simpa using ⟨Issued.ensureRow, Issued.credit (not_le.mp hpos)⟩
  | releaseUnused identityId amount =>
    cases seen with
    | none => exact .error _
    | some c =>
      rw [prepare, releaseUnused]
      cases hcan : assertCanReleaseLockedFunds c amount with
      | error detail => exact .error _
      | ok u =>
        refine .ok ?_
        simpa using Issued.debit EPSILON_pos.le (pos_of_assertCanReleaseLockedFunds hcan)
  | creditCapacity amount =>
    refine .ite (.error _) fun hpos => .ok ?_
    simpa using ⟨Issued.ensureRow, Issued.credit (not_le.mp hpos)⟩
  | debitCapacity amount =>
    rw [prepare, debitCapacity]
    cases hcan : assertCanReleaseLockedFunds (seen.getD 0) amount with
    | error detail => exact .error _
    | ok u =>
      refine .ok ?_
      simpa using ⟨Issued.ensureRow, Issued.debit le_rfl (pos_of_assertCanReleaseLockedFunds hcan)⟩
  | acceptVoucherRow v =>
    cases seen with
    | none => exact .error _
    | some c =>
      refine .ite (.error _) fun _ => .ok ?_
      simpa using ⟨Issued.move (p := (.availableCredits, .reservedCredits))
        (by simp [moves]) v.pos, Issued.heal⟩
  | releaseReservation v =>
    refine .ite .skip fun hpos => .ok ?_
    simpa using ⟨Issued.move (p := (.reservedCredits, .availableCredits))
      (by simp [moves]) (not_le.mp hpos), Issued.heal⟩
  | restoreLeakedReservations held =>
    cases seen with
    | none => exact .skip
    | some c =>
      refine .ite .skip fun hpos => .ok ?_
      simpa using ⟨Issued.move (p := (.reservedCredits, .availableCredits))
        (by simp [moves]) (EPSILON_pos.trans (not_le.mp hpos)), Issued.heal⟩
  | moveReservedToDisputed escrow =>
    cases seen with
    | none => exact .error _
    | some c =>
      refine .ite (.error _) fun _ => .ok ?_
      simpa using ⟨Issued.freeze, Issued.heal⟩
  | applyCapacityResolution escrow settled refunded =>
    cases seen with
    | none => exact .skip
    | some c =>
      refine .ite (.error _) fun _ => .ite (.error _) fun _ => .ok ?_
      simpa using ⟨Issued.resolve (.inl rfl), Issued.resolve (.inr rfl), Issued.heal⟩
  | releaseDisputeFreeze escrow settled =>
    cases seen with
    | none => exact .skip
    | some c =>
      refine .ite .skip fun _ => .ok ?_
      simpa using Issued.resolve (.inl rfl)
  | releaseDisputeFreezeAfterRevert escrow =>
    refine .ite .skip fun hpos => .ok ?_
    simpa using Issued.move (p := (.disputedCredits, .reservedCredits))
      (by simp [moves]) (EPSILON_pos.trans (not_le.mp hpos))
  | applyCapacityDelta delta =>
    refine .ite .skip fun _ => .ok ?_
    simpa using Issued.mirror

/-! ## Conservation -/

structure Conserved (c : Balances) : Prop where
  bill : c .totalBillCredits = activeCredits c
  locked : c .totalBillCredits ≤ c .totalLockedUsdc

/-- A delta that moves both derived columns by what it does to the buckets. -/
structure Balanced (d : Balances) : Prop where
  bill : d .totalBillCredits = activeCredits d
  locked : d .totalLockedUsdc = d .totalBillCredits

theorem activeCredits_add (c d : Balances) :
    activeCredits (c + d) = activeCredits c + activeCredits d := by
  simp only [activeCredits, Pi.add_apply]
  ring

theorem Conserved.add {c d : Balances} (hc : Conserved c) (hd : Balanced d) :
    Conserved (c + d) := by
  constructor
  · rw [activeCredits_add, Pi.add_apply, hc.bill, hd.bill]
  · simp only [Pi.add_apply, hd.locked]
    exact add_le_add_left hc.locked _

theorem Issued.balanced {d : Balances} {guards : List Guard} {m : String}
    (h : Issued (.applyDelta d guards m)) : Balanced d := by
  generalize hst : Statement.applyDelta d guards m = st at h
  cases h with
  | ensureRow | heal | mirror => cases hst
  | credit | debit | freeze =>
    obtain ⟨rfl, -, -⟩ := Statement.applyDelta.inj hst
    constructor <;> simp [activeCredits]
  | move hp =>
    obtain ⟨rfl, -, -⟩ := Statement.applyDelta.inj hst
    simp only [moves, List.mem_cons, List.not_mem_nil, or_false] at hp
    rcases hp with rfl | rfl | rfl <;> constructor <;> simp [activeCredits]
  | resolve hbucket =>
    obtain ⟨rfl, -, -⟩ := Statement.applyDelta.inj hst
    rcases hbucket with rfl | rfl <;> constructor <;> simp [activeCredits]

theorem conserved_mirrored (delta : ℚ) (c : Balances) : Conserved (mirrored delta c) := by
  constructor
  · rfl
  · simp only [mirrored]
    split_ifs <;> linarith

theorem Conserved.no_gap {c : Balances} (hc : Conserved c) : capacityConservationGap c = false := by
  have hactive := hc.bill ▸ hc.locked
  have hslack : activeCredits c ≤ c .totalLockedUsdc + EPSILON :=
    hactive.trans (le_add_of_nonneg_right EPSILON_pos.le)
  simp [capacityConservationGap, hc.bill, hslack, EPSILON_pos.le]

theorem Issued.conserved {st : Statement} {v v' : Option Balances} (hst : Issued st)
    (hexec : st.exec v = some v') (hv : ∀ c ∈ v, Conserved c) : ∀ c ∈ v', Conserved c := by
  cases st with
  | ensureRow =>
    cases v with
    | none =>
      cases hexec
      rintro c ⟨⟩
      exact ⟨by simp [activeCredits], by simp⟩
    | some c => cases hexec
  | applyDelta d guards m =>
    cases v with
    | none => cases hexec
    | some c =>
      rw [Statement.exec] at hexec
      split_ifs at hexec
      cases hexec
      rintro c' ⟨⟩
      exact (hv c rfl).add hst.balanced
  | applyCapacityDelta delta =>
    cases v with
    | none => cases hexec
    | some c =>
      cases hexec
      rintro c' ⟨⟩
      exact conserved_mirrored delta c
  | healCapacityConservation =>
    cases v with
    | none => cases hexec
    | some c =>
      rw [Statement.exec, (hv c rfl).no_gap] at hexec
      cases hexec

/-! ## The buckets -/

def InBounds (c : Balances) : Prop := ∀ f ∈ buckets, -EPSILON ≤ c f

theorem inBounds_iff {c : Balances} :
    InBounds c ↔ -EPSILON ≤ c .availableCredits ∧ -EPSILON ≤ c .reservedCredits ∧
      -EPSILON ≤ c .inProgressCredits ∧ -EPSILON ≤ c .confirmedProgressCredits ∧
      -EPSILON ≤ c .disputedCredits ∧ -EPSILON ≤ c .pendingSettlementCredits := by
  simp [InBounds, buckets, responsibilityFields]

theorem InBounds.add {c d : Balances} (hc : InBounds c)
    (hd : ∀ f ∈ buckets, 0 ≤ d f ∨ -d f ≤ c f + EPSILON) : InBounds (c + d) := by
  intro f hf
  have hcf := hc f hf
  rw [Pi.add_apply]
  rcases hd f hf with h | h <;> linarith

theorem Issued.inBounds {st : Statement} {c c' : Balances} (hst : Issued st)
    (hexec : st.exec (some c) = some (some c')) (hc : InBounds c)
    (hfreeze : ∀ escrow, st = Capacity.freeze escrow → -EPSILON ≤ c .disputedCredits + escrow) :
    InBounds c' := by
  have heps := EPSILON_pos
  cases hst with
  | ensureRow => cases hexec
  | heal =>
    rw [Statement.exec] at hexec
    split_ifs at hexec
    obtain rfl := Option.some.inj (Option.some.inj hexec)
    have hsix := inBounds_iff.mp hc
    exact inBounds_iff.mpr hsix
  | @mirror delta =>
    obtain rfl := Option.some.inj (Option.some.inj hexec)
    obtain ⟨-, hrest⟩ := inBounds_iff.mp hc
    refine inBounds_iff.mpr ⟨?_, hrest⟩
    simp only [mirrored]
    split_ifs <;> linarith
  | credit hpos =>
    obtain rfl := Option.some.inj (Option.some.inj hexec)
    refine hc.add fun f hf => .inl ?_
    cases f <;> simp [hpos.le]
  | @debit amount slack snapshot m hslack hpos =>
    obtain ⟨hguards, hc'⟩ := Statement.exec_applyDelta hexec
    cases hc'
    have havailable : amount ≤ c .availableCredits + slack :=
      Guard.holds_covers.mp (hguards _ (by simp))
    refine hc.add fun f hf => ?_
    cases f with
    | availableCredits => exact .inr (by simp; linarith)
    | totalLockedUsdc | totalBillCredits => simp [buckets, responsibilityFields] at hf
    | releasedCredits => exact .inl (by simp [hpos.le])
    | _ => exact .inl (by simp)
  | @move p amount m hp hpos =>
    obtain ⟨hguards, hc'⟩ := Statement.exec_applyDelta hexec
    cases hc'
    have hsource : amount ≤ c p.1 + EPSILON := Guard.holds_covers.mp (hguards _ (by simp))
    refine hc.add fun f hf => ?_
    by_cases hf' : f = p.1
    · subst hf'
      exact .inr (by simpa using hsource)
    · left
      rw [deltas_cons, if_neg hf', deltas_cons]
      split_ifs
      · exact hpos.le
      · exact le_rfl
  | @freeze escrow =>
    have hdisputed := hfreeze escrow rfl
    obtain ⟨hguards, hc'⟩ := Statement.exec_applyDelta hexec
    cases hc'
    have hreserved : escrow ≤ c .reservedCredits + EPSILON :=
      Guard.holds_covers.mp (hguards _ (by simp))
    refine hc.add fun f hf => ?_
    cases f with
    | reservedCredits => exact .inr (by simpa using hreserved)
    | disputedCredits => exact .inr (by simp; linarith)
    | _ => exact .inl (by simp)
  | @resolve bucket escrow settled refunded m hbucket =>
    obtain ⟨hguards, hc'⟩ := Statement.exec_applyDelta hexec
    cases hc'
    have hcovers : escrow ≤ c bucket + EPSILON := Guard.holds_covers.mp (hguards _ (by simp))
    refine hc.add fun f hf => ?_
    by_cases hf' : f = bucket
    · subst hf'
      right
      rcases hbucket with rfl | rfl <;> simpa using hcovers
    · left
      rcases hbucket with rfl | rfl <;> cases f <;> simp_all [buckets, responsibilityFields]

/-! ## Whole runs -/

variable {cfg : Settings} {S S' : State T} {h : History T}

/-- What holds of the sessions and of the row at any time. -/
structure Sound (S : State T) : Prop where
  issued : ∀ t, ∀ st ∈ S.todo t, Issued st
  replays : S.row.Replays Statement.exec none
  conserved : S.row.Versions fun v => ∀ c ∈ v, Conserved c
  logged : S.row.Logged (· ≠ .healCapacityConservation)

theorem Statement.next_subset (st : Statement) (matched : Bool) (rest : List Statement) :
    st.next matched rest ⊆ rest := by
  cases st with
  | applyDelta =>
    rw [Statement.next]
    split_ifs
    · exact (List.dropWhile_sublist _).subset
    · exact List.Subset.refl _
    · exact List.nil_subset _
  | _ => exact List.Subset.refl _

theorem step_cases {a : Act T} (hstep : step cfg S a = some S') :
    (S'.row = S.row ∨ ∃ act, S.row.step Statement.exec act = some S'.row ∧
      ∀ t st, act = .update t st → a = .issue t ∧ ∃ rest, S.todo t = st :: rest) ∧
    ∀ t, ∀ st ∈ S'.todo t, st ∈ S.todo t ∨ ∃ req seen sts, a = .request t req seen ∧
      prepare cfg req seen = .ok sts ∧ st ∈ sts := by
  -- a session's own list is the only one that changes
  have hlist (t : T) (sts : List Statement) (P : T → Statement → Prop)
      (hnew : ∀ st ∈ sts, P t st) (hold : ∀ t', ∀ st ∈ S.todo t', P t' st) :
      ∀ t', ∀ st ∈ update S.todo t sts t', P t' st := by
    intro t' st hst
    by_cases ht : t' = t
    · subst ht
      rw [update_self] at hst
      exact hnew st hst
    · rw [update_of_ne ht] at hst
      exact hold t' st hst
  cases a with
  | request t req seen =>
    simp only [step] at hstep
    cases hprep : prepare cfg req seen with
    | error e => exact absurd hstep (by simp [hprep])
    | ok sts =>
      rw [hprep] at hstep
      cases hstep
      exact ⟨.inl rfl, hlist t sts _ (fun st hst => .inr ⟨req, seen, sts, rfl, hprep, hst⟩)
        fun _ _ => .inl⟩
  | issue t =>
    simp only [step] at hstep
    cases htodo : S.todo t with
    | nil => exact absurd hstep (by simp [htodo])
    | cons st rest =>
      rw [htodo] at hstep
      obtain ⟨row, hrow, rfl⟩ := Option.map_eq_some_iff.mp hstep
      refine ⟨.inr ⟨_, hrow, ?_⟩, hlist t _ _ (fun st' hst' => .inl ?_) fun _ _ => .inl⟩
      · rintro t' st' heq
        obtain ⟨rfl, rfl⟩ := Db.Act.update.inj heq
        exact ⟨rfl, rest, htodo⟩
      · rw [htodo]
        exact List.mem_cons_of_mem _ (Statement.next_subset _ _ _ hst')
  | commit t =>
    obtain ⟨row, hrow, rfl⟩ := Option.map_eq_some_iff.mp hstep
    exact ⟨.inr ⟨_, hrow, fun t' st' heq => by cases heq⟩, fun _ _ => .inl⟩
  | rollback t =>
    obtain ⟨row, hrow, rfl⟩ := Option.map_eq_some_iff.mp hstep
    exact ⟨.inr ⟨_, hrow, fun t' st' heq => by cases heq⟩,
      hlist t [] _ (fun st hst => absurd hst List.not_mem_nil) fun _ _ => .inl⟩

theorem Sound.step {a : Act T} (hs : Sound S) (hstep : step cfg S a = some S') : Sound S' := by
  obtain ⟨hrow, htodo⟩ := step_cases hstep
  have hissued : ∀ t, ∀ st ∈ S'.todo t, Issued st := by
    intro t st hst
    rcases htodo t st hst with hold | ⟨req, seen, sts, -, hprep, hmem⟩
    · exact hs.issued t st hold
    · exact issues_prepare _ _ _ _ hprep st hmem
  rcases hrow with hsame | ⟨act, hact, hfrom⟩
  · exact ⟨hissued, hsame ▸ hs.replays, hsame ▸ hs.conserved, hsame ▸ hs.logged⟩
  · refine ⟨hissued, hs.replays.step hact, hs.conserved.step ?_ hact, hs.logged.step ?_ hact⟩
    · intro t st v v' ops heq hnewest hexec hv
      obtain ⟨-, rest, hhead⟩ := hfrom t st heq
      exact (hs.issued t st (hhead ▸ List.mem_cons_self)).conserved hexec hv
    · rintro t st v v' ops - hnewest hexec rfl
      cases v with
      | none => cases hexec
      | some c =>
        rw [Statement.exec, (hs.conserved.newest hnewest c rfl).no_gap] at hexec
        cases hexec

omit [DecidableEq T] in
theorem sound_fresh : Sound (State.fresh : State T) where
  issued := fun _ _ hst => absurd hst List.not_mem_nil
  replays := ⟨rfl, fun _ hw => absurd hw (Option.some_ne_none _).symm⟩
  conserved := ⟨fun _ hc => absurd hc (Option.some_ne_none _).symm,
    fun _ hw => absurd hw (Option.some_ne_none _).symm⟩
  logged := ⟨fun _ ho => absurd ho List.not_mem_nil,
    fun _ hw => absurd hw (Option.some_ne_none _).symm⟩

theorem Reach.sound (hr : Reach cfg h S) : Sound S := by
  refine hr.safe (P := Sound) ?_ fun _ _ _ => Sound.step
  rintro S rfl
  exact sound_fresh

def FreezeCovered (e : Entry (State T) (Act T)) : Prop :=
  ∀ t escrow rest c ops, e.act = .issue t → e.pre.todo t = freeze escrow :: rest →
    e.pre.row.newest t = some (some c, ops) → -EPSILON ≤ c .disputedCredits + escrow

theorem Reach.inBounds (hr : Reach cfg h S) (hcovered : ∀ e ∈ h, FreezeCovered e) :
    S.row.Versions fun v => ∀ c ∈ v, InBounds c := by
  revert hcovered
  refine hr.invariant (P := fun h S => (∀ e ∈ h, FreezeCovered e) →
    S.row.Versions fun v => ∀ c ∈ v, InBounds c) ?_ ?_
  · rintro S rfl -
    exact ⟨fun _ hc => absurd hc (Option.some_ne_none _).symm,
      fun _ hw => absurd hw (Option.some_ne_none _).symm⟩
  · intro h S a S' hr ih hstep hcovered
    have hold := ih fun e he => hcovered e (List.mem_cons_of_mem _ he)
    obtain ⟨hsame | ⟨act, hact, hfrom⟩, -⟩ := step_cases hstep
    · exact hsame ▸ hold
    · refine hold.step ?_ hact
      intro t st v v' ops heq hnewest hexec hv
      obtain ⟨rfl, rest, hhead⟩ := hfrom t st heq
      have hissued := (Reach.sound hr).issued t st (hhead ▸ List.mem_cons_self)
      cases v with
      | none =>
        -- only the insertion of a row of zeros matches where there is no row
        cases st with
        | ensureRow =>
          cases hexec
          rintro c ⟨⟩ f -
          exact neg_nonpos.mpr EPSILON_pos.le
        | _ => cases hexec
      | some c =>
        rintro c' rfl
        refine hissued.inBounds hexec (hv c rfl) ?_
        rintro escrow rfl
        exact hcovered _ List.mem_cons_self t escrow rest c ops rfl hhead hnewest

theorem ledger_under_concurrency (hr : Reach cfg h S) : (∀ c ∈ S.row.committed, Conserved c) ∧
    S.row.log.foldrM Statement.exec none = some S.row.committed ∧
    (∀ st ∈ S.row.log, st ≠ .healCapacityConservation) ∧
    ((∀ e ∈ h, FreezeCovered e) → ∀ c ∈ S.row.committed, InBounds c) ∧
    ∀ req seen sts st c c', prepare cfg req seen = .ok sts → st ∈ sts →
      st.exec (some c) = some (some c') → InBounds c →
      (InBounds c' ↔ ∀ escrow, st = freeze escrow → -EPSILON ≤ c .disputedCredits + escrow) := by
  have hs := Reach.sound hr
  refine ⟨hs.conserved.committed, hs.replays.log, hs.logged.log,
    fun hcovered => (Reach.inBounds hr hcovered).committed, ?_⟩
  intro req seen sts st c c' hprep hmem hexec hc
  constructor
  · rintro hc' escrow rfl
    obtain ⟨-, hv⟩ := Statement.exec_applyDelta hexec
    cases hv
    have hdisputed := hc' .disputedCredits (by decide)
    simpa using hdisputed
  · exact (issues_prepare _ _ _ _ hprep st hmem).inBounds hexec hc

namespace Sample

def settings : Settings := ⟨1 / 100, 10000⟩

def locked : Balances :=
  deltas [(.totalLockedUsdc, 10), (.totalBillCredits, 10), (.availableCredits, 10)]

def acts (escrow : ℚ) : List (Act ℕ) :=
  [.request 1 (.lockUsdc 10) none, .issue 1, .issue 1, .commit 1,
    .request 2 (.acceptVoucherRow ⟨4, by norm_num⟩) (some locked), .issue 2, .commit 2,
    .request 3 (.moveReservedToDisputed escrow)
      (some (locked + deltas [(.availableCredits, -4), (.reservedCredits, 4)])),
    .issue 3, .commit 3]

def after (escrow : ℚ) : State ℕ := stateAfter (step settings) (acts escrow) .fresh

end Sample

open Sample

theorem ledger_under_concurrency_sample : Reach settings (record (step settings) (acts 4) .fresh [])
        (after 4) ∧
      ∀ c ∈ (after 4).row.committed, Conserved c :=
  have hr : Reach settings _ (after 4) := .stateAfter (.start rfl)
  ⟨hr, (ledger_under_concurrency hr).1⟩

/-- **A dispute over a negative escrow.** -/
theorem freeze_of_negative_escrow : Reach settings (record (step settings) (acts (-5)) .fresh [])
        (after (-5)) ∧
      ∃ c ∈ (after (-5)).row.committed, ¬ InBounds c := by
  refine ⟨.stateAfter (.start rfl), ?_⟩
  have hrow : ((after (-5)).row.committed.map (· .disputedCredits)) = some (-5) := by
    decide +kernel
  obtain ⟨c, hc, hdisputed⟩ := Option.map_eq_some_iff.mp hrow
  refine ⟨c, hc, fun hbounds => ?_⟩
  have hlow := hbounds .disputedCredits (by decide)
  norm_num [hdisputed, EPSILON] at hlow

end Karma.Capacity
