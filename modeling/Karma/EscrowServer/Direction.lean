import Karma.EscrowServer.Code

/-! # The direction of a window, on the chain and in the ledger

A window on the chain pays the seller or slashes the seller (`slashArmed`). -/

namespace Karma.EscrowServer

open Evm AllowanceEscrow Function

section Direction

variable {T : Type} [DecidableEq T] {cfg : Config T} {S S' : State T} {read : Bool}
  {h : List (Entry (State T) (Act T))}

/-! ## What a job can decide -/

inductive Planned (S : State T) : Plan T → Prop
  | idle : Planned S .idle
  | adopt {b : ℕ} {row : Row T} (hrow : S.rows b = some row)
      (hst : (S.chain.bindings b).state = .finalizing) :
      Planned S (.write b (row.adopt (S.chain.bindings b)))
  | rearm {b : ℕ} {row : Row T} {time : Option ℕ} (hrow : S.rows b = some row)
      (harmed : (S.chain.bindings b).slashArmed = true) :
      Planned S (.write b { row with state := .breaching, pullAfter := time })
  | align {b : ℕ} {row : Row T} {state : RowState} (hrow : S.rows b = some row)
      (hfin : state ≠ .finalizing) (hbreach : state ≠ .breaching) :
      Planned S (.write b { row with state })
  | submit {b : ℕ} {row : Row T} {proof : Bytes32} (hrow : S.rows b = some row)
      (hst : row.state ≠ .finalizing ∧ row.state ≠ .breaching) :
      Planned S (.send b (.submitSettlement b proof) row .finalizing)
  | breach {b : ℕ} {row : Row T} {proof : Bytes32} (hrow : S.rows b = some row) :
      Planned S (.send b (.submitBreach b proof) row .breaching)
  | leave {b : ℕ} {row : Row T} {c : Call} {target : RowState} (hrow : S.rows b = some row)
      (hcall : c = .cancelBinding b ∨ c = .markDisputed b ∨ c = .finalizeSettlement b ∨
        c = .finalizeBreach b)
      (hfin : target ≠ .finalizing) (hbreach : target ≠ .breaching) :
      Planned S (.send b c row target)
  | rebind {b i j amount : ℕ} {row : Row T} (hrow : S.rows b = some row) :
      Planned S (.rebind b row i j amount)

omit [DecidableEq T] in
theorem of_chainFinal {st : BindingState} {state : RowState} (hst : chainFinal st = some state) :
    state ≠ .finalizing ∧ state ≠ .breaching := by
  cases st <;> cases hst <;> decide

omit [DecidableEq T] in
theorem State.eq_of_snapshot {b : ℕ} {binding : Binding}
    (hsnap : S.snapshot read b = some binding) :
    S.chain.bindings b = binding := by
  cases read
  · cases hsnap
  · exact Option.some.inj hsnap

omit [DecidableEq T] in
theorem planned_cancelForTask {b : ℕ} {row : Row T} (hrow : S.rows b = some row) :
    Planned S (cancelForTask S read b row) := by
  unfold cancelForTask
  split_ifs
  · exact .idle
  · split
    · exact .leave hrow (.inl rfl) (by decide) (by decide)
    · next binding hsnap =>
        cases State.eq_of_snapshot hsnap
        split
        · next hst => exact .adopt hrow hst
        · exact .align hrow (by decide) (by decide)
        · exact .align hrow (by decide) (by decide)
        · exact .align hrow (by decide) (by decide)
        · exact .idle
        · exact .leave hrow (.inl rfl) (by decide) (by decide)
        · exact .leave hrow (.inl rfl) (by decide) (by decide)

omit [DecidableEq T] in
theorem planned_cancelBindingRow {b : ℕ} {row : Row T} (hrow : S.rows b = some row) :
    Planned S (cancelBindingRow S read b row) := by
  have hplan : Planned S (cancelForTask S read b row) := planned_cancelForTask hrow
  unfold cancelBindingRow
  split
  · next heq =>
      rw [heq] at hplan
      split_ifs
      · exact .idle
      · exact hplan
  · exact hplan

omit [DecidableEq T] in
theorem planned_submitForTask {b i j : ℕ} {row : Row T} {given : Option ℕ}
    (hrow : S.rows b = some row) : Planned S (submitForTask cfg S read b row i j given) := by
  unfold submitForTask
  split_ifs with hst
  · exact .idle
  have hopen : row.state ≠ .finalizing ∧ row.state ≠ .breaching := by
    constructor <;> intro heq <;> rw [heq] at hst <;> exact hst (by decide)
  cases S.books row.task with
  | none => exact .idle
  | some books =>
    simp only
    split_ifs
    · exact planned_cancelForTask hrow
    · exact .rebind hrow
    · split
      · exact .submit hrow hopen
      · next binding hsnap =>
          cases State.eq_of_snapshot hsnap
          split_ifs with hfin
          · exact .adopt hrow hfin
          · exact .submit hrow hopen
    · exact .idle

omit [DecidableEq T] in
theorem planned_slashForTask {b : ℕ} {row : Row T} (hrow : S.rows b = some row) :
    Planned S (slashForTask cfg S read b row) := by
  unfold slashForTask
  split_ifs
  · exact .idle
  cases S.books row.task with
  | none => exact .idle
  | some books =>
    simp only
    split
    · exact .idle
    split
    · exact .breach hrow
    · next binding hsnap =>
        cases State.eq_of_snapshot hsnap
        split
        · next state hfinal =>
            exact .align hrow (of_chainFinal hfinal).1 (of_chainFinal hfinal).2
        · split_ifs with harmed
          · exact .rearm hrow harmed.2
          · exact .breach hrow

omit [DecidableEq T] in
theorem planned_markDisputeForTask {b : ℕ} {row : Row T} (hrow : S.rows b = some row) :
    Planned S (markDisputeForTask S read b row) := by
  unfold markDisputeForTask
  split_ifs
  · exact .idle
  split
  · exact .leave hrow (.inr (.inl rfl)) (by decide) (by decide)
  · split
    · exact .align hrow (by decide) (by decide)
    · exact .leave hrow (.inr (.inl rfl)) (by decide) (by decide)
    · exact .idle

omit [DecidableEq T] in
theorem planned_chainFinal {b : ℕ} {row : Row T} {p : Plan T} (hrow : S.rows b = some row)
    (hplan : Planned S p) :
    Planned S (match (S.snapshot read b).bind fun binding => chainFinal binding.state with
      | some state => .write b { row with state }
      | none => p) := by
  split
  · next state hfinal =>
      obtain ⟨binding, -, hfinal⟩ := Option.bind_eq_some_iff.mp hfinal
      exact .align hrow (of_chainFinal hfinal).1 (of_chainFinal hfinal).2
  · exact hplan

omit [DecidableEq T] in
theorem planned_select {b : ℕ} {p : Row T → Prop} [DecidablePred p] {f : Row T → Plan T}
    (hf : ∀ row, S.rows b = some row → Planned S (f row)) : Planned S (S.select b p f) := by
  unfold State.select
  split
  · exact .idle
  · next row hrow =>
      split_ifs
      · exact hf row hrow
      · exact .idle

theorem planned_reapStranded {b c i j : ℕ} {row : Row T} (hrow : S.rows b = some row) :
    Planned S (reapStranded cfg S read b row c i j) := by
  have hdecided : Planned S (reapDecided cfg S read b row c i j) := by
    unfold reapDecided
    split
    · exact .idle
    · refine planned_select fun newest hnewest => ?_
      split_ifs
      · exact planned_cancelBindingRow hrow
      · split
        · exact planned_cancelForTask hnewest
        · exact planned_cancelForTask hnewest
        · exact planned_cancelForTask hnewest
        · exact planned_cancelForTask hnewest
        · exact planned_slashForTask hnewest
        · exact planned_submitForTask hnewest
        · exact .idle
  unfold reapStranded
  split
  · exact hdecided
  · next binding hsnap =>
      cases State.eq_of_snapshot hsnap
      split
      · next state hfinal => exact .align hrow (of_chainFinal hfinal).1 (of_chainFinal hfinal).2
      · split_ifs with hfin
        · exact .adopt hrow hfin
        · exact hdecided

theorem planned_plan (job : Job) : Planned S (plan cfg S read job) := by
  cases job with
  | submitForTask => exact planned_select fun _ hrow => planned_submitForTask hrow
  | slashForTask => exact planned_select fun _ hrow => planned_slashForTask hrow
  | cancelForTask => exact planned_select fun _ hrow => planned_cancelForTask hrow
  | markDisputeForTask => exact planned_select fun _ hrow => planned_markDisputeForTask hrow
  | settleDue b =>
    exact planned_select fun _ hrow => planned_chainFinal hrow
      (.leave hrow (.inr (.inr (.inl rfl))) (by decide) (by decide))
  | breachDue b =>
    exact planned_select fun _ hrow => planned_chainFinal hrow
      (.leave hrow (.inr (.inr (.inr rfl))) (by decide) (by decide))
  | reapStranded => exact planned_select fun _ hrow => planned_reapStranded hrow
  | reconcileFromChain => exact planned_select fun _ hrow => planned_chainFinal hrow .idle

/-! ## What a job can do -/

variable {committed : Bool} {landed : ℕ}

omit [DecidableEq T] in
theorem run_idle (hrun : Plan.idle.run cfg S landed committed = some S') : S' = S := by
  have hsame : S = S' := by simpa [Plan.run, Plan.calls, steps, Plan.store] using hrun
  exact hsame.symm

omit [DecidableEq T] in
theorem run_write_eq (b landed : ℕ) (row : Row T) (committed : Bool) :
    (Plan.write b row).run cfg S landed committed = some { S with
      rows := if committed then update S.rows b (some row) else S.rows } := by
  simp [Plan.run, Plan.calls, steps, Plan.store]

omit [DecidableEq T] in
theorem run_write {b landed : ℕ} {row : Row T}
    (hrun : (Plan.write b row).run cfg S landed committed = some S') :
    S' = { S with
      rows := if committed then update S.rows b (some row) else S.rows } :=
  Option.some.inj (hrun.symm.trans (run_write_eq b landed row committed))

omit [DecidableEq T] in
theorem run_send {b landed : ℕ} {c : Call} {row : Row T} {target : RowState}
    (hrun : (Plan.send b c row target).run cfg S landed committed = some S') :
    landed = 0 ∧ S' = S ∨ 1 ≤ landed ∧ ∃ w, Effect cfg.contract S.chain (.call cfg.operator c) w ∧
      S' = { S with
        chain := w
        rows := if committed then
          update S.rows b (some (row.moved target (w.bindings b))) else S.rows } := by
  obtain ⟨w, hsteps, rfl⟩ := Option.map_eq_some_iff.mp hrun
  cases landed with
  | zero =>
    cases hsteps
    exact .inl ⟨rfl, by simp [Plan.calls]⟩
  | succ n =>
    simp only [Plan.calls, List.take_succ_cons, List.take_nil, List.map_cons, List.map_nil,
      steps] at hsteps
    obtain ⟨w', hstep, hw⟩ := Option.bind_eq_some_iff.mp hsteps
    cases hw
    refine .inr ⟨by omega, w, effect_of_step hstep, ?_⟩
    simp [Plan.calls, Plan.store]

/-- The transactions of a rebinding that have landed. -/
structure Rebound (w : World) (b : ℕ) (w' : World) : Prop where
  cancelled : (w'.bindings b).state = .cancelled
  others : ∀ c, c ≤ w.bindingCounter → c ≠ b → w'.bindings c = w.bindings c
  extended : Extends w w'

omit [DecidableEq T] in
theorem run_rebind {b i j amount landed : ℕ} {row : Row T} (hb : b ≤ S.chain.bindingCounter)
    (hrun : (Plan.rebind b row i j amount).run cfg S landed committed = some S') :
    landed = 0 ∧ S' = S ∨ 1 ≤ landed ∧ Rebound S.chain b S'.chain ∧ (S'.rows = S.rows ∨
        committed = true ∧ 3 ≤ landed ∧
        (S'.chain.bindings S'.chain.bindingCounter).slashArmed = false ∧
        (S'.chain.bindings S'.chain.bindingCounter).amount = amount ∧
        S'.rows = update (update S.rows b none) S'.chain.bindingCounter
          (some { row.moved .finalizing (S'.chain.bindings S'.chain.bindingCounter) with
            amount })) := by
  obtain ⟨w, hsteps, rfl⟩ := Option.map_eq_some_iff.mp hrun
  rcases landed with _ | landed
  · cases hsteps
    exact .inl ⟨rfl, by simp [Plan.calls]⟩
  refine .inr ⟨by omega, ?_⟩
  simp only [Plan.calls, List.take_succ_cons, List.map_cons, steps] at hsteps ⊢
  -- the first transaction cancels `b`
  obtain ⟨w₁, hstep, hsteps⟩ := Option.bind_eq_some_iff.mp hsteps
  have he₁ := effect_of_step hstep
  have hcount₁ : w₁.bindingCounter = S.chain.bindingCounter := by cases he₁; rfl
  have hone : Rebound S.chain b w₁ := by
    refine ⟨?_, fun c hc hne => he₁.bindings_eq hc fun heq => hne (Option.some.inj heq).symm,
      he₁.extends⟩
    cases he₁
    simp [World.setBinding]
  rcases landed with _ | landed
  · cases hsteps
    exact ⟨hone, .inl (by simp)⟩
  -- the second records a new binding
  simp only [List.take_succ_cons, List.map_cons, steps] at hsteps
  obtain ⟨w₂, hstep, hsteps⟩ := Option.bind_eq_some_iff.mp hsteps
  have he₂ := effect_of_step hstep
  have hcount₂ : w₂.bindingCounter = S.chain.bindingCounter + 1 := by
    cases he₂
    exact congrArg (· + 1) hcount₁
  have hsame₂ : ∀ c, c ≤ S.chain.bindingCounter → w₂.bindings c = w₁.bindings c := fun c hc =>
    he₂.bindings_eq (hcount₁ ▸ hc) (Option.some_ne_none _).symm
  have htwo : Rebound S.chain b w₂ :=
    ⟨hsame₂ b hb ▸ hone.cancelled, fun c hc hne => (hsame₂ c hc).trans (hone.others c hc hne),
      hone.extended.trans he₂.extends⟩
  rcases landed with _ | landed
  · cases hsteps
    exact ⟨htwo, .inl (by simp)⟩
  -- the third opens its window
  simp only [List.take_succ_cons, List.take_nil, List.map_cons, List.map_nil, steps] at hsteps
  obtain ⟨w₃, hstep, hw⟩ := Option.bind_eq_some_iff.mp hsteps
  cases hw
  have he₃ := effect_of_step hstep
  have hcount₃ : w.bindingCounter = S.chain.bindingCounter + 1 := by
    cases he₃
    exact hcount₂
  have hsame₃ : ∀ c, c ≤ S.chain.bindingCounter → w.bindings c = w₂.bindings c := fun c hc =>
    he₃.bindings_eq (by omega) fun heq => by
      have := Option.some.inj heq
      omega
  have hthree : Rebound S.chain b w :=
    ⟨hsame₃ b hb ▸ htwo.cancelled, fun c hc hne => (hsame₃ c hc).trans (htwo.others c hc hne),
      htwo.extended.trans he₃.extends⟩
  refine ⟨hthree, ?_⟩
  cases committed
  · exact .inl (by simp)
  · refine .inr ⟨rfl, by omega, ?_, ?_, ?_⟩
    · rw [hcount₃]
      cases he₃
      simp [World.setBinding]
    · rw [hcount₃]
      have hnew : (w₂.bindings (S.chain.bindingCounter + 1)).amount = amount := by
        rw [← hcount₁]
        cases he₂
        simp
      cases he₃
      simp [World.setBinding, hnew]
    · simp [Plan.store]

/-! ## The direction of a row -/

def Aligned (w : World) (b : ℕ) (row : Row T) : Prop :=
  (w.bindings b).state = .finalizing →
    (row.state = .finalizing → (w.bindings b).slashArmed = false) ∧
      (row.state = .breaching → (w.bindings b).slashArmed = true)

def Directed (S : State T) : Prop := ∀ b row, S.rows b = some row → Aligned S.chain b row

def Mirrors (w : World) (b : ℕ) (row : Row T) : Prop :=
  b ≤ w.bindingCounter ∧ (w.bindings b).amount = row.amount

def Recorded (S : State T) : Prop := ∀ b row, S.rows b = some row → Mirrors S.chain b row

/-- **The condition that is missing**. -/
def Straight (cfg : Config T) (e : Entry (State T) (Act T)) : Prop :=
  match e.act with
  | .job job read landed committed =>
    match plan cfg e.pre read job with
    | .write b row =>
      committed = true → row.state = .finalizing → (e.pre.chain.bindings b).slashArmed = false
    | .send _ (.submitBreach _ _) row _ =>
      row.state = .finalizing → 1 ≤ landed → committed = true
    | _ => True
  | _ => True

instance (cfg : Config T) (e : Entry (State T) (Act T)) : Decidable (Straight cfg e) := by
  unfold Straight
  split
  · split <;> infer_instance
  · infer_instance

section

variable {w w' : World} {a : AllowanceEscrow.Act} {b : ℕ} {row : Row T}

omit [DecidableEq T] in
theorem Aligned.effect (hal : Aligned w b row) (he : Effect cfg.contract w a w')
    (hb : b ≤ w.bindingCounter) (hopen : OpensWindow a = false) : Aligned w' b row := by
  intro hfin
  cases he.life b with
  | untouched _ hsame =>
    rw [hsame] at hfin ⊢
    exact hal hfin
  | bound hnew => omega
  | confirmed hst _ _ _ hnew =>
    rw [hnew]
    exact hal hst
  | cancelled _ _ hnew | disputed _ _ hnew | settled _ _ _ hnew | slashed _ _ _ _ hnew =>
    rw [hnew] at hfin
    cases hfin
  | ruledSettlement | ruledBreach => cases hopen

variable {c : ℕ}

omit [DecidableEq T] in
theorem Aligned.of_ne (hal : Aligned w c row) (he : Effect cfg.contract w a w')
    (hc : c ≤ w.bindingCounter) (hname : a.binding = some b) (hne : c ≠ b) : Aligned w' c row := by
  have hsame := he.bindings_eq hc (by rw [hname]; exact fun heq => hne (Option.some.inj heq).symm)
  rw [Aligned, hsame]
  exact hal

omit [DecidableEq T] in
theorem Aligned.of_state (hfin : row.state ≠ .finalizing) (hbreach : row.state ≠ .breaching) :
    Aligned w b row :=
  fun _ => ⟨fun h => absurd h hfin, fun h => absurd h hbreach⟩

omit [DecidableEq T] in
theorem rows_of_erased {rows : ℕ → Option (Row T)} (hrow : update rows b none c = some row) :
    rows c = some row := by
  rcases eq_or_ne c b with rfl | hne
  · rw [update_self] at hrow
    cases hrow
  · rwa [update_of_ne hne] at hrow

omit [DecidableEq T] in
theorem forall_rows_update {Q : ℕ → Row T → Prop} {rows : ℕ → Option (Row T)}
    (hold : ∀ c row, rows c = some row → c ≠ b → Q c row) (hnew : Q b row) {row' : Row T}
    (hrow : update rows b (some row) c = some row') : Q c row' := by
  rcases eq_or_ne c b with rfl | hne
  · rw [update_self] at hrow
    exact Option.some.inj hrow ▸ hnew
  · rw [update_of_ne hne] at hrow
    exact hold c row' hrow hne

omit [DecidableEq T] in
theorem Mirrors.extends (hm : Mirrors w b row) (hext : Extends w w') : Mirrors w' b row := by
  have hterms := hext.binding b hm.1
  simp only [Binding.terms, Prod.mk.injEq] at hterms
  exact ⟨Nat.le_trans hm.1 hext.bindingCounter, hterms.2.2.2.1.trans hm.2⟩

end

omit [DecidableEq T] in
theorem Row.moved_amount (row : Row T) (target : RowState) (binding : Binding) :
    (row.moved target binding).amount = row.amount := by
  cases target <;> rfl

omit [DecidableEq T] in
theorem Recorded.run {p : Plan T} (hrec : Recorded S) (hplan : Planned S p)
    (hrun : p.run cfg S landed committed = some S') : Recorded S' := by
  have hwrite : ∀ {b : ℕ} {row row' : Row T}, S.rows b = some row →
      (Plan.write b row').run cfg S landed committed = some S' → row'.amount = row.amount →
      Recorded S' := by
    intro b row row' hrow hrun hamount
    cases run_write hrun
    intro c r hc
    simp only at hc
    split_ifs at hc
    · obtain ⟨hb, hsame⟩ := hrec b row hrow
      exact forall_rows_update (fun d r hd _ => hrec d r hd) ⟨hb, hsame.trans hamount.symm⟩ hc
    · exact hrec c r hc
  have hsend : ∀ {b : ℕ} {row : Row T} {c : Call} {target : RowState}, S.rows b = some row →
      (Plan.send b c row target).run cfg S landed committed = some S' → Recorded S' := by
    intro b row c target hrow hrun
    rcases run_send hrun with ⟨-, rfl⟩ | ⟨-, w, he, rfl⟩
    · exact hrec
    · have hall : ∀ d r, S.rows d = some r → Mirrors w d r := fun d r hd =>
        (hrec d r hd).extends he.extends
      intro d r hd
      simp only at hd
      split_ifs at hd
      · obtain ⟨hb, hsame⟩ := hall b row hrow
        exact forall_rows_update (fun d r hd _ => hall d r hd)
          ⟨hb, hsame.trans (row.moved_amount ..).symm⟩ hd
      · exact hall d r hd
  cases hplan with
  | idle => exact run_idle hrun ▸ hrec
  | adopt hrow | rearm hrow | align hrow => exact hwrite hrow hrun rfl
  | submit hrow | breach hrow | leave hrow => exact hsend hrow hrun
  | rebind hrow =>
    rcases run_rebind (hrec _ _ hrow).1 hrun with ⟨-, rfl⟩ | ⟨-, hre, hrows⟩
    · exact hrec
    · have hall : ∀ d r, S.rows d = some r → Mirrors S'.chain d r := fun d r hd =>
        (hrec d r hd).extends hre.extended
      rcases hrows with hrows | ⟨-, -, -, hamount, hrows⟩
      · exact fun d r hd => hall d r (hrows ▸ hd)
      · rw [Recorded, hrows]
        exact fun d r hd => forall_rows_update (fun d r hd _ => hall d r (rows_of_erased hd))
          ⟨Nat.le_refl _, hamount⟩ hd

theorem Reach.recorded (hr : Reach cfg h S) : Recorded S := by
  refine hr.safe (P := Recorded) (fun S h0 b row hrow => ?_) fun S act S' hrec hstep => ?_
  · rw [h0.rows] at hrow
    cases hrow
  cases act with
  | book t books =>
    cases hstep
    exact hrec
  | chain a =>
    simp only [step] at hstep
    split_ifs at hstep
    obtain ⟨w, hw, rfl⟩ := Option.map_eq_some_iff.mp hstep
    exact fun b row hrow => (hrec b row hrow).extends (effect_of_step hw).extends
  | lock t i j amount committed =>
    obtain ⟨w, hw, rfl⟩ := Option.map_eq_some_iff.mp hstep
    have he := effect_of_step hw
    have hall : ∀ d r, S.rows d = some r → Mirrors w d r := fun d r hd =>
      (hrec d r hd).extends he.extends
    have hamount : (w.bindings w.bindingCounter).amount = amount := by
      cases he
      simp
    intro d r hd
    simp only at hd
    split_ifs at hd
    · exact forall_rows_update (fun d r hd _ => hall d r hd) ⟨Nat.le_refl _, hamount⟩ hd
    · exact hall d r hd
  | job job read landed committed => exact hrec.run (planned_plan job) hstep

theorem Directed.run {job : Job} (hdir : Directed S) (hrec : Recorded S)
    (hrun : (plan cfg S read job).run cfg S landed committed = some S')
    (hstraight : Straight cfg ⟨S, .job job read landed committed, S'⟩) : Directed S' := by
  have hplan : Planned S (plan cfg S read job) := planned_plan job
  simp only [Straight] at hstraight
  generalize plan cfg S read job = p at hplan hrun hstraight
  -- a row that is written fits the chain as it stands
  have hwrite : ∀ {b : ℕ} {row : Row T}, (committed = true → Aligned S.chain b row) →
      (Plan.write b row).run cfg S landed committed = some S' → Directed S' := by
    intro b row hnew hrun
    cases run_write hrun
    intro c r hc
    simp only at hc
    split_ifs at hc with hcommit
    · exact forall_rows_update (fun d r hd _ => hdir d r hd) (hnew hcommit) hc
    · exact hdir c r hc
  -- a row that is written, or not, after a transaction about its binding
  have hsend : ∀ {b : ℕ} {row : Row T} {c : Call} {target : RowState},
      (AllowanceEscrow.Act.call cfg.operator c).binding = some b → S.rows b = some row →
      (∀ w, 1 ≤ landed → Effect cfg.contract S.chain (.call cfg.operator c) w →
        if committed then Aligned w b (row.moved target (w.bindings b)) else Aligned w b row) →
      (Plan.send b c row target).run cfg S landed committed = some S' → Directed S' := by
    intro b row c target hname hrow hnew hrun
    rcases run_send hrun with ⟨-, rfl⟩ | ⟨hlanded, w, he, rfl⟩
    · exact hdir
    · have hold : ∀ d r, S.rows d = some r → d ≠ b → Aligned w d r := fun d r hd hne =>
        (hdir d r hd).of_ne he (hrec d r hd).1 hname hne
      have hnew := hnew w hlanded he
      intro d r hd
      simp only at hd
      split_ifs at hd hnew
      · exact forall_rows_update hold hnew hd
      · rcases eq_or_ne d b with rfl | hne
        · exact Option.some.inj (hrow.symm.trans hd) ▸ hnew
        · exact hold d r hd hne
  cases hplan with
  | idle => exact run_idle hrun ▸ hdir
  | adopt hrow hst =>
    refine hwrite (fun hcommit _ => ⟨fun _ => hstraight hcommit rfl, fun h => ?_⟩) hrun
    cases h
  | rearm hrow harmed =>
    refine hwrite (fun _ _ => ⟨fun h => ?_, fun _ => harmed⟩) hrun
    cases h
  | align hrow hfin hbreach => exact hwrite (fun _ => .of_state hfin hbreach) hrun
  | @submit b row proof hrow hst =>
    refine hsend rfl hrow (fun w _ he => ?_) hrun
    have hunarmed : (w.bindings b).slashArmed = false := by
      cases he
      simp [World.setBinding]
    split_ifs
    · exact fun _ => ⟨fun _ => hunarmed, fun h => (by cases h)⟩
    · exact .of_state hst.1 hst.2
  | @breach b row proof hrow =>
    refine hsend rfl hrow (fun w hlanded he => ?_) hrun
    have harmed : (w.bindings b).slashArmed = true := by
      cases he
      simp [World.setBinding]
    split_ifs with hcommit
    · exact fun _ => ⟨fun h => (by cases h), fun _ => harmed⟩
    · exact fun _ => ⟨fun h => absurd (hstraight h hlanded) hcommit, fun _ => harmed⟩
  | @leave b row c target hrow hcall hfin hbreach =>
    have hname : (AllowanceEscrow.Act.call cfg.operator c).binding = some b ∧
        OpensWindow (.call cfg.operator c) = false := by
      rcases hcall with rfl | rfl | rfl | rfl <;> exact ⟨rfl, rfl⟩
    refine hsend hname.1 hrow (fun w _ he => ?_) hrun
    split_ifs
    · refine .of_state ?_ ?_ <;> cases target <;> first | contradiction | simp [Row.moved]
    · exact (hdir b row hrow).effect he (hrec b row hrow).1 hname.2
  | @rebind b i j amount row hrow =>
    rcases run_rebind (hrec b row hrow).1 hrun with ⟨-, rfl⟩ | ⟨-, hre, hrows⟩
    · exact hdir
    have hold : ∀ d r, S.rows d = some r → Aligned S'.chain d r := by
      intro d r hd hfin
      rcases eq_or_ne d b with rfl | hne
      · rw [hre.cancelled] at hfin
        cases hfin
      · rw [hre.others d (hrec d r hd).1 hne] at hfin ⊢
        exact hdir d r hd hfin
    rcases hrows with hrows | ⟨-, -, hunarmed, -, hrows⟩
    · exact fun d r hd => hold d r (hrows ▸ hd)
    · rw [Directed, hrows]
      intro d r hd
      refine forall_rows_update (fun d r hd _ => ?_) (fun _ => ⟨fun _ => hunarmed, fun h => ?_⟩) hd
      · exact hold d r (rows_of_erased hd)
      · cases h

theorem Directed.step {act : Act T} (hdir : Directed S) (hrec : Recorded S)
    (hstep : step cfg S act = some S') (hstraight : Straight cfg ⟨S, act, S'⟩) : Directed S' := by
  cases act with
  | book t books =>
    cases hstep
    exact hdir
  | chain a =>
    simp only [EscrowServer.step] at hstep
    split_ifs at hstep with hopen
    obtain ⟨w, hw, rfl⟩ := Option.map_eq_some_iff.mp hstep
    exact fun b row hrow => (hdir b row hrow).effect (effect_of_step hw) (hrec b row hrow).1
      (Bool.eq_false_of_not_eq_true hopen)
  | lock t i j amount committed =>
    obtain ⟨w, hw, rfl⟩ := Option.map_eq_some_iff.mp hstep
    have hold : ∀ d r, S.rows d = some r → Aligned w d r := fun d r hd =>
      (hdir d r hd).effect (effect_of_step hw) (hrec d r hd).1 rfl
    intro d r hd
    simp only at hd
    split_ifs at hd
    · refine forall_rows_update (fun d r hd _ => hold d r hd) (.of_state ?_ ?_) hd <;> simp
    · exact hold d r hd
  | job job read landed committed => exact hdir.run hrec hstep hstraight

end Direction

namespace Sample

open AllowanceEscrow.Sample (deployment token buyer seller start init_start)

def config : Config ℕ where
  contract := deployment
  operator := deployment.admin
  orphanCancel := false
  scopeHash := fun t => .ofNat 256 t
  proof := fun _ _ => 0#256
  breachProof := fun _ => 0#256
  requiredStake := fun amount => amount / 2

def booked (status : Status) : Books where
  status
  onchainStatus := none
  released := none
  verified := true
  traceable := true
  updatedAt := 100

def initial : State ℕ := ⟨start, fun _ => none, fun _ => none⟩

def locked : List (Act ℕ) :=
  [.chain (.call deployment.admin (.setTokenAllowed token true)),
    .chain (.token buyer token (.approve deployment.self 100)),
    .chain (.token seller token (.approve deployment.self 50)),
    .chain (.call buyer (.commit token 100 deployment.admin)),
    .chain (.call seller (.commit token 50 deployment.admin)),
    .lock 0 1 2 40 true]

def slashing (committed : Bool) : List (Act ℕ) :=
  locked ++ [.book 0 (some (booked .refunded)), .chain (.tick 105),
    .job (.slashForTask 1) true 1 committed]

def history (as : List (Act ℕ)) : List (Entry (State ℕ) (Act ℕ)) :=
  record (step config) as initial []

def after (as : List (Act ℕ)) : State ℕ := stateAfter (step config) as initial

theorem reach (as : List (Act ℕ))
    (has : (steps (step config) as initial).isSome = true := by decide +kernel) :
    Reach config (history as) (after as) :=
  Run.stateAfter (.start ⟨init_start, fun _ => rfl, fun _ => rfl⟩) has

end Sample

end Karma.EscrowServer
