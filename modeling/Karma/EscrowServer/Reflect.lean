import Karma.EscrowServer.Code

/-! # The settlement transaction that is shown

`_reflect` of `services/chain/escrow_settlement.py` writes the state of a binding and one of its
transactions into the settlement row, which is what the console shows. -/

namespace Karma.EscrowServer

open Evm Function

inductive TxHash (B : Type)
  | bind (b : B) (n : ℕ)
  | submit (b : B) (n : ℕ)
  | mark (b : B) (n : ℕ)
  /-- `finalizeSettlement`, `finalizeBreach` or `buyerConfirm`. -/
  | money (b : B)
  deriving DecidableEq

/-- The values of `onchain_status`. -/
inductive Shown
  | pendingBind
  | bound
  | reached (state : RowState)
  deriving DecidableEq

def RowState.moneyMoved : RowState → Bool
  | .settled | .slashed => true
  | _ => false

def Shown.moneyMoved : Shown → Bool
  | .reached state => state.moneyMoved
  | _ => false

def RowState.done : RowState → Bool
  | .settled | .slashed | .cancelled => true
  | _ => false

structure Receipts (B : Type) where
  state : RowState
  bindTx : Option (TxHash B) := none
  submitTx : Option (TxHash B) := none
  finalizeTx : Option (TxHash B) := none

/-- What `_reflect` reads and writes of the settlement row. -/
structure Record (B : Type) where
  onchainStatus : Option Shown
  onchainBindingId : Option B
  txHash : Option (TxHash B)

variable {B : Type} [DecidableEq B]

def txRank (value : Option (TxHash B)) (x : Receipts B) : ℕ :=
  if value = none then 0
  else if value = x.finalizeTx then 3
  else if value = x.submitTx then 2
  else if value = x.bindTx then 1
  else 3

/-- The row says that money has moved, and something else is to be written. -/
def Record.refuses (m : Record B) (status : Shown) : Bool :=
  m.onchainStatus.any (·.moneyMoved) && m.onchainStatus != some status

/-- What `_reflect` makes of the row. -/
def Record.written (m : Record B) (b : Option B) (x : Receipts B) (status : Shown)
    (txHash : Option (TxHash B)) : Record B :=
  let tx := if status.moneyMoved ∧ txHash ≠ x.finalizeTx then none else txHash
  { onchainStatus := some status
    onchainBindingId := b.or m.onchainBindingId
    txHash := if tx ≠ none ∧ txRank m.txHash x ≤ txRank tx x then tx else m.txHash }

def reflect (m : Option (Record B)) (b : Option B) (x : Receipts B) (status : Shown)
    (txHash : Option (TxHash B)) : Option (Record B) × Bool :=
  match m with
  | none => (none, false)
  | some m => (some (if m.refuses status then m else m.written b x status txHash), true)

def Receipts.recover (x : Receipts B) (b : B) (status : RowState) (found : Bool) : Receipts B :=
  if x.finalizeTx = none ∧ status.moneyMoved ∧ found then { x with finalizeTx := some (.money b) }
  else x

inductive Caller (B : Type)
  | bind (b : B) (n : ℕ)
  /-- `bind_for_task_deferred`. -/
  | defer
  | submit (b : B) (n : ℕ)
  | adopt (b : B)
  /-- `slash_for_task`, and the case that its window is open already. -/
  | submitBreach (b : B) (n : ℕ)
  | rearmBreach (b : B)
  /-- `slash_for_task` on a binding that has come to the end `e`. -/
  | breachReconciled (b : B) (e : RowState) (found : Bool)
  | markDispute (b : B) (n : Option ℕ)
  | cancel (b : B)
  | cancelReconciled (b : B) (e : RowState) (found : Bool)
  | reconcileDone (b : B) (found : Bool)
  | reconcileOpen (b : B) (e : RowState) (found : Bool)
  /-- `_record_final`; `own` says that the process has sent the transaction itself. -/
  | recordFinal (b : B) (e : RowState) (own found : Bool)

structure Ledger (B : Type) where
  rows : B → Option (Receipts B)
  settlement : Option (Record B)

structure Report (B : Type) where
  binding : Option B
  row : Receipts B
  status : Shown
  txHash : Option (TxHash B)

def Receipts.report (x : Receipts B) (b : B) (state : RowState)
    (tx : Receipts B → Option (TxHash B)) : Report B :=
  ⟨some b, { x with state := state }, .reached state, tx { x with state := state }⟩

def Ledger.report (s : Ledger B) : Caller B → Option (Report B)
  | .bind b n => some ⟨some b, ⟨.active, some (.bind b n), none, none⟩, .bound, some (.bind b n)⟩
  | .defer => some ⟨none, ⟨.active, none, none, none⟩, .pendingBind, none⟩
  | .submit b n => (s.rows b).map fun x =>
    { x with submitTx := some (.submit b n) }.report b .finalizing (·.submitTx)
  | .adopt b => (s.rows b).map fun x => x.report b .finalizing (·.submitTx)
  | .submitBreach b n => (s.rows b).map fun x =>
    { x with submitTx := some (.submit b n) }.report b .breaching (·.submitTx)
  | .rearmBreach b => (s.rows b).map fun x => x.report b .breaching (·.submitTx)
  | .breachReconciled b e found => (s.rows b).bind fun x =>
    if e.done then some ((x.recover b e found).report b e fun x => x.finalizeTx.or x.submitTx)
    else none
  | .markDispute b n => (s.rows b).map fun x => x.report b .disputed fun _ => n.map (.mark b)
  | .cancel b => (s.rows b).map fun x => x.report b .cancelled fun _ => none
  | .cancelReconciled b e found => (s.rows b).bind fun x =>
    if e.done then
      some ((x.recover b e found).report b e fun x => x.finalizeTx.or (x.submitTx.or x.bindTx))
    else none
  | .reconcileDone b found => (s.rows b).bind fun x =>
    if x.state.done then
      some ((x.recover b x.state found).report b x.state fun x =>
        x.finalizeTx.or (x.submitTx.or x.bindTx))
    else none
  | .reconcileOpen b e found => (s.rows b).bind fun x =>
    if e.done ∧ (x.state = .finalizing ∨ x.state = .breaching) ∧
        (e.moneyMoved → (x.recover b e found).finalizeTx ≠ none) then
      some ((x.recover b e found).report b e fun x => x.finalizeTx.or x.submitTx)
    else none
  | .recordFinal b e own found => (s.rows b).bind fun x =>
    if e.done then
      some (((x.recover b e own).recover b e found).report b e fun x =>
        x.finalizeTx.or x.submitTx)
    else none

def Ledger.apply (s : Ledger B) (r : Report B) : Ledger B where
  rows := match r.binding with
    | some b => update s.rows b (some r.row)
    | none => s.rows
  settlement := (reflect s.settlement r.binding r.row r.status r.txHash).1

def Ledger.step (s : Ledger B) (c : Caller B) : Option (Ledger B) := (s.report c).map s.apply

abbrev Ledger.Reach (h : List (Entry (Ledger B) (Caller B))) (s : Ledger B) : Prop :=
  Run (fun s => (∀ b, s.rows b = none) ∧
    ∀ m ∈ s.settlement, m.onchainStatus = none ∧ m.txHash = none) Ledger.step h s

/-! ## What is passed on -/

def Receipts.Genuine (x : Receipts B) (b : B) : Prop :=
  x.finalizeTx = none ∨ x.finalizeTx = some (.money b)

variable {x : Receipts B} {b : B}

omit [DecidableEq B] in
theorem Receipts.Genuine.recover (hx : x.Genuine b) (status : RowState) (found : Bool) :
    (x.recover b status found).Genuine b := by
  unfold Receipts.recover
  split_ifs
  · exact .inr rfl
  · exact hx

structure Report.Faithful (r : Report B) : Prop where
  genuine : ∀ b ∈ r.binding, r.row.Genuine b
  passed : r.status.moneyMoved → r.binding ≠ none ∧
    (r.row.finalizeTx ≠ none → r.txHash = r.row.finalizeTx)

omit [DecidableEq B] in
theorem Receipts.Genuine.report (hx : x.Genuine b) {state : RowState}
    (hstate : state.moneyMoved = false) (tx : Receipts B → Option (TxHash B)) :
    (x.report b state tx).Faithful where
  genuine b' hb' := by
    obtain rfl : b = b' := Option.some.inj hb'
    exact hx
  passed hmoved := absurd (hstate.symm.trans hmoved) Bool.false_ne_true

omit [DecidableEq B] in
theorem Receipts.Genuine.reportFinal (hx : x.Genuine b) (e : RowState)
    (other : Receipts B → Option (TxHash B)) :
    (x.report b e fun x => x.finalizeTx.or (other x)).Faithful where
  genuine b' hb' := by
    obtain rfl : b = b' := Option.some.inj hb'
    exact hx
  passed _ := by
    refine ⟨Option.some_ne_none b, fun hknown => ?_⟩
    obtain ⟨tx, htx⟩ := Option.ne_none_iff_exists'.mp hknown
    show x.finalizeTx.or _ = x.finalizeTx
    rw [show x.finalizeTx = some tx from htx]
    rfl

variable {s s' : Ledger B}

variable {r : Report B}

omit [DecidableEq B] in
theorem Ledger.report_faithful (hrows : ∀ b x, s.rows b = some x → x.Genuine b) {c : Caller B}
    (hr : s.report c = some r) : r.Faithful := by
  cases c with
  | bind b n =>
    cases hr
    exact ⟨fun _ _ => .inl rfl, fun h => by cases h⟩
  | defer =>
    cases hr
    exact ⟨fun _ h => (by cases h), fun h => by cases h⟩
  | submit b n | submitBreach b n =>
    obtain ⟨x, hx, rfl⟩ := Option.map_eq_some_iff.mp hr
    have hsubmit : Receipts.Genuine { x with submitTx := some (.submit b n) } b := hrows b x hx
    exact hsubmit.report rfl _
  | adopt b | rearmBreach b | markDispute b n | cancel b =>
    obtain ⟨x, hx, rfl⟩ := Option.map_eq_some_iff.mp hr
    exact (hrows b x hx).report rfl _
  | breachReconciled b e found | cancelReconciled b e found | reconcileOpen b e found =>
    obtain ⟨x, hx, hr⟩ := Option.bind_eq_some_iff.mp hr
    split_ifs at hr
    cases hr
    exact ((hrows b x hx).recover e found).reportFinal e _
  | reconcileDone b found =>
    obtain ⟨x, hx, hr⟩ := Option.bind_eq_some_iff.mp hr
    split_ifs at hr
    cases hr
    exact ((hrows b x hx).recover x.state found).reportFinal x.state _
  | recordFinal b e own found =>
    obtain ⟨x, hx, hr⟩ := Option.bind_eq_some_iff.mp hr
    split_ifs at hr
    cases hr
    exact (((hrows b x hx).recover e own).recover e found).reportFinal e _

theorem Ledger.Reach.genuine {h : List (Entry (Ledger B) (Caller B))} (hr : Ledger.Reach h s) :
    ∀ b x, s.rows b = some x → x.Genuine b := by
  refine hr.safe (P := fun s => ∀ b x, s.rows b = some x → x.Genuine b) ?_ ?_
  · intro s h0 b x hx
    simp [h0.1 b] at hx
  · intro s c s' hrows hstep b x hx
    obtain ⟨r, hreport, rfl⟩ := Option.map_eq_some_iff.mp hstep
    have hfaithful := Ledger.report_faithful hrows hreport
    unfold Ledger.apply at hx
    cases hb : r.binding with
    | none =>
      rw [hb] at hx
      exact hrows b x hx
    | some b' =>
      rw [hb] at hx
      dsimp only at hx
      rcases eq_or_ne b b' with rfl | hne
      · rw [update_self] at hx
        cases hx
        exact hfaithful.genuine b hb
      · rw [update_of_ne hne] at hx
        exact hrows b x hx

/-! ## What is shown -/

def Record.Honest (m : Record B) : Prop :=
  m.onchainStatus.any (·.moneyMoved) → m.txHash = none ∨
    ∃ b, m.onchainBindingId = some b ∧ m.txHash = some (.money b)

def Ledger.Honest (s : Ledger B) : Prop := ∀ m ∈ s.settlement, m.Honest

def Knows (e : Entry (Ledger B) (Caller B)) : Prop :=
  ∀ r m b, e.pre.report e.act = some r → e.pre.settlement = some m → r.binding = some b →
    r.status.moneyMoved → m.refuses r.status = false →
    r.row.finalizeTx ≠ none ∨ m.txHash = none ∨ m.txHash = some (.money b)

theorem Record.written_eq {m : Record B} (hr : r.Faithful) (hb : r.binding = some b)
    (hmoved : r.status.moneyMoved) :
    m.written r.binding r.row r.status r.txHash = ⟨some r.status, some b,
        if r.row.finalizeTx = none then m.txHash else some (.money b)⟩ := by
  obtain ⟨-, hpassed⟩ := hr.passed hmoved
  rcases hr.genuine b hb with hnone | hmoney
  · by_cases htx : r.txHash = none <;> simp [Record.written, hb, hnone, hmoved, htx]
  · have htx : r.txHash = some (.money b) := (hpassed (by simp [hmoney])).trans hmoney
    have hrank : ∀ v, txRank v r.row ≤ txRank (some (.money b)) r.row := by
      intro v
      have htop : txRank (some (.money b)) r.row = 3 := by simp [txRank, hmoney]
      rw [htop]
      unfold txRank
      split_ifs <;> omega
    simp [Record.written, hb, htx, hmoney, hrank]

theorem Ledger.honest_apply_iff {c : Caller B} (hs : s.Honest) (hr : r.Faithful)
    (hreport : s.report c = some r) : (s.apply r).Honest ↔ Knows ⟨s, c, s.apply r⟩ := by
  cases hm : s.settlement with
  | none =>
    refine iff_of_true (fun m hm' => ?_) fun _ m _ _ hm' => ?_
    · simp [Ledger.apply, hm, reflect] at hm'
    · simp [hm] at hm'
  | some m =>
    have hafter : (s.apply r).settlement = some
        (if m.refuses r.status then m else m.written r.binding r.row r.status r.txHash) := by
      simp [Ledger.apply, hm, reflect]
    have hhonest : (s.apply r).Honest ↔ Record.Honest
        (if m.refuses r.status then m else m.written r.binding r.row r.status r.txHash) := by
      unfold Ledger.Honest
      rw [hafter]
      exact ⟨fun h => h _ rfl, fun h m' hm' => Option.some.inj hm' ▸ h⟩
    have hknows : Knows ⟨s, c, s.apply r⟩ ↔ ∀ b, r.binding = some b → r.status.moneyMoved →
        m.refuses r.status = false →
        r.row.finalizeTx ≠ none ∨ m.txHash = none ∨ m.txHash = some (.money b) := by
      constructor
      · exact fun h b => h r m b hreport hm
      · rintro h r' m' b hr' hm'
        obtain rfl := Option.some.inj (hreport.symm.trans hr')
        obtain rfl := Option.some.inj (hm.symm.trans hm')
        exact h b
    rw [hhonest, hknows]
    cases hrefuses : m.refuses r.status with
    | true =>
      rw [if_pos rfl]
      exact iff_of_true (hs m hm) fun _ _ _ h => by cases h
    | false =>
      rw [if_neg Bool.false_ne_true]
      by_cases hmoved : r.status.moneyMoved
      · obtain ⟨b, hb⟩ := Option.ne_none_iff_exists'.mp (hr.passed hmoved).1
        rw [Record.written_eq hr hb hmoved, hb]
        by_cases hnone : r.row.finalizeTx = none <;> simp [Record.Honest, hmoved, hnone]
      · refine iff_of_true (fun h => absurd ?_ hmoved) fun _ _ h => absurd h hmoved
        simpa [Record.written] using h

theorem shown_transaction_iff {h : List (Entry (Ledger B) (Caller B))} (hr : Ledger.Reach h s) :
    (Throughout (fun _ s => s.Honest) h s ↔ ∀ e ∈ h, Knows e) ∧
      ∀ e ∈ h, ∀ m, e.pre.settlement = some m → m.onchainStatus.any (·.moneyMoved) →
        ∃ m', e.post.settlement = some m' ∧ m'.onchainStatus = m.onchainStatus := by
  constructor
  · refine hr.throughout_iff_step (fun s h0 m hm hmoved => ?_) fun h s c s' hr hs hstep => ?_
    · simp [(h0.2 m hm).1] at hmoved
    · obtain ⟨r, hreport, rfl⟩ := Option.map_eq_some_iff.mp hstep
      exact Ledger.honest_apply_iff hs
        (Ledger.report_faithful (Ledger.Reach.genuine hr) hreport) hreport
  · intro e he m hm hmoved
    obtain ⟨h', -, hstep⟩ := hr.of_mem he
    obtain ⟨r, -, hpost⟩ := Option.map_eq_some_iff.mp hstep
    have hafter : e.post.settlement = some
        (if m.refuses r.status then m else m.written r.binding r.row r.status r.txHash) := by
      simp [← hpost, Ledger.apply, hm, reflect]
    refine ⟨_, hafter, ?_⟩
    split_ifs with hrefuses
    · rfl
    · have hsame : m.onchainStatus = some r.status := by
        simpa [Record.refuses, hmoved] using hrefuses
      exact hsame.symm

namespace Sample

def task : Ledger Unit := ⟨fun _ => none, some ⟨none, none, none⟩⟩

def ledgerAfter (cs : List (Caller Unit)) : Ledger Unit := stateAfter Ledger.step cs task

theorem reach_ledger (cs : List (Caller Unit)) (hsome : (steps Ledger.step cs task).isSome = true) :
    Ledger.Reach (record Ledger.step cs task []) (ledgerAfter cs) := by
  have h0 : Ledger.Reach [] task := .start ⟨fun _ => rfl, fun m hm => by
    cases hm
    exact ⟨rfl, rfl⟩⟩
  exact h0.stateAfter hsome

def settling (own found : Bool) : List (Caller Unit) :=
  [.bind () 0, .submit () 1, .recordFinal () .settled own found]

end Sample

open Sample

theorem shown_transaction_sample : (ledgerAfter (settling false true)).settlement =
        some ⟨some (.reached .settled), some (), some (.money ())⟩ ∧
      (Throughout (fun _ s => s.Honest) (record Ledger.step (settling false true) task [])
          (ledgerAfter (settling false true)) ↔
        ∀ e ∈ record Ledger.step (settling false true) task [], Knows e) :=
  ⟨rfl, (shown_transaction_iff (reach_ledger _ rfl)).1⟩

theorem submission_shown_as_payment :
    Ledger.Reach (record Ledger.step (settling false false) task [])
        (ledgerAfter (settling false false)) ∧
      (ledgerAfter (settling false false)).settlement =
        some ⟨some (.reached .settled), some (), some (.submit () 1)⟩ ∧
      ¬ (ledgerAfter (settling false false)).Honest := by
  refine ⟨reach_ledger _ rfl, rfl, fun hhonest => ?_⟩
  rcases hhonest _ rfl rfl with hnone | ⟨b, -, hmoney⟩
  · cases hnone
  · cases hmoney

end Karma.EscrowServer
