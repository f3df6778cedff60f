import Karma.Arith.Round
import Karma.Capacity.Freezes
import Karma.EscrowLedger.Backing

/-! # The mirror of the chain in the capacity ledger

`reconcile_capacity_mirror` of `services/chain/allowance_escrow.py` writes what the chain secures of
an identity's bills into the capacity row, whose pool also holds credit from outside the mirror. -/

namespace Karma.Capacity

open Karma.Evm Karma.Arith Karma.EscrowLedger Function

/-! ## The function -/

structure MirroredBill (W : Type) where
  wallet : W
  row : CommitRow
  credited : ℚ

/-- A bill as the chain has it now; what is credited for it stays. -/
def MirroredBill.synced {W : Type} (change : CommitRow → CommitRow) (b : MirroredBill W) :
    MirroredBill W := { b with row := change b.row }

def MirroredBill.opened {W : Type} (r : W × CommitRow) : MirroredBill W := ⟨r.1, r.2, 0⟩

/-- The capacity row and the bills of an identity, and the allowances on the chain. -/
structure Mirror (W : Type) where
  cap : Option Balances
  bills : List (MirroredBill W)
  allowance : W → ℕ

variable {W : Type} [DecidableEq W]

def securedUsdc (rows : List (W × CommitRow)) (allowance : W → ℕ) (r : W × CommitRow) : ℚ :=
  let group := (rows.filter fun r' => r'.1 = r.1).map Prod.snd
  round6 (securedMinor (backingReport group (allowance r.1)) r.2.billId / 10 ^ 6)

namespace Mirror

def rows (s : Mirror W) : List (W × CommitRow) := s.bills.map fun b => (b.wallet, b.row)

def creditedTotal (s : Mirror W) : ℚ := (s.bills.map (·.credited)).sum

def liveTotal (s : Mirror W) : ℚ := round6 (s.rows.map (securedUsdc s.rows s.allowance)).sum

/-- The capacity row; a missing one is created with zeros. -/
def balances (s : Mirror W) : Balances := s.cap.getD 0

def pool (s : Mirror W) : ℚ := activeCredits s.balances

def internal (s : Mirror W) : ℚ := max 0 (round6 (s.pool - max s.creditedTotal s.liveTotal))

def delta (s : Mirror W) : ℚ := round6 (s.liveTotal + s.internal - s.pool)

def reconcile (s : Mirror W) (chainUnreadable : Bool := false) : Mirror W :=
  if s.bills.isEmpty || chainUnreadable then s
  else
    { s with
      bills := s.bills.map fun b =>
        { b with credited := securedUsdc s.rows s.allowance (b.wallet, b.row) }
      cap := some (if |s.delta| < EPSILON then s.balances else mirrored s.delta s.balances) }

def Clamps (s : Mirror W) : Prop :=
  s.bills.isEmpty = false ∧ EPSILON ≤ |s.delta| ∧ s.balances .availableCredits + s.delta < 0

instance (s : Mirror W) : Decidable s.Clamps := by
  unfold Clamps
  infer_instance

end Mirror

/-! ## Runs -/

inductive Order
  | accept (v : Voucher)
  | release (v : Voucher)
  | dispute (escrow : ℚ)
  | settle (escrow settled refunded : ℚ)

def Order.request : Order → Request
  | .accept v => .acceptVoucherRow v
  | .release v => .releaseReservation v
  | .dispute escrow => .moveReservedToDisputed escrow
  | .settle escrow settled refunded => .applyCapacityResolution escrow settled refunded

def Order.burned : Order → ℚ
  | .settle escrow _ _ => escrow
  | _ => 0

inductive Mirror.Act (W : Type)
  | chain (change : CommitRow → CommitRow) (opened : List (W × CommitRow)) (allowance : W → ℕ)
  | order (o : Order)
  /-- `reconcile_capacity_mirror` with the chain readable. -/
  | reconcile

def Mirror.step (cfg : Settings) (s : Mirror W) : Mirror.Act W → Option (Mirror W)
  | .chain change opened allowance => some { s with
        bills := s.bills.map (·.synced change) ++ opened.map .opened
        allowance := allowance }
  | .order o => (s.cap.bind (operate cfg o.request)).map fun c => { s with cap := some c }
  | .reconcile => some s.reconcile

abbrev Mirror.Reach (cfg : Settings) (G : ℚ) (h : List (Entry (Mirror W) (Mirror.Act W)))
    (s : Mirror W) : Prop :=
  Run (fun s => s.pool = s.liveTotal + G ∧
    ∀ b ∈ s.bills, b.credited = securedUsdc s.rows s.allowance (b.wallet, b.row))
    (Mirror.step cfg) h s

/-! ## Six decimals -/

def Micro (x : ℚ) : Prop := ∃ n : ℤ, x * 10 ^ 6 = n

theorem round6_eq (x : ℚ) : round6 x = roundTo 6 x := rfl

theorem Micro.round6_eq {x : ℚ} (hx : Micro x) : round6 x = x := by
  obtain ⟨n, hn⟩ := hx
  exact roundTo_of_int 6 hn

theorem micro_round6 (x : ℚ) : Micro (round6 x) := by
  refine ⟨halfEven (x * 10 ^ 6), ?_⟩
  rw [Capacity.round6_eq, roundTo]
  field_simp

theorem Micro.add {x y : ℚ} (hx : Micro x) (hy : Micro y) : Micro (x + y) := by
  obtain ⟨m, hm⟩ := hx
  obtain ⟨n, hn⟩ := hy
  exact ⟨m + n, by rw [add_mul, hm, hn]; push_cast; rfl⟩

theorem Micro.neg {x : ℚ} (hx : Micro x) : Micro (-x) := by
  obtain ⟨m, hm⟩ := hx
  exact ⟨-m, by rw [neg_mul, hm]; push_cast; rfl⟩

theorem Micro.sub {x y : ℚ} (hx : Micro x) (hy : Micro y) : Micro (x - y) := by
  rw [sub_eq_add_neg]
  exact hx.add hy.neg

theorem micro_zero : Micro 0 := ⟨0, by simp⟩

theorem Micro.max {x y : ℚ} (hx : Micro x) (hy : Micro y) : Micro (max x y) := by
  rcases max_choice x y with h | h <;> rw [h] <;> assumption

theorem micro_sum {xs : List ℚ} (hxs : ∀ x ∈ xs, Micro x) : Micro xs.sum := by
  induction xs with
  | nil => exact micro_zero
  | cons x xs ih =>
    rw [List.sum_cons]
    exact (hxs x List.mem_cons_self).add (ih fun y hy => hxs y (List.mem_cons_of_mem _ hy))

theorem round6_eq_zero_of_lt {x : ℚ} (hx : |round6 x| < EPSILON) : round6 x = 0 :=
  roundTo_eq_zero_of_lt 6 (hx.trans (by norm_num [EPSILON]))

theorem Shifts.activeCredits {d c c' : Balances} (h : Shifts d c c') :
    activeCredits c' = activeCredits c + activeCredits d := by
  have hf : ∀ f ∈ buckets, c' f = c f + d f := fun f hf =>
    h f (by rintro rfl; revert hf; decide) (by rintro rfl; revert hf; decide)
  simp only [buckets, responsibilityFields, List.forall_mem_cons] at hf
  obtain ⟨h₁, h₂, h₃, h₄, h₅, h₆, -⟩ := hf
  simp only [Capacity.activeCredits, h₁, h₂, h₃, h₄, h₅, h₆]
  ring

theorem activeCredits_order {cfg : Settings} {o : Order} {c c' : Balances}
    (h : operate cfg o.request c = some c') :
    activeCredits c' = activeCredits c - o.burned := by
  cases o with
  | accept v =>
    rw [(operate_accept h).activeCredits]
    simp [Capacity.activeCredits, Order.burned]
  | release v =>
    rcases operate_releaseReservation h with ⟨-, rfl⟩ | ⟨-, -, hshifts⟩
    · simp [Order.burned]
    · rw [hshifts.activeCredits]
      simp [Capacity.activeCredits, Order.burned]
  | dispute escrow =>
    rw [(operate_dispute h).activeCredits]
    simp [Capacity.activeCredits, Order.burned]
  | settle escrow settled refunded =>
    rw [(operate_resolve h).activeCredits, resolvedFrom]
    split_ifs <;> simp [Capacity.activeCredits, Order.burned] <;> ring

namespace Mirror

variable {cfg : Settings} {s s' : Mirror W} {G : ℚ}

/-! ## What a step does to the pool -/

theorem sum_secured (s : Mirror W) :
    (s.rows.map (securedUsdc s.rows s.allowance)).sum = s.liveTotal := by
  refine (Micro.round6_eq (micro_sum fun x hx => ?_)).symm
  obtain ⟨r, -, rfl⟩ := List.mem_map.mp hx
  exact micro_round6 _

theorem micro_liveTotal (s : Mirror W) : Micro s.liveTotal := micro_round6 _

theorem liveTotal_nonneg (s : Mirror W) : 0 ≤ s.liveTotal := by
  rw [← sum_secured]
  refine List.sum_nonneg fun x hx => ?_
  obtain ⟨r, -, rfl⟩ := List.mem_map.mp hx
  unfold securedUsdc
  dsimp only
  rw [Micro.round6_eq ⟨_, div_mul_cancel₀ _ (by norm_num)⟩]
  have hnonneg : ∀ report : List (ℕ × ℕ), 0 ≤ securedMinor report r.2.billId := fun report =>
    Int.natCast_nonneg _
  have := hnonneg (backingReport ((s.rows.filter fun r' => r'.1 = r.1).map Prod.snd)
    (s.allowance r.1))
  positivity

theorem reconcile_of_bills (hs : s.bills.isEmpty = false) : s.reconcile = { s with
      bills := s.bills.map fun b =>
        { b with credited := securedUsdc s.rows s.allowance (b.wallet, b.row) }
      cap := some (if |s.delta| < EPSILON then s.balances else mirrored s.delta s.balances) } := by
  simp [reconcile, hs]

theorem rows_reconcile (s : Mirror W) : s.reconcile.rows = s.rows := by
  cases hs : s.bills.isEmpty with
  | true => simp [reconcile, hs]
  | false =>
    rw [reconcile_of_bills hs]
    simp [rows]

theorem allowance_reconcile (s : Mirror W) : s.reconcile.allowance = s.allowance := by
  unfold reconcile
  split_ifs <;> rfl

theorem liveTotal_reconcile (s : Mirror W) : s.reconcile.liveTotal = s.liveTotal := by
  rw [liveTotal, liveTotal, rows_reconcile, allowance_reconcile]

theorem creditedTotal_reconcile (s : Mirror W) : s.reconcile.creditedTotal = s.liveTotal := by
  rw [← sum_secured]
  cases hs : s.bills.isEmpty with
  | true =>
    rw [List.isEmpty_iff] at hs
    simp [reconcile, creditedTotal, rows, hs]
  | false =>
    rw [reconcile_of_bills hs]
    simp [creditedTotal, rows, comp_def]

theorem pool_reconcile (hs : s.bills.isEmpty = false) : s.reconcile.pool =
      if s.Clamps then responsibilityCredits s.balances else s.pool + s.delta := by
  have hpool : s.pool = s.balances .availableCredits + responsibilityCredits s.balances := by
    unfold pool activeCredits responsibilityCredits
    ring
  have hafter : s.reconcile.pool = activeCredits
      (if |s.delta| < EPSILON then s.balances else mirrored s.delta s.balances) := by
    rw [reconcile_of_bills hs]
    rfl
  have hwrite : activeCredits (mirrored s.delta s.balances) =
      (if 0 < s.balances .availableCredits + s.delta then s.balances .availableCredits + s.delta
        else 0) + responsibilityCredits s.balances := by
    simp only [activeCredits, mirrored, responsibilityCredits]
    ring
  rw [hafter]
  by_cases hsmall : |s.delta| < EPSILON
  · have hnot : ¬ s.Clamps := fun h => h.2.1.not_gt hsmall
    have hzero : s.delta = 0 := round6_eq_zero_of_lt hsmall
    rw [if_pos hsmall, if_neg hnot, hzero, add_zero]
    rfl
  · rw [if_neg hsmall, hwrite]
    by_cases hclamps : s.Clamps
    · rw [if_pos hclamps, if_neg hclamps.2.2.not_gt, zero_add]
    · have hnonneg : 0 ≤ s.balances .availableCredits + s.delta :=
        not_lt.mp fun hlt => hclamps ⟨hs, not_lt.mp hsmall, hlt⟩
      rw [if_neg hclamps, hpool]
      split_ifs with hpos
      · ring
      · linarith [le_antisymm (not_lt.mp hpos) hnonneg]

/-! ## The surplus -/

/-- **What a reconcile leaves above the backing** if it is not clamped. -/
def kept (surplus credited live : ℚ) : ℚ :=
  credited + surplus +
    round6 (live + max 0 (round6 (credited + surplus - max credited live)) - (credited + surplus)) -
    live

/-- The same for the state `s`; an identity without bills is left alone. -/
def inferred (surplus : ℚ) (s : Mirror W) : ℚ :=
  if s.bills.isEmpty then surplus else kept surplus s.creditedTotal s.liveTotal

/-- What the pool holds above the credited backing, by the history. -/
def surplus (G : ℚ) : List (Entry (Mirror W) (Act W)) → ℚ
  | [] => G
  | e :: h =>
    match e.act with
    | .chain .. => surplus G h
    | .order o => surplus G h - o.burned
    | .reconcile =>
      if e.pre.Clamps then responsibilityCredits e.pre.balances - e.pre.liveTotal
      else inferred (surplus G h) e.pre

variable {h : List (Entry (Mirror W) (Act W))}

theorem kept_eq (hpool : s.pool = s.creditedTotal + G) :
    kept G s.creditedTotal s.liveTotal = s.pool + s.delta - s.liveTotal := by
  rw [kept, delta, internal, hpool]

theorem Reach.pool_eq (hr : Reach cfg G h s) : s.pool = s.creditedTotal + surplus G h := by
  refine hr.invariant (P := fun h s => s.pool = s.creditedTotal + surplus G h) ?_ ?_
  · rintro s ⟨hpool, hcredited⟩
    have htotal : s.creditedTotal = s.liveTotal := by
      rw [← sum_secured, creditedTotal, rows, List.map_map]
      exact congrArg List.sum (List.map_congr_left hcredited)
    rw [hpool, htotal, surplus]
  · intro h s a s' _ hpool hstep
    cases a with
    | chain change opened allowance =>
      cases hstep
      have hcredited : s.creditedTotal = creditedTotal { s with
          bills := s.bills.map (·.synced change) ++ opened.map .opened
          allowance := allowance } := by
        simp [creditedTotal, comp_def, MirroredBill.synced, MirroredBill.opened]
      exact hcredited ▸ hpool
    | order o =>
      obtain ⟨c', hc', rfl⟩ := Option.map_eq_some_iff.mp hstep
      obtain ⟨c, hc, hoperate⟩ := Option.bind_eq_some_iff.mp hc'
      have hbefore : s.pool = activeCredits c := by rw [pool, balances, hc, Option.getD_some]
      show activeCredits c' = s.creditedTotal + (surplus G h - o.burned)
      rw [activeCredits_order hoperate, ← hbefore, hpool]
      ring
    | reconcile =>
      cases hstep
      cases hs : s.bills.isEmpty with
      | true =>
        have hsame : s.reconcile = s := by simp [reconcile, hs]
        have hnot : ¬ s.Clamps := fun h => by simp [Clamps, hs] at h
        rw [hsame, hpool, surplus]
        simp only [if_neg hnot, inferred, hs, if_true]
      | false =>
        rw [pool_reconcile hs, creditedTotal_reconcile, surplus]
        dsimp only
        split_ifs with hclamps
        · ring
        · rw [inferred, hs, if_neg Bool.false_ne_true, kept_eq hpool]
          ring

theorem kept_of_micro {X S L : ℚ} (hX : Micro X) (hS : Micro S) (hL : Micro L) :
    kept X S L = max 0 (min X (X + S - L)) := by
  have hinferred : Micro (S + X - max S L) := (hS.add hX).sub (hS.max hL)
  have hcorrection : Micro (L + max 0 (S + X - max S L) - (S + X)) :=
    (hL.add (micro_zero.max hinferred)).sub (hS.add hX)
  rw [kept, hinferred.round6_eq, hcorrection.round6_eq]
  have hmin : S + X - max S L = min X (X + S - L) := by
    rcases le_total S L with hle | hle
    · rw [max_eq_right hle, min_eq_right (by linarith)]
      ring
    · rw [max_eq_left hle, min_eq_left (by linarith)]
      ring
  rw [hmin]
  ring

theorem Reach.pool_after (hr : Reach cfg G h s) : s.reconcile.pool = s.reconcile.liveTotal +
      surplus G (⟨s, .reconcile, s.reconcile⟩ :: h) := by
  have hr' : Reach cfg G (⟨s, .reconcile, s.reconcile⟩ :: h) s.reconcile := hr.next rfl
  rw [hr'.pool_eq, creditedTotal_reconcile, liveTotal_reconcile]

end Mirror

namespace Sample

def commitRow (billId amount spent : ℕ) : CommitRow := ⟨billId, amount, spent, 0, .opened, true⟩

def granted : Mirror Unit where
  cap := some (deltas [(.totalLockedUsdc, 200), (.totalBillCredits, 200), (.availableCredits, 160),
    (.reservedCredits, 40)])
  bills := [⟨(), commitRow 1 (100 * 10 ^ 6) 0, 100⟩]
  allowance := fun _ => 100 * 10 ^ 6

def paying : List (Mirror.Act Unit) :=
  [.order (.settle 40 40 0),
    .chain (fun _ => commitRow 1 (100 * 10 ^ 6) (40 * 10 ^ 6)) [] fun _ => 60 * 10 ^ 6, .reconcile]

def opening : List (Mirror.Act Unit) :=
  [.chain id [((), commitRow 2 (50 * 10 ^ 6) 0)] fun _ => 150 * 10 ^ 6, .reconcile]

def mirrorAfter (s : Mirror Unit) (as : List (Mirror.Act Unit)) : Mirror Unit :=
  stateAfter (Mirror.step settings) as s

def mirrorHistory (s : Mirror Unit) (as : List (Mirror.Act Unit)) :
    List (Entry (Mirror Unit) (Mirror.Act Unit)) := record (Mirror.step settings) as s []

end Sample

namespace Mirror

def Idle (s : Mirror W) : Prop := ∀ f ∈ responsibilityFields, s.balances f = 0

variable {cfg : Settings} {s : Mirror W} {h : List (Entry (Mirror W) (Act W))}

theorem idle_reconcile : s.reconcile.Idle ↔ s.Idle := by
  have hsame : ∀ f ∈ responsibilityFields, s.reconcile.balances f = s.balances f := by
    intro f hf
    cases hs : s.bills.isEmpty with
    | true => simp [reconcile, hs]
    | false =>
      rw [reconcile_of_bills hs, balances, Option.getD_some]
      split_ifs
      · rfl
      · cases f <;> first | rfl | exact absurd hf (by decide)
  exact forall₂_congr fun f hf => by rw [hsame f hf]

omit [DecidableEq W] in
theorem Idle.credits (hs : s.Idle) :
    responsibilityCredits s.balances = 0 ∧ s.pool = s.balances .availableCredits := by
  have hf := hs
  simp only [Idle, responsibilityFields, List.forall_mem_cons] at hf
  obtain ⟨h₁, h₂, h₃, h₄, h₅, -⟩ := hf
  constructor
  · simp [responsibilityCredits, h₁, h₂, h₃, h₄, h₅]
  · simp [pool, activeCredits, h₁, h₂, h₃, h₄, h₅]

theorem Reach.micro_creditedTotal {G : ℚ} (hr : Reach cfg G h s) : Micro s.creditedTotal := by
  refine hr.invariant (P := fun _ s => Micro s.creditedTotal) ?_ ?_
  · rintro s ⟨-, hcredited⟩
    refine micro_sum fun x hx => ?_
    obtain ⟨b, hb, rfl⟩ := List.mem_map.mp hx
    rw [hcredited b hb]
    exact micro_round6 _
  · intro h s a s' _ hmicro hstep
    cases a with
    | chain change opened allowance =>
      cases hstep
      simpa [creditedTotal, comp_def, MirroredBill.synced, MirroredBill.opened] using hmicro
    | order o =>
      obtain ⟨c, -, rfl⟩ := Option.map_eq_some_iff.mp hstep
      exact hmicro
    | reconcile =>
      cases hstep
      rw [creditedTotal_reconcile]
      exact micro_liveTotal s

theorem Reach.inferred_zero {G : ℚ} (hr : Reach cfg G h s) : inferred 0 s = 0 := by
  unfold inferred
  split_ifs
  · rfl
  · rw [kept_of_micro micro_zero hr.micro_creditedTotal (micro_liveTotal s)]
    exact max_eq_left (min_le_left ..)

theorem Reach.surplus_zero (hr : Reach cfg 0 h s)
    (hclamps : ∀ e ∈ h, e.act = .reconcile → ¬ e.pre.Clamps)
    (hburned : ∀ e ∈ h, ∀ o, e.act = .order o → o.burned = 0) : surplus 0 h = 0 := by
  induction hr with
  | start h0 => rfl
  | @next h s s' a hr hstep ih =>
    have hbefore : surplus 0 h = 0 :=
      ih (fun e he => hclamps e (List.mem_cons_of_mem _ he))
        fun e he => hburned e (List.mem_cons_of_mem _ he)
    cases a with
    | chain change opened allowance => exact hbefore
    | order o =>
      show surplus 0 h - o.burned = 0
      rw [hbefore, hburned _ List.mem_cons_self o rfl, sub_zero]
    | reconcile =>
      show (if s.Clamps then _ else inferred (surplus 0 h) s) = 0
      rw [if_neg (hclamps _ List.mem_cons_self rfl), hbefore]
      exact Reach.inferred_zero hr

theorem available_backed_iff (hr : Reach cfg 0 h s) :
    (Each (fun _ e => e.act = .reconcile → e.post.Idle →
        e.post.balances .availableCredits ≤ e.post.liveTotal) h ↔
      Each (fun h e => e.act = .reconcile → e.pre.Idle → ¬ e.pre.Clamps →
        inferred (surplus 0 h) e.pre ≤ 0) h) ∧
      ((∀ e ∈ h, e.act = .reconcile → ¬ e.pre.Clamps) →
        (∀ e ∈ h, ∀ o, e.act = .order o → o.burned = 0) → inferred (surplus 0 h) s ≤ 0) := by
  refine ⟨hr.each_congr fun h s a s' hr hstep => ?_, fun hclamps hburned => ?_⟩
  · refine imp_congr_right fun ha => ?_
    dsimp only at ha
    subst ha
    cases hstep
    dsimp only
    rw [idle_reconcile]
    refine imp_congr_right fun hidle => ?_
    have hpool := Reach.pool_after hr
    rw [(idle_reconcile.mpr hidle).credits.2] at hpool
    rw [hpool, add_le_iff_nonpos_right]
    by_cases hclamps : s.Clamps
    · have hsurplus : surplus 0 (⟨s, .reconcile, s.reconcile⟩ :: h) =
          responsibilityCredits s.balances - s.liveTotal := if_pos hclamps
      rw [hsurplus, hidle.credits.1, zero_sub]
      exact iff_of_true (neg_nonpos.mpr s.liveTotal_nonneg) fun hnot => absurd hclamps hnot
    · have hsurplus : surplus 0 (⟨s, .reconcile, s.reconcile⟩ :: h) =
          inferred (surplus 0 h) s := if_neg hclamps
      rw [hsurplus]
      exact ⟨fun hle _ => hle, fun hle => hle hclamps⟩
  · rw [hr.surplus_zero hclamps hburned, hr.inferred_zero]

end Mirror

namespace Sample

def secured : Mirror Unit where
  cap := some (deltas [(.totalLockedUsdc, 100), (.totalBillCredits, 100), (.availableCredits, 100)])
  bills := [⟨(), commitRow 1 (100 * 10 ^ 6) 0, 100⟩]
  allowance := fun _ => 100 * 10 ^ 6

def hundred : Voucher := ⟨100, by norm_num⟩

def withdrawing : List (Mirror.Act Unit) :=
  [.order (.accept hundred), .chain id [] fun _ => 0, .reconcile, .order (.release hundred),
    .reconcile]

end Sample

open Sample in
theorem available_backed_sample :
    (mirrorAfter secured [.chain id [] fun _ => 0, .reconcile]).balances .availableCredits = 0 ∧
      (Each (fun _ e => e.act = .reconcile → e.post.Idle →
          e.post.balances .availableCredits ≤ e.post.liveTotal)
          (mirrorHistory secured [.chain id [] fun _ => 0, .reconcile]) ↔
        Each (fun h e => e.act = .reconcile → e.pre.Idle → ¬ e.pre.Clamps →
          Mirror.inferred (Mirror.surplus 0 h) e.pre ≤ 0)
          (mirrorHistory secured [.chain id [] fun _ => 0, .reconcile])) :=
  ⟨by decide +kernel, (Mirror.available_backed_iff
    (.stateAfter (.start ⟨by decide +kernel, by decide +kernel⟩))).1⟩

open Sample in
/-- **Credit out of nothing.** The reconcile during the order is clamped and credits no backing. -/
theorem unbacked_credit_created :
    Mirror.Reach settings 0 (mirrorHistory secured withdrawing) (mirrorAfter secured withdrawing) ∧
      (mirrorAfter secured withdrawing).Idle ∧
      (mirrorAfter secured withdrawing).liveTotal = 0 ∧
      (mirrorAfter secured withdrawing).balances .availableCredits = 100 := by
  refine ⟨.stateAfter (.start ⟨by decide +kernel, by decide +kernel⟩), ?_, by decide +kernel⟩
  unfold Mirror.Idle
  decide +kernel

end Karma.Capacity
