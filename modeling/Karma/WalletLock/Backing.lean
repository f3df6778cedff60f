import Karma.Bilateral.Payments
import Karma.Capacity.Freezes
import Karma.WalletLock.Claims

/-! # Ledger credit and the bills behind it

The core and the server run side by side: `claim_lock_bill` and `claim_unlock` of
`services/chain/wallet_lock.py` take receipts of the core, and nothing tells the server that a
bill is gone. The ledger is that of one identity, credited by claims only. -/

namespace Karma.WalletLock

open Evm Capacity
open Bilateral (World Deployment)

/-- The settings of the server: the token, its decimals, and the bounds of the ledger. -/
structure Server where
  token : Address
  decimals : ℕ
  ledger : Capacity.Settings

/-- `wei_to_usdc`. -/
def Server.usdc (srv : Server) (amount : ℕ) : ℚ := amount / 10 ^ srv.decimals

/-- A row of `ChainLockModel`; one that is not `locked` is `released`. -/
structure Credit where
  bill : ℕ
  amount : ℚ
  locked : Bool
deriving DecidableEq

/-- The core, the bills that were withdrawn by `unlock`, and the rows and the balances of the
identity. -/
structure Joint where
  world : World
  withdrawn : List ℕ
  rows : List Credit
  cap : Balances

inductive Joint.Act
  | chain (a : Bilateral.Act)
  | claimLock (bill : ℕ) (wallets : List Address)
  | claimUnlock (bill : ℕ) (wallets : List Address)

/-- The bill whose `BillBurned` says `unlocked`. -/
def withdraws : Bilateral.Act → Option ℕ
  | .call _ _ (.unlock i) => some i
  | _ => none

def Joint.step (D : Deployment) (srv : Server) (s : Joint) : Joint.Act → Option Joint
  | .chain a => (Bilateral.step D s.world a).map fun world =>
    { s with world, withdrawn := (withdraws a).toList ++ s.withdrawn }
  | .claimLock i wallets =>
    let bill := s.world.bill i
    -- the receipt of the lock stays valid whatever became of the bill
    if bill.owner ≠ 0 ∧ bill.token = srv.token ∧ (assertOwnerAllowed bill.owner wallets).isOk ∧
        ∀ r ∈ s.rows, r.bill ≠ i then
      (operate srv.ledger (.creditCapacity (srv.usdc bill.amount)) s.cap).map fun cap =>
        { s with rows := ⟨i, srv.usdc bill.amount, true⟩ :: s.rows, cap }
    else none
  | .claimUnlock i wallets =>
    (s.rows.find? fun r => r.bill = i ∧ r.locked).bind fun r =>
      if i ∈ s.withdrawn ∧ (assertOwnerAllowed (s.world.bill i).owner wallets).isOk then
        (operate srv.ledger (.debitCapacity r.amount) s.cap).map fun cap =>
          { s with rows := { r with locked := false } :: s.rows.erase r, cap }
      else none

structure Joint.Init (D : Deployment) (s : Joint) : Prop where
  world : Bilateral.Init D s.world
  withdrawn : s.withdrawn = []
  rows : s.rows = []
  cap : s.cap = 0

/-- **The credit is backed** by the credited bills that are not burned. -/
def Joint.Backed (srv : Server) (s : Joint) : Prop :=
  s.cap .totalLockedUsdc ≤ (s.rows.map fun r =>
    if (s.world.bill r.bill).state = .burned then 0
    else srv.usdc (s.world.bill r.bill).amount).sum

/-- No transaction burns a bill that the ledger counts, and no burned bill is claimed. -/
def Joint.Spares (e : Entry Joint Joint.Act) : Prop :=
  match e.act with
  | .chain _ => ∀ r ∈ e.pre.rows, r.locked → (e.post.world.bill r.bill).state ≠ .burned
  | .claimLock i _ => (e.pre.world.bill i).state ≠ .burned
  | .claimUnlock _ _ => True

instance : DecidablePred Joint.Spares := fun ⟨pre, a, post⟩ =>
  match a with
  | .chain _ => inferInstanceAs
    (Decidable (∀ r ∈ pre.rows, r.locked → (post.world.bill r.bill).state ≠ .burned))
  | .claimLock i _ => inferInstanceAs (Decidable ((pre.world.bill i).state ≠ .burned))
  | .claimUnlock _ _ => inferInstanceAs (Decidable True)

/-! ## One step -/

section

variable {cfg : Capacity.Settings} {c c' : Balances} {amount : ℚ}

theorem runAll_ensureRow (st : Statement) (rest : List Statement) :
    runAll false (.ensureRow :: st :: rest) (some c) = runAll false (st :: rest) (some c) := by
  rw [runAll]
  simp [Statement.isDelta, Statement.exec]

theorem operate_credit (h : operate cfg (.creditCapacity amount) c = some c') :
    c' .totalLockedUsdc = c .totalLockedUsdc + amount := by
  obtain ⟨sts, hprep, hrun⟩ := operate_cases h
  simp only [prepare, creditCapacity] at hprep
  split_ifs at hprep
  cases hprep
  rw [runAll_ensureRow, Capacity.credit, runAll_applyDelta, List.all_nil, if_pos rfl] at hrun
  cases hrun
  simp

theorem operate_debit (h : operate cfg (.debitCapacity amount) c = some c') :
    c' .totalLockedUsdc = c .totalLockedUsdc - amount := by
  obtain ⟨sts, hprep, hrun⟩ := operate_cases h
  simp only [prepare, debitCapacity] at hprep
  split at hprep
  · cases hprep
  · cases hprep
    rw [runAll_ensureRow, Capacity.debit, runAll_applyDelta] at hrun
    split at hrun
    · cases hrun
      simp [sub_eq_add_neg]
    · cases hrun

end

variable {D : Deployment} {srv : Server} {s s' : Joint}

theorem bill_kept {w w' : World} {a : Bilateral.Act} {i : ℕ} (hs : Bilateral.Sound D w)
    (h : Bilateral.step D w a = some w') (hi : (w.bill i).owner ≠ 0) :
    (w'.bill i).owner = (w.bill i).owner ∧ (w'.bill i).amount = (w.bill i).amount := by
  cases (Bilateral.turn_of_step hs h).billTurn i with
  | same hb | bound _ _ _ hb | paid _ _ _ hb | withdrawn _ _ hb =>
    rw [hb]
    exact ⟨rfl, rfl⟩
  | minted _ hcount =>
    have hle : i ≤ w.billCounter := ((hs.balanced.paired.bill_iff i).mp hi).2
    omega

/-- What the ledger counts: the rows that are locked, each with the amount of a bill that is not
burned. -/
structure Joint.Sound (D : Deployment) (srv : Server) (s : Joint) : Prop where
  world : Bilateral.Sound D s.world
  rows : ∀ r ∈ s.rows, (s.world.bill r.bill).owner ≠ 0 ∧
    r.amount = srv.usdc (s.world.bill r.bill).amount
  live : ∀ r ∈ s.rows, r.locked → (s.world.bill r.bill).state ≠ .burned
  total : s.cap .totalLockedUsdc = (s.rows.map fun r => if r.locked then r.amount else 0).sum

theorem Joint.Sound.backed (hs : s.Sound D srv) : s.Backed srv := by
  rw [Joint.Backed, hs.total]
  refine List.sum_le_sum fun r hr => ?_
  by_cases hl : r.locked = true
  · rw [if_pos hl, if_neg (hs.live r hr hl), (hs.rows r hr).2]
  · rw [if_neg hl]
    split
    · exact le_rfl
    · exact div_nonneg (Nat.cast_nonneg _) (by positivity)

theorem Joint.Sound.step {a : Joint.Act} (hs : s.Sound D srv) (h : s.step D srv a = some s')
    (hspares : Joint.Spares ⟨s, a, s'⟩) : s'.Sound D srv := by
  cases a with
  | chain a =>
    obtain ⟨w, hw, rfl⟩ := Option.map_eq_some_iff.mp h
    refine ⟨(Bilateral.transition_of_step hs.world hw).sound hs.world, fun r hr => ?_, hspares,
      hs.total⟩
    obtain ⟨howner, hamount⟩ := hs.rows r hr
    obtain ⟨howner', hamount'⟩ := bill_kept hs.world hw howner
    dsimp only
    rw [howner', hamount']
    exact ⟨howner, hamount⟩
  | claimLock i wallets =>
    simp only [Joint.step, Option.ite_none_right_eq_some, Option.map_eq_some_iff] at h
    obtain ⟨⟨howner, -⟩, cap, hcap, rfl⟩ := h
    refine ⟨hs.world, List.forall_mem_cons.mpr ⟨⟨howner, rfl⟩, hs.rows⟩,
      List.forall_mem_cons.mpr ⟨fun _ => hspares, hs.live⟩, ?_⟩
    dsimp only
    rw [operate_credit hcap, hs.total, List.map_cons, List.sum_cons, if_pos rfl, add_comm]
  | claimUnlock i wallets =>
    obtain ⟨r, hr, h⟩ := Option.bind_eq_some_iff.mp h
    simp only [Option.ite_none_right_eq_some, Option.map_eq_some_iff] at h
    obtain ⟨-, cap, hcap, rfl⟩ := h
    have hmem := List.mem_of_find?_eq_some hr
    have hlocked : r.locked = true := by
      have hfound := List.find?_some hr
      rw [decide_eq_true_eq] at hfound
      exact hfound.2
    have hrest := fun r' hr' => List.mem_of_mem_erase (a := r') (b := r) (l := s.rows) hr'
    refine ⟨hs.world, List.forall_mem_cons.mpr ⟨hs.rows r hmem, fun r' hr' =>
      hs.rows r' (hrest r' hr')⟩, List.forall_mem_cons.mpr ⟨fun hl => ?_, fun r' hr' =>
        hs.live r' (hrest r' hr')⟩, ?_⟩
    · cases hl
    · have hsum := ((List.perm_cons_erase hmem).map fun r : Credit =>
        if r.locked then r.amount else 0).sum_eq
      rw [List.map_cons, List.sum_cons, if_pos hlocked] at hsum
      dsimp only
      rw [operate_debit hcap, hs.total, hsum]
      simp

/-- **Credit is backed as long as no counted bill is burned and no burned bill is claimed.** -/
theorem credit_backed {h : List (Entry Joint Joint.Act)}
    (hr : Run (Joint.Init D) (Joint.step D srv) h s) (hspares : ∀ e ∈ h, Joint.Spares e) :
    Throughout (fun _ s => s.Backed srv) h s := by
  refine hr.throughout_of (J := Joint.Sound D srv) (fun s h0 => ?_) (fun _ _ _ hs h => hs.step h)
    (fun _ hs => hs.backed) hspares
  refine ⟨h0.world.sound, ?_, ?_, ?_⟩ <;> simp [h0.rows, h0.cap]

namespace Sample

open Bilateral.Sample

def server : Server := ⟨token, 6, ⟨1 / 100, 10000⟩⟩

def idle : Joint := ⟨Bilateral.Sample.start, [], [], 0⟩

def lockAndClaim : List Joint.Act :=
  [.chain (.outside (.core deployment.admin (.setTokenAllowed token true))),
    .chain (.outside (.erc20 agent token (.approve deployment.self 50))),
    .chain (.call agent {} (.lock token 50)), .claimLock 1 [agent]]

/-- The owner withdraws and tells nobody. -/
def silently : List Joint.Act := lockAndClaim ++ [.chain (.call agent {} (.unlock 1))]

def jointAfter (as : List Joint.Act) : Joint := stateAfter (Joint.step deployment server) as idle

def jointHistory (as : List Joint.Act) : List (Entry Joint Joint.Act) :=
  record (Joint.step deployment server) as idle []

end Sample

open WalletLock.Sample

theorem claimed_lock_backed : (jointAfter lockAndClaim).Backed server :=
  (credit_backed (.stateAfter (.start ⟨Bilateral.Sample.init_start, rfl, rfl, rfl⟩))
    (by decide +kernel)).last

theorem silent_withdrawal_unbacked :
    Run (Joint.Init Bilateral.Sample.deployment) (Joint.step Bilateral.Sample.deployment server)
        (jointHistory silently) (jointAfter silently) ∧
      ¬ (jointAfter silently).Backed server :=
  ⟨.stateAfter (.start ⟨Bilateral.Sample.init_start, rfl, rfl, rfl⟩),
    by unfold Joint.Backed; decide +kernel⟩

end Karma.WalletLock
