import Mathlib.Algebra.BigOperators.Group.Finset.Piecewise
import Mathlib.Algebra.Group.Action.Defs
import Mathlib.Algebra.Order.BigOperators.Group.Finset
import Mathlib.Algebra.Ring.Nat

/-! # A standard ERC-20 token

The ledger of one token over an arbitrary type of addresses, with the three state-changing functions
of the standard. -/

namespace Karma.Evm

open Function

variable {A : Type} [DecidableEq A]

theorem sum_update_add [Fintype A] (f : A → ℕ) (a : A) (n : ℕ) :
    ∑ x, update f a n x + f a = ∑ x, f x + n := by
  rw [Finset.sum_update_of_mem (Finset.mem_univ a),
    ← Finset.add_sum_erase _ f (Finset.mem_univ a), Finset.sdiff_singleton_eq_erase]
  omega

theorem sum_field_update_add [Fintype A] {β : Type} (f : A → β) (g : β → ℕ) (a : A) (b : β) :
    ∑ x, g (update f a b x) + g (f a) = ∑ x, g (f x) + g b := by
  have hsum := sum_update_add (fun x => g (f x)) a (g b)
  have hfun : (fun x => g (update f a b x)) = update (fun x => g (f x)) a (g b) := by
    funext x
    by_cases hx : x = a
    · subst hx
      simp only [update_self]
    · simp only [update_of_ne hx]
  rw [hfun]
  exact hsum

structure Erc20 (A : Type) where
  balanceOf : A → ℕ
  /-- What the owner (first argument) lets the spender (second argument) pull. -/
  allowance : A → A → ℕ

namespace Erc20

variable {T T' : Erc20 A} {a b c x : A} {n m : ℕ}

/-! ## Elementary moves -/

/-- Move `amount` from one account to another (the debit comes first, so that a transfer to oneself
changes nothing). -/
def move (T : Erc20 A) (source target : A) (amount : ℕ) : Erc20 A :=
  let debited := update T.balanceOf source (T.balanceOf source - amount)
  { T with balanceOf := update debited target (debited target + amount) }

def allow (T : Erc20 A) (owner spender : A) (amount : ℕ) : Erc20 A :=
  { T with
    allowance := update T.allowance owner (update (T.allowance owner) spender amount) }

def spend (T : Erc20 A) (owner spender : A) (amount : ℕ) : Erc20 A :=
  T.allow owner spender (T.allowance owner spender - amount)

@[simp] theorem move_allowance : (T.move a b n).allowance = T.allowance := rfl

@[simp] theorem allow_balanceOf : (T.allow a b n).balanceOf = T.balanceOf := rfl

@[simp] theorem spend_balanceOf : (T.spend a b n).balanceOf = T.balanceOf := rfl

theorem move_balanceOf_of_ne (ha : x ≠ a) (hb : x ≠ b) :
    (T.move a b n).balanceOf x = T.balanceOf x := by
  simp [move, ha, hb]

theorem move_balanceOf_source (hab : a ≠ b) : (T.move a b n).balanceOf a = T.balanceOf a - n := by
  simp [move, hab]

theorem move_balanceOf_target (hab : a ≠ b) : (T.move a b n).balanceOf b = T.balanceOf b + n := by
  simp [move, hab.symm]

theorem move_self (h : n ≤ T.balanceOf a) : (T.move a a n).balanceOf = T.balanceOf := by
  funext x
  by_cases hx : x = a
  · subst hx
    simp [move, h]
  · simp [move, hx]

theorem move_balanceOf_le (h : n ≤ T.balanceOf b) :
    (T.move b c n).balanceOf a ≤ T.balanceOf a + if c = a then n else 0 := by
  rcases eq_or_ne b c with rfl | hbc
  · rw [move_self h]
    exact Nat.le_add_right ..
  rcases eq_or_ne c a with rfl | hca
  · rw [move_balanceOf_target hbc, if_pos rfl]
  rcases eq_or_ne b a with rfl | hba
  · rw [move_balanceOf_source hbc]
    omega
  · rw [move_balanceOf_of_ne hba.symm hca.symm]
    exact Nat.le_add_right ..

@[simp] theorem move_zero : T.move a b 0 = T := by
  simp [move]

theorem le_balanceOf_move (h : m + n ≤ T.balanceOf a) : m ≤ (T.move a b n).balanceOf a := by
  by_cases hab : a = b
  · rw [← hab, move_self (by omega)]
    omega
  · rw [move_balanceOf_source hab]
    omega

/-! ## Several payments -/

def pay (T : Erc20 A) (source : A) (ps : List (A × ℕ)) : Erc20 A :=
  ps.foldl (fun T p => T.move source p.1 p.2) T

def total (ps : List (A × ℕ)) : ℕ := (ps.map Prod.snd).sum

/-- What the payments `ps` bring to account `a`. -/
def due (a : A) (ps : List (A × ℕ)) : ℕ := (ps.map fun p => if p.1 = a then p.2 else 0).sum

theorem pay_balanceOf_self (ps : List (A × ℕ)) (h : total ps ≤ T.balanceOf a) :
    (T.pay a ps).balanceOf a + total ps = T.balanceOf a + due a ps := by
  induction ps generalizing T with
  | nil => rfl
  | cons p ps ih =>
    have htotal : total (p :: ps) = p.2 + total ps := rfl
    have hdue : due a (p :: ps) = (if p.1 = a then p.2 else 0) + due a ps := rfl
    rw [htotal] at h
    by_cases hp : p.1 = a
    · have hkept : (T.move a p.1 p.2).balanceOf a = T.balanceOf a := by
        rw [hp, move_self (by omega)]
      have hrest := ih (T := T.move a p.1 p.2) (by omega)
      rw [hkept] at hrest
      have hpay : T.pay a (p :: ps) = (T.move a p.1 p.2).pay a ps := rfl
      rw [hpay, htotal, hdue, if_pos hp]
      omega
    · have hless : (T.move a p.1 p.2).balanceOf a = T.balanceOf a - p.2 :=
        move_balanceOf_source (Ne.symm hp)
      have hrest := ih (T := T.move a p.1 p.2) (by omega)
      rw [hless] at hrest
      have hpay : T.pay a (p :: ps) = (T.move a p.1 p.2).pay a ps := rfl
      rw [hpay, htotal, hdue, if_neg hp]
      omega

/-! ## The calls of the standard -/

section Calls

variable [Zero A]

def transfer (T : Erc20 A) (sender target : A) (amount : ℕ) : Option (Erc20 A) :=
  if sender = 0 ∨ target = 0 ∨ T.balanceOf sender < amount then none
  else some (T.move sender target amount)

def transferFrom (T : Erc20 A) (spender source target : A) (amount : ℕ) : Option (Erc20 A) :=
  if source = 0 ∨ target = 0 ∨ T.allowance source spender < amount ∨
      T.balanceOf source < amount then
    none
  else some ((T.spend source spender amount).move source target amount)

def approve (T : Erc20 A) (owner spender : A) (amount : ℕ) : Option (Erc20 A) :=
  if owner = 0 ∨ spender = 0 then none else some (T.allow owner spender amount)

inductive Call (A : Type)
  | transfer (target : A) (amount : ℕ)
  | transferFrom (source target : A) (amount : ℕ)
  | approve (spender : A) (amount : ℕ)

def run (T : Erc20 A) (sender : A) : Call A → Option (Erc20 A)
  | .transfer target amount => T.transfer sender target amount
  | .transferFrom source target amount => T.transferFrom sender source target amount
  | .approve spender amount => T.approve sender spender amount

theorem transfer_eq_some :
    T.transfer a b n = some T' ↔ a ≠ 0 ∧ b ≠ 0 ∧ n ≤ T.balanceOf a ∧ T' = T.move a b n := by
  unfold transfer
  split_ifs with h
  · simp only [false_iff]
    rintro ⟨ha, hb, hn, -⟩
    rcases h with h | h | h
    · exact ha h
    · exact hb h
    · omega
  · push Not at h
    simp [h.1, h.2.1, h.2.2, eq_comm]

theorem transferFrom_eq_some : T.transferFrom c a b n = some T' ↔
      a ≠ 0 ∧ b ≠ 0 ∧ n ≤ T.allowance a c ∧ n ≤ T.balanceOf a ∧
        T' = (T.spend a c n).move a b n := by
  unfold transferFrom
  split_ifs with h
  · simp only [false_iff]
    rintro ⟨ha, hb, hall, hn, -⟩
    rcases h with h | h | h | h
    · exact ha h
    · exact hb h
    · omega
    · omega
  · push Not at h
    simp [h.1, h.2.1, h.2.2.1, h.2.2.2, eq_comm]

theorem approve_eq_some : T.approve a b n = some T' ↔ a ≠ 0 ∧ b ≠ 0 ∧ T' = T.allow a b n := by
  unfold approve
  split_ifs with h
  · simp only [false_iff]
    rintro ⟨ha, hb, -⟩
    rcases h with h | h
    · exact ha h
    · exact hb h
  · push Not at h
    simp [h.1, h.2, eq_comm]

def Call.credits (a : A) : Call A → ℕ
  | .transfer target amount => if target = a then amount else 0
  | .transferFrom _ target amount => if target = a then amount else 0
  | .approve _ _ => 0

theorem run_balanceOf_le {call : Call A} (hr : T.run x call = some T') :
    T'.balanceOf a ≤ T.balanceOf a + call.credits a := by
  cases call with
  | transfer b n =>
    obtain ⟨-, -, hn, rfl⟩ := transfer_eq_some.mp hr
    exact move_balanceOf_le hn
  | transferFrom b c n =>
    obtain ⟨-, -, -, hn, rfl⟩ := transferFrom_eq_some.mp hr
    exact move_balanceOf_le (T := T.spend b x n) hn
  | approve b n =>
    obtain ⟨-, -, rfl⟩ := approve_eq_some.mp hr
    exact Nat.le_add_right ..

def Call.payer (sender : A) : Call A → A
  | .transfer _ _ => sender
  | .transferFrom source _ _ => source
  | .approve _ _ => sender

theorem run_allowance_le {call : Call A} (hne : x ≠ a) (hr : T.run x call = some T') :
    T'.allowance a b ≤ T.allowance a b := by
  cases call with
  | transfer c n =>
    obtain ⟨-, -, -, rfl⟩ := transfer_eq_some.mp hr
    exact le_rfl
  | transferFrom c d n =>
    obtain ⟨-, -, -, -, rfl⟩ := transferFrom_eq_some.mp hr
    by_cases hc : a = c
    · subst hc
      by_cases hb : b = x
      · subst hb
        simp [spend, allow]
      · simp [spend, allow, hb]
    · simp [spend, allow, hc]
  | approve c n =>
    obtain ⟨-, -, rfl⟩ := approve_eq_some.mp hr
    simp [allow, Ne.symm hne]

theorem le_run_balanceOf {call : Call A} (hne : x ≠ a) (hmute : ∀ s, T.allowance a s = 0)
    (hr : T.run x call = some T') : T.balanceOf a + call.credits a ≤ T'.balanceOf a := by
  cases call with
  | transfer c n =>
    obtain ⟨-, -, -, rfl⟩ := transfer_eq_some.mp hr
    by_cases hc : c = a
    · subst hc
      rw [move_balanceOf_target hne, Call.credits, if_pos rfl]
    · rw [move_balanceOf_of_ne (Ne.symm hne) (Ne.symm hc), Call.credits, if_neg hc, Nat.add_zero]
  | transferFrom c d n =>
    obtain ⟨-, -, hall, -, rfl⟩ := transferFrom_eq_some.mp hr
    by_cases hc : c = a
    · -- nothing can be pulled from the account
      subst hc
      have hzero : n = 0 := by
        rw [hmute] at hall
        omega
      subst hzero
      simp [Call.credits]
    · by_cases hd : d = a
      · subst hd
        rw [move_balanceOf_target hc, Call.credits, if_pos rfl, spend_balanceOf]
      · rw [move_balanceOf_of_ne (Ne.symm hc) (Ne.symm hd), Call.credits, if_neg hd, Nat.add_zero,
          spend_balanceOf]
  | approve c n =>
    obtain ⟨-, -, rfl⟩ := approve_eq_some.mp hr
    exact le_rfl

end Calls

/-! ## The total supply -/

section Supply

variable [Fintype A]

/-- The total supply: what all accounts hold together. -/
def supply (T : Erc20 A) : ℕ := ∑ a, T.balanceOf a

omit [DecidableEq A] in
theorem balanceOf_le_supply (T : Erc20 A) (a : A) : T.balanceOf a ≤ T.supply :=
  Finset.single_le_sum (fun _ _ => Nat.zero_le _) (Finset.mem_univ a)

omit [DecidableEq A] in
theorem supply_le_card_mul (T : Erc20 A) (hn : ∀ a, T.balanceOf a ≤ n) :
    T.supply ≤ Fintype.card A * n := by
  have hsum := Finset.sum_le_card_nsmul Finset.univ T.balanceOf n fun a _ => hn a
  rwa [smul_eq_mul, Finset.card_univ] at hsum

theorem supply_move (hn : n ≤ T.balanceOf a) : (T.move a b n).supply = T.supply := by
  have hdebit := sum_update_add T.balanceOf a (T.balanceOf a - n)
  have hcredit := sum_update_add (update T.balanceOf a (T.balanceOf a - n)) b
    (update T.balanceOf a (T.balanceOf a - n) b + n)
  simp only [supply, move]
  omega

theorem supply_run [Zero A] {call : Call A} (hr : T.run x call = some T') :
    T'.supply = T.supply := by
  cases call with
  | transfer b n =>
    obtain ⟨-, -, hn, rfl⟩ := transfer_eq_some.mp hr
    exact supply_move hn
  | transferFrom b c n =>
    obtain ⟨-, -, -, hn, rfl⟩ := transferFrom_eq_some.mp hr
    exact supply_move (T := T.spend b x n) hn
  | approve b n =>
    obtain ⟨-, -, rfl⟩ := approve_eq_some.mp hr
    rfl

end Supply

/-! ## Money held for others -/

section Backing

variable [Fintype A]

/-- Everything `a` has approved for others. -/
def granted (T : Erc20 A) (a : A) : ℕ := ∑ s, T.allowance a s

/-- Account `a` holds `n` beyond everything it has approved. -/
def Backs (T : Erc20 A) (a : A) (n : ℕ) : Prop := n + T.granted a ≤ T.balanceOf a

@[simp] theorem granted_move : (T.move a b n).granted c = T.granted c := rfl

theorem granted_pay (ps : List (A × ℕ)) : (T.pay a ps).granted c = T.granted c := by
  induction ps generalizing T with
  | nil => rfl
  | cons p ps ih => exact ih (T := T.move a p.1 p.2)

theorem Backs.pay {ps : List (A × ℕ)} (h : T.Backs a (m + total ps)) : (T.pay a ps).Backs a m := by
  unfold Backs at *
  have hpay := pay_balanceOf_self (T := T) (a := a) ps (by omega)
  rw [granted_pay]
  omega

theorem granted_allow : (T.allow a b n).granted a + T.allowance a b = T.granted a + n := by
  simp only [granted, allow, update_self]
  exact sum_update_add (T.allowance a) b n

theorem granted_allow_of_ne (h : a ≠ b) : (T.allow b c n).granted a = T.granted a := by
  simp [granted, allow, h]

theorem granted_spend (h : n ≤ T.allowance a c) : (T.spend a c n).granted a + n = T.granted a := by
  have hsum := granted_allow (T := T) (a := a) (b := c) (n := T.allowance a c - n)
  rw [spend]
  omega

theorem granted_spend_of_ne (h : a ≠ b) : (T.spend b c n).granted a = T.granted a :=
  granted_allow_of_ne h

omit [DecidableEq A] in
theorem Backs.mono (h : T.Backs a n) (hm : m ≤ n) : T.Backs a m := by
  unfold Backs at *
  omega

variable [Zero A]

theorem Backs.transfer (h : T.Backs a (m + n)) (ht : T.transfer a b n = some T') :
    T'.Backs a m := by
  obtain ⟨-, -, hn, rfl⟩ := transfer_eq_some.mp ht
  unfold Backs at *
  rw [granted_move]
  by_cases hab : a = b
  · subst hab
    rw [move_self hn]
    omega
  · rw [move_balanceOf_source hab]
    omega

theorem Backs.approve (h : T.Backs a (m + n)) (ht : T.approve a b n = some T') : T'.Backs a m := by
  obtain ⟨-, -, rfl⟩ := approve_eq_some.mp ht
  have hsum := granted_allow (T := T) (a := a) (b := b) (n := n)
  unfold Backs at *
  rw [allow_balanceOf]
  omega

theorem Backs.pull (h : T.Backs a m) (ht : T.transferFrom a b a n = some T') :
    T'.Backs a (m + n) := by
  obtain ⟨-, -, hall, hn, rfl⟩ := transferFrom_eq_some.mp ht
  unfold Backs at *
  rw [granted_move]
  by_cases hab : a = b
  · subst hab
    rw [move_self (by simpa using hn), spend_balanceOf]
    have := granted_spend hall
    omega
  · rw [move_balanceOf_target (Ne.symm hab), spend_balanceOf, granted_spend_of_ne hab]
    omega

theorem Backs.run {call : Call A} (h : T.Backs a n) (hne : x ≠ a)
    (hr : T.run x call = some T') : T'.Backs a n := by
  cases call with
  | transfer b m =>
    obtain ⟨-, -, hm, rfl⟩ := transfer_eq_some.mp hr
    unfold Backs at *
    rw [granted_move]
    by_cases hb : a = b
    · rw [← hb, move_balanceOf_target hne]
      omega
    · rw [move_balanceOf_of_ne hne.symm hb]
      exact h
  | transferFrom b c m =>
    obtain ⟨-, -, hall, hm, rfl⟩ := transferFrom_eq_some.mp hr
    unfold Backs at *
    rw [granted_move]
    by_cases hb : a = b
    · subst hb
      have hg := granted_spend hall
      by_cases hc : a = c
      · subst hc
        rw [move_self (by simpa using hm), spend_balanceOf]
        omega
      · rw [move_balanceOf_source hc, spend_balanceOf]
        omega
    · rw [granted_spend_of_ne hb]
      by_cases hc : a = c
      · rw [← hc, move_balanceOf_target (Ne.symm hb), spend_balanceOf]
        omega
      · rw [move_balanceOf_of_ne hb hc, spend_balanceOf]
        exact h
  | approve b m =>
    obtain ⟨-, -, rfl⟩ := approve_eq_some.mp hr
    unfold Backs at *
    rw [granted_allow_of_ne hne.symm, allow_balanceOf]
    exact h

end Backing

end Erc20

end Karma.Evm
