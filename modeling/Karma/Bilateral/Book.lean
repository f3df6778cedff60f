import Karma.Bilateral.State
import Karma.Evm.Register

/-! # The book of bills and bindings

What the core's ledger is for, without its encoding: registers of bills and of bindings that each
*hold* two bills, and four running totals. -/

namespace Karma.Bilateral

open Evm Function

/-- A binding that exists and still holds its two bills. -/
def Binding.Live (x : Binding) : Prop := x.createdAt ≠ 0 ∧ x.state.Open

instance : DecidablePred Binding.Live := fun x => by unfold Binding.Live; infer_instance

def Binding.Holds (x : Binding) (i : ℕ) : Prop := x.buyerBillId = i ∨ x.agentBillId = i

structure Binding.Revises (x y : Binding) : Prop where
  buyer : x.buyerBillId = y.buyerBillId
  agent : x.agentBillId = y.agentBillId
  createdAt : x.createdAt = y.createdAt

theorem Binding.Revises.holds {x y : Binding} (h : x.Revises y) (i : ℕ) :
    x.Holds i ↔ y.Holds i := by
  rw [Binding.Holds, Binding.Holds, h.buyer, h.agent]

@[ext] structure Book where
  bill : ℕ → BillToken
  billCounter : ℕ
  binding : ℕ → Binding
  bindingCounter : ℕ
  totalLocked : Address → ℕ
  pendingBatchAmount : Address → ℕ
  freeBalance : Address → ℕ
  boundBalance : Address → ℕ

/-! ## What a record counts for -/

namespace BillToken

variable (x : BillToken)

def lockedOn (t : Address) : ℕ := if x.token = t ∧ x.state ≠ .burned then x.amount else 0

/-- What a bill counts for in the free balance of `a`. -/
def freeOf (a : Address) : ℕ := if x.owner = a ∧ x.state = .minted then x.amount else 0

/-- What a bill counts for in the bound balance of `a`. -/
def boundOf (a : Address) : ℕ := if x.owner = a ∧ x.state = .bound then x.amount else 0

def withState (st : BillState) : BillToken := { x with state := st }

@[simp] theorem withState_owner (st : BillState) : (x.withState st).owner = x.owner := rfl

@[simp] theorem withState_token (st : BillState) : (x.withState st).token = x.token := rfl

@[simp] theorem withState_amount (st : BillState) : (x.withState st).amount = x.amount := rfl

@[simp] theorem withState_state (st : BillState) : (x.withState st).state = st := rfl

end BillToken

namespace Book

variable (B : Book)

def pool (x : Binding) : ℕ := (B.bill x.buyerBillId).amount + (B.bill x.agentBillId).amount

def poolToken (x : Binding) : Address := (B.bill x.buyerBillId).token

def pendingOn (t : Address) (x : Binding) : ℕ :=
  if x.Live ∧ B.poolToken x = t then B.pool x else 0

/-! ## The five operations -/

def setState (i : ℕ) (st : BillState) : Book :=
  { B with bill := update B.bill i ((B.bill i).withState st) }

def setBoth (x : Binding) (st : BillState) : Book :=
  (B.setState x.buyerBillId st).setState x.agentBillId st

def revise (b : ℕ) (x : Binding) : Book :=
  { B with binding := update B.binding b x }

def mint (owner token : Address) (amount : ℕ) : Book :=
  { B with
    billCounter := B.billCounter + 1,
    bill := update B.bill (B.billCounter + 1) { owner, state := .minted, token, amount },
    totalLocked := credit B.totalLocked token amount,
    freeBalance := credit B.freeBalance owner amount }

/-- Enter the binding `x`: the amounts of its bills move from free to bound. -/
def enroll (x : Binding) : Book :=
  let buyer := B.bill x.buyerBillId
  let agent := B.bill x.agentBillId
  { B with
    bindingCounter := B.bindingCounter + 1,
    binding := update B.binding (B.bindingCounter + 1) x,
    pendingBatchAmount := credit B.pendingBatchAmount (B.poolToken x) (B.pool x),
    freeBalance := debit (debit B.freeBalance buyer.owner buyer.amount) agent.owner agent.amount,
    boundBalance :=
      credit (credit B.boundBalance buyer.owner buyer.amount) agent.owner agent.amount }

def pair (x : Binding) : Book := (B.enroll x).setBoth x .bound

def retire (x : Binding) : Book :=
  let buyer := B.bill x.buyerBillId
  let agent := B.bill x.agentBillId
  { B.setBoth x .burned with
    totalLocked := debit (debit B.totalLocked buyer.token buyer.amount) agent.token agent.amount,
    pendingBatchAmount := debit B.pendingBatchAmount (B.poolToken x) (B.pool x),
    boundBalance := debit (debit B.boundBalance buyer.owner buyer.amount) agent.owner agent.amount }

def close (b : ℕ) (x : Binding) : Book := (B.revise b x).retire x

def release (i : ℕ) : Book :=
  { B.setState i .burned with
    totalLocked := debit B.totalLocked (B.bill i).token (B.bill i).amount,
    freeBalance := debit B.freeBalance (B.bill i).owner (B.bill i).amount }

end Book

/-! ## The invariant -/

structure Book.Matched (B : Book) (x : Binding) : Prop where
  buyer : (B.bill x.buyerBillId).owner ≠ 0
  agent : (B.bill x.agentBillId).owner ≠ 0
  owners_ne : (B.bill x.buyerBillId).owner ≠ (B.bill x.agentBillId).owner
  token_eq : (B.bill x.buyerBillId).token = (B.bill x.agentBillId).token

structure Book.Paired (B : Book) : Prop where
  bill_iff : ∀ i, (B.bill i).owner ≠ 0 ↔ 1 ≤ i ∧ i ≤ B.billCounter
  blank : ∀ i, (B.bill i).owner = 0 → B.bill i = {}
  binding_iff : ∀ b, (B.binding b).createdAt ≠ 0 ↔ 1 ≤ b ∧ b ≤ B.bindingCounter
  matched : ∀ b, (B.binding b).createdAt ≠ 0 → B.Matched (B.binding b)
  held : ∀ b i, (B.binding b).Live → (B.binding b).Holds i → (B.bill i).state = .bound
  holder : ∀ i, (B.bill i).state = .bound → ∃ b, (B.binding b).Live ∧ (B.binding b).Holds i
  sole : ∀ b c i, (B.binding b).Live → (B.binding c).Live → (B.binding b).Holds i →
    (B.binding c).Holds i → b = c

/-- **The running totals are the sums they are meant to be.** -/
structure Book.Summed (B : Book) : Prop where
  totalLocked : ∀ t, B.totalLocked t = total B.billCounter (fun _ x => x.lockedOn t) B.bill
  pendingBatchAmount : ∀ t,
    B.pendingBatchAmount t = total B.bindingCounter (fun _ x => B.pendingOn t x) B.binding
  freeBalance : ∀ a, B.freeBalance a = total B.billCounter (fun _ x => x.freeOf a) B.bill
  boundBalance : ∀ a, B.boundBalance a = total B.billCounter (fun _ x => x.boundOf a) B.bill

structure Book.Balanced (B : Book) : Prop where
  paired : B.Paired
  summed : B.Summed

namespace Book

variable {B : Book} {x : Binding} {b i : ℕ} {t a : Address}

/-! ## Reading a book after a change of state -/

section SetState

variable (st : BillState) (k : ℕ)

@[simp] theorem setState_owner : ((B.setState i st).bill k).owner = (B.bill k).owner := by
  by_cases h : k = i
  · subst h
    simp [setState]
  · simp [setState, h]

@[simp] theorem setState_token : ((B.setState i st).bill k).token = (B.bill k).token := by
  by_cases h : k = i
  · subst h
    simp [setState]
  · simp [setState, h]

@[simp] theorem setState_amount : ((B.setState i st).bill k).amount = (B.bill k).amount := by
  by_cases h : k = i
  · subst h
    simp [setState]
  · simp [setState, h]

theorem setState_state :
    ((B.setState i st).bill k).state = if k = i then st else (B.bill k).state := by
  by_cases h : k = i
  · subst h
    simp [setState]
  · simp [setState, h]

theorem setState_of_ne (h : k ≠ i) : (B.setState i st).bill k = B.bill k := by
  simp [setState, h]

end SetState

@[simp] theorem setBoth_owner (st : BillState) (k : ℕ) :
    ((B.setBoth x st).bill k).owner = (B.bill k).owner := by simp [setBoth]

@[simp] theorem setBoth_token (st : BillState) (k : ℕ) :
    ((B.setBoth x st).bill k).token = (B.bill k).token := by simp [setBoth]

@[simp] theorem setBoth_amount (st : BillState) (k : ℕ) :
    ((B.setBoth x st).bill k).amount = (B.bill k).amount := by simp [setBoth]

theorem setBoth_of_not_holds (st : BillState) {k : ℕ} (h : ¬ x.Holds k) :
    (B.setBoth x st).bill k = B.bill k := by
  rw [Binding.Holds, not_or] at h
  rw [setBoth, setState_of_ne _ _ (Ne.symm h.2), setState_of_ne _ _ (Ne.symm h.1)]

theorem setBoth_state_of_holds (st : BillState) {k : ℕ} (h : x.Holds k) :
    ((B.setBoth x st).bill k).state = st := by
  rcases h with rfl | rfl <;> simp [setBoth, setState_state]

theorem setBoth_of_holds (st : BillState) {k : ℕ} (h : x.Holds k) :
    (B.setBoth x st).bill k = (B.bill k).withState st :=
  BillToken.ext (setBoth_owner st k) (setBoth_state_of_holds st h) (setBoth_token st k)
    (setBoth_amount st k)

theorem enroll_setBoth : (B.setBoth x .bound).enroll x = B.pair x := by
  simp only [pair, enroll, pool, poolToken, setBoth_owner, setBoth_amount, setBoth_token]
  rfl

@[simp] theorem pair_bill : (B.pair x).bill = (B.setBoth x .bound).bill := rfl

@[simp] theorem pair_binding :
    (B.pair x).binding = update B.binding (B.bindingCounter + 1) x := rfl

@[simp] theorem close_bill : (B.close b x).bill = (B.setBoth x .burned).bill := rfl

@[simp] theorem close_binding : (B.close b x).binding = update B.binding b x := rfl

/-! ## Bills and bindings keep fitting together -/

theorem Matched.congr {B' : Book} (h : B.Matched x)
    (howner : ∀ k, x.Holds k → (B'.bill k).owner = (B.bill k).owner)
    (htoken : ∀ k, x.Holds k → (B'.bill k).token = (B.bill k).token) : B'.Matched x := by
  have hi : x.Holds x.buyerBillId := Or.inl rfl
  have hj : x.Holds x.agentBillId := Or.inr rfl
  refine ⟨?_, ?_, ?_, ?_⟩
  · rw [howner _ hi]
    exact h.buyer
  · rw [howner _ hj]
    exact h.agent
  · rw [howner _ hi, howner _ hj]
    exact h.owners_ne
  · rw [htoken _ hi, htoken _ hj]
    exact h.token_eq

theorem Matched.ids_ne (h : B.Matched x) : x.buyerBillId ≠ x.agentBillId :=
  fun he => h.owners_ne (by rw [he])

theorem Matched.owner_ne (h : B.Matched x) (hi : x.Holds i) : (B.bill i).owner ≠ 0 := by
  rcases hi with rfl | rfl
  · exact h.buyer
  · exact h.agent

theorem Paired.owner_ne_of_bound (h : B.Paired) (hi : (B.bill i).state = .bound) :
    (B.bill i).owner ≠ 0 := by
  intro h0
  rw [h.blank i h0] at hi
  cases hi

variable {amount : ℕ}

variable {owner token : Address}

theorem Paired.mint (h : B.Paired) (howner : owner ≠ 0) :
    (B.mint owner token amount).Paired := by
  -- the new number was blank, so no record that exists is touched
  have hold : ∀ k, (B.bill k).owner ≠ 0 → (B.mint owner token amount).bill k = B.bill k := by
    intro k hk
    have hle := ((h.bill_iff k).mp hk).2
    exact update_of_ne (by omega) _ _
  have hbound : ∀ k, ((B.mint owner token amount).bill k).state = .bound →
      (B.bill k).state = .bound := by
    intro k hk
    rcases eq_or_ne k (B.billCounter + 1) with rfl | hne
    · simp [Book.mint] at hk
    · simpa [Book.mint, hne] using hk
  refine ⟨fun k => ?_, fun k hk => ?_, h.binding_iff, fun b hb => ?_, fun b k hb hk => ?_,
    fun k hk => h.holder k (hbound k hk), h.sole⟩
  · show ((update B.bill (B.billCounter + 1) _) k).owner ≠ 0 ↔ 1 ≤ k ∧ k ≤ B.billCounter + 1
    rcases eq_or_ne k (B.billCounter + 1) with rfl | hne
    · simp [howner]
    · rw [update_of_ne hne, h.bill_iff k]
      omega
  · rcases eq_or_ne k (B.billCounter + 1) with rfl | hne
    · simp [Book.mint, howner] at hk
    · have hk' : (B.bill k).owner = 0 := by simpa [Book.mint, hne] using hk
      simpa [Book.mint, hne] using h.blank k hk'
  · -- the bills of a binding exist already, so they are the old ones
    have hm := h.matched b hb
    exact hm.congr (fun k hk => by rw [hold k (hm.owner_ne hk)])
      fun k hk => by rw [hold k (hm.owner_ne hk)]
  · have hstate := h.held b k hb hk
    rw [hold k (h.owner_ne_of_bound hstate)]
    exact hstate

theorem Paired.setBoth_bill (h : B.Paired) (hx : B.Matched x) (st : BillState) :
    (∀ k, ((B.setBoth x st).bill k).owner ≠ 0 ↔ 1 ≤ k ∧ k ≤ B.billCounter) ∧
      (∀ k, ((B.setBoth x st).bill k).owner = 0 → (B.setBoth x st).bill k = {}) := by
  refine ⟨fun k => by rw [setBoth_owner]; exact h.bill_iff k, fun k hk => ?_⟩
  rw [setBoth_owner] at hk
  rw [setBoth_of_not_holds _ fun hh => hx.owner_ne hh hk]
  exact h.blank k hk

theorem Paired.pair (h : B.Paired) (hx : B.Matched x) (hlive : x.Live)
    (hfree : ∀ k, x.Holds k → (B.bill k).state = .minted) : (B.pair x).Paired := by
  obtain ⟨hbill, hblank⟩ := h.setBoth_bill hx .bound
  -- the new number was blank, and no live binding holds a minted bill
  have hnew : ¬ (B.binding (B.bindingCounter + 1)).createdAt ≠ 0 := by
    rw [h.binding_iff]
    omega
  have hapart : ∀ c k, (B.binding c).Live → (B.binding c).Holds k → ¬ x.Holds k := by
    intro c k hc hk hxk
    have := h.held c k hc hk
    rw [hfree k hxk] at this
    cases this
  have hsplit : ∀ c, ((B.pair x).binding c = x ∧ c = B.bindingCounter + 1) ∨
      ((B.pair x).binding c = B.binding c ∧ c ≠ B.bindingCounter + 1) := by
    intro c
    rcases eq_or_ne c (B.bindingCounter + 1) with rfl | hne
    · exact Or.inl ⟨by simp, rfl⟩
    · exact Or.inr ⟨by simp [hne], hne⟩
  refine ⟨hbill, hblank, fun c => ?_, fun c hc => ?_, fun c k hc hk => ?_, fun k hk => ?_,
    fun c d k hc hd hck hdk => ?_⟩
  · show ((B.pair x).binding c).createdAt ≠ 0 ↔ 1 ≤ c ∧ c ≤ B.bindingCounter + 1
    rcases hsplit c with ⟨he, rfl⟩ | ⟨he, hne⟩
    · simp [he, hlive.1]
    · rw [he, h.binding_iff c]
      omega
  · have hm : B.Matched ((B.pair x).binding c) := by
      rcases hsplit c with ⟨he, -⟩ | ⟨he, -⟩
      · rwa [he]
      · rw [he] at hc ⊢
        exact h.matched c hc
    exact hm.congr (fun k _ => by simp) fun k _ => by simp
  · rw [pair_bill]
    rcases hsplit c with ⟨he, -⟩ | ⟨he, -⟩
    · rw [he] at hk
      exact setBoth_state_of_holds _ hk
    · rw [he] at hc hk
      rw [setBoth_of_not_holds _ (hapart c k hc hk)]
      exact h.held c k hc hk
  · -- a bound bill is held by the new binding, or was bound before
    by_cases hxk : x.Holds k
    · exact ⟨B.bindingCounter + 1, by simpa using hlive, by simpa using hxk⟩
    · rw [pair_bill, setBoth_of_not_holds _ hxk] at hk
      obtain ⟨c, hc, hck⟩ := h.holder k hk
      have hne : c ≠ B.bindingCounter + 1 := fun he => hnew (he ▸ hc.1)
      exact ⟨c, by simpa [hne] using hc, by simpa [hne] using hck⟩
  · -- two holders of one bill: both new, one new (impossible), both old
    rcases hsplit c with ⟨hce, hc1⟩ | ⟨hce, hc1⟩ <;>
      rcases hsplit d with ⟨hde, hd1⟩ | ⟨hde, hd1⟩ <;>
      rw [hce] at hc hck <;> rw [hde] at hd hdk
    · rw [hc1, hd1]
    · exact absurd hck (hapart d k hd hdk)
    · exact absurd hdk (hapart c k hc hck)
    · exact h.sole c d k hc hd hck hdk

variable {y : Binding}

theorem Matched.revises (h : B.Matched y) (hx : x.Revises y) : B.Matched x := by
  refine ⟨?_, ?_, ?_, ?_⟩
  · rw [hx.buyer]
    exact h.buyer
  · rw [hx.agent]
    exact h.agent
  · rw [hx.buyer, hx.agent]
    exact h.owners_ne
  · rw [hx.buyer, hx.agent]
    exact h.token_eq

theorem pool_of_revises (hx : x.Revises y) : B.pool x = B.pool y := by
  rw [pool, pool, hx.buyer, hx.agent]

theorem poolToken_of_revises (hx : x.Revises y) : B.poolToken x = B.poolToken y := by
  rw [poolToken, poolToken, hx.buyer]

theorem revise_revises (hx : x.Revises (B.binding b)) (c : ℕ) :
    ((B.revise b x).binding c).Revises (B.binding c) := by
  rcases eq_or_ne c b with rfl | hne
  · simpa [Book.revise] using hx
  · rw [show (B.revise b x).binding c = B.binding c by simp [Book.revise, hne]]
    exact ⟨rfl, rfl, rfl⟩

theorem Paired.revise (h : B.Paired) (hx : x.Revises (B.binding b))
    (hopen : x.state.Open ↔ (B.binding b).state.Open) : (B.revise b x).Paired := by
  have hrev := revise_revises hx
  -- nobody's liveness changes, nor what anybody holds
  have hlive : ∀ c, ((B.revise b x).binding c).Live ↔ (B.binding c).Live := by
    intro c
    rcases eq_or_ne c b with rfl | hne
    · simp [Book.revise, Binding.Live, hx.createdAt, hopen]
    · simp [Book.revise, hne]
  refine ⟨h.bill_iff, h.blank, fun c => ?_, fun c hc => ?_, fun c k hc hk => ?_, fun k hk => ?_,
    fun c d k hc hd hck hdk => ?_⟩
  · rw [(hrev c).createdAt]
    exact h.binding_iff c
  · rw [(hrev c).createdAt] at hc
    exact ((h.matched c hc).revises (hrev c)).congr (fun _ _ => rfl) fun _ _ => rfl
  · exact h.held c k ((hlive c).mp hc) (((hrev c).holds k).mp hk)
  · obtain ⟨c, hc, hck⟩ := h.holder k hk
    exact ⟨c, (hlive c).mpr hc, ((hrev c).holds k).mpr hck⟩
  · exact h.sole c d k ((hlive c).mp hc) ((hlive d).mp hd) (((hrev c).holds k).mp hck)
      (((hrev d).holds k).mp hdk)

theorem Paired.close (h : B.Paired) (hx : x.Revises (B.binding b)) (hlive : (B.binding b).Live)
    (hclosed : ¬ x.state.Open) : (B.close b x).Paired := by
  have hm : B.Matched x := (h.matched b hlive.1).revises hx
  obtain ⟨hbill, hblank⟩ := h.setBoth_bill hm .burned
  have hrev : ∀ c, ((B.close b x).binding c).Revises (B.binding c) := revise_revises hx
  -- whoever is still live is not `b`, and then holds none of its bills
  have hother : ∀ c, ((B.close b x).binding c).Live →
      (B.binding c).Live ∧ ∀ k, ((B.close b x).binding c).Holds k → ¬ x.Holds k := by
    intro c hc
    have hne : c ≠ b := by
      rintro rfl
      rw [close_binding, update_self] at hc
      exact hclosed hc.2
    have hc' : (B.binding c).Live := by simpa [hne] using hc
    refine ⟨hc', fun k hk hxk => hne ?_⟩
    exact h.sole c b k hc' hlive (((hrev c).holds k).mp hk) ((hx.holds k).mp hxk)
  refine ⟨hbill, hblank, fun c => ?_, fun c hc => ?_, fun c k hc hk => ?_, fun k hk => ?_,
    fun c d k hc hd hck hdk => ?_⟩
  · rw [(hrev c).createdAt]
    exact h.binding_iff c
  · rw [(hrev c).createdAt] at hc
    exact ((h.matched c hc).revises (hrev c)).congr (fun k _ => by simp) fun k _ => by simp
  · obtain ⟨hc', hfree⟩ := hother c hc
    rw [close_bill, setBoth_of_not_holds _ (hfree k hk)]
    exact h.held c k hc' (((hrev c).holds k).mp hk)
  · -- the bills of `b` are burned now, so a bound bill has another holder, which stays
    have hxk : ¬ x.Holds k := by
      intro hxk
      rw [close_bill, setBoth_state_of_holds _ hxk] at hk
      cases hk
    rw [close_bill, setBoth_of_not_holds _ hxk] at hk
    obtain ⟨c, hc, hck⟩ := h.holder k hk
    have hne : c ≠ b := by
      rintro rfl
      exact hxk ((hx.holds k).mpr hck)
    exact ⟨c, by simpa [hne] using hc, by simpa [hne] using hck⟩
  · exact h.sole c d k (hother c hc).1 (hother d hd).1 (((hrev c).holds k).mp hck)
      (((hrev d).holds k).mp hdk)

theorem Paired.release (h : B.Paired) (hi : (B.bill i).owner ≠ 0)
    (hfree : (B.bill i).state = .minted) : (B.release i).Paired := by
  have hbill : (B.release i).bill = (B.setState i .burned).bill := rfl
  -- a minted bill has no live holder
  have hnot : ∀ c k, (B.binding c).Live → (B.binding c).Holds k → k ≠ i := by
    rintro c k hc hk rfl
    have := h.held c k hc hk
    rw [hfree] at this
    cases this
  refine ⟨fun k => ?_, fun k hk => ?_, h.binding_iff, fun c hc => ?_, fun c k hc hk => ?_,
    fun k hk => ?_, h.sole⟩
  · rw [hbill, setState_owner]
    exact h.bill_iff k
  · rw [hbill, setState_owner] at hk
    rw [hbill, setState_of_ne _ _ (by rintro rfl; exact hi hk)]
    exact h.blank k hk
  · refine (h.matched c hc).congr (fun k _ => ?_) fun k _ => ?_
    · rw [hbill, setState_owner]
    · rw [hbill, setState_token]
  · rw [hbill, setState_of_ne _ _ (hnot c k hc hk)]
    exact h.held c k hc hk
  · rw [hbill, setState_state] at hk
    split_ifs at hk
    exact h.holder k hk

/-! ## No subtraction goes below zero -/

section Covered

variable (h : B.Balanced)

include h

theorem Balanced.amount_le_totalLocked (hi : (B.bill i).owner ≠ 0)
    (hs : (B.bill i).state ≠ .burned) : (B.bill i).amount ≤ B.totalLocked (B.bill i).token := by
  obtain ⟨h1, hn⟩ := (h.paired.bill_iff i).mp hi
  rw [h.summed.totalLocked]
  refine le_trans ?_ (le_total (fun _ x => x.lockedOn (B.bill i).token) B.bill h1 hn)
  simp [BillToken.lockedOn, hs]

theorem Balanced.pool_le_totalLocked (hm : B.Matched x)
    (hs : ∀ k, x.Holds k → (B.bill k).state ≠ .burned) :
    B.pool x ≤ B.totalLocked (B.poolToken x) := by
  obtain ⟨hi1, hin⟩ := (h.paired.bill_iff _).mp hm.buyer
  obtain ⟨hj1, hjn⟩ := (h.paired.bill_iff _).mp hm.agent
  rw [h.summed.totalLocked]
  refine le_trans ?_ (add_le_total (fun _ y => y.lockedOn (B.poolToken x)) B.bill hm.ids_ne hi1 hin
    hj1 hjn)
  simp [BillToken.lockedOn, poolToken, pool, hm.token_eq, hs _ (Or.inl rfl), hs _ (Or.inr rfl)]

theorem Balanced.amount_le_freeBalance (hi : (B.bill i).owner ≠ 0)
    (hs : (B.bill i).state = .minted) :
    (B.bill i).amount ≤ B.freeBalance (B.bill i).owner := by
  obtain ⟨h1, hn⟩ := (h.paired.bill_iff i).mp hi
  rw [h.summed.freeBalance]
  refine le_trans ?_ (le_total (fun _ x => x.freeOf (B.bill i).owner) B.bill h1 hn)
  simp [BillToken.freeOf, hs]

theorem Balanced.amount_le_boundBalance (hs : (B.bill i).state = .bound) :
    (B.bill i).amount ≤ B.boundBalance (B.bill i).owner := by
  obtain ⟨h1, hn⟩ := (h.paired.bill_iff i).mp (h.paired.owner_ne_of_bound hs)
  rw [h.summed.boundBalance]
  refine le_trans ?_ (le_total (fun _ x => x.boundOf (B.bill i).owner) B.bill h1 hn)
  simp [BillToken.boundOf, hs]

theorem Balanced.pool_le_pendingBatchAmount (hb : (B.binding b).Live) :
    B.pool (B.binding b) ≤ B.pendingBatchAmount (B.poolToken (B.binding b)) := by
  obtain ⟨h1, hm⟩ := (h.paired.binding_iff b).mp hb.1
  rw [h.summed.pendingBatchAmount]
  refine le_trans ?_
    (le_total (fun _ x => B.pendingOn (B.poolToken (B.binding b)) x) B.binding h1 hm)
  simp [pendingOn, hb]

end Covered

/-! ## The totals keep adding up -/

theorem pendingOn_congr {B' : Book} {x' : Binding} (hlive : x'.Live ↔ x.Live)
    (htoken : B'.poolToken x' = B.poolToken x) (hpool : B'.pool x' = B.pool x) :
    B'.pendingOn t x' = B.pendingOn t x :=
  if_congr (by rw [hlive, htoken]) hpool rfl

@[simp] theorem setBoth_poolToken (st : BillState) :
    (B.setBoth x st).poolToken y = B.poolToken y := by simp [poolToken]

@[simp] theorem setBoth_pool (st : BillState) :
    (B.setBoth x st).pool y = B.pool y := by simp [pool]

theorem total_setState {g : BillToken → ℕ} (h : B.Paired) (hi : (B.bill i).owner ≠ 0)
    (st : BillState) :
    total B.billCounter (fun _ => g) (B.setState i st).bill + g (B.bill i) =
      total B.billCounter (fun _ => g) B.bill + g ((B.bill i).withState st) := by
  obtain ⟨h1, hn⟩ := (h.bill_iff i).mp hi
  exact total_update (fun _ => g) B.bill h1 hn _

theorem total_setBoth {g : BillToken → ℕ} (h : B.Paired) (hm : B.Matched x) (st : BillState) :
    total B.billCounter (fun _ => g) (B.setBoth x st).bill + g (B.bill x.buyerBillId) +
        g (B.bill x.agentBillId) =
      total B.billCounter (fun _ => g) B.bill + g ((B.bill x.buyerBillId).withState st) +
        g ((B.bill x.agentBillId).withState st) := by
  obtain ⟨hj1, hjn⟩ := (h.bill_iff _).mp hm.agent
  have hfst := total_setState (g := g) h hm.buyer st
  have hsnd := total_update (fun _ => g) (B.setState x.buyerBillId st).bill hj1 hjn
    (((B.setState x.buyerBillId st).bill x.agentBillId).withState st)
  rw [setState_of_ne _ _ hm.ids_ne.symm] at hsnd
  -- the second update does not see the first, because the two bills differ
  have heq : (B.setBoth x st).bill = update (B.setState x.buyerBillId st).bill
      x.agentBillId ((B.bill x.agentBillId).withState st) := by
    rw [setBoth, Book.setState, setState_of_ne _ _ hm.ids_ne.symm]
  rw [heq]
  omega

theorem Summed.mint (h : B.Balanced) :
    (B.mint owner token amount).Summed := by
  obtain ⟨hp, hs⟩ := h
  refine ⟨fun t => ?_, fun t => ?_, fun a => ?_, fun a => ?_⟩
  · show credit B.totalLocked token amount t =
      total (B.billCounter + 1) _ (update B.bill (B.billCounter + 1) _)
    rw [credit_apply, total_push, hs.totalLocked t]
    simp [BillToken.lockedOn]
  · -- a binding that exists does not hold the new bill
    refine (hs.pendingBatchAmount t).trans (total_congr fun c h1 hc => ?_)
    have hm := hp.matched c ((hp.binding_iff c).mpr ⟨h1, hc⟩)
    have hold : ∀ k, (B.binding c).Holds k → (B.mint owner token amount).bill k = B.bill k := by
      intro k hk
      have hle := ((hp.bill_iff k).mp (hm.owner_ne hk)).2
      exact update_of_ne (by omega) _ _
    refine (pendingOn_congr Iff.rfl ?_ ?_).symm
    · rw [poolToken, poolToken, hold _ (Or.inl rfl)]
    · rw [pool, pool, hold _ (Or.inl rfl), hold _ (Or.inr rfl)]
  · show credit B.freeBalance owner amount a =
      total (B.billCounter + 1) _ (update B.bill (B.billCounter + 1) _)
    rw [credit_apply, total_push, hs.freeBalance a]
    simp [BillToken.freeOf]
  · show B.boundBalance a = total (B.billCounter + 1) _ (update B.bill (B.billCounter + 1) _)
    rw [total_push, hs.boundBalance a]
    simp [BillToken.boundOf]

theorem Summed.revise (h : B.Balanced) (hx : x.Revises (B.binding b))
    (hopen : x.state.Open ↔ (B.binding b).state.Open) : (B.revise b x).Summed := by
  obtain ⟨hp, hs⟩ := h
  refine ⟨hs.totalLocked, fun t => ?_, hs.freeBalance, hs.boundBalance⟩
  refine (hs.pendingBatchAmount t).trans (total_congr fun c _ _ => ?_)
  have hrev := revise_revises hx c
  refine (pendingOn_congr ?_ ?_ ?_).symm
  · rcases eq_or_ne c b with rfl | hne
    · simp [Book.revise, Binding.Live, hx.createdAt, hopen]
    · simp [Book.revise, hne]
  · show (B.bill _).token = (B.bill _).token
    rw [hrev.buyer]
  · show (B.bill _).amount + (B.bill _).amount = (B.bill _).amount + (B.bill _).amount
    rw [hrev.buyer, hrev.agent]

theorem Summed.pair (h : B.Balanced) (hm : B.Matched x) (hlive : x.Live)
    (hfree : ∀ k, x.Holds k → (B.bill k).state = .minted) : (B.pair x).Summed := by
  obtain ⟨hp, hs⟩ := h
  have hi : (B.bill x.buyerBillId).state = .minted := hfree _ (Or.inl rfl)
  have hj : (B.bill x.agentBillId).state = .minted := hfree _ (Or.inr rfl)
  have hci := Balanced.amount_le_freeBalance ⟨hp, hs⟩ hm.buyer hi
  have hcj := Balanced.amount_le_freeBalance ⟨hp, hs⟩ hm.agent hj
  refine ⟨fun t => ?_, fun t => ?_, fun a => ?_, fun a => ?_⟩
  · -- minted and bound bills count alike for the escrow
    show B.totalLocked t = total B.billCounter _ (B.setBoth x .bound).bill
    have := total_setBoth (g := fun y => y.lockedOn t) hp hm .bound
    rw [hs.totalLocked t]
    simp only [BillToken.lockedOn, BillToken.withState_token, BillToken.withState_state,
      BillToken.withState_amount, hi, hj, reduceCtorEq, not_false_eq_true, and_true,
      ne_eq] at this ⊢
    omega
  · -- the pending amount grows by the new binding alone
    show credit B.pendingBatchAmount _ _ t =
      total (B.bindingCounter + 1) (fun _ y => (B.setBoth x .bound).pendingOn t y)
        (update B.binding (B.bindingCounter + 1) x)
    have hsame : ∀ y, (B.setBoth x .bound).pendingOn t y = B.pendingOn t y := fun y =>
      pendingOn_congr Iff.rfl (setBoth_poolToken _) (setBoth_pool _)
    rw [credit_apply, total_push, hs.pendingBatchAmount t]
    simp only [hsame]
    simp [pendingOn, hlive]
  · -- two owners, so the two debits do not meet
    show debit (debit B.freeBalance _ _) _ _ a = total B.billCounter _ (B.setBoth x .bound).bill
    have hsum := total_setBoth (g := fun y => y.freeOf a) hp hm .bound
    have hbal := debit_debit_apply hm.owners_ne hci hcj a
    rw [hs.freeBalance a] at hbal
    simp only [BillToken.freeOf, BillToken.withState_owner, BillToken.withState_state, hi, hj,
      reduceCtorEq, and_true, and_false, if_false] at hsum hbal ⊢
    omega
  · show credit (credit B.boundBalance _ _) _ _ a = total B.billCounter _ (B.setBoth x .bound).bill
    have hsum := total_setBoth (g := fun y => y.boundOf a) hp hm .bound
    rw [credit_apply, credit_apply, hs.boundBalance a]
    simp only [BillToken.boundOf, BillToken.withState_owner, BillToken.withState_state,
      BillToken.withState_amount, hi, hj, reduceCtorEq, and_true, and_false, if_false] at hsum ⊢
    omega

theorem Summed.close (h : B.Balanced) (hx : x.Revises (B.binding b)) (hlive : (B.binding b).Live)
    (hclosed : ¬ x.state.Open) : (B.close b x).Summed := by
  have hm : B.Matched x := (h.paired.matched b hlive.1).revises hx
  have hstate : ∀ k, x.Holds k → (B.bill k).state = .bound := fun k hk =>
    h.paired.held b k hlive ((hx.holds k).mp hk)
  have hi := hstate _ (Or.inl rfl)
  have hj := hstate _ (Or.inr rfl)
  obtain ⟨hp, hs⟩ := h
  refine ⟨fun t => ?_, fun t => ?_, fun a => ?_, fun a => ?_⟩
  · -- one token, so the two debits add up to one debit of the pool
    show debit (debit B.totalLocked (B.bill x.buyerBillId).token (B.bill x.buyerBillId).amount)
        (B.bill x.agentBillId).token (B.bill x.agentBillId).amount t =
      total B.billCounter _ (B.setBoth x .burned).bill
    have hsum := total_setBoth (g := fun y => y.lockedOn t) hp hm .burned
    have hcov : B.pool x ≤ B.totalLocked (B.poolToken x) :=
      Balanced.pool_le_totalLocked ⟨hp, hs⟩ hm fun k hk => by simp [hstate k hk]
    have hbal := debit_apply hcov t
    rw [← hm.token_eq, debit_debit_self]
    show debit B.totalLocked (B.poolToken x) (B.pool x) t = _
    rw [hs.totalLocked t] at hbal
    simp only [BillToken.lockedOn, BillToken.withState_token, BillToken.withState_state, hi, hj,
      ← hm.token_eq, reduceCtorEq, not_false_eq_true, not_true_eq_false, and_true, and_false,
      if_false, ne_eq, pool, poolToken] at hsum hbal ⊢
    by_cases ht : (B.bill x.buyerBillId).token = t
    · simp only [ht, if_true] at hsum hbal ⊢
      omega
    · simp only [ht, if_false] at hsum hbal ⊢
      omega
  · -- the closed binding counts for nothing, the one it replaces counted for the pool
    show debit B.pendingBatchAmount (B.poolToken x) (B.pool x) t =
      total B.bindingCounter (fun _ y => (B.setBoth x .burned).pendingOn t y) (update B.binding b x)
    have hsame : ∀ y, (B.setBoth x .burned).pendingOn t y = B.pendingOn t y := fun y =>
      pendingOn_congr Iff.rfl (setBoth_poolToken _) (setBoth_pool _)
    obtain ⟨h1, hn⟩ := (hp.binding_iff b).mp hlive.1
    have hsum := total_update (fun _ y => B.pendingOn t y) B.binding h1 hn x
    have hbal := debit_apply (Balanced.pool_le_pendingBatchAmount ⟨hp, hs⟩ hlive) t
    have hgone : B.pendingOn t x = 0 := if_neg fun hh => hclosed hh.1.2
    rw [hs.pendingBatchAmount t] at hbal
    simp only [hsame, pool_of_revises hx, poolToken_of_revises hx]
    simp only [hgone] at hsum
    simp only [pendingOn, hlive, true_and] at hsum hbal ⊢
    omega
  · -- bound and burned bills are both not free
    show B.freeBalance a = total B.billCounter _ (B.setBoth x .burned).bill
    have hsum := total_setBoth (g := fun y => y.freeOf a) hp hm .burned
    rw [hs.freeBalance a]
    simp only [BillToken.freeOf, BillToken.withState_state, hi, hj, reduceCtorEq, and_false,
      if_false] at hsum ⊢
    omega
  · show debit (debit B.boundBalance (B.bill x.buyerBillId).owner (B.bill x.buyerBillId).amount)
        (B.bill x.agentBillId).owner (B.bill x.agentBillId).amount a =
      total B.billCounter _ (B.setBoth x .burned).bill
    have hsum := total_setBoth (g := fun y => y.boundOf a) hp hm .burned
    have hbal := debit_debit_apply hm.owners_ne (Balanced.amount_le_boundBalance ⟨hp, hs⟩ hi)
      (Balanced.amount_le_boundBalance ⟨hp, hs⟩ hj) a
    rw [hs.boundBalance a] at hbal
    simp only [BillToken.boundOf, BillToken.withState_state, hi, hj, reduceCtorEq, and_true,
      and_false, if_false] at hsum hbal ⊢
    omega

theorem Summed.release (h : B.Balanced) (howner : (B.bill i).owner ≠ 0)
    (hi : (B.bill i).state = .minted) : (B.release i).Summed := by
  obtain ⟨hp, hs⟩ := h
  refine ⟨fun t => ?_, fun t => ?_, fun a => ?_, fun a => ?_⟩
  · show debit B.totalLocked _ _ t = total B.billCounter _ (B.setState i .burned).bill
    have hsum := total_setState (g := fun y => y.lockedOn t) hp howner .burned
    have hbal := debit_apply (Balanced.amount_le_totalLocked ⟨hp, hs⟩ howner (by simp [hi])) t
    rw [hs.totalLocked t] at hbal
    simp only [BillToken.lockedOn, BillToken.withState_state, hi, reduceCtorEq, not_false_eq_true,
      not_true_eq_false, and_true, and_false, if_false, ne_eq] at hsum hbal ⊢
    omega
  · -- no token or amount changes, so every binding counts as before
    refine (hs.pendingBatchAmount t).trans (total_congr fun c _ _ => ?_)
    refine (pendingOn_congr Iff.rfl ?_ ?_).symm
    · exact setState_token _ _
    · exact congrArg₂ (· + ·) (setState_amount _ _) (setState_amount _ _)
  · show debit B.freeBalance _ _ a = total B.billCounter _ (B.setState i .burned).bill
    have hsum := total_setState (g := fun y => y.freeOf a) hp howner .burned
    have hbal := debit_apply (Balanced.amount_le_freeBalance ⟨hp, hs⟩ howner hi) a
    rw [hs.freeBalance a] at hbal
    simp only [BillToken.freeOf, BillToken.withState_state, hi, reduceCtorEq, and_true, and_false,
      if_false] at hsum hbal ⊢
    omega
  · show B.boundBalance a = total B.billCounter _ (B.setState i .burned).bill
    have hsum := total_setState (g := fun y => y.boundOf a) hp howner .burned
    rw [hs.boundBalance a]
    simp only [BillToken.boundOf, BillToken.withState_state, hi, reduceCtorEq, and_false,
      if_false] at hsum ⊢
    omega

/-! ## The five operations keep the balance -/

theorem Balanced.mint (h : B.Balanced) (howner : owner ≠ 0) :
    (B.mint owner token amount).Balanced :=
  ⟨h.paired.mint howner, Summed.mint h⟩

theorem Balanced.pair (h : B.Balanced) (hm : B.Matched x) (hlive : x.Live)
    (hfree : ∀ k, x.Holds k → (B.bill k).state = .minted) : (B.pair x).Balanced :=
  ⟨h.paired.pair hm hlive hfree, Summed.pair h hm hlive hfree⟩

theorem Balanced.revise (h : B.Balanced) (hx : x.Revises (B.binding b))
    (hopen : x.state.Open ↔ (B.binding b).state.Open) : (B.revise b x).Balanced :=
  ⟨h.paired.revise hx hopen, Summed.revise h hx hopen⟩

theorem Balanced.close (h : B.Balanced) (hx : x.Revises (B.binding b))
    (hlive : (B.binding b).Live) (hclosed : ¬ x.state.Open) : (B.close b x).Balanced :=
  ⟨h.paired.close hx hlive hclosed, Summed.close h hx hlive hclosed⟩

theorem Balanced.release (h : B.Balanced) (howner : (B.bill i).owner ≠ 0)
    (hi : (B.bill i).state = .minted) : (B.release i).Balanced :=
  ⟨h.paired.release howner hi, Summed.release h howner hi⟩

end Book

end Karma.Bilateral
