import Karma.AllowanceEscrow.Outsiders

/-! # Which bill an order is bound to, and what stands behind it

`_pick_bill` looks for an open bill of the wallet with enough room in the ledger, enough of the
wallet's ERC-20 allowance behind it and enough room on the chain. -/

namespace Karma.EscrowLedger

open Evm AllowanceEscrow Function

/-! ## Choosing a bill -/

structure CommitRow where
  billId : ℕ
  amount : ℕ
  spent : ℕ
  reserved : ℕ
  state : BillState
  /-- `bill_is_spendable`: the bill is on the current contract. -/
  current : Bool

inductive PickError where
  | noBill
  | staleContract
  | chainUnread
  /-- 409: no bill has the room; what is needed, and the most that a bill could give. -/
  | insufficient (need most : ℕ)
  deriving DecidableEq

def allocateAllowance : List (ℕ × ℕ) → ℕ → List (ℕ × ℕ)
  | [], _ => []
  | (billId, live) :: bills, remaining =>
    (billId, min live remaining) :: allocateAllowance bills (remaining - min live remaining)

def backingReport (rows : List CommitRow) (allowance : ℕ) : List (ℕ × ℕ) :=
  let live := rows.filter fun r => r.state ≠ .closed ∧ r.current ∧ 0 < r.amount - r.spent
  let oldestFirst := live.insertionSort fun r r' => r.billId ≤ r'.billId
  allocateAllowance (oldestFirst.map fun r => (r.billId, r.amount - r.spent)) allowance

def securedMinor (report : List (ℕ × ℕ)) (billId : ℕ) : ℤ :=
  ((report.find? fun entry => entry.1 = billId).map Prod.snd).getD 0

def CommitRow.freeMinor (r : CommitRow) : ℤ := r.amount - r.spent - r.reserved

/-- The loop of `_pick_bill` keeps the best bill so far and what each candidate could give. -/
structure Search where
  best : Option (ℤ × ℕ)
  candidates : List ℤ

def Search.look (need : ℕ) (report : List (ℕ × ℕ)) (onchain : ℕ → Option ℕ) (s : Search)
    (r : CommitRow) : Search :=
  let free := r.freeMinor
  let secured := securedMinor report r.billId
  if free < need ∨ secured < need then { s with candidates := min free secured :: s.candidates }
  else
    match onchain r.billId with
    | none => s
    | some available =>
      let s := { s with candidates := min free (min secured available) :: s.candidates }
      if available < need then s
      else
        match s.best with
        | none => { s with best := some (min free available, r.billId) }
        | some (most, _) =>
          if most < min free available then
            { s with best := some (min free available, r.billId) }
          else s

def pickBill (need : ℕ) (rows : List CommitRow) (report : Option (List (ℕ × ℕ)))
    (onchain : ℕ → Option ℕ) : Except PickError ℕ :=
  let live := rows.filter fun r => r.state = .opened
  let spendable := live.filter CommitRow.current
  if live.isEmpty then .error .noBill
  else if spendable.isEmpty then .error .staleContract
  else
    match report with
    | none => .error .chainUnread
    | some report =>
      let s := spendable.foldl (Search.look need report onchain) ⟨none, []⟩
      match s.best with
      | some (_, billId) => .ok billId
      | none => .error (.insufficient need (s.candidates.foldl max 0).toNat)

theorem Search.look_best (need : ℕ) (report : List (ℕ × ℕ)) (onchain : ℕ → Option ℕ) (s : Search)
    (r : CommitRow) :
    (s.look need report onchain r).best = s.best ∨
      ∃ most, (s.look need report onchain r).best = some (most, r.billId) := by
  unfold Search.look
  simp only
  split_ifs with hroom
  · exact .inl rfl
  cases onchain r.billId with
  | none => exact .inl rfl
  | some available =>
    simp only
    split_ifs with hshort
    · exact .inl rfl
    rcases hbest : s.best with _ | ⟨most, i⟩
    · exact .inr ⟨_, rfl⟩
    · simp only
      split_ifs
      · exact .inr ⟨_, rfl⟩
      · exact .inl rfl

theorem best_foldl_look (need : ℕ) (report : List (ℕ × ℕ)) (onchain : ℕ → Option ℕ)
    {rows : List CommitRow} {s : Search} {most : ℤ} {i : ℕ}
    (hbest : (rows.foldl (Search.look need report onchain) s).best = some (most, i)) :
    s.best = some (most, i) ∨ ∃ r ∈ rows, r.billId = i := by
  induction rows generalizing s with
  | nil => exact .inl hbest
  | cons r rows ih =>
    rcases ih hbest with hone | ⟨r', hr', hi⟩
    · rcases s.look_best need report onchain r with hsame | ⟨most', htaken⟩
      · exact .inl (hsame ▸ hone)
      · rw [htaken] at hone
        cases hone
        exact .inr ⟨r, List.mem_cons_self, rfl⟩
    · exact .inr ⟨r', List.mem_cons_of_mem _ hr', hi⟩

theorem exists_of_pickBill {need : ℕ} {rows : List CommitRow} {report : Option (List (ℕ × ℕ))}
    {onchain : ℕ → Option ℕ} {i : ℕ} (hpick : pickBill need rows report onchain = .ok i) :
    ∃ r ∈ rows, r.billId = i := by
  unfold pickBill at hpick
  simp only at hpick
  split_ifs at hpick
  cases report with
  | none => cases hpick
  | some report =>
    simp only at hpick
    split at hpick
    · next most billId hbest =>
        cases hpick
        rcases best_foldl_look need report onchain hbest with hnone | ⟨r, hr, hi⟩
        · cases hnone
        · exact ⟨r, (List.mem_filter.mp (List.mem_filter.mp hr).1).1, hi⟩
    · cases hpick

/-! ## A shop with one buyer's wallet -/

def approved (D : Deployment) (wallet token : Address) (w : World) : ℕ :=
  (w.tokens token).allowance wallet D.self

def charge (wallet token : Address) (p : Pull) : ℕ :=
  if p.source = wallet ∧ p.token = token then p.amount else 0

def debt (wallet token : Address) (w : World) (b : ℕ) : ℕ :=
  if (w.bindings b).state.Live then charge wallet token (w.payment b) else 0

/-- **What the wallet owes**: the sum of the amounts of its live orders. -/
def owed (wallet token : Address) (w : World) : ℕ :=
  ∑ b ∈ Finset.Icc 1 w.bindingCounter, debt wallet token w b

def commitRows (wallet token : Address) (booked : ℕ → ℕ × ℕ) (w : World) : List CommitRow :=
  let ids := ((List.range w.billCounter).map (· + 1)).reverse
  (ids.filter fun i => (w.bills i).owner = wallet ∧ (w.bills i).token = token).map fun i =>
    { billId := i, amount := (w.bills i).amount, spent := (booked i).1, reserved := (booked i).2,
      state := (w.bills i).state, current := true }

/-- What can happen in the shop: an order of the wallet, or any other transaction. -/
inductive Act where
  /-- The wallet orders for `amount` from the seller's bill `j`, with the ledger at `booked`. -/
  | order (sender : Address) (j : ℕ) (scopeHash : Bytes32) (amount stake : ℕ) (booked : ℕ → ℕ × ℕ)
  | chain (a : AllowanceEscrow.Act)

def BindsFor (wallet token : Address) (w : World) : AllowanceEscrow.Act → Prop
  | .call _ (.bind i _ _ _ _) => (w.bills i).owner = wallet ∧ (w.bills i).token = token
  | _ => False

instance (wallet token : Address) (w : World) (a : AllowanceEscrow.Act) :
    Decidable (BindsFor wallet token w a) := by
  unfold BindsFor
  split <;> infer_instance

/-- **The shop.** The wallet's orders go through `_pick_bill` and `open_order`, and only they bind
its bills as a buyer's. -/
def step (D : Deployment) (wallet token : Address) (w : World) : Act → Option World
  | .order sender j scopeHash amount stake booked =>
    let rows := commitRows wallet token booked w
    let report := backingReport rows (approved D wallet token w)
    let available := fun i => some ((w.bills i).amount - (w.bills i).reserved - (w.bills i).spent)
    match pickBill amount rows (some report) available with
    | .ok i => AllowanceEscrow.step D w (.call sender (.bind i j scopeHash amount stake))
    | .error _ => none
  | .chain a => if BindsFor wallet token w a then none else AllowanceEscrow.step D w a

abbrev Reach (D : Deployment) (wallet token : Address) : List (Entry World Act) → World → Prop :=
  Run (Init D) (step D wallet token)

section Orders

variable {D : Deployment} {wallet token : Address} {w w' : World} {a : AllowanceEscrow.Act} {b : ℕ}

theorem of_mem_commitRows {booked : ℕ → ℕ × ℕ} {r : CommitRow}
    (hr : r ∈ commitRows wallet token booked w) :
    (w.bills r.billId).owner = wallet ∧ (w.bills r.billId).token = token := by
  obtain ⟨i, hi, rfl⟩ := List.mem_map.mp hr
  simpa using (List.mem_filter.mp hi).2

theorem step_cases {act : Act} (hstep : step D wallet token w act = some w') :
    (∃ sender i j scopeHash amount stake booked,
      act = .order sender j scopeHash amount stake booked ∧
        (w.bills i).owner = wallet ∧ (w.bills i).token = token ∧
          Effect D w (.call sender (.bind i j scopeHash amount stake)) w') ∨
      ∃ a, act = .chain a ∧ ¬ BindsFor wallet token w a ∧ Effect D w a w' := by
  cases act with
  | order sender j scopeHash amount stake booked =>
    simp only [step] at hstep
    split at hstep
    · next i hpick =>
        obtain ⟨r, hr, rfl⟩ := exists_of_pickBill hpick
        obtain ⟨howner, htoken⟩ := of_mem_commitRows hr
        exact .inl ⟨sender, r.billId, j, scopeHash, amount, stake, booked, rfl, howner, htoken,
          effect_of_step hstep⟩
    · cases hstep
  | chain a =>
    simp only [step] at hstep
    split_ifs at hstep with hbinds
    exact .inr ⟨a, rfl, hbinds, effect_of_step hstep⟩

/-! ## How the debts change -/

theorem charge_payment_eq (hs : w.Sound) (he : Effect D w a w') (hb : b ≤ w.bindingCounter) :
    charge wallet token (w'.payment b) = charge wallet token (w.payment b) := by
  rw [(he.extends.payment hs hb).1]

theorem debt_eq (hs : w.Sound) (he : Effect D w a w') (hb : b ≤ w.bindingCounter)
    (hsame : w'.bindings b = w.bindings b) : debt wallet token w' b = debt wallet token w b := by
  rw [debt, debt, hsame, charge_payment_eq hs he hb]

theorem live_before (he : Effect D w a w') (hb : b ≤ w.bindingCounter)
    (hlive : (w'.bindings b).state.Live) : (w.bindings b).state.Live := by
  cases he.life b with
  | untouched _ hsame => exact hsame ▸ hlive
  | bound hnew => omega
  | cancelled hst =>
    rcases hst with hst | ⟨hst, -⟩ <;> rw [hst] <;> trivial
  | disputed hst | confirmed hst | settled hst | slashed hst => rw [hst]; trivial
  | ruledSettlement hst | ruledBreach hst => exact hst

theorem debt_le (hs : w.Sound) (he : Effect D w a w') (hb : b ≤ w.bindingCounter) :
    debt wallet token w' b ≤ debt wallet token w b := by
  rw [debt, debt, charge_payment_eq hs he hb]
  split_ifs with hafter hbefore
  · exact le_rfl
  · exact absurd (live_before he hb hafter) hbefore
  · exact Nat.zero_le _
  · exact le_rfl

theorem owed_add_debt (hs : w.Sound) (he : Effect D w a w') (hname : a.binding = some b)
    (hlive : (w.bindings b).state.Live) :
    owed wallet token w' + debt wallet token w b =
      owed wallet token w + debt wallet token w' b := by
  have hrange := hs.live_range hlive
  have hcounter := he.bindingCounter_eq fun _ _ _ _ _ _ hbind => by
    rw [hbind] at hname
    cases hname
  have hmem : b ∈ Finset.Icc 1 w.bindingCounter := Finset.mem_Icc.mpr hrange
  have hrest : ∑ c ∈ (Finset.Icc 1 w.bindingCounter).erase b, debt wallet token w' c =
      ∑ c ∈ (Finset.Icc 1 w.bindingCounter).erase b, debt wallet token w c := by
    refine Finset.sum_congr rfl fun c hc => ?_
    obtain ⟨hne, hc⟩ := Finset.mem_erase.mp hc
    have hc := (Finset.mem_Icc.mp hc).2
    refine debt_eq hs he hc (he.bindings_eq hc ?_)
    rw [hname]
    exact fun hsame => hne (Option.some.inj hsame).symm
  rw [owed, owed, hcounter, ← Finset.add_sum_erase _ _ hmem,
    ← Finset.add_sum_erase _ (debt wallet token w) hmem, hrest]
  omega

theorem owed_bind {sender : Address} {i j n m : ℕ} {scopeHash : Bytes32} (hs : w.Sound)
    (he : Effect D w (.call sender (.bind i j scopeHash n m)) w') :
    owed wallet token w' = owed wallet token w +
      if (w.bills i).owner = wallet ∧ (w.bills i).token = token then n else 0 := by
  have hold : ∑ c ∈ Finset.Icc 1 w.bindingCounter, debt wallet token w' c =
      owed wallet token w := by
    refine Finset.sum_congr rfl fun c hc => ?_
    have hc := (Finset.mem_Icc.mp hc).2
    exact debt_eq hs he hc (he.bindings_eq hc (Option.some_ne_none _).symm)
  have hbill : i ≤ w.billCounter := by
    cases he with
    | bind hi => exact (hs.bill_range (by rw [hi]; simp)).2
  have hterms := he.extends.bill i hbill
  simp only [Bill.terms, Prod.mk.injEq] at hterms
  cases he with
  | bind =>
    rw [owed, Finset.sum_Icc_succ_top (by omega), hold, debt]
    simp only [World.payment, charge, update_self] at hterms ⊢
    rw [hterms.1, hterms.2.1, if_pos (show BindingState.active.Live from trivial)]

theorem owed_le (hs : w.Sound) (he : Effect D w a w') (hbind : ¬ BindsFor wallet token w a) :
    owed wallet token w' ≤ owed wallet token w := by
  by_cases hnew : ∃ sender i j scopeHash n m, a = .call sender (.bind i j scopeHash n m)
  · obtain ⟨sender, i, j, scopeHash, n, m, rfl⟩ := hnew
    have hother : ¬ ((w.bills i).owner = wallet ∧ (w.bills i).token = token) := hbind
    rw [owed_bind hs he, if_neg hother, Nat.add_zero]
  · have hcounter := he.bindingCounter_eq fun _ _ _ _ _ _ heq => hnew ⟨_, _, _, _, _, _, heq⟩
    rw [owed, owed, hcounter]
    exact Finset.sum_le_sum fun c hc => debt_le hs he (Finset.mem_Icc.mp hc).2

theorem owed_add_debt_of_done (hs : w.Sound) (he : Effect D w a w') (hname : a.binding = some b)
    (hlive : (w.bindings b).state.Live) (hdone : ¬ (w'.bindings b).state.Live) :
    owed wallet token w' + debt wallet token w b = owed wallet token w := by
  have hnone : debt wallet token w' b = 0 := by rw [debt, if_neg hdone]
  rw [owed_add_debt hs he hname hlive, hnone, Nat.add_zero]

theorem owed_finalizeSettlement {sender : Address} (hs : w.Sound)
    (he : Effect D w (.call sender (.finalizeSettlement b)) w') :
    owed wallet token w' + charge wallet token (w.payment b) = owed wallet token w := by
  have hlive : (w.bindings b).state.Live := by
    cases he with
    | finalizeSettlement _ hst => rw [hst]; trivial
  have hdone : ¬ (w'.bindings b).state.Live := by
    cases he with
    | finalizeSettlement => simp [World.setBinding, BindingState.Live]
  have howed : owed wallet token w' + debt wallet token w b = _ :=
    owed_add_debt_of_done hs he rfl hlive hdone
  rwa [debt, if_pos hlive] at howed

theorem owed_finalizeBreach {sender : Address} (hs : w.Sound)
    (he : Effect D w (.call sender (.finalizeBreach b)) w') :
    owed wallet token w' + debt wallet token w b = owed wallet token w := by
  refine owed_add_debt_of_done hs he rfl ?_ ?_
  · cases he with
    | finalizeBreach _ hst => rw [hst]; trivial
  · cases he with
    | finalizeBreach => simp [World.setBinding, BindingState.Live]

/-! ## Which orders can be paid -/

theorem allowance_pull {p : Pull} {T : Erc20 Address}
    (hpull : (w.tokens p.token).transferFrom D.self p.source p.target p.amount = some T) :
    (update w.tokens p.token T token).allowance wallet D.self + charge wallet token p =
      approved D wallet token w := by
  obtain ⟨-, -, hle, -, rfl⟩ := Erc20.transferFrom_eq_some.mp hpull
  rw [charge, approved]
  by_cases htoken : p.token = token
  · subst htoken
    simp only [update_self, Erc20.move_allowance, Erc20.spend, Erc20.allow]
    by_cases hsource : p.source = wallet
    · subst hsource
      simp only [update_self, and_self, if_true]
      omega
    · rw [if_neg fun h => hsource h.1, update_of_ne (Ne.symm hsource), Nat.add_zero]
  · rw [if_neg fun h => htoken h.2, update_of_ne (Ne.symm htoken), Nat.add_zero]

theorem pulls_cases (wallet token : Address) (he : Effect D w a w') :
    (∃ sender b, a = .call sender (.finalizeSettlement b) ∧ w'.pulls = [w.payment b]) ∨
      (∃ sender b, a = .call sender (.finalizeBreach b) ∧ w'.pulls = [w.slashing b] ∧
        approved D wallet token w' + charge wallet token (w.slashing b) =
          approved D wallet token w) ∨
      (∀ sender b, a ≠ .call sender (.finalizeBreach b)) ∧ w'.pulls = [] := by
  cases he with
  | finalizeSettlement => exact .inl ⟨_, _, rfl, rfl⟩
  | finalizeBreach _ _ _ _ _ hpull => exact .inr (.inl ⟨_, _, rfl, rfl, allowance_pull hpull⟩)
  | _ => exact .inr (.inr ⟨fun _ _ h => (by cases h), rfl⟩)

/-- The allowance is never lowered except by the escrow's own pulls. -/
def Steady (D : Deployment) (wallet token : Address) (e : Entry World Act) : Prop :=
  approved D wallet token e.pre ≤
    approved D wallet token e.post + (e.post.pulls.map (charge wallet token)).sum

instance (D : Deployment) (wallet token : Address) (e : Entry World Act) :
    Decidable (Steady D wallet token e) :=
  inferInstanceAs (Decidable (_ ≤ _))

/-- **The condition that is missing.** -/
def Covered (D : Deployment) (wallet token : Address) (e : Entry World Act) : Prop :=
  match e.act with
  | .order _ _ _ amount _ _ => owed wallet token e.pre + amount ≤ approved D wallet token e.pre
  | .chain (.call _ (.finalizeBreach b)) =>
    owed wallet token e.pre + charge wallet token (e.pre.slashing b) ≤
      approved D wallet token e.pre + debt wallet token e.pre b
  | _ => True

instance (D : Deployment) (wallet token : Address) (e : Entry World Act) :
    Decidable (Covered D wallet token e) := by
  unfold Covered
  split <;> infer_instance

def Backed (D : Deployment) (wallet token : Address) (w : World) : Prop :=
  owed wallet token w ≤ approved D wallet token w

variable {h : List (Entry World Act)}

theorem exists_of_step {act : Act} (hstep : step D wallet token w act = some w') :
    ∃ a, AllowanceEscrow.step D w a = some w' := by
  cases act with
  | order =>
    simp only [step] at hstep
    split at hstep
    · exact ⟨_, hstep⟩
    · cases hstep
  | chain a =>
    simp only [step] at hstep
    split_ifs at hstep
    exact ⟨a, hstep⟩

theorem Reach.contract (hr : Reach D wallet token h w) : ∃ h', AllowanceEscrow.Reach D h' w := by
  induction hr with
  | start h0 => exact ⟨[], .start h0⟩
  | next _ hstep ih =>
    obtain ⟨h', hr'⟩ := ih
    obtain ⟨a, ha⟩ := exists_of_step hstep
    exact ⟨_, hr'.next ha⟩

theorem Backed.step {act : Act} (hs : w.Sound) (hback : Backed D wallet token w)
    (hsteady : Steady D wallet token ⟨w, act, w'⟩) (hcovered : Covered D wallet token ⟨w, act, w'⟩)
    (hstep : step D wallet token w act = some w') : Backed D wallet token w' := by
  rw [Backed] at hback ⊢
  simp only [Steady] at hsteady
  rcases step_cases hstep with
    ⟨sender, i, j, scopeHash, n, m, booked, rfl, howner, htoken, he⟩ | ⟨a, rfl, hbind, he⟩
  · have howed : owed wallet token w' = _ := owed_bind hs he
    have hpulls : w'.pulls = [] := by cases he; rfl
    rw [if_pos ⟨howner, htoken⟩] at howed
    rw [hpulls] at hsteady
    simp only [Covered] at hcovered
    simp only [List.map_nil, List.sum_nil] at hsteady
    omega
  · have hle := owed_le hs he hbind
    -- a payment lowers both sides by its amount, a slash only the allowance
    rcases pulls_cases wallet token he with ⟨sender, b, rfl, hpulls⟩ | ⟨sender, b, rfl, hpulls, -⟩ |
      ⟨-, hpulls⟩
    · have howed : owed wallet token w' + charge wallet token (w.payment b) = _ :=
        owed_finalizeSettlement hs he
      simp only [hpulls, List.map_cons, List.map_nil, List.sum_cons, List.sum_nil] at hsteady
      omega
    · have howed : owed wallet token w' + debt wallet token w b = _ := owed_finalizeBreach hs he
      simp only [Covered] at hcovered
      simp only [hpulls, List.map_cons, List.map_nil, List.sum_cons, List.sum_nil] at hsteady
      omega
    · simp only [hpulls, List.map_nil, List.sum_nil] at hsteady
      omega

theorem Covered.of_backed {act : Act} (hs : w.Sound) (hstep : step D wallet token w act = some w')
    (hback : Backed D wallet token w') : Covered D wallet token ⟨w, act, w'⟩ := by
  rw [Backed] at hback
  rcases step_cases hstep with
    ⟨sender, i, j, scopeHash, n, m, booked, rfl, howner, htoken, he⟩ | ⟨a, rfl, hbind, he⟩
  · have howed : owed wallet token w' = _ := owed_bind hs he
    have hsame : approved D wallet token w' = approved D wallet token w := by cases he; rfl
    rw [if_pos ⟨howner, htoken⟩] at howed
    simp only [Covered]
    omega
  · rcases pulls_cases wallet token he with ⟨sender, b, rfl, -⟩ | ⟨sender, b, rfl, -, hpulled⟩ |
      ⟨hother, -⟩
    · trivial
    · have howed : owed wallet token w' + debt wallet token w b = _ := owed_finalizeBreach hs he
      simp only [Covered]
      omega
    · unfold Covered
      split
      · next heq => cases heq
      · next sender b heq => exact absurd (Act.chain.inj heq) (hother sender b)
      · trivial

/-- **When every admitted order can be paid.** -/
theorem admitted_orders_payable_iff (hr : Reach D wallet token h w)
    (hsteady : ∀ e ∈ h, Steady D wallet token e) :
    (Throughout (fun _ w => Backed D wallet token w) h w ↔ ∀ e ∈ h, Covered D wallet token e) ∧
      ((∀ e ∈ h, Covered D wallet token e) → ∀ (sender : Address) (b : ℕ),
        (w.payment b).source = wallet → (w.payment b).token = token →
          ((AllowanceEscrow.step D w (.call sender (.finalizeSettlement b))).isSome ↔
            sender ≠ D.self ∧ b < 2 ^ 256 ∧ (w.bindings b).state = .finalizing ∧
              (w.bindings b).slashArmed = false ∧
              ((w.bindings b).settleAfter ≤ w.now ∨ (w.bindings b).buyerConfirmed = true) ∧
              wallet ≠ 0 ∧ (w.payment b).target ≠ 0 ∧
              (w.payment b).amount ≤ (w.tokens token).balanceOf wallet ∧
              (w.tokens token).balanceOf D.self = 0)) := by
  have hiff : Throughout (fun _ w => Backed D wallet token w) h w ↔
      ∀ e ∈ h, Covered D wallet token e := by
    refine (hr.throughout_iff (J := fun _ w => Backed D wallet token w)
      (C := fun _ e => Covered D wallet token e) (H := fun h => ∀ e ∈ h, Steady D wallet token e)
      (fun e h hall e' he' => hall e' (List.mem_cons_of_mem _ he')) (fun w h0 => ?_)
      (fun h w act w' hr hH hback hstep hcovered => ?_) (fun _ _ hback => hback)
      (fun h w act w' hr _ hstep hback => ?_) hsteady).trans each_iff
    · rw [Backed, owed, h0.bindingCounter]
      exact Nat.zero_le _
    · obtain ⟨h', hr'⟩ := Reach.contract hr
      exact hback.step hr'.sound (hH _ List.mem_cons_self) hcovered hstep
    · obtain ⟨h', hr'⟩ := Reach.contract hr
      exact Covered.of_backed hr'.sound hstep hback
  refine ⟨hiff, fun hcovered sender b hsource htoken => ?_⟩
  obtain ⟨h', hr'⟩ := Reach.contract hr
  have hback : Backed D wallet token w := (hiff.mpr hcovered).last
  rw [finalizeSettlement_isSome_iff hr'.sound hr'.committed, Payable, hsource, htoken]
  constructor
  · rintro ⟨hself, hword, hst, hslash, htime, h1, h2, -, h4, h5⟩
    exact ⟨hself, hword, hst, hslash, htime, h1, h2, h4, h5⟩
  · rintro ⟨hself, hword, hst, hslash, htime, h1, h2, h4, h5⟩
    -- the payment is one of the debts that the allowance covers
    have hlive : (w.bindings b).state.Live := by rw [hst]; trivial
    have hdebt : debt wallet token w b = (w.payment b).amount := by
      rw [debt, if_pos hlive, charge, if_pos ⟨hsource, htoken⟩]
    have hpart : debt wallet token w b ≤ owed wallet token w :=
      Finset.single_le_sum (f := debt wallet token w) (fun _ _ => Nat.zero_le _)
        (Finset.mem_Icc.mpr (hr'.sound.live_range hlive))
    have hcover : (w.payment b).amount ≤ (w.tokens token).allowance wallet D.self :=
      hdebt ▸ Nat.le_trans hpart hback
    exact ⟨hself, hword, hst, hslash, htime, h1, h2, hcover, h4, h5⟩

end Orders

namespace Sample

open AllowanceEscrow.Sample (deployment token buyer seller start init_start)

def reservedOn (first second : ℕ) : ℕ → ℕ × ℕ := fun i =>
  (0, if i = 1 then first else if i = 2 then second else 0)

def opening : List Act :=
  [.chain (.call deployment.admin (.setTokenAllowed token true)),
    .chain (.token buyer token (.approve deployment.self 150)),
    .chain (.token seller token (.approve deployment.self 100)),
    .chain (.call buyer (.commit token 100 0)),
    .chain (.call buyer (.commit token 100 0)),
    .chain (.call seller (.commit token 100 0))]

def ordering (first second : ℕ) : Act := .order buyer 3 0#256 50 10 (reservedOn first second)

def threeOrders : List Act := opening ++ [ordering 0 0, ordering 0 50, ordering 50 50]

def fourOrders : List Act := threeOrders ++ [ordering 50 100]

def paying : List Act :=
  fourOrders ++ .chain (.tick 105) ::
    ([1, 2, 3, 4].map fun b => .chain (.call deployment.admin (.submitSettlement b 0#256))) ++
    .chain (.tick 115) :: [1, 2, 3].map fun b => .chain (.call seller (.finalizeSettlement b))

def history (as : List Act) : List (Entry World Act) :=
  record (step deployment buyer token) as start []

def world (as : List Act) : World := stateAfter (step deployment buyer token) as start

theorem reach (as : List Act) (has : (steps (step deployment buyer token) as start).isSome = true) :
    Reach deployment buyer token (history as) (world as) :=
  Run.stateAfter (.start init_start) has

end Sample

open AllowanceEscrow.Sample (deployment token buyer seller start)

open Sample in
theorem admitted_orders_payable_sample : owed buyer token (world threeOrders) = 150 ∧
      Throughout (fun _ w => Backed deployment buyer token w) (history threeOrders)
        (world threeOrders) := by
  refine ⟨by decide +kernel, ?_⟩
  exact (admitted_orders_payable_iff (reach threeOrders (by decide +kernel))
    (by decide +kernel)).1.mpr (by decide +kernel)

open Sample in
/-- **One allowance behind too many orders.** -/
theorem shared_allowance_overdrawn : Reach deployment buyer token (history paying) (world paying) ∧
      (∀ e ∈ history paying, Steady deployment buyer token e) ∧
      owed buyer token (world fourOrders) = 200 ∧
      approved deployment buyer token (world fourOrders) = 150 ∧
      ((world paying).bindings 4).state = .finalizing ∧
      ((world paying).bindings 4).settleAfter ≤ (world paying).now ∧
      ((world paying).tokens token).balanceOf buyer = 850 ∧
      AllowanceEscrow.step deployment (world paying)
        (.call seller (.finalizeSettlement 4)) = none := by
  have hsome : (steps (step deployment buyer token) paying start).isSome = true := by
    decide +kernel
  refine ⟨reach paying hsome, by decide +kernel, by decide +kernel, by decide +kernel,
    by decide +kernel, by decide +kernel, by decide +kernel, ?_⟩
  rw [← Option.isNone_iff_eq_none]
  decide +kernel

end Karma.EscrowLedger
