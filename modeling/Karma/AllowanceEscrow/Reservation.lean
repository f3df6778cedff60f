import Karma.AllowanceEscrow.Effect

/-! # `KarmaAllowanceEscrow` — the reservation book

A bill may back many bindings at once, on either side. -/

namespace Karma.AllowanceEscrow

open Evm Function

/-! ## What bindings hold on a bill -/

def Binding.reserves (b : Binding) (i : ℕ) : ℕ :=
  if b.state.Live then
    (if b.buyerBillId = i then b.amount else 0) + if b.sellerBillId = i then b.stakeAmount else 0
  else 0

def reservedBy (bindings : ℕ → Binding) (n i : ℕ) : ℕ := total n (fun _ b => b.reserves i) bindings

theorem Binding.reserves_of_live {b : Binding} (h : b.state.Live) (i : ℕ) : b.reserves i =
      (if b.buyerBillId = i then b.amount else 0) +
        if b.sellerBillId = i then b.stakeAmount else 0 :=
  if_pos h

theorem Binding.reserves_of_not_live {b : Binding} (h : ¬ b.state.Live) (i : ℕ) :
    b.reserves i = 0 :=
  if_neg h

theorem BindingState.ne_none_of_live {st : BindingState} (h : st.Live) : st ≠ .none := by
  rintro rfl
  exact h

theorem reserves_le_reservedBy (bindings : ℕ → Binding) {m b : ℕ} (hb : 1 ≤ b ∧ b ≤ m) (i : ℕ) :
    (bindings b).reserves i ≤ reservedBy bindings m i :=
  le_total (fun _ b => Binding.reserves b i) bindings hb.1 hb.2

theorem unused_of_reservedBy_eq_zero {bindings : ℕ → Binding} {m b i : ℕ}
    (hzero : reservedBy bindings m i = 0) (hb : 1 ≤ b ∧ b ≤ m) (hlive : (bindings b).state.Live)
    (hpos : 0 < (bindings b).amount ∧ 0 < (bindings b).stakeAmount) :
    (bindings b).buyerBillId ≠ i ∧ (bindings b).sellerBillId ≠ i := by
  have hle := reserves_le_reservedBy bindings hb i
  rw [hzero, Binding.reserves_of_live hlive] at hle
  refine ⟨fun h => ?_, fun h => ?_⟩
  · rw [if_pos h] at hle
    omega
  · rw [if_pos h] at hle
    omega

theorem backed_of_open {bills bills' : ℕ → Bill} {bindings : ℕ → Binding} {m : ℕ}
    (hreserved : ∀ i, (bills' i).reserved = reservedBy bindings m i)
    (hstate : ∀ i, (bills i).state = .opened → (bills' i).state = .opened ∨ (bills' i).reserved = 0)
    {b : ℕ} (hb : 1 ≤ b ∧ b ≤ m) (hlive : (bindings b).state.Live)
    (hpos : 0 < (bindings b).amount ∧ 0 < (bindings b).stakeAmount)
    (hopen : (bills (bindings b).buyerBillId).state = .opened ∧
      (bills (bindings b).sellerBillId).state = .opened) :
    (bills' (bindings b).buyerBillId).state = .opened ∧
      (bills' (bindings b).sellerBillId).state = .opened := by
  -- a bill that closed has nothing reserved, but each side of a live binding reserves something
  constructor
  · refine (hstate _ hopen.1).resolve_right fun h0 => ?_
    exact (unused_of_reservedBy_eq_zero (hreserved _ ▸ h0) hb hlive hpos).1 rfl
  · refine (hstate _ hopen.2).resolve_right fun h0 => ?_
    exact (unused_of_reservedBy_eq_zero (hreserved _ ▸ h0) hb hlive hpos).2 rfl

structure Sound (bills : ℕ → Bill) (bindings : ℕ → Binding) (n m : ℕ) : Prop where
  blank_bill : ∀ i, ¬ (1 ≤ i ∧ i ≤ n) → bills i = {}
  blank_binding : ∀ b, ¬ (1 ≤ b ∧ b ≤ m) → bindings b = {}
  numbered : ∀ b, (bindings b).state ≠ .none → (bindings b).bindingId = b
  reserved : ∀ i, (bills i).reserved = reservedBy bindings m i
  room : ∀ i, (bills i).reserved + (bills i).spent ≤ (bills i).amount
  closed : ∀ i, (bills i).state = .closed → (bills i).reserved = 0
  backed : ∀ b, (bindings b).state.Live → (bills (bindings b).buyerBillId).state = .opened ∧
      (bills (bindings b).sellerBillId).state = .opened
  bounded : ∀ b, (bindings b).buyerBillId ≤ n ∧ (bindings b).sellerBillId ≤ n
  sides : ∀ b, (bindings b).state.Live → (bindings b).buyerBillId ≠ (bindings b).sellerBillId
  positive : ∀ b, (bindings b).state.Live → 0 < (bindings b).amount ∧ 0 < (bindings b).stakeAmount

abbrev World.Sound (w : World) : Prop :=
  AllowanceEscrow.Sound w.bills w.bindings w.billCounter w.bindingCounter

namespace Sound

variable {bills : ℕ → Bill} {bindings : ℕ → Binding} {n m : ℕ}

variable {b : ℕ}

theorem binding_range (hs : Sound bills bindings n m) (hb : (bindings b).state ≠ .none) :
    1 ≤ b ∧ b ≤ m := by
  by_contra hout
  exact hb (by rw [hs.blank_binding b hout])

theorem bill_range (hs : Sound bills bindings n m) {i : ℕ} (hi : (bills i).state ≠ .none) :
    1 ≤ i ∧ i ≤ n := by
  by_contra hout
  exact hi (by rw [hs.blank_bill i hout])

theorem live_range (hs : Sound bills bindings n m) (hb : (bindings b).state.Live) :
    1 ≤ b ∧ b ≤ m :=
  hs.binding_range (BindingState.ne_none_of_live hb)

theorem live_numbered (hs : Sound bills bindings n m) (hb : (bindings b).state.Live) :
    (bindings b).bindingId = b :=
  hs.numbered b (BindingState.ne_none_of_live hb)

theorem bindingId_ne_zero (hs : Sound bills bindings n m) (hb : (bindings b).state.Live) :
    (bindings b).bindingId ≠ 0 := by
  rw [hs.live_numbered hb]
  exact Nat.ne_of_gt (hs.live_range hb).1

theorem amount_le (hs : Sound bills bindings n m) (hb : (bindings b).state.Live) :
    (bindings b).amount ≤ (bills (bindings b).buyerBillId).reserved := by
  have h := reserves_le_reservedBy bindings (hs.live_range hb) (bindings b).buyerBillId
  rw [← hs.reserved, Binding.reserves_of_live hb, if_pos rfl] at h
  omega

theorem stakeAmount_le (hs : Sound bills bindings n m) (hb : (bindings b).state.Live) :
    (bindings b).stakeAmount ≤ (bills (bindings b).sellerBillId).reserved := by
  have h := reserves_le_reservedBy bindings (hs.live_range hb) (bindings b).sellerBillId
  rw [← hs.reserved, Binding.reserves_of_live hb, if_pos rfl] at h
  omega

/-! ## One lemma for each kind of change -/

theorem empty : Sound (fun _ => {}) (fun _ => {}) 0 0 where
  blank_bill _ _ := rfl
  blank_binding _ _ := rfl
  numbered _ h := absurd rfl h
  reserved _ := by simp [reservedBy]
  room _ := le_rfl
  closed _ h := nomatch h
  backed _ h := h.elim
  bounded _ := ⟨le_rfl, le_rfl⟩
  sides _ h := h.elim
  positive _ h := h.elim

theorem setBill (hs : Sound bills bindings n m) {i n' : ℕ} {bill : Bill} (hn : n ≤ n')
    (hi : 1 ≤ i ∧ i ≤ n') (hreserved : bill.reserved = (bills i).reserved)
    (hroom : bill.reserved + bill.spent ≤ bill.amount)
    (hstate : bill.state = .opened ∨ bill.reserved = 0) :
    Sound (update bills i bill) bindings n' m := by
  have hreserved' : ∀ k, (update bills i bill k).reserved = reservedBy bindings m k :=
    (forall_update_iff bills fun k bill => bill.reserved = reservedBy bindings m k).mpr
      ⟨hreserved.trans (hs.reserved i), fun k _ => hs.reserved k⟩
  refine ⟨fun k hk => ?_, hs.blank_binding, hs.numbered, hreserved', ?_, ?_, fun b hb => ?_,
    fun b => ?_, hs.sides, hs.positive⟩
  · have hki : k ≠ i := fun h => hk (h ▸ hi)
    rw [update_of_ne hki]
    exact hs.blank_bill k (by omega)
  · exact (forall_update_iff bills fun _ bill =>
      bill.reserved + bill.spent ≤ bill.amount).mpr ⟨hroom, fun k _ => hs.room k⟩
  · refine (forall_update_iff bills fun _ bill =>
      bill.state = .closed → bill.reserved = 0).mpr ⟨fun hclosed => ?_, fun k _ => hs.closed k⟩
    exact hstate.resolve_left (by rw [hclosed]; simp)
  · refine backed_of_open hreserved' (fun k hopen => ?_) (hs.live_range hb) hb (hs.positive b hb)
      (hs.backed b hb)
    rcases eq_or_ne k i with rfl | hk
    · rwa [update_self]
    · rw [update_of_ne hk]
      exact .inl hopen
  · exact ⟨(hs.bounded b).1.trans hn, (hs.bounded b).2.trans hn⟩

theorem reservedBy_update (hs : Sound bills bindings n m) {b m' : ℕ} (hm : m ≤ m')
    (hb : 1 ≤ b ∧ b ≤ m') (binding : Binding) (k : ℕ) :
    reservedBy (update bindings b binding) m' k + (bindings b).reserves k
      = (bills k).reserved + binding.reserves k := by
  have hold : reservedBy bindings m' k = (bills k).reserved := by
    rw [hs.reserved k]
    refine total_of_le hm fun c hc => ?_
    rw [hs.blank_binding c (by omega)]
    exact Binding.reserves_of_not_live (b := {}) (fun h => h) k
  rw [← hold]
  exact total_update (fun _ c => Binding.reserves c k) bindings hb.1 hb.2 binding

theorem rebook (hs : Sound bills bindings n m) {b m' : ℕ} (binding : Binding) (buyer seller : Bill)
    (hm : m ≤ m') (hb : 1 ≤ b ∧ b ≤ m') (hid : binding.bindingId = b)
    (hsides : binding.buyerBillId ≠ binding.sellerBillId)
    (hopen : (bills binding.buyerBillId).state = .opened ∧
      (bills binding.sellerBillId).state = .opened)
    (hterms : (bindings b).state.Live → (bindings b).buyerBillId = binding.buyerBillId ∧
      (bindings b).sellerBillId = binding.sellerBillId)
    (hpos : binding.state.Live → 0 < binding.amount ∧ 0 < binding.stakeAmount)
    (hbuyer : buyer.reserved + (bindings b).reserves binding.buyerBillId
      = (bills binding.buyerBillId).reserved + binding.reserves binding.buyerBillId)
    (hseller : seller.reserved + (bindings b).reserves binding.sellerBillId
      = (bills binding.sellerBillId).reserved + binding.reserves binding.sellerBillId)
    (hroom : buyer.reserved + buyer.spent ≤ buyer.amount ∧
      seller.reserved + seller.spent ≤ seller.amount)
    (hstate : (buyer.state = .opened ∨ buyer.reserved = 0) ∧
      (seller.state = .opened ∨ seller.reserved = 0)) :
    Sound (update (update bills binding.buyerBillId buyer)
      binding.sellerBillId seller) (update bindings b binding) n m' := by
  set bills' := update (update bills binding.buyerBillId buyer)
    binding.sellerBillId seller with hbills'
  have hbuyerRange := hs.bill_range (i := binding.buyerBillId) (by rw [hopen.1]; simp)
  have hsellerRange := hs.bill_range (i := binding.sellerBillId) (by rw [hopen.2]; simp)
  have hatSeller : bills' binding.sellerBillId = seller := update_self ..
  have hatBuyer : bills' binding.buyerBillId = buyer := by
    rw [hbills', update_of_ne hsides, update_self]
  have hat : ∀ k, k ≠ binding.buyerBillId → k ≠ binding.sellerBillId → bills' k = bills k := by
    intro k h1 h2
    rw [hbills', update_of_ne h2, update_of_ne h1]
  have hreserved : ∀ k, (bills' k).reserved = reservedBy (update bindings b binding) m' k := by
    intro k
    have hk := hs.reservedBy_update hm hb binding k
    rcases eq_or_ne k binding.sellerBillId with rfl | h2
    · rw [hatSeller]
      omega
    rcases eq_or_ne k binding.buyerBillId with rfl | h1
    · rw [hatBuyer]
      omega
    · -- neither the old nor the new binding reserves anything here
      have hnew : binding.reserves k = 0 := by
        simp [Binding.reserves, h1.symm, h2.symm]
      have hold : (bindings b).reserves k = 0 := by
        by_cases hlive : (bindings b).state.Live
        · obtain ⟨e1, e2⟩ := hterms hlive
          simp [Binding.reserves, e1, e2, h1.symm, h2.symm]
        · exact Binding.reserves_of_not_live hlive k
      rw [hat k h1 h2]
      omega
  refine ⟨fun k hk => ?_, fun c hc => ?_, ?_, hreserved, ?_, ?_, fun c hc => ?_, ?_, ?_, ?_⟩
  · rw [hat k (fun h => hk (h ▸ hbuyerRange)) (fun h => hk (h ▸ hsellerRange))]
    exact hs.blank_bill k hk
  · have hcb : c ≠ b := fun h => hc (h ▸ hb)
    rw [update_of_ne hcb]
    exact hs.blank_binding c (by omega)
  · exact (forall_update_iff bindings fun c (binding : Binding) =>
      binding.state ≠ .none → binding.bindingId = c).mpr ⟨fun _ => hid, fun c _ => hs.numbered c⟩
  · exact forall_update_update (fun _ (bill : Bill) => bill.reserved + bill.spent ≤ bill.amount)
      hroom.1 hroom.2 hs.room
  · refine forall_update_update (fun _ (bill : Bill) => bill.state = .closed → bill.reserved = 0)
      (fun hclosed => ?_) (fun hclosed => ?_) hs.closed
    · exact hstate.1.resolve_left (by rw [hclosed]; simp)
    · exact hstate.2.resolve_left (by rw [hclosed]; simp)
  · have hstate' : ∀ k, (bills k).state = .opened →
        (bills' k).state = .opened ∨ (bills' k).reserved = 0 :=
      forall_update_update (fun k (bill : Bill) => (bills k).state = .opened →
        bill.state = .opened ∨ bill.reserved = 0)
        (fun _ => hstate.1) (fun _ => hstate.2) fun k hk => .inl hk
    rcases eq_or_ne c b with rfl | hcb
    · rw [update_self] at hc
      refine backed_of_open hreserved hstate' hb ?_ ?_ ?_ <;> rw [update_self]
      exacts [hc, hpos hc, hopen]
    · rw [update_of_ne hcb] at hc
      have hrange := hs.live_range hc
      refine backed_of_open hreserved hstate' ⟨hrange.1, hrange.2.trans hm⟩ ?_ ?_ ?_ <;>
        rw [update_of_ne hcb]
      exacts [hc, hs.positive c hc, hs.backed c hc]
  · exact (forall_update_iff bindings fun _ c =>
      c.buyerBillId ≤ n ∧ c.sellerBillId ≤ n).mpr ⟨⟨hbuyerRange.2, hsellerRange.2⟩,
        fun c _ => hs.bounded c⟩
  · exact (forall_update_iff bindings fun _ c =>
      c.state.Live → c.buyerBillId ≠ c.sellerBillId).mpr ⟨fun _ => hsides, fun c _ => hs.sides c⟩
  · exact (forall_update_iff bindings fun _ c =>
      c.state.Live → 0 < c.amount ∧ 0 < c.stakeAmount).mpr ⟨hpos, fun c _ => hs.positive c⟩

end Sound

/-! ## Transactions keep the book sound -/

section Effects

variable {D : Deployment} {w w' : World} {a : Act}

theorem unreserve_unreserve_bills {i j n m : ℕ} (hij : i ≠ j) :
    ((w.unreserve i n).unreserve j m).bills = update (update w.bills i ((w.bills i).unreserve n)) j
        ((w.bills j).unreserve m) := by
  simp [World.unreserve, update_of_ne hij.symm]

theorem spendReserved_unreserve_bills {i j n m : ℕ} (hij : i ≠ j) :
    ((w.spendReserved i n).unreserve j m).bills =
      update (update w.bills i ((w.bills i).spendReserved n)) j ((w.bills j).unreserve m) := by
  simp [World.unreserve, World.spendReserved, update_of_ne hij.symm]

theorem unreserve_spendReserved_bills {i j n m : ℕ} (hij : i ≠ j) :
    ((w.unreserve i n).spendReserved j m).bills =
      update (update w.bills i ((w.bills i).unreserve n)) j ((w.bills j).spendReserved m) := by
  simp [World.unreserve, World.spendReserved, update_of_ne hij.symm]

/-- What a bill looks like after a binding gave back `n` of its reservation, with or without a pull.
-/
structure Bill.Released (old new : Bill) (n : ℕ) : Prop where
  reserved : new.reserved + n = old.reserved
  room : new.reserved + new.spent ≤ new.amount
  state : new.state = .opened ∨ new.reserved = 0

theorem Bill.released_unreserve {bill : Bill} {n : ℕ} (hn : n ≤ bill.reserved)
    (hroom : bill.reserved + bill.spent ≤ bill.amount) (hopen : bill.state = .opened) :
    bill.Released (bill.unreserve n) n where
  reserved := by simp only [Bill.unreserve]; omega
  room := by simp only [Bill.unreserve]; omega
  state := .inl hopen

theorem Bill.released_spendReserved {bill : Bill} {n : ℕ} (hn : n ≤ bill.reserved)
    (hroom : bill.reserved + bill.spent ≤ bill.amount) (hopen : bill.state = .opened) :
    bill.Released (bill.spendReserved n) n where
  reserved := by simp only [Bill.spendReserved]; omega
  room := by simp only [Bill.spendReserved]; omega
  state := by
    -- a bill closes when `amount ≤ spent`, and then nothing can be left reserved
    simp only [Bill.spendReserved]
    split_ifs with hfull
    · right
      omega
    · exact .inl hopen

variable {bills : ℕ → Bill} {bindings : ℕ → Binding}

theorem Sound.close {n m b : ℕ}
    (hs : Sound bills bindings n m) (hlive : (bindings b).state.Live) (binding : Binding)
    {buyer seller : Bill} (hclosed : ¬ binding.state.Live)
    (hterms : binding.terms = (bindings b).terms)
    (hbuyer : (bills (bindings b).buyerBillId).Released buyer (bindings b).amount)
    (hseller : (bills (bindings b).sellerBillId).Released seller (bindings b).stakeAmount) :
    Sound (update (update bills (bindings b).buyerBillId buyer)
      (bindings b).sellerBillId seller) (update bindings b binding) n m := by
  have hne := hs.sides b hlive
  have hat : ∀ i, (bindings b).reserves i = (if (bindings b).buyerBillId = i then
      (bindings b).amount else 0) + if (bindings b).sellerBillId = i then
      (bindings b).stakeAmount else 0 := Binding.reserves_of_live hlive
  simp only [Binding.terms, Prod.mk.injEq] at hterms
  obtain ⟨h0, h1, h2, -, -⟩ := hterms
  -- the closed binding reserves nothing, so each bill gives back exactly its side
  have key := hs.rebook binding buyer seller le_rfl
    (hs.live_range hlive) (h0.trans (hs.live_numbered hlive)) (by rwa [h1, h2])
    (by rw [h1, h2]; exact hs.backed b hlive)
    (fun _ => ⟨h1.symm, h2.symm⟩) (fun h => absurd h hclosed) ?_ ?_ ⟨hbuyer.room, hseller.room⟩
    ⟨hbuyer.state, hseller.state⟩
  · rwa [h1, h2] at key
  · rw [Binding.reserves_of_not_live hclosed, h1, hat, if_pos rfl, if_neg hne.symm]
    exact hbuyer.reserved
  · rw [Binding.reserves_of_not_live hclosed, h2, hat, if_pos rfl, if_neg hne, zero_add]
    exact hseller.reserved

theorem Sound.setBinding {n m b : ℕ}
    (hs : Sound bills bindings n m) (hlive : (bindings b).state.Live) {binding : Binding}
    (hlive' : binding.state.Live) (hterms : binding.terms = (bindings b).terms) :
    Sound bills (update bindings b binding) n m := by
  simp only [Binding.terms, Prod.mk.injEq] at hterms
  obtain ⟨h0, h1, h2, h3, h4⟩ := hterms
  have hsame : ∀ i, (bindings b).reserves i = binding.reserves i := by
    intro i
    rw [Binding.reserves_of_live hlive, Binding.reserves_of_live hlive', h1, h2, h3, h4]
  obtain ⟨hbuyer, hseller⟩ := hs.backed b hlive
  have key := hs.rebook binding (bills binding.buyerBillId) (bills binding.sellerBillId) le_rfl
    (hs.live_range hlive) (h0.trans (hs.live_numbered hlive))
    (by rw [h1, h2]; exact hs.sides b hlive) (by rw [h1, h2]; exact hs.backed b hlive)
    (fun _ => ⟨h1.symm, h2.symm⟩) (fun _ => by rw [h3, h4]; exact hs.positive b hlive)
    (by rw [hsame]) (by rw [hsame]) ⟨hs.room _, hs.room _⟩
    ⟨.inl (by rwa [h1]), .inl (by rwa [h2])⟩
  rwa [update_eq_self, update_eq_self] at key

theorem Sound.bind {n m : ℕ}
    (hs : Sound bills bindings n m) {binding : Binding} {i j price stake : ℕ}
    (hactive : binding.state = .active)
    (hterms : binding.terms = (m + 1, i, j, price, stake))
    (hopen : (bills i).state = .opened ∧ (bills j).state = .opened) (hij : i ≠ j)
    (hpos : 0 < price ∧ 0 < stake)
    (hbuyer : (bills i).reserved + (bills i).spent + price ≤ (bills i).amount)
    (hseller : (bills j).reserved + (bills j).spent + stake ≤ (bills j).amount) :
    Sound (update (update bills i { bills i with reserved := (bills i).reserved + price })
      j { bills j with reserved := (bills j).reserved + stake })
      (update bindings (m + 1) binding) n (m + 1) := by
  simp only [Binding.terms, Prod.mk.injEq] at hterms
  obtain ⟨hid, rfl, rfl, rfl, rfl⟩ := hterms
  have hlive : binding.state.Live := by rw [hactive]; trivial
  -- the new number was blank and reserved nothing before
  have hblank : ¬ (bindings (m + 1)).state.Live := by
    rw [hs.blank_binding (m + 1) (by omega)]
    exact fun h => h
  refine hs.rebook binding _ _ (Nat.le_succ m) ⟨by omega, le_rfl⟩ hid hij hopen
    (fun h => absurd h hblank) (fun _ => hpos) ?_ ?_ ⟨?_, ?_⟩ ⟨.inl hopen.1, .inl hopen.2⟩
  · rw [Binding.reserves_of_not_live hblank, Binding.reserves_of_live hlive, if_pos rfl,
      if_neg hij.symm]
    rfl
  · rw [Binding.reserves_of_not_live hblank, Binding.reserves_of_live hlive, if_pos rfl,
      if_neg hij, zero_add]
    rfl
  · dsimp only
    omega
  · dsimp only
    omega

theorem Sound.effect (hs : w.Sound) (h : Effect D w a w') : w'.Sound := by
  cases h with
  | tick | token | setTokenAllowed | setDisputeWindow | setSettleDelay | setDisputeResolver
  | setFrozen => exact hs
  | commit =>
    have hblank := hs.blank_bill (w.billCounter + 1) (by omega)
    refine hs.setBill (Nat.le_succ _) ⟨by omega, le_rfl⟩ ?_ (Nat.zero_le _) (.inl rfl)
    rw [hblank]
  | setOperator hopen _ =>
    exact hs.setBill le_rfl (hs.bill_range (by rw [hopen]; simp)) rfl (hs.room _) (.inl hopen)
  | revoke hopen _ hreserved =>
    exact hs.setBill le_rfl (hs.bill_range (by rw [hopen]; simp)) rfl (hs.room _) (.inr hreserved)
  | bind hi hj _ _ howner hn hm hni hmj =>
    -- different owners make different bills
    refine hs.bind rfl rfl ⟨hi, hj⟩ (fun hij => howner ?_)
      ⟨Nat.pos_of_ne_zero hn, Nat.pos_of_ne_zero hm⟩ hni hmj
    exact congrArg (fun k => (w.bills k).owner) hij
  | @cancelBinding _ b _ hst _ =>
    have hlive : (w.bindings b).state.Live := by
      rcases hst with hst | ⟨hst, -⟩ <;> rw [hst] <;> trivial
    obtain ⟨hbuyer, hseller⟩ := hs.backed b hlive
    have key := hs.close hlive { w.bindings b with state := .cancelled, closedAt := w.now }
      (fun h => h) rfl
      (Bill.released_unreserve (hs.amount_le hlive) (hs.room _) hbuyer)
      (Bill.released_unreserve (hs.stakeAmount_le hlive) (hs.room _) hseller)
    rwa [← unreserve_unreserve_bills (hs.sides b hlive)] at key
  | markDisputed _ hst _ =>
    exact hs.setBinding (by rw [hst]; trivial) trivial rfl
  | buyerConfirm _ hst _ _ _ =>
    exact hs.setBinding (by rw [hst]; trivial) (by rw [hst]; trivial) rfl
  | submitSettlement _ hst _ _ => exact hs.setBinding hst trivial rfl
  | submitBreach _ hst _ _ => exact hs.setBinding hst trivial rfl
  | @finalizeSettlement _ b _ _ hst _ _ _ _ =>
    have hlive : (w.bindings b).state.Live := by rw [hst]; trivial
    obtain ⟨hbuyer, hseller⟩ := hs.backed b hlive
    have key := hs.close hlive { w.bindings b with state := .settled, closedAt := w.now }
      (fun h => h) rfl
      (Bill.released_spendReserved (hs.amount_le hlive) (hs.room _) hbuyer)
      (Bill.released_unreserve (hs.stakeAmount_le hlive) (hs.room _) hseller)
    rwa [← spendReserved_unreserve_bills (hs.sides b hlive)] at key
  | @finalizeBreach _ b _ _ hst _ _ _ _ _ =>
    have hlive : (w.bindings b).state.Live := by rw [hst]; trivial
    obtain ⟨hbuyer, hseller⟩ := hs.backed b hlive
    have key := hs.close hlive { w.bindings b with state := .slashed, closedAt := w.now }
      (fun h => h) rfl
      (Bill.released_unreserve (hs.amount_le hlive) (hs.room _) hbuyer)
      (Bill.released_spendReserved (hs.stakeAmount_le hlive) (hs.room _) hseller)
    rwa [← unreserve_spendReserved_bills (hs.sides b hlive)] at key

end Effects

theorem Reach.sound {D : Deployment} {h : History} {w : World} (hr : Reach D h w) : w.Sound := by
  refine hr.safe (P := World.Sound) (fun w hw => ?_) fun w a w' hs hstep =>
    hs.effect (effect_of_step hstep)
  have hbills : w.bills = fun _ => {} := funext hw.bills
  have hbindings : w.bindings = fun _ => {} := funext hw.bindings
  rw [World.Sound, hbills, hbindings, hw.billCounter, hw.bindingCounter]
  exact Sound.empty

theorem wp_exec_ne_underflow {w : World} (hs : w.Sound) (D : Deployment) (sender : Address)
    (c : Call) :
    Tx.wp (exec D sender c) (fun _ => True) (· ≠ .underflow) (fun _ _ => True) w.fresh := by
  have hroom : ∀ i, (w.bills i).reserved + (w.bills i).spent ≤ (w.bills i).amount := hs.room
  cases c with
  | setTokenAllowed | setDisputeWindow | setSettleDelay | setDisputeResolver | setFrozen | commit
  | setOperator | markDisputed | buyerConfirm | submitSettlement | submitBreach =>
    simp [exec, setTokenAllowed, setDisputeWindow, setSettleDelay, setDisputeResolver, setFrozen,
      commit, setOperator, markDisputed, buyerConfirm, submitSettlement, submitBreach, openWindow]
  | revoke i =>
    have hspent : (w.bills i).spent ≤ (w.bills i).amount := by
      have := hroom i
      omega
    simp [exec, revoke, hspent]
  | bind i j scopeHash n m => simp [exec, bind, hroom]
  | cancelBinding b | finalizeSettlement b | finalizeBreach b =>
    by_cases hlive : (w.bindings b).state.Live
    · have hbuyer := hs.amount_le hlive
      have hseller := hs.stakeAmount_le hlive
      simp [exec, cancelBinding, finalizeSettlement, finalizeBreach, hbuyer, hseller,
        World.unreserve_bills_of_ne _ (hs.sides b hlive),
        World.spendReserved_bills_of_ne _ (hs.sides b hlive)]
    · -- a binding that is not live is refused before any subtraction
      obtain ⟨h1, h2, h3⟩ := not_live_iff.mp hlive
      simp [exec, cancelBinding, finalizeSettlement, finalizeBreach, h1, h2, h3]

end Karma.AllowanceEscrow
