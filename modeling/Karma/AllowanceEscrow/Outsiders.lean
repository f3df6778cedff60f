import Karma.AllowanceEscrow.DirectionGate
import Karma.AllowanceEscrow.DisputeWindow

/-! # `KarmaAllowanceEscrow` — what outsiders can do to an armed payout

A payout goes through exactly if the binding is armed in its direction, its time has come, and the
pull is `Payable`. -/

namespace Karma.AllowanceEscrow

open Evm Function

variable {D : Deployment} {w w' v v' : World} {a : Act} {h : History} {b : ℕ}

/-! ## When a payout goes through -/

/-- The token lets the contract make the pull `p`, and the custody check passes. -/
def Payable (D : Deployment) (w : World) (p : Pull) : Prop :=
  p.source ≠ 0 ∧ p.target ≠ 0 ∧ p.amount ≤ (w.tokens p.token).allowance p.source D.self ∧
    p.amount ≤ (w.tokens p.token).balanceOf p.source ∧ (w.tokens p.token).balanceOf D.self = 0

theorem payable_of_pull {p : Pull} {T : Erc20 Address}
    (hpull : (w.tokens p.token).transferFrom D.self p.source p.target p.amount = some T)
    (hsource : p.source ≠ D.self) (htarget : p.target ≠ D.self)
    (hcustody : T.balanceOf D.self = 0) : Payable D w p := by
  have hself := balanceOf_self_of_pull hpull hsource htarget p.token
  rw [update_self] at hself
  obtain ⟨h1, h2, h3, h4, -⟩ := Erc20.transferFrom_eq_some.mp hpull
  exact ⟨h1, h2, h3, h4, hself ▸ hcustody⟩

theorem pull_of_payable {p : Pull} (hp : Payable D w p) (hsource : p.source ≠ D.self)
    (htarget : p.target ≠ D.self) :
    ∃ T, (w.tokens p.token).transferFrom D.self p.source p.target p.amount = some T ∧
      T.balanceOf D.self = 0 := by
  obtain ⟨h1, h2, h3, h4, h5⟩ := hp
  have hpull := Erc20.transferFrom_eq_some.mpr ⟨h1, h2, h3, h4, rfl⟩
  refine ⟨_, hpull, ?_⟩
  rw [Erc20.move_balanceOf_of_ne hsource.symm htarget.symm, Erc20.spend_balanceOf, h5]

theorem spent_add_lt (hs : w.Sound) (hc : Committed D w) {i n : ℕ}
    (hopen : (w.bills i).state = .opened) (hn : n ≤ (w.bills i).reserved) :
    (w.bills i).spent + n < 2 ^ 256 := by
  have hrange := hs.bill_range (i := i) (by rw [hopen]; simp)
  have hfits := (hc i hrange.1 hrange.2).2
  have hroom := hs.room i
  omega

theorem finalizeSettlement_isSome_iff (hs : w.Sound) (hc : Committed D w) {sender : Address} :
    (step D w (.call sender (.finalizeSettlement b))).isSome ↔
      sender ≠ D.self ∧ b < 2 ^ 256 ∧ (w.bindings b).state = .finalizing ∧
        (w.bindings b).slashArmed = false ∧
        ((w.bindings b).settleAfter ≤ w.now ∨ (w.bindings b).buyerConfirmed = true) ∧
        Payable D w (w.payment b) := by
  rw [Option.isSome_iff_exists]
  constructor
  · rintro ⟨w', hstep⟩
    obtain ⟨hself, hword, -⟩ := step_call_eq_some.mp hstep
    cases effect_of_step hstep with
    | finalizeSettlement _ hst hslash htime hpull hcustody =>
      obtain ⟨hbuyer, hseller⟩ := hc.parties hs (by rw [hst]; trivial)
      exact ⟨hself, hword b (by simp [Call.words]), hst, hslash, htime,
        payable_of_pull hpull hbuyer hseller hcustody⟩
  · -- no guard fires, no subtraction fails, and the sum booked as spent fits a word
    rintro ⟨hself, hword, hst, hslash, htime, hpay⟩
    have hlive : (w.bindings b).state.Live := by rw [hst]; trivial
    obtain ⟨hbuyer, hseller⟩ := hc.parties hs hlive
    obtain ⟨T, hpull, hcustody⟩ := pull_of_payable hpay hbuyer hseller
    have hamount := hs.amount_le hlive
    have hfits := spent_add_lt hs hc (hs.backed b hlive).1 hamount
    have hwp : Tx.wp (exec D sender (.finalizeSettlement b)) (fun _ => True) (fun _ => False)
        (fun _ _ => True) w.fresh := by
      have hwait : w.now < (w.bindings b).settleAfter → (w.bindings b).buyerConfirmed = true :=
        fun hlt => htime.resolve_left (by omega)
      simp only [World.payment] at hpay hpull
      simpa [exec, finalizeSettlement, hs.bindingId_ne_zero hlive, hst, hslash, hamount,
        World.spendReserved_bills_of_ne _ (hs.sides b hlive), hs.stakeAmount_le hlive, hpull,
        hcustody, hpay.2.2.1] using And.intro hwait fun _ => hfits
    obtain ⟨⟨⟩, w', hr, -⟩ := Tx.exists_ok_of_wp hwp
    exact ⟨w', step_call_eq_some.mpr ⟨hself, by simpa [Call.WordSized, Call.words] using hword, hr⟩⟩

theorem finalizeBreach_isSome_iff (hs : w.Sound) (hc : Committed D w) {sender : Address} :
    (step D w (.call sender (.finalizeBreach b))).isSome ↔
      sender ≠ D.self ∧ b < 2 ^ 256 ∧ (w.bindings b).state = .finalizing ∧
        (w.bindings b).slashArmed = true ∧ sender = w.disputeResolver ∧
        (w.bindings b).settleAfter ≤ w.now ∧ Payable D w (w.slashing b) := by
  rw [Option.isSome_iff_exists]
  constructor
  · rintro ⟨w', hstep⟩
    obtain ⟨hself, hword, -⟩ := step_call_eq_some.mp hstep
    cases effect_of_step hstep with
    | finalizeBreach _ hst hslash hres htime hpull hcustody =>
      obtain ⟨hbuyer, hseller⟩ := hc.parties hs (by rw [hst]; trivial)
      exact ⟨hself, hword b (by simp [Call.words]), hst, hslash, hres, htime,
        payable_of_pull hpull hseller hbuyer hcustody⟩
  · -- as for a settlement, with the two sides exchanged
    rintro ⟨hself, hword, hst, hslash, hres, htime, hpay⟩
    have hlive : (w.bindings b).state.Live := by rw [hst]; trivial
    obtain ⟨hbuyer, hseller⟩ := hc.parties hs hlive
    obtain ⟨T, hpull, hcustody⟩ := pull_of_payable hpay hseller hbuyer
    have hstake := hs.stakeAmount_le hlive
    have hfits := spent_add_lt hs hc (hs.backed b hlive).2 hstake
    have hwp : Tx.wp (exec D sender (.finalizeBreach b)) (fun _ => True) (fun _ => False)
        (fun _ _ => True) w.fresh := by
      simp only [World.slashing] at hpay hpull
      simpa [exec, finalizeBreach, hs.bindingId_ne_zero hlive, hst, hslash, hres, htime,
        hs.amount_le hlive, World.unreserve_bills_of_ne _ (hs.sides b hlive), hstake, hpull,
        hcustody, hpay.2.2.1] using hfits
    obtain ⟨⟨⟩, w', hr, -⟩ := Tx.exists_ok_of_wp hwp
    exact ⟨w', step_call_eq_some.mpr ⟨hself, by simpa [Call.WordSized, Call.words] using hword, hr⟩⟩

/-! ## Outsiders -/

def Act.sender : Act → Option Address
  | .tick _ => none
  | .call sender _ => some sender
  | .token sender _ _ => some sender

def Act.donation (D : Deployment) (t : Address) : Act → ℕ
  | .token _ t' c => if t' = t then c.credits D.self else 0
  | _ => 0

structure Outsider (D : Deployment) (w : World) (b : ℕ) (x : Address) : Prop where
  admin : x ≠ D.admin
  resolver : x ≠ w.disputeResolver
  buyer : ¬ CanAct (w.bills (w.bindings b).buyerBillId) x
  seller : ¬ CanAct (w.bills (w.bindings b).sellerBillId) x

def Bill.identity (bill : Bill) : Address × Address × Address :=
  (bill.owner, bill.operator, bill.token)

structure Standing (w : World) (b : ℕ) (v : World) : Prop where
  resolver : v.disputeResolver = w.disputeResolver
  now : w.now ≤ v.now
  terms : (v.bindings b).terms = (w.bindings b).terms
  buyer : (v.bills (w.bindings b).buyerBillId).identity =
    (w.bills (w.bindings b).buyerBillId).identity
  seller : (v.bills (w.bindings b).sellerBillId).identity =
    (w.bills (w.bindings b).sellerBillId).identity
  binding : v.bindings b = w.bindings b ∨
    (v.bindings b).state = .settled ∧ (w.bindings b).slashArmed = false

theorem canAct_of_identity {bill bill' : Bill} (hid : bill'.identity = bill.identity)
    {x : Address} : CanAct bill' x ↔ CanAct bill x := by
  simp only [Bill.identity, Prod.mk.injEq] at hid
  simp only [CanAct, hid]

theorem Effect.identity (he : Effect D v a v') {k : ℕ} (hk : k ≤ v.billCounter)
    (hout : ∀ x, a.sender = some x → ¬ CanAct (v.bills k) x) :
    (v'.bills k).identity = (v.bills k).identity := by
  refine he.bill_apply Bill.identity (fun _ _ _ _ => rfl) hk fun operator hact => ?_
  exact absurd (.inl rfl) (hout (v.bills k).owner (by rw [hact]; rfl))

theorem Effect.disputeResolver (he : Effect D v a v')
    (hout : ∀ x, a.sender = some x → x ≠ D.admin) :
    v'.disputeResolver = v.disputeResolver := by
  cases he with
  | setDisputeResolver hadmin => exact absurd hadmin (hout _ rfl)
  | _ => rfl

theorem Effect.balanceOf_self_le (he : Effect D v a v') (hs : v.Sound) (hc : Committed D v)
    (t : Address) :
    (v'.tokens t).balanceOf D.self ≤ (v.tokens t).balanceOf D.self + a.donation D t := by
  cases a with
  | tick time =>
    cases he
    exact Nat.le_add_right ..
  | call sender c =>
    rw [he.balanceOf_self hs hc t]
    exact Nat.le_add_right ..
  | token sender token c =>
    cases he with
    | token _ hrun =>
      dsimp only [Act.donation]
      rcases eq_or_ne t token with rfl | ht
      · rw [update_self, if_pos rfl]
        exact Erc20.run_balanceOf_le hrun
      · rw [update_of_ne ht]
        exact Nat.le_add_right ..

theorem Life.of_outsider (hlife : Life v b v' a) (hs : v.Sound)
    (hfin : (v.bindings b).state = .finalizing)
    (hout : ∀ x, a.sender = some x → Outsider D v b x) :
    v'.bindings b = v.bindings b ∨
      (v'.bindings b).state = .settled ∧ (v.bindings b).slashArmed = false := by
  cases hlife with
  | untouched _ hsame => exact .inl hsame
  | bound hb => exact absurd (hs.binding_range (b := b) (by rw [hfin]; simp)).2 (by omega)
  | cancelled hst => rw [hfin] at hst; simp at hst
  | disputed hst => rw [hfin] at hst; contradiction
  -- a confirmation needs the buyer's side, a ruling or a slash the resolver
  | confirmed _ _ hact => exact absurd hact (hout _ rfl).buyer
  | ruledSettlement _ hres => exact absurd hres (hout _ rfl).resolver
  | ruledBreach _ hres => exact absurd hres (hout _ rfl).resolver
  | settled _ hslash _ hnew => exact .inr ⟨by rw [hnew], hslash⟩
  | slashed _ _ hres => exact absurd hres (hout _ rfl).resolver

theorem Standing.outsider (hstand : Standing w b v) {x : Address} (hx : Outsider D w b x) :
    Outsider D v b x := by
  have hterms := hstand.terms
  simp only [Binding.terms, Prod.mk.injEq] at hterms
  refine ⟨hx.admin, hstand.resolver ▸ hx.resolver, ?_, ?_⟩
  · rw [hterms.2.1, canAct_of_identity hstand.buyer]
    exact hx.buyer
  · rw [hterms.2.2.1, canAct_of_identity hstand.seller]
    exact hx.seller

theorem Standing.step (hstand : Standing w b v) (hfin : (w.bindings b).state = .finalizing)
    (hs : v.Sound) (he : Effect D v a v') (hout : ∀ x, a.sender = some x → Outsider D w b x) :
    Standing w b v' := by
  have hout' : ∀ x, a.sender = some x → Outsider D v b x := fun x hx =>
    hstand.outsider (hout x hx)
  have hterms := hstand.terms
  simp only [Binding.terms, Prod.mk.injEq] at hterms
  obtain ⟨-, hbuyer, hseller, -, -⟩ := hterms
  have hsome : (v.bindings b).state ≠ .none := by
    rcases hstand.binding with hsame | ⟨hset, -⟩
    · rw [hsame, hfin]
      simp
    · rw [hset]
      simp
  refine ⟨?_, hstand.now.trans he.now_le, ?_, ?_, ?_, ?_⟩
  · rw [he.disputeResolver fun x hx => (hout x hx).admin, hstand.resolver]
  · rw [he.extends.binding b (hs.binding_range hsome).2, hstand.terms]
  · rw [← hstand.buyer]
    exact he.identity (hbuyer ▸ (hs.bounded b).1) fun x hx => hbuyer ▸ (hout' x hx).buyer
  · rw [← hstand.seller]
    exact he.identity (hseller ▸ (hs.bounded b).2) fun x hx => hseller ▸ (hout' x hx).seller
  · rcases hstand.binding with hsame | ⟨hset, hslash⟩
    · rw [← hsame]
      exact (he.life b).of_outsider hs (hsame ▸ hfin) hout'
    · -- once paid, the binding never changes
      have hsame := (he.life b).of_finished hs hsome (by rw [hset]; exact id)
      exact .inr ⟨by rw [hsame, hset], hslash⟩

theorem Standing.steps (hr : Reach D h w) (hfin : (w.bindings b).state = .finalizing) {t : Address}
    (hself : (w.tokens t).balanceOf D.self = 0) {as : List Act}
    (hsteps : steps (AllowanceEscrow.step D) as w = some v)
    (hout : ∀ a ∈ as, ∀ x, a.sender = some x → Outsider D w b x)
    (hdonation : ∀ a ∈ as, a.donation D t = 0) :
    (∃ h', Reach D h' v) ∧ Standing w b v ∧ (v.tokens t).balanceOf D.self = 0 := by
  refine steps_induct (P := fun v => (∃ h', Reach D h' v) ∧ Standing w b v ∧
    (v.tokens t).balanceOf D.self = 0) (fun u a ha u' ⟨⟨hu, hru⟩, hstand, hzero⟩ hstep => ?_)
    ⟨⟨h, hr⟩, ⟨rfl, le_rfl, rfl, rfl, rfl, .inl rfl⟩, hself⟩ hsteps
  -- the invariant of the run: still reachable, still standing, still without the token
  have he := effect_of_step hstep
  have hs := Reach.sound hru
  refine ⟨⟨_, hru.next hstep⟩, hstand.step hfin hs he (hout a ha), ?_⟩
  have hle := he.balanceOf_self_le hs (Reach.committed hru) t
  rw [hzero, hdonation a ha] at hle
  exact Nat.le_zero.mp hle

theorem Standing.payment (hstand : Standing w b v) (hsame : v.bindings b = w.bindings b) :
    v.payment b = w.payment b ∧ v.slashing b = w.slashing b := by
  have hbuyer := hstand.buyer
  have hseller := hstand.seller
  simp only [Bill.identity, Prod.mk.injEq] at hbuyer hseller
  simp only [World.payment, World.slashing, hsame, hbuyer, hseller, and_self]

def Funded (D : Deployment) (w : World) (p : Pull) : Prop :=
  p.amount ≤ (w.tokens p.token).balanceOf p.source ∧
    p.amount ≤ (w.tokens p.token).allowance p.source D.self

/-- **Outsiders cannot block an armed payout** by anything but the token itself. -/
theorem outsiders_cannot_block (hr : Reach D h w) {as : List Act}
    (hsteps : steps (step D) as w = some v)
    (hout : ∀ a ∈ as, ∀ x, a.sender = some x → Outsider D w b x) :
    (∀ sender, (step D w (.call sender (.finalizeSettlement b))).isSome →
      (∀ a ∈ as, a.donation D (w.payment b).token = 0) → Funded D v (w.payment b) →
      (v.bindings b).state = .settled ∨ (step D v (.call sender (.finalizeSettlement b))).isSome) ∧
    (∀ sender, (step D w (.call sender (.finalizeBreach b))).isSome →
      (∀ a ∈ as, a.donation D (w.slashing b).token = 0) → Funded D v (w.slashing b) →
      (step D v (.call sender (.finalizeBreach b))).isSome) := by
  have hs := Reach.sound hr
  have hc := Reach.committed hr
  constructor
  · intro sender hpay hdonation hfunds
    obtain ⟨hself, hword, hfin, hslash, htime, h1, h2, -, -, hzero⟩ :=
      (finalizeSettlement_isSome_iff hs hc).mp hpay
    obtain ⟨⟨h', hr'⟩, hstand, hzero'⟩ := Standing.steps hr hfin hzero hsteps hout hdonation
    -- the binding has been paid meanwhile, or is the same as before and pays the same
    refine hstand.binding.symm.imp And.left fun hsame => ?_
    have hpay' := (hstand.payment hsame).1
    rw [finalizeSettlement_isSome_iff (Reach.sound hr') (Reach.committed hr'), hpay', hsame]
    exact ⟨hself, hword, hfin, hslash, htime.imp_left hstand.now.trans', h1, h2, hfunds.2,
      hfunds.1, hzero'⟩
  · intro sender hpay hdonation hfunds
    obtain ⟨hself, hword, hfin, hslash, hres, htime, h1, h2, -, -, hzero⟩ :=
      (finalizeBreach_isSome_iff hs hc).mp hpay
    obtain ⟨⟨h', hr'⟩, hstand, hzero'⟩ := Standing.steps hr hfin hzero hsteps hout hdonation
    -- a binding armed to slash cannot have been settled
    have hsame : v.bindings b = w.bindings b :=
      hstand.binding.resolve_right fun ⟨_, hfalse⟩ => by rw [hslash] at hfalse; contradiction
    have hpay' := (hstand.payment hsame).2
    rw [finalizeBreach_isSome_iff (Reach.sound hr') (Reach.committed hr'), hpay', hsame,
      hstand.resolver]
    exact ⟨hself, hword, hfin, hslash, hres, htime.trans hstand.now, h1, h2, hfunds.2, hfunds.1,
      hzero'⟩

namespace Sample

def stranger : Address := .ofNat 7

def twoArmed : List Act :=
  opening ++ [.call buyer (.bind 1 2 0#256 40 20), .tick 105,
    .call deployment.admin (.submitSettlement 1 0#256),
    .call deployment.admin (.submitSettlement 2 0#256),
    .token buyer token (.approve deployment.self 40), .tick 115]

theorem outsider_twoArmed : Outsider deployment (world twoArmed) 1 stranger :=
  ⟨by decide +kernel, by decide +kernel, by decide +kernel, by decide +kernel⟩

end Sample

open Sample

theorem outsiders_cannot_block_sample : (step deployment (after
        [.token stranger token (.transfer (.ofNat 8) 5)]
        (world twoArmed))
      (.call stranger (.finalizeSettlement 1))).isSome := by
  refine ((outsiders_cannot_block (b := 1) (reach _ (by decide +kernel))
    (steps_eq_after (by decide +kernel)) ?_).1 stranger (by decide +kernel)
    (by decide +kernel) ⟨by decide +kernel, by decide +kernel⟩).resolve_left (by decide +kernel)
  intro a ha x hx
  obtain rfl := List.mem_singleton.mp ha
  cases hx
  exact outsider_twoArmed

/-- **What outsiders can do.** With two armed payments of the sample contract, a stranger blocks the
first one by sending a single token to the contract, and also by executing the second one, which
takes all that the buyer still allows. -/
theorem outsider_blocks : ∃ h w, Reach deployment h w ∧ Outsider deployment w 1 stranger ∧
      (step deployment w (.call stranger (.finalizeSettlement 1))).isSome ∧
      ∀ a ∈ [Act.token stranger token (.transfer deployment.self 1),
          Act.call stranger (.finalizeSettlement 2)],
        ∃ v, step deployment w a = some v ∧ (v.bindings 1).state = .finalizing ∧
          step deployment v (.call stranger (.finalizeSettlement 1)) = none := by
  refine ⟨history twoArmed, world twoArmed,
    reach _ (by decide +kernel), outsider_twoArmed, by decide +kernel, ?_⟩
  have hblocked : ∀ a ∈ [Act.token stranger token (.transfer deployment.self 1),
        Act.call stranger (.finalizeSettlement 2)],
      ((step deployment (world twoArmed) a).map fun v =>
        ((v.bindings 1).state,
          (step deployment v (.call stranger (.finalizeSettlement 1))).isNone)) =
        some (.finalizing, true) := by decide +kernel
  intro a ha
  obtain ⟨v, hv, heq⟩ := Option.map_eq_some_iff.mp (hblocked a ha)
  simp only [Prod.mk.injEq, Option.isNone_iff_eq_none] at heq
  exact ⟨v, hv, heq⟩

end Karma.AllowanceEscrow
