import Karma.AllowanceEscrow.Lifecycle

/-! # `KarmaAllowanceEscrow` — the direction gate

A window is opened in one direction and closed in the same one. -/

namespace Karma.AllowanceEscrow

open Evm Function

variable {D : Deployment} {w w' : World} {a : Act} {h : History} {b : ℕ}

/-! ## Rulings and pulls -/

theorem Extends.payment (hext : Extends w w') (hs : w.Sound) (hb : b ≤ w.bindingCounter) :
    w'.payment b = w.payment b ∧ w'.slashing b = w.slashing b := by
  have hterms := hext.binding b hb
  have hbuyer := hext.bill _ (hs.bounded b).1
  have hseller := hext.bill _ (hs.bounded b).2
  simp only [Binding.terms, Bill.terms, Prod.mk.injEq] at hterms hbuyer hseller
  obtain ⟨-, h1, h2, h3, h4⟩ := hterms
  simp only [World.payment, World.slashing, h1, h2, h3, h4, hbuyer, hseller, and_self]

structure Directed (b : ℕ) (h : History) (w : World) : Prop where
  settled : (w.bindings b).state = .settled →
    pullsOf b h = [w.payment b] ∧ lastRuling b h = some .settlement
  slashed : (w.bindings b).state = .slashed →
    pullsOf b h = [w.slashing b] ∧ lastRuling b h = some .breach
  armed : (w.bindings b).state = .finalizing →
    lastRuling b h = some (if (w.bindings b).slashArmed then .breach else .settlement)
  unpaid : (w.bindings b).state ≠ .settled → (w.bindings b).state ≠ .slashed → pullsOf b h = []

theorem Directed.pullsOf_of_live (hd : Directed b h w) (hlive : (w.bindings b).state.Live) :
    pullsOf b h = [] := by
  refine hd.unpaid ?_ ?_ <;> · intro hst; rw [hst] at hlive; exact hlive

theorem Directed.of_unpaid {h' : History} (hst : (w'.bindings b).state ≠ .settled)
    (hsl : (w'.bindings b).state ≠ .slashed) (hfin : (w'.bindings b).state ≠ .finalizing)
    (hpulls : pullsOf b h' = []) : Directed b h' w' :=
  ⟨fun hs => absurd hs hst, fun hs => absurd hs hsl, fun hs => absurd hs hfin, fun _ _ => hpulls⟩

theorem Directed.of_finalizing {h' : History} (hfin : (w'.bindings b).state = .finalizing)
    (hruling : lastRuling b h' = some (if (w'.bindings b).slashArmed then .breach else .settlement))
    (hpulls : pullsOf b h' = []) : Directed b h' w' :=
  ⟨fun hs => by rw [hfin] at hs; contradiction, fun hs => by rw [hfin] at hs; contradiction,
    fun _ => hruling, fun _ _ => hpulls⟩

theorem Directed.step (hd : Directed b h w) (hs : w.Sound) (hext : Extends w w')
    (hlife : Life w b w' a) : Directed b (⟨w, a, w'⟩ :: h) w' := by
  -- a transaction that names `b` and pulls nothing leaves a live binding unpaid
  have hnone : a.binding = some b → w'.pulls = [] → (w.bindings b).state.Live →
      pullsOf b (⟨w, a, w'⟩ :: h) = [] := by
    intro hact hpulls hlive
    rw [pullsOf_cons_of_eq hact, hd.pullsOf_of_live hlive, hpulls, List.append_nil]
  have hlive : (w.bindings b).state = .finalizing → (w.bindings b).state.Live := by
    intro hst
    rw [hst]
    trivial
  cases hlife with
  | untouched hact hsame =>
    have hpulls : pullsOf b (⟨w, a, w'⟩ :: h) = pullsOf b h := pullsOf_cons_of_ne hact
    have hruling : lastRuling b (⟨w, a, w'⟩ :: h) = lastRuling b h :=
      lastRuling_cons_of_none (Act.ruling_eq_none hact)
    have hpay : (w.bindings b).state ≠ .none →
        w'.payment b = w.payment b ∧ w'.slashing b = w.slashing b :=
      fun hst => hext.payment hs (hs.binding_range hst).2
    refine ⟨fun hst => ?_, fun hst => ?_, ?_, ?_⟩
    · rw [hsame] at hst
      rw [hpulls, hruling, (hpay (by rw [hst]; simp)).1]
      exact hd.settled hst
    · rw [hsame] at hst
      rw [hpulls, hruling, (hpay (by rw [hst]; simp)).2]
      exact hd.slashed hst
    · rw [hruling, hsame]
      exact hd.armed
    · rw [hpulls, hsame]
      exact hd.unpaid
  | bound hb hnew =>
    have hblank : w.bindings b = {} := hs.blank_binding b (by omega)
    refine .of_unpaid ?_ ?_ ?_ ?_ <;> try rw [hnew]; simp
    rw [pullsOf_cons_of_ne (by simp [Act.binding])]
    exact hd.unpaid (by rw [hblank]; simp) (by rw [hblank]; simp)
  | cancelled hst _ hnew hpulls =>
    refine .of_unpaid ?_ ?_ ?_ (hnone rfl hpulls ?_) <;> try rw [hnew]; simp
    rcases hst with hst | ⟨hst, -⟩ <;> rw [hst] <;> trivial
  | disputed hst _ hnew hpulls =>
    refine .of_unpaid ?_ ?_ ?_ (hnone rfl hpulls ?_) <;> try rw [hnew]; simp
    rw [hst]
    trivial
  | confirmed hst _ _ _ hnew hpulls =>
    refine .of_finalizing (by rw [hnew, hst]) ?_ (hnone rfl hpulls (hlive hst))
    rw [lastRuling_cons_of_none rfl, hnew]
    exact hd.armed hst
  | ruledSettlement hst _ _ hnew hpulls | ruledBreach hst _ _ hnew hpulls =>
    refine .of_finalizing (by rw [hnew]) ?_ (hnone rfl hpulls hst)
    rw [hnew]
    exact lastRuling_cons_of_some (if_pos rfl)
  | settled hst hslash _ hnew hpulls =>
    have hrange := hs.binding_range (b := b) (by rw [hst]; simp)
    refine ⟨fun _ => ⟨?_, ?_⟩, fun h => ?_, fun h => ?_, fun h => ?_⟩
    · rw [pullsOf_cons_of_eq rfl, hd.pullsOf_of_live (hlive hst), List.append_nil, hpulls,
        (hext.payment hs hrange.2).1]
    · rw [lastRuling_cons_of_none rfl, hd.armed hst, hslash]
      rfl
    all_goals rw [hnew] at h; simp at h
  | slashed hst hslash _ _ hnew hpulls =>
    have hrange := hs.binding_range (b := b) (by rw [hst]; simp)
    refine ⟨fun h => ?_, fun _ => ⟨?_, ?_⟩, fun h => ?_, fun _ h => ?_⟩
    rotate_left
    · rw [pullsOf_cons_of_eq rfl, hd.pullsOf_of_live (hlive hst), List.append_nil, hpulls,
        (hext.payment hs hrange.2).2]
    · rw [lastRuling_cons_of_none rfl, hd.armed hst, hslash]
      rfl
    all_goals rw [hnew] at h; simp at h

theorem Reach.directed (hr : Reach D h w) (b : ℕ) : Directed b h w := by
  refine hr.invariant (P := Directed b) (fun w hw => ?_) fun h w a w' hr ih hstep => ?_
  · refine .of_unpaid ?_ ?_ ?_ rfl <;> rw [hw.bindings b] <;> simp
  · have heff := effect_of_step hstep
    exact ih.step (Reach.sound hr) heff.extends (heff.life b)

theorem Life.of_finalizing (hlife : Life w b w' a) (hs : w.Sound)
    (hst : (w.bindings b).state = .finalizing) :
    (w'.bindings b).state = .finalizing ∨ (w'.bindings b).state = .settled ∨
      (w'.bindings b).state = .slashed := by
  -- a transition from another state contradicts `hst`; the rest names the new state
  cases hlife with
  | untouched _ hsame => exact .inl (by rw [hsame, hst])
  | bound hb => exact absurd (hs.binding_range (b := b) (by rw [hst]; simp)).2 (by omega)
  | cancelled hst' | disputed hst' => rw [hst] at hst'; simp at hst'
  | confirmed _ _ _ _ hnew => exact .inl (by rw [hnew, hst])
  | ruledSettlement _ _ _ hnew | ruledBreach _ _ _ hnew => exact .inl (by rw [hnew])
  | settled _ _ _ hnew => exact .inr (.inl (by rw [hnew]))
  | slashed _ _ _ _ hnew => exact .inr (.inr (by rw [hnew]))

theorem Life.of_disputed (hlife : Life w b w' a) (hs : w.Sound)
    (hst : (w.bindings b).state = .disputed) (hst' : (w'.bindings b).state = .cancelled) :
    a = .call w.disputeResolver (.cancelBinding b) := by
  cases hlife with
  | untouched _ hsame => rw [hsame, hst] at hst'; contradiction
  | bound hb => exact absurd (hs.binding_range (b := b) (by rw [hst]; simp)).2 (by omega)
  | cancelled hold =>
    -- cancelled as an active binding, which it was not, or by the resolver
    rcases hold with hold | ⟨-, rfl⟩
    · rw [hst] at hold; contradiction
    · rfl
  | disputed hold | confirmed hold | settled hold | slashed hold => rw [hst] at hold; contradiction
  | ruledSettlement _ _ _ hnew | ruledBreach _ _ _ hnew => rw [hnew] at hst'; contradiction

theorem Life.of_finished (hlife : Life w b w' a) (hs : w.Sound)
    (hsome : (w.bindings b).state ≠ .none) (hdead : ¬ (w.bindings b).state.Live) :
    w'.bindings b = w.bindings b := by
  have hfin : (w.bindings b).state ≠ .finalizing := (not_live_iff.mp hdead).2.2
  -- every transition but a new binding starts in a live state
  cases hlife with
  | untouched _ hsame => exact hsame
  | bound hb => exact absurd (hs.binding_range hsome).2 (by omega)
  | cancelled hst =>
    rcases hst with hst | ⟨hst, -⟩
    · exact absurd hst (not_live_iff.mp hdead).1
    · exact absurd hst (not_live_iff.mp hdead).2.1
  | disputed hst => exact absurd hst (not_live_iff.mp hdead).1
  | confirmed hst | settled hst | slashed hst => exact absurd hst hfin
  | ruledSettlement hst | ruledBreach hst => exact absurd hst hdead

/-! ## The contract's own balance -/

def Committed (D : Deployment) (w : World) : Prop :=
  ∀ i, 1 ≤ i → i ≤ w.billCounter → (w.bills i).owner ≠ D.self ∧ (w.bills i).amount < 2 ^ 256

theorem Committed.effect (hc : Committed D w) (he : Effect D w a w') : Committed D w' := by
  intro i h1 hi
  by_cases hold : i ≤ w.billCounter
  · have hterms := he.extends.bill i hold
    simp only [Bill.terms, Prod.mk.injEq] at hterms
    rw [hterms.1, hterms.2.2]
    exact hc i h1 hold
  · -- a new number is only given out by `commit`, to the caller
    cases he with
    | commit hself _ hword =>
      have hnew : i = w.billCounter + 1 := by
        dsimp only at hi
        omega
      subst hnew
      dsimp only
      rw [update_self]
      exact ⟨hself, hword⟩
    | tick | token | setTokenAllowed | setDisputeWindow | setSettleDelay | setDisputeResolver
    | setFrozen | setOperator | revoke | bind | cancelBinding | markDisputed | buyerConfirm
    | submitSettlement | submitBreach | finalizeSettlement | finalizeBreach => exact absurd hi hold

theorem Reach.committed (hr : Reach D h w) : Committed D w := by
  refine hr.safe (P := Committed D) (fun w hw i h1 hi => ?_) fun w a w' hc hstep =>
    hc.effect (effect_of_step hstep)
  rw [hw.billCounter] at hi
  omega

theorem Committed.parties (hc : Committed D w) (hs : w.Sound) (hlive : (w.bindings b).state.Live) :
    (w.bills (w.bindings b).buyerBillId).owner ≠ D.self ∧
      (w.bills (w.bindings b).sellerBillId).owner ≠ D.self := by
  obtain ⟨hbuyer, hseller⟩ := hs.backed b hlive
  have h1 := hs.bill_range (i := (w.bindings b).buyerBillId) (by rw [hbuyer]; simp)
  have h2 := hs.bill_range (i := (w.bindings b).sellerBillId) (by rw [hseller]; simp)
  exact ⟨(hc _ h1.1 h1.2).1, (hc _ h2.1 h2.2).1⟩

theorem balanceOf_self_of_pull {tokens : Address → Erc20 Address} {p : Pull} {T : Erc20 Address}
    (hpull : (tokens p.token).transferFrom D.self p.source p.target p.amount = some T)
    (hsource : p.source ≠ D.self) (htarget : p.target ≠ D.self) (t : Address) :
    (update tokens p.token T t).balanceOf D.self = (tokens t).balanceOf D.self := by
  obtain ⟨-, -, -, -, rfl⟩ := Erc20.transferFrom_eq_some.mp hpull
  rcases eq_or_ne t p.token with rfl | ht
  · rw [update_self, Erc20.move_balanceOf_of_ne hsource.symm htarget.symm, Erc20.spend_balanceOf]
  · rw [update_of_ne ht]

theorem Effect.balanceOf_self {sender : Address} {c : Call} (he : Effect D w (.call sender c) w')
    (hs : w.Sound) (hc : Committed D w) (t : Address) :
    (w'.tokens t).balanceOf D.self = (w.tokens t).balanceOf D.self := by
  cases he with
  | setTokenAllowed | setDisputeWindow | setSettleDelay | setDisputeResolver | setFrozen | commit
  | setOperator | revoke | bind | cancelBinding | markDisputed | buyerConfirm | submitSettlement
  | submitBreach => rfl
  | finalizeSettlement _ hst _ _ hpull _ =>
    obtain ⟨hbuyer, hseller⟩ := hc.parties hs (by rw [hst]; trivial)
    exact balanceOf_self_of_pull hpull hbuyer hseller t
  | finalizeBreach _ hst _ _ _ hpull _ =>
    obtain ⟨hbuyer, hseller⟩ := hc.parties hs (by rw [hst]; trivial)
    exact balanceOf_self_of_pull hpull hseller hbuyer t

theorem direction_gate (hr : Reach D h w) (b : ℕ) : ((w.bindings b).state = .settled ↔
      pullsOf b h = [w.payment b] ∧ lastRuling b h = some .settlement) ∧
    ((w.bindings b).state = .slashed ↔
      pullsOf b h = [w.slashing b] ∧ lastRuling b h = some .breach) ∧
    ((w.bindings b).state ≠ .settled → (w.bindings b).state ≠ .slashed → pullsOf b h = []) ∧
    (∀ e ∈ h, (e.pre.bindings b).state = .finalizing →
      (e.post.bindings b).state = .finalizing ∨ (e.post.bindings b).state = .settled ∨
        (e.post.bindings b).state = .slashed) ∧
    (∀ e ∈ h, (e.pre.bindings b).state = .disputed → (e.post.bindings b).state = .cancelled →
      e.act = .call e.pre.disputeResolver (.cancelBinding b)) ∧
    (∀ e ∈ h, (e.pre.bindings b).state ∈ [.settled, .slashed, .cancelled] →
      e.post.bindings b = e.pre.bindings b) ∧
    (∀ e ∈ h, ∀ sender c, e.act = .call sender c → ∀ t,
      (e.post.tokens t).balanceOf D.self = (e.pre.tokens t).balanceOf D.self) := by
  have hd := Reach.directed hr b
  -- a binding with a pull on its account is settled or slashed
  have hpaid : ∀ {p : Pull}, pullsOf b h = [p] →
      (w.bindings b).state = .settled ∨ (w.bindings b).state = .slashed := by
    intro p hp
    by_contra hne
    rw [not_or] at hne
    rw [hd.unpaid hne.1 hne.2] at hp
    contradiction
  refine ⟨⟨hd.settled, fun ⟨hp, hl⟩ => ?_⟩, ⟨hd.slashed, fun ⟨hp, hl⟩ => ?_⟩, hd.unpaid,
    fun e he hst => ?_, fun e he hst hst' => ?_, fun e he hst => ?_, fun e he sender c hact t => ?_⟩
  · refine (hpaid hp).resolve_right fun hsl => ?_
    rw [(hd.slashed hsl).2] at hl
    contradiction
  · refine (hpaid hp).resolve_left fun hset => ?_
    rw [(hd.settled hset).2] at hl
    contradiction
  all_goals
    obtain ⟨h', hr', hstep⟩ := hr.of_mem he
    have heff := effect_of_step hstep
    have hs := Reach.sound hr'
  · exact (heff.life b).of_finalizing hs hst
  · exact (heff.life b).of_disputed hs hst hst'
  · simp only [List.mem_cons, List.not_mem_nil, or_false] at hst
    refine (heff.life b).of_finished hs ?_ ?_ <;> rcases hst with hst | hst | hst <;> rw [hst] <;>
      simp [BindingState.Live]
  · rw [hact] at heff
    exact heff.balanceOf_self hs (Reach.committed hr') t

open Sample

theorem direction_gate_sample : ((world settling).bindings 1).state = .settled ∧
      pullsOf 1 (history settling) = [⟨token, buyer, seller, 40⟩] := by
  have hst : ((world settling).bindings 1).state = .settled := by decide +kernel
  have hpay : (world settling).payment 1 = ⟨token, buyer, seller, 40⟩ := by decide +kernel
  refine ⟨hst, ?_⟩
  rw [((direction_gate (reach _ (by decide +kernel)) 1).1.mp hst).1, hpay]

end Karma.AllowanceEscrow
