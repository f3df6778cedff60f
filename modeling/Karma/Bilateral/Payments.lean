import Karma.Bilateral.Accounting

/-! # `KarmaBilateral` — each binding is paid once, and in full

`Turn w w' a` is what a transaction `a` does to the book and which token calls it makes. -/

namespace Karma.Bilateral

open Evm Function

variable {D : Deployment} {h : History} {w w' : World} {a : Act}

/-! ## What a transaction does to the book -/

def Call.mints (sender : Address) : Call → Option (Address × Address × ℕ)
  | .lock token amount => some (sender, token, amount)
  | .lockFor token amount master => some (master, token, amount)
  | _ => none

inductive Turn (w w' : World) : Act → Prop
  | quiet {a : Act} :
      (∀ sender env c, a ≠ .call sender env c) → w'.book = w.book → w'.moves = [] → Turn w w' a
  | mint {sender owner token : Address} {env : Env} {c : Call} {amount : ℕ} :
      c.mints sender = some (owner, token, amount) → owner ≠ 0 →
      w'.book = w.book.mint owner token amount → w'.moves = [.pulled token owner amount] →
      Turn w w' (.call sender env c)
  | pair {sender : Address} {env : Env} {c : Call} {x : Binding} :
      c.pairs = some (x.buyerBillId, x.agentBillId) →
      Bindable w sender x.buyerBillId x.agentBillId → x.Live →
      x.state = .active ∨ x.state = .pending → w'.book = w.book.pair x → w'.moves = [] →
      Turn w w' (.call sender env c)
  | revise {sender : Address} {env : Env} {c : Call} {b : ℕ} {x : Binding} :
      c.binding = some b → (w.bindings b).Live → x.Revises (w.bindings b) → x.state.Open →
      x.state = (w.bindings b).state ∨ (w.bindings b).state.Next x.state →
      w'.book = w.book.revise b x → w'.moves = [] → Turn w w' (.call sender env c)
  | close {sender : Address} {env : Env} {c : Call} {b : ℕ} {x : Binding} :
      c.binding = some b → (w.bindings b).Live → x.Revises (w.bindings b) → ¬ x.state.Open →
      (w.bindings b).state.Next x.state → w'.book = w.book.close b x →
      Payout w.book x w'.moves → Turn w w' (.call sender env c)
  | release {sender : Address} {env : Env} {i : ℕ} :
      (w.bill i).owner = sender → (w.bill i).owner ≠ 0 → (w.bill i).state = .minted →
      w'.book = w.book.release i →
      w'.moves = [.sent (w.bill i).token sender (w.bill i).amount] →
      Turn w w' (.call sender env (.unlock i))

theorem turn_of_step (hs : Sound D w) (h : step D w a = some w') : Turn w w' a := by
  cases transition_of_step hs h with
  | tick => exact .quiet (by simp) rfl rfl
  | outside _ hf => exact .quiet (by simp) (hf.book hs.fresh.wf) hf.moves
  | call _ _ he =>
    cases he with
    | lock howner _ hd => exact .mint rfl howner hd.book hd.moves
    | lockFor howner _ _ hd => exact .mint rfl howner hd.book hd.moves
    | bind hp hb hlive hst hd =>
      exact .pair hp ⟨hb.buyer, hb.agent, hb.sender, hb.buyer_minted, hb.agent_minted,
        hb.owners_ne, hb.token_eq⟩ hlive hst hd.book hd.moves
    | revise hb hlive hx hopen hnext hd => exact .revise hb hlive hx hopen hnext hd.book hd.moves
    | close hb hlive hx hclosed hnext hc =>
      obtain ⟨ms, hpay, hd⟩ := hc
      refine .close hb hlive hx hclosed hnext hd.book ?_
      rw [hd.moves]
      exact hpay
    | unlock howner hsender hst hd => exact .release hsender howner hst hd.book hd.moves

inductive BillTurn (w w' : World) (i : ℕ) : Act → Prop
  | same {a : Act} : w'.bill i = w.bill i → BillTurn w w' i a
  | minted {sender owner token : Address} {env : Env} {c : Call} {amount : ℕ} :
      c.mints sender = some (owner, token, amount) → w.billCounter + 1 = i →
      w'.bill i = { owner, state := .minted, token, amount } →
      w'.moves = [.pulled token owner amount] → BillTurn w w' i (.call sender env c)
  | bound {sender : Address} {env : Env} {c : Call} {x : Binding} :
      c.pairs = some (x.buyerBillId, x.agentBillId) →
      Bindable w sender x.buyerBillId x.agentBillId → x.Holds i →
      w'.bill i = (w.bill i).withState .bound → BillTurn w w' i (.call sender env c)
  | paid {sender : Address} {env : Env} {c : Call} {b : ℕ} :
      c.binding = some b → (w.bindings b).Live → (w.bindings b).Holds i →
      w'.bill i = (w.bill i).withState .burned → BillTurn w w' i (.call sender env c)
  | withdrawn {sender : Address} {env : Env} :
      (w.bill i).owner = sender → (w.bill i).state = .minted →
      w'.bill i = (w.bill i).withState .burned →
      w'.moves = [.sent (w.bill i).token sender (w.bill i).amount] →
      BillTurn w w' i (.call sender env (.unlock i))

theorem Turn.billTurn (ht : Turn w w' a) (i : ℕ) : BillTurn w w' i a := by
  have hbook : ∀ {B : Book}, w'.book = B → w'.bill i = B.bill i := fun h =>
    congrFun (congrArg Book.bill h) i
  cases ht with
  | quiet _ h | revise _ _ _ _ _ h => exact .same (hbook h)
  | mint hc _ h hmoves =>
    rcases eq_or_ne i (w.billCounter + 1) with rfl | hne
    · exact .minted hc rfl ((hbook h).trans (update_self ..)) hmoves
    · exact .same ((hbook h).trans (update_of_ne hne _ _))
  | @pair _ _ _ x hc hb _ _ h =>
    by_cases hx : x.Holds i
    · exact .bound hc hb hx ((hbook h).trans (Book.setBoth_of_holds .bound hx))
    · exact .same ((hbook h).trans (Book.setBoth_of_not_holds .bound hx))
  | @close _ _ _ b x hc hlive hx _ _ h =>
    by_cases hxi : x.Holds i
    · exact .paid hc hlive ((hx.holds i).mp hxi) ((hbook h).trans
        (Book.setBoth_of_holds (B := w.book.revise b x) .burned hxi))
    · exact .same ((hbook h).trans (Book.setBoth_of_not_holds (B := w.book.revise b x) .burned hxi))
  | @release sender env j howner _ hst h hmoves =>
    rcases eq_or_ne i j with rfl | hne
    · exact .withdrawn howner hst ((hbook h).trans (update_self ..)) hmoves
    · exact .same ((hbook h).trans (Book.setState_of_ne .burned i hne))

/-! ## The life of a binding -/

structure Binding.Advances (x y : Binding) : Prop where
  made : x.createdAt = 0 → y = x ∨ y.Live ∧ (y.state = .active ∨ y.state = .pending)
  kept : x.createdAt ≠ 0 → y.Revises x ∧ (y.state = x.state ∨ x.state.Next y.state)

theorem Binding.Advances.refl (x : Binding) : x.Advances x :=
  ⟨fun _ => .inl rfl, fun _ => ⟨⟨rfl, rfl, rfl⟩, .inl rfl⟩⟩

theorem BindingState.Next.isOpen {s s' : BindingState} (h : s.Next s') : s.Open := by
  cases s with
  | active | pending | finalizing | disputed => trivial
  | settled | refunded => exact h.elim

theorem advances_update {f : ℕ → Binding} {b : ℕ} {x : Binding} (hx : (f b).Advances x) (c : ℕ) :
    (f c).Advances (update f b x c) := by
  rcases eq_or_ne c b with rfl | hne
  · rwa [update_self]
  · rw [update_of_ne hne]
    exact .refl _

theorem Turn.binding_advances (hs : Sound D w) (ht : Turn w w' a) (b : ℕ) :
    (w.bindings b).Advances (w'.bindings b) := by
  have hbook : ∀ {B : Book}, w'.book = B → w'.bindings = B.binding := fun h =>
    congrArg Book.binding h
  cases ht with
  | quiet _ h | mint _ _ h | release _ _ _ h =>
    rw [hbook h]
    exact .refl _
  | pair _ _ hlive hst h =>
    rw [hbook h]
    -- the number of the new binding was not in use
    have hnew : (w.bindings (w.bindingCounter + 1)).createdAt = 0 := by
      by_contra hne
      have := ((hs.balanced.paired.binding_iff _).mp hne).2
      simp [World.book] at this
    exact advances_update ⟨fun _ => .inr ⟨hlive, hst⟩, fun hne => absurd hnew hne⟩ b
  | revise _ hlive hx _ hnext h =>
    rw [hbook h]
    exact advances_update ⟨fun h0 => absurd h0 hlive.1, fun _ => ⟨hx, hnext⟩⟩ b
  | close _ hlive hx _ hnext h =>
    rw [hbook h]
    exact advances_update ⟨fun h0 => absurd h0 hlive.1, fun _ => ⟨hx, .inr hnext⟩⟩ b

def Ends (b : ℕ) (e : Entry World Act) : Prop :=
  (e.pre.bindings b).Live ∧ ¬ (e.post.bindings b).Live

instance (b : ℕ) : DecidablePred (Ends b) := fun e => by unfold Ends; infer_instance

theorem not_ends_of_update {b c : ℕ} {x : Binding} (hx : x.Live)
    (h : w'.bindings = update w.bindings c x) : ¬ Ends b ⟨w, a, w'⟩ := by
  rintro ⟨hlive, hdead⟩
  rw [show (⟨w, a, w'⟩ : Entry World Act).post.bindings = update w.bindings c x from h] at hdead
  rcases eq_or_ne b c with rfl | hne
  · rw [update_self] at hdead
    exact hdead hx
  · rw [update_of_ne hne] at hdead
    exact hdead hlive

theorem Turn.pays (ht : Turn w w' a) {b : ℕ} (hb : Ends b ⟨w, a, w'⟩) :
    (∃ sender env c, a = .call sender env c ∧ c.binding = some b) ∧
      Payout w.book (w.bindings b) w'.moves ∧ ∀ k, Ends k ⟨w, a, w'⟩ → k = b := by
  have hbook : ∀ {B : Book}, w'.book = B → w'.bindings = B.binding := fun h =>
    congrArg Book.binding h
  cases ht with
  | quiet _ h | mint _ _ h | release _ _ _ h =>
    refine absurd hb.1 ?_
    rw [show w.bindings = w'.bindings from (hbook h).symm]
    exact hb.2
  | pair _ _ hlive _ h => exact absurd hb (not_ends_of_update hlive (hbook h))
  | revise _ hlive hx hopen _ h =>
    refine absurd hb (not_ends_of_update ⟨?_, hopen⟩ (hbook h))
    rw [hx.createdAt]
    exact hlive.1
  | @close sender env c b' x hc hlive hx _ _ h hpay =>
    -- whatever is not overwritten stays live
    have honly : ∀ k, Ends k ⟨w, .call sender env c, w'⟩ → k = b' := by
      intro k hk
      by_contra hne
      refine hk.2 ?_
      show (w'.bindings k).Live
      rw [hbook h, show (w.book.close b' x).binding k = w.bindings k from
        update_of_ne hne _ _]
      exact hk.1
    obtain rfl := honly b hb
    refine ⟨⟨sender, env, c, rfl, hc⟩, ⟨?_, ?_, ?_⟩, honly⟩
    · have hfull := hpay.full
      rwa [Book.pool, Book.poolToken, hx.buyer, hx.agent] at hfull
    · have hceil := hpay.ceiling
      rwa [Book.pool, Book.poolToken, hx.buyer, hx.agent] at hceil
    · have honly := hpay.only
      rwa [Book.poolToken, hx.buyer, hx.agent] at honly

/-! ## Money leaves once -/

/-- The token calls by which money leaves the core, or may. -/
def Move.Leaves : Move → Prop
  | .sent _ _ _ | .granted _ _ _ => True
  | .pulled _ _ _ => False

def Withdraws (e : Entry World Act) : Prop :=
  ∃ sender env i, e.act = .call sender env (.unlock i) ∧ (e.pre.bill i).owner = sender ∧
    (e.pre.bill i).state = .minted ∧
    e.post.moves = [.sent (e.pre.bill i).token sender (e.pre.bill i).amount]

theorem Turn.leaves (ht : Turn w w' a) {m : Move} (hm : m ∈ w'.moves) (hleaves : m.Leaves) :
    (∃ b, Ends b ⟨w, a, w'⟩) ∨ Withdraws ⟨w, a, w'⟩ := by
  cases ht with
  | quiet _ _ hmoves | pair _ _ _ _ _ hmoves | revise _ _ _ _ _ _ hmoves =>
    rw [hmoves] at hm
    simp at hm
  | mint _ _ _ hmoves =>
    rw [hmoves, List.mem_singleton] at hm
    rw [hm] at hleaves
    exact hleaves.elim
  | @close _ _ _ b x _ hlive _ hclosed _ h =>
    -- the binding that was live is closed now: this is its end
    refine .inl ⟨b, hlive, fun hpost => hclosed ?_⟩
    have hx : w'.bindings b = x :=
      (congrFun (congrArg Book.binding h) b).trans (update_self ..)
    rw [← hx]
    exact hpost.2
  | @release sender env i howner _ hst _ hmoves =>
    exact .inr ⟨sender, env, i, rfl, howner, hst, hmoves⟩

theorem outflow_le (hs : Sound D w) (h : step D w a = some w') (t : Address) :
    (w.tokens t).balanceOf D.self + (w'.tokens t).granted D.self ≤
      (w'.tokens t).balanceOf D.self + (w.tokens t).granted D.self + spentOn t w'.moves := by
  have ht := transition_of_step hs h
  have hpost : w'.totalLocked t + (w'.tokens t).granted D.self ≤ (w'.tokens t).balanceOf D.self :=
    (ht.sound hs).solvent t
  have hdeals : ∀ {B ms}, Deals D w.fresh w' B ms → ∀ n,
      (w.tokens t).Backs D.self (n + spentOn t w'.moves) → (w'.tokens t).Backs D.self n := by
    intro B ms hd n hb
    rw [hd.moves] at hb
    exact hd.backs t n hb
  have hbacks : ∀ n, (w.tokens t).Backs D.self (n + spentOn t w'.moves) →
      (w'.tokens t).Backs D.self n := by
    cases ht with
    | tick => exact fun _ => id
    | outside _ hf =>
      intro n hb
      rw [hf.moves] at hb
      exact hf.backs t n hb
    | call _ _ he =>
      cases he with
      | lock _ _ hd | bind _ _ _ _ hd | revise _ _ _ _ _ hd | unlock _ _ _ hd =>
        exact hdeals hd.toDeals
      | lockFor _ _ _ hd => exact hdeals hd
      | close _ _ _ _ _ hc =>
        obtain ⟨ms, -, hd⟩ := hc
        exact hdeals hd.toDeals
  -- either the holdings cover what is spent, or there was less than that to lose
  unfold Erc20.Backs at hbacks
  by_cases hle : spentOn t w'.moves + (w.tokens t).granted D.self ≤ (w.tokens t).balanceOf D.self
  · have := hbacks ((w.tokens t).balanceOf D.self -
      (spentOn t w'.moves + (w.tokens t).granted D.self)) (by omega)
    omega
  · omega

def Binding.Ended (x : Binding) : Prop := x.createdAt ≠ 0 ∧ ¬ x.state.Open

instance : DecidablePred Binding.Ended := fun x => by unfold Binding.Ended; infer_instance

theorem Binding.Advances.ended {x y : Binding} (h : x.Advances y) : (if y.Ended then 1 else 0) =
      (if x.Live ∧ ¬ y.Live then 1 else 0) + if x.Ended then 1 else 0 := by
  by_cases hx : x.createdAt = 0
  · rcases h.made hx with rfl | ⟨hy, -⟩
    · simp [Binding.Ended, Binding.Live, hx]
    · simp [Binding.Ended, Binding.Live, hx, hy.2]
  · obtain ⟨hrev, hstate⟩ := h.kept hx
    rcases hstate with hsame | hnext
    · simp [Binding.Ended, Binding.Live, hrev.createdAt, hx, hsame]
    · have hopen := hnext.isOpen
      by_cases hy : y.state.Open <;>
        simp [Binding.Ended, Binding.Live, hrev.createdAt, hx, hopen, hy]

theorem Reach.countP_ends (hr : Reach D h w) (b : ℕ) :
    h.countP (fun e => decide (Ends b e)) = if (w.bindings b).Ended then 1 else 0 := by
  refine hr.invariant (P := fun h w =>
    h.countP (fun e => decide (Ends b e)) = if (w.bindings b).Ended then 1 else 0) ?_ ?_
  · intro w hw
    simp [Binding.Ended, hw.ledger]
  · intro h w a w' hr ih hstep
    have hs : Sound D w := Reach.sound hr
    have hadv := (turn_of_step hs hstep).binding_advances hs b
    rw [List.countP_cons, ih, hadv.ended, Nat.add_comm]
    congr 1
    exact if_congr decide_eq_true_iff rfl rfl

def Recorded (h : History) (i : ℕ) (x : BillToken) : Prop :=
  ∃ e ∈ h, ∃ sender env c, e.act = .call sender env c ∧
    c.mints sender = some (x.owner, x.token, x.amount) ∧ e.pre.billCounter + 1 = i ∧
    e.post.bill i = x.withState .minted ∧ e.post.moves = [.pulled x.token x.owner x.amount]

theorem Recorded.later {i : ℕ} {x y : BillToken} {e : Entry World Act} (h' : Recorded h i x)
    (hxy : y.withState .minted = x.withState .minted) : Recorded (e :: h) i y := by
  obtain ⟨e', he', sender, env, c, hact, hc, hi, hpost, hmoves⟩ := h'
  obtain ⟨howner, -, htoken, hamount⟩ := BillToken.mk.inj hxy
  refine ⟨e', List.mem_cons_of_mem _ he', sender, env, c, hact, ?_, hi, ?_, ?_⟩
  · rw [howner, htoken, hamount]
    exact hc
  · rw [hxy]
    exact hpost
  · rw [howner, htoken, hamount]
    exact hmoves

theorem Reach.recorded (hr : Reach D h w) (i : ℕ) (hi : (w.bill i).owner ≠ 0) :
    Recorded h i (w.bill i) := by
  revert hi
  refine hr.invariant (P := fun h w => (w.bill i).owner ≠ 0 → Recorded h i (w.bill i)) ?_ ?_
  · intro w hw hi
    exact absurd (by simp [World.bill, hw.ledger]) hi
  · intro h w a w' hr ih hstep hi
    cases (turn_of_step (Reach.sound hr) hstep).billTurn i with
    | same hb =>
      rw [hb] at hi
      exact (ih hi).later (by rw [hb])
    | bound _ _ _ hb | paid _ _ _ hb | withdrawn _ _ hb =>
      rw [hb] at hi
      exact (ih hi).later (by rw [hb]; rfl)
    | minted hc hcount hb hmoves =>
      -- the transaction itself is the lock
      refine ⟨_, List.mem_cons_self, _, _, _, rfl, ?_, hcount, ?_, ?_⟩
      · rw [hb]
        exact hc
      · rw [hb]
        rfl
      · rw [hb]
        exact hmoves

theorem paid_once_in_full (hr : Reach D h w) : (∀ later e before, h = later ++ e :: before →
      (∀ b, (e.pre.bindings b).Advances (e.post.bindings b)) ∧
      (∀ m ∈ e.post.moves, m.Leaves → (∃ b, Ends b e) ∨ Withdraws e) ∧
      (∀ t, (e.pre.tokens t).balanceOf D.self + (e.post.tokens t).granted D.self ≤
        (e.post.tokens t).balanceOf D.self + (e.pre.tokens t).granted D.self +
          spentOn t e.post.moves) ∧
      ∀ b, Ends b e → (∃ sender env c, e.act = .call sender env c ∧ c.binding = some b) ∧
        (∀ k, Ends k e → k = b) ∧ Payout e.pre.book (e.pre.bindings b) e.post.moves ∧
        Recorded before (e.pre.bindings b).buyerBillId (e.pre.bill (e.pre.bindings b).buyerBillId) ∧
        Recorded before (e.pre.bindings b).agentBillId
          (e.pre.bill (e.pre.bindings b).agentBillId)) ∧
    ∀ b, (w.bindings b).createdAt ≠ 0 → h.countP (fun e => decide (Ends b e)) =
        if (w.bindings b).state = .settled ∨ (w.bindings b).state = .refunded then 1 else 0 := by
  refine ⟨fun later e before hh => ?_, fun b hb => ?_⟩
  · subst hh
    obtain ⟨hbefore, hstep⟩ := hr.of_append
    have hs : Sound D e.pre := Reach.sound hbefore
    have ht := turn_of_step hs hstep
    refine ⟨ht.binding_advances hs, fun m hm => ht.leaves hm, outflow_le hs hstep, fun b hb => ?_⟩
    obtain ⟨hcall, hpay, honly⟩ := ht.pays hb
    have hm := hs.balanced.paired.matched b hb.1.1
    exact ⟨hcall, honly, hpay, Reach.recorded hbefore _ hm.buyer, Reach.recorded hbefore _ hm.agent⟩
  · -- a binding that exists has ended exactly when it is settled or refunded
    rw [hr.countP_ends b]
    refine if_congr ?_ rfl rfl
    simp only [Binding.Ended, hb, ne_eq, not_false_eq_true, true_and]
    cases (w.bindings b).state <;> simp [BindingState.Open]

open Sample

theorem paid_once_in_full_sample : ((world charged).bindings 1).state = .settled ∧
      (history charged).countP (fun e => decide (Ends 1 e)) = 1 ∧
      (world charged).moves = [.granted token (.ofNat 30) 5, .sent token agent 145] := by
  have hst : ((world charged).bindings 1).state = .settled := by decide +kernel
  have hcount := (paid_once_in_full (reach charged (by decide +kernel))).2 1 (by decide +kernel)
  rw [hst] at hcount
  exact ⟨hst, hcount, by decide +kernel⟩

end Karma.Bilateral
