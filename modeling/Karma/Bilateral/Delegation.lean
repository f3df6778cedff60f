import Karma.Bilateral.Payments
import Karma.IdentityRegistry.Envelope

/-! # `KarmaBilateral` — delegated locks

`lockFor` lets a sub-wallet lock tokens of `master`. -/

namespace Karma.Bilateral

open Evm Relation IdentityRegistry

variable {D : Deployment} {h : History} {w w' : World} {a : Act} {s : Address}

/-! ## The core and its registry -/

def Wired (D : Deployment) (h : History) : Prop :=
  ∀ e ∈ h, e.pre.identityRegistry = 0 ∨ e.pre.identityRegistry = D.registry

instance (D : Deployment) : DecidablePred (Wired D) := fun h => List.decidableBAll _ h

theorem wired_cons : Wired D (⟨w, a, w'⟩ :: h) ↔
    (w.identityRegistry = 0 ∨ w.identityRegistry = D.registry) ∧ Wired D h :=
  List.forall_mem_cons

inductive RegistryTurn (D : Deployment) (w w' : World) : Act → Prop
  | others {a : Act} :
      (∀ sender env token amount master, a ≠ .call sender env (.lockFor token amount master)) →
      ReflTransGen (Step D.self) w.fresh.registry w'.registry → RegistryTurn D w w' a
  | consumed {sender token master : Address} {env : Env} {amount : ℕ} :
      (IdentityRegistry.consumeAuthorization D.self w.now D.self sender amount
        w.fresh.registry).result = .ok (true, w'.registry) →
      w'.moves = [.pulled token master amount] →
      RegistryTurn D w w' (.call sender env (.lockFor token amount master))

theorem registryTurn_of_step (hs : Sound D w)
    (hwired : w.identityRegistry = 0 ∨ w.identityRegistry = D.registry)
    (h : step D w a = some w') : RegistryTurn D w w' a := by
  cases transition_of_step hs h with
  | tick => exact .others (by simp) .refl
  | outside _ hf => exact .others (by simp) (hf.registry hs.now)
  | call _ _ he =>
    cases he with
    | lock _ _ hd => exact .others (by simp) hd.registry
    | unlock _ _ _ hd => exact .others (by simp) hd.registry
    | lockFor _ _ hc hd =>
      -- a delegated lock that succeeded found a registry, and the only one is the core's own
      exact .consumed (hc.own (hwired.resolve_left hc.isSet)) hd.moves
    | bind hp _ _ _ hd =>
      refine .others ?_ hd.registry
      rintro _ _ _ _ _ ⟨rfl, rfl, rfl⟩
      cases hp
    | revise hb _ _ _ _ hd =>
      refine .others ?_ hd.registry
      rintro _ _ _ _ _ ⟨rfl, rfl, rfl⟩
      cases hb
    | close hb _ _ _ _ hc =>
      obtain ⟨ms, -, hd⟩ := hc
      refine .others ?_ hd.registry
      rintro _ _ _ _ _ ⟨rfl, rfl, rfl⟩
      cases hb

/-! ## Envelopes along a history -/

def pulledIn (ms : List Move) : ℕ :=
  (ms.map fun
    | .pulled _ _ n => n
    | _ => 0).sum

def delegatedPull (s : Address) (e : Entry World Act) : ℕ :=
  match e.act with
  | .call sender _ (.lockFor _ _ _) => if sender = s then pulledIn e.post.moves else 0
  | _ => 0

theorem delegatedPull_lockFor (s sender token master : Address) (env : Env) (amount : ℕ) :
    delegatedPull s ⟨w, .call sender env (.lockFor token amount master), w'⟩ =
      if sender = s then pulledIn w'.moves else 0 := rfl

def grantOf (s : Address) : History → Grant
  | [] => {}
  | e :: h =>
    (e.post.registry.events.foldl (Grant.after s) (grantOf s h)).consume (delegatedPull s e)

theorem Reach.keeps (hr : Reach D h w) (hwired : Wired D h) (s : Address) :
    w.registry.Sound ∧ w.registry.Keeps s (grantOf s h) := by
  revert hwired
  refine hr.invariant (P := fun h w => Wired D h →
    w.registry.Sound ∧ w.registry.Keeps s (grantOf s h)) ?_ ?_
  · intro w hw _
    rw [hw.registry]
    refine ⟨⟨fun m id hid => ?_, fun id hadded => absurd rfl hadded, fun id _ hadded =>
      absurd rfl hadded⟩, fun _ => rfl, le_rfl, fun id hadded => absurd rfl hadded⟩
    exact absurd hid List.not_mem_nil
  · intro h w a w' hr ih hstep hwired
    rw [wired_cons] at hwired
    obtain ⟨hs, hk⟩ := ih hwired.2
    -- clearing the receipts of the last transaction touches no record
    have hfresh : w.fresh.registry.Sound := ⟨hs.listed, hs.added, hs.unique⟩
    have hkfresh : w.fresh.registry.Keeps s (grantOf s h) := ⟨hk.unknown, hk.within, hk.left⟩
    cases registryTurn_of_step (Reach.sound hr) hwired.1 hstep with
    | others hne hsteps =>
      obtain ⟨hs', es, hevents, hk'⟩ := keeps_of_steps hsteps hfresh hkfresh
      obtain rfl : w'.registry.events = es := hevents
      have hpull : delegatedPull s ⟨w, a, w'⟩ = 0 := by
        unfold delegatedPull
        split
        · rename_i sender env token amount master hact
          exact absurd hact (hne sender env token amount master)
        · rfl
      refine ⟨hs', ?_⟩
      rw [grantOf, hpull]
      exact hk'
    | @consumed sender _ _ _ _ hok hmoves =>
      obtain ⟨hs', hevents, hk'⟩ := consume_keeps hok hfresh hkfresh
      -- consuming emits nothing, so the envelope changes by the pull alone
      have hnone : w'.registry.events = [] := hevents
      refine ⟨hs', ?_⟩
      rw [grantOf, hnone, List.foldl_nil, delegatedPull_lockFor, hmoves]
      by_cases hsub : sender = s
      · rw [if_pos hsub] at hk' ⊢
        exact hk'
      · rw [if_neg hsub] at hk' ⊢
        exact hk'

/-! ## Inside the delegation -/

def Delegated (w : World) (m s : Address) : Prop :=
  ∃ id ∈ w.registry.masterSubAgentIds m, w.registry.ActiveAs s id ∧
    ¬ ((w.registry.subAgentById id).expiresAt ≠ 0 ∧ (w.registry.subAgentById id).expiresAt ≤ w.now)

instance (w : World) (m s : Address) : Decidable (Delegated w m s) :=
  List.decidableBEx _ (w.registry.masterSubAgentIds m)

def NamesOwnMaster (w : World) (sender : Address) : Call → Prop
  | .lockFor _ _ master => master = sender ∨ w.registry.subAgentMaster sender = master
  | _ => True

theorem delegated_iff_of_consumed {m : Address} {amount : ℕ} {R : Registry} (hs : w.registry.Sound)
    (hok : (IdentityRegistry.consumeAuthorization D.self w.now D.self s amount
      w.fresh.registry).result = .ok (true, R)) :
    (s = m ∨ Delegated w m s) ↔ (m = s ∨ w.registry.subAgentMaster s = m) := by
  constructor
  · rintro (rfl | ⟨id, hid, ⟨hwallet, -⟩, -⟩)
    · exact .inl rfl
    · obtain ⟨hadded, hm⟩ := hs.listed m id hid
      have hown := (hs.added id hadded).1
      rw [hwallet, hm] at hown
      exact .inr hown
  · rintro (rfl | rfl)
    · exact .inl rfl
    · -- the record that was charged is listed under the caller's own master
      obtain ⟨id, hid, hcovers, -⟩ := consumeAuthorization_eq_true hok
      obtain ⟨hlisted, hactive⟩ := activeId_eq_some hid
      exact .inr ⟨id, hlisted, hactive, hcovers.1⟩

theorem amount_le_perTxLimit {g : Grant} {amount : ℕ} {R : Registry} (hs : w.registry.Sound)
    (hk : w.registry.Keeps s g)
    (hok : (IdentityRegistry.consumeAuthorization D.self w.now D.self s amount
      w.fresh.registry).result = .ok (true, R)) (hcap : g.perTxLimit ≠ 0) :
    amount ≤ g.perTxLimit := by
  obtain ⟨id, hid, hcovers, -⟩ := consumeAuthorization_eq_true hok
  obtain ⟨hlisted, hactive⟩ := activeId_eq_some hid
  obtain ⟨-, hlimit⟩ := hk.left id (hs.listed _ id hlisted).1 hactive
  change (w.registry.subAgentById id).perTxLimit = g.perTxLimit at hlimit
  rw [← hlimit] at hcap ⊢
  by_contra hlt
  exact hcovers.2.1 ⟨hcap, not_le.mp hlt⟩

theorem Turn.pulled {t m : Address} {n : ℕ} (ht : Turn w w' a) (hm : .pulled t m n ∈ w'.moves) :
    ∃ sender env c, a = .call sender env c ∧ c.mints sender = some (m, t, n) := by
  cases ht with
  | quiet _ _ hmoves | pair _ _ _ _ _ hmoves | revise _ _ _ _ _ _ hmoves =>
    rw [hmoves] at hm
    simp at hm
  | mint hc _ _ hmoves =>
    rw [hmoves, List.mem_singleton] at hm
    obtain ⟨rfl, rfl, rfl⟩ := Move.pulled.inj hm
    exact ⟨_, _, _, rfl, hc⟩
  -- a payout consists of transfers and approvals
  | close _ _ _ _ _ _ hpay => rcases hpay.only _ hm with ⟨_, h⟩ | ⟨_, h⟩ | ⟨_, _, h⟩ <;> cases h
  | release _ _ _ _ hmoves =>
    rw [hmoves, List.mem_singleton] at hm
    cases hm

/-- **Delegated locks.** -/
theorem delegated_iff (hr : Reach D h w) (hwired : Wired D h) :
    (∀ e ∈ h, ∀ t m n, .pulled t m n ∈ e.post.moves → ∃ sender env c,
      e.act = .call sender env c ∧ c.mints sender = some (m, t, n) ∧
        ((sender = m ∨ Delegated e.pre m sender) ↔ NamesOwnMaster e.pre sender c)) ∧
    (∀ s, (grantOf s h).consumed ≤ (grantOf s h).allowance) ∧
    ∀ later e before, h = later ++ e :: before → ∀ s env t n m,
      e.act = .call s env (.lockFor t n m) → (grantOf s before).perTxLimit ≠ 0 →
        n ≤ (grantOf s before).perTxLimit := by
  -- what is known where a transaction of the run starts, and what it did to the registry
  have hturn : ∀ later e before, h = later ++ e :: before → Sound D e.pre ∧
      step D e.pre e.act = some e.post ∧ (∀ s, e.pre.registry.Sound ∧
        e.pre.registry.Keeps s (grantOf s before)) ∧ RegistryTurn D e.pre e.post e.act := by
    rintro later e before rfl
    obtain ⟨hbefore, hstep⟩ := hr.of_append
    have hs : Sound D e.pre := Reach.sound hbefore
    refine ⟨hs, hstep, Reach.keeps hbefore fun e' he' => hwired e' ?_,
      registryTurn_of_step hs (hwired e ?_) hstep⟩
    · exact List.mem_append_right _ (List.mem_cons_of_mem _ he')
    · exact List.mem_append_right _ List.mem_cons_self
  refine ⟨fun e he t m n hm => ?_, fun s => (hr.keeps hwired s).2.within,
    fun later e before hh s env t n m hact hcap => ?_⟩
  · obtain ⟨later, before, hh⟩ := List.append_of_mem he
    obtain ⟨hs, hstep, hk, hreg⟩ := hturn later e before hh
    obtain ⟨sender, env, c, hact, hc⟩ := (turn_of_step hs hstep).pulled hm
    refine ⟨sender, env, c, hact, hc, ?_⟩
    cases c with
    | lock token amount =>
      obtain rfl : sender = m := congrArg Prod.fst (Option.some.inj hc)
      exact ⟨fun _ => trivial, fun _ => .inl rfl⟩
    | lockFor token amount master =>
      obtain rfl : master = m := congrArg Prod.fst (Option.some.inj hc)
      rw [hact] at hreg
      cases hreg with
      | others hne => exact absurd rfl (hne sender env token amount master)
      | consumed hok => exact delegated_iff_of_consumed (hk sender).1 hok
    | _ => cases hc
  · obtain ⟨hs, hstep, hk, hreg⟩ := hturn later e before hh
    rw [hact] at hreg
    cases hreg with
    | others hne => exact absurd rfl (hne s env t n m)
    | consumed hok => exact amount_le_perTxLimit (hk s).1 (hk s).2 hok hcap

namespace Sample

def master : Address := .ofNat 12

def subAgent : Address := .ofNat 13

def delegating : List Act :=
  [.outside (.core deployment.admin (.setTokenAllowed token true)),
    .outside (.core deployment.admin (.setIdentityRegistry deployment.registry)),
    .outside (.erc20 master token (.approve deployment.self 150)),
    .call master {} (.lock token 100),
    .outside (.registry master (.registerIdentity 1#256)),
    .outside (.registry master (.addSubAgent subAgent 2#256)),
    .outside (.registry master (.setSubAgentBounds subAgent 100 60 0)),
    .outside (.erc20 buyer token (.approve deployment.self 80))]

def delegatedLock : List Act := delegating ++ [.call subAgent {} (.lockFor token 50 master)]

end Sample

open Sample

theorem delegated_iff_sample : grantOf subAgent (history delegatedLock) = ⟨100, 60, 50⟩ ∧
      (grantOf subAgent (history delegatedLock)).consumed ≤
        (grantOf subAgent (history delegatedLock)).allowance :=
  ⟨by decide +kernel, (delegated_iff (reach delegatedLock (by decide +kernel))
      (by decide +kernel)).2.1 _⟩

/-- **Pulled without delegation.** In the sample run a sub-agent of somebody else locks 60 of the
buyer's tokens, only because the buyer has approved the core. -/
theorem pulled_without_delegation : ∃ h w w', Reach deployment
        (⟨w, .call subAgent {} (.lockFor token 60 buyer), w'⟩ :: h) w' ∧
      Wired deployment (⟨w, .call subAgent {} (.lockFor token 60 buyer), w'⟩ :: h) ∧
      w'.moves = [.pulled token buyer 60] ∧ subAgent ≠ buyer ∧
      ¬ Delegated w buyer subAgent := by
  obtain ⟨w', hstep⟩ := Option.isSome_iff_exists.mp (show (step deployment
    (world delegating) (.call subAgent {} (.lockFor token 60 buyer))).isSome by decide +kernel)
  have hmoves : ((step deployment (world delegating) (.call subAgent {}
      (.lockFor token 60 buyer))).map World.moves) =
        some [.pulled token buyer 60] := by decide +kernel
  rw [hstep, Option.map_some] at hmoves
  have hr := reach delegating (by decide +kernel)
  have hnow : (world delegating).identityRegistry = deployment.registry := by
    decide +kernel
  have hwired : Wired deployment (history delegating) := by decide +kernel
  have hstray : ¬ Delegated (world delegating) buyer subAgent := by
    decide +kernel
  exact ⟨history delegating, world delegating, w', hr.next hstep,
    wired_cons.mpr ⟨.inr hnow, hwired⟩, Option.some.inj hmoves, by decide, hstray⟩

end Karma.Bilateral
