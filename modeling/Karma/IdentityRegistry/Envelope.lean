import Karma.IdentityRegistry.Code

/-! # `KarmaIdentityRegistry` — a sub-agent stays within its envelope

`Effect` is what a successful call from outside does to the registry. -/

namespace Karma.IdentityRegistry

open Evm Relation Function

variable {R R' : Registry} {ctx : Ctx} {sender s bilateral : Address} {id : Bytes32}

/-! ## What a call does -/

theorem activeId_eq_some {master : Address} (h : R.activeId master s = some id) :
    id ∈ R.masterSubAgentIds master ∧ R.ActiveAs s id := by
  refine ⟨List.mem_of_find?_eq_some h, ?_⟩
  simpa using List.find?_some h

inductive Effect (ctx : Ctx) (sender : Address) (R : Registry) : Call → Registry → Prop
  | registerIdentity {masterAgentId : Bytes32} {identities : Address → KarmaIdentity} :
      Effect ctx sender R (.registerIdentity masterAgentId) { R with
          identities, events := R.events ++ [.identityRegistered sender masterAgentId] }
  | addSubAgent {subWallet : Address} {id : Bytes32} :
      R.subAgentMaster subWallet = 0 → (R.subAgentById id).addedAt = 0 →
      Effect ctx sender R (.addSubAgent subWallet id) { R with
          subAgentById := update R.subAgentById id
            { subWallet, subAgentId := id, master := sender, status := .active,
              addedAt := ctx.now },
          masterSubAgentIds := update R.masterSubAgentIds sender
            (R.masterSubAgentIds sender ++ [id]),
          subAgentMaster := update R.subAgentMaster subWallet sender,
          activeSubAgents :=
            update R.activeSubAgents sender (R.activeSubAgents sender + 1),
          events := R.events ++ [.subAgentAdded sender subWallet id] }
  | removeSubAgent {subWallet : Address} {id : Bytes32} {activeSubAgents : Address → ℕ} :
      R.activeId sender subWallet = some id →
      Effect ctx sender R (.removeSubAgent subWallet) { R.setSubAgent id { R.subAgentById id with
            status := .inactive, allowance := 0, perTxLimit := 0, expiresAt := 0,
            removedAt := ctx.now } with
          activeSubAgents, events := R.events ++ [.subAgentDeactivated sender subWallet id] }
  | setSubAgentBounds {subWallet : Address} {id : Bytes32} {allowance perTxLimit expiresAt : ℕ} :
      R.activeId sender subWallet = some id →
      Effect ctx sender R (.setSubAgentBounds subWallet allowance perTxLimit expiresAt)
        { R.setSubAgent id { R.subAgentById id with allowance, perTxLimit, expiresAt } with
          events := R.events ++
            [.subAgentBoundsUpdated sender subWallet allowance perTxLimit expiresAt] }

section Wp

variable {I : Registry → Prop}

@[simp] theorem wp_emit (e : Event) (Q : Unit → Registry → Prop) (E : Error → Prop) :
    (emit e).wp I E Q R ↔ Q () { R with events := R.events ++ [e] } := by
  simp [emit]

theorem wp_totalAllowance {Q : ℕ → Registry → Prop} (hQ : ∀ n, Q n R) (ids : List Bytes32)
    (acc : ℕ) : (totalAllowance R' ids acc).wp I (fun _ => True) Q R := by
  induction ids generalizing acc with
  | nil =>
    rw [totalAllowance, Tx.wp_pure]
    exact hQ acc
  | cons id ids ih =>
    simp only [totalAllowance, Tx.post_code]
    exact ⟨fun _ _ => ih _, fun _ => ih _⟩

theorem wp_exec (hsender : sender ≠ bilateral) (c : Call) :
    (exec bilateral ctx sender c).wp I (fun _ => True)
      (fun _ R' => Effect ctx sender R c R') R := by
  cases c with
  | registerIdentity masterAgentId =>
    simp only [exec, registerIdentity, Tx.post_code, wp_emit]
    exact fun _ => .registerIdentity
  | addSubAgent subWallet id =>
    simp only [exec, addSubAgent, requireIdentity, Tx.post_code, wp_emit]
    intro _ _ _ _ hmaster hadded
    exact .addSubAgent (not_not.mp hmaster) (not_not.mp hadded)
  | removeSubAgent subWallet =>
    simp only [exec, removeSubAgent, requireIdentity, findActiveSubAgentId, Tx.post_code, wp_emit]
    exact fun _ id hid _ _ => .removeSubAgent hid
  | setSubAgentBounds subWallet allowance perTxLimit expiresAt =>
    simp only [exec, setSubAgentBounds, requireIdentity, findActiveSubAgentId, Tx.post_code,
      wp_emit]
    intro _ id hid _ _
    exact wp_totalAllowance (fun _ _ => .setSubAgentBounds hid) _ _
  | consumeAuthorization subWallet amount =>
    simp only [exec, consumeAuthorization, Tx.post_code]
    exact fun h => absurd hsender h

end Wp

theorem Step.effect (h : Step bilateral R R') :
    ∃ ctx sender c, 0 < ctx.now ∧ sender ≠ 0 ∧ Effect ctx sender R c R' := by
  obtain ⟨ctx, sender, c, hnow, hzero, hne, hok⟩ := h
  exact ⟨ctx, sender, c, hnow, hzero, Tx.wp_ok (wp_exec (I := fun _ => True) hne c) hok⟩

/-! ## The records fit together -/

/-- **The records fit together**. -/
structure Registry.Sound (R : Registry) : Prop where
  listed : ∀ m, ∀ id ∈ R.masterSubAgentIds m,
    (R.subAgentById id).addedAt ≠ 0 ∧ (R.subAgentById id).master = m
  added : ∀ id, (R.subAgentById id).addedAt ≠ 0 →
    R.subAgentMaster (R.subAgentById id).subWallet = (R.subAgentById id).master ∧
      (R.subAgentById id).master ≠ 0
  unique : ∀ id id', (R.subAgentById id).addedAt ≠ 0 → (R.subAgentById id').addedAt ≠ 0 →
    (R.subAgentById id).subWallet = (R.subAgentById id').subWallet → id = id'

structure SubAgent.Revises (x y : SubAgent) : Prop where
  subWallet : x.subWallet = y.subWallet
  master : x.master = y.master
  addedAt : x.addedAt = y.addedAt

theorem Registry.Sound.rewrite (h : R.Sound) (hids : R'.masterSubAgentIds = R.masterSubAgentIds)
    (hmaster : R'.subAgentMaster = R.subAgentMaster)
    (hrev : ∀ id, (R'.subAgentById id).Revises (R.subAgentById id)) : R'.Sound := by
  refine ⟨fun m id hid => ?_, fun id hadded => ?_, fun id id' hadded hadded' hwallet => ?_⟩
  · rw [(hrev id).addedAt, (hrev id).master]
    rw [hids] at hid
    exact h.listed m id hid
  · rw [(hrev id).addedAt] at hadded
    rw [hmaster, (hrev id).subWallet, (hrev id).master]
    exact h.added id hadded
  · rw [(hrev id).addedAt] at hadded
    rw [(hrev id').addedAt] at hadded'
    rw [(hrev id).subWallet, (hrev id').subWallet] at hwallet
    exact h.unique id id' hadded hadded' hwallet

@[simp] theorem setSubAgent_subAgentById (R : Registry) (id : Bytes32) (sa : SubAgent) :
    (R.setSubAgent id sa).subAgentById = update R.subAgentById id sa := rfl

variable {sa : SubAgent}

theorem setSubAgent_revises (h : sa.Revises (R.subAgentById id)) (k : Bytes32) :
    ((R.setSubAgent id sa).subAgentById k).Revises (R.subAgentById k) := by
  rw [setSubAgent_subAgentById]
  rcases eq_or_ne k id with rfl | hne
  · rw [update_self]
    exact h
  · rw [update_of_ne hne]
    exact ⟨rfl, rfl, rfl⟩

theorem Registry.Sound.add (h : R.Sound) (sa : SubAgent) (hadded : sa.addedAt ≠ 0)
    (hne : sa.master ≠ 0) (hmaster : R.subAgentMaster sa.subWallet = 0)
    (hnew : (R.subAgentById id).addedAt = 0)
    (hids : R'.masterSubAgentIds =
      update R.masterSubAgentIds sa.master (R.masterSubAgentIds sa.master ++ [id]))
    (hmasters : R'.subAgentMaster = update R.subAgentMaster sa.subWallet sa.master)
    (hrecords : R'.subAgentById = update R.subAgentById id sa) : R'.Sound := by
  -- no record that was added is overwritten, and none is of the new sub-wallet
  have hold : ∀ k, (R.subAgentById k).addedAt ≠ 0 → R'.subAgentById k = R.subAgentById k := by
    intro k hk
    rw [hrecords, update_of_ne (fun he => hk (by rw [he, hnew]))]
  have hself : R'.subAgentById id = sa := by rw [hrecords, update_self]
  have hother : ∀ k, (R.subAgentById k).addedAt ≠ 0 →
      (R.subAgentById k).subWallet ≠ sa.subWallet := by
    intro k hk he
    obtain ⟨heq, hne⟩ := h.added k hk
    rw [he, hmaster] at heq
    exact hne heq.symm
  have hcases : ∀ k, (R'.subAgentById k).addedAt ≠ 0 →
      k = id ∨ (R.subAgentById k).addedAt ≠ 0 ∧ R'.subAgentById k = R.subAgentById k := by
    intro k hk
    rcases eq_or_ne k id with rfl | hne
    · exact .inl rfl
    · have hsame : R'.subAgentById k = R.subAgentById k := by
        rw [hrecords, update_of_ne hne]
      rw [hsame] at hk
      exact .inr ⟨hk, hsame⟩
  refine ⟨fun m k hk => ?_, fun k hk => ?_, fun k k' hk hk' hwallet => ?_⟩
  · have hlist : k ∈ R.masterSubAgentIds m ∨ m = sa.master ∧ k = id := by
      rw [hids] at hk
      rcases eq_or_ne m sa.master with rfl | hne
      · rw [update_self, List.mem_append, List.mem_singleton] at hk
        exact hk.imp_right fun hk => ⟨rfl, hk⟩
      · rw [update_of_ne hne] at hk
        exact .inl hk
    rcases hlist with hk | ⟨rfl, rfl⟩
    · obtain ⟨hk, hm⟩ := h.listed m k hk
      rw [hold k hk]
      exact ⟨hk, hm⟩
    · rw [hself]
      exact ⟨hadded, rfl⟩
  · rcases hcases k hk with rfl | ⟨hadded, hsame⟩
    · rw [hself, hmasters, update_self]
      exact ⟨rfl, hne⟩
    · rw [hsame, hmasters, update_of_ne (hother k hadded)]
      exact h.added k hadded
  · rcases hcases k hk with rfl | ⟨hadded, hsame⟩ <;>
      rcases hcases k' hk' with rfl | ⟨hadded', hsame'⟩
    · rfl
    · rw [hself, hsame'] at hwallet
      exact absurd hwallet.symm (hother k' hadded')
    · rw [hself, hsame] at hwallet
      exact absurd hwallet (hother k hadded)
    · rw [hsame, hsame'] at hwallet
      exact h.unique k k' hadded hadded' hwallet

variable {c : Call}

theorem Effect.sound (h : Effect ctx sender R c R') (hs : R.Sound) (hnow : 0 < ctx.now)
    (hsender : sender ≠ 0) : R'.Sound := by
  cases h with
  | registerIdentity => exact hs.rewrite rfl rfl fun _ => ⟨rfl, rfl, rfl⟩
  | addSubAgent hmaster hnew =>
    exact hs.add { subWallet := _, subAgentId := _, master := sender, addedAt := ctx.now }
      hnow.ne' hsender hmaster hnew rfl rfl rfl
  | removeSubAgent | setSubAgentBounds =>
    exact hs.rewrite rfl rfl (setSubAgent_revises ⟨rfl, rfl, rfl⟩)

/-! ## The envelope of a sub-wallet -/

/-- **The envelope of a sub-wallet**, as the record of the calls tells it. -/
structure Grant where
  allowance : ℕ := 0
  perTxLimit : ℕ := 0
  consumed : ℕ := 0
  deriving DecidableEq, Repr

def Grant.after (s : Address) (g : Grant) : Event → Grant
  | .subAgentBoundsUpdated _ subWallet allowance perTxLimit _ =>
    if subWallet = s then { allowance, perTxLimit } else g
  | _ => g

def Grant.consume (g : Grant) (amount : ℕ) : Grant := { g with consumed := g.consumed + amount }

/-- **A relation between a record and an envelope that the registry's writes keep**. -/
structure Tracking (φ : SubAgent → Grant → Prop) : Prop where
  new : ∀ sa : SubAgent, sa.allowance = 0 → sa.perTxLimit = 0 → φ sa {}
  set : ∀ (sa : SubAgent) (allowance perTxLimit expiresAt : ℕ),
    φ { sa with allowance, perTxLimit, expiresAt } { allowance, perTxLimit }
  charge : ∀ (sa : SubAgent) (g : Grant) (amount : ℕ), amount ≤ sa.allowance → φ sa g →
    φ { sa with allowance := sa.allowance - amount } (g.consume amount)

def Registry.Tracks (R : Registry) (φ : SubAgent → Grant → Prop) (s : Address) (g : Grant) : Prop :=
  ∀ id, (R.subAgentById id).addedAt ≠ 0 → R.ActiveAs s id → φ (R.subAgentById id) g

variable {g : Grant} {φ : SubAgent → Grant → Prop}

theorem Registry.Tracks.setSubAgent (h : R.Tracks φ s g)
    (hrecords : R'.subAgentById = (R.setSubAgent id sa).subAgentById)
    (hleft : sa.addedAt ≠ 0 → sa.subWallet = s → sa.status = .active → φ sa g) :
    R'.Tracks φ s g := by
  intro k hk hactive
  rw [Registry.ActiveAs] at hactive
  rw [hrecords, setSubAgent_subAgentById] at hk hactive ⊢
  rcases eq_or_ne k id with rfl | hne
  · rw [update_self] at hk hactive ⊢
    exact hleft hk hactive.1 hactive.2
  · rw [update_of_ne hne] at hk hactive ⊢
    exact h k hk hactive

theorem Registry.Sound.tracks_setSubAgent (hs : R.Sound) (hadded : (R.subAgentById id).addedAt ≠ 0)
    (hwallet : (R.subAgentById id).subWallet = s)
    (hrecords : R'.subAgentById = (R.setSubAgent id sa).subAgentById) (hφ : φ sa g) :
    R'.Tracks φ s g := by
  intro k hk hactive
  rw [Registry.ActiveAs] at hactive
  rw [hrecords, setSubAgent_subAgentById] at hk hactive ⊢
  rcases eq_or_ne k id with rfl | hne
  · rw [update_self]
    exact hφ
  · rw [update_of_ne hne] at hk hactive
    exact absurd (hs.unique k id hk hadded (hactive.1.trans hwallet.symm)) hne

theorem Registry.Sound.master_ne_zero (hs : R.Sound) (hadded : (R.subAgentById id).addedAt ≠ 0)
    (hwallet : (R.subAgentById id).subWallet = s) : R.subAgentMaster s ≠ 0 := by
  obtain ⟨heq, hne⟩ := hs.added id hadded
  rw [hwallet] at heq
  rw [heq]
  exact hne

theorem Effect.event (he : Effect ctx sender R c R') : ∃ e, R'.events = R.events ++ [e] := by
  cases he <;> exact ⟨_, rfl⟩

theorem Effect.tracks {e : Event} (he : Effect ctx sender R c R') (hφ : Tracking φ) (hs : R.Sound)
    (hunknown : R.subAgentMaster s = 0 → g = {}) (h : R.Tracks φ s g)
    (hevent : R'.events = R.events ++ [e]) : R'.Tracks φ s (g.after s e) := by
  cases he with
  | registerIdentity =>
    obtain rfl := List.singleton_injective (List.append_cancel_left hevent)
    exact h
  | @addSubAgent subWallet id hmaster hnew =>
    obtain rfl := List.singleton_injective (List.append_cancel_left hevent)
    intro k hk hactive
    rw [Registry.ActiveAs] at hactive
    rcases eq_or_ne k id with rfl | hne
    · -- the new record starts empty, and so does the envelope of a sub-wallet without master
      simp only [update_self] at hactive ⊢
      obtain rfl : subWallet = s := hactive.1
      show φ _ g
      rw [hunknown hmaster]
      exact hφ.new _ rfl rfl
    · simp only [update_of_ne hne] at hk hactive ⊢
      exact h k hk hactive
  | removeSubAgent =>
    obtain rfl := List.singleton_injective (List.append_cancel_left hevent)
    refine h.setSubAgent rfl fun _ _ hactive => ?_
    cases hactive
  | @setSubAgentBounds subWallet id allowance perTxLimit expiresAt hid =>
    obtain rfl := List.singleton_injective (List.append_cancel_left hevent)
    obtain ⟨hlisted, hwallet, -⟩ := activeId_eq_some hid
    obtain ⟨hadded, -⟩ := hs.listed _ id hlisted
    rw [Grant.after]
    by_cases hsub : subWallet = s
    · rw [if_pos hsub]
      subst hsub
      exact hs.tracks_setSubAgent hadded hwallet rfl (hφ.set _ _ _ _)
    · rw [if_neg hsub]
      refine h.setSubAgent rfl fun _ hsame _ => absurd ?_ hsub
      rw [← hwallet]
      exact hsame

theorem Effect.unknown {e : Event} (he : Effect ctx sender R c R') (hs : R.Sound)
    (hunknown : R.subAgentMaster s = 0 → g = {}) (hevent : R'.events = R.events ++ [e])
    (h0 : R'.subAgentMaster s = 0) : g.after s e = {} := by
  cases he with
  | registerIdentity | removeSubAgent =>
    obtain rfl := List.singleton_injective (List.append_cancel_left hevent)
    exact hunknown h0
  | @addSubAgent subWallet id hmaster hnew =>
    obtain rfl := List.singleton_injective (List.append_cancel_left hevent)
    change update R.subAgentMaster subWallet sender s = 0 at h0
    rcases eq_or_ne s subWallet with rfl | hne
    · exact hunknown hmaster
    · rw [update_of_ne hne] at h0
      exact hunknown h0
  | @setSubAgentBounds subWallet id allowance perTxLimit expiresAt hid =>
    obtain rfl := List.singleton_injective (List.append_cancel_left hevent)
    obtain ⟨hlisted, hwallet, -⟩ := activeId_eq_some hid
    obtain ⟨hadded, -⟩ := hs.listed _ id hlisted
    rw [Grant.after, if_neg]
    · exact hunknown h0
    · rintro rfl
      exact hs.master_ne_zero hadded hwallet h0

structure Registry.Keeps (R : Registry) (s : Address) (g : Grant) : Prop where
  unknown : R.subAgentMaster s = 0 → g = {}
  within : g.consumed ≤ g.allowance
  left : ∀ id, (R.subAgentById id).addedAt ≠ 0 → R.ActiveAs s id →
    (R.subAgentById id).allowance + g.consumed ≤ g.allowance ∧
      (R.subAgentById id).perTxLimit = g.perTxLimit

theorem tracking_left : Tracking fun sa g =>
    sa.allowance + g.consumed ≤ g.allowance ∧ sa.perTxLimit = g.perTxLimit where
  new sa hallowance hlimit := ⟨hallowance.le, hlimit⟩
  set sa allowance perTxLimit expiresAt := ⟨le_rfl, rfl⟩
  charge sa g amount hamount h := by
    refine ⟨?_, h.2⟩
    have hleft := h.1
    show sa.allowance - amount + (g.consumed + amount) ≤ g.allowance
    omega

theorem Effect.keeps (he : Effect ctx sender R c R') (hs : R.Sound) (h : R.Keeps s g) :
    ∃ e, R'.events = R.events ++ [e] ∧ R'.Keeps s (g.after s e) := by
  obtain ⟨e, hevent⟩ := he.event
  refine ⟨e, hevent, fun h0 => he.unknown hs h.unknown hevent h0, ?_,
    he.tracks tracking_left hs h.unknown h.left hevent⟩
  -- new bounds start with nothing consumed
  have hwithin := h.within
  cases e with
  | subAgentBoundsUpdated =>
    rw [Grant.after]
    split
    · exact Nat.zero_le _
    · exact hwithin
  | identityRegistered | subAgentAdded | subAgentDeactivated => exact hwithin

/-! ## Consuming an authorization -/

variable {now amount : ℕ}

theorem consumeAuthorization_eq_true
    (h : (consumeAuthorization bilateral now sender s amount R).result = .ok (true, R')) :
    ∃ id, R.activeId (R.subAgentMaster s) s = some id ∧ (R.subAgentById id).Covers now amount ∧
      R' = R.setSubAgent id
        { R.subAgentById id with allowance := (R.subAgentById id).allowance - amount } := by
  have hwp : (consumeAuthorization bilateral now sender s amount).wp (fun _ => True)
      (fun _ => True) (fun answer R' => answer = true →
        ∃ id, R.activeId (R.subAgentMaster s) s = some id ∧
          (R.subAgentById id).Covers now amount ∧ R' = R.setSubAgent id
            { R.subAgentById id with allowance := (R.subAgentById id).allowance - amount }) R := by
    simp only [consumeAuthorization, Tx.post_code]
    refine fun _ => ⟨fun _ hfalse => absurd hfalse Bool.false_ne_true, fun _ => ?_⟩
    cases hid : R.activeId (R.subAgentMaster s) s with
    | none =>
      rw [Tx.wp_pure]
      exact fun hfalse => absurd hfalse Bool.false_ne_true
    | some id =>
      simp only [Tx.wp_code]
      exact ⟨fun hcovers _ => ⟨id, rfl, hcovers, rfl⟩,
        fun _ hfalse => absurd hfalse Bool.false_ne_true⟩
  exact Tx.wp_ok hwp h rfl

theorem consumeAuthorization_answers (bilateral s : Address) (R : Registry) (now amount : ℕ) :
    ∃ R', (consumeAuthorization bilateral now bilateral s amount R).result =
        .ok (isAuthorized R now s amount, R') ∧ (isAuthorized R now s amount = false → R' = R) := by
  have hwp : (consumeAuthorization bilateral now bilateral s amount).wp (fun _ => True)
      (fun _ => False) (fun answer R' => answer = isAuthorized R now s amount ∧
        (answer = false → R' = R)) R := by
    simp only [consumeAuthorization, Tx.wp_code, isAuthorized]
    refine ⟨fun hne => hne rfl, fun _ => ⟨fun hnone => ?_, fun hsome => ?_⟩⟩
    · exact ⟨(if_pos hnone).symm, fun _ => trivial⟩
    · rw [if_neg hsome]
      cases R.activeId (R.subAgentMaster s) s with
      | none =>
        -- the loop runs out without an active record
        rw [Tx.wp_pure]
        exact ⟨rfl, fun _ => rfl⟩
      | some id =>
        simp only [Tx.wp_code]
        refine ⟨fun hcovers => ⟨(decide_eq_true hcovers).symm, fun hfalse => ?_⟩,
          fun hcovers => ⟨(decide_eq_false hcovers).symm, fun _ => trivial⟩⟩
        exact absurd hfalse.symm Bool.false_ne_true
  obtain ⟨answer, R', hresult, rfl, hsame⟩ := Tx.exists_ok_of_wp hwp
  exact ⟨R', hresult, hsame⟩

variable {s' : Address}

theorem consume_tracks
    (hok : (consumeAuthorization bilateral now sender s' amount R).result = .ok (true, R'))
    (hφ : Tracking φ) (hs : R.Sound) (h : R.Tracks φ s g) :
    R'.Tracks φ s (if s' = s then g.consume amount else g) := by
  obtain ⟨id, hid, hcovers, rfl⟩ := consumeAuthorization_eq_true hok
  obtain ⟨hlisted, hwallet, hactive⟩ := activeId_eq_some hid
  obtain ⟨hadded, -⟩ := hs.listed _ id hlisted
  by_cases hsub : s' = s
  · rw [if_pos hsub]
    subst hsub
    exact hs.tracks_setSubAgent hadded hwallet rfl
      (hφ.charge _ g amount hcovers.2.2 (h id hadded ⟨hwallet, hactive⟩))
  · rw [if_neg hsub]
    refine h.setSubAgent rfl fun _ hsame _ => absurd ?_ hsub
    rw [← hwallet]
    exact hsame

theorem consume_sound
    (hok : (consumeAuthorization bilateral now sender s' amount R).result = .ok (true, R'))
    (hs : R.Sound) : R'.Sound := by
  obtain ⟨id, -, -, rfl⟩ := consumeAuthorization_eq_true hok
  exact hs.rewrite rfl rfl (setSubAgent_revises ⟨rfl, rfl, rfl⟩)

theorem consume_keeps
    (hok : (consumeAuthorization bilateral now sender s' amount R).result = .ok (true, R'))
    (hs : R.Sound) (h : R.Keeps s g) :
    R'.Sound ∧ R'.events = R.events ∧ R'.Keeps s (if s' = s then g.consume amount else g) := by
  have htracks := consume_tracks hok tracking_left hs h.left
  have hsound := consume_sound hok hs
  obtain ⟨id, hid, hcovers, rfl⟩ := consumeAuthorization_eq_true hok
  obtain ⟨hlisted, hwallet, hactive⟩ := activeId_eq_some hid
  obtain ⟨hadded, -⟩ := hs.listed _ id hlisted
  refine ⟨hsound, rfl, ⟨fun h0 => ?_, ?_, htracks⟩⟩
  · by_cases hsub : s' = s
    · subst hsub
      exact absurd h0 (hs.master_ne_zero hadded hwallet)
    · rw [if_neg hsub]
      exact h.unknown h0
  · by_cases hsub : s' = s
    · rw [if_pos hsub]
      subst hsub
      obtain ⟨hleft, -⟩ := h.left id hadded ⟨hwallet, hactive⟩
      have hamount : amount ≤ (R.subAgentById id).allowance := hcovers.2.2
      show g.consumed + amount ≤ g.allowance
      omega
    · rw [if_neg hsub]
      exact h.within

theorem keeps_of_steps (hsteps : ReflTransGen (Step bilateral) R R') (hs : R.Sound)
    (h : R.Keeps s g) :
    R'.Sound ∧ ∃ es, R'.events = R.events ++ es ∧ R'.Keeps s (es.foldl (Grant.after s) g) := by
  induction hsteps with
  | refl => exact ⟨hs, [], (List.append_nil _).symm, h⟩
  | tail _ hstep ih =>
    obtain ⟨hs', es, hevents, hkeeps⟩ := ih
    obtain ⟨ctx, sender, c, hnow, hsender, he⟩ := hstep.effect
    obtain ⟨e, hevent, hkeeps'⟩ := he.keeps hs' hkeeps
    refine ⟨he.sound hs' hnow hsender, es ++ [e], ?_, ?_⟩
    · rw [hevent, hevents, List.append_assoc]
    · rw [List.foldl_append]
      exact hkeeps'

end Karma.IdentityRegistry
