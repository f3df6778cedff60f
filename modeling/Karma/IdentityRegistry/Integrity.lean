import Karma.Evm.Run
import Karma.IdentityRegistry.Envelope

/-! # `KarmaIdentityRegistry` — the registry's books over whole runs

Any caller makes any call at any positive time, under any balances of the core. -/

namespace Karma.IdentityRegistry

open Evm Function

variable {R R' : Registry} {bilateral s : Address} {g : Grant}

/-! ## Transactions -/

structure Act where
  ctx : Ctx
  sender : Address
  call : Call

def Registry.fresh (R : Registry) : Registry := { R with events := [] }

/-- **One transaction**: somebody calls, at a positive time. -/
def step (bilateral : Address) (R : Registry) (a : Act) : Option Registry :=
  if a.ctx.now = 0 ∨ a.sender = 0 then none
  else
    match (exec bilateral a.ctx a.sender a.call R.fresh).result with
    | .ok (_, R') => some R'
    | .error _ => none

abbrev History : Type := List (Entry Registry Act)

abbrev Reach (bilateral : Address) : History → Registry → Prop :=
  Run (fun R => R = {}) (step bilateral)

def Call.Tallies (sender : Address) (R R' : Registry) : Call → Prop
  | .addSubAgent _ _ => R.activeSubAgents sender < 3
  | .removeSubAgent _ => R'.activeSubAgents =
      update R.activeSubAgents sender (R.activeSubAgents sender - 1)
  | _ => R'.activeSubAgents = R.activeSubAgents

theorem post_exec_tallies (ctx : Ctx) (sender : Address) (c : Call) (R : Registry) :
    (exec bilateral ctx sender c).post (fun _ R' => c.Tallies sender R R') R := by
  cases c with
  | registerIdentity masterAgentId =>
    simp only [exec, registerIdentity, Tx.post, Tx.post_code, wp_emit]
    exact fun _ => rfl
  | addSubAgent subWallet id =>
    simp only [exec, addSubAgent, requireIdentity, Tx.post, Tx.post_code, wp_emit]
    intro _ _ _ hlimit _ _
    exact Nat.lt_of_not_le hlimit
  | removeSubAgent subWallet =>
    simp only [exec, removeSubAgent, requireIdentity, findActiveSubAgentId, Tx.post, Tx.post_code,
      wp_emit]
    exact fun _ id _ _ _ => rfl
  | setSubAgentBounds subWallet allowance perTxLimit expiresAt =>
    simp only [exec, setSubAgentBounds, requireIdentity, findActiveSubAgentId, Tx.post,
      Tx.post_code, wp_emit]
    intro _ id _ _ _
    exact wp_totalAllowance (fun _ _ => rfl) _ _
  | consumeAuthorization subWallet amount =>
    simp only [exec, consumeAuthorization, Tx.post, Tx.post_code]
    refine fun _ => ⟨fun _ => rfl, fun _ => ?_⟩
    cases R.activeId (R.subAgentMaster subWallet) subWallet with
    | none => exact (Tx.wp_pure _).mpr rfl
    | some id =>
      simp only [Tx.wp_code]
      exact ⟨fun _ => rfl, fun _ => rfl⟩

theorem step_cases {a : Act} (h : step bilateral R a = some R') :
    0 < a.ctx.now ∧ a.sender ≠ 0 ∧ a.call.Tallies a.sender R.fresh R' ∧
      (Effect a.ctx a.sender R.fresh a.call R' ∨
        ∃ s' amount answer, a.call = .consumeAuthorization s' amount ∧ a.sender = bilateral ∧
          (consumeAuthorization bilateral a.ctx.now a.sender s' amount R.fresh).result =
            .ok (answer, R') ∧ (answer = false → R' = R.fresh)) := by
  obtain ⟨ctx, sender, c⟩ := a
  unfold step at h
  split at h
  · exact absurd h (Option.some_ne_none _).symm
  · rename_i hguard
    obtain ⟨hnow, hsender⟩ := not_or.mp hguard
    split at h
    · rename_i heq
      cases h
      refine ⟨Nat.pos_of_ne_zero hnow, hsender, Tx.wp_ok (post_exec_tallies ctx sender c _) heq, ?_⟩
      cases c with
      | consumeAuthorization s' amount =>
        right
        have hwp : (exec bilateral ctx sender (.consumeAuthorization s' amount)).post
            (fun _ R' => ∃ answer, (consumeAuthorization bilateral ctx.now sender s' amount
              R.fresh).result = .ok (answer, R')) R.fresh := by
          simp only [exec, Tx.post, Tx.wp_code]
          exact Tx.wp_mono (Tx.post_result _ _) fun answer R' hr => ⟨answer, hr⟩
        obtain ⟨answer, hr⟩ := Tx.wp_ok hwp heq
        by_cases hcore : sender = bilateral
        · subst hcore
          refine ⟨s', amount, answer, rfl, rfl, hr, fun hfalse => ?_⟩
          obtain ⟨R₁, hr₁, hsame⟩ := consumeAuthorization_answers sender s' R.fresh ctx.now amount
          rw [hr] at hr₁
          obtain ⟨rfl, rfl⟩ := Prod.mk.inj (Except.ok.inj hr₁)
          exact hsame hfalse
        · -- nobody else is answered
          have hwp' : (consumeAuthorization bilateral ctx.now sender s' amount).post
              (fun _ _ => False) R.fresh := by
            simp only [consumeAuthorization, Tx.post, Tx.post_code]
            exact fun h => absurd hcore h
          exact (Tx.wp_ok hwp' hr).elim
      | registerIdentity | addSubAgent | removeSubAgent | setSubAgentBounds =>
        -- these calls do not look at the address of the core
        exact .inl (Tx.wp_ok (wp_exec (I := fun _ => True) (show sender ≠ 0 from hsender) _) heq)
    · exact absurd h (Option.some_ne_none _).symm

/-! ## The books fit -/

def Registry.isActive (R : Registry) (id : Bytes32) : Bool :=
  decide ((R.subAgentById id).status = .active)

/-- **The registry's books fit**. -/
structure Registry.Tidy (R : Registry) : Prop where
  sound : R.Sound
  named : ∀ id, (R.subAgentById id).addedAt ≠ 0 → (R.subAgentById id).subAgentId = id
  complete : ∀ id, (R.subAgentById id).addedAt ≠ 0 →
    id ∈ R.masterSubAgentIds (R.subAgentById id).master
  nodup : ∀ m, (R.masterSubAgentIds m).Nodup
  count : ∀ m, R.activeSubAgents m = (R.masterSubAgentIds m).countP R.isActive
  limit : ∀ m, R.activeSubAgents m ≤ 3

theorem Registry.Tidy.rewrite {id : Bytes32} {sa : SubAgent} (h : R.Tidy)
    (hids : R'.masterSubAgentIds = R.masterSubAgentIds)
    (hmasters : R'.subAgentMaster = R.subAgentMaster)
    (hcount : R'.activeSubAgents = R.activeSubAgents)
    (hrecords : R'.subAgentById = (R.setSubAgent id sa).subAgentById)
    (hrev : sa.Revises (R.subAgentById id)) (hid : sa.subAgentId = (R.subAgentById id).subAgentId)
    (hstatus : sa.status = (R.subAgentById id).status) : R'.Tidy := by
  have hall : ∀ k, (R'.subAgentById k).Revises (R.subAgentById k) ∧
      (R'.subAgentById k).subAgentId = (R.subAgentById k).subAgentId ∧
        (R'.subAgentById k).status = (R.subAgentById k).status := by
    rw [hrecords]
    exact (forall_update_iff R.subAgentById fun k sa => sa.Revises (R.subAgentById k) ∧
      sa.subAgentId = (R.subAgentById k).subAgentId ∧ sa.status = (R.subAgentById k).status).mpr
      ⟨⟨hrev, hid, hstatus⟩, fun k _ => ⟨⟨rfl, rfl, rfl⟩, rfl, rfl⟩⟩
  have hactive : R'.isActive = R.isActive := by
    funext k
    simp only [Registry.isActive, (hall k).2.2]
  refine ⟨h.sound.rewrite hids hmasters fun k => (hall k).1, fun k hk => ?_, fun k hk => ?_,
    fun m => ?_, fun m => ?_, fun m => ?_⟩
  · rw [(hall k).1.addedAt] at hk
    rw [(hall k).2.1]
    exact h.named k hk
  · rw [(hall k).1.addedAt] at hk
    rw [hids, (hall k).1.master]
    exact h.complete k hk
  · rw [hids]
    exact h.nodup m
  · rw [hcount, hids, hactive]
    exact h.count m
  · rw [hcount]
    exact h.limit m

theorem countP_deactivate {α : Type} [DecidableEq α] {l : List α} {a : α} {p q : α → Bool}
    (hl : l.Nodup) (ha : a ∈ l) (hp : p a = true) (hq : q a = false)
    (hne : ∀ b, b ≠ a → q b = p b) : l.countP q = l.countP p - 1 := by
  have herase : (l.erase a).countP p = l.countP q := by
    rw [hl.erase_eq_filter, List.countP_filter]
    congr 1
    funext b
    by_cases hb : b = a
    · subst hb
      simp [hq]
    · simp [hb, hne b hb]
  rw [← herase, List.countP_erase]
  simp [ha, hp]

theorem Effect.tidy {ctx : Ctx} {sender : Address} {c : Call} (he : Effect ctx sender R c R')
    (htally : c.Tallies sender R R') (h : R.Tidy) (hnow : 0 < ctx.now) (hsender : sender ≠ 0) :
    R'.Tidy := by
  have hsound : R'.Sound := he.sound h.sound hnow hsender
  cases he with
  | registerIdentity => exact ⟨hsound, h.named, h.complete, h.nodup, h.count, h.limit⟩
  | @addSubAgent subWallet id hmaster hnew =>
    -- a new id is nowhere on a list
    have hfresh : ∀ m, id ∉ R.masterSubAgentIds m := fun m hid =>
      (h.sound.listed m id hid).1 hnew
    have hsame : ∀ m, (R.masterSubAgentIds m).countP (Registry.isActive { R with
          subAgentById := update R.subAgentById id
            { subWallet, subAgentId := id, master := sender, addedAt := ctx.now } }) =
          (R.masterSubAgentIds m).countP R.isActive := by
      intro m
      refine List.countP_congr fun k hk => ?_
      have hne : k ≠ id := fun heq => hfresh m (heq ▸ hk)
      simp only [Registry.isActive, update_of_ne hne]
    refine ⟨hsound, ?_, ?_, ?_, fun m => ?_, ?_⟩
    · exact (forall_update_iff R.subAgentById fun k sa => sa.addedAt ≠ 0 →
        sa.subAgentId = k).mpr ⟨fun _ => rfl, fun k _ => h.named k⟩
    · refine (forall_update_iff R.subAgentById fun k sa => sa.addedAt ≠ 0 →
        k ∈ update R.masterSubAgentIds sender (R.masterSubAgentIds sender ++ [id])
          sa.master).mpr ⟨fun _ => ?_, fun k _ hk => ?_⟩
      · rw [update_self]
        exact List.mem_append_right _ List.mem_cons_self
      · by_cases hm : (R.subAgentById k).master = sender
        · rw [hm, update_self]
          exact List.mem_append_left _ (hm ▸ h.complete k hk)
        · rw [update_of_ne hm]
          exact h.complete k hk
    · refine (forall_update_iff R.masterSubAgentIds fun _ ids => ids.Nodup).mpr
        ⟨?_, fun m _ => h.nodup m⟩
      rw [← List.concat_eq_append]
      exact (h.nodup sender).concat (hfresh sender)
    · rcases eq_or_ne m sender with rfl | hne
      · simp only [update_self, List.countP_append, List.countP_singleton]
        rw [h.count m]
        exact congrArg₂ (· + ·) (hsame m).symm (by simp [Registry.isActive])
      · simp only [update_of_ne hne]
        rw [h.count m]
        exact (hsame m).symm
    · exact (forall_update_iff R.activeSubAgents fun _ n => n ≤ 3).mpr
        ⟨htally, fun m _ => h.limit m⟩
  | @removeSubAgent subWallet id counts hid =>
    obtain ⟨hlisted, -, hstatus⟩ := activeId_eq_some hid
    obtain ⟨hadded, hmaster⟩ := h.sound.listed sender id hlisted
    obtain rfl : counts = update R.activeSubAgents sender (R.activeSubAgents sender - 1) := htally
    refine ⟨hsound, ?_, ?_, h.nodup, fun m => ?_, ?_⟩
    · exact (forall_update_iff R.subAgentById fun k sa => sa.addedAt ≠ 0 →
        sa.subAgentId = k).mpr ⟨fun _ => h.named id hadded, fun k _ => h.named k⟩
    · exact (forall_update_iff R.subAgentById fun k sa => sa.addedAt ≠ 0 →
        k ∈ R.masterSubAgentIds sa.master).mpr
        ⟨fun _ => h.complete id hadded, fun k _ => h.complete k⟩
    · simp only
      rcases eq_or_ne m sender with rfl | hne
      · rw [update_self, h.count m]
        refine (countP_deactivate (h.nodup m) hlisted (by simp [Registry.isActive, hstatus]) ?_
          fun k hk => ?_).symm
        · simp [Registry.isActive]
        · simp [Registry.isActive, hk]
      · rw [update_of_ne hne, h.count m]
        refine List.countP_congr fun k hk => ?_
        have hk' : k ≠ id := by
          rintro rfl
          exact hne ((h.sound.listed m k hk).2.symm.trans hmaster)
        simp [Registry.isActive, hk']
    · exact (forall_update_iff R.activeSubAgents fun _ n => n ≤ 3).mpr
        ⟨(Nat.sub_le _ _).trans (h.limit sender), fun m _ => h.limit m⟩
  | setSubAgentBounds =>
    exact h.rewrite rfl rfl rfl rfl ⟨rfl, rfl, rfl⟩ rfl rfl

theorem Registry.Tidy.fresh (h : R.Tidy) : R.fresh.Tidy :=
  ⟨⟨h.sound.listed, h.sound.added, h.sound.unique⟩, h.named, h.complete, h.nodup, h.count, h.limit⟩

theorem step_tidy {a : Act} (hstep : step bilateral R a = some R') (h : R.Tidy) : R'.Tidy := by
  obtain ⟨hnow, hsender, htally, heffect | ⟨s', amount, answer, -, -, hr, hfalse⟩⟩ :=
    step_cases hstep
  · exact heffect.tidy htally h.fresh hnow hsender
  · cases answer with
    | false => exact hfalse rfl ▸ h.fresh
    | true =>
      obtain ⟨id, -, -, rfl⟩ := consumeAuthorization_eq_true hr
      exact h.fresh.rewrite rfl rfl rfl rfl ⟨rfl, rfl, rfl⟩ rfl rfl

theorem Reach.tidy {h : History} (hr : Reach bilateral h R) : R.Tidy := by
  refine hr.safe ?_ fun R a R' htidy hstep => step_tidy hstep htidy
  rintro _ rfl
  have hnone : ∀ id, ((({} : Registry).subAgentById id).addedAt ≠ 0) → False :=
    fun id hne => hne rfl
  refine ⟨⟨fun m id hid => absurd hid List.not_mem_nil, fun id hne => (hnone id hne).elim,
    fun id _ hne => (hnone id hne).elim⟩, fun id hne => (hnone id hne).elim,
    fun id hne => (hnone id hne).elim, fun _ => List.nodup_nil, fun _ => rfl,
    fun _ => Nat.zero_le 3⟩

theorem step_revises {a : Act} {id : Bytes32} (hstep : step bilateral R a = some R')
    (hadded : (R.subAgentById id).addedAt ≠ 0) :
    (R'.subAgentById id).Revises (R.subAgentById id) := by
  obtain ⟨-, -, -, heffect | ⟨s', amount, answer, -, -, hr, hfalse⟩⟩ := step_cases hstep
  · generalize a.call = c at heffect
    cases heffect with
    | registerIdentity => exact ⟨rfl, rfl, rfl⟩
    | @addSubAgent subWallet k hmaster hnew =>
      have hne : id ≠ k := by
        rintro rfl
        exact hadded hnew
      simp only [update_of_ne hne]
      exact ⟨rfl, rfl, rfl⟩
    | removeSubAgent | setSubAgentBounds =>
      refine setSubAgent_revises (R := R.fresh) ?_ id
      exact ⟨rfl, rfl, rfl⟩
  · cases answer with
    | false => exact hfalse rfl ▸ ⟨rfl, rfl, rfl⟩
    | true =>
      obtain ⟨k, -, -, rfl⟩ := consumeAuthorization_eq_true hr
      refine setSubAgent_revises (R := R.fresh) ?_ id
      exact ⟨rfl, rfl, rfl⟩

theorem Reach.revises {h : History} (hr : Reach bilateral h R) :
    ∀ e ∈ h, ∀ id, (e.pre.subAgentById id).addedAt ≠ 0 →
      (R.subAgentById id).Revises (e.pre.subAgentById id) := by
  induction hr with
  | start => exact fun e he => absurd he List.not_mem_nil
  | next _ hstep ih =>
    intro e he id hadded
    rcases List.mem_cons.mp he with rfl | he
    · exact step_revises hstep hadded
    · have hold := ih e he id hadded
      have hnew := step_revises hstep (hold.addedAt ▸ hadded)
      exact ⟨hnew.subWallet.trans hold.subWallet, hnew.master.trans hold.master,
        hnew.addedAt.trans hold.addedAt⟩

/-! ## The envelope of a sub-wallet over a run -/

def charged (bilateral s : Address) (e : Entry Registry Act) : ℕ :=
  match e.act.call with
  | .consumeAuthorization s' amount =>
    if s' = s then
      match (consumeAuthorization bilateral e.act.ctx.now e.act.sender s' amount
        e.pre.fresh).result with
      | .ok (true, _) => amount
      | _ => 0
    else 0
  | _ => 0

def grant (bilateral s : Address) : History → Grant
  | [] => {}
  | e :: h =>
    (e.post.events.foldl (Grant.after s) (grant bilateral s h)).consume (charged bilateral s e)

theorem tracking_rest : Tracking fun sa g => g.consumed + sa.allowance = g.allowance where
  new sa hallowance _ := (Nat.zero_add _).trans hallowance
  set sa allowance perTxLimit expiresAt := Nat.zero_add allowance
  charge sa g amount hamount h := by
    show g.consumed + amount + (sa.allowance - amount) = g.allowance
    omega

theorem Reach.tracks {h : History} (hr : Reach bilateral h R) (s : Address) :
    (R.subAgentMaster s = 0 → grant bilateral s h = {}) ∧
      R.Tracks (fun sa g => g.consumed + sa.allowance = g.allowance) s (grant bilateral s h) := by
  induction hr with
  | start h0 =>
    cases h0
    exact ⟨fun _ => rfl, fun id hne => absurd rfl hne⟩
  | @next h R R' a hr hstep ih =>
    have hs : R.fresh.Sound := (Reach.tidy hr).fresh.sound
    obtain ⟨-, -, -, heffect | ⟨s', amount, answer, hcall, -, hresult, hfalse⟩⟩ := step_cases hstep
    · obtain ⟨e, hevent⟩ := heffect.event
      -- a call from outside charges nothing
      have hgrant : grant bilateral s (⟨R, a, R'⟩ :: h) = (grant bilateral s h).after s e := by
        have hzero : charged bilateral s ⟨R, a, R'⟩ = 0 := by
          rw [charged]
          split
          · rename_i hcall
            rw [show a.call = _ from hcall] at heffect
            cases heffect
          · rfl
        rw [grant, hzero, hevent]
        rfl
      rw [hgrant]
      exact ⟨heffect.unknown hs ih.1 hevent, heffect.tracks tracking_rest hs ih.1 ih.2 hevent⟩
    · cases answer with
      | false =>
        have hgrant : grant bilateral s (⟨R, a, R'⟩ :: h) = grant bilateral s h := by
          have hzero : charged bilateral s ⟨R, a, R'⟩ = 0 := by
            simp only [charged, hcall, hresult]
            exact ite_self 0
          rw [grant, hzero, hfalse rfl]
          rfl
        rw [hgrant, hfalse rfl]
        exact ih
      | true =>
        have hevents : R'.events = [] := by
          obtain ⟨id, -, -, rfl⟩ := consumeAuthorization_eq_true hresult
          rfl
        have hgrant : grant bilateral s (⟨R, a, R'⟩ :: h) =
            if s' = s then (grant bilateral s h).consume amount else grant bilateral s h := by
          have hcharged : charged bilateral s ⟨R, a, R'⟩ = if s' = s then amount else 0 := by
            simp only [charged, hcall, hresult]
          rw [grant, hcharged, hevents]
          split
          · rfl
          · rfl
        rw [hgrant]
        refine ⟨fun h0 => ?_, consume_tracks hresult tracking_rest hs ih.2⟩
        -- what was charged is the record of a sub-wallet with a master
        obtain ⟨id, hid, -, rfl⟩ := consumeAuthorization_eq_true hresult
        obtain ⟨hlisted, hwallet, -⟩ := activeId_eq_some hid
        rw [if_neg]
        · exact ih.1 h0
        · rintro rfl
          exact hs.master_ne_zero (hs.listed _ id hlisted).1 hwallet h0

theorem registry_integrity {h : History} (hr : Reach bilateral h R) :
    (∀ m, (R.masterSubAgentIds m).Nodup ∧ (∀ id, id ∈ R.masterSubAgentIds m ↔
        (R.subAgentById id).addedAt ≠ 0 ∧ (R.subAgentById id).master = m) ∧
      R.activeSubAgents m = (R.masterSubAgentIds m).countP R.isActive ∧
      R.activeSubAgents m ≤ 3) ∧
    (∀ id id', (R.subAgentById id).addedAt ≠ 0 → (R.subAgentById id').addedAt ≠ 0 →
      (R.subAgentById id).subWallet = (R.subAgentById id').subWallet ∨
        (R.subAgentById id).subAgentId = (R.subAgentById id').subAgentId → id = id') ∧
    (∀ e ∈ h, ∀ id, (e.pre.subAgentById id).addedAt ≠ 0 →
      (R.subAgentById id).Revises (e.pre.subAgentById id)) ∧
    (∀ now s amount, isAuthorized R now s amount = true ↔
      ∃ R', (consumeAuthorization bilateral now bilateral s amount R).result = .ok (true, R')) ∧
    ∀ s id, (R.subAgentById id).addedAt ≠ 0 → R.ActiveAs s id →
      (grant bilateral s h).consumed + (R.subAgentById id).allowance =
        (grant bilateral s h).allowance := by
  have htidy := hr.tidy
  refine ⟨fun m => ⟨htidy.nodup m, fun id => ⟨htidy.sound.listed m id, ?_⟩, htidy.count m,
    htidy.limit m⟩, ?_, hr.revises, fun now s amount => ?_, fun s => (hr.tracks s).2⟩
  · rintro ⟨hadded, rfl⟩
    exact htidy.complete id hadded
  · rintro id id' hadded hadded' (hwallet | hid)
    · exact htidy.sound.unique id id' hadded hadded' hwallet
    · exact (htidy.named id hadded).symm.trans (hid.trans (htidy.named id' hadded'))
  · obtain ⟨R', hresult, -⟩ := consumeAuthorization_answers bilateral s R now amount
    rw [hresult]
    constructor
    · intro hauth
      exact ⟨R', by rw [hauth]⟩
    · rintro ⟨R'', hok⟩
      exact (Prod.mk.inj (Except.ok.inj hok)).1

namespace Sample

def master : Address := .ofNat 17
def sub : Address := .ofNat 18
def core : Address := .ofNat 19

def act (sender : Address) (call : Call) : Act :=
  { ctx := { now := 1, freeBalance := fun _ => 100, boundBalance := fun _ => 0 }, sender, call }

def acts : List Act :=
  [act master (.registerIdentity 1#256), act master (.addSubAgent sub 2#256),
    act master (.setSubAgentBounds sub 50 0 0), act core (.consumeAuthorization sub 20)]

end Sample

open Sample

theorem registry_integrity_sample : Reach core (record (step core) acts {} [])
        (stateAfter (step core) acts {}) ∧
      (grant core sub (record (step core) acts {} [])).consumed = 20 ∧
      (grant core sub (record (step core) acts {} [])).consumed +
        ((stateAfter (step core) acts {}).subAgentById 2#256).allowance = 50 := by
  have hsome : (steps (step core) acts {}).isSome = true := by decide +kernel
  have h0 : Reach core [] {} := .start rfl
  have hr := Run.stateAfter h0 hsome
  refine ⟨hr, by decide +kernel, ?_⟩
  exact ((registry_integrity hr).2.2.2.2 sub 2#256 (by decide +kernel)
    (by decide +kernel)).trans (by decide +kernel)

end Karma.IdentityRegistry
