import Karma.VerifierBond.Books

/-! # `KarmaVerifierBond` — what an active verifier vouches with

What a verifier vouches with today should be there for a whole cooldown. -/

namespace Karma.VerifierBond

open Evm Function

variable {D : Deployment} {h : History} {w w' : World} {sender v : Address} {c : Call} {a : Act}

/-! ## Vouching for a cooldown -/

def Act.Quiet (cooldown : ℕ) (verifier : Address) : Act → Prop
  | .call _ (.setStakeConfig _ unbondCooldown _) => unbondCooldown = cooldown
  | .call _ (.slash slashed _ _ _) => slashed ≠ verifier
  | _ => True

def Vouches (D : Deployment) (w : World) (verifier : Address) : Prop :=
  w.isActive verifier = true → ∀ as w', (∀ a ∈ as, a.Quiet w.unbondCooldown verifier) →
    steps (step D) as w = some w' → w'.now < w.now + w.unbondCooldown →
    w.slashable verifier ≤ w'.slashable verifier

/-- A request made earlier is pending and will mature within the cooldown. -/
structure Ripening (w : World) (verifier : Address) : Prop where
  requested : (w.bonds verifier).unbondRequestedAt ≠ 0
  earlier : (w.bonds verifier).unbondRequestedAt < w.now
  something : (w.bonds verifier).unbondAmount ≠ 0
  cooldown : w.unbondCooldown ≠ 0
  word : (w.bonds verifier).unbondRequestedAt + w.unbondCooldown < 2 ^ 256

structure Holding (t k n : ℕ) (verifier : Address) (w : World) : Prop where
  cooldown : w.unbondCooldown = k
  now : t ≤ w.now
  bond : n ≤ (w.bonds verifier).amount
  later : (w.bonds verifier).unbondRequestedAt ≠ 0 → (w.bonds verifier).unbondAmount ≠ 0 →
    (w.bonds verifier).unbondRequestedAt + k < 2 ^ 256 →
    t ≤ (w.bonds verifier).unbondRequestedAt

section Holding

variable {t k n : ℕ}

theorem Holding.of_bond (hw : Holding t k n v w)
    (hcooldown : w'.unbondCooldown = w.unbondCooldown) (hnow : w.now ≤ w'.now)
    (hbond : w'.bonds v = w.bonds v) : Holding t k n v w' where
  cooldown := hcooldown.trans hw.cooldown
  now := hw.now.trans hnow
  bond := by rw [hbond]; exact hw.bond
  later := by rw [hbond]; exact hw.later

theorem Effect.holding (he : Effect D w sender c w')
    (hquiet : (Act.call sender c).Quiet k v) (htime : w.now < t + k)
    (hw : Holding t k n v w) : Holding t k n v w' := by
  cases he with
  | setSlasher | setToken | setSlashSplit | distributePool => exact hw.of_bond rfl le_rfl rfl
  | setStakeConfig => exact ⟨hquiet, hw.now, hw.bond, hw.later⟩
  | stake =>
    by_cases hv : v = sender
    · subst hv
      refine ⟨hw.cooldown, hw.now, ?_, ?_⟩
      · simp only [update_self, Bond.staked]
        exact Nat.le_add_right_of_le hw.bond
      · simp only [update_self]
        exact hw.later
    · exact hw.of_bond rfl le_rfl (update_of_ne hv _ _)
  | requestUnstake =>
    by_cases hv : v = sender
    · subst hv
      refine ⟨hw.cooldown, hw.now, ?_, ?_⟩
      · simp only [update_self]
        exact hw.bond
      · -- the new request is of now
        simp only [update_self]
        exact fun _ _ _ => hw.now
    · exact hw.of_bond rfl le_rfl (update_of_ne hv _ _)
  | withdrawUnstake hrequested hword hready =>
    by_cases hv : v = sender
    · subst hv
      rw [hw.cooldown] at hword hready
      -- whatever can be withdrawn was requested at `t` at the earliest
      have hnothing : (w.bonds v).unbondAmount = 0 := by
        by_contra hsome
        have hlater := hw.later hrequested hsome hword
        omega
      have hzero : (w.bonds v).unbonding = 0 := by
        rw [Bond.unbonding, hnothing, if_neg (Nat.not_lt_zero _)]
      refine ⟨hw.cooldown, hw.now, ?_, ?_⟩
      · simp only [World.pay, update_self, Bond.withdrawn, Bond.cut, Bond.requested,
          hzero, Nat.sub_zero]
        exact hw.bond
      · simp only [World.pay, update_self]
        exact fun hne => absurd rfl hne
    · exact hw.of_bond rfl le_rfl (update_of_ne hv _ _)
  | slash => exact hw.of_bond rfl le_rfl (update_of_ne (Ne.symm hquiet) _ _)

theorem Effect.now_eq (he : Effect D w sender c w') : w'.now = w.now := by
  cases he <;> rfl

theorem now_le_of_step (hs : step D w a = some w') : w.now ≤ w'.now := by
  cases a with
  | tick time =>
    obtain ⟨hle, rfl⟩ := step_tick hs
    exact hle
  | erc20 sender token c =>
    obtain ⟨-, T, -, rfl⟩ := step_erc20 hs
    exact le_rfl
  | call sender c =>
    obtain ⟨-, -, he⟩ := step_call hs
    exact he.now_eq.ge

theorem holding_of_step (hs : step D w a = some w') (hquiet : a.Quiet k v)
    (htime : w'.now < t + k) (hw : Holding t k n v w) :
    Holding t k n v w' := by
  cases a with
  | tick time =>
    obtain ⟨hle, rfl⟩ := step_tick hs
    exact hw.of_bond rfl hle rfl
  | erc20 sender token c =>
    obtain ⟨-, T, -, rfl⟩ := step_erc20 hs
    exact hw.of_bond rfl le_rfl rfl
  | call sender c =>
    obtain ⟨-, -, he⟩ := step_call hs
    have hnow : w.now < t + k := (now_le_of_step hs).trans_lt htime
    exact he.holding hquiet hnow (hw.of_bond rfl le_rfl rfl)

end Holding

theorem vouches_of_not_ripening (hw : ¬ Ripening w v) : Vouches D w v := by
  intro _ as w' hquiet hs htime
  have hnow : w.now ≤ w'.now :=
    steps_induct (P := fun s => w.now ≤ s.now)
      (fun s a _ s' hle hstep => hle.trans (now_le_of_step hstep)) le_rfl hs
  have hcooldown : w.unbondCooldown ≠ 0 := by omega
  have hstart : Holding w.now w.unbondCooldown (w.slashable v) v w := by
    refine ⟨rfl, le_rfl, le_rfl, fun hrequested hsome hword => ?_⟩
    by_contra hearlier
    exact hw ⟨hrequested, not_le.mp hearlier, hsome, hcooldown, hword⟩
  have hend : w'.now < w.now + w.unbondCooldown →
      Holding w.now w.unbondCooldown (w.slashable v) v w' := by
    refine steps_induct (P := fun s => s.now < w.now + w.unbondCooldown →
      Holding w.now w.unbondCooldown (w.slashable v) v s) (fun s a ha s' ih hstep hlt => ?_)
      (fun _ => hstart) hs
    have hbefore := (now_le_of_step hstep).trans_lt hlt
    exact holding_of_step hstep (hquiet a ha) hlt (ih hbefore)
  exact (hend htime).bond

theorem Reach.withdrawUnstake_isSome (hr : Reach D h w)
    (hrequested : (w.bonds v).unbondRequestedAt ≠ 0)
    (hword : (w.bonds v).unbondRequestedAt + w.unbondCooldown < 2 ^ 256)
    (hready : (w.bonds v).unbondRequestedAt + w.unbondCooldown ≤ w.now) :
    ∃ w', step D w (.call v .withdrawUnstake) = some w' := by
  obtain ⟨hself, hzero⟩ := hr.roster.person v ((hr.tidy.bonds v).asked hrequested)
  have hamount := hr.solvent.amount_le v
  have hle := (w.bonds v).unbonding_le
  have hcovers : ∀ u : World, u.token = w.token → u.tokens = w.tokens →
      Covers D u v (w.bonds v).unbonding := by
    intro u htoken htokens hpos
    have hset : w.token ≠ 0 := fun hnone => by
      have hempty := (hr.solvent.token hnone).1
      omega
    have hbacks := hr.solvent.backed w.token
    rw [if_pos rfl, Erc20.Backs] at hbacks
    rw [htoken, htokens]
    exact ⟨hset, hzero, by omega⟩
  have hrun : (withdrawUnstake D v).wp (fun _ => True) (fun _ => False) (fun _ _ => True)
      w.fresh := by
    simp only [withdrawUnstake, wp_nonReentrant, Tx.wp_code, wp_updateBond, wp_writeVault]
    refine ⟨fun hentered => ?_, fun _ => ⟨fun hnone => hrequested hnone, fun _ =>
      ⟨fun _ => ⟨fun hearly => absurd hready (not_le.mpr hearly), fun _ => ⟨fun _ =>
      ⟨fun _ => ?_, fun hless => hless (hle.trans hamount)⟩, fun hless => hless hle⟩⟩,
      fun hlarge => hlarge hword⟩⟩⟩
    · rw [World.fresh, hr.tidy.entered] at hentered
      cases hentered
    · apply wp_deactivateBelow
      intro evs
      apply wp_transferNonzero
      · intro hnot
        exact absurd (hcovers _ rfl rfl) hnot
      · intro _
        rw [wp_emit]
        trivial
  obtain ⟨u, w', hresult, -⟩ := Tx.exists_ok_of_wp hrun
  refine ⟨w', ?_⟩
  rw [step, if_neg (not_or.mpr ⟨hself, hzero⟩)]
  simp only [Call.exec, hresult]

theorem Reach.not_vouches_of_ripening (hr : Reach D h w) (hactive : w.isActive v = true)
    (hw : Ripening w v) : ¬ Vouches D w v := by
  intro hvouches
  have hcooldown := hw.cooldown
  have hearlier := hw.earlier
  let time := max w.now ((w.bonds v).unbondRequestedAt + w.unbondCooldown)
  let u : World := { w.fresh with now := time }
  have htick : step D w (.tick time) = some u := if_pos (le_max_left _ _)
  have hlater : Reach D (⟨w, .tick time, u⟩ :: h) u := hr.next htick
  obtain ⟨w', hstep⟩ := hlater.withdrawUnstake_isSome (v := v) hw.requested hw.word
    (le_max_right _ _)
  have hsteps : steps (step D) [.tick time, .call v .withdrawUnstake] w = some w' := by
    rw [steps, htick, Option.bind_some, steps, hstep, Option.bind_some, steps]
  have hquiet : ∀ a ∈ [Act.tick time, .call v .withdrawUnstake], a.Quiet w.unbondCooldown v := by
    intro a ha
    rcases List.mem_pair.mp ha with rfl | rfl
    · trivial
    · trivial
  obtain ⟨-, -, he⟩ := step_call hstep
  have hnow : w'.now = time := he.now_eq
  have htime : w'.now < w.now + w.unbondCooldown := by
    rw [hnow]
    exact max_lt (by omega) (by omega)
  have hkept := hvouches hactive _ w' hquiet hsteps htime
  have hsome : (w.bonds v).unbondAmount ≠ 0 := hw.something
  have hpending := (hr.tidy.bonds v).pending
  have hunbonding : (w.bonds v).unbonding = (w.bonds v).unbondAmount := if_neg (not_lt.mpr hpending)
  cases he with
  | withdrawUnstake =>
    have hleft : (w.bonds v).amount ≤ (w.bonds v).amount - (w.bonds v).unbonding := by
      simp only [World.slashable, World.pay, update_self] at hkept
      exact hkept
    omega

/-- **A bond vouches for the cooldown exactly when no earlier request of its verifier is ripening.**
-/
theorem bond_vouches_iff (hr : Reach D h w) (v : Address) :
    Vouches D w v ↔ ¬ (w.isActive v = true ∧ Ripening w v) := by
  constructor
  · rintro hvouches ⟨hactive, hripening⟩
    exact hr.not_vouches_of_ripening hactive hripening hvouches
  · intro hcase hactive
    exact vouches_of_not_ripening (fun hripening => hcase ⟨hactive, hripening⟩) hactive

open Sample

theorem bond_vouches_sample : (world [.call verifier (.stake 100)]).isActive verifier = true ∧
      Vouches deployment (world [.call verifier (.stake 100)])
        verifier := by
  have hreach := reach [.call verifier (.stake 100)]
  have hidle : ((world [.call verifier (.stake 100)]).bonds
      verifier).unbondRequestedAt = 0 := by decide +kernel
  exact ⟨by decide +kernel, (bond_vouches_iff hreach verifier).mpr
    fun hripening => hripening.2.requested hidle⟩

namespace Sample

theorem steps_world (as bs : List Act)
    (hsome : (steps (step deployment) (as ++ bs) initial).isSome) :
    steps (step deployment) bs (world as) = some (world (as ++ bs)) := by
  obtain ⟨w, hw⟩ := Option.isSome_iff_exists.mp hsome
  have hsplit := hw
  rw [steps_append] at hsplit
  obtain ⟨u, hu, hrest⟩ := Option.bind_eq_some_iff.mp hsplit
  rw [world, world, hu, hw]
  exact hrest

def early : List Act :=
  [.call verifier (.stake 100), .call verifier (.requestUnstake 100), .tick 101]

def leaving : List Act := [.tick 259201, .call verifier .withdrawUnstake]

end Sample

/-- **A request made in advance.** A hundred seconds after its request the verifier is active with
its whole bond of 100, and a cooldown less a hundred seconds after that the bond is gone,
unslashed. -/
theorem bond_gone_within_cooldown : Reach deployment (history early) (world early) ∧
      (world early).isActive verifier = true ∧
      (world early).slashable verifier = 100 ∧
      (world early).unbondCooldown = 259200 ∧
      (∀ a ∈ leaving, a.Quiet 259200 verifier) ∧
      steps (step deployment) leaving (world early) = some (world (early ++ leaving)) ∧
      (world (early ++ leaving)).now < (world early).now + 259200 ∧
      (world (early ++ leaving)).slashable verifier = 0 := by
  refine ⟨reach _, by decide +kernel, by decide +kernel,
    by decide +kernel, fun a ha => ?_, steps_world _ _ (by decide +kernel),
    by decide +kernel⟩
  rcases List.mem_pair.mp ha with rfl | rfl
  · trivial
  · trivial

/-! ## Activity -/

def World.Accurate (w : World) : Prop :=
  ∀ v, w.isActive v = true ↔ (w.bonds v).registered = true ∧ w.minBond ≤ (w.bonds v).amount

/-- The step leaves every registered verifier on its side of the minimum bond. -/
def Harmless (e : Entry World Act) : Prop :=
  match e.act with
  | .call _ (.setStakeConfig minBond _ _) => ∀ v, (e.pre.bonds v).registered = true →
      (e.pre.minBond ≤ (e.pre.bonds v).amount ↔ minBond ≤ (e.pre.bonds v).amount)
  | _ => True

/-- The stored flag of a bond says what the minimum says. -/
def Bond.Accurate (minBond : ℕ) (b : Bond) : Prop :=
  b.registered = true → (b.active = true ↔ minBond ≤ b.amount)

theorem accurate_iff : w.Accurate ↔ ∀ v, (w.bonds v).Accurate w.minBond := by
  refine forall_congr' fun v => ?_
  rw [World.isActive, Bool.and_eq_true, Bond.Accurate]
  constructor
  · intro h hregistered
    have hiff := h
    simp only [hregistered, true_and] at hiff
    exact hiff
  · intro h
    exact and_congr_right h

namespace Bond.Accurate

variable {b : Bond} {minBond amount : ℕ}

theorem staked (hb : b.Accurate minBond) (htidy : b.Tidy) :
    (b.staked minBond amount).Accurate minBond := by
  intro _
  simp only [Bond.staked, Bool.or_eq_true, decide_eq_true_eq]
  constructor
  · rintro (hactive | hle)
    · exact Nat.le_add_right_of_le ((hb (htidy.known hactive)).mp hactive)
    · exact hle
  · exact Or.inr

theorem cut (hb : b.Accurate minBond) : (b.cut minBond amount).Accurate minBond := by
  intro hregistered
  simp only [Bond.cut, Bool.and_eq_true, decide_eq_true_eq]
  constructor
  · exact And.right
  · intro hle
    exact ⟨(hb hregistered).mpr (hle.trans (Nat.sub_le _ _)), hle⟩

end Bond.Accurate

theorem accurate_update {f : Address → Bond} {b : Bond} {minBond : ℕ}
    (hf : ∀ v, (f v).Accurate minBond) (hb : b.Accurate minBond) :
    ∀ x, (update f v b x).Accurate minBond :=
  (forall_update_iff f fun _ b => b.Accurate minBond).mpr ⟨hb, fun x _ => hf x⟩

theorem Effect.accurate (he : Effect D w sender c w')
    (htidy : ∀ v, (w.bonds v).Tidy) (hharmless : Harmless ⟨w, .call sender c, w'⟩)
    (hw : ∀ v, (w.bonds v).Accurate w.minBond) :
    ∀ v, (w'.bonds v).Accurate w'.minBond := by
  cases he with
  | setSlasher | setToken | setSlashSplit | distributePool => exact hw
  | setStakeConfig =>
    intro v hregistered
    exact (hw v hregistered).trans (hharmless v hregistered)
  | stake => exact accurate_update hw ((hw sender).staked (htidy sender))
  | requestUnstake => exact accurate_update hw (hw sender)
  | withdrawUnstake => exact accurate_update hw (hw sender).cut
  | slash => exact accurate_update hw (hw _).cut

theorem accurate_of_step (hr : Reach D h w) (hs : step D w a = some w')
    (hharmless : Harmless ⟨w, a, w'⟩) (hw : w.Accurate) : w'.Accurate := by
  rw [accurate_iff] at hw ⊢
  cases a with
  | tick time =>
    obtain ⟨-, rfl⟩ := step_tick hs
    exact hw
  | erc20 sender token c =>
    obtain ⟨-, T, -, rfl⟩ := step_erc20 hs
    exact hw
  | call sender c =>
    obtain ⟨-, -, he⟩ := step_call hs
    exact he.accurate hr.tidy.bonds hharmless hw

theorem Init.accurate (hw : Init D w) : w.Accurate := by
  have hbonds : w.bonds = fun _ => {} := congrArg Vault.bonds hw.vault
  rw [accurate_iff, hbonds]
  intro v hregistered
  cases hregistered

theorem harmless_of_accurate (hs : step D w a = some w') (hw : w.Accurate) (hw' : w'.Accurate) :
    Harmless ⟨w, a, w'⟩ := by
  unfold Harmless
  split
  case h_2 => trivial
  case h_1 sender minBond unbondCooldown minPoolPayout hact =>
    obtain rfl : a = .call sender (.setStakeConfig minBond unbondCooldown minPoolPayout) := hact
    obtain ⟨-, -, he⟩ := step_call hs
    rw [accurate_iff] at hw hw'
    cases he with
    | setStakeConfig =>
      intro v hregistered
      exact (hw v hregistered).symm.trans (hw' v hregistered)

/-- **The active verifiers are the sufficiently bonded ones in every state of a run exactly when no
step of it moves the minimum past somebody's bond.** -/
theorem activity_accurate_iff (hr : Reach D h w) :
    (w.Accurate ∧ ∀ e ∈ h, e.pre.Accurate) ↔ ∀ e ∈ h, Harmless e := by
  have hiff : Throughout (fun _ w => w.Accurate) h w ↔ Each (fun _ e => Harmless e) h :=
    Run.throughout_iff (J := fun _ w => w.Accurate) (H := fun _ => True) (fun _ _ _ => trivial)
      (fun _ hw => Init.accurate hw)
      (fun _ _ _ _ hr _ hw hs hharmless => accurate_of_step hr hs hharmless hw)
      (fun _ _ hw => hw) (fun _ _ _ _ _ hw hs hw' => harmless_of_accurate hs hw hw') hr trivial
  rw [← throughout_iff_pre, hiff, each_iff]

theorem activity_accurate_sample : (world slashing).isActive verifier = true ∧
      (world slashing).Accurate := by
  have hharmless : ∀ e ∈ history slashing, Harmless e := by
    refine record_forall (fun e he => absurd he List.not_mem_nil) fun a ha s s' => ?_
    simp only [slashing, List.mem_cons, List.not_mem_nil, or_false] at ha
    rcases ha with rfl | rfl | rfl | rfl | rfl | rfl | rfl <;> trivial
  exact ⟨by decide +kernel, ((activity_accurate_iff (reach slashing)).mpr hharmless).1⟩

def Sample.raising : List Act :=
  [.call verifier (.stake 100), .call deployment.admin (.setStakeConfig 200 259200 0)]

/-- **The minimum is raised past a bond.** The verifier has 100, the minimum is 200, and it is
active. -/
theorem active_below_minimum : Reach deployment (history raising) (world raising) ∧
      (world raising).isActive verifier = true ∧
      (world raising).slashable verifier = 100 ∧
      (world raising).minBond = 200 :=
  ⟨reach _, by decide +kernel⟩

end Karma.VerifierBond
