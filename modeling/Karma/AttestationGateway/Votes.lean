import Karma.AttestationGateway.Effect

/-! # `KarmaAttestationGateway` — votes are counted once, and the view tells the truth

The two counters of a task add up to the number of verifiers that submitted (`Reach.counted`), and
each of these was active when it did and signed the evidence that the task has (`Reach.attested`).
-/

namespace Karma.AttestationGateway

open Evm Function

variable {D : Deployment} {h : History} {w w' : World} {a : Act} {sender : Address}

/-! ## The gates -/

theorem canSettle_iff {taskId proofHash : Bytes32} :
    w.canSettle taskId proofHash = true ↔ Gates w taskId proofHash := by
  unfold World.canSettle World.unblocked
  constructor
  · intro hview
    split_ifs at hview with hpub hproof hquorum hfail hover hch hres hup
    · exact ⟨hpub, not_not.mp hproof, not_le.mp hfail, not_lt.mp hquorum, not_lt.mp hover,
        fun _ => ⟨by simpa using hres, by simpa using hup⟩⟩
    · exact ⟨hpub, not_not.mp hproof, not_le.mp hfail, not_lt.mp hquorum, not_lt.mp hover,
        fun hch' => absurd hch' hch⟩
  · intro hg
    rw [if_neg hg.published, if_neg (not_not.mpr hg.proof), if_neg (not_lt.mpr hg.quorum),
      if_neg (not_le.mpr hg.uncondemned), if_neg (not_lt.mpr hg.windowOver)]
    by_cases hch : w.challenged taskId = true
    · obtain ⟨hres, hup⟩ := hg.overruled hch
      simp [hch, hres, hup]
    · rw [if_neg hch]

variable {taskId : Bytes32}

theorem requireGates_of_gates {core : Core} {taskId proofHash : Bytes32} {bindingId : ℕ}
    (hg : Gates w taskId proofHash) (hbound : core.bindingTaskId = some taskId) :
    requireGates core taskId bindingId proofHash w = ⟨[], .ok ((), w)⟩ := by
  refine Tx.eq_ok_of_wp (wp_requireGates (fun hclosed => ?_) fun _ _ => ⟨rfl, rfl⟩)
  exact absurd ⟨hg, hbound⟩ hclosed

theorem seen_settleWithAttestation {core : Core} {taskId proofHash : Bytes32} {bindingId : ℕ}
    (hbound : core.bindingTaskId = some taskId) :
    (exec D sender (.settleWithAttestation core taskId bindingId proofHash) w).seen ≠ [] ↔
      Gates w taskId proofHash := by
  constructor
  · intro hseen
    by_contra hg
    -- with closed gates no world at all may be shown to the core
    have hwp : (exec D sender (.settleWithAttestation core taskId bindingId proofHash)).wp
        (fun _ => False) (fun _ => True) (fun _ _ => True) w := by
      simp only [exec, settleWithAttestation, Tx.wp_bind]
      exact wp_requireGates (fun _ _ => trivial) fun hgates => absurd hgates hg
    obtain ⟨v, hv⟩ := List.exists_mem_of_ne_nil _ hseen
    exact hwp.1 v hv
  · intro hg
    simp only [exec, settleWithAttestation, Bind.bind, requireGates_of_gates hg hbound]
    simp [Tx.callOut, Tx.worlds]

theorem Transition.evidence (ht : Transition D w a w') (hpub : w.taskEvidence taskId ≠ 0) :
    w'.taskEvidence taskId = w.taskEvidence taskId ∧
      w'.taskEvidenceCid taskId = w.taskEvidenceCid taskId ∧
      w'.challengeEnd taskId = w.challengeEnd taskId := by
  cases ht with
  | tick _ | verifiers _ | erc20 _ _ => exact ⟨rfl, rfl, rfl⟩
  | gateway _ he =>
    cases he with
    | published _ hnew =>
      -- only an unpublished task can be published
      have hne : taskId ≠ _ := fun heq => hpub (heq ▸ hnew)
      exact ⟨update_of_ne hne _ _, update_of_ne hne _ _, update_of_ne hne _ _⟩
    | _ => exact ⟨rfl, rfl, rfl⟩

theorem Reach.evidence (hr : Reach D h w) {e : Entry World Act} (he : e ∈ h)
    (hpub : e.pre.taskEvidence taskId ≠ 0) :
    w.taskEvidence taskId = e.pre.taskEvidence taskId ∧
      w.taskEvidenceCid taskId = e.pre.taskEvidenceCid taskId ∧
      w.challengeEnd taskId = e.pre.challengeEnd taskId := by
  induction hr with
  | start _ => cases he
  | next hr hs ih =>
    have ht := transition_of_step hs
    rcases List.mem_cons.mp he with rfl | he
    · exact ht.evidence hpub
    · obtain ⟨hhash, hcid, hend⟩ := ih he
      obtain ⟨hhash', hcid', hend'⟩ := ht.evidence (by rw [hhash]; exact hpub)
      exact ⟨hhash'.trans hhash, hcid'.trans hcid, hend'.trans hend⟩

/-! ## The count -/

def World.voters (w : World) (taskId : Bytes32) : Finset Address :=
  Finset.univ.filter fun v => w.attestationSubmitted taskId v = true

variable {v : Address}

theorem card_filter_update {f : Address → Bool} (hv : f v = false) :
    (Finset.univ.filter fun x => update f v true x = true).card =
      (Finset.univ.filter fun x => f x = true).card + 1 := by
  have hinsert : (Finset.univ.filter fun x => update f v true x = true) =
      insert v (Finset.univ.filter fun x => f x = true) := by
    ext x
    rcases eq_or_ne x v with rfl | hne
    · simp
    · simp [hne]
  rw [hinsert, Finset.card_insert_of_notMem (by simp [hv])]

def Counted (w : World) : Prop :=
  ∀ taskId, w.validAttestationCount taskId + w.failAttestationCount taskId = (w.voters taskId).card

theorem Counted.attested {taskId : Bytes32} {valid : Bool} (hc : Counted w)
    (hfirst : w.attestationSubmitted taskId sender = false)
    (hsub : w'.attestationSubmitted = update w.attestationSubmitted taskId
      (update (w.attestationSubmitted taskId) sender true))
    (hvalid : w'.validAttestationCount = if valid = true then
        update w.validAttestationCount taskId (w.validAttestationCount taskId + 1)
      else w.validAttestationCount)
    (hfail : w'.failAttestationCount = if valid = true then w.failAttestationCount
      else update w.failAttestationCount taskId (w.failAttestationCount taskId + 1)) :
    Counted w' := by
  intro x
  have hx := hc x
  unfold World.voters at hx ⊢
  rw [hsub, hvalid, hfail]
  rcases eq_or_ne x taskId with rfl | hne
  · simp only [update_self]
    rw [card_filter_update hfirst, ← hx]
    cases valid
    · simp [Nat.add_assoc]
    · simp [Nat.add_right_comm]
  · rw [update_of_ne hne, ← hx]
    cases valid <;> simp [hne]

theorem Transition.counted (ht : Transition D w a w') (hc : Counted w) : Counted w' := by
  cases ht with
  | tick | verifiers | erc20 => exact hc
  | gateway _ he =>
    cases he with
    | attested hatt _ => exact Counted.attested (w := w) hc hatt.first rfl rfl rfl
    | _ => exact hc

theorem Reach.counted (hr : Reach D h w) : Counted w := by
  refine hr.safe (fun w hinit => ?_) fun _ _ _ hc hs => (transition_of_step hs).counted hc
  intro taskId
  simp [World.voters, hinit.storage]

/-! ## The voters -/

def Submitted (D : Deployment) (h : History) (w : World) (taskId : Bytes32) (v : Address) : Prop :=
  ∃ e ∈ h, ∃ sig r s valid, e.act = .gateway v (.submitAttestation taskId sig r s valid) ∧
    e.pre.verifiers.isActiveVerifier v = true ∧
    D.ecrecover (D.digest taskId (w.taskEvidence taskId) (w.taskEvidenceCid taskId) v) sig r s = v

theorem Transition.voter (ht : Transition D w a w') (hv : w'.attestationSubmitted taskId v = true) :
    w.attestationSubmitted taskId v = true ∨
      ∃ sig r s valid, a = .gateway v (.submitAttestation taskId sig r s valid) ∧
        Attests D w v taskId sig r s := by
  cases ht with
  | tick | verifiers | erc20 => exact .inl hv
  | @gateway by_ _ _ _ he =>
    cases he with
    | @attested x r s sig valid _ _ _ hatt _ =>
      by_cases hx : taskId = x ∧ v = by_
      · obtain ⟨rfl, rfl⟩ := hx
        exact .inr ⟨sig, r, s, valid, rfl, hatt.published, hatt.active, hatt.first, hatt.signed⟩
      · left
        -- another task, or another verifier
        rcases eq_or_ne taskId x with rfl | hne
        · have hother : v ≠ by_ := fun heq => hx ⟨rfl, heq⟩
          simpa [World.fresh, hother] using hv
        · simpa [World.fresh, hne] using hv
    | _ => exact .inl hv

theorem Reach.published_of_voter (hr : Reach D h w) (hv : w.attestationSubmitted taskId v = true) :
    w.taskEvidence taskId ≠ 0 := by
  induction hr with
  | start hinit => simp [hinit.storage] at hv
  | next _ hs ih =>
    have ht := transition_of_step hs
    rcases ht.voter hv with hold | ⟨_, _, _, _, _, hatt⟩
    · rw [(ht.evidence (ih hold)).1]
      exact ih hold
    · rw [(ht.evidence hatt.published).1]
      exact hatt.published

theorem Reach.attested (hr : Reach D h w) {taskId : Bytes32} {v : Address}
    (hv : w.attestationSubmitted taskId v = true) : Submitted D h w taskId v := by
  induction hr with
  | start hinit => simp [hinit.storage] at hv
  | next hr hs ih =>
    have ht := transition_of_step hs
    rcases ht.voter hv with hold | ⟨sig, r, s, valid, rfl, hatt⟩
    · obtain ⟨e, he, sig, r, s, valid, hact, hactive, hsigned⟩ := ih hold
      obtain ⟨hhash, hcid, -⟩ := ht.evidence (Reach.published_of_voter hr hold)
      refine ⟨e, List.mem_cons_of_mem _ he, sig, r, s, valid, hact, hactive, ?_⟩
      rw [hhash, hcid]
      exact hsigned
    · obtain ⟨hhash, hcid, -⟩ := ht.evidence hatt.published
      refine ⟨_, List.mem_cons_self, sig, r, s, valid, rfl, hatt.active, ?_⟩
      rw [hhash, hcid]
      exact hatt.signed

/-- **Vote accounting and gate equivalence.** -/
theorem votes_counted_and_gates_agree (hr : Reach D h w) (taskId : Bytes32) :
    w.validAttestationCount taskId + w.failAttestationCount taskId =
        (Finset.univ.filter fun v => w.attestationSubmitted taskId v = true).card ∧
      (∀ v, w.attestationSubmitted taskId v = true → Submitted D h w taskId v) ∧
      (∀ e ∈ h, e.pre.taskEvidence taskId ≠ 0 → w.taskEvidence taskId = e.pre.taskEvidence taskId ∧
          w.taskEvidenceCid taskId = e.pre.taskEvidenceCid taskId) ∧
      ∀ (core : Core) (sender : Address) (bindingId : ℕ) (proofHash : Bytes32),
        core.bindingTaskId = some taskId →
        (w.canSettle taskId proofHash = true ↔
          (exec D sender (.settleWithAttestation core taskId bindingId proofHash) w).seen ≠
            []) := by
  refine ⟨Reach.counted hr taskId, fun v hv => Reach.attested hr hv, fun e he hpub => ?_,
    fun core sender bindingId proofHash hbound => ?_⟩
  · obtain ⟨hhash, hcid, -⟩ := Reach.evidence hr he hpub
    exact ⟨hhash, hcid⟩
  · rw [canSettle_iff, seen_settleWithAttestation hbound]

/-! ## A sample gateway

One verifier, a quorum of one, a task of the buyer `3` and the agent `4` that is published and
attested at time 100 under a window of two hours. -/

namespace Sample

def registry : VerifierRegistry.Deployment where
  self := .ofNat 20
  admin := .ofNat 21
  self_ne_zero := by decide
  admin_ne_zero := by decide

def deployment (duration : ℕ) : Deployment where
  self := .ofNat 10
  registry := registry
  bilateralContract := .ofNat 11
  arbitrator := .ofNat 12
  windowDuration := duration
  digest := fun _ _ _ _ => 0
  ecrecover := fun _ _ r _ => ⟨r.setWidth 160⟩
  self_ne_zero := by decide
  self_ne_registry := by decide
  bilateral_ne_zero := by decide
  arbitrator_ne_zero := by decide

def start (duration : ℕ) : World where
  challengeWindowDuration := duration
  verifiers := registry.created
  tokens := fun _ =>
    { balanceOf := fun a => if a = .ofNat 10 then 0 else 100
      allowance := fun owner _ => if owner = .ofNat 6 then 50 else 0 }
  now := 100
  moves := []
  events := []

theorem init_start (duration : ℕ) : Init (deployment duration) (start duration) where
  storage := rfl
  allowance := fun _ _ => rfl

def opening : List Act :=
  [.verifiers (.ofNat 21) (.setThresholds 1 1),
    .verifiers (.ofNat 21) (.registerVerifier (.ofNat 5) "" 0),
    .verifiers (.ofNat 21) (.setAuthorizedCaller (.ofNat 10) true),
    .gateway (.ofNat 11) (.registerTaskPublisher 1 (.ofNat 3) (.ofNat 4)),
    .gateway (.ofNat 4) (.publishEvidence 1 7 "cid"),
    .gateway (.ofNat 5) (.submitAttestation 1 27 5 0 true)]

def settlement : Act :=
  .gateway (.ofNat 6) (.settleWithAttestation { bindingTaskId := some 1, settle := some () } 1 1 7)

def challenge : Act := .gateway (.ofNat 6) (.raiseChallenge 1 "" "")

def after (duration : ℕ) (as : List Act) : World :=
  (steps (step (deployment duration)) (opening ++ as) (start duration)).getD (start duration)

def history (duration : ℕ) (as : List Act) : History :=
  record (step (deployment duration)) (opening ++ as) (start duration) []

theorem reach {duration : ℕ} {as : List Act}
    (hok : (steps (step (deployment duration)) (opening ++ as) (start duration)).isSome) :
    Reach (deployment duration) (history duration as) (after duration as) := by
  obtain ⟨w, hw⟩ := Option.isSome_iff_exists.mp hok
  have hstart : Reach (deployment duration) [] (start duration) := .start (init_start duration)
  rw [after, hw]
  exact hstart.steps hw

end Sample

open Sample

theorem votes_counted_and_gates_agree_sample :
    (after 7200 [.tick 7300]).validAttestationCount 1 = 1 ∧
      (after 7200 [.tick 7300]).canSettle 1 7 = true ∧
      Submitted (deployment 7200) (history 7200 [.tick 7300])
        (after 7200 [.tick 7300]) 1 (.ofNat 5) := by
  refine ⟨by decide +kernel, by decide +kernel, ?_⟩
  have hreach : Reach (deployment 7200) _ (after 7200 [.tick 7300]) :=
    reach (by decide +kernel)
  exact (votes_counted_and_gates_agree hreach 1).2.1 (.ofNat 5) (by decide +kernel)

end Karma.AttestationGateway
