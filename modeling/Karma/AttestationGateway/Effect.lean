import Karma.AttestationGateway.Code
import Karma.VerifierRegistry.Ledger

/-! # `KarmaAttestationGateway` — what a call does

`Effect D w sender c w'` says, once for every entry point, when a call goes through and what it
leaves behind. -/

namespace Karma.AttestationGateway

open Evm Function
open VerifierRegistry (Keeps)

structure Gates (w : World) (taskId proofHash : Bytes32) : Prop where
  published : w.taskEvidence taskId ≠ 0
  proof : w.taskEvidence taskId = proofHash
  uncondemned : w.failAttestationCount taskId < w.verifiers.getRequiredThreshold
  quorum : w.verifiers.getRequiredThreshold ≤ w.validAttestationCount taskId
  windowOver : w.challengeEnd taskId ≤ w.now
  overruled : w.challenged taskId = true →
    w.challengeResolved taskId = true ∧ w.challengeUpheld taskId = false

structure Attests (D : Deployment) (w : World) (sender : Address) (taskId : Bytes32) (v : BitVec 8)
    (r s : Bytes32) : Prop where
  published : w.taskEvidence taskId ≠ 0
  active : w.verifiers.isActiveVerifier sender = true
  first : w.attestationSubmitted taskId sender = false
  signed : D.ecrecover (D.digest taskId (w.taskEvidence taskId) (w.taskEvidenceCid taskId) sender)
    v r s = sender

structure Challengeable (w : World) (taskId : Bytes32) : Prop where
  published : w.taskEvidence taskId ≠ 0
  inWindow : w.now ≤ w.challengeEnd taskId
  first : w.challenged taskId = false

structure Resolvable (D : Deployment) (w : World) (sender : Address) (taskId : Bytes32) : Prop where
  arbitrator : sender = D.arbitrator
  challenged : w.challenged taskId = true
  pending : w.challengeResolved taskId = false

def Deployment.payee (D : Deployment) (w : World) (taskId : Bytes32) (upheld : Bool) : Address :=
  if upheld = true then w.challengerOf taskId else D.arbitrator

inductive Effect (D : Deployment) (w : World) (sender : Address) : Call → World → Prop
  | registered {taskId : Bytes32} {buyer agent : Address} {es : List Event} :
      sender = D.bilateralContract →
      Effect D w sender (.registerTaskPublisher taskId buyer agent) { w with
        taskPublishers := update w.taskPublishers taskId
          (update (update (w.taskPublishers taskId) buyer true) agent true),
        events := es }
  | published {taskId evidenceHash : Bytes32} {cid : String} {es : List Event} :
      w.taskPublishers taskId sender = true → w.taskEvidence taskId = 0 →
      Effect D w sender (.publishEvidence taskId evidenceHash cid) { w with
        taskEvidence := update w.taskEvidence taskId evidenceHash,
        taskEvidenceCid := update w.taskEvidenceCid taskId cid,
        challengeEnd := update w.challengeEnd taskId (w.now + w.challengeWindowDuration),
        events := es }
  | attested {taskId r s : Bytes32} {v : BitVec 8} {valid : Bool} {R : VerifierRegistry.Registry}
      {T : Address → Erc20 Address} {es : List Event} :
      Attests D w sender taskId v r s → Keeps D.registry w.tokens T →
      Effect D w sender (.submitAttestation taskId v r s valid) { w with
        attestationSubmitted := update w.attestationSubmitted taskId
          (update (w.attestationSubmitted taskId) sender true),
        validAttestationCount :=
          if valid = true then
            update w.validAttestationCount taskId (w.validAttestationCount taskId + 1)
          else w.validAttestationCount,
        failAttestationCount :=
          if valid = true then w.failAttestationCount
          else update w.failAttestationCount taskId (w.failAttestationCount taskId + 1),
        verifiers := R, tokens := T, events := es }
  | settled {core : Core} {taskId proofHash : Bytes32} {bindingId : ℕ} {es : List Event} :
      Gates w taskId proofHash → core.bindingTaskId = some taskId → core.settle = some () →
      Effect D w sender (.settleWithAttestation core taskId bindingId proofHash)
        { w with events := es }
  | raised {taskId : Bytes32} {reason evidenceCid : String} {es : List Event} :
      Challengeable w taskId → w.challengeStakeAmount = 0 →
      Effect D w sender (.raiseChallenge taskId reason evidenceCid) { w with
        challenged := update w.challenged taskId true, events := es }
  | staked {taskId : Bytes32} {reason evidenceCid : String} {T : Erc20 Address} {es : List Event} :
      Challengeable w taskId → 0 < w.challengeStakeAmount → w.challengeStakeToken ≠ 0 →
      (w.tokens w.challengeStakeToken).transferFrom D.self sender D.self w.challengeStakeAmount =
        some T →
      Effect D w sender (.raiseChallenge taskId reason evidenceCid) { w with
        tokens := update w.tokens w.challengeStakeToken T,
        moves := w.moves ++ [.pulled w.challengeStakeToken sender w.challengeStakeAmount],
        challengerOf := update w.challengerOf taskId sender,
        challengeStakeOf := update w.challengeStakeOf taskId w.challengeStakeAmount,
        challenged := update w.challenged taskId true,
        events := es }
  | resolved {taskId : Bytes32} {upheld : Bool} {es : List Event} :
      Resolvable D w sender taskId → w.challengeStakeOf taskId = 0 →
      Effect D w sender (.resolveChallenge taskId upheld) { w with
        challengeResolved := update w.challengeResolved taskId true,
        challengeUpheld := update w.challengeUpheld taskId upheld,
        events := es }
  | repaid {taskId : Bytes32} {upheld : Bool} {T : Erc20 Address} {es : List Event} :
      Resolvable D w sender taskId → 0 < w.challengeStakeOf taskId → w.challengeStakeToken ≠ 0 →
      (w.tokens w.challengeStakeToken).transfer D.self (D.payee w taskId upheld)
        (w.challengeStakeOf taskId) = some T →
      Effect D w sender (.resolveChallenge taskId upheld) { w with
        tokens := update w.tokens w.challengeStakeToken T,
        moves := w.moves ++ [.sent w.challengeStakeToken (D.payee w taskId upheld)
          (w.challengeStakeOf taskId)],
        challengeStakeOf := update w.challengeStakeOf taskId 0,
        challengeResolved := update w.challengeResolved taskId true,
        challengeUpheld := update w.challengeUpheld taskId upheld,
        events := es }
  | durationSet {duration : ℕ} {es : List Event} :
      sender = D.arbitrator → minChallengeWindow ≤ duration →
      Effect D w sender (.setChallengeWindowDuration duration)
        { w with challengeWindowDuration := duration, events := es }
  | stakeSet {token : Address} {amount : ℕ} {es : List Event} : sender = D.arbitrator →
      Effect D w sender (.setChallengeStake token amount)
        { w with challengeStakeToken := token, challengeStakeAmount := amount, events := es }

variable {D : Deployment} {w w' : World} {sender : Address} {I : World → Prop}

/-! ## Rules for the helpers -/

section Rules

variable {E : Error → Prop} {Q : Unit → World → Prop}

@[simp] theorem wp_emit (e : Event) :
    (emit e).wp I E Q w ↔ Q () { w with events := w.events ++ [e] } := by
  simp [emit]

@[simp] theorem wp_write (f : Storage → Storage) :
    (write f).wp I E Q w ↔ Q () { w with toStorage := f w.toStorage } := by
  simp [write]

variable {c : VerifierRegistry.Call}

theorem runRegistry_eq_some (h : w.runRegistry D sender c = some w') :
    ∃ R T, w' = { w with verifiers := R, tokens := T } ∧ Keeps D.registry w.tokens T := by
  unfold World.runRegistry at h
  split at h
  case h_1 R hr =>
    have hkeeps := VerifierRegistry.keeps_of_exec (D := D.registry)
      (w := { toRegistry := w.verifiers, tokens := w.tokens }) hr
    exact ⟨R.toRegistry, R.tokens, (Option.some.inj h).symm, hkeeps⟩
  case h_2 => cases h

theorem wp_callRegistry (hE : E .externalCallFailed)
    (hQ : ∀ R T, Keeps D.registry w.tokens T → Q () { w with verifiers := R, tokens := T }) :
    (callRegistry D c).wp I E Q w := by
  simp only [callRegistry, Tx.wp_code]
  refine ⟨fun _ => hE, fun v hv => ?_⟩
  obtain ⟨R, T, rfl, hT⟩ := runRegistry_eq_some hv
  exact hQ R T hT

theorem wp_tryRegistry
    (hQ : ∀ R T, Keeps D.registry w.tokens T → Q () { w with verifiers := R, tokens := T }) :
    (tryRegistry D c).wp I E Q w := by
  simp only [tryRegistry, Tx.wp_modify]
  cases h : w.runRegistry D D.self c with
  | none => exact hQ w.verifiers w.tokens (.refl _)
  | some v =>
    obtain ⟨R, T, rfl, hT⟩ := runRegistry_eq_some h
    exact hQ R T hT

end Rules

/-! ## The entry points -/

theorem wp_submitAttestation {taskId r s : Bytes32} {v : BitVec 8} {valid : Bool} :
    (exec D sender (.submitAttestation taskId v r s valid)).wp I (fun _ => True)
      (fun _ w' => Effect D w sender (.submitAttestation taskId v r s valid) w') w := by
  simp only [exec, submitAttestation, countAttestation, Tx.post_code, wp_write]
  intro hpub hactive hfirst hsigned
  rw [not_or, not_not] at hsigned
  have hatt : Attests D w sender taskId v r s :=
    ⟨hpub, by simpa using hactive, by simpa using hfirst, hsigned.1⟩
  -- the verdict counts on one side or the other; the reports to the registry come after it
  cases valid with
  | true =>
    refine ⟨fun _ _ => ?_, fun h => absurd rfl h⟩
    refine wp_callRegistry trivial fun R T hT => ?_
    simp only [wp_emit]
    refine ⟨fun _ => wp_tryRegistry fun R' T' hT' => ?_, fun _ => .attested hatt hT⟩
    exact .attested hatt fun a ha t n hb => hT' a ha t n (hT a ha t n hb)
  | false =>
    refine ⟨fun h => absurd h Bool.false_ne_true, fun _ _ => ?_⟩
    refine wp_callRegistry trivial fun R T hT => ?_
    simp only [wp_emit]
    exact ⟨fun h => absurd h.1 Bool.false_ne_true, fun _ => .attested hatt hT⟩

theorem wp_requireGates {E : Error → Prop} {core : Core} {taskId proofHash : Bytes32}
    {bindingId : ℕ} {Q : Unit → World → Prop}
    (hE : ¬ (Gates w taskId proofHash ∧ core.bindingTaskId = some taskId) → ∀ e, E e)
    (hQ : Gates w taskId proofHash → core.bindingTaskId = some taskId → Q () w) :
    (requireGates core taskId bindingId proofHash).wp I E Q w := by
  simp only [requireGates, Tx.wp_code]
  simp only [failedAttestationBlock, Nat.mul_one]
  refine ⟨fun h => hE (fun hg => hg.1.published h) _, fun hpub => ⟨fun h => hE ?_ _,
    fun bound hbound => ⟨fun h => hE ?_ _, fun htask =>
      ⟨fun h => hE (fun hg => h hg.1.proof) _, fun hproof =>
        ⟨fun h => hE (fun hg => not_le.mpr hg.1.uncondemned h) _, fun hfail =>
          ⟨fun h => hE (fun hg => not_lt.mpr hg.1.quorum h) _, fun hquorum =>
            ⟨fun h => hE (fun hg => not_lt.mpr hg.1.windowOver h) _, fun hover =>
              ⟨fun hch => ⟨fun h => hE ?_ _, fun hres => ⟨fun h => hE ?_ _, fun hup => ?_⟩⟩,
                fun hch => ?_⟩⟩⟩⟩⟩⟩⟩⟩
  · rintro ⟨-, hbound⟩
    rw [h] at hbound
    cases hbound
  · rintro ⟨-, hbound'⟩
    rw [hbound] at hbound'
    exact h (Option.some.inj hbound')
  · rintro ⟨hg, -⟩
    rw [(hg.overruled hch).1] at h
    cases h
  · rintro ⟨hg, -⟩
    rw [(hg.overruled hch).2] at h
    cases h
  · refine hQ ⟨hpub, not_not.mp hproof, not_le.mp hfail, not_lt.mp hquorum, not_lt.mp hover,
      fun _ => ⟨by simpa using hres, by simpa using hup⟩⟩ ?_
    rw [hbound, not_not.mp htask]
  · refine hQ ⟨hpub, not_not.mp hproof, not_le.mp hfail, not_lt.mp hquorum, not_lt.mp hover,
      fun h => absurd h hch⟩ ?_
    rw [hbound, not_not.mp htask]

theorem wp_settleWithAttestation {core : Core} {taskId proofHash : Bytes32} {bindingId : ℕ} :
    (exec D sender (.settleWithAttestation core taskId bindingId proofHash)).wp (fun _ => True)
      (fun _ => True)
      (fun _ w' =>
        Effect D w sender (.settleWithAttestation core taskId bindingId proofHash) w') w := by
  simp only [exec, settleWithAttestation, Tx.wp_bind]
  refine wp_requireGates (fun _ _ => trivial) fun hgates hbound => ?_
  simp only [Tx.wp_callOut_nil, Tx.post_code, wp_emit, true_and]
  refine fun hsettle => .settled hgates hbound ?_
  cases hs : core.settle with
  | none => exact absurd hs hsettle
  | some => rfl

theorem wp_raiseChallenge {taskId : Bytes32} {reason evidenceCid : String} :
    (exec D sender (.raiseChallenge taskId reason evidenceCid)).wp I (fun _ => True)
      (fun _ w' => Effect D w sender (.raiseChallenge taskId reason evidenceCid) w') w := by
  simp only [exec, raiseChallenge, pullStake, Tx.post_code, wp_write, wp_emit]
  intro hpub hwin hfirst
  have hch : Challengeable w taskId := ⟨hpub, not_lt.mp hwin, by simpa using hfirst⟩
  refine ⟨fun hpos htoken T hT => ?_, fun hzero => .raised hch (Nat.eq_zero_of_not_pos hzero)⟩
  exact .staked hch hpos htoken hT

theorem wp_resolveChallenge {taskId : Bytes32} {upheld : Bool} :
    (exec D sender (.resolveChallenge taskId upheld)).wp I (fun _ => True)
      (fun _ w' => Effect D w sender (.resolveChallenge taskId upheld) w') w := by
  simp only [exec, resolveChallenge, sendStake, Tx.post_code, wp_write, wp_emit]
  intro harb hch hpending
  have hres : Resolvable D w sender taskId :=
    ⟨not_not.mp harb, by simpa using hch, by simpa using hpending⟩
  refine ⟨fun hpos => ?_, fun hzero => .resolved hres (Nat.eq_zero_of_not_pos hzero)⟩
  refine ⟨fun hup htoken T hT => ?_, fun hup htoken T hT => ?_⟩
  · -- upheld: the challenger is the payee
    have hpayee : D.payee w taskId upheld = w.challengerOf taskId := if_pos hup
    rw [← hpayee] at hT ⊢
    exact .repaid hres hpos htoken hT
  · have hpayee : D.payee w taskId upheld = D.arbitrator := if_neg hup
    rw [← hpayee] at hT ⊢
    exact .repaid hres hpos htoken hT

theorem wp_exec (c : Call) : (exec D sender c).wp (fun _ => True) (fun _ => True)
      (fun _ w' => Effect D w sender c w') w := by
  cases c with
  | registerTaskPublisher =>
    simp only [exec, registerTaskPublisher, Tx.post_code, wp_write, wp_emit]
    exact fun h => .registered (not_not.mp h)
  | publishEvidence =>
    simp only [exec, publishEvidence, Tx.post_code, wp_write, wp_emit]
    exact fun hpub hnew _ => .published (by simpa using hpub) (not_not.mp hnew)
  | submitAttestation => exact wp_submitAttestation
  | settleWithAttestation => exact wp_settleWithAttestation
  | raiseChallenge => exact wp_raiseChallenge
  | resolveChallenge => exact wp_resolveChallenge
  | setChallengeWindowDuration =>
    simp only [exec, setChallengeWindowDuration, Tx.post_code, wp_write, wp_emit]
    exact fun harb hmin => .durationSet (not_not.mp harb) (not_lt.mp hmin)
  | setChallengeStake =>
    simp only [exec, setChallengeStake, Tx.post_code, wp_write, wp_emit]
    exact fun harb _ => .stakeSet (not_not.mp harb)

/-! ## Transactions -/

inductive Transition (D : Deployment) (w : World) : Act → World → Prop
  | tick {time : ℕ} : w.now ≤ time → Transition D w (.tick time) { w.fresh with now := time }
  | gateway {sender : Address} {c : Call} {w' : World} :
      sender ≠ D.self → Effect D w.fresh sender c w' → Transition D w (.gateway sender c) w'
  | verifiers {sender : Address} {c : VerifierRegistry.Call} {R : VerifierRegistry.Registry}
      {T : Address → Erc20 Address} :
      Keeps D.registry w.tokens T →
      Transition D w (.verifiers sender c) { w.fresh with verifiers := R, tokens := T }
  | erc20 {sender token : Address} {c : Erc20.Call Address} {T : Erc20 Address} :
      sender ≠ D.self → (w.tokens token).run sender c = some T →
      Transition D w (.erc20 sender token c) { w.fresh with tokens := update w.tokens token T }

theorem transition_of_step {a : Act} (h : step D w a = some w') : Transition D w a w' := by
  unfold step at h
  split_ifs at h with hsender
  rw [not_or, not_or] at hsender
  cases a with
  | tick time =>
    dsimp only at h
    split_ifs at h with htime
    cases h
    exact .tick htime
  | gateway sender c =>
    dsimp only at h
    split at h
    case h_1 u hr =>
      cases h
      refine .gateway (fun he => hsender.1 (congrArg some he)) ?_
      exact Tx.wp_ok (wp_exec c) hr
    case h_2 => cases h
  | verifiers sender c =>
    obtain ⟨R, T, rfl, hT⟩ := runRegistry_eq_some h
    exact .verifiers hT
  | erc20 sender token c =>
    obtain ⟨T, hT, rfl⟩ := Option.map_eq_some_iff.mp h
    exact .erc20 (fun he => hsender.1 (congrArg some he)) hT

theorem backs_update {T : Erc20 Address} {token y x t : Address} {n : ℕ}
    {c : Erc20.Call Address} (hT : (w.tokens token).run y c = some T) (hne : y ≠ x)
    (hb : (w.tokens t).Backs x n) : (update w.tokens token T t).Backs x n := by
  rcases eq_or_ne t token with rfl | ht
  · rw [update_self]
    exact hb.run hne hT
  · rw [update_of_ne ht]
    exact hb

theorem Transition.backs {a : Act} {x t : Address} {n : ℕ} (ht : Transition D w a w')
    (hself : x ≠ D.self) (hregistry : x ≠ D.registry.self) (hsender : a.sender ≠ some x)
    (hb : (w.tokens t).Backs x n) : (w'.tokens t).Backs x n := by
  cases ht with
  | tick _ => exact hb
  | verifiers hT => exact hT x hregistry t n hb
  | erc20 _ hT => exact backs_update hT (fun heq => hsender (congrArg some heq)) hb
  | gateway _ he =>
    cases he with
    | attested _ hT => exact hT x hregistry t n hb
    | staked _ _ _ hT =>
      exact backs_update (w := w) (c := .transferFrom _ D.self _) hT hself.symm hb
    | repaid _ _ _ hT => exact backs_update (w := w) (c := .transfer _ _) hT hself.symm hb
    | _ => exact hb

theorem Transition.now_le {a : Act} (h : Transition D w a w') : w.now ≤ w'.now := by
  cases h with
  | tick htime => exact htime
  | gateway _ he => cases he <;> exact le_rfl
  | verifiers | erc20 => exact le_rfl

end Karma.AttestationGateway
