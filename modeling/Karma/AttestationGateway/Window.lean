import Karma.AttestationGateway.Votes

/-! # `KarmaAttestationGateway` — the challenge window

A challenge may be raised up to and including the second `challengeEnd`, a settlement may be made
from that second on. -/

namespace Karma.AttestationGateway

open Evm

variable {D : Deployment} {h : History} {w w' : World} {a : Act} {sender : Address}
  {taskId : Bytes32}

/-! ## What an action is about -/

def Act.settles : Act → Option Bytes32
  | .gateway _ (.settleWithAttestation _ taskId _ _) => some taskId
  | _ => none

def Act.challenges : Act → Option Bytes32
  | .gateway _ (.raiseChallenge taskId _ _) => some taskId
  | _ => none

def Act.publishes : Act → Option (Bytes32 × Bytes32)
  | .gateway _ (.publishEvidence taskId evidenceHash _) => some (taskId, evidenceHash)
  | _ => none

theorem eq_of_settles (ha : taskId ∈ a.settles) :
    ∃ sender core b p, a = .gateway sender (.settleWithAttestation core taskId b p) := by
  match a, ha with
  | .gateway sender (.settleWithAttestation core _ b p), rfl => exact ⟨sender, core, b, p, rfl⟩

theorem eq_of_challenges (ha : taskId ∈ a.challenges) :
    ∃ sender reason cid, a = .gateway sender (.raiseChallenge taskId reason cid) := by
  match a, ha with
  | .gateway sender (.raiseChallenge _ reason cid), rfl => exact ⟨sender, reason, cid, rfl⟩

theorem Transition.gates (ht : Transition D w a w') (ha : taskId ∈ a.settles) :
    ∃ proofHash, Gates w taskId proofHash := by
  obtain ⟨sender, core, b, p, rfl⟩ := eq_of_settles ha
  cases ht with
  | gateway _ he =>
    cases he with
    | settled hg _ _ =>
      exact ⟨p, hg.published, hg.proof, hg.uncondemned, hg.quorum, hg.windowOver, hg.overruled⟩

theorem Transition.challengeable (ht : Transition D w a w') (ha : taskId ∈ a.challenges) :
    Challengeable w taskId := by
  obtain ⟨sender, reason, cid, rfl⟩ := eq_of_challenges ha
  cases ht with
  | gateway _ he =>
    cases he with
    | raised hc _ => exact ⟨hc.published, hc.inWindow, hc.first⟩
    | staked hc _ _ _ => exact ⟨hc.published, hc.inWindow, hc.first⟩

/-! ## Time along a run -/

variable {e : Entry World Act}

theorem Reach.now_le (hr : Reach D h w) (he : e ∈ h) : e.pre.now ≤ w.now := by
  induction hr with
  | start _ => cases he
  | next _ hs ih =>
    have hle := (transition_of_step hs).now_le
    rcases List.mem_cons.mp he with rfl | he
    · exact hle
    · exact (ih he).trans hle

theorem Reach.now_le_of_later {later before : History} {e e' : Entry World Act}
    (hr : Reach D (later ++ e :: before) w) (he' : e' ∈ later) : e.pre.now ≤ e'.pre.now := by
  obtain ⟨newer, older, rfl⟩ := List.append_of_mem he'
  rw [List.append_assoc, List.cons_append] at hr
  exact Reach.now_le (Run.of_append hr).1 (List.mem_append_right _ List.mem_cons_self)

theorem Reach.challengeEnd_eq (hr : Reach D h w) (he : e ∈ h)
    (hpub : e.pre.taskEvidence taskId ≠ 0) : e.pre.challengeEnd taskId = w.challengeEnd taskId :=
  (Reach.evidence hr he hpub).2.2.symm

theorem Reach.settled (hr : Reach D h w) (he : e ∈ h)
    (hset : taskId ∈ e.act.settles) :
    (∃ proofHash, Gates e.pre taskId proofHash) ∧ w.challengeEnd taskId ≤ e.pre.now := by
  obtain ⟨_, -, hs⟩ := Run.of_mem hr he
  obtain ⟨p, hg⟩ := (transition_of_step hs).gates hset
  rw [← Reach.challengeEnd_eq hr he hg.published]
  exact ⟨⟨p, hg⟩, hg.windowOver⟩

theorem Reach.challenged (hr : Reach D h w) (he : e ∈ h)
    (hch : taskId ∈ e.act.challenges) : e.pre.now ≤ w.challengeEnd taskId := by
  obtain ⟨_, -, hs⟩ := Run.of_mem hr he
  have hc := (transition_of_step hs).challengeable hch
  rw [← Reach.challengeEnd_eq hr he hc.published]
  exact hc.inWindow

/-- **Challenge and settlement are disjoint** in every run that makes no settlement in the very
second in which its task's window ends. -/
theorem phases_disjoint (hr : Reach D h w)
    (hoff : ∀ e ∈ h, ∀ taskId ∈ e.act.settles, e.pre.now ≠ e.pre.challengeEnd taskId) :
    (∀ taskId, ∀ e ∈ h, taskId ∈ e.act.settles → ∀ e' ∈ h, taskId ∈ e'.act.challenges →
        e'.pre.now < e.pre.now) ∧
      (∀ taskId later e before, h = later ++ e :: before → taskId ∈ e.act.settles →
        ∀ e' ∈ later, taskId ∉ e'.act.challenges) ∧
      ∀ taskId proofHash, w.canSettle taskId proofHash = true →
        (w.isChallengeWindowOpen taskId = false ↔ w.now ≠ w.challengeEnd taskId) := by
  have hbefore : ∀ taskId, ∀ e ∈ h, taskId ∈ e.act.settles → ∀ e' ∈ h,
      taskId ∈ e'.act.challenges → e'.pre.now < e.pre.now := by
    intro taskId e he hset e' he' hch
    obtain ⟨⟨p, hg⟩, hover⟩ := Reach.settled hr he hset
    have hne := hoff e he taskId hset
    rw [Reach.challengeEnd_eq hr he hg.published] at hne
    have hin := Reach.challenged hr he' hch
    omega
  refine ⟨hbefore, ?_, ?_⟩
  · intro taskId later e before hsplit hset e' he' hch
    subst hsplit
    have hlt := hbefore taskId e (List.mem_append_right _ List.mem_cons_self) hset e'
      (List.mem_append_left _ he') hch
    -- the clock does not run backwards
    exact absurd (Reach.now_le_of_later hr he') (not_le.mpr hlt)
  · intro taskId proofHash hcan
    have hg := canSettle_iff.mp hcan
    have hover := hg.windowOver
    simp only [World.isChallengeWindowOpen, hg.published, ne_eq, not_false_eq_true, decide_true,
      Bool.and_true, decide_eq_false_iff_not]
    omega

open Sample

theorem phases_disjoint_sample : (∃ e ∈ history 7200 [.tick 7301, settlement], 1 ∈ e.act.settles) ∧
      (after 7200 [.tick 7301, settlement]).canSettle 1 7 = true ∧
      (after 7200 [.tick 7301, settlement]).isChallengeWindowOpen 1 = false := by
  have hreach : Reach (deployment 7200) (history 7200 [.tick 7301, settlement])
      (after 7200 [.tick 7301, settlement]) := reach (by decide +kernel)
  have hoff : ∀ e ∈ history 7200 [.tick 7301, settlement],
      ∀ taskId ∈ e.act.settles, e.pre.now ≠ e.pre.challengeEnd taskId := by
    have hall : (history 7200 [.tick 7301, settlement]).all (fun e =>
        e.act.settles.all fun taskId => e.pre.now != e.pre.challengeEnd taskId) = true := by
      decide +kernel
    intro e he taskId hset
    have hne := Option.all_eq_true _ _ |>.mp (List.all_eq_true.mp hall e he) taskId hset
    exact bne_iff_ne.mp hne
  have hcan : (after 7200 [.tick 7301, settlement]).canSettle 1 7 = true := by
    decide +kernel
  have hnow : (after 7200 [.tick 7301, settlement]).now ≠
      (after 7200 [.tick 7301, settlement]).challengeEnd 1 := by decide +kernel
  exact ⟨by decide +kernel, hcan, ((phases_disjoint hreach hoff).2.2 1 7 hcan).mpr hnow⟩

/-- **The phases meet.** In the last second of its window the sample task is settled and then
challenged, and before that the views say both that it can be settled and that its window is open.
-/
theorem phases_clash : ∃ (D : Deployment) (h : History) (w : World), Reach D h w ∧
      ∃ later e before, h = later ++ e :: before ∧ 1 ∈ e.act.settles ∧
        e.pre.canSettle 1 7 = true ∧ e.pre.isChallengeWindowOpen 1 = true ∧
        ∃ e' ∈ later, 1 ∈ e'.act.challenges ∧ e'.pre.now = e.pre.now := by
  have hok : ((step (deployment 7200) (after 7200 [.tick 7300]) settlement).bind fun v =>
        step (deployment 7200) v challenge).isSome := by
    decide +kernel
  obtain ⟨u, hu⟩ := Option.isSome_iff_exists.mp hok
  obtain ⟨v, hv, hu⟩ := Option.bind_eq_some_iff.mp hu
  have hstart : Reach (deployment 7200) (history 7200 [.tick 7300])
      (after 7200 [.tick 7300]) := reach (by decide +kernel)
  have hcan : (after 7200 [.tick 7300]).canSettle 1 7 = true := by decide +kernel
  have hopen : (after 7200 [.tick 7300]).isChallengeWindowOpen 1 = true := by decide +kernel
  have hnow : v.now = (after 7200 [.tick 7300]).now := by
    cases transition_of_step hv with
    | gateway _ he =>
      cases he with
      | settled => rfl
  exact ⟨_, _, u, (hstart.next hv).next hu, [_], _, _, rfl, rfl, hcan, hopen, _,
    List.mem_singleton_self _, rfl, hnow⟩

/-! ## How long the window is -/

theorem Reach.published (hr : Reach D h w) (hpub : w.taskEvidence taskId ≠ 0) :
    ∃ e ∈ h, e.act.publishes = some (taskId, w.taskEvidence taskId) ∧
      w.challengeEnd taskId = e.pre.now + e.pre.challengeWindowDuration := by
  induction hr with
  | start hinit => simp [hinit.storage] at hpub
  | @next h s s' a hr hs ih =>
    have ht := transition_of_step hs
    by_cases hold : s.taskEvidence taskId = 0
    · -- this step is the publication
      cases ht with
      | tick _ => exact absurd hold hpub
      | verifiers _ => exact absurd hold hpub
      | erc20 _ _ => exact absurd hold hpub
      | gateway _ he =>
        cases he with
        | @published x hash cid _ _ _ =>
          rcases eq_or_ne taskId x with rfl | hne
          · refine ⟨_, List.mem_cons_self, ?_, ?_⟩
            · simp [Act.publishes]
            · simp [World.fresh]
          · simp [World.fresh, hne] at hpub
            exact absurd hold hpub
        | _ => exact absurd hold hpub
    · obtain ⟨e, he, hact, hend⟩ := ih hold
      obtain ⟨hhash, -, hend'⟩ := ht.evidence hold
      refine ⟨e, List.mem_cons_of_mem _ he, ?_, hend'.trans hend⟩
      rw [hhash]
      exact hact

theorem Transition.duration (ht : Transition D w a w')
    (hmin : minChallengeWindow ≤ w.challengeWindowDuration) :
    minChallengeWindow ≤ w'.challengeWindowDuration := by
  cases ht with
  | tick | verifiers | erc20 => exact hmin
  | gateway _ he =>
    cases he with
    | durationSet _ hmin' => exact hmin'
    | _ => exact hmin

theorem Reach.duration (hr : Reach D h w) (hd : minChallengeWindow ≤ D.windowDuration) :
    minChallengeWindow ≤ w.challengeWindowDuration := by
  refine hr.safe (P := fun w => minChallengeWindow ≤ w.challengeWindowDuration) (fun w hinit => ?_)
    fun _ _ _ hmin hs => (transition_of_step hs).duration hmin
  simpa [hinit.storage] using hd

/-- **Minimum challenge time.** A gateway created with at least the floor settles a task only
`MIN_CHALLENGE_WINDOW` seconds or more after its evidence was published. -/
theorem settled_after_minimum_window (hd : minChallengeWindow ≤ D.windowDuration)
    (hr : Reach D h w) {e : Entry World Act} (he : e ∈ h) (hset : taskId ∈ e.act.settles) :
    e.pre.taskEvidence taskId ≠ 0 ∧
      ∃ e' ∈ h, e'.act.publishes = some (taskId, e.pre.taskEvidence taskId) ∧
        e'.pre.now + minChallengeWindow ≤ e.pre.now := by
  obtain ⟨⟨p, hg⟩, hover⟩ := Reach.settled hr he hset
  obtain ⟨hhash, -, -⟩ := Reach.evidence hr he hg.published
  obtain ⟨e', he', hpub, hend⟩ := Reach.published hr (hhash ▸ hg.published)
  refine ⟨hg.published, e', he', hhash ▸ hpub, ?_⟩
  obtain ⟨_, hr', -⟩ := Run.of_mem hr he'
  have hmin := Reach.duration hr' hd
  omega

theorem settled_after_minimum_window_sample :
    minChallengeWindow ≤ (deployment 7200).windowDuration ∧
      ∃ e ∈ history 7200 [.tick 7300, settlement],
        1 ∈ e.act.settles ∧ e.pre.taskEvidence 1 ≠ 0 := by
  have hfound : ∃ e ∈ history 7200 [.tick 7300, settlement], 1 ∈ e.act.settles := by
    decide +kernel
  obtain ⟨e, he, hset⟩ := hfound
  refine ⟨by decide, e, he, hset, ?_⟩
  exact (settled_after_minimum_window (by decide) (reach (by decide +kernel)) he hset).1

/-- **A gateway created with a window of one minute** settles the sample task one minute after its
evidence was published. -/
theorem settled_within_the_hour : ∃ (D : Deployment) (h : History) (w : World), Reach D h w ∧
      ∃ e ∈ h, 1 ∈ e.act.settles ∧ ∃ e' ∈ h, e'.act.publishes = some (1, 7) ∧
        e.pre.taskEvidence 1 = 7 ∧ e.pre.now < e'.pre.now + minChallengeWindow :=
  ⟨deployment 60, history 60 [.tick 160, settlement],
    after 60 [.tick 160, settlement], reach (by decide +kernel),
    by decide +kernel⟩

end Karma.AttestationGateway
