import Karma.AttestationGateway.Code

/-! # The challenge window off the chain

`ChallengeWindowManager` of `decentralized_verifier/challenge/window.py` keeps a window for every
task, with one status for the clock, a challenge and its resolution. -/

namespace Karma.Verification

open Evm AttestationGateway

inductive WindowStatus
  | pending
  | opened
  | closed
  | disputed
  deriving DecidableEq

inductive ChallengeDecision
  | upheld
  | overruled
  deriving DecidableEq

structure Window where
  endAt : ℕ
  status : WindowStatus
  challenge : Option (Option ChallengeDecision)

def Window.sync (w : Window) (now : ℕ) : Window :=
  if w.status = .opened ∧ w.endAt < now then { w with status := .closed } else w

/-- The windows of the tasks and the clock, in microseconds. -/
structure Manager (K : Type) where
  windows : K → Option Window
  now : ℕ

inductive Manager.Act (K : Type)
  | openWindow (taskId : K) (durationSeconds : Option ℕ)
  /-- `is_window_open`, `is_window_closed` or `can_settle`. -/
  | look (taskId : K)
  | raiseChallenge (taskId : K)
  | resolveChallenge (taskId : K) (decision : ChallengeDecision)
  | advance (d : ℕ)

variable {K : Type} [DecidableEq K] (defaultDuration : ℕ)

def Manager.set (s : Manager K) (k : K) (w : Window) : Manager K :=
  { s with windows := Function.update s.windows k (some w) }

/-- An operation that raises leaves the status as it has synced it. -/
def Manager.step (s : Manager K) : Manager.Act K → Option (Manager K)
  | .openWindow k d =>
    match s.windows k with
    | some _ => some s
    | none =>
      -- `duration_seconds or default`, from the full second on
      let dur := if d.getD 0 = 0 then defaultDuration else d.getD 0
      some (s.set k ⟨s.now - s.now % 10 ^ 6 + dur * 10 ^ 6, .opened, none⟩)
  | .look k => (s.windows k).map fun w => s.set k (w.sync s.now)
  | .raiseChallenge k => (s.windows k).map fun w =>
    let w := w.sync s.now
    if w.status = .opened ∧ w.challenge = none then
      s.set k { w with status := .disputed, challenge := some none }
    else s.set k w
  | .resolveChallenge k d => (s.windows k).map fun w =>
    if w.challenge = none then s
    else
      let w := { w with challenge := some (some d) }
      if d = .upheld then s.set k { w with status := .disputed } else s.set k (w.sync s.now)
  | .advance d => some { s with now := s.now + d }

abbrev Manager.Reach (h : List (Entry (Manager K) (Manager.Act K))) (s : Manager K) : Prop :=
  Run (fun s => ∀ k, s.windows k = none) (Manager.step defaultDuration) h s

def Window.canSettle (w : Window) (now : ℕ) : Bool := (w.sync now).status = .closed

/-! ## The gateway's flags -/

/-- The last gate of `settleWithAttestation`, on its flags. -/
def passes (challenged resolved upheld : Bool) : Bool := !challenged || resolved && !upheld

theorem unblocked_eq_passes (w : World) (taskId : Bytes32) : w.unblocked taskId =
      passes (w.challenged taskId) (w.challengeResolved taskId) (w.challengeUpheld taskId) := by
  unfold World.unblocked passes
  cases w.challenged taskId <;> cases w.challengeResolved taskId <;>
    cases w.challengeUpheld taskId <;> rfl

/-- What the gateway would say of the window. -/
def Window.passes (w : Window) : Bool :=
  Verification.passes w.challenge.isSome (w.challenge.any (·.isSome))
    (w.challenge.any (· = some .upheld))

/-- **Agreement with the gateway**. -/
def Manager.Agrees (s : Manager K) : Prop :=
  ∀ k w, s.windows k = some w → (w.canSettle s.now = true ↔ w.endAt < s.now ∧ w.passes = true)

def Reverses (e : Entry (Manager K) (Manager.Act K)) : Prop :=
  ∃ k d d' w, e.act = .resolveChallenge k d ∧ e.pre.windows k = some w ∧
    w.challenge = some (some d') ∧ d ≠ d'

structure Window.Sound (w : Window) (now : ℕ) : Prop where
  begun : w.status ≠ .pending
  disputed : w.status = .disputed ↔ w.challenge.isSome
  closed : w.status = .closed → w.endAt < now

variable {w : Window} {now : ℕ}

theorem Window.Sound.sync (hw : w.Sound now) : (w.sync now).Sound now := by
  unfold Window.sync
  split_ifs with h
  · exact ⟨by simp, by simp [← hw.disputed, h.1], fun _ => h.2⟩
  · exact hw

def Manager.Sound (s : Manager K) : Prop := ∀ k, ∀ w ∈ s.windows k, w.Sound s.now

theorem Manager.Sound.set {s : Manager K} (hs : s.Sound) (k : K) (hw : w.Sound s.now) :
    (s.set k w).Sound :=
  (Function.forall_update_iff s.windows fun _ y => ∀ w ∈ y, w.Sound s.now).mpr
    ⟨fun _ h => Option.some.inj h ▸ hw, fun k' _ => hs k'⟩

theorem Manager.Sound.step {s s' : Manager K} {a : Manager.Act K} (hs : s.Sound)
    (h : s.step defaultDuration a = some s') : s'.Sound := by
  cases a with
  | openWindow k d =>
    simp only [Manager.step] at h
    split at h <;> cases h
    · exact hs
    · exact hs.set k ⟨by simp, by simp, fun h => by cases h⟩
  | look k =>
    obtain ⟨w, hw, rfl⟩ := Option.map_eq_some_iff.mp h
    exact hs.set k (hs k w hw).sync
  | raiseChallenge k =>
    obtain ⟨w, hw, rfl⟩ := Option.map_eq_some_iff.mp h
    dsimp only
    split_ifs
    · exact hs.set k ⟨by simp, by simp, fun h => by cases h⟩
    · exact hs.set k (hs k w hw).sync
  | resolveChallenge k d =>
    obtain ⟨w, hw, rfl⟩ := Option.map_eq_some_iff.mp h
    dsimp only
    split_ifs with hnone
    · exact hs
    · exact hs.set k ⟨by simp, by simp, fun h => by cases h⟩
    · have hdisputed := (hs k w hw).disputed.mpr (Option.isSome_iff_ne_none.mpr hnone)
      refine hs.set k (Window.Sound.sync ⟨by simp [hdisputed], by simp [hdisputed], fun h => ?_⟩)
      rw [hdisputed] at h
      cases h
  | advance d =>
    cases h
    exact fun k w hw => { hs k w hw with
      closed := fun h => Nat.lt_add_right d ((hs k w hw).closed h) }

theorem Window.Sound.canSettle_iff (hw : w.Sound now) :
    w.canSettle now = true ↔ w.endAt < now ∧ w.challenge = none := by
  obtain ⟨hbegun, hdisputed, hclosed⟩ := hw
  unfold Window.canSettle Window.sync
  cases hstatus : w.status <;> cases hchallenge : w.challenge <;> grind

/-- **The window and the gateway.** -/
theorem window_agrees_iff {h : List (Entry (Manager K) (Manager.Act K))} {s : Manager K}
    (hr : Manager.Reach defaultDuration h s) :
    (Throughout (fun _ s => s.Agrees) h s ∧ ∀ e ∈ h, ¬ Reverses e) ↔
      Throughout (fun _ s => ∀ k w, s.windows k = some w → w.endAt < s.now →
          w.challenge ≠ some (some .overruled)) h s ∧ ∀ e ∈ h, ¬ Reverses e := by
  refine and_congr_left fun _ => hr.throughout_congr fun h s hr => ?_
  have hs : s.Sound := by
    refine hr.safe (fun s h0 k w hw => ?_) fun s a s' hs h => hs.step defaultDuration h
    rw [h0 k] at hw
    cases hw
  refine forall₃_congr fun k w hw => ?_
  rw [(hs k w hw).canSettle_iff]
  rcases hc : w.challenge with _ | _ | _ | _ <;> simp [Window.passes, Verification.passes, hc]

namespace Sample

def idle : Manager Unit := ⟨fun _ => none, 0⟩

def windowAfter (as : List (Manager.Act Unit)) : Manager Unit :=
  stateAfter (Manager.step 1800) as idle

def windowHistory (as : List (Manager.Act Unit)) : List (Entry (Manager Unit) (Manager.Act Unit)) :=
  record (Manager.step 1800) as idle []

def calm : List (Manager.Act Unit) :=
  [.openWindow () (some 60), .advance (10 ^ 10), .look ()]

def overruled : List (Manager.Act Unit) :=
  [.openWindow () none, .raiseChallenge (), .resolveChallenge () .overruled, .advance (10 ^ 10)]

def reversed : List (Manager.Act Unit) :=
  [.openWindow () none, .raiseChallenge (), .resolveChallenge () .upheld,
    .resolveChallenge () .overruled]

end Sample

open Sample in
theorem window_agrees_sample :
    ((windowAfter calm).windows ()).any (·.canSettle (windowAfter calm).now) = true ∧
      ((Throughout (fun _ s => s.Agrees) (windowHistory calm) (windowAfter calm) ∧
          ∀ e ∈ windowHistory calm, ¬ Reverses e) ↔
        Throughout (fun _ s => ∀ k w, s.windows k = some w → w.endAt < s.now →
            w.challenge ≠ some (some .overruled)) (windowHistory calm) (windowAfter calm) ∧
          ∀ e ∈ windowHistory calm, ¬ Reverses e) :=
  ⟨by decide +kernel, window_agrees_iff 1800 (.stateAfter (.start fun _ => rfl))⟩

open Sample in
/-- **An overruled challenge blocks for good**, and what was upheld can still be overruled. -/
theorem overruled_still_blocked :
    (Manager.Reach 1800 (windowHistory overruled) (windowAfter overruled) ∧
      ¬ (windowAfter overruled).Agrees) ∧
    Manager.Reach 1800 (windowHistory reversed) (windowAfter reversed) ∧
      ∃ e ∈ windowHistory reversed, Reverses e := by
  refine ⟨⟨.stateAfter (.start fun _ => rfl), fun h => ?_⟩, .stateAfter (.start fun _ => rfl),
    _, List.mem_cons_self, (), .overruled, .upheld, _, rfl, rfl, rfl, by decide⟩
  exact absurd (h () ⟨1800 * 10 ^ 6, .disputed, some (some .overruled)⟩ rfl) (by decide +kernel)

end Karma.Verification
