import Karma.AttestationGateway.Window

/-! # `KarmaAttestationGateway` — challenge stakes

A challenger's stake is pulled in the token configured at that time and paid out in the token
configured when the challenge is resolved. -/

namespace Karma.AttestationGateway

open Evm Function

variable {D : Deployment} {h : History} {w w' : World} {a : Act} {sender : Address}

/-! ## Deposits -/

def deposit (e : Entry World Act) (taskId : Bytes32) : Option (Address × Address × ℕ) :=
  match e.act with
  | .gateway sender (.raiseChallenge task _ _) =>
    if task = taskId ∧ 0 < e.pre.challengeStakeAmount then
      some (e.pre.challengeStakeToken, sender, e.pre.challengeStakeAmount)
    else none
  | _ => none

def depositOf (h : History) (taskId : Bytes32) : Option (Address × Address × ℕ) :=
  h.findSome? (deposit · taskId)

def owed (h : History) (w : World) (t : Address) (taskId : Bytes32) : ℕ :=
  match depositOf h taskId with
  | some (token, _, amount) =>
    if token = t ∧ w.challengeResolved taskId = false then amount else 0
  | none => 0

def unresolved (h : History) (w : World) (t : Address) : ℕ := ∑ taskId, owed h w t taskId

/-- The new configuration of the stake that an action makes. -/
def Act.restakes : Act → Option (Address × ℕ)
  | .gateway _ (.setChallengeStake token amount) => some (token, amount)
  | _ => none

def Careful (e : Entry World Act) : Prop :=
  ∀ p ∈ e.act.restakes,
    p.1 = e.pre.challengeStakeToken ∨ ∀ taskId, e.pre.challengeStakeOf taskId = 0

/-! ## The storage represents the deposits -/

structure Tracks (D : Deployment) (h : History) (w : World) : Prop where
  positive : ∀ x t c n, depositOf h x = some (t, c, n) → 0 < n
  challenged : ∀ x p, depositOf h x = some p → w.challenged x = true
  resolved : ∀ x, w.challengeResolved x = true → w.challenged x = true
  stored : ∀ x t c n, depositOf h x = some (t, c, n) → w.challengeResolved x = false →
    t = w.challengeStakeToken ∧ w.challengerOf x = c ∧ w.challengeStakeOf x = n
  empty : ∀ x, w.challengeResolved x = true ∨ depositOf h x = none → w.challengeStakeOf x = 0
  backs : ∀ t, (w.tokens t).Backs D.self
    (if t = w.challengeStakeToken then ∑ x, w.challengeStakeOf x else 0)

theorem depositOf_cons (e : Entry World Act) (x : Bytes32) :
    depositOf (e :: h) x = (deposit e x).or (depositOf h x) := by
  rw [depositOf, List.findSome?_cons]
  cases deposit e x <;> rfl

variable {e : Entry World Act}

theorem depositOf_cons_of_none (he : ∀ x, deposit e x = none) :
    depositOf (e :: h) = depositOf h := by
  funext x
  rw [depositOf_cons, he, Option.none_or]

theorem Tracks.frame (ht : Tracks D h w) (he : ∀ x, deposit e x = none)
    (htoken : w'.challengeStakeToken = w.challengeStakeToken)
    (hch : ∀ x, w.challenged x = true → w'.challenged x = true)
    (hres : w'.challengeResolved = w.challengeResolved)
    (hby : w'.challengerOf = w.challengerOf) (hof : w'.challengeStakeOf = w.challengeStakeOf)
    (hbacks : ∀ t n, (w.tokens t).Backs D.self n → (w'.tokens t).Backs D.self n) :
    Tracks D (e :: h) w' := by
  constructor
  · rw [depositOf_cons_of_none he]
    exact ht.positive
  · rw [depositOf_cons_of_none he]
    exact fun x p hx => hch x (ht.challenged x p hx)
  · rw [hres]
    exact fun x hx => hch x (ht.resolved x hx)
  · rw [depositOf_cons_of_none he, htoken, hres, hby, hof]
    exact ht.stored
  · rw [depositOf_cons_of_none he, hres, hof]
    exact ht.empty
  · rw [htoken, hof]
    exact fun t => hbacks t _ (ht.backs t)

theorem Tracks.staked (ht : Tracks D h w) {x : Bytes32} {T : Erc20 Address}
    (hch : Challengeable w x) (hpos : 0 < w.challengeStakeAmount)
    (hT : (w.tokens w.challengeStakeToken).transferFrom D.self sender D.self
      w.challengeStakeAmount = some T)
    (he : deposit e x = some (w.challengeStakeToken, sender, w.challengeStakeAmount))
    (hother : ∀ y, y ≠ x → deposit e y = none)
    (htokens : w'.tokens = update w.tokens w.challengeStakeToken T)
    (htoken : w'.challengeStakeToken = w.challengeStakeToken)
    (hby : w'.challengerOf = update w.challengerOf x sender)
    (hof : w'.challengeStakeOf = update w.challengeStakeOf x w.challengeStakeAmount)
    (hch' : w'.challenged = update w.challenged x true)
    (hres : w'.challengeResolved = w.challengeResolved) : Tracks D (e :: h) w' := by
  have hnone : depositOf h x = none := by
    -- an earlier deposit would mean an earlier challenge
    cases hx : depositOf h x with
    | none => rfl
    | some p => exact absurd (ht.challenged x p hx) (by simp [hch.first])
  have hunresolved : w.challengeResolved x = false := by
    rw [Bool.eq_false_iff]
    exact fun hr => absurd (ht.resolved x hr) (by simp [hch.first])
  have hself : depositOf (e :: h) x =
      some (w.challengeStakeToken, sender, w.challengeStakeAmount) := by
    rw [depositOf_cons, he, Option.some_or]
  have hrest : ∀ y, y ≠ x → depositOf (e :: h) y = depositOf h y := by
    intro y hy
    rw [depositOf_cons, hother y hy, Option.none_or]
  have hzero : w.challengeStakeOf x = 0 := ht.empty x (.inr hnone)
  constructor
  · intro y t c n hy
    rcases eq_or_ne y x with rfl | hne
    · rw [hself] at hy
      cases hy
      exact hpos
    · rw [hrest y hne] at hy
      exact ht.positive y t c n hy
  · intro y p hy
    rw [hch']
    rcases eq_or_ne y x with rfl | hne
    · exact update_self ..
    · rw [update_of_ne hne]
      rw [hrest y hne] at hy
      exact ht.challenged y p hy
  · intro y hy
    rw [hres] at hy
    rw [hch']
    rcases eq_or_ne y x with rfl | hne
    · exact update_self ..
    · rw [update_of_ne hne]
      exact ht.resolved y hy
  · intro y t c n hy hyres
    rw [hres] at hyres
    rw [htoken, hby, hof]
    rcases eq_or_ne y x with rfl | hne
    · rw [hself] at hy
      cases hy
      exact ⟨rfl, update_self .., update_self ..⟩
    · rw [update_of_ne hne, update_of_ne hne]
      rw [hrest y hne] at hy
      exact ht.stored y t c n hy hyres
  · intro y hy
    rw [hof]
    rcases eq_or_ne y x with rfl | hne
    · rw [hself, hres, hunresolved] at hy
      simp at hy
    · rw [update_of_ne hne]
      rw [hrest y hne, hres] at hy
      exact ht.empty y hy
  · intro t
    have hsum := sum_update_add w.challengeStakeOf x w.challengeStakeAmount
    rw [hzero, Nat.add_zero] at hsum
    rw [htoken, htokens, hof, hsum]
    rcases eq_or_ne t w.challengeStakeToken with rfl | hne
    · have hb := ht.backs w.challengeStakeToken
      rw [if_pos rfl] at hb ⊢
      rw [update_self]
      exact hb.pull hT
    · have hb := ht.backs t
      rw [if_neg hne] at hb ⊢
      rw [update_of_ne hne]
      exact hb

theorem Tracks.resolve (ht : Tracks D h w) {x : Bytes32}
    (he : ∀ y, deposit e y = none) (hch : w.challenged x = true)
    (htoken : w'.challengeStakeToken = w.challengeStakeToken)
    (hby : w'.challengerOf = w.challengerOf)
    (hof : w'.challengeStakeOf = update w.challengeStakeOf x 0)
    (hch' : w'.challenged = w.challenged)
    (hres : w'.challengeResolved = update w.challengeResolved x true)
    (hbacks : ∀ t n, (w.tokens t).Backs D.self
      (n + if t = w.challengeStakeToken then w.challengeStakeOf x else 0) →
      (w'.tokens t).Backs D.self n) : Tracks D (e :: h) w' := by
  constructor
  · rw [depositOf_cons_of_none he]
    exact ht.positive
  · rw [depositOf_cons_of_none he, hch']
    exact ht.challenged
  · intro y hy
    rw [hch']
    rw [hres] at hy
    rcases eq_or_ne y x with rfl | hne
    · exact hch
    · rw [update_of_ne hne] at hy
      exact ht.resolved y hy
  · rw [depositOf_cons_of_none he]
    intro y t c n hy hyres
    rw [hres] at hyres
    rw [htoken, hby, hof]
    rcases eq_or_ne y x with rfl | hne
    · simp at hyres
    · rw [update_of_ne hne] at hyres ⊢
      exact ht.stored y t c n hy hyres
  · rw [depositOf_cons_of_none he]
    intro y hy
    rw [hof]
    rcases eq_or_ne y x with rfl | hne
    · exact update_self ..
    · rw [update_of_ne hne]
      rw [hres, update_of_ne hne] at hy
      exact ht.empty y hy
  · intro t
    refine hbacks t _ ?_
    have hsum := sum_update_add w.challengeStakeOf x 0
    rw [Nat.add_zero] at hsum
    have hb := ht.backs t
    rw [htoken, hof]
    by_cases htk : t = w.challengeStakeToken
    · rw [if_pos htk] at hb
      rw [if_pos htk, if_pos htk, hsum]
      exact hb
    · rw [if_neg htk] at hb
      rw [if_neg htk, if_neg htk]
      exact hb

theorem Tracks.restake (ht : Tracks D h w) {token : Address}
    (he : ∀ y, deposit e y = none)
    (hcareful : token = w.challengeStakeToken ∨ ∀ x, w.challengeStakeOf x = 0)
    (htoken : w'.challengeStakeToken = token) (hby : w'.challengerOf = w.challengerOf)
    (hof : w'.challengeStakeOf = w.challengeStakeOf) (hch : w'.challenged = w.challenged)
    (hres : w'.challengeResolved = w.challengeResolved) (htokens : w'.tokens = w.tokens) :
    Tracks D (e :: h) w' := by
  rcases hcareful with rfl | hzero
  · exact ht.frame he htoken (fun x => by rw [hch]; exact id) hres hby hof
      fun t n => by rw [htokens]; exact id
  constructor
  · rw [depositOf_cons_of_none he]
    exact ht.positive
  · rw [depositOf_cons_of_none he, hch]
    exact ht.challenged
  · rw [hres, hch]
    exact ht.resolved
  · rw [depositOf_cons_of_none he, hres]
    intro x t c n hx hxres
    -- an unresolved deposit would be stored, but nothing is
    have hn := (ht.stored x t c n hx hxres).2.2
    have hpos := ht.positive x t c n hx
    rw [hzero x] at hn
    omega
  · rw [depositOf_cons_of_none he, hres, hof]
    exact ht.empty
  · intro t
    have hall : ∑ x, w'.challengeStakeOf x = 0 := by
      rw [hof]
      exact Finset.sum_eq_zero fun x _ => hzero x
    rw [hall, ite_self, htokens]
    exact (ht.backs t).mono (Nat.zero_le _)

/-! ## One transaction, and a whole run -/

theorem Tracks.transition (ht : Tracks D h w) (hs : Transition D w a w')
    (hcareful : Careful ⟨w, a, w'⟩) : Tracks D (⟨w, a, w'⟩ :: h) w' := by
  cases hs with
  | tick _ =>
    exact ht.frame (fun _ => rfl) rfl (fun _ => id) rfl rfl rfl fun _ _ => id
  | verifiers hkeeps =>
    exact ht.frame (fun _ => rfl) rfl (fun _ => id) rfl rfl rfl (hkeeps D.self D.self_ne_registry)
  | @erc20 _ token _ T hne hrun =>
    refine ht.frame (fun _ => rfl) rfl (fun _ => id) rfl rfl rfl fun t n hb => ?_
    rcases eq_or_ne t token with rfl | htoken
    · simpa using hb.run hne hrun
    · simpa [htoken] using hb
  | gateway hne he =>
    cases he with
    | registered _ => exact ht.frame (fun _ => rfl) rfl (fun _ => id) rfl rfl rfl fun _ _ => id
    | published _ _ => exact ht.frame (fun _ => rfl) rfl (fun _ => id) rfl rfl rfl fun _ _ => id
    | attested _ hkeeps =>
      exact ht.frame (fun _ => rfl) rfl (fun _ => id) rfl rfl rfl (hkeeps D.self D.self_ne_registry)
    | settled _ _ _ => exact ht.frame (fun _ => rfl) rfl (fun _ => id) rfl rfl rfl fun _ _ => id
    | durationSet _ _ =>
      exact ht.frame (fun _ => rfl) rfl (fun _ => id) rfl rfl rfl fun _ _ => id
    | @raised x _ _ _ hch hzero =>
      have hzero' : w.challengeStakeAmount = 0 := hzero
      refine ht.frame (fun y => ?_) rfl (fun y hy => ?_) rfl rfl rfl fun _ _ => id
      · simp [deposit, hzero']
      · rcases eq_or_ne y x with rfl | hne'
        · exact update_self ..
        · simpa [World.fresh, hne'] using hy
    | @staked x _ _ T _ hch hpos _ hT =>
      have hpos' : 0 < w.challengeStakeAmount := hpos
      refine ht.staked ⟨hch.published, hch.inWindow, hch.first⟩ hpos hT ?_ ?_ rfl rfl rfl rfl
        rfl rfl
      · simp [deposit, hpos']
      · intro y hy
        simp [deposit, hy.symm]
    | @resolved x _ _ hres hzero =>
      have hzero' : w.challengeStakeOf x = 0 := hzero
      refine ht.resolve (x := x) (fun _ => rfl) hres.challenged rfl rfl ?_ rfl rfl
        fun t n hb => hb.mono (Nat.le_add_right _ _)
      rw [← hzero', update_eq_self]
      rfl
    | @repaid x upheld T _ hres _ _ hT =>
      refine ht.resolve (x := x) (fun _ => rfl) hres.challenged rfl rfl rfl rfl rfl fun t n hb => ?_
      rcases eq_or_ne t w.challengeStakeToken with rfl | htoken
      · rw [if_pos rfl] at hb
        simpa [World.fresh] using hb.transfer hT
      · rw [if_neg htoken] at hb
        simpa [World.fresh, htoken] using hb
    | @stakeSet token amount _ _ =>
      exact ht.restake (fun _ => rfl) (hcareful (token, amount) rfl) rfl rfl rfl rfl rfl rfl

theorem Reach.tracks (hr : Reach D h w) (hcareful : ∀ e ∈ h, Careful e) : Tracks D h w := by
  induction hr with
  | @start w hinit =>
    have hof : ∀ x, w.challengeStakeOf x = 0 := fun x => by simp [hinit.storage]
    refine ⟨fun x t c n hx => ?_, fun x p hx => ?_, fun x hx => ?_, fun x t c n hx => ?_,
      fun x _ => hof x, fun t => ?_⟩
    · cases hx
    · cases hx
    · simp [hinit.storage] at hx
    · cases hx
    · simp [hof, Erc20.Backs, Erc20.granted, hinit.allowance]
  | @next h s s' a hr hs ih =>
    have hbefore := ih fun e he => hcareful e (List.mem_cons_of_mem _ he)
    exact hbefore.transition (transition_of_step hs) (hcareful _ List.mem_cons_self)

theorem Tracks.owed_le (ht : Tracks D h w) (t : Address) (x : Bytes32) :
    owed h w t x ≤ if t = w.challengeStakeToken then w.challengeStakeOf x else 0 := by
  unfold owed
  split
  case h_1 token c amount hx =>
    split_ifs with howed htoken htoken
    · exact (ht.stored x token c amount hx howed.2).2.2.ge
    · exact absurd (howed.1.symm.trans (ht.stored x token c amount hx howed.2).1) htoken
    · exact Nat.zero_le _
    · exact Nat.zero_le _
  case h_2 => exact Nat.zero_le _

theorem Tracks.solvent (ht : Tracks D h w) (t : Address) :
    unresolved h w t ≤ (w.tokens t).balanceOf D.self := by
  have hsum : unresolved h w t ≤
      ∑ x, if t = w.challengeStakeToken then w.challengeStakeOf x else 0 :=
    Finset.sum_le_sum fun x _ => ht.owed_le t x
  have hb := ht.backs t
  unfold Erc20.Backs at hb
  split_ifs at hsum hb with htoken
  · omega
  · rw [Finset.sum_const_zero] at hsum
    omega

theorem Tracks.pays (ht : Tracks D h w) {x : Bytes32} {upheld : Bool}
    (hs : Transition D w (.gateway sender (.resolveChallenge x upheld)) w') :
    (∀ t c n, depositOf h x = some (t, c, n) →
        w'.moves = [.sent t (if upheld = true then c else D.arbitrator) n] ∧
          (w.tokens t).transfer D.self (if upheld = true then c else D.arbitrator) n =
            some (w'.tokens t)) ∧
      (depositOf h x = none → w'.moves = [] ∧ w'.tokens = w.tokens) := by
  cases hs with
  | gateway _ he =>
    cases he with
    | resolved hres hzero =>
      refine ⟨fun t c n hx => ?_, fun _ => ⟨rfl, rfl⟩⟩
      have hn : w.challengeStakeOf x = n := (ht.stored x t c n hx hres.pending).2.2
      have hzero' : w.challengeStakeOf x = 0 := hzero
      have hpos := ht.positive x t c n hx
      omega
    | repaid hres hpos _ hT =>
      refine ⟨fun t c n hx => ?_, fun hx => ?_⟩
      · obtain ⟨rfl, rfl, rfl⟩ := ht.stored x t c n hx hres.pending
        refine ⟨rfl, hT.trans ?_⟩
        simp [World.fresh]
      · have hzero : w.challengeStakeOf x = 0 := ht.empty x (.inr hx)
        have hpos' : 0 < w.challengeStakeOf x := hpos
        omega

/-- **Stakes are conserved per token** in every run that changes the stake token only while no stake
is locked. -/
theorem stakes_conserved (hr : Reach D h w) (hcareful : ∀ e ∈ h, Careful e) :
    (∀ t, unresolved h w t ≤ (w.tokens t).balanceOf D.self) ∧
      ∀ later e before, h = later ++ e :: before → ∀ sender x upheld,
        e.act = .gateway sender (.resolveChallenge x upheld) →
        (∀ t c n, depositOf before x = some (t, c, n) →
          e.post.moves = [.sent t (if upheld = true then c else D.arbitrator) n] ∧
            (e.pre.tokens t).transfer D.self (if upheld = true then c else D.arbitrator) n =
              some (e.post.tokens t)) ∧
        (depositOf before x = none → e.post.moves = [] ∧ e.post.tokens = e.pre.tokens) := by
  refine ⟨(Reach.tracks hr hcareful).solvent, ?_⟩
  intro later e before hsplit sender x upheld hact
  subst hsplit
  obtain ⟨hbefore, hs⟩ := Run.of_append hr
  rw [hact] at hs
  have htracks := Reach.tracks hbefore fun e' he' =>
    hcareful e' (List.mem_append_right _ (List.mem_cons_of_mem _ he'))
  exact htracks.pays (transition_of_step hs)

namespace Sample

def stakeIn (token : ℕ) : Act := .gateway (.ofNat 12) (.setChallengeStake (.ofNat token) 10)

def upholding : Act := .gateway (.ofNat 12) (.resolveChallenge 1 true)

def staking : World :=
  { start 7200 with
    challengeStakeToken := .ofNat 30
    challengeStakeAmount := 10
    events := [.challengeStakeConfigUpdated (.ofNat 30) 10] }

def mixing : List Act :=
  [stakeIn 30, challenge, stakeIn 31,
    .gateway (.ofNat 11) (.registerTaskPublisher 2 (.ofNat 3) (.ofNat 4)),
    .gateway (.ofNat 4) (.publishEvidence 2 8 "cid"),
    .gateway (.ofNat 6) (.raiseChallenge 2 "" "")]

end Sample

open Sample

theorem stakes_conserved_sample : ∃ h w, Reach (deployment 7200) h w ∧
      ∃ e before, h = e :: before ∧ e.act = upholding ∧
        depositOf before 1 = some (.ofNat 30, .ofNat 6, 10) ∧
        e.post.moves = [.sent (.ofNat 30) (.ofNat 6) 10] ∧
        unresolved h w (.ofNat 30) ≤ (w.tokens (.ofNat 30)).balanceOf (.ofNat 10) := by
  have hfirst : step (deployment 7200) (start 7200) (stakeIn 30) = some staking := rfl
  have hzero : Reach (deployment 7200) [] (start 7200) :=
    .start (init_start 7200)
  have hone := hzero.next hfirst
  have hok : ((steps (step (deployment 7200)) (opening ++ [challenge])
      staking).bind fun v => step (deployment 7200) v upholding).isSome := by
    decide +kernel
  obtain ⟨w, hw⟩ := Option.isSome_iff_exists.mp hok
  obtain ⟨v, hv, hw⟩ := Option.bind_eq_some_iff.mp hw
  have hreach := (hone.steps hv).next hw
  have hcareful : ∀ e ∈ record (step (deployment 7200)) (opening ++ [challenge])
      staking [⟨start 7200, stakeIn 30, staking⟩], Careful e := by
    have hnone : ∀ a ∈ opening ++ [challenge], a.restakes = none := by decide
    refine record_forall (fun e he => ?_) fun a ha s s' p hp => ?_
    · -- no stake is locked at the start
      obtain rfl := List.mem_singleton.mp he
      exact fun _ _ => .inr fun _ => rfl
    · rw [hnone a ha] at hp
      cases hp
  have hdep : depositOf (record (step (deployment 7200)) (opening ++ [challenge]) staking
      [⟨start 7200, stakeIn 30, staking⟩]) 1 =
      some (.ofNat 30, .ofNat 6, 10) := by decide +kernel
  have hconserved := stakes_conserved hreach fun e he => by
    rcases List.mem_cons.mp he with rfl | he
    · exact fun p hp => by cases hp
    · exact hcareful e he
  have hpays := (hconserved.2 [] _ _ rfl (.ofNat 12) 1 true rfl).1 _ _ _ hdep
  exact ⟨_, w, hreach, _, _, rfl, rfl, hdep, hpays.1, hconserved.1 _⟩

/-- **A stake is paid in another token.** -/
theorem stakes_mixed : ∃ (D : Deployment) (h : History) (w : World), Reach D h w ∧
      ∃ e before, h = e :: before ∧ e.act = .gateway D.arbitrator (.resolveChallenge 1 true) ∧
        depositOf before 1 = some (.ofNat 30, .ofNat 6, 10) ∧
        e.post.moves = [.sent (.ofNat 31) (.ofNat 6) 10] ∧
        (w.tokens (.ofNat 31)).balanceOf D.self < unresolved h w (.ofNat 31) := by
  have hstart : Reach (deployment 7200) (history 7200 mixing)
      (after 7200 mixing) := reach (by decide +kernel)
  have hok : ((step (deployment 7200) (after 7200 mixing)
      upholding).map fun w => (w.moves, (w.tokens (.ofNat 31)).balanceOf (.ofNat 10),
        w.challengeResolved 2)) = some ([.sent (.ofNat 31) (.ofNat 6) 10], 0, false) := by
    decide +kernel
  obtain ⟨w, hw, hrest⟩ := Option.map_eq_some_iff.mp hok
  simp only [Prod.mk.injEq] at hrest
  obtain ⟨hmoves, hzero, hunresolved⟩ := hrest
  have hdep : depositOf (history 7200 mixing) 2 =
      some (.ofNat 31, .ofNat 6, 10) := by decide +kernel
  refine ⟨_, _, w, hstart.next hw, _, _, rfl, rfl, by decide +kernel, hmoves, ?_⟩
  -- the deposit for task 2 alone is more than the gateway holds
  have howed : owed (⟨after 7200 mixing, upholding, w⟩ ::
      history 7200 mixing) w (.ofNat 31) 2 = 10 := by
    rw [owed, depositOf_cons_of_none fun _ => rfl, hdep]
    exact if_pos ⟨rfl, hunresolved⟩
  calc (w.tokens (.ofNat 31)).balanceOf (.ofNat 10)
      < owed _ w (.ofNat 31) 2 := by rw [howed, hzero]; decide
    _ ≤ unresolved _ w (.ofNat 31) :=
        Finset.single_le_sum (fun _ _ => Nat.zero_le _) (Finset.mem_univ _)

end Karma.AttestationGateway
