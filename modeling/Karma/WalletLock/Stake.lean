import Karma.Arith.Round
import Karma.Evm.Run

/-! # `seller_stake` — reserving stake bills

The lock rows of one seller. A session reads all rows at once, and writes the row it has chosen
without another look. -/

namespace Karma.SellerStake

open Evm Arith Function

/-- What does not change: the rows of the seller, and the orders. -/
structure Pool (τ ι : Type) where
  rows : List ι
  locked : ι → Bool
  amount : ι → ℚ
  bps : ℤ
  orderAmount : τ → ℚ

/-- `EPSILON`. -/
def epsilon : ℚ := 1 / 10 ^ 9

/-- `required_stake_usdc`. -/
def requiredStakeUsdc (bps : ℤ) (amount : ℚ) : ℚ :=
  if amount ≤ 0 ∨ bps ≤ 0 then 0 else roundTo 6 (amount * bps / 10000)

section

variable {τ ι : Type} [DecidableEq τ] (P : Pool τ ι)

def Pool.required (t : τ) : ℚ := requiredStakeUsdc P.bps (P.orderAmount t)

/-- For which task each bill is reserved; `none` is `IDLE`. -/
abbrev Holder (τ ι : Type) := ι → Option τ

def idleBills (seen : Holder τ ι) : List ι :=
  P.rows.filter fun b => P.locked b && (seen b).isNone

/-- `select_stake_bill`: the first of the smallest. -/
def selectStakeBill (seen : Holder τ ι) (required : ℚ) : Option ι :=
  ((idleBills P seen).filter fun b => required ≤ P.amount b + epsilon).argmin P.amount

inductive Outcome (ι : Type)
  | already (b : ι)
  | skipped
  | short
  | reserved (b : ι)

/-- `reserve_stake`, on the rows it has read. -/
def reserveStake (seen : Holder τ ι) (t : τ) : Outcome ι :=
  match P.rows.find? (seen · = some t) with
  | some b => .already b
  | none =>
    if P.required t ≤ 0 then .skipped
    else
      match selectStakeBill P seen (P.required t) with
      | none => .short
      | some b => .reserved b

/-- `release_stake`, on the rows it has read. -/
def releaseStake (seen : Holder τ ι) (t : τ) : Option ι := P.rows.find? (seen · = some t)

/-- The rows, what each session has read, and the tasks that were told `ok`, with the bill. -/
structure State (τ ι : Type) where
  holder : Holder τ ι
  reads : ℕ → Holder τ ι
  told : τ → Option (Option ι)

inductive Act (τ : Type)
  | read (k : ℕ)
  | reserve (k : ℕ) (t : τ)
  | release (k : ℕ) (t : τ)

def State.start : State τ ι := ⟨fun _ => none, fun _ _ => none, fun _ => none⟩

variable [DecidableEq ι]

def step (s : State τ ι) : Act τ → Option (State τ ι)
  | .read k => some { s with reads := update s.reads k s.holder }
  | .reserve k t => some <|
    match reserveStake P (s.reads k) t with
    | .already b => { s with told := update s.told t (some (some b)) }
    | .skipped => { s with told := update s.told t (some none) }
    | .short => s
    | .reserved b =>
      { s with
        holder := update s.holder b (some t)
        told := update s.told t (some (some b)) }
  | .release k t => some <|
    match releaseStake P (s.reads k) t with
    | some b =>
      { s with
        holder := update s.holder b none
        told := update s.told t none }
    | none => s

/-- **Every task told `ok` has one bill, which covers its stake.** -/
def Exclusive (s : State τ ι) : Prop :=
  ∀ t r, s.told t = some r → ∃ b, r = some b ∧ s.holder b = some t ∧
    (∀ b', s.holder b' = some t → b' = b) ∧ P.required t ≤ P.amount b + epsilon

/-- **What was read still stands**: the bill chosen is idle and the task has none, or the bill found
is still that of the task; and there is something to reserve. -/
def current (s : State τ ι) : Act τ → Bool
  | .read _ => true
  | .reserve k t => 0 < P.required t &&
    match reserveStake P (s.reads k) t with
    | .already b => s.holder b = some t
    | .reserved b => (s.holder b).isNone && P.rows.all (s.holder · ≠ some t)
    | _ => true
  | .release k t => (releaseStake P (s.reads k) t).all (s.holder · = some t)

end

variable {τ ι : Type} [DecidableEq τ] {P : Pool τ ι} {seen holder : Holder τ ι}
  {told : τ → Option (Option ι)} {t : τ} {b : ι}

theorem covers_of_reserved (h : reserveStake P seen t = .reserved b) :
    b ∈ P.rows ∧ P.required t ≤ P.amount b + epsilon := by
  unfold reserveStake at h
  split at h
  · cases h
  · split_ifs at h
    split at h
    next => cases h
    next b' hb =>
      cases h
      obtain ⟨hidle, hcovers⟩ := List.mem_filter.mp (List.argmin_mem hb)
      exact ⟨(List.mem_filter.mp hidle).1, of_decide_eq_true hcovers⟩

theorem required_of_skipped (h : reserveStake P seen t = .skipped) : P.required t ≤ 0 := by
  unfold reserveStake at h
  split at h
  · cases h
  · split_ifs at h with hzero
    · exact hzero
    · split at h <;> cases h

/-- The reserved bills cover their tasks, each task has one at most, and the tasks told `ok` have
the one they were told. -/
structure Sound (P : Pool τ ι) (holder : Holder τ ι) (told : τ → Option (Option ι)) : Prop where
  covers : ∀ b t, holder b = some t → b ∈ P.rows ∧ P.required t ≤ P.amount b + epsilon
  unique : ∀ b b' t, holder b = some t → holder b' = some t → b = b'
  told : ∀ t r, told t = some r → ∃ b, r = some b ∧ holder b = some t

omit [DecidableEq τ] in
theorem Sound.exclusive {s : State τ ι} (hs : Sound P s.holder s.told) : Exclusive P s := by
  intro t r hr
  obtain ⟨b, rfl, hb⟩ := hs.told t r hr
  exact ⟨b, rfl, hb, fun b' hb' => hs.unique b' b t hb' hb, (hs.covers b t hb).2⟩

theorem Sound.tell (hs : Sound P holder told) (hb : holder b = some t) :
    Sound P holder (update told t (some (some b))) := by
  refine ⟨hs.covers, hs.unique, fun t' r hr => ?_⟩
  rcases eq_or_ne t' t with rfl | hne
  · rw [update_self] at hr
    exact ⟨b, (Option.some.inj hr).symm, hb⟩
  · rw [update_of_ne hne] at hr
    exact hs.told t' r hr

variable [DecidableEq ι]

omit [DecidableEq τ] in
theorem Sound.reserve (hs : Sound P holder told) (hb : holder b = none)
    (ht : ∀ b' ∈ P.rows, holder b' ≠ some t)
    (hcovers : b ∈ P.rows ∧ P.required t ≤ P.amount b + epsilon) :
    Sound P (update holder b (some t)) told := by
  have hcases : ∀ {c t'}, update holder b (some t) c = some t' →
      c = b ∧ t' = t ∨ t' ≠ t ∧ holder c = some t' := by
    intro c t' h
    rcases eq_or_ne c b with rfl | hne
    · rw [update_self] at h
      exact .inl ⟨rfl, (Option.some.inj h).symm⟩
    · rw [update_of_ne hne] at h
      exact .inr ⟨fun heq => ht c (hs.covers c t' h).1 (heq ▸ h), h⟩
  refine ⟨fun c t' h => ?_, fun c c' t' h h' => ?_, fun t' r hr => ?_⟩
  · rcases hcases h with ⟨rfl, rfl⟩ | ⟨-, h⟩
    · exact hcovers
    · exact hs.covers c t' h
  · rcases hcases h with ⟨rfl, rfl⟩ | ⟨hne, h⟩ <;> rcases hcases h' with ⟨rfl, heq⟩ | ⟨hne', h'⟩
    · rfl
    · exact absurd rfl hne'
    · exact absurd heq hne
    · exact hs.unique c c' t' h h'
  · obtain ⟨c, rfl, hc⟩ := hs.told t' r hr
    have hne : c ≠ b := fun heq => by rw [heq, hb] at hc; cases hc
    exact ⟨c, rfl, by rw [update_of_ne hne, hc]⟩

theorem Sound.release (hs : Sound P holder told) (hb : holder b = some t) :
    Sound P (update holder b none) (update told t none) := by
  have hcases : ∀ {c t'}, update holder b none c = some t' → holder c = some t' := by
    intro c t' h
    rcases eq_or_ne c b with rfl | hne
    · rw [update_self] at h
      cases h
    · rwa [update_of_ne hne] at h
  refine ⟨fun c t' h => hs.covers c t' (hcases h),
    fun c c' t' h h' => hs.unique c c' t' (hcases h) (hcases h'), fun t' r hr => ?_⟩
  rcases eq_or_ne t' t with rfl | hne
  · rw [update_self] at hr
    cases hr
  · rw [update_of_ne hne] at hr
    obtain ⟨c, rfl, hc⟩ := hs.told t' r hr
    have hcb : c ≠ b := fun heq => hne (Option.some.inj (by rw [← hc, heq, hb]))
    exact ⟨c, rfl, by rw [update_of_ne hcb, hc]⟩

variable {s s' : State τ ι}

theorem Sound.step {a : Act τ} (hs : Sound P s.holder s.told) (hcur : current P s a = true)
    (h : step P s a = some s') : Sound P s'.holder s'.told := by
  cases a with
  | read k =>
    cases h
    exact hs
  | reserve k t =>
    cases h
    simp only [current, Bool.and_eq_true, decide_eq_true_eq] at hcur
    obtain ⟨hpos, hcur⟩ := hcur
    cases hres : reserveStake P (s.reads k) t with
    | already b =>
      rw [hres] at hcur
      exact hs.tell (of_decide_eq_true hcur)
    | skipped => exact absurd hpos (not_lt.mpr (required_of_skipped hres))
    | short => exact hs
    | reserved b =>
      simp only [hres, Bool.and_eq_true, Option.isNone_iff_eq_none, List.all_eq_true,
        decide_eq_true_eq] at hcur
      exact (hs.reserve hcur.1 hcur.2 (covers_of_reserved hres)).tell (update_self ..)
  | release k t =>
    cases h
    rw [current] at hcur
    cases hres : releaseStake P (s.reads k) t with
    | none => exact hs
    | some b =>
      rw [hres] at hcur
      exact hs.release (of_decide_eq_true hcur)

/-- **Stake bills are exclusive as long as what a session has read still stands when it writes.** -/
theorem stake_bills_exclusive {h : List (Entry (State τ ι) (Act τ))}
    (hr : Run (· = State.start) (SellerStake.step P) h s)
    (hcur : ∀ e ∈ h, current P e.pre e.act = true) :
    Throughout (fun _ s => Exclusive P s) h s ∧
      ∀ e ∈ h, ∀ k t, e.act = .release k t → ∀ b, e.pre.holder b ≠ some t →
        e.post.holder b = e.pre.holder b := by
  constructor
  · refine hr.throughout_of (J := fun s => Sound P s.holder s.told) ?_
      (fun _ _ _ hs h hc => hs.step hc h) (fun _ hs => hs.exclusive) hcur
    rintro _ rfl
    constructor <;> simp [State.start]
  · rintro ⟨pre, a, post⟩ he k t rfl b hb
    obtain ⟨-, -, hstep⟩ := hr.of_mem he
    have hc := hcur _ he
    simp only [current, SellerStake.step, Option.some.injEq] at hc hstep
    rw [← hstep]
    cases hres : releaseStake P (pre.reads k) t with
    | none => rfl
    | some c =>
      rw [hres] at hc
      have hne : b ≠ c := fun heq => hb (heq ▸ of_decide_eq_true hc)
      exact update_of_ne hne _ _

namespace Sample

/-- Two bills of 50, and orders of 100 with a stake of 30 %. -/
def pool : Pool ℕ ℕ := ⟨[1, 2], fun _ => true, fun _ => 50, 3000, fun _ => 100⟩

def after (as : List (Act ℕ)) : State ℕ ℕ := stateAfter (step pool) as State.start

def oneByOne : List (Act ℕ) := [.read 0, .reserve 0 7, .read 1, .reserve 1 8]

/-- Both sessions read before one of them writes. -/
def together : List (Act ℕ) := [.read 0, .read 1, .reserve 0 7, .reserve 1 8]

end Sample

open SellerStake.Sample

theorem one_by_one_exclusive : Exclusive pool (after oneByOne) :=
  (stake_bills_exclusive (.stateAfter (.start rfl)) (by decide +kernel)).1.last

theorem one_bill_for_two_tasks :
    Run (· = State.start) (step pool) (record (step pool) together State.start [])
        (after together) ∧
      (after together).told 7 = some (some 1) ∧ (after together).told 8 = some (some 1) ∧
      ¬ Exclusive pool (after together) := by
  refine ⟨.stateAfter (.start rfl), by decide +kernel, by decide +kernel, ?_⟩
  intro h
  obtain ⟨b, hb, hholder, -⟩ := h 7 (some 1) (by decide +kernel)
  obtain rfl : 1 = b := Option.some.inj hb
  exact absurd hholder (by decide +kernel)

end Karma.SellerStake
