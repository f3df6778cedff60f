import Karma.Usage.Billing

/-! # Can a charge still be collected?

Requests are taken one after the other here, so that each reads what is in the tables. -/

namespace Karma.Usage

open Evm Function

variable {T : Terms} {b b' : Book} {a : Act} {i : ℕ}

def Act.Fresh (b : Book) : Act → Prop
  | .record _ _ _ seen => seen = b.meter
  | .settle taken _ seen => seen = b.meter ∧ ∃ cutoff, taken = (b.under none).filter fun i =>
      (b.charges i).occurredAt ≤ cutoff
  | .paid id seen => seen = b.meter ∧ (b.settlements id).status = .submitted
  | .failed id found seen => seen = b.meter ∧ (b.settlements id).status = .submitted ∧
      found = b.under (some id)

/-- The request finds everything in order. -/
def Act.Succeeds (unitPrice : ℕ) : Act → Prop
  | .record _ price _ _ => price = unitPrice
  | .settle _ submits _ => submits = true
  | .paid _ _ => True
  | .failed _ _ _ => False

theorem column_self (x y : ℤ) : column x y x = y := by
  unfold column
  split
  · exact ‹y = x›.symm
  · rfl

theorem Act.Fresh.waiting {taken : Finset ℕ} {submits : Bool} {seen : Meter}
    (hf : (Act.settle taken submits seen).Fresh b) :
    ∀ i ∈ taken, (b.charges i).settlement = none := by
  obtain ⟨-, cutoff, rfl⟩ := hf
  intro i hi
  exact (Finset.mem_filter.mp (Finset.mem_filter.mp hi).1).2

namespace Book

theorem Balanced.fresh_exact (hb : b.Balanced T) (hl : b.Linked) (h : b.step T a = some b')
    (hf : a.Fresh b) : Exact T ⟨b, a, b'⟩ := by
  cases a with
  | record units unitPrice occurredAt seen =>
    obtain rfl : seen = b.meter := hf
    simp only [Book.step, guarded_iff] at h
    obtain ⟨hc, rfl⟩ := h
    refine ⟨trivial, by simp [Meter.add, Act.due, column_self], ?_⟩
    rintro _ _ _ _ ⟨⟩
    exact hc.2.2
  | settle taken submits seen =>
    have hnone := hf.waiting
    obtain ⟨rfl, -⟩ := hf
    simp only [Book.step, guarded_iff] at h
    obtain ⟨-, rfl⟩ := h
    exact ⟨hnone, by simp [Meter.add, Act.due, column_self, sub_eq_add_neg],
      by rintro _ _ _ _ ⟨⟩⟩
  | paid id seen =>
    obtain ⟨rfl, hst⟩ := hf
    simp only [Book.step, guarded_iff] at h
    obtain ⟨-, rfl⟩ := h
    exact ⟨trivial, by simp [Meter.add, Act.due, column_self, hst], by rintro _ _ _ _ ⟨⟩⟩
  | failed id found seen =>
    obtain ⟨rfl, hst, rfl⟩ := hf
    simp only [Book.step, guarded_iff] at h
    obtain ⟨⟨h1, hle, -⟩, rfl⟩ := h
    have hbilled : ((b.settlements id).amount : ℤ) ≤ b.meter.billed := by
      have hle := le_total (fun _ (s : Settlement) => if s.status ≠ .failed then s.amount else 0)
        b.settlements h1 hle
      rw [if_pos (by simp [hst])] at hle
      rw [hb.meter, hl.sums_eq]
      exact Int.ofNat_le.mpr hle
    refine ⟨fun i hi j hj => ?_, ?_, by rintro _ _ _ _ ⟨⟩⟩
    · rw [(Finset.mem_filter.mp hi).2] at hj
      exact (Option.some.inj hj).symm
    · simpa [Meter.add, Act.due, column_self, hst, sub_eq_add_neg] using hbilled

/-- The tables of a server that serves one request after the other. -/
def Kept (T : Terms) (b : Book) : Prop := b.Linked ∧ b.Balanced T

theorem Kept.step (hk : b.Kept T) (h : b.step T a = some b') (hf : a.Fresh b) : b'.Kept T := by
  have he := hk.2.fresh_exact hk.1 h hf
  exact ⟨(hk.1.step h he.respects).1, hk.2.step hk.1 h he⟩

theorem Kept.of_reach {h : List (Entry Book Act)} (hr : Reach T h b)
    (hf : ∀ e ∈ h, e.act.Fresh e.pre) : b.Kept T := by
  induction hr with
  | start hi => exact hi ▸ ⟨init_linked, init_balanced⟩
  | next _ hs ih => exact (ih fun e he => hf e (.tail _ he)).step hs (hf _ (.head _))

def Under (b : Book) (i : ℕ) (status : Status) : Prop :=
  ∃ id ∈ (b.charges i).settlement, (b.settlements id).status = status

def Further (T : Terms) (unitPrice : ℕ) (b b' : Book) : Prop :=
  ∃ a : Act, a.Fresh b ∧ a.Succeeds unitPrice ∧ b.step T a = some b'

def Collectable (T : Terms) (unitPrice : ℕ) (b : Book) (i : ℕ) : Prop :=
  ∃ b', Relation.ReflTransGen (Further T unitPrice) b b' ∧ b'.Under i .settled

/-- Some number of further calls would fit under the cap and reach the threshold. -/
def Due (T : Terms) (unitPrice : ℕ) (b : Book) : Prop :=
  ∃ units, T.allows b.meter (units * unitPrice) ∧ max T.threshold 1 ≤ b.unpinned + units * unitPrice

def Stuck (T : Terms) (unitPrice : ℕ) (b : Book) (i : ℕ) : Prop :=
  i ≤ b.calls ∧ (b.Under i .open ∨ (b.charges i).settlement = none ∧ ¬ b.Due T unitPrice)

variable {p : ℕ}

theorem sum_le_unpinned {taken : Finset ℕ} (h : ∀ i ∈ taken, (b.charges i).settlement = none) :
    b.sum taken ≤ b.unpinned := by
  have := unpinned_pin 0 h
  omega

theorem Stuck.step (hs : b.Stuck T p i) (hk : b.Kept T) (hf : a.Fresh b) (hc : a.Succeeds p)
    (h : b.step T a = some b') : b'.Stuck T p i := by
  obtain ⟨hi, hs⟩ := hs
  cases a with
  | record units unitPrice occurredAt seen =>
    obtain rfl : seen = b.meter := hf
    obtain rfl : unitPrice = p := hc
    simp only [Book.step, guarded_iff] at h
    obtain ⟨-, rfl⟩ := h
    simp only [Stuck, Under, column_self, update_of_ne (by omega : i ≠ b.calls + 1)]
    refine ⟨by omega, hs.imp_right (And.imp_right fun hdue => ?_)⟩
    rintro ⟨more, hfit, hmax⟩
    refine hdue ⟨units + more, fun cap hcap => ?_, ?_⟩
    · have := hfit cap hcap
      simp only [Nat.add_mul] at this ⊢
      omega
    · simp only [charged, total_push, if_true, Nat.add_mul] at hmax ⊢
      omega
  | settle taken submits seen =>
    have hnone := hf.waiting
    obtain ⟨rfl, -⟩ := hf
    simp only [Book.step, guarded_iff] at h
    obtain ⟨⟨-, hpos, hth⟩, rfl⟩ := h
    have hsum : _ = b.unpinned := unpinned_pin (b.bills + 1) hnone
    -- Had the charge been billed now, the threshold was reached without any further call.
    have hout : i ∉ taken := fun hmem => by
      rcases hs with ⟨id, hid, -⟩ | ⟨-, hdue⟩
      · rw [hnone i hmem] at hid
        cases hid
      · refine hdue ⟨0, fun cap hcap => ?_, ?_⟩
        · simpa using hk.2.cap cap hcap
        · have := sum_le_unpinned hnone
          omega
    have hsame : pin b.charges taken (some (b.bills + 1)) i = b.charges i := if_neg hout
    simp only [Stuck, Under, column_self, hsame]
    refine ⟨hi, hs.imp ?_ (And.imp_right fun hdue => ?_)⟩
    · rintro ⟨id, hid, hst⟩
      have hle := (hk.1.pins i id hid).2.2.2
      exact ⟨id, hid, by rwa [update_of_ne (by omega)]⟩
    · rintro ⟨more, hfit, hmax⟩
      refine hdue ⟨more, fun cap hcap => ?_, ?_⟩
      · have := hfit cap hcap
        simp only at this
        omega
      · simp only [charged] at hmax hsum ⊢
        omega
  | paid id seen =>
    obtain ⟨rfl, hsub⟩ := hf
    simp only [Book.step, guarded_iff] at h
    obtain ⟨-, rfl⟩ := h
    refine ⟨hi, hs.imp_left ?_⟩
    rintro ⟨j, hj, hst⟩
    refine ⟨j, hj, ?_⟩
    rw [setStatus_status, if_neg fun h => ?_]
    · exact hst
    · rw [h, hsub] at hst
      cases hst
  | failed id found seen => exact hc.elim

theorem Stuck.not_collectable (hs : b.Stuck T p i) (hk : b.Kept T) : ¬ b.Collectable T p i := by
  rintro ⟨b', hrun, id, hid, hset⟩
  have hend : b'.Kept T ∧ b'.Stuck T p i := by
    clear hid hset
    induction hrun with
    | refl => exact ⟨hk, hs⟩
    | tail _ hstep ih =>
      obtain ⟨a, hf, hc, h⟩ := hstep
      exact ⟨ih.1.step h hf, ih.2.step ih.1 hf hc h⟩
  obtain ⟨-, -, ⟨j, hj, hopen⟩ | ⟨hnone, -⟩⟩ := hend
  · obtain rfl := Option.some.inj (hj.symm.trans hid)
    rw [hset] at hopen
    cases hopen
  · rw [hnone] at hid
    cases hid

theorem Kept.collect_submitted (hk : b.Kept T) (hs : b.Under i .submitted) :
    b.Collectable T p i := by
  obtain ⟨id, hid, hst⟩ := hs
  obtain ⟨-, -, h1, hle⟩ := hk.1.pins i id hid
  have hstep : b.step T (.paid id b.meter) = some _ := if_pos ⟨h1, hle, .inl hst⟩
  refine ⟨_, .single ⟨.paid id b.meter, ⟨rfl, hst⟩, trivial, hstep⟩, id, hid, ?_⟩
  rw [setStatus_status, if_pos rfl]

theorem Collectable.of_further (h : Further T p b b') (hc : b'.Collectable T p i) :
    b.Collectable T p i :=
  hc.imp fun _ hc => ⟨.head h hc.1, hc.2⟩

theorem Kept.collect_due (hk : b.Kept T) (h1 : 1 ≤ i) (hi : i ≤ b.calls)
    (hnone : (b.charges i).settlement = none) (hd : b.Due T p) : b.Collectable T p i := by
  obtain ⟨units, hfit, hmax⟩ := hd
  -- The calls are made one unit at a time; then one settlement takes all that waits.
  induction units generalizing b with
  | zero =>
    have hall : (b.under none).filter (fun i => (b.charges i).occurredAt ≤
        (b.under none).sup fun i => (b.charges i).occurredAt) = b.under none :=
      Finset.filter_true_of_mem fun i hi =>
        Finset.le_sup (f := fun i => (b.charges i).occurredAt) hi
    have hsum : b.sum (b.under none) = b.unpinned := total_congr fun i h1 hi => by
      simp [under, h1, hi]
    let a : Act := .settle (b.under none) true b.meter
    have hf : a.Fresh b := ⟨rfl, _, hall.symm⟩
    have hstep : b.step T a = some _ := if_pos ⟨Finset.filter_subset _ _, by omega, by omega⟩
    refine .of_further ⟨a, hf, rfl, hstep⟩ ((hk.step hstep hf).collect_submitted ?_)
    refine ⟨b.bills + 1, ?_, by simp⟩
    simp [pin, under, h1, hi, hnone]
  | succ units ih =>
    let a : Act := .record 1 p 0 b.meter
    have hstep : b.step T a = some _ := if_pos ⟨by omega, by omega, fun cap hcap => by
      have := hfit cap hcap
      simp only [Nat.add_mul] at this
      omega⟩
    refine .of_further ⟨a, rfl, rfl, hstep⟩ (ih (hk.step (a := a) hstep rfl) ?_ ?_ ?_ ?_)
    · exact Nat.le_succ_of_le hi
    · simpa [update_of_ne (by omega : i ≠ b.calls + 1)] using hnone
    · intro cap hcap
      have := hfit cap hcap
      simp only [column_self, Nat.add_mul] at this ⊢
      omega
    · simp only [charged, total_push, if_true, Nat.add_mul] at hmax ⊢
      omega

end Book

open Book

variable {p : ℕ} {h : List (Entry Book Act)}

/-- **An unsettled charge can still be collected** if and only if its settlement was submitted, or
it has not been billed and what waits can reach the threshold under the cap. -/
theorem collectable_iff (hr : Book.Reach T h b) (hf : ∀ e ∈ h, e.act.Fresh e.pre) (h1 : 1 ≤ i)
    (hi : i ≤ b.calls) (hu : ¬ b.Under i .settled) :
    b.Collectable T p i ↔ b.Under i .submitted ∨ (b.charges i).settlement = none ∧ b.Due T p := by
  have hk := Kept.of_reach hr hf
  refine ⟨fun hc => ?_, ?_⟩
  · by_contra hno
    refine Stuck.not_collectable ⟨hi, ?_⟩ hk hc
    rcases hp : (b.charges i).settlement with _ | id
    · exact .inr ⟨rfl, fun hd => hno (.inr ⟨hp, hd⟩)⟩
    · refine .inl ⟨id, hp, ?_⟩
      cases hst : (b.settlements id).status with
      | «open» => rfl
      | submitted => exact absurd (.inl ⟨id, hp, hst⟩) hno
      | settled => exact absurd ⟨id, hp, hst⟩ hu
      | failed => exact absurd hst (hk.1.pins i id hp).2.1
  · rintro (hs | ⟨hnone, hd⟩)
    · exact hk.collect_submitted hs
    · exact hk.collect_due h1 hi hnone hd

namespace Sample

def charged : Book := stateAfter (Book.step terms) [.record 1 5 0 {}] {}

def offline : Book := stateAfter (Book.step terms) [.settle {1} false ⟨5, 0, 0⟩] charged

theorem reach_charged : Book.Reach terms [⟨{}, .record 1 5 0 {}, charged⟩] charged :=
  .next (.start rfl) rfl

theorem charged_fresh : ∀ e ∈ [(⟨{}, .record 1 5 0 {}, charged⟩ : Entry Book Act)],
    e.act.Fresh e.pre := by
  rintro e (_ | ⟨_, ⟨⟩⟩)
  rfl

end Sample

open Sample

theorem charged_collectable : charged.Collectable terms 5 1 :=
  (collectable_iff reach_charged charged_fresh le_rfl (by decide +kernel)
    (by rintro ⟨id, ⟨⟩, -⟩)).mpr (.inr ⟨rfl, 0, by decide +kernel, by decide +kernel⟩)

/-- **Billed and lost.** Nothing submits the settlement of a call that was billed while the channel
was off. -/
theorem offline_not_collectable : ∃ h b, Book.Reach terms h b ∧ (∀ e ∈ h, e.act.Fresh e.pre) ∧
    ¬ b.Under 1 .settled ∧ ∀ p, ¬ b.Collectable terms p 1 := by
  have hstep : charged.step terms (.settle {1} false charged.meter) = some offline := rfl
  have hf : ∀ e ∈ [⟨charged, .settle {1} false charged.meter, offline⟩,
      (⟨{}, .record 1 5 0 {}, charged⟩ : Entry Book Act)], e.act.Fresh e.pre :=
    List.forall_mem_cons.mpr ⟨⟨rfl, 0, by decide +kernel⟩, charged_fresh⟩
  have hr := reach_charged.next hstep
  refine ⟨_, offline, hr, hf, ?_, fun p => ?_⟩
  · rintro ⟨id, ⟨⟩, ⟨⟩⟩
  · exact Stuck.not_collectable ⟨by decide +kernel, .inl ⟨1, rfl, rfl⟩⟩ (Kept.of_reach hr hf)

end Karma.Usage
