import Karma.Profile.Quota

/-! # Vouchers on a profile's quota

Creating a voucher that names a profile spends the profile's quota. -/

namespace Karma.Profile

open Evm

variable {V : Type} [DecidableEq V]

structure Desk (V : Type) where
  row : Row
  created : Finset V := ∅
  accepted : Finset V := ∅
  ended : Finset V := ∅

inductive Desk.Act (V : Type)
  | create (v : V)
  | accept (v : V)
  | reject (v : V)
  | expire (v : V)
  /-- `cancel_voucher_reservation_for_task`. -/
  | cancel (v : V)
  /-- The buyer accepts the work, or the window is over. -/
  | settle (v : V) (own : Bool) (escrow : ℚ)
  /-- An arbitration, automatic or not, decides the order of the voucher. -/
  | arbitrate (v : V)

variable (amount : V → ℚ)

def Desk.finish (d : Desk V) (v : V) : Desk V :=
  { d with created := d.created.erase v, accepted := d.accepted.erase v, ended := insert v d.ended }

def Desk.step (d : Desk V) : Desk.Act V → Option (Desk V)
  | .create v =>
    if 0 < amount v ∧ v ∉ d.created ∧ v ∉ d.accepted ∧ v ∉ d.ended then
      (d.row.spend (amount v)).map fun row => { d with row, created := insert v d.created }
    else none
  | .accept v =>
    if v ∈ d.created then
      some { d with created := d.created.erase v, accepted := insert v d.accepted }
    else none
  | .reject v => if v ∈ d.created then some (d.finish v) else none
  | .expire v => if v ∈ d.created ∨ v ∈ d.accepted then some (d.finish v) else none
  | .cancel v => if v ∈ d.created ∨ v ∈ d.accepted then some (d.finish v) else none
  | .settle v own escrow =>
    if (v ∈ d.accepted ∨ v ∈ d.ended) ∧ |amount v - escrow| ≤ 1 / 10 ^ 6 then
      let d := if own then { d with row := d.row.release escrow 0 } else d
      -- `mark_voucher_used_if_linked`
      some (if v ∈ d.accepted then d.finish v else d)
    else none
  | .arbitrate v => if v ∈ d.accepted then some (d.finish v) else none

def Desk.held (d : Desk V) : ℚ := ∑ v ∈ d.created, amount v + ∑ v ∈ d.accepted, amount v

/-- The step lets go of what it should. -/
def Desk.Returns (e : Entry (Desk V) (Desk.Act V)) : Prop :=
  match e.act with
  | .create _ => True
  | .accept _ => True
  | .settle v _ _ => e.pre.row.inProgress - e.post.row.inProgress =
      if v ∈ e.pre.accepted then amount v else 0
  | _ => False

variable {amount} {d d' : Desk V} {a : Desk.Act V}

namespace Desk

structure Tidy (amount : V → ℚ) (d : Desk V) : Prop where
  disjoint : Disjoint d.created d.accepted
  positive : ∀ v, v ∈ d.created ∨ v ∈ d.accepted → 0 < amount v

theorem Tidy.finish (ht : d.Tidy amount) (v : V) : (d.finish v).Tidy amount where
  disjoint := ht.disjoint.mono (Finset.erase_subset _ _) (Finset.erase_subset _ _)
  positive w hw := ht.positive w (hw.imp Finset.mem_of_mem_erase Finset.mem_of_mem_erase)

theorem Tidy.held_finish (ht : d.Tidy amount) {v : V} (hv : v ∈ d.created ∨ v ∈ d.accepted) :
    (d.finish v).held amount = d.held amount - amount v := by
  rcases hv with hv | hv
  · have hout : v ∉ d.accepted := Finset.disjoint_left.mp ht.disjoint hv
    rw [held, Desk.finish, Finset.sum_erase_eq_sub hv, Finset.erase_eq_of_notMem hout, held]
    ring
  · have hout : v ∉ d.created := Finset.disjoint_right.mp ht.disjoint hv
    rw [held, Desk.finish, Finset.sum_erase_eq_sub hv, Finset.erase_eq_of_notMem hout, held]
    ring

theorem Tidy.finish_leaves (ht : d.Tidy amount) {v : V} (hv : v ∈ d.created ∨ v ∈ d.accepted)
    (hb : d.row.inProgress = d.held amount) :
    (d.finish v).row.inProgress ≠ (d.finish v).held amount := by
  have hpos := ht.positive v hv
  rw [ht.held_finish hv, ← hb]
  change d.row.inProgress ≠ _
  linarith

omit [DecidableEq V] in
theorem Tidy.row (ht : d.Tidy amount) (row : Row) : Tidy amount { d with row } :=
  ⟨ht.disjoint, ht.positive⟩

theorem Tidy.step (ht : d.Tidy amount) (hb : d.row.inProgress = d.held amount)
    (h : d.step amount a = some d') :
    d'.Tidy amount ∧ (d'.row.inProgress = d'.held amount ↔ Returns amount ⟨d, a, d'⟩) := by
  cases a with
  | create v =>
    simp only [Desk.step, Option.ite_none_right_eq_some, Option.map_eq_some_iff] at h
    obtain ⟨⟨hpos, hc, ha, -⟩, row, hrow, rfl⟩ := h
    simp only [Row.spend, Option.ite_none_left_eq_some, Option.some.injEq] at hrow
    obtain ⟨-, rfl⟩ := hrow
    refine ⟨⟨Finset.disjoint_insert_left.mpr ⟨ha, ht.disjoint⟩, fun w hw => ?_⟩, ?_⟩
    · rw [Finset.mem_insert, or_assoc] at hw
      rcases hw with rfl | hw
      · exact hpos
      · exact ht.positive w hw
    · refine iff_of_true ?_ trivial
      rw [held, Finset.sum_insert hc]
      simp only [hb, held]
      ring
  | accept v =>
    simp only [Desk.step, guarded_iff] at h
    obtain ⟨hv, rfl⟩ := h
    have hout : v ∉ d.accepted := Finset.disjoint_left.mp ht.disjoint hv
    refine ⟨⟨?_, fun w hw => ?_⟩, iff_of_true ?_ trivial⟩
    · rw [Finset.disjoint_insert_right]
      exact ⟨Finset.notMem_erase _ _, ht.disjoint.mono_left (Finset.erase_subset _ _)⟩
    · rw [Finset.mem_insert] at hw
      rcases hw with hw | rfl | hw
      · exact ht.positive w (.inl (Finset.mem_of_mem_erase hw))
      · exact ht.positive w (.inl hv)
      · exact ht.positive w (.inr hw)
    · rw [held, Finset.sum_insert hout, Finset.sum_erase_eq_sub hv]
      simp only [hb, held]
      ring
  | reject v =>
    simp only [Desk.step, guarded_iff] at h
    obtain ⟨hv, rfl⟩ := h
    exact ⟨ht.finish v, iff_of_false (ht.finish_leaves (.inl hv) hb) not_false⟩
  | expire v | cancel v =>
    simp only [Desk.step, guarded_iff] at h
    obtain ⟨hv, rfl⟩ := h
    exact ⟨ht.finish v, iff_of_false (ht.finish_leaves hv hb) not_false⟩
  | arbitrate v =>
    simp only [Desk.step, guarded_iff] at h
    obtain ⟨hv, rfl⟩ := h
    exact ⟨ht.finish v, iff_of_false (ht.finish_leaves (.inr hv) hb) not_false⟩
  | settle v own escrow =>
    simp only [Desk.step, guarded_iff] at h
    obtain ⟨-, h⟩ := h
    -- Whatever row the release leaves, the vouchers are those of the desk.
    obtain ⟨row, hrow⟩ : ∃ row, (if own then { d with row := d.row.release escrow 0 } else d)
        = { d with row } := by
      cases own
      · exact ⟨d.row, rfl⟩
      · exact ⟨_, rfl⟩
    rw [hrow] at h
    subst h
    split_ifs with hv
    · refine ⟨(ht.row row).finish v, ?_⟩
      rw [(ht.row row).held_finish (.inr hv)]
      simp only [Returns, if_pos (show v ∈ d.accepted from hv), hb]
      change row.inProgress = d.held amount - amount v ↔ d.held amount - row.inProgress = amount v
      constructor <;> intro h <;> linarith
    · refine ⟨ht.row row, ?_⟩
      simp only [Returns, if_neg (show v ∉ d.accepted from hv), hb]
      change row.inProgress = d.held amount ↔ d.held amount - row.inProgress = 0
      constructor <;> intro h <;> linarith

def Fresh (d : Desk V) : Prop :=
  d.row.inProgress = 0 ∧ d.created = ∅ ∧ d.accepted = ∅

end Desk

namespace Sample

def funded : Desk Bool := { row := { allocated := 10, available := 10 } }

def deskAfter (as : List (Desk.Act Bool)) : Desk Bool := stateAfter (Desk.step fun _ => 5) as funded

def rejected : List (Desk.Act Bool) := [.create true, .reject true]

end Sample

open Sample

end Karma.Profile
