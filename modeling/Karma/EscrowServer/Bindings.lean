import Karma.EscrowServer.Code

/-! # The bindings of a task

`bind_for_task` of `services/chain/escrow_settlement.py` looks at the rows of the task, sends the
bind and then inserts a row. -/

namespace Karma.EscrowServer

open Evm Function

/-- A row of `EscrowBindingModel` of the task. -/
structure Bound where
  id : ℕ
  state : RowState

inductive Attempt
  /-- `bind_for_task` has looked at the rows. -/
  | bind
  /-- Its bind has landed, with the number `id`. -/
  | bound (id : ℕ)
  /-- `_rebind_partial` has been called for the row with the number `old`. -/
  | rebind (old : ℕ)
  | cleared (old : ℕ)
  | rebound (old id : ℕ)

/-- The binding that was opened and is in no row yet. -/
def Attempt.opened : Attempt → Option ℕ
  | .bound id | .rebound _ id => some id
  | _ => none

/-- The binding that was cancelled and is in a row still. -/
def Attempt.gone : Attempt → Option ℕ
  | .cleared old | .rebound old _ => some old
  | _ => none

def Attempt.target : Attempt → Option ℕ
  | .rebind old => some old
  | _ => none

/-- The live bindings that were opened for the task, the next number of a binding on the chain, the
committed rows (the newest first) and status, the lock on the settlement row, and the sessions. -/
structure Bindings (T : Type) where
  live : Finset ℕ
  next : ℕ
  rows : List Bound
  pending : Bool
  lock : Option T
  session : T → Option Attempt

namespace Bindings

inductive Act (T : Type)
  | defer
  | materializePendingBind (t : T)
  | bindForTask (t : T)
  /-- `submit_for_task` for less than the amount of the binding. -/
  | rebindPartial (t : T)
  /-- `cancel_binding` of the old binding. -/
  | clear (t : T)
  /-- `open_order` lands. -/
  | send (t : T)
  | commit (t : T)
  | lose (t : T)
  | ends (id : ℕ)
  | write (id : ℕ) (state : RowState)

variable {T : Type}

def Act.actor : Act T → Option T
  | .materializePendingBind t | .bindForTask t | .rebindPartial t | .clear t | .send t
  | .commit t | .lose t => some t
  | _ => none

def ids (s : Bindings T) : List ℕ := s.rows.map (·.id)

def opened (s : Bindings T) (t : T) : Option ℕ := (s.session t).bind Attempt.opened

def gone (s : Bindings T) (t : T) : Option ℕ := (s.session t).bind Attempt.gone

def target (s : Bindings T) (t : T) : Option ℕ := (s.session t).bind Attempt.target

def free (s : Bindings T) : Bool := s.rows.head?.all (·.state = .cancelled)

variable [DecidableEq T]

def set (s : Bindings T) (t : T) (y : Option Attempt) : Bindings T :=
  { s with session := update s.session t y }

def close (s : Bindings T) (t : T) : Bindings T :=
  { s.set t none with lock := if s.lock = some t then none else s.lock }

/-- `open_order` knows nothing of the bindings there are. -/
def land (s : Bindings T) (t : T) (y : ℕ → Attempt) : Bindings T :=
  { s.set t (some (y s.next)) with live := insert s.next s.live, next := s.next + 1 }

/-- The rows are committed; `_reflect` writes the settlement row with them. -/
def store (s : Bindings T) (t : T) (rows : List Bound) : Option (Bindings T) :=
  if s.lock.isSome ∧ s.lock ≠ some t then none
  else some { s.close t with rows := rows, pending := false }

def step (s : Bindings T) : Act T → Option (Bindings T)
  | .defer =>
    if s.lock.isSome then none
    else some { s with pending := s.pending || s.free }
  | .materializePendingBind t =>
    -- `FOR UPDATE` waits for the lock
    if (s.session t).isSome ∨ s.lock.isSome then none
    else if s.pending ∧ s.free then some { s.set t (some .bind) with lock := some t }
    else some s
  | .bindForTask t =>
    if (s.session t).isSome then none
    else if s.free then some (s.set t (some .bind))
    else some s
  | .rebindPartial t =>
    if (s.session t).isSome then none
    else match s.rows.head? with
      | some r =>
        if r.state = .active ∨ r.state = .disputed then some (s.set t (some (.rebind r.id)))
        else some s
      | none => some s
  | .clear t =>
    match s.session t with
    | some (.rebind old) =>
      if old ∈ s.live then
        some { s.set t (some (.cleared old)) with live := s.live.erase old }
      else some (s.close t)
    | _ => none
  | .send t =>
    match s.session t with
    | some .bind => some (s.land t .bound)
    | some (.cleared old) => some (s.land t (.rebound old))
    | _ => none
  | .commit t =>
    match s.session t with
    | some (.bound id) => s.store t (⟨id, .active⟩ :: s.rows)
    | some (.rebound old id) =>
      s.store t (s.rows.map fun r => if r.id = old then { r with id := id } else r)
    | _ => none
  | .lose t => if (s.session t).isSome then some (s.close t) else none
  | .ends id => some { s with live := s.live.erase id }
  | .write id state =>
    if state = .cancelled ∧ id ∈ s.live then none
    else some { s with
      rows := s.rows.map fun r => if r.id = id then { r with state := state } else r }

abbrev Reach (h : List (Entry (Bindings T) (Act T))) (s : Bindings T) : Prop :=
  Run (fun s => s.live = ∅ ∧ s.rows = [] ∧ ∀ t, s.session t = none) step h s

/-! ## What every run keeps -/

/-- A number is handed out once: an open bind has one of its own, which is in no row, and a binding
that was cancelled for another is in a row until that is committed. -/
structure Sound (s : Bindings T) : Prop where
  live : ∀ b ∈ s.live, b < s.next
  ids : ∀ b ∈ s.ids, b < s.next
  fresh : ∀ t b, s.opened t = some b → b < s.next ∧ b ∉ s.ids
  unique : ∀ t u b, s.opened t = some b → s.opened u = some b → t = u
  gone : ∀ t b, s.gone t = some b → b ∈ s.ids ∧ b ∉ s.live
  sole : ∀ t u b, s.gone t = some b → s.gone u = some b → t = u
  target : ∀ t b, s.target t = some b → b < s.next ∧ (b ∈ s.live → b ∈ s.ids)

structure Moves (s : Bindings T) (a : Act T) (s' : Bindings T) : Prop where
  session : ∀ u, a.actor ≠ some u → s'.session u = s.session u
  next : s.next ≤ s'.next
  live : ∀ b ∈ s'.live, b ∈ s.live ∨ s.next ≤ b ∧ b < s'.next
  stored : ∀ b ∈ s'.ids, b ∈ s.ids ∨ ∃ t, a.actor = some t ∧ s.opened t = some b
  dropped : ∀ b ∈ s.ids, b ∈ s'.ids ∨ ∃ t, a.actor = some t ∧ s.gone t = some b
  opened : ∀ t b, a.actor = some t → s'.opened t = some b → s.next ≤ b ∧ b < s'.next
  gone : ∀ t b, a.actor = some t → s'.gone t = some b →
    (s.gone t = some b ∨ b ∈ s.live) ∧ b ∈ s'.ids ∧ b ∉ s'.live
  target : ∀ t b, a.actor = some t → s'.target t = some b → b ∈ s'.ids
  fewer : (∀ t, a ≠ .send t) → s'.live ⊆ s.live
  kept : (∀ t, a ≠ .lose t) → ∀ t b, s.opened t = some b → s'.opened t = some b ∨ b ∈ s'.ids

variable {s s' : Bindings T} {a : Act T} {t : T}

omit [DecidableEq T] in
theorem eq_of_apart {p : T → Option ℕ}
    (hapart : ∀ {u v b}, a.actor = some u → a.actor ≠ some v → p u = some b → p v ≠ some b)
    (hothers : ∀ {u v b}, a.actor ≠ some u → a.actor ≠ some v → p u = some b → p v = some b →
      u = v) (u v : T) (b : ℕ) (hub : p u = some b) (hvb : p v = some b) : u = v := by
  by_cases hu : a.actor = some u <;> by_cases hv : a.actor = some v
  · exact Option.some.inj (hu.symm.trans hv)
  · exact absurd hvb (hapart hu hv hub)
  · exact absurd hub (hapart hv hu hvb)
  · exact hothers hu hv hub hvb

omit [DecidableEq T] in
theorem Moves.sound (hm : Moves s a s') (hs : s.Sound) : s'.Sound := by
  have hids : ∀ b ∈ s'.ids, b < s.next := by
    intro b hb
    rcases hm.stored b hb with hb | ⟨t, -, ht⟩
    · exact hs.ids b hb
    · exact (hs.fresh t b ht).1
  have hopened : ∀ {u b}, a.actor ≠ some u → s'.opened u = some b → s.opened u = some b := by
    intro u b hu hb
    rwa [Bindings.opened, hm.session u hu] at hb
  have hgone : ∀ {u b}, a.actor ≠ some u → s'.gone u = some b → s.gone u = some b := by
    intro u b hu hb
    rwa [Bindings.gone, hm.session u hu] at hb
  -- a live binding with a number from before the step was live before it
  have hlive : ∀ {b}, b ∈ s'.live → b < s.next → b ∈ s.live := fun hb hlt =>
    (hm.live _ hb).resolve_right fun h => absurd h.1 (Nat.not_le.mpr hlt)
  -- the session that acts shares no number with another
  have hfar : ∀ {u v b}, a.actor = some u → a.actor ≠ some v → s'.opened u = some b →
      s'.opened v ≠ some b := fun hu hv hb hb' =>
    absurd (hm.opened _ _ hu hb).1 (Nat.not_le.mpr (hs.fresh _ _ (hopened hv hb')).1)
  have hapart : ∀ {u v b}, a.actor = some u → a.actor ≠ some v → s'.gone u = some b →
      s'.gone v ≠ some b := by
    intro u v b hu hv hb hb'
    rcases (hm.gone u b hu hb).1 with h | h
    · exact hv (hs.sole u v b h (hgone hv hb') ▸ hu)
    · exact (hs.gone v b (hgone hv hb')).2 h
  refine ⟨?_, fun b hb => (hids b hb).trans_le hm.next, ?_,
    eq_of_apart hfar fun hu hv hub hvb => hs.unique _ _ _ (hopened hu hub) (hopened hv hvb), ?_,
    eq_of_apart hapart fun hu hv hub hvb => hs.sole _ _ _ (hgone hu hub) (hgone hv hvb), ?_⟩
  · intro b hb
    rcases hm.live b hb with hb | hb
    · exact (hs.live b hb).trans_le hm.next
    · exact hb.2
  · intro u b hb
    by_cases hu : a.actor = some u
    · obtain ⟨hle, hlt⟩ := hm.opened u b hu hb
      exact ⟨hlt, fun h => absurd hle (Nat.not_le.mpr (hids b h))⟩
    · obtain ⟨hlt, hnew⟩ := hs.fresh u b (hopened hu hb)
      refine ⟨hlt.trans_le hm.next, fun h => ?_⟩
      -- a new number in the rows was opened by the session that acts, and by no other
      rcases hm.stored b h with h | ⟨t, ht, h⟩
      · exact hnew h
      · exact hu (hs.unique u t b (hopened hu hb) h ▸ ht)
  · intro u b hb
    by_cases hu : a.actor = some u
    · exact (hm.gone u b hu hb).2
    · obtain ⟨hmem, hdead⟩ := hs.gone u b (hgone hu hb)
      refine ⟨(hm.dropped b hmem).resolve_right ?_, fun h => hdead (hlive h (hs.ids b hmem))⟩
      -- a number that leaves the rows was cancelled by the session that acts, and by no other
      rintro ⟨t, ht, h⟩
      exact hu (hs.sole u t b (hgone hu hb) h ▸ ht)
  · intro u b hb
    by_cases hu : a.actor = some u
    · have hmem := hm.target u b hu hb
      exact ⟨(hids b hmem).trans_le hm.next, fun _ => hmem⟩
    · rw [Bindings.target, hm.session u hu] at hb
      obtain ⟨hlt, hrow⟩ := hs.target u b hb
      refine ⟨hlt.trans_le hm.next, fun h => ?_⟩
      have hold := hlive h hlt
      -- what is live has not been cancelled, so its row keeps it
      refine (hm.dropped b (hrow hold)).resolve_right ?_
      rintro ⟨t, -, ht⟩
      exact (hs.gone t b ht).2 hold

omit [DecidableEq T] in
theorem Moves.of_same (hactor : a.actor = none) (hsession : s'.session = s.session)
    (hlive : s'.live ⊆ s.live) (hnext : s'.next = s.next) (hids : s'.ids = s.ids) :
    Moves s a s' where
  session u _ := congrFun hsession u
  next := hnext.ge
  live b hb := .inl (hlive hb)
  stored b hb := .inl (hids ▸ hb)
  dropped b hb := .inl (hids ▸ hb)
  opened t b ht := by cases hactor.symm.trans ht
  gone t b ht := by cases hactor.symm.trans ht
  target t b ht := by cases hactor.symm.trans ht
  fewer _ := hlive
  kept _ t b hb := .inl (by rwa [Bindings.opened, hsession])

variable {y : Option Attempt}

theorem Moves.of_update (hactor : a.actor = some t) (hsession : s'.session = update s.session t y)
    (hnext : s.next ≤ s'.next) (hlive : ∀ b ∈ s'.live, b ∈ s.live ∨ s.next ≤ b ∧ b < s'.next)
    (hstored : ∀ b ∈ s'.ids, b ∈ s.ids ∨ s.opened t = some b)
    (hdropped : ∀ b ∈ s.ids, b ∈ s'.ids ∨ s.gone t = some b)
    (hopened : ∀ b, y.bind Attempt.opened = some b → s.next ≤ b ∧ b < s'.next)
    (hgone : ∀ b, y.bind Attempt.gone = some b →
      (s.gone t = some b ∨ b ∈ s.live) ∧ b ∈ s'.ids ∧ b ∉ s'.live)
    (htarget : ∀ b, y.bind Attempt.target = some b → b ∈ s'.ids)
    (hfewer : (∀ t, a ≠ .send t) → s'.live ⊆ s.live)
    (hkept : (∀ t, a ≠ .lose t) → ∀ b, s.opened t = some b → b ∈ s'.ids) : Moves s a s' := by
  have hself : s'.session t = y := by rw [hsession, update_self]
  have hother : ∀ u, u ≠ t → s'.session u = s.session u := fun u hu => by
    rw [hsession, update_of_ne hu]
  have hactor' : ∀ {u}, a.actor = some u → u = t := fun hu =>
    Option.some.inj (hu.symm.trans hactor)
  refine ⟨fun u hu => hother u fun h => hu (h ▸ hactor), hnext, hlive,
    fun b hb => (hstored b hb).imp_right fun h => ⟨t, hactor, h⟩,
    fun b hb => (hdropped b hb).imp_right fun h => ⟨t, hactor, h⟩, ?_, ?_, ?_, hfewer, ?_⟩
  · intro u b hu hb
    obtain rfl := hactor' hu
    rw [Bindings.opened, hself] at hb
    exact hopened b hb
  · intro u b hu hb
    obtain rfl := hactor' hu
    rw [Bindings.gone, hself] at hb
    exact hgone b hb
  · intro u b hu hb
    obtain rfl := hactor' hu
    rw [Bindings.target, hself] at hb
    exact htarget b hb
  · intro ha u b hb
    rcases eq_or_ne u t with rfl | hu
    · exact .inr (hkept ha b hb)
    · refine .inl ?_
      rwa [Bindings.opened, hother u hu]

theorem Moves.of_quiet (hactor : a.actor = some t) (hsession : s'.session = update s.session t y)
    (hlive : s'.live = s.live) (hnext : s'.next = s.next) (hids : s'.ids = s.ids)
    (hopened : y.bind Attempt.opened = none) (hgone : y.bind Attempt.gone = none)
    (htarget : ∀ b, y.bind Attempt.target = some b → b ∈ s.ids)
    (hnone : (∀ t, a ≠ .lose t) → s.opened t = none) : Moves s a s' := by
  refine .of_update hactor hsession hnext.ge (fun b hb => .inl (hlive ▸ hb))
    (fun b hb => .inl (hids ▸ hb)) (fun b hb => .inl (hids ▸ hb)) ?_ ?_ (hids ▸ htarget)
    (fun _ => hlive.subset) ?_
  · intro b hb
    cases hopened.symm.trans hb
  · intro b hb
    cases hgone.symm.trans hb
  · intro ha b hb
    cases (hnone ha).symm.trans hb

omit [DecidableEq T] in
theorem opened_eq (h : s.session t = y) : s.opened t = y.bind Attempt.opened := by
  rw [opened, h]

omit [DecidableEq T] in
theorem gone_eq (h : s.session t = y) : s.gone t = y.bind Attempt.gone := by
  rw [gone, h]

theorem Moves.of_clear {old : ℕ} (hs : s.Sound) (ht : s.session t = some (.rebind old))
    (hlive : old ∈ s.live) :
    Moves s (.clear t) { s.set t (some (.cleared old)) with live := s.live.erase old } := by
  have htarget : s.target t = some old := by
    rw [Bindings.target, ht]
    rfl
  refine .of_update rfl rfl le_rfl (fun b hb => .inl (Finset.mem_of_mem_erase hb))
    (fun b hb => .inl hb) (fun b hb => .inl hb) (fun b hb => by cases hb) ?_
    (fun b hb => by cases hb) (fun _ => Finset.erase_subset _ _) ?_
  · intro b hb
    cases hb
    exact ⟨.inr hlive, (hs.target t old htarget).2 hlive, Finset.notMem_erase old _⟩
  · intro _ b hb
    cases (opened_eq ht).symm.trans hb

theorem Moves.of_land {y : ℕ → Attempt} (hs : s.Sound) (hnone : s.opened t = none)
    (hy : ∀ n, (y n).opened = some n ∧ (y n).gone = s.gone t ∧ (y n).target = none) :
    Moves s (.send t) (s.land t y) := by
  refine .of_update (y := some (y s.next)) rfl rfl (Nat.le_succ _) ?_ (fun b hb => .inl hb)
    (fun b hb => .inl hb) ?_ ?_ ?_ (fun h => absurd rfl (h t)) ?_
  · intro b hb
    rcases Finset.mem_insert.mp hb with rfl | hb
    · exact .inr ⟨le_rfl, Nat.lt_succ_self _⟩
    · exact .inl hb
  · intro b hb
    obtain rfl := Option.some.inj ((hy s.next).1.symm.trans hb)
    exact ⟨le_rfl, Nat.lt_succ_self _⟩
  · intro b hb
    have hb := (hy s.next).2.1.symm.trans hb
    obtain ⟨hmem, hdead⟩ := hs.gone t b hb
    refine ⟨.inl hb, hmem, fun h => ?_⟩
    rcases Finset.mem_insert.mp h with rfl | h
    · exact (hs.ids _ hmem).false
    · exact hdead h
  · intro b hb
    cases (hy s.next).2.2.symm.trans hb
  · intro _ b hb
    cases hnone.symm.trans hb

theorem Moves.of_store {rows : List Bound} {id : ℕ} (h : s.store t rows = some s')
    (hopened : s.opened t = some id) (hid : id ∈ rows.map (·.id))
    (hstored : ∀ b ∈ rows.map (·.id), b ∈ s.ids ∨ b = id)
    (hdropped : ∀ b ∈ s.ids, b ∈ rows.map (·.id) ∨ s.gone t = some b) :
    Moves s (.commit t) s' := by
  unfold store at h
  split_ifs at h
  cases h
  refine .of_update (y := none) rfl rfl le_rfl (fun b hb => .inl hb) ?_ hdropped
    (fun b hb => by cases hb) (fun b hb => by cases hb) (fun b hb => by cases hb)
    (fun _ => subset_rfl) ?_
  · exact fun b hb => (hstored b hb).imp_right fun h => hopened.trans (congrArg some h.symm)
  · intro _ b hb
    obtain rfl := Option.some.inj (hopened.symm.trans hb)
    exact hid

theorem map_id_map (rows : List Bound) {f : Bound → Bound} {g : ℕ → ℕ}
    (h : ∀ r, (f r).id = g r.id) : (rows.map f).map (·.id) = (rows.map (·.id)).map g := by
  rw [List.map_map, List.map_map]
  exact List.map_congr_left fun r _ => h r

theorem Moves.of_rebound {old id : ℕ} (hs : s.Sound) (ht : s.session t = some (.rebound old id))
    (h : s.store t (s.rows.map fun r => if r.id = old then { r with id := id } else r) = some s') :
    Moves s (.commit t) s' := by
  have hmap := map_id_map s.rows (f := fun r => if r.id = old then { r with id := id } else r)
    (g := fun b => if b = old then id else b) fun r => by split_ifs <;> rfl
  refine .of_store h (opened_eq ht) ?_ ?_ ?_
  · rw [hmap]
    exact List.mem_map.mpr ⟨old, (hs.gone t old (gone_eq ht)).1, if_pos rfl⟩
  · intro b hb
    rw [hmap] at hb
    obtain ⟨c, hc, rfl⟩ := List.mem_map.mp hb
    split_ifs
    · exact .inr rfl
    · exact .inl hc
  · intro b hb
    rw [hmap]
    rcases eq_or_ne b old with rfl | hne
    · exact .inr (gone_eq ht)
    · exact .inl (List.mem_map.mpr ⟨b, hb, if_neg hne⟩)

theorem moves (hs : s.Sound) (h : s.step a = some s') : Moves s a s' := by
  have hnone : ∀ {t}, ¬ (s.session t).isSome → s.opened t = none := fun ht =>
    opened_eq (Option.not_isSome_iff_eq_none.mp ht)
  have hidle : ∀ {a : Act T} {t}, a.actor = some t → ¬ (s.session t).isSome → Moves s a s := by
    intro a t hactor ht
    have hsession := Option.not_isSome_iff_eq_none.mp ht
    refine .of_quiet (y := none) hactor ?_ rfl rfl rfl rfl rfl (fun b hb => by cases hb)
      fun _ => hnone ht
    rw [← hsession, update_eq_self]
  cases a with
  | defer =>
    simp only [step] at h
    split_ifs at h
    cases h
    exact .of_same rfl rfl subset_rfl rfl rfl
  | materializePendingBind t =>
    simp only [step] at h
    split_ifs at h with hwait hfree
    · cases h
      exact .of_quiet rfl rfl rfl rfl rfl rfl rfl (fun b hb => by cases hb)
        fun _ => hnone (not_or.mp hwait).1
    · cases h
      exact hidle rfl (not_or.mp hwait).1
  | bindForTask t =>
    simp only [step] at h
    split_ifs at h with hbusy hfree
    · cases h
      exact .of_quiet rfl rfl rfl rfl rfl rfl rfl (fun b hb => by cases hb) fun _ => hnone hbusy
    · cases h
      exact hidle rfl hbusy
  | rebindPartial t =>
    simp only [step] at h
    split_ifs at h with hbusy
    split at h
    case h_1 r hrow =>
      split_ifs at h
      · cases h
        refine .of_quiet rfl rfl rfl rfl rfl rfl rfl (fun b hb => ?_) fun _ => hnone hbusy
        cases hb
        exact List.mem_map_of_mem (List.mem_of_head? hrow)
      · cases h
        exact hidle rfl hbusy
    case h_2 =>
      cases h
      exact hidle rfl hbusy
  | clear t =>
    simp only [step] at h
    split at h
    case h_1 old ht =>
      have hopened := opened_eq ht
      split_ifs at h with hlive
      · cases h
        exact .of_clear hs ht hlive
      · cases h
        exact .of_quiet rfl rfl rfl rfl rfl rfl rfl (fun b hb => by cases hb) fun _ => hopened
    case h_2 => cases h
  | send t =>
    simp only [step] at h
    split at h
    case h_1 ht =>
      cases h
      exact .of_land hs (opened_eq ht) fun n => ⟨rfl, (gone_eq ht).symm, rfl⟩
    case h_2 old ht =>
      cases h
      exact .of_land hs (opened_eq ht) fun n => ⟨rfl, (gone_eq ht).symm, rfl⟩
    case h_3 => cases h
  | commit t =>
    simp only [step] at h
    split at h
    case h_1 id ht =>
      exact .of_store h (opened_eq ht) List.mem_cons_self
        (fun b hb => (List.mem_cons.mp hb).symm) fun b hb => .inl (List.mem_cons_of_mem _ hb)
    case h_2 old id ht =>
      exact .of_rebound hs ht h
    case h_3 => cases h
  | lose t =>
    simp only [step] at h
    split_ifs at h
    cases h
    exact .of_quiet rfl rfl rfl rfl rfl rfl rfl (fun b hb => by cases hb) fun h => absurd rfl (h t)
  | ends id =>
    cases h
    exact .of_same rfl rfl (Finset.erase_subset _ _) rfl rfl
  | write id state =>
    simp only [step] at h
    split_ifs at h
    cases h
    refine .of_same rfl rfl subset_rfl rfl ?_
    have hmap := map_id_map s.rows (f := fun r => if r.id = id then { r with state := state }
      else r) (g := fun b => b) fun r => by split_ifs <;> rfl
    exact hmap.trans (List.map_id' _)

theorem Reach.sound {h : List (Entry (Bindings T) (Act T))} (hr : Reach h s) : s.Sound := by
  refine hr.safe (fun s h0 => ?_) fun s a s' hs h => (moves hs h).sound hs
  obtain ⟨hlive, hrows, hsession⟩ := h0
  have hids : s.ids = [] := by rw [ids, hrows, List.map_nil]
  refine ⟨?_, ?_, ?_, ?_, ?_, ?_, ?_⟩ <;> simp [hlive, hids, opened, gone, target, hsession]

/-! ## One live binding -/

/-- A row has it, or a session that has opened it and can still commit. -/
def Referenced (s : Bindings T) (b : ℕ) : Prop := b ∈ s.ids ∨ ∃ t, s.opened t = some b

/-- **The intended property.** -/
def Single (s : Bindings T) : Prop := s.live.card ≤ 1 ∧ ∀ b ∈ s.live, s.Referenced b

def Keeps (e : Entry (Bindings T) (Act T)) : Prop :=
  (∀ t, e.act = .send t → e.pre.live = ∅) ∧
    ∀ t b, e.act = .lose t → e.pre.opened t = some b → b ∉ e.pre.live

omit [DecidableEq T] in
theorem Moves.referenced (hm : Moves s a s') (hs : s.Sound) (ha : ∀ t, a ≠ .lose t) {b : ℕ}
    (hb : b ∈ s.live) (h : s.Referenced b) : s'.Referenced b := by
  rcases h with h | ⟨t, h⟩
  · refine .inl ((hm.dropped b h).resolve_right ?_)
    rintro ⟨t, -, ht⟩
    exact (hs.gone t b ht).2 hb
  · rcases hm.kept ha t b h with h | h
    · exact .inr ⟨t, h⟩
    · exact .inl h

omit [DecidableEq T] in
theorem Moves.single (hm : Moves s a s') (hs : s.Sound) (hsend : ∀ t, a ≠ .send t)
    (hlose : ∀ t, a ≠ .lose t) (h : s.Single) : s'.Single :=
  ⟨(Finset.card_le_card (hm.fewer hsend)).trans h.1, fun b hb =>
    have hold := hm.fewer hsend hb
    hm.referenced hs hlose hold (h.2 b hold)⟩

theorem single_send_iff (hs : s.Sound) (h : s.step (.send t) = some s') :
    s'.Single ↔ s.live = ∅ := by
  have hshape : s'.live = insert s.next s.live ∧ s'.opened t = some s.next := by
    simp only [step] at h
    split at h
    case h_3 => cases h
    all_goals
      cases h
      refine ⟨rfl, ?_⟩
      simp only [opened, land, set, update_self]
      rfl
  obtain ⟨hlive, hopened⟩ := hshape
  have hnew : s.next ∉ s.live := fun h => (hs.live _ h).false
  constructor
  · intro hsingle
    have hcard := hsingle.1
    rw [hlive, Finset.card_insert_of_notMem hnew] at hcard
    exact Finset.card_eq_zero.mp (by omega)
  · intro hempty
    rw [hempty] at hlive
    refine ⟨by rw [hlive]; rfl, fun b hb => ?_⟩
    rw [hlive] at hb
    rcases Finset.mem_insert.mp hb with rfl | hb
    · exact .inr ⟨t, hopened⟩
    · cases hb

theorem single_close_iff (hs : s.Sound) (hsingle : s.Single) :
    (s.close t).Single ↔ ∀ b, s.opened t = some b → b ∉ s.live := by
  have hself : (s.close t).opened t = none := by
    simp only [opened, close, set, update_self]
    rfl
  have hother : ∀ u, u ≠ t → (s.close t).opened u = s.opened u := fun u hu => by
    simp only [opened, close, set, update_of_ne hu]
  constructor
  · intro h b hb hlive
    rcases h.2 b hlive with hids | ⟨u, hu⟩
    · exact (hs.fresh t b hb).2 hids
    · have hne : u ≠ t := by
        rintro rfl
        cases hself.symm.trans hu
      exact hne (hs.unique u t b ((hother u hne).symm.trans hu) hb)
  · intro h
    refine ⟨hsingle.1, fun b hlive => ?_⟩
    rcases hsingle.2 b hlive with hids | ⟨u, hu⟩
    · exact .inl hids
    · refine .inr ⟨u, (hother u ?_).trans hu⟩
      rintro rfl
      exact h b hu hlive

end Bindings

open Bindings in
/-- **The binding of a task.** -/
theorem one_live_binding_iff {T : Type} [DecidableEq T]
    {h : List (Entry (Bindings T) (Bindings.Act T))} {s : Bindings T} (hr : Bindings.Reach h s) :
    Throughout (fun _ s => s.Single) h s ↔ ∀ e ∈ h, Keeps e := by
  refine hr.throughout_iff_step (fun s h0 => ?_) fun h s a s' hr hsingle hstep => ?_
  · simp [Single, h0.1]
  · have hs := Reach.sound hr
    by_cases hsend : ∃ t, a = .send t
    · obtain ⟨t, rfl⟩ := hsend
      rw [single_send_iff hs hstep]
      exact ⟨fun h => ⟨fun _ _ => h, fun _ _ ha => by cases ha⟩, fun h => h.1 t rfl⟩
    · by_cases hlose : ∃ t, a = .lose t
      · obtain ⟨t, rfl⟩ := hlose
        simp only [Bindings.step] at hstep
        split_ifs at hstep
        cases hstep
        rw [single_close_iff hs hsingle]
        refine ⟨fun h => ⟨fun _ ha => (by cases ha), ?_⟩, fun h b => h.2 t b rfl⟩
        rintro t' b ⟨⟩
        exact h b
      · have hsend' := not_exists.mp hsend
        have hlose' := not_exists.mp hlose
        exact iff_of_true ((moves hs hstep).single hs hsend' hlose' hsingle)
          ⟨fun t ha => absurd ha (hsend' t), fun t _ ha => absurd ha (hlose' t)⟩

namespace Sample

def unbound : Bindings (Fin 2) := ⟨∅, 0, [], false, none, fun _ => none⟩

def boundAfter (as : List (Bindings.Act (Fin 2))) : Bindings (Fin 2) :=
  stateAfter Bindings.step as unbound

def boundHistory (as : List (Bindings.Act (Fin 2))) :
    List (Entry (Bindings (Fin 2)) (Bindings.Act (Fin 2))) :=
  record Bindings.step as unbound []

def inParts : List (Bindings.Act (Fin 2)) :=
  [.defer, .materializePendingBind 0, .send 0, .commit 0,
    .rebindPartial 1, .clear 1, .send 1, .commit 1]

def orphaned : List (Bindings.Act (Fin 2)) :=
  [.defer, .materializePendingBind 0, .send 0, .lose 0]

def again : List (Bindings.Act (Fin 2)) :=
  orphaned ++ [.materializePendingBind 0, .send 0, .commit 0]

end Sample

open Sample in
theorem one_live_binding_sample : (boundAfter inParts).live = {1} ∧ (boundAfter inParts).ids = [1] ∧
      (Throughout (fun _ s => s.Single) (boundHistory inParts) (boundAfter inParts) ↔
        ∀ e ∈ boundHistory inParts, Bindings.Keeps e) :=
  ⟨by decide +kernel, by decide +kernel, one_live_binding_iff
    (.stateAfter (.start ⟨rfl, rfl, fun _ => rfl⟩))⟩

open Sample in
/-- **A binding that nothing knows of, and then two.** -/
theorem binding_left_behind : (Bindings.Reach (boundHistory orphaned) (boundAfter orphaned) ∧
      (boundAfter orphaned).live = {0} ∧ (boundAfter orphaned).ids = [] ∧
      (boundAfter orphaned).pending = true ∧ ¬ (boundAfter orphaned).Referenced 0) ∧
    Bindings.Reach (boundHistory again) (boundAfter again) ∧
      (boundAfter again).live = {0, 1} ∧ (boundAfter again).ids = [1] ∧
      ¬ (boundAfter again).Single := by
  have hids : (boundAfter orphaned).ids = [] := by decide +kernel
  have hlive : (boundAfter again).live = {0, 1} := by decide +kernel
  refine ⟨⟨.stateAfter (.start ⟨rfl, rfl, fun _ => rfl⟩), by decide +kernel,
    hids, by decide +kernel, ?_⟩,
    .stateAfter (.start ⟨rfl, rfl, fun _ => rfl⟩), hlive, by decide +kernel, fun h => ?_⟩
  · rintro (h | ⟨t, h⟩)
    · rw [hids] at h
      cases h
    · have hopened : ∀ t, (boundAfter orphaned).opened t = none := by decide +kernel
      cases (hopened t).symm.trans h
  · have hcard := h.1
    rw [hlive] at hcard
    exact absurd hcard (by decide)

end Karma.EscrowServer
